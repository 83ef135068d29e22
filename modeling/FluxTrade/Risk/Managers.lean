import Mathlib.Data.Rat.Defs
import Mathlib.Logic.Function.Basic
import FluxTrade.Domain

/-!
# Credit and position tables

`CreditManager` keeps the money of an account and `MarginManager` its position
in a symbol, both in tables addressed modulo their size. An update is a function
on one entry applied at the entry's slot, after the entry has been claimed. The
arithmetic is the machine's: unsigned words wrap, and a signed word is read back
from the wrapped difference.
-/

namespace FluxTrade

/-- `RiskContext`: what the pipeline is told about an inbound order. -/
structure RiskContext where
  orderId : OrderId
  price : Price
  qty : Quantity
  timestamp : UInt64
  referencePrice : Price
  clientOrderId : UInt64
  symbolId : SymbolId
  clientId : ClientId
  accountId : AccountId
  side : Side
  type : OrderType
  deriving DecidableEq

/-- `RiskLimits`. The tolerance is the rational value of the stored `double`. -/
structure RiskLimits where
  maxDailyExposure : UInt64
  maxOrderQty : UInt64
  maxOrderPrice : Int64
  priceBandTolerance : ℚ
  maxOrdersPerSec : UInt32
  killSwitchActive : Bool
  deriving DecidableEq

/-- `price.ticks() * qty.units() / 1000000ULL`: the signed ticks are converted to an unsigned word
before the product. -/
def orderCost (price : Price) (qty : Quantity) : UInt64 := price.toUInt64 * qty / 1000000

/-- The accounts whose table slots are theirs alone. -/
def traders : List AccountId := (List.range 127).map fun index => UInt32.ofNat (index + 1)

/-- The traders are the accounts one to 127. -/
theorem mem_traders {accountId : AccountId} :
    accountId ∈ traders ↔ 1 ≤ accountId.toNat ∧ accountId.toNat ≤ 127 := by
  constructor
  · intro member
    obtain ⟨index, below, rfl⟩ := List.mem_map.mp member
    have small := List.mem_range.mp below
    rw [UInt32.toNat_ofNat', Nat.mod_eq_of_lt (by omega)]
    omega
  · rintro ⟨low, high⟩
    refine List.mem_map.mpr ⟨accountId.toNat - 1, List.mem_range.mpr (by omega), ?_⟩
    rw [Nat.sub_add_cancel low, UInt32.ofNat_toNat]

/-! ## Credit -/

/-- `AccountState`. -/
structure AccountState where
  availableBuyingPower : UInt64
  usedBuyingPower : UInt64
  reservedCapital : UInt64
  dailyExposure : UInt64
  accountId : UInt64
  deriving DecidableEq

namespace AccountState

/-- An entry without an owner takes the identifier it is asked for. -/
def claim (state : AccountState) (accountId : AccountId) : AccountState :=
  if state.accountId = 0 then { state with accountId := accountId.toUInt64 } else state

/-- An accepted order reserves its cost. -/
def accept (state : AccountState) (cost : UInt64) : AccountState :=
  if cost ≤ state.availableBuyingPower then
    { state with
      availableBuyingPower := state.availableBuyingPower - cost
      reservedCapital := state.reservedCapital + cost }
  else state

/-- A fill uses up the reservation first and then the buying power, if that suffices. -/
def fill (state : AccountState) (cost : UInt64) : AccountState :=
  let paid : AccountState :=
    if cost ≤ state.reservedCapital then
      { state with reservedCapital := state.reservedCapital - cost }
    else
      let remainder := cost - state.reservedCapital
      if remainder ≤ state.availableBuyingPower then
        { state with
          reservedCapital := 0
          availableBuyingPower := state.availableBuyingPower - remainder }
      else { state with reservedCapital := 0 }
  { paid with
    usedBuyingPower := state.usedBuyingPower + cost
    dailyExposure := state.dailyExposure + cost }

/-- A cancelled order releases its cost. -/
def cancel (state : AccountState) (cost : UInt64) : AccountState :=
  if cost ≤ state.reservedCapital then
    { state with
      reservedCapital := state.reservedCapital - cost
      availableBuyingPower := state.availableBuyingPower + cost }
  else state

variable (state : AccountState) (accountId : AccountId)

/-- Claiming keeps the buying power. -/
@[simp] theorem claim_available :
    (state.claim accountId).availableBuyingPower = state.availableBuyingPower := by
  unfold claim
  split <;> rfl

/-- It keeps the used power. -/
@[simp] theorem claim_used :
    (state.claim accountId).usedBuyingPower = state.usedBuyingPower := by
  unfold claim
  split <;> rfl

/-- It keeps the reservation. -/
@[simp] theorem claim_reserved :
    (state.claim accountId).reservedCapital = state.reservedCapital := by
  unfold claim
  split <;> rfl

/-- It keeps the exposure. -/
@[simp] theorem claim_exposure :
    (state.claim accountId).dailyExposure = state.dailyExposure := by
  unfold claim
  split <;> rfl

/-- Claiming twice is claiming once. -/
@[simp] theorem claim_claim :
    (state.claim accountId).claim accountId = state.claim accountId := by
  by_cases free : state.accountId = 0
  · simp only [claim, free, if_true]
    split <;> rfl
  · simp only [claim, free, if_false]

end AccountState

/-- `CreditManager`: 1024 entries. -/
structure CreditManager where
  accounts : Nat → AccountState

namespace CreditManager

/-- The entry of an account. -/
def slot (accountId : AccountId) : Nat := accountId.toNat % 1024

/-- The entry an account is served from. -/
def account (manager : CreditManager) (accountId : AccountId) : AccountState :=
  manager.accounts (slot accountId)

/-- `CreditManager::get_account_state`, as its effect on the table. -/
def getAccountState (manager : CreditManager) (accountId : AccountId) : CreditManager :=
  ⟨Function.update manager.accounts (slot accountId)
    ((manager.account accountId).claim accountId)⟩

/-- Apply an update to the entry of an account. -/
def update (manager : CreditManager) (accountId : AccountId)
    (change : AccountState → AccountState) : CreditManager :=
  let claimed := manager.getAccountState accountId
  ⟨Function.update claimed.accounts (slot accountId) (change (claimed.account accountId))⟩

/-- `CreditManager::validate`. -/
def validate (ctx : RiskContext) (limits : RiskLimits) (account : AccountState) : Bool :=
  let cost := orderCost ctx.price ctx.qty
  if account.availableBuyingPower < cost then false
  else if 0 < limits.maxDailyExposure ∧ limits.maxDailyExposure < account.dailyExposure + cost then
    false
  else true

/-- `CreditManager::update_on_accept`. -/
def updateOnAccept (manager : CreditManager) (accountId : AccountId) (cost : UInt64) :
    CreditManager :=
  manager.update accountId fun state => state.accept cost

/-- `CreditManager::update_on_fill`. -/
def updateOnFill (manager : CreditManager) (accountId : AccountId) (cost : UInt64) :
    CreditManager :=
  manager.update accountId fun state => state.fill cost

/-- `CreditManager::update_on_cancel`. -/
def updateOnCancel (manager : CreditManager) (accountId : AccountId) (cost : UInt64) :
    CreditManager :=
  manager.update accountId fun state => state.cancel cost

/-- `CreditManager::reset`, which the constructor calls. -/
def new : CreditManager :=
  ⟨fun index => ⟨1000000000000000, 0, 0, 0, index.toUInt64⟩⟩

variable (manager : CreditManager) (accountId other : AccountId)
  (change : AccountState → AccountState)

/-- The entry read is claimed. -/
@[simp] theorem account_getAccountState :
    (manager.getAccountState accountId).account accountId =
      (manager.account accountId).claim accountId := by
  simp only [account, getAccountState, Function.update_self]

/-- Another entry is untouched. -/
theorem account_getAccountState_of_ne (apart : slot other ≠ slot accountId) :
    (manager.getAccountState accountId).account other = manager.account other := by
  simp only [account, getAccountState, Function.update_of_ne apart]

/-- Claiming an entry leaves every other as it is. -/
theorem account_getAccountState_cases :
    (manager.getAccountState accountId).account other = manager.account other ∨
      (manager.getAccountState accountId).account other =
        (manager.account other).claim accountId := by
  by_cases home : slot other = slot accountId
  · right
    have read (table : CreditManager) : table.account other = table.account accountId :=
      congrArg table.accounts home
    rw [read, read, account_getAccountState]
  · exact Or.inl (account_getAccountState_of_ne manager accountId other home)

/-- Reading twice is reading once. -/
@[simp] theorem getAccountState_getAccountState :
    (manager.getAccountState accountId).getAccountState accountId =
      manager.getAccountState accountId := by
  rw [getAccountState, account_getAccountState, AccountState.claim_claim]
  simp only [getAccountState, Function.update_idem]

/-- A callback changes the claimed entry. -/
@[simp] theorem account_update :
    (manager.update accountId change).account accountId =
      change ((manager.account accountId).claim accountId) := by
  rw [update, account_getAccountState, account]
  simp only [Function.update_self]

/-- Another entry is untouched. -/
theorem account_update_of_ne (apart : slot other ≠ slot accountId) :
    (manager.update accountId change).account other = manager.account other := by
  rw [← account_getAccountState_of_ne manager accountId other apart]
  simp only [update, account, Function.update_of_ne apart]

/-- An update claims the entry itself. -/
@[simp] theorem update_getAccountState :
    (manager.getAccountState accountId).update accountId change =
      manager.update accountId change := by
  simp only [update, getAccountState_getAccountState]

/-- Accounts with a slot of their own do not share it. -/
theorem slot_ne {accountId other : AccountId} (trader : accountId ∈ traders)
    (trader' : other ∈ traders) (apart : accountId ≠ other) : slot accountId ≠ slot other := by
  intro same
  have accounts : accountId.toNat % 1024 = other.toNat % 1024 := same
  obtain ⟨_, high⟩ := mem_traders.mp trader
  obtain ⟨_, high'⟩ := mem_traders.mp trader'
  apply apart
  apply UInt32.toNat_inj.mp
  omega

/-- The owner of an entry does not matter to the check. -/
@[simp] theorem validate_claim (ctx : RiskContext) (limits : RiskLimits) (state : AccountState)
    (accountId : AccountId) :
    validate ctx limits (state.claim accountId) = validate ctx limits state := by
  simp only [validate, AccountState.claim_available, AccountState.claim_exposure]

/-- A passed check leaves enough buying power. -/
theorem cost_le_of_validate {ctx : RiskContext} {limits : RiskLimits} {account : AccountState}
    (valid : validate ctx limits account = true) :
    orderCost ctx.price ctx.qty ≤ account.availableBuyingPower := by
  simp only [validate] at valid
  split at valid
  · cases valid
  · rename_i enough
    exact UInt64.not_lt.mp enough

end CreditManager

/-! ## Positions -/

/-- `PositionState`. -/
structure PositionState where
  netQty : Int64
  longQty : UInt64
  shortQty : UInt64
  grossQty : UInt64
  maxLongLimit : UInt64
  maxShortLimit : UInt64
  symbolId : UInt32
  accountId : UInt32
  deriving DecidableEq

namespace PositionState

/-- An entry without an owner takes the identifiers it is asked for. -/
def claim (state : PositionState) (accountId : AccountId) (symbolId : SymbolId) : PositionState :=
  if state.accountId = 0 ∧ state.symbolId = 0 then { state with accountId, symbolId } else state

/-- A fill moves the position of its side. -/
def fill (state : PositionState) (side : Side) (qty : UInt64) : PositionState :=
  let moved : PositionState :=
    match side with
    | .buy => { state with longQty := state.longQty + qty }
    | .sell => { state with shortQty := state.shortQty + qty }
  { moved with
    netQty := moved.longQty.toInt64 - moved.shortQty.toInt64
    grossQty := moved.longQty + moved.shortQty }

/-- Claiming changes no quantity and no limit. -/
@[simp] theorem claim_quantities (state : PositionState) (accountId : AccountId)
    (symbolId : SymbolId) : (state.claim accountId symbolId).netQty = state.netQty ∧
      (state.claim accountId symbolId).longQty = state.longQty ∧
      (state.claim accountId symbolId).shortQty = state.shortQty ∧
      (state.claim accountId symbolId).maxLongLimit = state.maxLongLimit ∧
      (state.claim accountId symbolId).maxShortLimit = state.maxShortLimit := by
  unfold claim
  split <;> exact ⟨rfl, rfl, rfl, rfl, rfl⟩

/-- The net position is the difference of what was bought and what was sold. -/
def Netted (state : PositionState) : Prop :=
  state.netQty = state.longQty.toInt64 - state.shortQty.toInt64
  deriving Decidable

/-- Claiming keeps a position netted. -/
@[simp] theorem claim_netted (state : PositionState) (accountId : AccountId)
    (symbolId : SymbolId) : (state.claim accountId symbolId).Netted ↔ state.Netted := by
  simp only [Netted, claim_quantities]

/-- A fill moves the net position by its quantity. -/
theorem Netted.fill_netQty {state : PositionState} (netted : state.Netted) (side : Side)
    (qty : UInt64) :
    (state.fill side qty).netQty =
      match side with
      | .buy => state.netQty + qty.toInt64
      | .sell => state.netQty - qty.toInt64 := by
  rw [Netted] at netted
  cases side with
  | buy =>
    simp only [fill, netted, UInt64.toInt64_add]
    grind
  | sell =>
    simp only [fill, netted, UInt64.toInt64_add]
    grind

/-- A fill leaves its position netted. -/
theorem fill_netted (state : PositionState) (side : Side) (qty : UInt64) :
    (state.fill side qty).Netted := by
  cases side <;> rfl

end PositionState

/-- `MarginManager`: 128 accounts by 32 symbols. -/
structure MarginManager where
  positions : Nat × Nat → PositionState

namespace MarginManager

/-- The entry of an account and a symbol. -/
def slot (accountId : AccountId) (symbolId : SymbolId) : Nat × Nat :=
  (accountId.toNat % 128, symbolId.toNat % 32)

/-- The entry a position is served from. -/
def position (manager : MarginManager) (accountId : AccountId) (symbolId : SymbolId) :
    PositionState :=
  manager.positions (slot accountId symbolId)

/-- `MarginManager::get_position_state`, as its effect on the table. -/
def getPositionState (manager : MarginManager) (accountId : AccountId) (symbolId : SymbolId) :
    MarginManager :=
  ⟨Function.update manager.positions (slot accountId symbolId)
    ((manager.position accountId symbolId).claim accountId symbolId)⟩

/-- `MarginManager::validate`. -/
def validate (ctx : RiskContext) (position : PositionState) : Bool :=
  let tradeQty := ctx.qty.toInt64
  let nextNet :=
    match ctx.side with
    | .buy => position.netQty + tradeQty
    | .sell => position.netQty - tradeQty
  if 0 < nextNet ∧ 0 < position.maxLongLimit ∧ position.maxLongLimit < nextNet.toUInt64 then false
  else if nextNet < 0 ∧ 0 < position.maxShortLimit ∧
      position.maxShortLimit < (-nextNet).toUInt64 then
    false
  else true

/-- The owner of an entry does not matter to the check. -/
@[simp] theorem validate_claim (ctx : RiskContext) (state : PositionState) (accountId : AccountId)
    (symbolId : SymbolId) :
    validate ctx (state.claim accountId symbolId) = validate ctx state := by
  simp only [validate, PositionState.claim_quantities]

/-- `MarginManager::update_on_fill`. -/
def updateOnFill (manager : MarginManager) (accountId : AccountId) (symbolId : SymbolId)
    (side : Side) (qty : UInt64) : MarginManager :=
  let claimed := manager.getPositionState accountId symbolId
  ⟨Function.update claimed.positions (slot accountId symbolId)
    ((claimed.position accountId symbolId).fill side qty)⟩

/-- `MarginManager::reset`, which the constructor calls. -/
def new : MarginManager :=
  ⟨fun index => ⟨0, 0, 0, 0, 1000000000, 1000000000, index.2.toUInt32, index.1.toUInt32⟩⟩

section

variable (manager : MarginManager) (accountId otherAccount : AccountId)
  (symbolId otherSymbol : SymbolId)

/-- The position read is claimed. -/
@[simp] theorem position_getPositionState :
    (manager.getPositionState accountId symbolId).position accountId symbolId =
      (manager.position accountId symbolId).claim accountId symbolId := by
  simp only [position, getPositionState, Function.update_self]

/-- Another position is untouched. -/
theorem position_getPositionState_of_ne
    (apart : slot otherAccount otherSymbol ≠ slot accountId symbolId) :
    (manager.getPositionState accountId symbolId).position otherAccount otherSymbol =
      manager.position otherAccount otherSymbol := by
  simp only [position, getPositionState, Function.update_of_ne apart]

/-- Claiming an entry leaves every other as it is. -/
theorem position_getPositionState_cases :
    (manager.getPositionState accountId symbolId).position otherAccount otherSymbol =
        manager.position otherAccount otherSymbol ∨
      (manager.getPositionState accountId symbolId).position otherAccount otherSymbol =
        (manager.position otherAccount otherSymbol).claim accountId symbolId := by
  by_cases home : slot otherAccount otherSymbol = slot accountId symbolId
  · right
    have read (table : MarginManager) :
        table.position otherAccount otherSymbol = table.position accountId symbolId :=
      congrArg table.positions home
    rw [read, read, position_getPositionState]
  · exact Or.inl (position_getPositionState_of_ne manager accountId otherAccount symbolId
      otherSymbol home)

/-- A fill changes the claimed position. -/
@[simp] theorem position_updateOnFill (side : Side) (qty : UInt64) :
    (manager.updateOnFill accountId symbolId side qty).position accountId symbolId =
      ((manager.position accountId symbolId).claim accountId symbolId).fill side qty := by
  rw [updateOnFill, position_getPositionState, position]
  simp only [Function.update_self]

/-- Another position is untouched. -/
theorem position_updateOnFill_of_ne (side : Side) (qty : UInt64)
    (apart : slot otherAccount otherSymbol ≠ slot accountId symbolId) :
    (manager.updateOnFill accountId symbolId side qty).position otherAccount otherSymbol =
      manager.position otherAccount otherSymbol := by
  rw [← position_getPositionState_of_ne manager accountId otherAccount symbolId otherSymbol apart]
  simp only [updateOnFill, position, Function.update_of_ne apart]

end

/-- Accounts with a slot of their own, and account 0, do not share it. -/
theorem slot_ne {accountId other : AccountId} (trader : accountId ∈ traders)
    (served : other = 0 ∨ other ∈ traders) (apart : other ≠ accountId) (symbolId : SymbolId) :
    slot accountId symbolId ≠ slot other symbolId := by
  intro same
  have accounts : accountId.toNat % 128 = other.toNat % 128 := congrArg Prod.fst same
  obtain ⟨low, high⟩ := mem_traders.mp trader
  apply apart
  rcases served with rfl | member
  · change accountId.toNat % 128 = 0 at accounts
    omega
  · obtain ⟨_, high'⟩ := mem_traders.mp member
    apply UInt32.toNat_inj.mp
    omega

end MarginManager

end FluxTrade
