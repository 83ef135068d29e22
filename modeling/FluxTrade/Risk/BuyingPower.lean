import FluxTrade.Library.Words
import FluxTrade.Risk.Managers

/-!
# Buying power under credit callbacks

The callbacks of `CreditManager` take any 64-bit cost, also one that was never
reserved. A checked variant of each callback computes the same entry and fails
where a word would leave its range. From the state that `reset` sets up it never
fails: buying power and reservations of an account together only go down.
-/

namespace FluxTrade

open Words AccountState

namespace AccountState

/-- Buying power that is available or reserved. -/
def power (state : AccountState) : Nat :=
  state.availableBuyingPower.toNat + state.reservedCapital.toNat

/-- `accept`, failing where a word would leave its range. -/
def acceptChecked (state : AccountState) (cost : UInt64) : Option AccountState :=
  if cost ≤ state.availableBuyingPower then do
    let availableBuyingPower ← checkedSub state.availableBuyingPower cost
    let reservedCapital ← checkedAdd state.reservedCapital cost
    some { state with availableBuyingPower, reservedCapital }
  else some state

/-- `fill`, failing where buying power or a reservation would leave its range. -/
def fillChecked (state : AccountState) (cost : UInt64) : Option AccountState := do
  let paid : AccountState ←
    if cost ≤ state.reservedCapital then do
      let reservedCapital ← checkedSub state.reservedCapital cost
      some { state with reservedCapital }
    else do
      let remainder ← checkedSub cost state.reservedCapital
      if remainder ≤ state.availableBuyingPower then do
        let availableBuyingPower ← checkedSub state.availableBuyingPower remainder
        some { state with reservedCapital := 0, availableBuyingPower }
      else some { state with reservedCapital := 0 }
  some { paid with
    usedBuyingPower := state.usedBuyingPower + cost
    dailyExposure := state.dailyExposure + cost }

/-- `cancel`, failing where a word would leave its range. -/
def cancelChecked (state : AccountState) (cost : UInt64) : Option AccountState :=
  if cost ≤ state.reservedCapital then do
    let reservedCapital ← checkedSub state.reservedCapital cost
    let availableBuyingPower ← checkedAdd state.availableBuyingPower cost
    some { state with reservedCapital, availableBuyingPower }
  else some state

variable {state : AccountState}

/-- A reservation stays in range and keeps the power. -/
theorem accept_power (fits : state.power < 2 ^ 64) (cost : UInt64) :
    state.acceptChecked cost = some (state.accept cost) ∧
      (state.accept cost).power ≤ state.power := by
  by_cases covered : cost ≤ state.availableBuyingPower
  · have bound : cost.toNat ≤ state.availableBuyingPower.toNat :=
      UInt64.le_iff_toNat_le.mp covered
    have sum : state.reservedCapital.toNat + cost.toNat < 2 ^ 64 := by
      rw [power] at fits
      omega
    constructor
    · rw [acceptChecked, if_pos covered, checkedSub_of_le covered, checkedAdd_of_lt sum, accept,
        if_pos covered]
      rfl
    · rw [accept, if_pos covered, power, power, UInt64.toNat_sub_of_le _ _ covered,
        UInt64.toNat_add, Nat.mod_eq_of_lt sum]
      omega
  · rw [acceptChecked, if_neg covered, accept, if_neg covered]
    exact ⟨rfl, Nat.le_refl _⟩

/-- A release stays in range and keeps the power. -/
theorem cancel_power (fits : state.power < 2 ^ 64) (cost : UInt64) :
    state.cancelChecked cost = some (state.cancel cost) ∧
      (state.cancel cost).power ≤ state.power := by
  by_cases covered : cost ≤ state.reservedCapital
  · have bound : cost.toNat ≤ state.reservedCapital.toNat := UInt64.le_iff_toNat_le.mp covered
    have sum : state.availableBuyingPower.toNat + cost.toNat < 2 ^ 64 := by
      rw [power] at fits
      omega
    constructor
    · rw [cancelChecked, if_pos covered, checkedSub_of_le covered, checkedAdd_of_lt sum, cancel,
        if_pos covered]
      rfl
    · rw [cancel, if_pos covered, power, power, UInt64.toNat_sub_of_le _ _ covered,
        UInt64.toNat_add, Nat.mod_eq_of_lt sum]
      omega
  · rw [cancelChecked, if_neg covered, cancel, if_neg covered]
    exact ⟨rfl, Nat.le_refl _⟩

/-- A fill stays in range, whatever its cost, and does not add to the power. -/
theorem fill_power (state : AccountState) (cost : UInt64) :
    state.fillChecked cost = some (state.fill cost) ∧ (state.fill cost).power ≤ state.power := by
  by_cases covered : cost ≤ state.reservedCapital
  · constructor
    · simp only [fillChecked, fill, if_pos covered, checkedSub_of_le covered, bind, Option.bind]
    · simp only [fill, if_pos covered, power, UInt64.toNat_sub_of_le _ _ covered]
      omega
  · have short : state.reservedCapital ≤ cost := UInt64.le_of_lt (UInt64.not_le.mp covered)
    by_cases paid : cost - state.reservedCapital ≤ state.availableBuyingPower
    · constructor
      · simp only [fillChecked, fill, if_neg covered, checkedSub_of_le short, if_pos paid,
          checkedSub_of_le paid, bind, Option.bind]
      · simp only [fill, if_neg covered, if_pos paid, power, UInt64.toNat_sub_of_le _ _ paid]
        have zero : (0 : UInt64).toNat = 0 := rfl
        omega
    · constructor
      · simp only [fillChecked, fill, if_neg covered, checkedSub_of_le short, if_neg paid, bind,
          Option.bind]
      · simp only [fill, if_neg covered, if_neg paid, power]
        have zero : (0 : UInt64).toNat = 0 := rfl
        omega

end AccountState

/-- No account has more than it started with. -/
def AccountState.Funded (state : AccountState) : Prop :=
  state.availableBuyingPower.toNat + state.reservedCapital.toNat ≤ 1000000000000000

namespace AccountState.Funded

variable {state : AccountState}

variable (funded : state.Funded)
include funded

/-- Funds fit a word. -/
theorem fits : state.power < 2 ^ 64 :=
  Nat.lt_of_le_of_lt funded (by decide)

/-- Claiming keeps the funds. -/
theorem claim (accountId : AccountId) :
    (state.claim accountId).Funded := by
  unfold Funded
  rw [claim_available, claim_reserved]
  exact funded

/-- So does a reservation. -/
theorem accept (cost : UInt64) : (state.accept cost).Funded :=
  Nat.le_trans (accept_power funded.fits cost).2 funded

/-- So does a fill. -/
theorem fill (cost : UInt64) : (state.fill cost).Funded :=
  Nat.le_trans (state.fill_power cost).2 funded

/-- So does a release. -/
theorem cancel (cost : UInt64) : (state.cancel cost).Funded :=
  Nat.le_trans (cancel_power funded.fits cost).2 funded

end AccountState.Funded

/-- Every entry of the table is funded. -/
def CreditManager.Funded (manager : CreditManager) : Prop :=
  ∀ index, (manager.accounts index).Funded

namespace CreditManager.Funded

variable {manager : CreditManager}

/-- A new table is funded. -/
theorem new : CreditManager.new.Funded := fun _ => Nat.le_refl _

/-- Reading keeps it funded. -/
theorem getAccountState (funded : manager.Funded) (accountId : AccountId) :
    (manager.getAccountState accountId).Funded := by
  intro index
  unfold CreditManager.getAccountState
  dsimp only
  by_cases own : index = slot accountId
  · rw [own, Function.update_self]
    exact (funded (slot accountId)).claim accountId
  · rw [Function.update_of_ne own]
    exact funded index

/-- So does a funded change. -/
theorem update (funded : manager.Funded) (accountId : AccountId)
    {change : AccountState → AccountState}
    (kept : ∀ state : AccountState, state.Funded → (change state).Funded) :
    (manager.update accountId change).Funded := by
  intro index
  unfold CreditManager.update
  dsimp only
  have claimed := funded.getAccountState accountId
  by_cases own : index = slot accountId
  · rw [own, Function.update_self]
    exact kept _ (claimed (slot accountId))
  · rw [Function.update_of_ne own]
    exact claimed index

end CreditManager.Funded

/-! ## Runs -/

/-- The callbacks of `CreditManager`, with the entry they are for. -/
inductive CreditCallback where
  | accept (accountId : AccountId) (cost : UInt64)
  | fill (accountId : AccountId) (cost : UInt64)
  | cancel (accountId : AccountId) (cost : UInt64)
  deriving DecidableEq

namespace CreditCallback

/-- The account of a callback. -/
def accountId : CreditCallback → AccountId
  | accept accountId _ => accountId
  | fill accountId _ => accountId
  | cancel accountId _ => accountId

/-- What a callback does to the entry of its account. -/
def change : CreditCallback → AccountState → AccountState
  | accept _ cost => fun state => state.accept cost
  | fill _ cost => fun state => state.fill cost
  | cancel _ cost => fun state => state.cancel cost

/-- What it does, failing where a word would leave its range. -/
def changeChecked : CreditCallback → AccountState → Option AccountState
  | accept _ cost => fun state => state.acceptChecked cost
  | fill _ cost => fun state => state.fillChecked cost
  | cancel _ cost => fun state => state.cancelChecked cost

/-- A callback on the table. -/
def apply (manager : CreditManager) : CreditCallback → CreditManager
  | accept accountId cost => manager.updateOnAccept accountId cost
  | fill accountId cost => manager.updateOnFill accountId cost
  | cancel accountId cost => manager.updateOnCancel accountId cost

/-- A callback is a change. -/
theorem apply_eq (manager : CreditManager) (call : CreditCallback) :
    call.apply manager = manager.update call.accountId call.change := by
  cases call <;> rfl

/-- A callback adds no power. -/
theorem change_power {state : AccountState} (fits : state.power < 2 ^ 64) (call : CreditCallback) :
    call.changeChecked state = some (call.change state) ∧
      (call.change state).power ≤ state.power := by
  cases call with
  | accept _ cost => exact accept_power fits cost
  | fill _ cost => exact fill_power state cost
  | cancel _ cost => exact cancel_power fits cost

end CreditCallback

namespace CreditManager

variable {manager : CreditManager}

/-- A callback computes in range, and no account has more power after it. -/
theorem Funded.apply (funded : manager.Funded) (call : CreditCallback) :
    call.changeChecked ((manager.account call.accountId).claim call.accountId) =
        some ((call.apply manager).account call.accountId) ∧
      ∀ accountId, ((call.apply manager).account accountId).power ≤
        (manager.account accountId).power := by
  have claimed := (funded (slot call.accountId)).claim call.accountId
  obtain ⟨inRange, fewer⟩ := call.change_power claimed.fits
  rw [call.apply_eq]
  refine ⟨by rw [account_update]; exact inRange, fun accountId => ?_⟩
  by_cases home : slot accountId = slot call.accountId
  · have read (table : CreditManager) : table.account accountId = table.account call.accountId :=
      congrArg table.accounts home
    rw [read, read, account_update]
    exact Nat.le_trans fewer (by rw [power, claim_available, claim_reserved]; rfl)
  · rw [account_update_of_ne _ _ _ _ home]

/-- A callback keeps the funds. -/
theorem Funded.callback (funded : manager.Funded) (call : CreditCallback) :
    (call.apply manager).Funded := by
  rw [call.apply_eq]
  refine funded.update call.accountId fun state funded => ?_
  cases call with
  | accept _ cost => exact funded.accept cost
  | fill _ cost => exact funded.fill cost
  | cancel _ cost => exact funded.cancel cost

/-- So do all callbacks. -/
theorem Funded.run (calls : List CreditCallback) :
    (calls.foldl CreditCallback.apply CreditManager.new).Funded := by
  induction calls using List.reverseRecOn with
  | nil => exact Funded.new
  | append_singleton calls last ih =>
    rw [List.foldl_append]
    exact ih.callback last

/-- After any callbacks from `reset` on, with any costs and on any accounts, the next callback does
all its arithmetic on buying power and reservations in range, and no account's buying power and
reservation together grow. -/
theorem no_power_created (calls : List CreditCallback) (call : CreditCallback) :
    let manager := calls.foldl CreditCallback.apply CreditManager.new
    call.changeChecked ((manager.account call.accountId).claim call.accountId) =
        some ((call.apply manager).account call.accountId) ∧
      ∀ accountId, ((call.apply manager).account accountId).power ≤
          (manager.account accountId).power ∧
        (manager.account accountId).power ≤ 1000000000000000 := by
  intro manager
  have funded : manager.Funded := Funded.run calls
  obtain ⟨inRange, fewer⟩ := funded.apply call
  exact ⟨inRange, fun accountId => ⟨fewer accountId, funded (slot accountId)⟩⟩

end CreditManager

end FluxTrade
