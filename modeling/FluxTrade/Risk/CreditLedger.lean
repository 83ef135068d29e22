import Mathlib.Data.Nat.ModEq
import FluxTrade.Library.Execution
import FluxTrade.Risk.RiskEngine

/-!
# The credit ledger of an account

A run validates orders of one account, fills accepted orders at their own price
and releases the unfilled part of each at most once. Reservation and release are
scaled by 10^6 and a fill is not, so the account's buying power is conserved as
long as every fill is empty and is lost with the first one that is not.
-/

namespace FluxTrade

open Execution AccountState CreditManager AcceptedOrder

namespace AccountState

/-- Buying power of an account in its three forms. -/
def total (state : AccountState) : Nat :=
  state.availableBuyingPower.toNat + state.reservedCapital.toNat + state.usedBuyingPower.toNat

/-- A covered reservation moves buying power. -/
theorem accept_total {state : AccountState} {cost : UInt64}
    (covered : cost ≤ state.availableBuyingPower) (fits : state.total < 2 ^ 64) :
    (state.accept cost).total = state.total := by
  simp only [total] at fits
  have bound : cost.toNat ≤ state.availableBuyingPower.toNat := UInt64.le_iff_toNat_le.mp covered
  simp only [accept, covered, if_true, total, UInt64.toNat_sub_of_le _ _ covered,
    UInt64.toNat_add]
  omega

/-- A release moves buying power back, or does nothing. -/
theorem cancel_total {state : AccountState} (cost : UInt64) (fits : state.total < 2 ^ 64) :
    (state.cancel cost).total = state.total := by
  by_cases covered : cost ≤ state.reservedCapital
  · simp only [total] at fits
    have bound : cost.toNat ≤ state.reservedCapital.toNat := UInt64.le_iff_toNat_le.mp covered
    simp only [cancel, covered, if_true, total, UInt64.toNat_sub_of_le _ _ covered,
      UInt64.toNat_add]
    omega
  · simp only [cancel, covered, if_false]

variable (state : AccountState)

/-- Reserving exposes nothing. -/
theorem accept_exposure (cost : UInt64) :
    (state.accept cost).dailyExposure = state.dailyExposure := by
  unfold accept
  split <;> rfl

/-- Nor does releasing. -/
theorem cancel_exposure (cost : UInt64) :
    (state.cancel cost).dailyExposure = state.dailyExposure := by
  unfold cancel
  split <;> rfl

/-- An empty fill changes nothing. -/
theorem fill_zero : state.fill 0 = state := by
  have covered : (0 : UInt64) ≤ state.reservedCapital := UInt64.zero_le
  simp only [fill, covered, if_true, UInt64.sub_zero, UInt64.add_zero]

/-- A fill exposes its cost. -/
theorem fill_exposure (cost : UInt64) :
    (state.fill cost).dailyExposure = state.dailyExposure + cost := rfl

/-- Claiming keeps the total. -/
@[simp] theorem claim_total (accountId : AccountId) :
    (state.claim accountId).total = state.total := by
  simp only [total, claim_available, claim_reserved, claim_used]

end AccountState

/-! ## Runs -/

namespace AcceptedOrder

/-- Ticks times units. -/
def value (order : AcceptedOrder) (units : Quantity) : Nat :=
  order.price.toUInt64.toNat * units.toNat

/-- Filled notional in the unit of the credit check. -/
def notional (order : AcceptedOrder) : Nat := order.value order.filled / 1000000

/-- A fill within the order adds its own notional. -/
theorem notional_fill (order : AcceptedOrder) {units : Quantity}
    (within : order.filled.toNat + units.toNat ≤ order.qty.toNat)
    (scaled : 1000000 ∣ order.value units) :
    ({ order with filled := order.filled + units } : AcceptedOrder).notional =
      order.notional + order.value units / 1000000 := by
  have fits := order.qty.toNat_lt
  have sum : (order.filled + units).toNat = order.filled.toNat + units.toNat := by
    rw [UInt64.toNat_add, Nat.mod_eq_of_lt (by omega)]
  simp only [notional, value, sum, Nat.mul_add]
  exact Nat.add_div_of_dvd_left scaled

/-- A fill of one accepted order adds its notional to the total. -/
theorem notional_sum_fill {orders : List AcceptedOrder} {index : Nat} {order : AcceptedOrder}
    {units : Quantity} (found : order ∈ orders[index]?)
    (within : order.filled.toNat + units.toNat ≤ order.qty.toNat)
    (scaled : 1000000 ∣ order.value units) :
    ((orders.set index { order with filled := order.filled + units }).map notional).sum =
      (orders.map notional).sum + order.value units / 1000000 := by
  have total := sum_map_set notional (Option.mem_def.mp found)
    { order with filled := order.filled + units }
  rw [order.notional_fill within scaled] at total
  omega

end AcceptedOrder

/-- A positive price has a positive number of ticks. -/
theorem ticks_ne_zero {price : Price} (positive : 0 < price) : price.toUInt64.toNat ≠ 0 := by
  intro zero
  have same : price.toUInt64 = 0 := UInt64.toNat_inj.mp zero
  have isZero : price = 0 := congrArg UInt64.toInt64 same
  rw [isZero] at positive
  exact absurd positive (by decide)

namespace RiskRun

variable {accountId : AccountId} {initial : UInt64} {run next : RiskRun} {call : RiskCall}

/-- The calls the ledger is about: positive prices, products below 2^64 and divisible by 10^6,
fills of at most the order, one release per order. -/
def Legal (accountId : AccountId) (run : RiskRun) : RiskCall → Prop
  | .validate ctx _ _ _ => ctx.accountId = accountId ∧ 0 < ctx.price ∧
      ctx.price.toUInt64.toNat * ctx.qty.toNat < 2 ^ 64 ∧
      1000000 ∣ ctx.price.toUInt64.toNat * ctx.qty.toNat
  | .fill index qty priceTicks => ∃ order ∈ run.orders[index]?,
      priceTicks = order.price.toUInt64 ∧
        order.filled.toNat + qty.toNat ≤ order.qty.toNat ∧ 1000000 ∣ order.value qty
  | .cancel index => ∃ order ∈ run.orders[index]?, order.released = false

instance (accountId : AccountId) (run : RiskRun) (call : RiskCall) :
    Decidable (Legal accountId run call) := by
  cases call <;> dsimp only [Legal] <;> infer_instance

/-- Buying power is conserved, and the exposure is the filled notional. -/
def Balanced (accountId : AccountId) (initial : UInt64) (run : RiskRun) : Prop :=
  (run.engine.context.credit.account accountId).total = initial.toNat ∧
    (run.engine.context.credit.account accountId).dailyExposure.toNat =
      (run.orders.map notional).sum
  deriving Decidable

/-- A call that moves no filled quantity keeps the account balanced. -/
theorem Balanced.step (balanced : run.Balanced accountId initial) (legal : Legal accountId run call)
    (empty : ∀ index qty priceTicks, call = .fill index qty priceTicks → qty = 0)
    (taken : run.step accountId call = .ok next) : next.Balanced accountId initial := by
  obtain ⟨conserved, exposure⟩ := balanced
  have fits : (run.engine.context.credit.account accountId).total < 2 ^ 64 := by
    rw [conserved]
    exact initial.toNat_lt
  cases call with
  | validate ctx halts clock trace =>
    obtain ⟨rfl, _⟩ := legal
    simp only [RiskRun.step] at taken
    rcases run.engine.validate_cases halts clock ctx trace with
      ⟨reason, rejected, claimed⟩ | ⟨result, accepted, _, covered, credit, _⟩
    · rw [rejected] at taken
      cases taken
      rcases claimed.account ctx.accountId with same | same
      · exact ⟨by rw [same]; exact conserved, by rw [same]; exact exposure⟩
      · rw [Balanced, same, claim_total, claim_exposure]
        exact ⟨conserved, exposure⟩
    · rw [accepted] at taken
      cases taken
      have enough := cost_le_of_validate covered
      simp only [Balanced, credit, updateOnAccept, account_update]
      rw [accept_total enough (by rw [claim_total]; exact fits),
        accept_exposure, claim_total, claim_exposure]
      refine ⟨conserved, ?_⟩
      rw [exposure, List.map_append, List.sum_append]
      simp [notional, value]
  | fill index qty priceTicks =>
    obtain rfl := empty index qty priceTicks rfl
    obtain ⟨order, found, rfl, within, scaled⟩ := legal
    simp only [RiskRun.step, Option.mem_def.mp found] at taken
    cases taken
    simp only [Balanced, RiskEngine.updateOnFill, updateOnFill,
      account_update, UInt64.zero_mul, fill_zero,
      claim_total, claim_exposure]
    have nothing : order.value 0 = 0 := Nat.mul_zero _
    rw [notional_sum_fill found within scaled, nothing]
    exact ⟨conserved, exposure⟩
  | cancel index =>
    obtain ⟨order, found, _⟩ := legal
    simp only [RiskRun.step, Option.mem_def.mp found] at taken
    cases taken
    simp only [Balanced, RiskEngine.updateOnCancel, updateOnCancel,
      account_update]
    rw [cancel_total _ (by rw [claim_total]; exact fits),
      cancel_exposure, claim_total, claim_exposure]
    have total := sum_map_set notional (Option.mem_def.mp found)
      { order with released := true }
    have same : ({ order with released := true } : AcceptedOrder).notional = order.notional := rfl
    exact ⟨conserved, by omega⟩

/-- Every accepted order has a positive price and a product below 2^64. -/
def Priced (run : RiskRun) : Prop :=
  ∀ order ∈ run.orders, 0 < order.price ∧ order.value order.qty < 2 ^ 64

/-- A call keeps the prices. -/
theorem Priced.step (priced : run.Priced) (legal : Legal accountId run call)
    (taken : run.step accountId call = .ok next) : next.Priced := by
  cases call with
  | validate ctx halts clock trace =>
    simp only [RiskRun.step] at taken
    cases shape : (run.engine.validate halts clock ctx trace).result with
    | ok result =>
      rw [shape] at taken
      cases taken
      intro order member
      rcases List.mem_append.mp member with old | new
      · exact priced order old
      · obtain rfl := List.mem_singleton.mp new
        exact ⟨legal.2.1, legal.2.2.1⟩
    | error reason =>
      rw [shape] at taken
      cases taken
      exact priced
  | fill index qty priceTicks =>
    obtain ⟨order, found, _⟩ := legal
    simp only [RiskRun.step, Option.mem_def.mp found] at taken
    cases taken
    intro other member
    rcases List.mem_or_eq_of_mem_set member with old | rfl
    · exact priced other old
    · exact priced order (List.mem_of_getElem? found)
  | cancel index =>
    obtain ⟨order, found, _⟩ := legal
    simp only [RiskRun.step, Option.mem_def.mp found] at taken
    cases taken
    intro other member
    rcases List.mem_or_eq_of_mem_set member with old | rfl
    · exact priced other old
    · exact priced order (List.mem_of_getElem? found)

/-- No positive word equals its own part in a million once both are added to a total. -/
theorem eq_zero_of_wrapped {total value : Nat}
    (same : (total + value % 2 ^ 64) % 2 ^ 64 = total + value / 1000000) (fits : total < 2 ^ 64)
    (small : value < 2 ^ 64) : value = 0 := by
  rw [Nat.mod_eq_of_lt small] at same
  by_cases wraps : total + value < 2 ^ 64
  · rw [Nat.mod_eq_of_lt wraps] at same
    omega
  · have wrapped : (total + value) % 2 ^ 64 = total + value - 2 ^ 64 := by omega
    omega

/-- No fill but an empty one leads from one balanced state to another. -/
theorem Balanced.fill_empty {index : Nat} {qty : Quantity} {priceTicks : UInt64}
    (priced : run.Priced) (before : run.Balanced accountId initial)
    (legal : Legal accountId run (.fill index qty priceTicks))
    (taken : run.step accountId (.fill index qty priceTicks) = .ok next)
    (after : next.Balanced accountId initial) : qty = 0 := by
  obtain ⟨order, found, rfl, within, scaled⟩ := legal
  simp only [RiskRun.step, Option.mem_def.mp found] at taken
  cases taken
  obtain ⟨positive, small⟩ := priced order (List.mem_of_getElem? found)
  have exposure := after.2
  simp only [RiskEngine.updateOnFill, updateOnFill, account_update,
    fill_exposure, claim_exposure, UInt64.toNat_add,
    UInt64.toNat_mul] at exposure
  have bound : order.value qty ≤ order.value order.qty :=
    Nat.mul_le_mul_left _ (by omega)
  have product : qty.toNat * order.price.toUInt64.toNat = order.value qty := Nat.mul_comm _ _
  rw [product, notional_sum_fill found within scaled, ← before.2] at exposure
  have none : order.value qty = 0 := eq_zero_of_wrapped exposure (UInt64.toNat_lt _)
    (lt_of_le_of_lt bound small)
  rcases Nat.mul_eq_zero.mp none with free | empty
  · exact absurd free (ticks_ne_zero positive)
  · exact UInt64.toNat_inj.mp empty

/-- From a balanced state on, a run stays balanced exactly if its fills are empty. -/
theorem throughout_iff {calls : List RiskCall} (priced : run.Priced)
    (balanced : run.Balanced accountId initial)
    (legal : Along (Legal accountId) (RiskRun.step accountId) run calls) :
    Throughout (Balanced accountId initial) (RiskRun.step accountId) run calls ↔
      ∀ index qty priceTicks, RiskCall.fill index qty priceTicks ∈ calls → qty = 0 := by
  induction calls generalizing run with
  | nil => exact ⟨fun _ _ _ _ member => absurd member List.not_mem_nil, fun _ => balanced⟩
  | cons call rest ih =>
    obtain ⟨here, later⟩ := legal
    obtain ⟨next, taken⟩ := run.step_ok accountId call
    simp only [Throughout, taken] at later ⊢
    have priced' := priced.step here taken
    constructor
    · rintro ⟨_, always⟩ index qty priceTicks member
      rcases List.mem_cons.mp member with rfl | member
      · exact balanced.fill_empty priced here taken always.head
      · exact (ih priced' always.head later).mp always index qty priceTicks member
    · intro empty
      have balanced' : next.Balanced accountId initial := balanced.step here
        (fun index qty priceTicks isFill => empty index qty priceTicks
          (isFill ▸ List.mem_cons_self)) taken
      exact ⟨balanced, (ih priced' balanced' later).mpr
        fun index qty priceTicks member => empty index qty priceTicks
          (List.mem_cons_of_mem _ member)⟩

/-- In a run of legal calls the account is balanced in every state exactly if every fill is
empty. -/
theorem balanced_iff_fills_empty {accountId : AccountId} {engine : RiskEngine}
    {calls : List RiskCall}
    (unused : (engine.context.credit.account accountId).usedBuyingPower = 0)
    (unreserved : (engine.context.credit.account accountId).reservedCapital = 0)
    (unexposed : (engine.context.credit.account accountId).dailyExposure = 0)
    (legal : Along (Legal accountId) (step accountId) ⟨engine, []⟩ calls) :
    Throughout (Balanced accountId (engine.context.credit.account accountId).availableBuyingPower)
        (step accountId) ⟨engine, []⟩ calls ↔
      ∀ index qty priceTicks, RiskCall.fill index qty priceTicks ∈ calls → qty = 0 := by
  apply throughout_iff (fun _ member => absurd member List.not_mem_nil) _ legal
  rw [Balanced, total, unused, unreserved, unexposed]
  exact ⟨rfl, rfl⟩

/-- One share at 100.00 for account 1. -/
def oneShare : RiskContext where
  orderId := 1
  price := 10000000000
  qty := 1000000
  timestamp := 0
  referencePrice := 10000000000
  clientOrderId := 1
  symbolId := 1
  clientId := 1
  accountId := 1
  side := .buy
  type := .limit

/-- The order is accepted and released: the account stays balanced. -/
theorem balanced_iff_fills_empty_release :
    Throughout (Balanced 1 1000000000000000) (step 1) ⟨RiskEngine.new id, []⟩
      [.validate oneShare .none ⟨0, 0, 0, 0⟩ ⟨[]⟩, .cancel 0] :=
  (@balanced_iff_fills_empty 1 (RiskEngine.new id) _ rfl rfl rfl (by decide +kernel)).mpr
    (by simp)

/-- The order is accepted and filled whole at its own price: a million times the reserved buying
power is booked as used. -/
theorem fill_unbalances :
    Along (Legal 1) (step 1) ⟨RiskEngine.new id, []⟩
        [.validate oneShare .none ⟨0, 0, 0, 0⟩ ⟨[]⟩, .fill 0 1000000 10000000000] ∧
      Returns (fun run => run.orders.length = 1 ∧ ¬run.Balanced 1 1000000000000000)
        (runAll (step 1) ⟨RiskEngine.new id, []⟩
          [.validate oneShare .none ⟨0, 0, 0, 0⟩ ⟨[]⟩, .fill 0 1000000 10000000000]) := by
  decide +kernel

end RiskRun

end FluxTrade
