import FluxTrade.Library.Execution
import FluxTrade.Library.Words
import FluxTrade.Risk.RiskEngine

/-!
# Position limits

The position check compares one order with the filled net position, so what is
accepted and not yet filled escapes it. Where every order that is accepted while
quantity of its side is open still leaves room for all of it, the net position
stays within its limits in every state of a run.
-/

namespace FluxTrade

open Execution Words PositionState AcceptedOrder MarginManager

namespace PositionState

/-- Both limits are set, to at most 2^62. -/
def Limited (state : PositionState) : Prop :=
  0 < state.maxLongLimit.toNat ∧ state.maxLongLimit.toNat ≤ 2 ^ 62 ∧
    0 < state.maxShortLimit.toNat ∧ state.maxShortLimit.toNat ≤ 2 ^ 62
  deriving Decidable

/-- The net position is within its limits. -/
def InLimits (state : PositionState) : Prop :=
  -(state.maxShortLimit.toNat : Int) ≤ state.netQty.toInt ∧
    state.netQty.toInt ≤ state.maxLongLimit.toNat
  deriving Decidable

/-- The position stays within the limit of a side when a quantity of it is filled. -/
def Fits (state : PositionState) (qty : Nat) : Side → Prop
  | .buy => state.netQty.toInt + qty ≤ state.maxLongLimit.toNat
  | .sell => qty - state.netQty.toInt ≤ state.maxShortLimit.toNat

instance (state : PositionState) (qty : Nat) (side : Side) : Decidable (state.Fits qty side) := by
  cases side <;> dsimp only [Fits] <;> infer_instance

/-- Claiming keeps what fits. -/
@[simp] theorem fits_claim (state : PositionState) (accountId : AccountId) (symbolId : SymbolId)
    (qty : Nat) (side : Side) :
    (state.claim accountId symbolId).Fits qty side ↔ state.Fits qty side := by
  cases side with
  | buy => simp only [Fits, claim_quantities]
  | sell => simp only [Fits, claim_quantities]

end PositionState

/-- A passed check leaves the order room. -/
theorem MarginManager.fits_of_validate {ctx : RiskContext} {state : PositionState}
    (limited : state.Limited) (inside : state.InLimits) (small : ctx.qty.toNat < 2 ^ 62)
    (valid : validate ctx state = true) : state.Fits ctx.qty.toNat ctx.side := by
  obtain ⟨longSet, longBound, shortSet, shortBound⟩ := limited
  obtain ⟨above, below⟩ := inside
  have zero : (0 : Int64).toInt = 0 := rfl
  have unset : (0 : UInt64).toNat = 0 := rfl
  cases side : ctx.side with
  | buy =>
    have sum := toInt_add_word small (by omega : -2 ^ 62 ≤ state.netQty.toInt) (by omega)
    simp only [validate, side] at valid
    split at valid
    · cases valid
    · rename_i passed
      by_contra beyond
      change ¬state.netQty.toInt + ctx.qty.toNat ≤ state.maxLongLimit.toNat at beyond
      have unsigned := toNat_toUInt64 (by omega : 0 ≤ (state.netQty + ctx.qty.toInt64).toInt)
      apply passed
      simp only [Int64.lt_iff_toInt_lt, UInt64.lt_iff_toNat_lt]
      omega
  | sell =>
    have difference := toInt_sub_word small (by omega : -2 ^ 62 ≤ state.netQty.toInt) (by omega)
    simp only [validate, side] at valid
    split at valid
    · cases valid
    · split at valid
      · cases valid
      · rename_i passed
        by_contra beyond
        change ¬ctx.qty.toNat - state.netQty.toInt ≤ state.maxShortLimit.toNat at beyond
        have negated := toInt_neg_of_lt
          (by omega : -2 ^ 63 < (state.netQty - ctx.qty.toInt64).toInt)
        have unsigned := toNat_toUInt64
          (by omega : 0 ≤ (-(state.netQty - ctx.qty.toInt64)).toInt)
        apply passed
        simp only [Int64.lt_iff_toInt_lt, UInt64.lt_iff_toNat_lt]
        omega

/-- Accepted quantity of a side that is not yet filled. -/
def AcceptedOrder.openOn (order : AcceptedOrder) (side : Side) : Nat :=
  if order.side = side then order.qty.toNat - order.filled.toNat else 0

namespace RiskRun

/-- The open quantity of a side. -/
def unfilled (run : RiskRun) (side : Side) : Nat :=
  (run.orders.map fun order => order.openOn side).sum

/-- The position of an account in a symbol. -/
def positionOf (run : RiskRun) (accountId : AccountId) (symbolId : SymbolId) : PositionState :=
  run.engine.context.margin.position accountId symbolId

/-- Orders of one account in one symbol with quantities below 2^62, filled at most to their
quantity. -/
def OnePosition (accountId : AccountId) (symbolId : SymbolId) (run : RiskRun) : RiskCall → Prop
  | .validate ctx _ _ _ =>
    ctx.accountId = accountId ∧ ctx.symbolId = symbolId ∧ ctx.qty.toNat < 2 ^ 62
  | .fill index qty _ => ∃ order ∈ run.orders[index]?,
      order.filled.toNat + qty.toNat ≤ order.qty.toNat
  | .cancel _ => True

instance (accountId : AccountId) (symbolId : SymbolId) (run : RiskRun) :
    (call : RiskCall) → Decidable (OnePosition accountId symbolId run call)
  | .validate .. => inferInstanceAs (Decidable (_ ∧ _ ∧ _))
  | .fill .. => inferInstanceAs (Decidable (∃ _ ∈ _, _))
  | .cancel .. => .isTrue trivial

/-- An order that is accepted while accepted quantity of its side is unfilled leaves room for all
of it. -/
def RoomForOpen (accountId : AccountId) (symbolId : SymbolId) (run : RiskRun) : RiskCall → Prop
  | .validate ctx halts clock trace =>
    (run.engine.validate halts clock ctx trace).result.isOk → 0 < run.unfilled ctx.side →
      (run.positionOf accountId symbolId).Fits (run.unfilled ctx.side + ctx.qty.toNat) ctx.side
  | .fill .. => True
  | .cancel _ => True

instance (accountId : AccountId) (symbolId : SymbolId) (run : RiskRun) :
    (call : RiskCall) → Decidable (RoomForOpen accountId symbolId run call)
  | .validate .. => inferInstanceAs (Decidable (_ → _ → _))
  | .fill .. => .isTrue trivial
  | .cancel .. => .isTrue trivial

end RiskRun

/-! ## The ledger of a position -/

/-- Both sides fit with everything that is accepted and unfilled. -/
structure PositionLedger (symbolId : SymbolId) (state : PositionState)
    (orders : List AcceptedOrder) : Prop where
  netted : state.Netted
  limited : state.Limited
  fits : ∀ side, state.Fits (orders.map fun order => order.openOn side).sum side
  orders : ∀ order ∈ orders, order.symbolId = symbolId ∧
    order.filled.toNat ≤ order.qty.toNat ∧ order.qty.toNat < 2 ^ 62

namespace PositionLedger

variable {symbolId : SymbolId} {state : PositionState} {orders : List AcceptedOrder}
variable {order : AcceptedOrder} {index : Nat}

variable (ledger : PositionLedger symbolId state orders)
include ledger

/-- The position is in its limits. -/
theorem inLimits : state.InLimits := by
  have long := ledger.fits .buy
  have short := ledger.fits .sell
  simp only [Fits] at long short
  constructor <;> omega

/-- A claim leaves the ledger as it is. -/
theorem claim (accountId : AccountId) (otherSymbol : SymbolId) :
    PositionLedger symbolId (state.claim accountId otherSymbol) orders := by
  obtain ⟨netted, limited, fits, within⟩ := ledger
  refine ⟨?_, ?_, ?_, within⟩
  · simpa only [Netted, claim_quantities] using netted
  · simpa only [Limited, claim_quantities] using limited
  · intro side
    rw [fits_claim]
    exact fits side

/-- An accepted order enters the ledger if there is room for it beside everything open. -/
theorem accept (isSymbol : order.symbolId = symbolId) (isNew : order.filled = 0)
    (small : order.qty.toNat < 2 ^ 62)
    (room : state.Fits ((orders.map fun other => other.openOn order.side).sum + order.qty.toNat)
      order.side) : PositionLedger symbolId state (orders ++ [order]) := by
  obtain ⟨netted, limited, fits, within⟩ := ledger
  have whole : order.openOn order.side = order.qty.toNat := by
    rw [openOn, if_pos rfl, isNew]
    exact Nat.sub_zero _
  refine ⟨netted, limited, ?_, ?_⟩
  · intro side
    rw [List.map_append, List.sum_append]
    simp only [List.map_cons, List.map_nil, List.sum_cons, List.sum_nil, Nat.add_zero]
    by_cases own : order.side = side
    · subst own
      rw [whole]
      exact room
    · rw [openOn, if_neg own, Nat.add_zero]
      exact fits side
  · intro other member
    rcases List.mem_append.mp member with old | new
    · exact within other old
    · obtain rfl := List.mem_singleton.mp new
      refine ⟨isSymbol, ?_, small⟩
      rw [isNew]
      exact Nat.zero_le _

/-- A fill within an accepted order moves quantity from open to net. -/
theorem fill {qty : Quantity} (found : orders[index]? = some order)
    (within : order.filled.toNat + qty.toNat ≤ order.qty.toNat) :
    PositionLedger symbolId (state.fill order.side qty)
      (orders.set index { order with filled := order.filled + qty }) := by
  obtain ⟨isSymbol, _, small⟩ := ledger.orders order (List.mem_of_getElem? found)
  have sum : (order.filled + qty).toNat = order.filled.toNat + qty.toNat := by
    have bound := order.qty.toNat_lt
    rw [UInt64.toNat_add, Nat.mod_eq_of_lt (by omega)]
  obtain ⟨above, below⟩ := ledger.inLimits
  have limits := ledger.limited
  simp only [Limited] at limits
  have moved := ledger.netted.fill_netQty order.side qty
  have longLimit : (state.fill order.side qty).maxLongLimit = state.maxLongLimit := by
    cases order.side <;> rfl
  have shortLimit : (state.fill order.side qty).maxShortLimit = state.maxShortLimit := by
    cases order.side <;> rfl
  refine ⟨state.fill_netted order.side qty, ?_, ?_, ?_⟩
  · rw [Limited, longLimit, shortLimit]
    exact ledger.limited
  · intro side
    have total := sum_map_set (fun other => other.openOn side) found
      { order with filled := order.filled + qty }
    have here := ledger.fits side
    simp only [openOn, sum] at total
    cases own : order.side with
    | buy =>
      rw [own] at moved longLimit shortLimit total
      have net : (state.fill .buy qty).netQty.toInt = state.netQty.toInt + qty.toNat := by
        rw [moved]
        exact toInt_add_word (by omega) (by omega) (by omega)
      cases side with
      | buy =>
        simp only [Fits, openOn, net, longLimit] at here ⊢
        simp only [if_true] at total
        omega
      | sell =>
        simp only [Fits, openOn, net, shortLimit] at here ⊢
        simp only [reduceCtorEq, if_false] at total
        omega
    | sell =>
      rw [own] at moved longLimit shortLimit total
      have net : (state.fill .sell qty).netQty.toInt = state.netQty.toInt - qty.toNat := by
        rw [moved]
        exact toInt_sub_word (by omega) (by omega) (by omega)
      cases side with
      | buy =>
        simp only [Fits, openOn, net, longLimit] at here ⊢
        simp only [reduceCtorEq, if_false] at total
        omega
      | sell =>
        simp only [Fits, openOn, net, shortLimit] at here ⊢
        simp only [if_true] at total
        omega
  · intro other member
    rcases List.mem_or_eq_of_mem_set member with old | rfl
    · exact ledger.orders other old
    · exact ⟨isSymbol, sum ▸ within, small⟩

/-- A release changes no quantity. -/
theorem release (found : orders[index]? = some order) :
    PositionLedger symbolId state (orders.set index { order with released := true }) := by
  refine ⟨ledger.netted, ledger.limited, ?_, ?_⟩
  · intro side
    have total := sum_map_set (fun other => other.openOn side) found
      { order with released := true }
    have same : ({ order with released := true } : AcceptedOrder).openOn side =
        order.openOn side := rfl
    rw [show ((orders.set index { order with released := true }).map fun other =>
      other.openOn side).sum = (orders.map fun other => other.openOn side).sum by omega]
    exact ledger.fits side
  · intro other member
    rcases List.mem_or_eq_of_mem_set member with old | rfl
    · exact ledger.orders other old
    · exact ledger.orders order (List.mem_of_getElem? found)

end PositionLedger

namespace RiskRun

variable {accountId : AccountId} {symbolId : SymbolId}

/-- One call keeps the ledger, given room for the open quantity. -/
theorem ledger_step {run next : RiskRun} {call : RiskCall}
    (ledger : PositionLedger symbolId (run.positionOf accountId symbolId) run.orders)
    (legal : OnePosition accountId symbolId run call)
    (room : RoomForOpen accountId symbolId run call)
    (taken : run.step accountId call = .ok next) :
    PositionLedger symbolId (next.positionOf accountId symbolId) next.orders := by
  cases call with
  | validate ctx halts clock trace =>
    obtain ⟨rfl, rfl, small⟩ := legal
    simp only [RiskRun.step] at taken
    rcases run.engine.validate_cases halts clock ctx trace with
      ⟨reason, rejected, claimed⟩ | ⟨result, accepted, checked, _, _, margin⟩
    · rw [rejected] at taken
      cases taken
      rcases claimed.position ctx.accountId ctx.symbolId with same | same
      · simp only [positionOf, same]
        exact ledger
      · simp only [positionOf, same]
        exact ledger.claim ctx.accountId ctx.symbolId
    · simp only [RoomForOpen, accepted] at room
      rw [accepted] at taken
      cases taken
      have claimed := ledger.claim ctx.accountId ctx.symbolId
      have position : (RiskRun.mk (run.engine.validate halts clock ctx trace).engine
          (run.orders ++ [⟨ctx.price, ctx.qty, ctx.symbolId, ctx.side, 0, false⟩])).positionOf
            ctx.accountId ctx.symbolId =
          (run.positionOf ctx.accountId ctx.symbolId).claim ctx.accountId ctx.symbolId := by
        simp only [positionOf, margin, position_getPositionState]
      rw [position]
      apply claimed.accept rfl rfl small
      by_cases none : run.unfilled ctx.side = 0
      · have alone := fits_of_validate claimed.limited claimed.inLimits small checked
        simp only [unfilled] at none
        rw [none, Nat.zero_add]
        exact alone
      · have fits := room rfl (Nat.pos_of_ne_zero none)
        rw [fits_claim]
        exact fits
  | fill index qty priceTicks =>
    obtain ⟨order, found, within⟩ := legal
    obtain ⟨rfl, _⟩ := ledger.orders order (List.mem_of_getElem? found)
    simp only [RiskRun.step, Option.mem_def.mp found] at taken
    cases taken
    have filled := (ledger.claim accountId order.symbolId).fill found within
    simpa only [positionOf, RiskEngine.updateOnFill, position_updateOnFill]
      using filled
  | cancel index =>
    cases found : run.orders[index]? with
    | none =>
      simp only [RiskRun.step, found] at taken
      cases taken
      exact ledger
    | some order =>
      simp only [RiskRun.step, found] at taken
      cases taken
      exact ledger.release found

/-- In every run of orders for one position, starting flat and with limits set, in which an order
accepted while quantity of its side is open leaves room for all of it, the net position is within
its limits in every state. -/
theorem inLimits_of_roomForOpen {engine : RiskEngine} {calls : List RiskCall}
    (flat : (engine.context.margin.position accountId symbolId).netQty = 0)
    (netted : (engine.context.margin.position accountId symbolId).Netted)
    (limited : (engine.context.margin.position accountId symbolId).Limited)
    (legal : Along (OnePosition accountId symbolId) (step accountId) ⟨engine, []⟩ calls)
    (room : Along (RoomForOpen accountId symbolId) (step accountId) ⟨engine, []⟩ calls) :
    Throughout (fun run => (run.positionOf accountId symbolId).InLimits) (step accountId)
      ⟨engine, []⟩ calls := by
  have start : PositionLedger symbolId (positionOf ⟨engine, []⟩ accountId symbolId) [] := by
    refine ⟨netted, limited, ?_, fun _ member => absurd member List.not_mem_nil⟩
    have zero : (0 : Int64).toInt = 0 := rfl
    intro side
    cases side <;>
      simp only [positionOf, Fits, flat, zero, List.map_nil, List.sum_nil] <;> omega
  exact Throughout.of_guarded
    (motive := fun run => PositionLedger symbolId (run.positionOf accountId symbolId) run.orders)
    start (fun _ _ _ ledger guards taken => ledger_step ledger guards.1 guards.2 taken)
    (fun _ ledger => ledger.inLimits) (legal.and room)

/-- A validated buy order at 100.00 for account 1 in symbol 1. -/
def validateBuy (orderId : OrderId) (qty : Quantity) : RiskCall :=
  .validate ⟨orderId, 10000000000, qty, 0, 10000000000, orderId, 1, 1, 1, .buy, .limit⟩ .none
    ⟨0, 0, 0, 0⟩ ⟨[]⟩

/-- Two orders that together use the whole limit are accepted before either is filled. -/
theorem inLimits_of_roomForOpen_wholeLimit :
    Throughout (fun run => (run.positionOf 1 1).InLimits) (step 1) ⟨RiskEngine.new id, []⟩
      [validateBuy 1 600000000, validateBuy 2 400000000, .fill 0 600000000 10000000000,
        .fill 1 400000000 10000000000] :=
  @inLimits_of_roomForOpen 1 1 (RiskEngine.new id) _ rfl rfl (by decide) (by decide +kernel)
    (by decide +kernel)

/-- Each of two orders fits the limit alone; both are accepted and filled, and the position passes
the limit. -/
theorem openOrders_exceed_limit :
    Along (OnePosition 1 1) (step 1) ⟨RiskEngine.new id, []⟩
        [validateBuy 1 600000000, validateBuy 2 600000000, .fill 0 600000000 10000000000,
          .fill 1 600000000 10000000000] ∧
      Returns (fun run => ¬(run.positionOf 1 1).InLimits)
        (runAll (step 1) ⟨RiskEngine.new id, []⟩
          [validateBuy 1 600000000, validateBuy 2 600000000, .fill 0 600000000 10000000000,
            .fill 1 600000000 10000000000]) := by
  decide +kernel

end RiskRun

end FluxTrade
