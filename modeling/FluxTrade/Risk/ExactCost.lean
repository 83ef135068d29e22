import FluxTrade.Risk.BuyingPower
import FluxTrade.Risk.RiskEngine

/-!
# The cost of an order

The cost is the product of ticks and units over 10^6, formed in a 64-bit word.
No check of the pipeline keeps the product in range: a negative price passes
where the order has no reference price, and the largest price and quantity that
pass have a product of more than 2^64.
-/

namespace FluxTrade

open Words

/-- The cost of an order over the integers. -/
def exactCost (ctx : RiskContext) : Int := ctx.price.toInt * ctx.qty.toNat / 1000000

/-- The cost of an order with a price that is not negative, before the division. -/
theorem toNat_orderCost {price : Price} (nonneg : 0 ≤ price.toInt) (qty : Quantity) :
    ((orderCost price qty).toNat : Int) = price.toInt * qty.toNat % 2 ^ 64 / 1000000 := by
  have ticks := toNat_toUInt64 nonneg
  unfold orderCost
  rw [UInt64.toNat_div, UInt64.toNat_mul, ← ticks]
  rfl

/-- The word holds the cost exactly if it holds the product. -/
theorem orderCost_exact_iff {ctx : RiskContext} (nonneg : 0 ≤ ctx.price.toInt) :
    ((orderCost ctx.price ctx.qty).toNat : Int) = exactCost ctx ↔
      ctx.price.toInt * ctx.qty.toNat < 2 ^ 64 := by
  have product : 0 ≤ ctx.price.toInt * ctx.qty.toNat :=
    Int.mul_nonneg nonneg (Int.natCast_nonneg _)
  rw [toNat_orderCost nonneg, exactCost]
  generalize ctx.price.toInt * ctx.qty.toNat = value at product
  omega

/-! ## Reachable engines -/

/-- The calls of a run. -/
inductive CreditCall where
  | validate (ctx : RiskContext) (halts : Halts) (clock : RiskClock) (trace : RiskTrace)
  | updateOnFill (accountId : AccountId) (symbolId : SymbolId) (side : Side)
      (qty priceTicks : UInt64)

namespace RiskEngine

/-- The engine after a call. -/
def call (engine : RiskEngine) : CreditCall → RiskEngine
  | .validate ctx halts clock trace => (engine.validate halts clock ctx trace).engine
  | .updateOnFill accountId symbolId side qty priceTicks =>
    engine.updateOnFill accountId symbolId side qty priceTicks

/-- The engine with the default limits after some calls. -/
def after (round : ℚ → ℚ) (calls : List CreditCall) : RiskEngine :=
  calls.foldl call (new round)

variable {engine : RiskEngine} {halts : Halts} {clock : RiskClock} {ctx : RiskContext}
  {trace : RiskTrace}

/-- A validation and a fill leave every account funded. -/
theorem call_funded (funded : engine.context.credit.Funded) (call : CreditCall) :
    (engine.call call).context.credit.Funded := by
  cases call with
  | validate ctx halts clock trace =>
    change (engine.validate halts clock ctx trace).engine.context.credit.Funded
    rcases engine.validate_cases halts clock ctx trace with
      ⟨_, _, claimed⟩ | ⟨_, _, _, _, credit, _⟩
    · rcases claimed.credit with same | touched
      · rw [same]
        exact funded
      · rw [touched]
        exact funded.getAccountState ctx.accountId
    · rw [credit, CreditManager.updateOnAccept]
      exact funded.update ctx.accountId fun _ before => before.accept _
  | updateOnFill accountId symbolId side qty priceTicks =>
    have credit :
        (engine.call (.updateOnFill accountId symbolId side qty priceTicks)).context.credit =
          engine.context.credit.updateOnFill accountId (qty * priceTicks) := rfl
    rw [credit, CreditManager.updateOnFill]
    exact funded.update accountId fun _ before => before.fill _

/-- Every run is funded. -/
theorem after_funded (round : ℚ → ℚ) (calls : List CreditCall) :
    (after round calls).context.credit.Funded := by
  induction calls using List.reverseRecOn with
  | nil => exact .new
  | append_singleton calls call ih =>
    unfold after
    rw [List.foldl_concat]
    exact call_funded ih call

/-- The price is not negative, the cost that is compared with the buying power is the cost over
the integers, and so much buying power is reserved. -/
structure ReservesExactly (engine next : RiskEngine) (ctx : RiskContext) : Prop where
  nonneg : 0 ≤ ctx.price.toInt
  compared : ((orderCost ctx.price ctx.qty).toNat : Int) = exactCost ctx
  taken : ((next.context.credit.account ctx.accountId).availableBuyingPower.toNat : Int) =
    (engine.context.credit.account ctx.accountId).availableBuyingPower.toNat - exactCost ctx
  reserved : ((next.context.credit.account ctx.accountId).reservedCapital.toNat : Int) =
    (engine.context.credit.account ctx.accountId).reservedCapital.toNat + exactCost ctx

/-- An accepted order moves its cost, as the word has it, from the buying power to the reserved
capital. -/
theorem reserve_of_isOk (funded : engine.context.credit.Funded)
    (accepted : (engine.validate halts clock ctx trace).result.isOk = true) :
    let before := engine.context.credit.account ctx.accountId
    let after := (engine.validate halts clock ctx trace).engine.context.credit.account
      ctx.accountId
    let cost := (orderCost ctx.price ctx.qty).toNat
    cost ≤ before.availableBuyingPower.toNat ∧
      after.availableBuyingPower.toNat = before.availableBuyingPower.toNat - cost ∧
      after.reservedCapital.toNat = before.reservedCapital.toNat + cost := by
  rcases engine.validate_cases halts clock ctx trace with
    ⟨reason, failed, _⟩ | ⟨_, _, _, valid, credit, _⟩
  · rw [failed] at accepted
    cases accepted
  · have covered := CreditManager.cost_le_of_validate valid
    have bound := UInt64.le_iff_toNat_le.mp covered
    rw [AccountState.claim_available] at bound
    have total := funded (CreditManager.slot ctx.accountId)
    change (engine.context.credit.account ctx.accountId).Funded at total
    unfold AccountState.Funded at total
    rw [credit, CreditManager.updateOnAccept, CreditManager.account_update, AccountState.accept,
      if_pos covered]
    dsimp only
    rw [UInt64.toNat_sub_of_le _ _ covered, UInt64.toNat_add, AccountState.claim_available,
      AccountState.claim_reserved]
    exact ⟨bound, rfl, Nat.mod_eq_of_lt (by omega)⟩

/-- In every state that validations and fills reach, an accepted order is reserved exactly if its
price is not negative and the product of ticks and units is below 2^64. -/
theorem reservesExactly_iff (round : ℚ → ℚ) (calls : List CreditCall)
    (accepted : ((after round calls).validate halts clock ctx trace).result.isOk = true) :
    (after round calls).ReservesExactly
        ((after round calls).validate halts clock ctx trace).engine ctx ↔
      0 ≤ ctx.price.toInt ∧ ctx.price.toInt * ctx.qty.toNat < 2 ^ 64 := by
  obtain ⟨covered, taken, reserved⟩ := reserve_of_isOk (after_funded round calls) accepted
  constructor
  · intro exact
    exact ⟨exact.nonneg, (orderCost_exact_iff exact.nonneg).mp exact.compared⟩
  · rintro ⟨nonneg, inRange⟩
    have compared := (orderCost_exact_iff nonneg).mpr inRange
    refine ⟨nonneg, compared, ?_, ?_⟩
    · rw [taken, ← compared]
      exact Int.ofNat_sub covered
    · rw [reserved, ← compared]
      exact Int.natCast_add _ _

/-- A buy order of account 1 without a reference price. -/
def unreferenced (price : Price) (qty : Quantity) : RiskContext where
  orderId := 1
  price := price
  qty := qty
  timestamp := 0
  referencePrice := 0
  clientOrderId := 1
  symbolId := 1
  clientId := 1
  accountId := 1
  side := .buy
  type := .limit

/-- One share at 100.00 after a fill of another account is reserved exactly. -/
theorem reservesExactly_iff_unit :
    (after id [.updateOnFill 2 1 .buy 1000000 10000000000]).ReservesExactly
      ((after id [.updateOnFill 2 1 .buy 1000000 10000000000]).validate .none ⟨0, 0, 0, 0⟩
        (unreferenced 10000000000 1000000) ⟨[]⟩).engine (unreferenced 10000000000 1000000) :=
  (reservesExactly_iff id _ (by decide +kernel)).mpr (by decide)

/-- A new engine accepts 1000 shares at 5000.00, of whose cost the word holds less than a
two-hundredth, and the smallest quantity at a price of minus one tick. -/
theorem not_reservesExactly_unreferenced :
    (let ctx := unreferenced 500000000000 1000000000
      let validation := (new id).validate .none ⟨0, 0, 0, 0⟩ ctx ⟨[]⟩
      validation.result.isOk = true ∧ exactCost ctx = 500000000000000 ∧
        orderCost ctx.price ctx.qty = 1937910009842 ∧
        ¬(new id).ReservesExactly validation.engine ctx) ∧
      (let ctx := unreferenced (-1) 1
      let validation := (new id).validate .none ⟨0, 0, 0, 0⟩ ctx ⟨[]⟩
      validation.result.isOk = true ∧ ¬(new id).ReservesExactly validation.engine ctx) := by
  refine ⟨⟨by decide +kernel, by decide, by decide, ?_⟩, by decide +kernel, ?_⟩
  · intro exact
    exact absurd exact.compared (by decide)
  · intro exact
    exact absurd exact.nonneg (by decide)

end RiskEngine

end FluxTrade
