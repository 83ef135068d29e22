import FluxTrade.Exchange.ManagerRun
import FluxTrade.Library.Words
import FluxTrade.Matching.Reports

/-!
# The position ledger

Every match should move two positions: the taker's and the maker's. The reports
of a match reach the risk engine with the taker's side on both, and with account
0 on the maker's, so the maker's position stays where it was. The ledger is right
in every state of a run exactly if no accepted order meets a resting one.
-/

namespace FluxTrade

open Execution TradeBuilder List

/-- A quantity counted positive when it is bought and negative when it is sold. -/
def Side.signed : Side → Nat → Int
  | .buy, qty => qty
  | .sell, qty => -qty

/-- Signed quantities add up. -/
theorem Side.signed_add (side : Side) (left right : Nat) :
    side.signed (left + right) = side.signed left + side.signed right := by
  cases side <;> simp only [signed] <;> omega

/-- A signed quantity below 2^64 that the machine takes for nothing is nothing. -/
theorem Side.eq_zero_of_dvd {side : Side} {qty : Nat} (small : qty < 2 ^ 64)
    (divides : (2 ^ 64 : Int) ∣ side.signed qty) : qty = 0 := by
  have natural : 2 ^ 64 ∣ qty := by
    cases side with
    | buy => exact Int.natCast_dvd_natCast.mp divides
    | sell => exact Int.natCast_dvd_natCast.mp (Int.dvd_neg.mp divides)
  exact Nat.eq_zero_of_dvd_of_lt natural small

/-- The account that submitted an order. -/
def submitterOf (submitted : List Order) (orderId : OrderId) : Option AccountId :=
  (submitted.find? fun order => order.orderId = orderId).map Order.accountId

/-- What a match moves for an account as the taker. -/
def takenBy (accountId : AccountId) (entry : Order × MatchCall) : Int :=
  if entry.1.accountId = accountId then entry.1.side.signed entry.2.record.qty.toNat else 0

/-- What a match moves for an account as the maker. -/
def madeBy (submitted : List Order) (accountId : AccountId) (entry : Order × MatchCall) : Int :=
  if submitterOf submitted entry.2.record.resting.key.orderId = some accountId then
    entry.1.side.opposite.signed entry.2.record.qty.toNat
  else 0

namespace ManagerRun

/-- Bought less sold in the matches of an account's orders. -/
def netTraded (run : ManagerRun) (accountId : AccountId) : Int :=
  (run.matched.map fun entry => takenBy accountId entry + madeBy run.submitted accountId entry).sum

/-- The position of an account in a symbol. -/
def position (run : ManagerRun) (accountId : AccountId) (symbolId : SymbolId) : PositionState :=
  run.manager.riskEngine.context.margin.position accountId symbolId

/-- Every net position is what the account has traded, and the net positions sum to zero. -/
def LedgerRight (symbolId : SymbolId) (run : ManagerRun) : Prop :=
  (∀ accountId ∈ traders,
    (run.position accountId symbolId).netQty.toInt = run.netTraded accountId) ∧
  (traders.map fun accountId => (run.position accountId symbolId).netQty.toInt).sum = 0

instance (symbolId : SymbolId) (run : ManagerRun) : Decidable (run.LedgerRight symbolId) :=
  -- Named, because the words are finitely many and could be searched as well.
  @instDecidableAnd _ _ (decidableBAll _ traders) inferInstance

/-- An accepted order matches fewer than 127 makers. -/
def FewMakers (run : ManagerRun) (input : ManagerInput) : Prop :=
  run.Accepts input →
    ∀ submission, run.manager.matchingEngine.submitOrder input.order .empty
      input.env.engineClock = .ok submission → submission.calls.length < 127

instance (run : ManagerRun) (input : ManagerInput) : Decidable (run.FewMakers input) :=
  match shape : run.manager.matchingEngine.submitOrder input.order .empty
      input.env.engineClock with
  | .ok submission =>
    decidable_of_iff (run.Accepts input → submission.calls.length < 127)
      (by simp [FewMakers, shape])
  | .error _ => .isTrue (by simp [FewMakers, shape])

/-- New orders of one symbol below 32, under identifiers of their own, from accounts whose table
slots are theirs alone, matching few makers. -/
def OneSymbolFlow (symbolId : SymbolId) (run : ManagerRun) (input : ManagerInput) : Prop :=
  symbolId.toNat < 32 ∧ input.command.type = .newOrder ∧ input.command.symbolId = symbolId ∧
    input.command.accountId ∈ traders ∧
    (∀ order ∈ run.submitted, order.orderId ≠ input.command.clientOrderId) ∧ run.FewMakers input
  deriving Decidable

/-- An accepted order meets no resting one. -/
def MeetsNothing (run : ManagerRun) (input : ManagerInput) : Prop :=
  run.Accepts input → ¬input.order.Meets run.book
  deriving Decidable

end ManagerRun

/-! ## What the reports do to a position -/

/-- What a report moves for an account. -/
def movedBy (side : Side) (accountId : AccountId) (report : ExecutionReport) : Int :=
  if report.execType = .trade ∧ report.accountId = accountId then
    side.signed report.lastQty.toNat
  else 0

/-- A signed quantity as the machine adds it. -/
theorem ofInt_signed (side : Side) (qty : UInt64) :
    Int64.ofInt (side.signed qty.toNat) =
      match side with
      | .buy => qty.toInt64
      | .sell => -qty.toInt64 := by
  cases side with
  | buy => exact Words.ofInt_toNat qty
  | sell =>
    change Int64.ofInt (-qty.toNat) = -qty.toInt64
    rw [Int64.ofInt_neg, Words.ofInt_toNat]

/-- A report moves the position of its account only. -/
theorem RiskEngine.absorb_position {engine : RiskEngine} {accountId : AccountId}
    {symbolId : SymbolId} {report : ExecutionReport} (side : Side) (trader : accountId ∈ traders)
    (reported : report.execType = .trade →
      (report.accountId = 0 ∨ report.accountId ∈ traders) ∧ report.symbolId = symbolId)
    (netted : (engine.context.margin.position accountId symbolId).Netted) :
    ((engine.absorb side report).context.margin.position accountId symbolId).Netted ∧
      ((engine.absorb side report).context.margin.position accountId symbolId).netQty =
        (engine.context.margin.position accountId symbolId).netQty +
          Int64.ofInt (movedBy side accountId report) := by
  have still : Int64.ofInt 0 = 0 := rfl
  cases kind : report.execType with
  | trade =>
    obtain ⟨account, symbol⟩ := reported kind
    simp only [absorb, kind, updateOnFill, movedBy, true_and]
    by_cases own : report.accountId = accountId
    · rw [own, symbol, MarginManager.position_updateOnFill, if_pos rfl]
      have claimed := (PositionState.claim_netted _ accountId symbolId).mpr netted
      refine ⟨PositionState.fill_netted _ _ _, ?_⟩
      rw [claimed.fill_netQty, ofInt_signed, (PositionState.claim_quantities ..).1]
      cases side with
      | buy => rfl
      | sell => exact Int64.sub_eq_add_neg ..
    · rw [symbol, MarginManager.position_updateOnFill_of_ne _ _ _ _ _ _ _
        (MarginManager.slot_ne trader account own symbolId), if_neg own, still, Int64.add_zero]
      exact ⟨netted, rfl⟩
  | new =>
    simp only [absorb, movedBy, kind, reduceCtorEq, false_and, if_false, still, Int64.add_zero]
    exact ⟨netted, trivial⟩
  | cancel =>
    simp only [absorb, movedBy, kind, reduceCtorEq, false_and, if_false, still, Int64.add_zero]
    exact ⟨netted, rfl⟩
  | reject =>
    simp only [absorb, movedBy, kind, reduceCtorEq, false_and, if_false, still, Int64.add_zero]
    exact ⟨netted, trivial⟩

/-- Reports move a position by their sum. -/
theorem RiskEngine.foldl_absorb_position {engine : RiskEngine} {accountId : AccountId}
    {symbolId : SymbolId} (side : Side) (trader : accountId ∈ traders)
    {reports : List ExecutionReport}
    (reported : ∀ report ∈ reports, report.execType = .trade →
      (report.accountId = 0 ∨ report.accountId ∈ traders) ∧ report.symbolId = symbolId)
    (netted : (engine.context.margin.position accountId symbolId).Netted) :
    let after := (reports.foldl (fun risk report => risk.absorb side report) engine).context.margin
    (after.position accountId symbolId).Netted ∧
      (after.position accountId symbolId).netQty =
        (engine.context.margin.position accountId symbolId).netQty +
          Int64.ofInt (reports.map (movedBy side accountId)).sum := by
  induction reports generalizing engine with
  | nil => exact ⟨netted, (Int64.add_zero _).symm⟩
  | cons report rest ih =>
    obtain ⟨netted', first⟩ :=
      engine.absorb_position side trader (reported report mem_cons_self) netted
    obtain ⟨final, later⟩ := ih (fun other member => reported other (mem_cons_of_mem _ member))
      netted'
    refine ⟨final, ?_⟩
    rw [foldl_cons, later, first, map_cons, sum_cons, Int64.ofInt_add,
      Int64.add_assoc]

/-- The reports of matches move an account by what it takes. -/
theorem sum_movedBy (order : Order) {accountId : AccountId} (trader : accountId ∈ traders)
    (calls : List MatchCall) :
    ((calls.flatMap fun call => [takerReport order call.record,
      makerReport call.record]).map (movedBy order.side accountId)).sum =
      (calls.map fun call => takenBy accountId (order, call)).sum := by
  have someone : (0 : AccountId) ≠ accountId := by
    rintro rfl
    exact absurd (mem_traders.mp trader).1 (by decide)
  induction calls with
  | nil => rfl
  | cons call rest ih =>
    have taker : movedBy order.side accountId (takerReport order call.record) =
        takenBy accountId (order, call) := by
      simp only [movedBy, takenBy, takerReport, true_and]
    have maker : movedBy order.side accountId (makerReport call.record) = 0 := by
      simp only [movedBy, makerReport, someone, and_false, if_false]
    simp only [flatMap_cons, map_append, map_cons, map_nil, sum_append,
      sum_cons, sum_nil, taker, maker, ih]
    omega

/-! ## Runs -/

namespace ManagerRun

variable {symbolId : SymbolId} {run next : ManagerRun} {input : ManagerInput}

/-- No match has been made and every position is flat. -/
structure Flat (symbolId : SymbolId) (run : ManagerRun) : Prop where
  invariant : run.Invariant
  unmatched : run.matched = []
  flow : ∀ order ∈ run.submitted, order.symbolId = symbolId ∧ order.accountId ∈ traders
  flat : ∀ accountId ∈ traders, (run.position accountId symbolId).Netted ∧
    (run.position accountId symbolId).netQty = 0

namespace Flat

/-- A new ledger is flat. -/
theorem start (round : ℚ → ℚ) : (ManagerRun.start symbolId round).Flat symbolId where
  invariant := Invariant.start symbolId round
  unmatched := rfl
  flow := fun _ member => absurd member not_mem_nil
  flat := by
    intro _ _
    refine ⟨?_, rfl⟩
    change (0 : Int64) = (0 : UInt64).toInt64 - (0 : UInt64).toInt64
    decide

/-- The ledger is right before the first match. -/
theorem ledgerRight (flat : run.Flat symbolId) : run.LedgerRight symbolId := by
  have net (accountId : AccountId) (trader : accountId ∈ traders) :
      (run.position accountId symbolId).netQty.toInt = 0 := by
    rw [(flat.flat accountId trader).2]
    rfl
  constructor
  · intro accountId trader
    rw [net accountId trader, netTraded, flat.unmatched]
    rfl
  · rw [map_congr_left net]
    simp

/-- A validation keeps positions flat. -/
theorem validation (flat : run.Flat symbolId) (input : ManagerInput) {accountId : AccountId}
    (trader : accountId ∈ traders) :
    ((run.validation input).engine.context.margin.position accountId symbolId).Netted ∧
      ((run.validation input).engine.context.margin.position accountId symbolId).netQty = 0 := by
  have before := flat.flat accountId trader
  rcases run.manager.riskEngine.validate_position input.env.halts input.env.riskClock
      input.command.riskContext ⟨[]⟩ accountId symbolId with same | claimed
  · rw [ManagerRun.validation, EngineManager.validate, same]
    exact before
  · rw [ManagerRun.validation, EngineManager.validate, claimed, PositionState.claim_netted,
      (PositionState.claim_quantities ..).1]
    exact before

/-- Entered orders are of the flow. -/
theorem flow_entered (flat : run.Flat symbolId) (legal : OneSymbolFlow symbolId run input) :
    ∀ order ∈ run.submitted ++ [input.order],
      order.symbolId = symbolId ∧ order.accountId ∈ traders := by
  intro order member
  rcases mem_append.mp member with old | new
  · exact flat.flow order old
  · rw [mem_singleton.mp new]
    exact ⟨legal.2.2.1, legal.2.2.2.1⟩

/-- A submission moves each position by what the account takes, whoever made it. -/
theorem entered {submission : Submission} (flat : run.Flat symbolId)
    (legal : OneSymbolFlow symbolId run input) (accepted : run.Accepts input)
    (submits : run.manager.matchingEngine.submitOrder input.order .empty input.env.engineClock =
      .ok submission)
    (owned : (run.entered input submission).engineRun.Owned) {accountId : AccountId}
    (trader : accountId ∈ traders) :
    ((run.entered input submission).position accountId symbolId).Netted ∧
      ((run.entered input submission).position accountId symbolId).netQty =
        Int64.ofInt
          (submission.calls.map fun call => takenBy accountId (input.order, call)).sum := by
  have flow := flat.flow_entered legal
  obtain ⟨_, _, symbol, account, _, few⟩ := legal
  have outcome := flat.invariant.engine.submitted submits
  obtain ⟨ack, ended, reports, isNew, isCancel, _⟩ :=
    outcome.reports_eq (few accepted submission submits)
  obtain ⟨netted, still⟩ := flat.validation input trader
  have makers (call : MatchCall) (made : call ∈ submission.calls) :
      call.record.resting.key.symbolId = symbolId := by
    have matched : (input.order, call) ∈ (run.entered input submission).engineRun.matched :=
      mem_append_right _ (mem_map.mpr ⟨call, made, rfl⟩)
    obtain ⟨order, member, _, key⟩ := owned.makers _ matched
    rw [key]
    exact (flow order member).1
  have reported : ∀ report ∈ submission.ctx.reports, report.execType = .trade →
      (report.accountId = 0 ∨ report.accountId ∈ traders) ∧ report.symbolId = symbolId := by
    intro report member isTrade
    rw [reports] at member
    rcases mem_append.mp member with front | back
    · rcases mem_cons.mp front with rfl | traded
      · rw [isNew] at isTrade
        cases isTrade
      · obtain ⟨call, made, pair⟩ := mem_flatMap.mp traded
        rcases mem_cons.mp pair with rfl | maker
        · exact ⟨Or.inr account, symbol⟩
        · rw [mem_singleton.mp maker]
          exact ⟨Or.inl rfl, makers call made⟩
    · rw [(isCancel report back).1] at isTrade
      cases isTrade
  obtain ⟨netted', moved⟩ := RiskEngine.foldl_absorb_position input.command.side trader reported
    netted
  refine ⟨netted', ?_⟩
  have first : movedBy input.command.side accountId ack = 0 := by
    simp [movedBy, isNew]
  have last : (ended.map (movedBy input.command.side accountId)).sum = 0 := by
    apply sum_eq_zero
    intro amount member
    obtain ⟨report, listed, rfl⟩ := mem_map.mp member
    simp [movedBy, (isCancel report listed).1]
  have total : (submission.ctx.reports.map (movedBy input.command.side accountId)).sum =
      (submission.calls.map fun call => takenBy accountId (input.order, call)).sum := by
    rw [reports, map_append, map_cons, sum_append, sum_cons, first, last,
      Int.zero_add, Int.add_zero]
    exact sum_movedBy input.order trader submission.calls
  rw [still, total] at moved
  exact moved.trans (Int64.zero_add _)

/-- A command that meets nothing keeps the run flat. -/
theorem step (flat : run.Flat symbolId) (legal : OneSymbolFlow symbolId run input)
    (passive : run.MeetsNothing input) (taken : run.step input = .ok next) :
    next.Flat symbolId := by
  have invariant := flat.invariant.step taken
  cases outcome taken with
  | rejected _ =>
    exact ⟨invariant, flat.unmatched, flat.flow, fun _ trader => flat.validation input trader⟩
  | cancelled _ isCancel _ =>
    rw [legal.2.1] at isCancel
    cases isCancel
  | replaced _ isReplace =>
    rw [legal.2.1] at isReplace
    cases isReplace
  | entered accepted _ submits =>
    obtain ⟨quiet, _⟩ := submitOrder_idle (passive accepted) submits
    refine ⟨invariant, ?_, flat.flow_entered legal, ?_⟩
    · simp only [ManagerRun.entered, quiet, flat.unmatched, map_nil, append_nil]
    · intro accountId trader
      obtain ⟨netted, net⟩ := flat.entered legal accepted submits invariant.owned trader
      rw [quiet] at net
      exact ⟨netted, net⟩

end Flat

/-- The quantity that an account makes in some matches. -/
def madeQty (submitted : List Order) (accountId : AccountId) (calls : List MatchCall) : Nat :=
  (calls.map fun call =>
    if submitterOf submitted call.record.resting.key.orderId = some accountId then
      call.record.qty.toNat
    else 0).sum

/-- An account makes at most the total. -/
theorem madeQty_le (submitted : List Order) (accountId : AccountId) (calls : List MatchCall) :
    madeQty submitted accountId calls ≤ (calls.map fun call => call.record.qty.toNat).sum := by
  induction calls with
  | nil => exact Nat.le_refl 0
  | cons call rest ih =>
    simp only [madeQty, map_cons, sum_cons] at ih ⊢
    split <;> omega

/-- The maker's side of the matches. -/
theorem sum_madeBy (submitted : List Order) (accountId : AccountId) (order : Order)
    (calls : List MatchCall) :
    (calls.map fun call => madeBy submitted accountId (order, call)).sum =
      order.side.opposite.signed (madeQty submitted accountId calls) := by
  unfold madeQty
  induction calls with
  | nil => cases order.side <;> rfl
  | cons call rest ih =>
    have first : madeBy submitted accountId (order, call) = order.side.opposite.signed
        (if submitterOf submitted call.record.resting.key.orderId = some accountId then
          call.record.qty.toNat else 0) := by
      unfold madeBy
      split
      · rfl
      · cases order.side <;> rfl
    rw [map_cons, sum_cons, map_cons, sum_cons, ih, first, Side.signed_add]

/-- An order that is submitted has a submitter. -/
theorem submitterOf_eq_some {submitted : List Order} {order : Order} (member : order ∈ submitted) :
    ∃ owner ∈ submitted, submitterOf submitted order.orderId = some owner.accountId := by
  cases found : submitted.find? fun other => other.orderId = order.orderId with
  | none =>
    have absent := find?_eq_none.mp found order member
    exact absurd (decide_eq_true rfl) absent
  | some owner => exact ⟨owner, mem_of_find?_eq_some found, by rw [submitterOf, found]; rfl⟩

/-- A match makes the ledger wrong: the position of the maker's account misses it. -/
theorem Flat.meetsNothing (flat : run.Flat symbolId) (legal : OneSymbolFlow symbolId run input)
    (taken : run.step input = .ok next) (right : next.LedgerRight symbolId) :
    run.MeetsNothing input := by
  intro accepts active
  have invariant := flat.invariant.step taken
  cases outcome taken with
  | rejected refused => exact not_accepts_of_error refused accepts
  | cancelled _ isCancel _ =>
    rw [legal.2.1] at isCancel
    cases isCancel
  | replaced _ isReplace =>
    rw [legal.2.1] at isReplace
    cases isReplace
  | @entered submission accepted _ submits =>
    have outcome := flat.invariant.engine.submitted submits
    obtain ⟨call, rest, calls⟩ := exists_cons_of_ne_nil
      (outcome.calls_ne_nil flat.invariant.engine.sane active)
    have first : call ∈ submission.calls := calls ▸ mem_cons_self
    have matched : (input.order, call) ∈ (run.entered input submission).matched :=
      mem_append_right _ (mem_map.mpr ⟨call, first, rfl⟩)
    obtain ⟨maker, member, _, key⟩ := invariant.owned.makers _ matched
    obtain ⟨owner, listed, submitter⟩ := submitterOf_eq_some member
    have trader := (flat.flow_entered legal owner listed).2
    -- Both sides of the ledger hold what the owner took; only one holds what the owner made.
    have agree := right.1 owner.accountId trader
    rw [(flat.entered legal accepted submits invariant.owned trader).2] at agree
    have divides := Words.dvd_of_toInt_ofInt agree
    have traded : (run.entered input submission).netTraded owner.accountId =
        (submission.calls.map fun call => takenBy owner.accountId (input.order, call)).sum +
          input.order.side.opposite.signed
            (madeQty (run.submitted ++ [input.order]) owner.accountId submission.calls) := by
      rw [← sum_madeBy, ← sum_map_add]
      simp only [netTraded, ManagerRun.entered, flat.unmatched, nil_append, map_map]
      rfl
    rw [traded, add_sub_cancel_left] at divides
    have bound := madeQty_le (run.submitted ++ [input.order]) owner.accountId submission.calls
    have total := outcome.total
    have word := UInt64.toNat_lt input.order.qty
    have nothing := Side.eq_zero_of_dvd (by omega) divides
    have some' := flat.invariant.positive.qty_ne_zero flat.invariant.engine outcome call first
    have own : submitterOf (run.submitted ++ [input.order]) call.record.resting.key.orderId =
        some owner.accountId := key ▸ submitter
    rw [madeQty, calls, map_cons, sum_cons, if_pos own] at nothing
    apply some'
    apply UInt64.toNat_inj.mp
    change _ = 0
    omega

/-- The ledger is right in every state of a run exactly if no accepted order meets a resting
one. -/
theorem ledgerRight_iff_meetsNothing {round : ℚ → ℚ} {inputs : List ManagerInput}
    {final : ManagerRun}
    (legal : Along (OneSymbolFlow symbolId) step (start symbolId round) inputs)
    (ran : runAll step (start symbolId round) inputs = .ok final) :
    Throughout (LedgerRight symbolId) step (start symbolId round) inputs ↔
      Along MeetsNothing step (start symbolId round) inputs :=
  Throughout.iff_along (Flat.start round) (fun _ flat => flat.ledgerRight)
    (fun _ _ _ flat here passive taken => flat.step here passive taken)
    (fun _ _ _ flat here taken right => flat.meetsNothing here taken right) legal ran

/-- Two orders that rest on their own sides. -/
theorem ledgerRight_iff_meetsNothing_apart :
    Throughout (LedgerRight 1) step (start 1 id)
      [commandInput (limitCommand 1 1 .sell 10100000000 1000000),
        commandInput (limitCommand 2 2 .buy 9900000000 1000000)] := by
  have returns : Returns (fun _ => True) (runAll step (start 1 id)
      [commandInput (limitCommand 1 1 .sell 10100000000 1000000),
        commandInput (limitCommand 2 2 .buy 9900000000 1000000)]) := by
    decide +kernel
  obtain ⟨_, ran, _⟩ := returns.exists
  exact (ledgerRight_iff_meetsNothing (by decide +kernel) ran).mpr (by decide +kernel)

/-- Account 2 buys what account 1 sells: the position of account 1 stays flat. -/
theorem trade_leaves_maker_flat :
    Along (OneSymbolFlow 1) step (start 1 id)
        [commandInput (limitCommand 1 1 .sell 10000000000 1000000),
          commandInput (limitCommand 2 2 .buy 10000000000 1000000)] ∧
      Returns (fun run => run.netTraded 1 = -1000000 ∧ (run.position 1 1).netQty = 0 ∧
          (run.position 2 1).netQty = 1000000 ∧ ¬run.LedgerRight 1)
        (runAll step (start 1 id)
          [commandInput (limitCommand 1 1 .sell 10000000000 1000000),
            commandInput (limitCommand 2 2 .buy 10000000000 1000000)]) := by
  decide +kernel

end ManagerRun

end FluxTrade
