import FluxTrade.Matching.Reports

/-!
# The outcome of a submission

A submission is filled, rests, or expires with a report. A stop order that is
not filled does none of these: the loops treat it as a market order and the last
branch has no case for it. A market order expires without a report when the
context has no room for one more, and a limit order whose matches all had
quantity zero rests with the status of an order that met nobody.
-/

namespace FluxTrade

open Execution TradeBuilder ExecutionContext EngineRun

/-! ## Outcomes -/

namespace Submission

/-- The matches take the whole quantity. -/
def Consumes (submission : Submission) (order : Order) : Prop :=
  (submission.calls.map fun call => call.record.qty.toNat).sum = order.qty.toNat

/-- A cancel report for the order has been added to those of the context. -/
def ReportsCancel (submission : Submission) (order : Order) (ctx : ExecutionContext) : Prop :=
  ∃ report ∈ submission.ctx.reports.drop ctx.reports.length,
    report.execType = .cancel ∧ report.orderId = order.orderId

/-- One of the three outcomes, and nothing of the other two. -/
inductive OneOutcome (submission : Submission) (order : Order) (ctx : ExecutionContext) : Prop
  | filled (consumed : submission.Consumes order)
      (gone : ¬submission.engine.book.Resting order.orderId)
      (silent : ¬submission.ReportsCancel order ctx)
      (status : submission.result.status = .filled)
  | rests (left : ¬submission.Consumes order)
      (resting : submission.engine.book.Resting order.orderId)
      (silent : ¬submission.ReportsCancel order ctx)
      (status : submission.result.status = .success ∧ submission.calls = [] ∨
        submission.result.status = .partiallyFilled ∧ submission.calls ≠ [])
  | expired (left : ¬submission.Consumes order)
      (gone : ¬submission.engine.book.Resting order.orderId)
      (reported : submission.ReportsCancel order ctx)
      (status : submission.result.status = .expired)

end Submission

/-- What a book and a context provide for before an order is submitted: the resting orders fill it;
or it is a limit order that meets nobody, or an order with a positive quantity; or it is a market
order and its expiration finds room among the reports. -/
def Order.Provided (order : Order) (book : LimitOrderBook) (ctx : ExecutionContext) : Prop :=
  openAfter order book.levelsOf = 0 ∨
    (order.type = .limit ∧
      (order.fills book = [] ∨ ∃ fill ∈ order.fills book, fill.qty ≠ 0)) ∨
    (order.type = .market ∧
      ctx.reports.length + 1 + 2 * (order.fills book).length < maxReports)

/-! ## Reports of a submission -/

/-- After a report there is room for some more if there was room for it and them. -/
theorem ExecutionContext.room_addReport (ctx : ExecutionContext) (report : ExecutionReport)
    (more : Nat) :
    (ctx.addReport report).reports.length + more < maxReports ↔
      ctx.reports.length + 1 + more < maxReports := by
  unfold addReport
  split
  · omega
  · rw [List.length_append, List.length_singleton]

/-- Every match asks for room for two reports. -/
theorem room_foldl_buildMatch (order : Order) (calls : List MatchCall) (ctx : ExecutionContext) :
    (calls.foldl (fun ctx call => buildMatch ctx order call.record) ctx).reports.length <
        maxReports ↔
      ctx.reports.length + 2 * calls.length < maxReports := by
  induction calls generalizing ctx with
  | nil => exact Iff.rfl
  | cons call rest ih =>
    rw [List.foldl_cons, ih, buildMatch, room_addReport, Nat.add_assoc,
      room_addReport, addTrade_reports, List.length_cons]
    have same : ctx.reports.length + 1 + (1 + 2 * rest.length) =
        ctx.reports.length + 2 * (rest.length + 1) := by omega
    rw [same]

/-- A report that is added comes last; a full context stays as it is. -/
theorem ExecutionContext.addReport_extends (ctx : ExecutionContext) (report : ExecutionReport) :
    ∃ added, (ctx.addReport report).reports = ctx.reports ++ added ∧
      ∀ other ∈ added, other = report := by
  by_cases full : maxReports ≤ ctx.reports.length
  · exact ⟨[], by rw [addReport, if_pos full, List.append_nil], by simp⟩
  · exact ⟨[report], addReport_reports (Nat.lt_of_not_le full) report, by simp⟩

/-- Matches add reports of trades only. -/
theorem foldl_buildMatch_extends (order : Order) (calls : List MatchCall)
    (ctx : ExecutionContext) :
    ∃ added, (calls.foldl (fun ctx call => buildMatch ctx order call.record) ctx).reports =
        ctx.reports ++ added ∧ ∀ report ∈ added, report.execType = .trade := by
  induction calls generalizing ctx with
  | nil => exact ⟨[], (List.append_nil _).symm, by simp⟩
  | cons call rest ih =>
    obtain ⟨later, laterReports, trades⟩ := ih (buildMatch ctx order call.record)
    obtain ⟨taker, takerReports, isTaker⟩ := addReport_extends
      (ctx.addTrade (matchTrade order call.record)) (takerReport order call.record)
    obtain ⟨maker, makerReports, isMaker⟩ := addReport_extends
      ((ctx.addTrade (matchTrade order call.record)).addReport (takerReport order call.record))
      (makerReport call.record)
    rw [addTrade_reports] at takerReports
    refine ⟨taker ++ maker ++ later, ?_, ?_⟩
    · rw [List.foldl_cons, laterReports, buildMatch, makerReports, takerReports]
      simp only [List.append_assoc]
    · intro report member
      rcases List.mem_append.mp member with here | there
      · rcases List.mem_append.mp here with own | other
        · rw [isTaker report own]
          rfl
        · rw [isMaker report other]
          rfl
      · exact trades report there

section

variable {engine : MatchingEngine} {order : Order} {ctx : ExecutionContext}
  {clock : ClockReadings} {submission : Submission} {view view' : BookView}

/-- Until the remainder is settled, no cancel report is added. -/
theorem Crossing.Extends.adds_no_cancel {crossing : Crossing} {calls : List MatchCall}
    (extend : Crossing.Extends order (engine.beginSubmit order ctx clock.now) crossing calls) :
    ∃ added, crossing.ctx.reports = ctx.reports ++ added ∧
      ∀ report ∈ added, report.execType ≠ .cancel := by
  obtain ⟨trades, traded, isTrade⟩ := foldl_buildMatch_extends order calls
    (engine.beginSubmit order ctx clock.now).ctx
  obtain ⟨ack, acknowledged, isAck⟩ : ∃ added,
      (engine.beginSubmit order ctx clock.now).ctx.reports = ctx.reports ++ added ∧
        ∀ report ∈ added, report.execType = .new := by
    obtain ⟨ack, acknowledged, isAck⟩ := addReport_extends ctx
      { execId := engine.execSeq, orderId := order.orderId, price := order.price, lastQty := 0
        remainingQty := order.qty, timestamp := clock.now, clientId := order.clientId
        accountId := order.accountId, symbolId := order.symbolId, rejectReason := .none
        execType := .new }
    exact ⟨ack, acknowledged, fun report member => by rw [isAck report member]⟩
  refine ⟨ack ++ trades, ?_, ?_⟩
  · rw [extend.ctx, traded, acknowledged, List.append_assoc]
  · intro report member
    rcases List.mem_append.mp member with own | trade
    · rw [isAck report own]
      decide
    · rw [isTrade report trade]
      decide

section

variable (submitted : Submitted engine order ctx clock view submission view')
include submitted

/-- A cancel report is made for what a market order leaves open, if there is room for it. -/
theorem Submitted.reportsCancel_iff :
    submission.ReportsCancel order ctx ↔ openAfter order view ≠ 0 ∧ order.type = .market ∧
      ctx.reports.length + 1 + 2 * submission.calls.length < maxReports := by
  obtain ⟨crossing, extend, settled, _⟩ := submitted.crossed
  have left := submitted.remaining_eq extend
  have room : crossing.ctx.reports.length < maxReports ↔
      ctx.reports.length + 1 + 2 * submission.calls.length < maxReports := by
    rw [extend.ctx, room_foldl_buildMatch]
    exact room_addReport ..
  obtain ⟨added, reports, others⟩ := extend.adds_no_cancel
  have none' (same : submission.ctx.reports = crossing.ctx.reports) :
      ¬submission.ReportsCancel order ctx := by
    rintro ⟨report, member, cancels, _⟩
    rw [same, reports, List.drop_left] at member
    exact others report member cancels
  unfold settledCtx at settled
  rw [← room, ← left]
  by_cases expires : crossing.remaining ≠ 0 ∧ order.type = .market
  · rw [if_pos expires, buildExpiration] at settled
    by_cases free : crossing.ctx.reports.length < maxReports
    · refine iff_of_true ?_ ⟨expires.1, expires.2, free⟩
      rw [Submission.ReportsCancel, settled, addReport_reports free, reports,
        List.append_assoc, List.drop_left]
      exact ⟨_, List.mem_append_right _ (List.mem_singleton_self _), rfl, rfl⟩
    · refine iff_of_false (none' ?_) fun all => free all.2.2
      rw [settled, addReport, if_pos (Nat.le_of_not_lt free)]
  · rw [if_neg expires] at settled
    exact iff_of_false (none' (congrArg _ settled)) fun all => expires ⟨all.1, all.2.1⟩

/-! ## Quantities and resting orders -/

/-- What the matches leave open. -/
theorem Submitted.openAfter_eq :
    openAfter order view = leftAfter order.qty (submission.calls.map MatchCall.fill) := by
  rw [openAfter, ← submitted.fills]

/-- Consumed means nothing open. -/
theorem Submitted.consumes_iff :
    submission.Consumes order ↔ openAfter order view = 0 := by
  have total := submitted.total
  rw [Submission.Consumes, submitted.openAfter_eq, ← UInt64.toNat_inj, UInt64.toNat_zero]
  omega

/-- All of the quantity is left open exactly if no match has a positive quantity. -/
theorem Submitted.untouched_iff :
    openAfter order view = order.qty ↔ ¬∃ call ∈ submission.calls, call.record.qty ≠ 0 := by
  have total := submitted.total
  have zero : openAfter order view = order.qty ↔
      (submission.calls.map fun call => call.record.qty.toNat).sum = 0 := by
    rw [submitted.openAfter_eq, ← UInt64.toNat_inj]
    omega
  rw [zero, List.sum_eq_zero_iff_forall_eq_nat]
  simp only [List.mem_map, forall_exists_index, and_imp, forall_apply_eq_imp_iff₂, not_exists,
    not_and, not_not, ← UInt64.toNat_inj, UInt64.toNat_zero]

end

/-- An order with a new identifier rests exactly if it is a limit order that is not filled. -/
theorem Submitted.resting_iff (sane : Sane engine.book engine.book.levelsOf)
    (submitted : Submitted engine order ctx clock engine.book.levelsOf submission
      submission.engine.book.levelsOf)
    (fresh : ¬engine.book.Resting order.orderId) :
    submission.engine.book.Resting order.orderId ↔
      order.type = .limit ∧ openAfter order engine.book.levelsOf ≠ 0 := by
  have before (entry : OrderView) (side : Side)
      (member : entry ∈ restingOrders (engine.book.levelsOf side)) :
      entry.key.orderId ≠ order.orderId := fun same =>
    fresh ⟨entry, (restingBoth_perm engine.book.levelsOf side).mem_iff.mpr
      (List.mem_append_left _ member), same⟩
  constructor
  · rintro ⟨entry, member, isId⟩
    rcases List.mem_append.mp ((restingBoth_perm submission.engine.book.levelsOf
      order.side).mem_iff.mp member) with own | far
    · rcases submitted.rested sane own with ⟨isLimit, left, _⟩ | old
      · exact ⟨isLimit, left⟩
      · exact absurd isId (before entry _ old)
    · rw [submitted.views.opposite] at far
      obtain ⟨old, listed, _, _, rfl⟩ := mem_restingOrders_sweepLevels far
      exact absurd isId (before old _ listed)
  · rintro ⟨isLimit, left⟩
    obtain ⟨slot, node, placed⟩ := submitted.views.rests isLimit left
    refine ⟨(order.live order.seqNum).view slot, ?_, rfl⟩
    refine (restingBoth_perm submission.engine.book.levelsOf order.side).mem_iff.mpr
      (List.mem_append_left _ ?_)
    rw [placed]
    exact (placeOrder_perm (sane.rep.sides order.side).sorted).mem_iff.mpr List.mem_cons_self

/-- An order that rests: its status tells whether matches took something, not whether there were
any. -/
theorem Submission.oneOutcome_iff_of_rests {left : Quantity}
    (open' : ¬submission.Consumes order)
    (rests : submission.engine.book.Resting order.orderId)
    (silent : ¬submission.ReportsCancel order ctx)
    (untouched : left = order.qty ↔ ¬∃ call ∈ submission.calls, call.record.qty ≠ 0)
    (status : submission.result.status =
      if left = order.qty then .success else .partiallyFilled) :
    submission.OneOutcome order ctx ↔
      submission.calls = [] ∨ ∃ call ∈ submission.calls, call.record.qty ≠ 0 := by
  constructor
  · intro outcome
    by_cases calls : submission.calls = []
    · exact .inl calls
    · refine .inr (Classical.not_not.mp fun none' => ?_)
      rw [if_pos (untouched.mpr none')] at status
      cases outcome with
      | filled consumed => exact open' consumed
      | rests _ _ _ shown =>
        rcases shown with ⟨_, empty⟩ | ⟨partly, _⟩
        · exact calls empty
        · exact absurd (status.symm.trans partly) (by decide)
      | expired _ gone => exact gone rests
  · rintro (empty | ⟨call, made, some'⟩)
    · rw [if_pos (untouched.mpr (by rw [empty]; simp))] at status
      exact .rests open' rests silent (.inl ⟨status, empty⟩)
    · rw [if_neg fun same => untouched.mp same ⟨call, made, some'⟩] at status
      exact .rests open' rests silent (.inr ⟨status, List.ne_nil_of_mem made⟩)

/-- An order that neither is filled nor rests: it must expire with a report. -/
theorem Submission.oneOutcome_iff_of_gone (open' : ¬submission.Consumes order)
    (gone : ¬submission.engine.book.Resting order.orderId) :
    submission.OneOutcome order ctx ↔
      submission.ReportsCancel order ctx ∧ submission.result.status = .expired := by
  constructor
  · intro outcome
    cases outcome with
    | filled consumed => exact absurd consumed open'
    | rests _ rests => exact absurd rests gone
    | expired _ _ reported status => exact ⟨reported, status⟩
  · rintro ⟨reported, status⟩
    exact .expired open' gone reported status

/-- A submission of a new identifier has one outcome exactly if it is provided for. -/
theorem Submitted.oneOutcome_iff (sane : Sane engine.book engine.book.levelsOf)
    (submitted : Submitted engine order ctx clock engine.book.levelsOf submission
      submission.engine.book.levelsOf)
    (fresh : ¬engine.book.Resting order.orderId)
    (status : submission.result.status =
      settledStatus order (openAfter order engine.book.levelsOf)) :
    submission.OneOutcome order ctx ↔ order.Provided engine.book ctx := by
  have consumes := submitted.consumes_iff
  have resting := submitted.resting_iff sane fresh
  have reports := submitted.reportsCancel_iff
  have fills := submitted.fills_eq sane
  unfold settledStatus at status
  by_cases zero : openAfter order engine.book.levelsOf = 0
  · rw [if_pos zero] at status
    refine iff_of_true (.filled (consumes.mpr zero) ?_ ?_ status) (.inl zero)
    · exact fun rests => (resting.mp rests).2 zero
    · exact fun reported => (reports.mp reported).1 zero
  · rw [if_neg zero] at status
    have open' : ¬submission.Consumes order := fun consumed => zero (consumes.mp consumed)
    cases kind : order.type with
    | limit =>
      simp only [kind] at status
      rw [Submission.oneOutcome_iff_of_rests open' (resting.mpr ⟨kind, zero⟩) _
        submitted.untouched_iff status]
      · simp [Order.Provided, zero, kind, fills, MatchCall.fill]
      · exact fun reported => absurd (kind.symm.trans (reports.mp reported).2.1) (by decide)
    | market =>
      simp only [kind] at status
      rw [Submission.oneOutcome_iff_of_gone open' (by rw [resting, kind]; simp), reports]
      simp [Order.Provided, fills, kind, zero, status]
    | stop =>
      simp only [kind] at status
      rw [Submission.oneOutcome_iff_of_gone open' (by rw [resting, kind]; simp), status]
      simp [Order.Provided, zero, kind]

end

/-- In every reachable state, a submitted order whose identifier does not rest has exactly one of
the three outcomes, if and only if the state before the call provides for it. -/
theorem oneOutcome_iff_provided {listener : Option (List BookEvent)} {inputs : List EngineInput}
    {run : EngineRun} {order : Order} {ctx : ExecutionContext} {clock : ClockReadings}
    {submission : Submission}
    (ran : runAll step (start listener) inputs = .ok run)
    (fresh : ¬run.engine.book.Resting order.orderId)
    (returned : run.engine.submitOrder order ctx clock = .ok submission) :
    submission.OneOutcome order ctx ↔ order.Provided run.engine.book ctx := by
  have invariant := Invariant.of_run ran
  exact (invariant.submitted returned).oneOutcome_iff invariant.sane fresh
    (submitOrder_status invariant.sane returned)

/-- An offer of five lots. -/
def fiveOffered : List EngineInput := [submitInput (limitOrder 1 .sell 100 5)]

/-- A market order for eight lots meets an offer of five and expires with a report. -/
theorem oneOutcome_iff_provided_market : ∃ run submission,
    runAll step (start none) fiveOffered = .ok run ∧
      run.engine.submitOrder { limitOrder 2 .buy 100 8 with type := .market } .empty ⟨0, 0, 0⟩ =
        .ok submission ∧
      submission.result.status = .expired ∧
      submission.OneOutcome { limitOrder 2 .buy 100 8 with type := .market } .empty := by
  obtain ⟨run, ran, fresh, one, returns⟩ : ∃ run,
      runAll step (start none) fiveOffered = .ok run ∧
        ¬run.engine.book.Resting 2 ∧
        ({ limitOrder 2 .buy 100 8 with type := .market }.fills run.engine.book).length = 1 ∧
        Returns (fun submission => submission.result.status = .expired)
          (run.engine.submitOrder { limitOrder 2 .buy 100 8 with type := .market } .empty
            ⟨0, 0, 0⟩) :=
    Returns.exists (by decide +kernel)
  obtain ⟨submission, returned, status⟩ := returns.exists
  refine ⟨run, submission, ran, returned, status,
    (oneOutcome_iff_provided ran fresh returned).mpr (.inr (.inr ⟨rfl, ?_⟩))⟩
  rw [one]
  decide

/-- A stop order for eight lots meets an offer of five: three lots neither rest nor expire, and no
report tells of them. -/
theorem not_oneOutcome_stop : ∃ run submission,
    runAll step (start none) fiveOffered = .ok run ∧
      ¬run.engine.book.Resting 2 ∧
      run.engine.submitOrder { limitOrder 2 .buy 100 8 with type := .stop } .empty ⟨0, 0, 0⟩ =
        .ok submission ∧
      submission.result.status = .success ∧
      submission.calls.map (fun call => call.record.qty) = [5] ∧
      ¬submission.engine.book.Resting 2 ∧
      submission.ctx.reports.map ExecutionReport.execType = [.new, .trade, .trade] ∧
      ¬submission.OneOutcome { limitOrder 2 .buy 100 8 with type := .stop } .empty := by
  obtain ⟨run, ran, fresh, returns⟩ : ∃ run,
      runAll step (start none) fiveOffered = .ok run ∧
        ¬run.engine.book.Resting 2 ∧
        Returns (fun submission => submission.result.status = .success ∧
            submission.calls.map (fun call => call.record.qty) = [5] ∧
            ¬submission.engine.book.Resting 2 ∧
            submission.ctx.reports.map ExecutionReport.execType = [.new, .trade, .trade])
          (run.engine.submitOrder { limitOrder 2 .buy 100 8 with type := .stop } .empty
            ⟨0, 0, 0⟩) :=
    Returns.exists (by decide +kernel)
  obtain ⟨submission, returned, status, calls, gone, reports⟩ := returns.exists
  refine ⟨run, submission, ran, fresh, returned, status, calls, gone, reports, fun outcome => ?_⟩
  cases outcome with
  | filled _ _ _ filled => exact absurd (status.symm.trans filled) (by decide)
  | rests _ rests => exact gone rests
  | expired _ _ _ expired => exact absurd (status.symm.trans expired) (by decide)

end FluxTrade
