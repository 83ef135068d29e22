import FluxTrade.Matching.Reports

/-!
# Complete execution records

A submission is acknowledged once, each match makes a trade and two reports, and
what a market order leaves open makes one report more. The context has room for
128 trades and 256 reports, so that a submission with 128 matches already loses
the report of the last maker: the records are complete exactly if the book
before the call holds at most 127 orders for it to match.
-/

namespace FluxTrade

open Execution TradeBuilder ExecutionContext EngineRun

/-- The trade and the two reports of one match. -/
structure Match.RecordedBy (aggressive : Order) (m : Match) (trade : Trade)
    (taker maker : ExecutionReport) : Prop where
  prices : trade.price = m.price ∧ taker.price = m.price ∧ maker.price = m.price
  quantities : trade.qty = m.qty ∧ taker.lastQty = m.qty ∧ maker.lastQty = m.qty
  orders : taker.orderId = aggressive.orderId ∧ maker.orderId = m.resting.key.orderId
  kinds : taker.execType = .trade ∧ maker.execType = .trade

/-- `build_match` writes the records of its match. -/
theorem Match.recordedBy (aggressive : Order) (m : Match) :
    m.RecordedBy aggressive (matchTrade aggressive m) (takerReport aggressive m)
      (makerReport m) :=
  ⟨⟨rfl, rfl, rfl⟩, ⟨rfl, rfl, rfl⟩, ⟨rfl, rfl⟩, ⟨rfl, rfl⟩⟩

/-- A submission whose context, empty before, holds every record of the call. -/
structure Submission.RecordsComplete (submission : Submission) (order : Order) : Prop where
  /-- `trade_count`. -/
  trades : submission.ctx.trades.length = submission.result.tradesGenerated.toNat
  /-- `report_count`. -/
  reports : submission.ctx.reports.length =
    1 + 2 * submission.result.tradesGenerated.toNat +
      if submission.result.status = .expired then 1 else 0
  acknowledged : ∃ ack, submission.ctx.reports.head? = some ack ∧
    ack.execType = .new ∧ ack.orderId = order.orderId
  matched : ∀ index < submission.result.tradesGenerated.toNat, ∃ call trade taker maker,
    submission.calls[index]? = some call ∧
      submission.ctx.trades[index]? = some trade ∧
      submission.ctx.reports[2 * index + 1]? = some taker ∧
      submission.ctx.reports[2 * index + 2]? = some maker ∧
      call.record.RecordedBy order trade taker maker
  expired : submission.result.status = .expired →
    ∃ last, submission.ctx.reports.getLast? = some last ∧
      last.execType = .cancel ∧ last.orderId = order.orderId

/-- The place of a match among the reports of all matches. -/
theorem executions_at (order : Order) {calls : List MatchCall} {index : Nat} {call : MatchCall}
    (made : calls[index]? = some call) :
    (calls.flatMap fun call =>
        [takerReport order call.record, makerReport call.record])[2 * index]? =
          some (takerReport order call.record) ∧
      (calls.flatMap fun call =>
        [takerReport order call.record, makerReport call.record])[2 * index + 1]? =
          some (makerReport call.record) := by
  induction calls generalizing index with
  | nil => cases made
  | cons first rest ih =>
    cases index with
    | zero =>
      cases made
      exact ⟨rfl, rfl⟩
    | succ index => exact ih made

section

variable {engine : MatchingEngine} {order : Order} {clock : ClockReadings}
  {view view' : BookView} {submission : Submission}

/-- A submission expires exactly if it is a market order that is not filled. -/
theorem submitOrder_expired_iff {ctx : ExecutionContext} (sane : Sane engine.book view)
    (submitted : engine.submitOrder order ctx clock = .ok submission) :
    submission.result.status = .expired ↔ openAfter order view ≠ 0 ∧ order.type = .market := by
  rw [submitOrder_status sane submitted]
  unfold settledStatus
  by_cases zero : openAfter order view = 0
  · simp [zero]
  · rw [if_neg zero]
    cases order.type with
    | limit =>
      simp only [reduceCtorEq, and_false, iff_false]
      split <;> exact MatchingStatus.noConfusion
    | market => simp [zero]
    | stop => simp

/-- The trades of a submission that makes at most 128 matches. -/
theorem Submitted.trades_eq
    (submitted : Submitted engine order .empty clock view submission view')
    (few : submission.calls.length ≤ maxTrades) :
    submission.ctx.trades = submission.calls.map fun call => matchTrade order call.record := by
  obtain ⟨crossing, extend, settled, _⟩ := submitted.crossed
  have none' : (engine.beginSubmit order .empty clock.now).ctx.trades = [] := rfl
  have made := foldl_buildMatch_trades order submission.calls
    (engine.beginSubmit order .empty clock.now).ctx (by rw [none', List.length_nil]; omega)
  rw [← extend.ctx, none', List.nil_append] at made
  rw [settled, settledCtx]
  split
  · rw [buildExpiration, addReport_trades, made]
  · exact made

/-- A submission fills at most the array of reports. -/
theorem Submitted.reports_length_le
    (submitted : Submitted engine order .empty clock view submission view') :
    submission.ctx.reports.length ≤ maxReports := by
  obtain ⟨crossing, extend, settled, _⟩ := submitted.crossed
  have crossed : crossing.ctx.reports.length ≤ maxReports := by
    rw [extend.ctx]
    refine List.foldlRecOn submission.calls _ (motive := fun ctx : ExecutionContext =>
      ctx.reports.length ≤ maxReports) ?_ ?_
    · exact Nat.le_of_lt (show 1 < 256 by decide)
    · intro ctx fits call _
      apply addReport_length_le
      apply addReport_length_le
      rw [addTrade_reports]
      exact fits
  rw [settled, settledCtx]
  split
  · exact addReport_length_le crossed _
  · exact crossed

/-- The records of at most 127 matches are complete. -/
theorem Submitted.recordsComplete (sane : Sane engine.book view)
    (returned : engine.submitOrder order .empty clock = .ok submission)
    (submitted : Submitted engine order .empty clock view submission view')
    (few : submission.calls.length ≤ 127) : submission.RecordsComplete order := by
  have generated := submitted.tradesGenerated_toNat sane
  have trades := submitted.trades_eq (few.trans (by decide))
  have expires := submitOrder_expired_iff sane returned
  obtain ⟨ack, ended, reports, isAck, expiration, size⟩ := submitted.reports_shape few
  simp only [← expires] at size
  constructor
  · rw [generated, trades, List.length_map]
  · rw [generated, reports, List.length_append, List.length_cons, executions_length, size]
    omega
  · exact ⟨ack, by rw [reports]; rfl, isAck⟩
  · intro index inside
    rw [generated] at inside
    have made : submission.calls[index]? = some submission.calls[index] :=
      List.getElem?_eq_getElem inside
    obtain ⟨taker, maker⟩ := executions_at order made
    have late : 2 * index + 1 < (submission.calls.flatMap fun call =>
        [takerReport order call.record, makerReport call.record]).length := by
      rw [executions_length]
      omega
    refine ⟨_, _, _, _, made, ?_, ?_, ?_, Match.recordedBy order _⟩
    · rw [trades, List.getElem?_map, made]
      rfl
    · rw [reports, List.cons_append, List.getElem?_cons_succ,
        List.getElem?_append_left (by omega), taker]
    · rw [reports, List.cons_append, List.getElem?_cons_succ, List.getElem?_append_left late, maker]
  · intro isExpired
    rw [if_pos isExpired] at size
    obtain ⟨last, rfl⟩ := List.length_eq_one_iff.mp size
    obtain ⟨cancels, _, names⟩ := expiration last List.mem_cons_self
    exact ⟨last, by rw [reports, List.getLast?_concat], cancels, names⟩

end

/-- In every reachable state, an order submitted with an empty context leaves complete records
exactly if the greedy reference fills at most 127 of the orders that rest before the call. -/
theorem recordsComplete_iff {listener : Option (List BookEvent)} {inputs : List EngineInput}
    {run : EngineRun} {order : Order} {clock : ClockReadings} {submission : Submission}
    (ran : runAll step (start listener) inputs = .ok run)
    (returned : run.engine.submitOrder order .empty clock = .ok submission) :
    submission.RecordsComplete order ↔
      (sweep order order.qty
        (restingOrders (run.engine.book.levelsOf order.side.opposite))).1.length ≤ 127 := by
  have invariant := Invariant.of_run ran
  have submitted := invariant.submitted returned
  have fills := submitted.sweep_eq invariant.sane
  rw [fills, List.length_map]
  constructor
  · intro complete
    have room := submitted.reports_length_le
    have capacity : maxReports = 256 := rfl
    have count := complete.reports
    rw [submitted.tradesGenerated_toNat invariant.sane] at count
    omega
  · exact submitted.recordsComplete invariant.sane returned

/-- The given number of offers of one lot, all at one price. -/
def offers (count : Nat) : List EngineInput :=
  (List.range count).map fun index => submitInput (limitOrder (.ofNat index + 1) .sell 100 1)

/-- A market order meets two offers and leaves two lots open. -/
theorem recordsComplete_iff_expired : ∃ run submission,
    runAll step (start none) (offers 2) = .ok run ∧
      run.engine.submitOrder { limitOrder 9 .buy 100 4 with type := .market } .empty ⟨0, 0, 0⟩ =
        .ok submission ∧
      submission.ctx.reports.length = 6 ∧
      submission.RecordsComplete { limitOrder 9 .buy 100 4 with type := .market } := by
  obtain ⟨run, ran, few, returns⟩ : ∃ run,
      runAll step (start none) (offers 2) = .ok run ∧
        (sweep { limitOrder 9 .buy 100 4 with type := .market } 4
          (restingOrders (run.engine.book.levelsOf .sell))).1.length ≤ 127 ∧
        Returns (fun submission => submission.ctx.reports.length = 6)
          (run.engine.submitOrder { limitOrder 9 .buy 100 4 with type := .market } .empty
            ⟨0, 0, 0⟩) :=
    Returns.exists (by decide +kernel)
  obtain ⟨submission, returned, size⟩ := returns.exists
  exact ⟨run, submission, ran, returned, size, (recordsComplete_iff ran returned).mpr few⟩

/-- A bid meets 128 offers: all trades are recorded, the last maker's report is lost. -/
theorem not_recordsComplete_128 : ∃ run submission,
    runAll step (start none) (offers 128) = .ok run ∧
      run.engine.submitOrder (limitOrder 129 .buy 100 128) .empty ⟨0, 0, 0⟩ = .ok submission ∧
      submission.result.tradesGenerated = 128 ∧ submission.ctx.trades.length = 128 ∧
      submission.ctx.reports.length = 256 ∧
      ¬submission.RecordsComplete (limitOrder 129 .buy 100 128) := by
  obtain ⟨run, ran, returns⟩ : ∃ run,
      runAll step (start none) (offers 128) = .ok run ∧
        Returns (fun submission => submission.result.tradesGenerated = 128 ∧
            submission.ctx.trades.length = 128 ∧ submission.ctx.reports.length = 256)
          (run.engine.submitOrder (limitOrder 129 .buy 100 128) .empty ⟨0, 0, 0⟩) :=
    Returns.exists (by decide +kernel)
  obtain ⟨submission, returned, generated, trades, reports⟩ := returns.exists
  refine ⟨run, submission, ran, returned, generated, trades, reports, fun complete => ?_⟩
  have count := complete.reports
  rw [generated, reports] at count
  change 256 = 257 + _ at count
  omega

end FluxTrade
