import FluxTrade.Matching.PriceTime

/-!
# What a submission reports, and submissions that meet nothing

A submission with few matches reports an acknowledgement, two executions for
each match and, for a market order, the expiration of the rest. An order that
does not cross the book makes no match: a limit order is inserted as it is, and
any other order leaves the book alone.
-/

namespace FluxTrade

open Execution TradeBuilder ExecutionContext MatchingEngine Crossing List

/-! ## Reports -/

section

variable (order : Order) (calls : List MatchCall)

/-- Matches that fit into the array of reports are reported in order. -/
theorem foldl_buildMatch_reports (ctx : ExecutionContext)
    (room : ctx.reports.length + 2 * calls.length ≤ maxReports) :
    (calls.foldl (fun ctx call => buildMatch ctx order call.record) ctx).reports =
      ctx.reports ++
        calls.flatMap fun call => [takerReport order call.record, makerReport call.record] := by
  induction calls generalizing ctx with
  | nil => simp
  | cons call rest ih =>
    simp only [length_cons] at room
    have taker : (ctx.addTrade (matchTrade order call.record)).reports.length <
        maxReports := by
      rw [addTrade_reports]
      omega
    have first := addReport_reports taker (takerReport order call.record)
    have maker : ((ctx.addTrade (matchTrade order call.record)).addReport
        (takerReport order call.record)).reports.length < maxReports := by
      rw [first, addTrade_reports, length_append, length_singleton]
      omega
    have second := addReport_reports maker (makerReport call.record)
    have both : (buildMatch ctx order call.record).reports =
        ctx.reports ++ [takerReport order call.record, makerReport call.record] := by
      rw [buildMatch, second, first, addTrade_reports, append_assoc]
      rfl
    rw [foldl_cons, ih, both, flatMap_cons, append_assoc]
    rw [both, length_append]
    change _ + 2 + _ ≤ _
    omega

/-- Matches that fit into the array of trades are recorded in order. -/
theorem foldl_buildMatch_trades (ctx : ExecutionContext)
    (room : ctx.trades.length + calls.length ≤ maxTrades) :
    (calls.foldl (fun ctx call => buildMatch ctx order call.record) ctx).trades =
      ctx.trades ++ calls.map fun call => matchTrade order call.record := by
  induction calls generalizing ctx with
  | nil => simp
  | cons call rest ih =>
    rw [length_cons] at room
    have one : (buildMatch ctx order call.record).trades =
        ctx.trades ++ [matchTrade order call.record] := by
      rw [buildMatch, addReport_trades, addReport_trades,
        addTrade_trades (by omega)]
    rw [foldl_cons, ih, one, map_cons, append_assoc]
    · rfl
    · rw [one, length_append, length_singleton]
      omega

/-- Two reports are made for each match. -/
theorem executions_length :
    (calls.flatMap fun call =>
      [takerReport order call.record, makerReport call.record]).length = 2 * calls.length := by
  induction calls with
  | nil => rfl
  | cons call rest ih =>
    simp only [flatMap_cons, length_append, length_cons, length_nil, ih]
    omega

end

/-- The quantity that the matches of a submission leave open. -/
theorem Submitted.remaining_eq {engine : MatchingEngine} {order : Order} {ctx : ExecutionContext}
    {clock : ClockReadings} {view view' : BookView} {submission : Submission} {crossing : Crossing}
    (submitted : Submitted engine order ctx clock view submission view')
    (extend : Extends order (engine.beginSubmit order ctx clock.now) crossing
      submission.calls) : crossing.remaining = openAfter order view := by
  rw [extend.remaining, submitted.fills]
  rfl

/-- With at most 127 matches the executions stand between the acknowledgement and the expiration. -/
theorem Submitted.reports_shape {engine : MatchingEngine} {order : Order} {clock : ClockReadings}
    {view view' : BookView} {submission : Submission}
    (submitted : Submitted engine order .empty clock view submission view')
    (few : submission.calls.length ≤ 127) :
    ∃ ack ended, submission.ctx.reports =
        ack :: (submission.calls.flatMap fun call =>
          [takerReport order call.record, makerReport call.record]) ++ ended ∧
      (ack.execType = .new ∧ ack.orderId = order.orderId) ∧
      (∀ report ∈ ended,
        report.execType = .cancel ∧ report.lastQty = 0 ∧ report.orderId = order.orderId) ∧
      ended.length = if openAfter order view ≠ 0 ∧ order.type = .market then 1 else 0 := by
  obtain ⟨crossing, extend, settled, _⟩ := submitted.crossed
  have capacity : maxReports = 256 := rfl
  obtain ⟨ack, acknowledged, isAck⟩ : ∃ ack : ExecutionReport,
      (engine.beginSubmit order .empty clock.now).ctx.reports = [ack] ∧
        ack.execType = .new ∧ ack.orderId = order.orderId :=
    ⟨_, rfl, rfl, rfl⟩
  have executions := foldl_buildMatch_reports order submission.calls
    (engine.beginSubmit order .empty clock.now).ctx
    (by rw [acknowledged, length_singleton, capacity]; omega)
  rw [← extend.ctx, acknowledged] at executions
  rw [settled, ← submitted.remaining_eq extend]
  by_cases expires : crossing.remaining ≠ 0 ∧ order.type = .market
  · have size : crossing.ctx.reports.length < maxReports := by
      rw [executions, length_append, executions_length, length_singleton, capacity]
      omega
    rw [settledCtx, if_pos expires, if_pos expires, buildExpiration,
      addReport_reports size, executions]
    refine ⟨ack, [_], rfl, isAck, ?_, rfl⟩
    intro report member
    obtain rfl := mem_singleton.mp member
    exact ⟨rfl, rfl, rfl⟩
  · rw [settledCtx, if_neg expires, if_neg expires, executions]
    refine ⟨ack, [], (append_nil _).symm, isAck, ?_, rfl⟩
    exact fun _ member => absurd member not_mem_nil

/-- Neither the acknowledgement nor the expiration shows an executed quantity, and a limit order
does not expire. -/
theorem Submitted.reports_eq {engine : MatchingEngine} {order : Order} {clock : ClockReadings}
    {view view' : BookView} {submission : Submission}
    (submitted : Submitted engine order .empty clock view submission view')
    (few : submission.calls.length < 127) :
    ∃ ack ended, submission.ctx.reports =
        ack :: (submission.calls.flatMap fun call =>
          [takerReport order call.record, makerReport call.record]) ++ ended ∧
      ack.execType = .new ∧
      (∀ report ∈ ended, report.execType = .cancel ∧ report.lastQty = 0) ∧
      (order.type = .limit → ended = []) := by
  obtain ⟨ack, ended, reports, isAck, expiration, size⟩ := submitted.reports_shape few.le
  refine ⟨ack, ended, reports, isAck.1, ?_, ?_⟩
  · intro report member
    obtain ⟨cancels, nothing, _⟩ := expiration report member
    exact ⟨cancels, nothing⟩
  · intro isLimit
    rw [isLimit, if_neg (by simp)] at size
    exact length_eq_zero_iff.mp size

/-- A context keeps the reports it has. -/
theorem ExecutionContext.reports_addReport (ctx : ExecutionContext) (report : ExecutionReport) :
    ctx.reports <+: (ctx.addReport report).reports := by
  unfold addReport
  split
  · exact prefix_refl _
  · exact prefix_append _ _

/-- A report is old or added. -/
theorem ExecutionContext.mem_addReport {ctx : ExecutionContext} {added report : ExecutionReport}
    (member : report ∈ (ctx.addReport added).reports) : report ∈ ctx.reports ∨ report = added := by
  unfold addReport at member
  split at member
  · exact Or.inl member
  · rcases mem_append.mp member with old | new
    · exact Or.inl old
    · exact Or.inr (mem_singleton.mp new)

/-- Earlier reports stay. -/
theorem foldl_buildMatch_keeps (order : Order) (calls : List MatchCall) (ctx : ExecutionContext) :
    ctx.reports <+:
      (calls.foldl (fun ctx call => buildMatch ctx order call.record) ctx).reports := by
  induction calls generalizing ctx with
  | nil => exact prefix_refl _
  | cons call rest ih =>
    refine IsPrefix.trans ?_ (ih _)
    rw [← addTrade_reports ctx (matchTrade order call.record)]
    exact (reports_addReport _ _).trans (reports_addReport _ _)

/-- A report is old or a match's. -/
theorem mem_foldl_buildMatch {order : Order} {calls : List MatchCall} {ctx : ExecutionContext}
    {report : ExecutionReport}
    (member : report ∈
      (calls.foldl (fun ctx call => buildMatch ctx order call.record) ctx).reports) :
    report ∈ ctx.reports ∨ ∃ call ∈ calls,
      report = takerReport order call.record ∨ report = makerReport call.record := by
  induction calls generalizing ctx with
  | nil => exact Or.inl member
  | cons call rest ih =>
    rcases ih member with here | ⟨later, listed, made⟩
    · rcases mem_addReport here with before | maker
      · rcases mem_addReport before with old | taker
        · rw [addTrade_reports] at old
          exact Or.inl old
        · exact Or.inr ⟨call, mem_cons_self, Or.inl taker⟩
      · exact Or.inr ⟨call, mem_cons_self, Or.inr maker⟩
    · exact Or.inr ⟨later, mem_cons_of_mem _ listed, made⟩

section

variable {engine : MatchingEngine} {order : Order} {clock : ClockReadings}
  {view view' : BookView} {submission : Submission}

/-- The reports made while the order crosses the book are among those of the submission. -/
theorem settledCtx_keeps (order : Order) (timestamp : UInt64) (crossing : Crossing) :
    crossing.ctx.reports <+: (settledCtx order timestamp crossing).reports := by
  unfold settledCtx
  split
  · exact reports_addReport _ _
  · exact prefix_refl _

variable (submitted : Submitted engine order .empty clock view submission view')
include submitted

/-- A submission is acknowledged, however many matches it makes. -/
theorem Submitted.acknowledged :
    ∃ ack ∈ submission.ctx.reports, ack.orderId = order.orderId := by
  obtain ⟨crossing, extend, settled, _⟩ := submitted.crossed
  have kept := foldl_buildMatch_keeps order submission.calls
    (engine.beginSubmit order .empty clock.now).ctx
  rw [← extend.ctx] at kept
  rw [settled]
  exact ⟨_, (kept.trans (settledCtx_keeps order clock.now crossing)).subset mem_cons_self,
    rfl⟩

/-- A report of a submission names the submitted order, unless it is the maker's report of a
match. -/
theorem Submitted.report_cases {report : ExecutionReport}
    (member : report ∈ submission.ctx.reports) :
    report.orderId = order.orderId ∨
      ∃ call ∈ submission.calls, report = makerReport call.record := by
  obtain ⟨crossing, extend, settled, _⟩ := submitted.crossed
  have crossed (early : report ∈ crossing.ctx.reports) : report.orderId = order.orderId ∨
      ∃ call ∈ submission.calls, report = makerReport call.record := by
    rw [extend.ctx] at early
    rcases mem_foldl_buildMatch early with ack | ⟨call, listed, taker | maker⟩
    · rw [mem_singleton.mp ack]
      exact Or.inl rfl
    · exact Or.inl (taker ▸ rfl)
    · exact Or.inr ⟨call, listed, maker⟩
  rw [settled, settledCtx] at member
  split at member
  · rcases mem_addReport member with early | expiration
    · exact crossed early
    · exact Or.inl (expiration ▸ rfl)
  · exact crossed member

/-- The maker of the first match is always reported. -/
theorem Submitted.firstMaker_reported {call : MatchCall} {rest : List MatchCall}
    (calls : submission.calls = call :: rest) :
    makerReport call.record ∈ submission.ctx.reports := by
  obtain ⟨crossing, extend, settled, _⟩ := submitted.crossed
  have first := foldl_buildMatch_reports order [call]
    (engine.beginSubmit order .empty clock.now).ctx (show 1 + 2 * 1 ≤ 256 by decide)
  have kept := foldl_buildMatch_keeps order rest
    ([call].foldl (fun ctx call => buildMatch ctx order call.record)
      (engine.beginSubmit order .empty clock.now).ctx)
  rw [← foldl_append, singleton_append, ← calls, ← extend.ctx, first] at kept
  rw [settled]
  refine (kept.trans (settledCtx_keeps order clock.now crossing)).subset ?_
  simp

end

/-! ## Status -/

/-- The status that `settle` returns for what is left open. -/
def settledStatus (order : Order) (left : Quantity) : MatchingStatus :=
  if left = 0 then .filled
  else
    match order.type with
    | .limit => if left = order.qty then .success else .partiallyFilled
    | .market => .expired
    | .stop => .success

/-- The status of the remainder. -/
theorem Crossing.settle_status {crossing settled : Crossing} {order : Order}
    {timestamp : UInt64} {status : MatchingStatus}
    (settles : crossing.settle order timestamp = .ok (settled, status)) :
    status = settledStatus order crossing.remaining := by
  unfold settle at settles
  unfold settledStatus
  by_cases zero : crossing.remaining = 0
  · rw [if_pos zero] at settles ⊢
    cases settles
    rfl
  · rw [if_neg zero] at settles ⊢
    cases kind : order.type with
    | limit =>
      rw [kind] at settles
      obtain ⟨placed, _, ended⟩ := bind_eq_ok settles
      cases ended
      rfl
    | market =>
      rw [kind] at settles
      cases settles
      rfl
    | stop =>
      rw [kind] at settles
      cases settles
      rfl

/-- The status of a submission follows from what its matches leave open. -/
theorem submitOrder_status {engine : MatchingEngine} {order : Order} {ctx : ExecutionContext}
    {clock : ClockReadings} {view : BookView} {submission : Submission}
    (sane : Sane engine.book view)
    (submitted : engine.submitOrder order ctx clock = .ok submission) :
    submission.result.status = settledStatus order (openAfter order view) := by
  obtain ⟨crossing, ran, crossed, left⟩ := sane.cross order ctx clock.now
  rw [submitOrder, submitOrderWith, ran] at submitted
  obtain ⟨_, same, rest⟩ := bind_eq_ok submitted
  cases same
  obtain ⟨⟨settled, status⟩, settles, outcome⟩ := bind_eq_ok rest
  cases outcome
  rw [← left]
  exact settle_status settles

/-! ## Orders that do not cross -/

/-- The order trades at the price of the best opposite level. -/
def Order.Crosses (order : Order) (book : LimitOrderBook) : Prop :=
  ∃ level ∈ book.bestLevel order.side.opposite, order.accepts (book.level level).price
  deriving Decidable

/-- The order would find a match: it has a quantity and crosses. -/
def Order.Meets (order : Order) (book : LimitOrderBook) : Prop :=
  order.qty ≠ 0 ∧ order.Crosses book
  deriving Decidable

section

variable {engine : MatchingEngine} {order : Order} {ctx : ExecutionContext}
  {clock : ClockReadings} {submission : Submission}

/-- An order that meets nothing does not enter the loops. -/
theorem nextLevel_beginSubmit (idle : ¬order.Meets engine.book) (timestamp : UInt64) :
    (engine.beginSubmit order ctx timestamp).nextLevel order = none := by
  by_cases zero : order.qty = 0
  · simp [nextLevel, beginSubmit, zero]
  · cases best : engine.book.bestLevel order.side.opposite with
    | none => simp [nextLevel, beginSubmit, best]
    | some level =>
      have refused : ¬order.accepts (engine.book.level level).price :=
        fun accepted => idle ⟨zero, level, best, accepted⟩
      simp [nextLevel, beginSubmit, best, refused]

/-- An order that meets nothing makes no match. A limit order with a quantity is inserted, any
other leaves the book alone. -/
theorem submitOrder_idle (idle : ¬order.Meets engine.book)
    (submitted : engine.submitOrder order ctx clock = .ok submission) :
    submission.calls = [] ∧
      (order.type = .limit → order.qty ≠ 0 →
        ∃ slot, engine.book.insert order order.seqNum = .ok (slot, submission.engine.book)) ∧
      (order.type ≠ .limit ∨ order.qty = 0 → submission.engine.book = engine.book) := by
  have ended : cross canSelfTrade order clock.now levelCapacity
      (engine.beginSubmit order ctx clock.now) = .ok (engine.beginSubmit order ctx clock.now) :=
    cross_exhausted (nextLevel_beginSubmit idle clock.now)
  simp only [submitOrder, submitOrderWith, ended, bind, Except.bind,
    settle] at submitted
  by_cases zero : order.qty = 0
  · simp only [beginSubmit, zero, if_true] at submitted
    cases submitted
    exact ⟨rfl, fun _ some' => absurd zero some', fun _ => rfl⟩
  · simp only [beginSubmit, zero, if_false] at submitted
    cases kind : order.type with
    | limit =>
      simp only [kind] at submitted
      cases inserted : engine.book.insert order order.seqNum with
      | error fault =>
        rw [inserted] at submitted
        cases submitted
      | ok placed =>
        rw [inserted] at submitted
        cases submitted
        refine ⟨rfl, fun _ _ => ⟨placed.1, rfl⟩, ?_⟩
        rintro (other | none')
        · exact absurd rfl other
        · exact absurd none' zero
    | market =>
      simp only [kind] at submitted
      cases submitted
      exact ⟨rfl, fun isLimit => absurd isLimit (by decide), fun _ => rfl⟩
    | stop =>
      simp only [kind] at submitted
      cases submitted
      exact ⟨rfl, fun isLimit => absurd isLimit (by decide), fun _ => rfl⟩

/-- An inserted order rests beside the others and is found under its identifier. -/
theorem Sane.insert_perm {book book' : LimitOrderBook} {prioritySeq : UInt64} {slot : Nat}
    (sane : Sane book book.levelsOf)
    (inserted : book.insert order prioritySeq = .ok (slot, book')) :
    (restingBoth book'.levelsOf).Perm
        ((order.live prioritySeq).view slot :: restingBoth book.levelsOf) ∧
      book'.findOrder order.orderId = some slot := by
  rcases sane.rep.insert order prioritySeq with ⟨_, node, _, same, rep, lookup⟩ | ⟨failed, _⟩
  · rw [inserted] at same
    cases same
    have sorted := (sane.rep.sides order.side).sorted
    have levels : book'.levelsOf = _ := funext rep.levelsOf_eq
    refine ⟨?_, ?_⟩
    · rw [levels]
      exact (restingBoth_update _ _ _).trans (((placeOrder_perm sorted).append_right _).trans
        ((restingBoth_perm book.levelsOf order.side).symm.cons _))
    · rw [LimitOrderBook.findOrder, lookup, Finmap.lookup_insert]
  · rw [inserted] at failed
    cases failed

/-- An order that meets something makes a match. -/
theorem Submitted.calls_ne_nil {view view' : BookView} (sane : Sane engine.book view)
    (submitted : Submitted engine order ctx clock view submission view')
    (active : order.Meets engine.book) : submission.calls ≠ [] := by
  obtain ⟨some', slot, best, accepted⟩ := active
  have head := (sane.rep.sides order.side.opposite).bestLevel_eq
  cases shape : view order.side.opposite with
  | nil =>
    rw [shape] at head
    have nothing : engine.book.bestLevel order.side.opposite = none := head
    rw [nothing] at best
    cases best
  | cons level rest =>
    rw [shape] at head
    have isBest : engine.book.bestLevel order.side.opposite = some level.slot := head
    rw [isBest] at best
    cases best
    have split : view order.side.opposite = [] ++ level :: rest := shape
    have price := (sane.rep.node split).priced
    rw [price] at accepted
    have fills := submitted.fills
    have queued := sane.proper _ level (shape ▸ mem_cons_self)
    obtain ⟨maker, behind, queue⟩ := exists_cons_of_ne_nil queued
    rw [shape, sweepLevels, if_neg (by simp [some', accepted]), queue] at fills
    simp only [fillEach, some', if_false] at fills
    intro nothing
    rw [nothing] at fills
    cases fills

end

end FluxTrade
