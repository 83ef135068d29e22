import FluxTrade.Exchange.ReservedCapital
import FluxTrade.Matching.Pools

/-!
# Replies to commands

What `process_command` pushes to the outbound queue. A rejected command is
answered by a reject, a new order by its acknowledgement unless its remainder
finds no room, and a cancellation by a report if it finds its order. An accepted
cancellation that finds nothing and an accepted `ReplaceOrder` are not answered.
-/

namespace FluxTrade

open Execution

namespace ManagerRun

variable (run : ManagerRun) (input : ManagerInput)

/-- The reports of a cancellation. -/
def cancelReports : List ExecutionReport :=
  (cancelledCtx run.manager.matchingEngine input.command.origClientOrderId 1
    input.command.accountId input.command.symbolId .empty input.env.engineClock.now).reports

/-- The order of the command, if it comes to rest, finds room beside what its matches leave in the
book. -/
def HasPlace : Prop :=
  run.engineRun.FindsRoom ⟨.submit input.order, .empty, input.env.engineClock⟩

/-- The ways in which `process_command` ends, with what it pushed. -/
inductive Reply : Except Fault Processed → Prop where
  | rejected {reason : RejectReason} (refused : (run.validation input).result = .error reason) :
      Reply (.ok ⟨{ run.manager with riskEngine := (run.validation input).engine },
        [input.command.rejectReport reason input.env.rejectTime], []⟩)
  | entered {submission : Submission} (accepted : run.Accepts input)
      (isNew : input.command.type = .newOrder) (room : run.HasPlace input)
      (submits : run.manager.matchingEngine.submitOrder input.order .empty input.env.engineClock =
        .ok submission)
      (outcome : Submitted run.manager.matchingEngine input.order .empty input.env.engineClock
        run.book.levelsOf submission submission.engine.book.levelsOf) :
      Reply (.ok ((run.admitted input).dispatchReports submission.engine input.command.connId
        input.command.side submission.ctx.reports submission.calls))
  | exhausted (accepted : run.Accepts input) (isNew : input.command.type = .newOrder)
      (full : ¬run.HasPlace input) : Reply (.error .badAlloc)
  | cancelled {engine : MatchingEngine} (accepted : run.Accepts input)
      (isCancel : input.command.type = .cancelOrder)
      (views : CancelView (run.book.findOrder input.command.origClientOrderId) run.book.levelsOf
        engine.book.levelsOf) :
      Reply (.ok ((run.admitted input).dispatchReports engine input.command.connId .buy
        (run.cancelReports input) []))
  | replaced (accepted : run.Accepts input) (isReplace : input.command.type = .replaceOrder) :
      Reply (.ok ⟨run.admitted input, [], []⟩)

variable {run input}

/-- Every command of a run ends in one of the listed ways. -/
theorem Invariant.reply (invariant : run.Invariant) (input : ManagerInput) :
    run.Reply input (run.manager.processCommand input.env input.command) := by
  cases result : (run.validation input).result with
  | error reason =>
    rw [processCommand_of_error result]
    exact .rejected result
  | ok value =>
    have accepted : run.Accepts input := by
      change (run.validation input).result.isOk = true
      rw [result]
      rfl
    rw [processCommand_of_accepts accepted]
    cases kind : input.command.type with
    | newOrder =>
      have same : (run.admitted input).matchingEngine = run.manager.matchingEngine := rfl
      simp only [EngineManager.execute, kind, same]
      change run.Reply input ((run.manager.matchingEngine.submitOrder input.order .empty
        input.env.engineClock).bind _)
      rcases invariant.engine.submits_decided input.order .empty input.env.engineClock with
        ⟨⟨submission, submits⟩, room⟩ | ⟨failed, full⟩
      · rw [show run.manager.matchingEngine.submitOrder input.order .empty input.env.engineClock =
          .ok submission from submits]
        exact .entered accepted kind room submits (invariant.engine.submitted submits)
      · rw [show run.manager.matchingEngine.submitOrder input.order .empty input.env.engineClock =
          .error .badAlloc from failed]
        exact .exhausted accepted kind full
    | cancelOrder =>
      obtain ⟨engine, view', cancels, sane, views, _⟩ := cancelOrder_spec invariant.engine.sane
        input.command.origClientOrderId 1 input.command.accountId input.command.symbolId .empty
        input.env.engineClock
      obtain rfl := sane.view_eq
      have same : (run.admitted input).matchingEngine = run.engineRun.engine := rfl
      simp only [EngineManager.execute, kind, same, cancels, bind, Except.bind]
      exact .cancelled accepted kind views
    | replaceOrder =>
      simp only [EngineManager.execute, kind]
      exact .replaced accepted kind

/-- Every run is in order. -/
theorem Invariant.of_run {symbolId : SymbolId} {round : ℚ → ℚ} {inputs : List ManagerInput}
    (ran : runAll ManagerRun.step (ManagerRun.start symbolId round) inputs = .ok run) :
    run.Invariant :=
  runAll_invariant (Invariant.start symbolId round)
    (fun _ _ _ invariant taken => invariant.step taken) ran

/-- The report of a cancellation names the order by the identifier of the command. -/
theorem Invariant.cancelReports_eq (invariant : run.Invariant) {slot : Nat}
    (found : run.book.findOrder input.command.origClientOrderId = some slot) :
    ∃ report, run.cancelReports input = [report] ∧ report.execType = .cancel ∧
      report.orderId = input.command.origClientOrderId := by
  have isId := invariant.engine.sane.rep.findOrder_orderId found
  have looked : run.manager.matchingEngine.book.findOrder input.command.origClientOrderId =
    some slot := found
  simp only [cancelReports, cancelledCtx, looked]
  exact ⟨_, rfl, rfl, isId⟩

/-- An unknown order is not reported. -/
theorem cancelReports_of_unknown
    (unknown : run.book.findOrder input.command.origClientOrderId = none) :
    run.cancelReports input = [] := by
  have looked : run.manager.matchingEngine.book.findOrder input.command.origClientOrderId = none :=
    unknown
  simp only [cancelReports, cancelledCtx, looked]
  rfl

end ManagerRun

/-! ## Answers -/

/-- The identifier that an outbound packet shows to the client. -/
def OutboundReport.clientOrderId (report : OutboundReport) : UInt64 :=
  match report.packet with
  | .execution packet => packet.clientOrderId
  | .reject packet => packet.clientOrderId

/-- The identifiers by which an answer can name a command. -/
def OrderCommand.names (command : OrderCommand) : List UInt64 :=
  match command.type with
  | .newOrder => [command.clientOrderId]
  | .cancelOrder => [command.clientOrderId, command.origClientOrderId]
  | .replaceOrder => [command.clientOrderId, command.origClientOrderId]

/-- Some report goes to the connection of the command and names it. -/
def OrderCommand.Answered (command : OrderCommand) (outbound : List OutboundReport) : Prop :=
  ∃ report ∈ outbound, report.connId = command.connId ∧ report.clientOrderId ∈ command.names
  deriving Decidable

namespace ManagerRun

/-- In every state that a run reaches, a command is answered exactly if risk rejects it, it is a new
order that finds room if it comes to rest, or it is a cancellation of an order that the lookup
has. -/
theorem answered_iff_handled {symbolId : SymbolId} {round : ℚ → ℚ} {inputs : List ManagerInput}
    {run : ManagerRun} (ran : runAll step (start symbolId round) inputs = .ok run)
    (input : ManagerInput) :
    Returns (fun outcome => input.command.Answered outcome.outbound)
        (run.manager.processCommand input.env input.command) ↔
      (run.Accepts input → input.command.type = .newOrder ∧ run.HasPlace input ∨
        input.command.type = .cancelOrder ∧
          (run.book.findOrder input.command.origClientOrderId).isSome) := by
  have invariant := Invariant.of_run ran
  have named : input.command.clientOrderId ∈ input.command.names := by
    unfold OrderCommand.names
    split <;> exact List.mem_cons_self
  generalize processed : run.manager.processCommand input.env input.command = result
  have reply := processed ▸ invariant.reply input
  cases reply with
  | rejected refused =>
    refine iff_of_true ⟨_, List.mem_cons_self, rfl, named⟩ fun accepted => ?_
    exact absurd accepted (not_accepts_of_error refused)
  | @entered submission _ isNew room _ outcome =>
    obtain ⟨ack, reported, isId⟩ := outcome.acknowledged
    refine iff_of_true ⟨ack.outbound input.command.connId input.command.side,
      List.mem_map_of_mem reported, rfl, ?_⟩ fun _ => Or.inl ⟨isNew, room⟩
    have shown : (ack.outbound input.command.connId input.command.side).clientOrderId =
      input.command.clientOrderId := isId
    rw [shown]
    exact named
  | exhausted accepted isNew full =>
    refine iff_of_false id fun handled => ?_
    simp [isNew, full] at handled
    exact handled accepted
  | cancelled accepted isCancel _ =>
    cases found : run.book.findOrder input.command.origClientOrderId with
    | none =>
      refine iff_of_false ?_ fun handled => ?_
      · rintro ⟨report, member, _⟩
        rw [EngineManager.dispatchReports, cancelReports_of_unknown found] at member
        cases member
      · simp [isCancel] at handled
        exact handled accepted
    | some slot =>
      obtain ⟨report, reports, _, isId⟩ := invariant.cancelReports_eq found
      refine iff_of_true ⟨report.outbound input.command.connId .buy, ?_, rfl, ?_⟩
        fun _ => Or.inr ⟨isCancel, rfl⟩
      · rw [EngineManager.dispatchReports, reports]
        exact List.mem_cons_self
      · have shown : (report.outbound input.command.connId .buy).clientOrderId =
          input.command.origClientOrderId := isId
        rw [shown]
        simp [OrderCommand.names, isCancel]
  | replaced accepted isReplace =>
    refine iff_of_false ?_ fun handled => ?_
    · rintro ⟨report, member, _⟩
      cases member
    · simp [isReplace] at handled
      exact handled accepted

/-- While a bid rests, its cancellation and a bid far from the reference price, which risk rejects,
are answered. -/
theorem answered_iff_handled_resting : ∃ run,
    runAll step (start 1 id) [commandInput (limitCommand 1 1 .buy 10000000000 1000000)] =
        .ok run ∧
      Returns (fun outcome => (cancelCommand 2 1 1).Answered outcome.outbound)
        (run.manager.processCommand (commandInput default).env (cancelCommand 2 1 1)) ∧
      ¬run.Accepts (commandInput (limitCommand 3 1 .buy 1 1000000)) ∧
      Returns (fun outcome => (limitCommand 3 1 .buy 1 1000000).Answered outcome.outbound)
        (run.manager.processCommand (commandInput default).env
          (limitCommand 3 1 .buy 1 1000000)) := by
  obtain ⟨run, ran, found, refused⟩ : ∃ run,
      runAll step (start 1 id) [commandInput (limitCommand 1 1 .buy 10000000000 1000000)] =
          .ok run ∧
        (run.book.findOrder 1).isSome ∧
        ¬run.Accepts (commandInput (limitCommand 3 1 .buy 1 1000000)) :=
    Returns.exists (by decide +kernel)
  refine ⟨run, ran, ?_, refused, ?_⟩
  · exact (answered_iff_handled ran (commandInput (cancelCommand 2 1 1))).mpr fun _ =>
      .inr ⟨rfl, found⟩
  · exact (answered_iff_handled ran (commandInput (limitCommand 3 1 .buy 1 1000000))).mpr
      fun accepted => absurd accepted refused

/-- A `ReplaceOrder` of a resting order and a cancellation of an unknown one are accepted, and
nothing is pushed for either. -/
theorem replace_not_answered :
    Returns (fun run => Returns (fun outcome => outcome.outbound = [])
          (run.manager.processCommand (commandInput default).env
            { limitCommand 2 1 .buy 10000000000 2000000 with
              type := .replaceOrder, origClientOrderId := 1 }) ∧
        Returns (fun outcome => outcome.outbound = [])
          (run.manager.processCommand (commandInput default).env (cancelCommand 3 1 7)))
      (runAll step (start 1 id) [commandInput (limitCommand 1 1 .buy 10000000000 1000000)]) := by
  decide +kernel

end ManagerRun

end FluxTrade
