import FluxTrade.Exchange.Replies

/-!
# Whom reports go to

Every report of a command is sent to the connection of the command and carries
one side: that of a new order, or buy for a cancellation. For reports about the
command's own order that is right. The maker's report of a match goes to the
taker's connection with the taker's side, and the report of a cancellation is
right only for a bid that is cancelled over the connection it came from.
-/

namespace FluxTrade

open Execution List

/-- The command is the `NewOrder` of the identifier. -/
def OrderCommand.Submits (command : OrderCommand) (orderId : UInt64) : Prop :=
  command.type = .newOrder ∧ command.clientOrderId = orderId
  deriving Decidable

/-- A side as execution reports show it. -/
def Side.wire : Side → UInt8
  | buy => 0
  | sell => 1

/-- The wire tells the sides apart. -/
theorem Side.wire_inj {left right : Side} (same : left.wire = right.wire) : left = right := by
  cases left <;> cases right <;> first | rfl | cases same

/-- An execution report goes to the connection that submitted its order and shows the order's
side. -/
def OutboundReport.Routed (history : List OrderCommand) (report : OutboundReport) : Prop :=
  match report.packet with
  | .execution packet => ∃ owner ∈ history, owner.Submits packet.orderId ∧
      report.connId = owner.connId ∧ packet.side = owner.side.wire
  | .reject _ => True

instance (history : List OrderCommand) (report : OutboundReport) :
    Decidable (report.Routed history) := by
  obtain ⟨_, _ | _⟩ := report <;> dsimp only [OutboundReport.Routed] <;> infer_instance

/-- When a packet goes to the owner. -/
theorem ExecutionReport.routed_outbound_iff (history : List OrderCommand)
    (report : ExecutionReport) (connId : ConnId) (side : Side) :
    (report.outbound connId side).Routed history ↔ ∃ owner ∈ history,
      owner.Submits report.orderId ∧ connId = owner.connId ∧ side = owner.side := by
  constructor
  · rintro ⟨owner, listed, submits, conn, shown⟩
    refine ⟨owner, listed, submits, conn, ?_⟩
    cases side <;> exact Side.wire_inj shown
  · rintro ⟨owner, listed, submits, conn, same⟩
    refine ⟨owner, listed, submits, conn, ?_⟩
    rw [← same]
    cases side <;> rfl

namespace ManagerRun

variable {run next : ManagerRun} {input : ManagerInput}

/-- No earlier `NewOrder` had the identifier of this one. -/
def NewIdentifier (run : ManagerRun) (input : ManagerInput) : Prop :=
  input.command.type = .newOrder →
    ∀ earlier ∈ run.processed, ¬earlier.Submits input.command.clientOrderId
  deriving Decidable

/-- The command returns, and each of its execution reports reaches the owner of its order. -/
def ReachesOwners (run : ManagerRun) (input : ManagerInput) : Prop :=
  Returns (fun outcome => ∀ report ∈ outcome.outbound,
      report.Routed (run.processed ++ [input.command]))
    (run.manager.processCommand input.env input.command)

/-- The command reports on nobody else's order and on no ask but a new one: an accepted new order
makes no match, and an accepted cancellation that finds an order finds a bid of its own
connection. -/
def ReportsOwn (run : ManagerRun) (input : ManagerInput) : Prop :=
  run.Accepts input →
    (input.command.type = .newOrder → ¬input.order.Meets run.book) ∧
    (input.command.type = .cancelOrder →
      (run.book.findOrder input.command.origClientOrderId).isSome →
        ∃ owner ∈ run.processed, owner.Submits input.command.origClientOrderId ∧
          owner.connId = input.command.connId ∧ owner.side = .buy)
  deriving Decidable

/-- Every order in the engine comes from the one processed command with its identifier. -/
structure Traced (run : ManagerRun) : Prop where
  invariant : run.Invariant
  source : ∀ order ∈ run.submitted, ∃ command ∈ run.processed,
    command.Submits order.orderId ∧ command.side = order.side
  unique : ∀ orderId, ∀ first ∈ run.processed, ∀ second ∈ run.processed,
    first.Submits orderId → second.Submits orderId → first = second

namespace Traced

/-- Nothing is to be traced yet. -/
theorem start (symbolId : SymbolId) (round : ℚ → ℚ) :
    (ManagerRun.start symbolId round).Traced where
  invariant := .start symbolId round
  source _ member := nomatch member
  unique _ _ member := nomatch member

section

variable (traced : run.Traced) (new : run.NewIdentifier input)
include traced new

/-- Identifiers stay unique when a new one is added. -/
theorem unique_snoc (orderId : UInt64) :
    ∀ first ∈ run.processed ++ [input.command], ∀ second ∈ run.processed ++ [input.command],
      first.Submits orderId → second.Submits orderId → first = second := by
  have clash {earlier : OrderCommand} (member : earlier ∈ run.processed)
      (submits : earlier.Submits orderId) (own : input.command.Submits orderId) : False :=
    new own.1 earlier member (own.2.symm ▸ submits)
  intro first inFirst second inSecond submits submits'
  rcases mem_append.mp inFirst with old | isNew
  · rcases mem_append.mp inSecond with old' | isNew'
    · exact traced.unique orderId first old second old' submits submits'
    · rw [mem_singleton.mp isNew'] at submits'
      exact (clash old submits submits').elim
  · rw [mem_singleton.mp isNew] at submits ⊢
    rcases mem_append.mp inSecond with old' | isNew'
    · exact (clash old' submits' submits).elim
    · exact (mem_singleton.mp isNew').symm

/-- A command is traced. -/
theorem step (taken : run.step input = .ok next) : next.Traced := by
  have invariant := traced.invariant.step taken
  have later : ∀ order ∈ run.submitted, ∃ command ∈ run.processed ++ [input.command],
      command.Submits order.orderId ∧ command.side = order.side := by
    intro order member
    obtain ⟨command, listed, source⟩ := traced.source order member
    exact ⟨command, mem_append_left _ listed, source⟩
  cases outcome taken with
  | rejected _ => exact ⟨invariant, later, traced.unique_snoc new⟩
  | cancelled _ _ _ => exact ⟨invariant, later, traced.unique_snoc new⟩
  | replaced _ _ => exact ⟨invariant, later, traced.unique_snoc new⟩
  | entered _ isNew _ =>
    refine ⟨invariant, ?_, traced.unique_snoc new⟩
    intro order member
    rcases mem_append.mp member with old | own
    · exact later order old
    · rw [mem_singleton.mp own]
      exact ⟨input.command, mem_append_right _ mem_cons_self, ⟨isNew, rfl⟩, rfl⟩

/-- The maker's report of a match shows the wrong side to its owner. -/
theorem not_routed_maker {submission : Submission}
    (owned : (run.entered input submission).engineRun.Owned) {call : MatchCall}
    (made : call ∈ submission.calls) :
    ¬((TradeBuilder.makerReport call.record).outbound input.command.connId
      input.command.side).Routed (run.processed ++ [input.command]) := by
  rw [ExecutionReport.routed_outbound_iff]
  rintro ⟨owner, listed, submits, _, side⟩
  have matched : (input.order, call) ∈ (run.entered input submission).matched :=
    mem_append_right _ (mem_map.mpr ⟨call, made, rfl⟩)
  obtain ⟨maker, among, opposite, key⟩ := owned.makers _ matched
  have isId : call.record.resting.key.orderId = maker.orderId := congrArg OrderKey.orderId key
  -- The taker is on the other side, so the maker was submitted before.
  have earlier : maker ∈ run.submitted := by
    rcases mem_append.mp among with old | own
    · exact old
    · rw [mem_singleton.mp own] at opposite
      exact absurd opposite.symm input.order.side.opposite_ne
  obtain ⟨source, before, sourceSubmits, sourceSide⟩ := traced.source maker earlier
  have named : owner.Submits maker.orderId := isId ▸ submits
  have same := traced.unique_snoc new maker.orderId owner listed source
    (mem_append_left _ before) named sourceSubmits
  have sides : input.command.side = source.side := same ▸ side
  exact input.order.side.opposite_ne ((opposite.symm.trans sourceSide.symm).trans sides.symm)

/-- The reports of a new order reach their owners exactly if it makes no match. -/
theorem routed_submission_iff (isNew : input.command.type = .newOrder) {submission : Submission}
    (submits : run.manager.matchingEngine.submitOrder input.order .empty input.env.engineClock =
      .ok submission)
    (outcome : Submitted run.manager.matchingEngine input.order .empty input.env.engineClock
      run.book.levelsOf submission submission.engine.book.levelsOf)
    (owned : (run.entered input submission).engineRun.Owned) :
    (∀ report ∈ submission.ctx.reports, (report.outbound input.command.connId
        input.command.side).Routed (run.processed ++ [input.command])) ↔
      ¬input.order.Meets run.book := by
  constructor
  · intro reaches meets
    obtain ⟨call, rest, calls⟩ := exists_cons_of_ne_nil
      (outcome.calls_ne_nil traced.invariant.engine.sane meets)
    exact traced.not_routed_maker new owned (calls ▸ mem_cons_self)
      (reaches _ (outcome.firstMaker_reported calls))
  · intro apart report made
    obtain ⟨quiet, _⟩ := submitOrder_idle apart submits
    have isId : report.orderId = input.command.clientOrderId := by
      rcases outcome.report_cases made with own | ⟨call, listed, _⟩
      · exact own
      · rw [quiet] at listed
        cases listed
    exact (ExecutionReport.routed_outbound_iff ..).mpr ⟨input.command,
      mem_append_right _ mem_cons_self, ⟨isNew, isId.symm⟩, rfl, rfl⟩

end

/-- The report of a cancellation reaches the owner exactly if the order found is a bid of the
connection that cancels. -/
theorem routed_cancellation_iff (traced : run.Traced)
    (isCancel : input.command.type = .cancelOrder) :
    (∀ report ∈ run.cancelReports input, (report.outbound input.command.connId .buy).Routed
        (run.processed ++ [input.command])) ↔
      ((run.book.findOrder input.command.origClientOrderId).isSome →
        ∃ owner ∈ run.processed, owner.Submits input.command.origClientOrderId ∧
          owner.connId = input.command.connId ∧ owner.side = .buy) := by
  cases found : run.book.findOrder input.command.origClientOrderId with
  | none =>
    rw [cancelReports_of_unknown found]
    exact iff_of_true (fun _ member => absurd member not_mem_nil)
      fun isSome => absurd isSome Bool.false_ne_true
  | some slot =>
    obtain ⟨report, reports, _, isId⟩ := traced.invariant.cancelReports_eq found
    rw [reports]
    constructor
    · intro reaches _
      obtain ⟨owner, listed, submits, conn, side⟩ :=
        (ExecutionReport.routed_outbound_iff ..).mp (reaches _ mem_cons_self)
      rcases mem_append.mp listed with old | own
      · exact ⟨owner, old, isId ▸ submits, conn.symm, side.symm⟩
      · rw [mem_singleton.mp own] at submits
        cases isCancel.symm.trans submits.1
    · intro own sent member
      obtain ⟨owner, old, submits, conn, side⟩ := own rfl
      rw [mem_singleton.mp member]
      exact (ExecutionReport.routed_outbound_iff ..).mpr ⟨owner, mem_append_left _ old,
        isId.symm ▸ submits, conn.symm, side.symm⟩

/-- A command reaches the owners of the orders it reports on exactly if it reports on its own. -/
theorem reachesOwners_iff (traced : run.Traced) (new : run.NewIdentifier input)
    (taken : run.step input = .ok next) : run.ReachesOwners input ↔ run.ReportsOwn input := by
  have owned := (traced.invariant.step taken).owned
  unfold ReachesOwners ReportsOwn
  have moved := outcome taken
  generalize processed : run.manager.processCommand input.env input.command = result
  have reply := processed ▸ traced.invariant.reply input
  cases reply with
  | rejected refused =>
    refine iff_of_true ?_ fun accepted => absurd accepted (not_accepts_of_error refused)
    intro report member
    rw [mem_singleton.mp member]
    trivial
  | exhausted accepted isNew _ =>
    rw [ManagerRun.step, processed] at taken
    cases taken
  | @entered submission accepted isNew _ submits outcome =>
    have owned : (run.entered input submission).engineRun.Owned := by
      cases moved with
      | rejected refused => exact absurd accepted (not_accepts_of_error refused)
      | entered _ _ submits' =>
        cases submits.symm.trans submits'
        exact owned
      | cancelled _ isCancel _ => cases isNew.symm.trans isCancel
      | replaced _ isReplace => cases isNew.symm.trans isReplace
    have notCancel : input.command.type ≠ .cancelOrder := by simp [isNew]
    have routed := traced.routed_submission_iff new isNew submits outcome owned
    rw [← forall_mem_map] at routed
    refine routed.trans ⟨fun apart _ => ⟨fun _ => apart, fun isCancel => absurd isCancel notCancel⟩,
      fun own => (own accepted).1 isNew⟩
  | @cancelled engine accepted isCancel views =>
    have notNew : input.command.type ≠ .newOrder := by simp [isCancel]
    have routed := traced.routed_cancellation_iff isCancel
    rw [← forall_mem_map] at routed
    exact routed.trans ⟨fun own _ => ⟨fun isNew => absurd isNew notNew, fun _ => own⟩,
      fun own => (own accepted).2 isCancel⟩
  | replaced accepted isReplace =>
    refine iff_of_true (fun _ sent => absurd sent not_mem_nil) fun _ =>
      ⟨fun isNew => ?_, fun isCancel => ?_⟩
    · cases isReplace.symm.trans isNew
    · cases isReplace.symm.trans isCancel

end Traced

/-- In a run with distinct identifiers, every execution report reaches the owner of its order
exactly if every command reports on its own orders only. -/
theorem reachesOwners_iff_reportsOwn {symbolId : SymbolId} {round : ℚ → ℚ}
    {inputs : List ManagerInput} {final : ManagerRun}
    (distinct : Along NewIdentifier step (start symbolId round) inputs)
    (ran : runAll step (start symbolId round) inputs = .ok final) :
    Along ReachesOwners step (start symbolId round) inputs ↔
      Along ReportsOwn step (start symbolId round) inputs :=
  Along.iff_of_invariant (Traced.start symbolId round)
    (fun _ _ _ traced new taken => traced.step new taken)
    (fun _ _ _ traced new taken => traced.reachesOwners_iff new taken) distinct ran

/-- A bid is acknowledged and cancelled over the same connection. -/
theorem reachesOwners_iff_reportsOwn_bid :
    Along ReachesOwners step (start 1 id)
      [commandInput (limitCommand 1 1 .buy 10000000000 1000000),
        commandInput (cancelCommand 2 1 1)] := by
  have ran : Returns (fun _ => True) (runAll step (start 1 id)
      [commandInput (limitCommand 1 1 .buy 10000000000 1000000),
        commandInput (cancelCommand 2 1 1)]) := by
    decide +kernel
  obtain ⟨final, ran, _⟩ := ran.exists
  exact (reachesOwners_iff_reportsOwn (by decide +kernel) ran).mpr (by decide +kernel)

/-- Connection 1 sells to connection 2: the execution report of order 1 is sent to connection 2
and shows a buy. -/
theorem makerReport_misrouted :
    Along NewIdentifier step (start 1 id)
        [commandInput (limitCommand 1 1 .sell 10000000000 1000000),
          commandInput { limitCommand 2 2 .buy 10000000000 1000000 with connId := 2 }] ∧
      Returns (fun run => Returns (fun outcome => ∃ report ∈ outcome.outbound,
              report.clientOrderId = 1 ∧ report.connId = 2 ∧
                ¬report.Routed (run.processed ++
                  [{ limitCommand 2 2 .buy 10000000000 1000000 with connId := 2 }]))
            (run.manager.processCommand (commandInput default).env
              { limitCommand 2 2 .buy 10000000000 1000000 with connId := 2 }))
        (runAll step (start 1 id) [commandInput (limitCommand 1 1 .sell 10000000000 1000000)]) := by
  decide +kernel

end ManagerRun

end FluxTrade
