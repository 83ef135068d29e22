import FluxTrade.Exchange.Pipeline
import FluxTrade.Matching.ClockFree

/-!
# Engines as replicated machines

Clocks are read all over the way of a command, and threads interleave freely.
Neither decides anything: at every moment the book and the risk tables of an
engine are those of an engine that processes the same commands one after the
other, alone and with all clocks stopped. Only the halts in force are an input of
their own.
-/

namespace FluxTrade

open Execution

/-! ## The time at which an order was received -/

/-- The order as received at another time. -/
def Order.receivedAt (order : Order) (exchangeTimestamp : UInt64) : Order :=
  { order with exchangeTimestamp }

namespace Crossing

variable {allow : Order → LiveOrder → Bool} (order : Order) (received timestamp : UInt64)
  (blind : ∀ node, allow (order.receivedAt received) node = allow order node)

include blind

/-- The inner loop ignores the arrival time. -/
theorem matchLevel_receivedAt (level fuel : Nat) (start : Option Nat) (crossing : Crossing) :
    matchLevel allow (order.receivedAt received) timestamp level fuel start crossing =
      matchLevel allow order timestamp level fuel start crossing := by
  induction fuel generalizing start crossing with
  | zero => cases start <;> rfl
  | succ fuel ih =>
    cases start with
    | none => rfl
    | some resting =>
      simp only [matchLevel, blind, ih]
      rfl

/-- So does the outer loop. -/
theorem cross_receivedAt (fuel : Nat) (crossing : Crossing) :
    cross allow (order.receivedAt received) timestamp fuel crossing =
      cross allow order timestamp fuel crossing := by
  induction fuel generalizing crossing with
  | zero => rfl
  | succ fuel ih =>
    simp only [cross, matchLevel_receivedAt order received timestamp blind, ih]
    rfl

end Crossing

namespace MatchingEngine

/-- Matching does not look at the time at which an order was received. -/
theorem submitOrder_receivedAt (engine : MatchingEngine) (order : Order) (received : UInt64)
    (ctx : ExecutionContext) (clock : ClockReadings) :
    engine.submitOrder (order.receivedAt received) ctx clock =
      engine.submitOrder order ctx clock := by
  simp only [submitOrder, submitOrderWith]
  rw [Crossing.cross_receivedAt]
  · rfl
  · exact fun _ => rfl

end MatchingEngine

/-! ## Commands without clocks -/

/-- The statistics without latencies. -/
def RiskStatistics.untimed (stats : RiskStatistics) : RiskStatistics :=
  { stats with totalLatencyNs := 0, maxLatencyNs := 0 }

/-- The risk engine without its latencies. -/
def RiskEngine.untimed (engine : RiskEngine) : RiskEngine :=
  { engine with stats := engine.stats.untimed }

/-- The manager without clock readings, and without its journal queue, which another thread
empties. -/
def EngineManager.untimed (manager : EngineManager) : EngineManager :=
  { manager with
    matchingEngine := manager.matchingEngine.untimed
    riskEngine := manager.riskEngine.untimed
    journalQueue := [] }

/-- All clocks stand at zero. -/
def CommandEnv.quiet (halts : Halts) : CommandEnv := ⟨halts, ⟨0, 0, 0, 0⟩, 0, .stopped, 0, 0⟩

namespace RiskEngine

/-- Latencies are forgotten. -/
theorem recordLatency_untimed (stats : RiskStatistics) (ns : UInt64) :
    (stats.recordLatency ns).untimed = stats.untimed := by
  unfold RiskStatistics.recordLatency RiskStatistics.untimed
  split <;> rfl

/-- Rejects are kept. -/
theorem countReject_untimed (stats : RiskStatistics) (reason : RejectReason) (trace : RiskTrace) :
    (stats.countReject reason trace).untimed = stats.untimed.countReject reason trace := by
  cases reason with
  | riskLimitExceeded =>
    simp only [RiskStatistics.countReject]
    split
    · rfl
    · repeat' split
      all_goals rfl
  | _ => rfl

/-- Validations decide without clocks. -/
theorem validate_untimed {engine other : RiskEngine} (same : engine.untimed = other.untimed)
    (halts : Halts) (clock clock' : RiskClock) (ctx : RiskContext) (trace : RiskTrace) :
    (engine.validate halts clock ctx trace).engine.untimed =
        (other.validate halts clock' ctx trace).engine.untimed ∧
      (engine.validate halts clock ctx trace).result.map (fun _ => ()) =
        (other.validate halts clock' ctx trace).result.map fun _ => () := by
  obtain ⟨round, limits, stats, context⟩ := engine
  obtain ⟨round', limits', stats', context'⟩ := other
  simp only [untimed, mk.injEq] at same
  obtain ⟨rfl, rfl, counts, rfl⟩ := same
  unfold validate
  dsimp only
  split
  · refine ⟨?_, rfl⟩
    simp only [untimed, recordLatency_untimed]
    exact congrArg (fun stats : RiskStatistics => RiskEngine.mk _ _
      { stats with acceptedCount := stats.acceptedCount + 1 } _) counts
  · refine ⟨?_, rfl⟩
    simp only [untimed, recordLatency_untimed, countReject_untimed, counts]

/-- A report is absorbed alike. -/
theorem absorb_untimed (engine : RiskEngine) (side : Side) (report : ExecutionReport) :
    (engine.absorb side report).untimed = engine.untimed.absorb side report.untimed := by
  have kind : report.untimed.execType = report.execType := rfl
  unfold absorb
  rw [kind]
  cases report.execType <;> rfl

/-- So are all reports. -/
theorem foldl_absorb_untimed (engine : RiskEngine) (side : Side) (reports : List ExecutionReport) :
    (reports.foldl (fun risk report => risk.absorb side report) engine).untimed =
      (reports.map ExecutionReport.untimed).foldl (fun risk report => risk.absorb side report)
        engine.untimed := by
  induction reports generalizing engine with
  | nil => rfl
  | cons report rest ih =>
    rw [List.foldl_cons, ih, absorb_untimed]
    rfl

end RiskEngine

namespace EngineManager

variable {manager other : EngineManager}

/-- The manager after the matching engine has run and its reports are absorbed. -/
def reported (manager : EngineManager) (side : Side) (engine : MatchingEngine)
    (ctx : ExecutionContext) : EngineManager :=
  (manager.dispatchReports engine 0 side ctx.reports []).manager

/-- A result is reported alike. -/
theorem reported_untimed (manager : EngineManager) (side : Side) (engine : MatchingEngine)
    (ctx : ExecutionContext) : (manager.reported side engine ctx).untimed =
      manager.untimed.reported side engine.untimed ctx.untimed := by
  simp only [reported, dispatchReports, untimed, RiskEngine.foldl_absorb_untimed]
  rfl

/-- Managers that differ in clock readings only execute an accepted command alike. -/
theorem execute_untimed (same : manager.untimed = other.untimed) (env env' : CommandEnv)
    (command : OrderCommand) :
    (manager.execute env command).map (fun done => done.manager.untimed) =
      (other.execute env' command).map fun done => done.manager.untimed := by
  have engines : manager.matchingEngine.untimed = other.matchingEngine.untimed :=
    congrArg EngineManager.matchingEngine same
  unfold execute
  cases command.type with
  | newOrder =>
    have submitted : (manager.matchingEngine.submitOrder (command.toOrder env.exchangeTime)
        .empty env.engineClock).map Submission.untimed =
        (other.matchingEngine.submitOrder (command.toOrder env'.exchangeTime)
          .empty env'.engineClock).map Submission.untimed := by
      have moved : command.toOrder env.exchangeTime =
          (command.toOrder env'.exchangeTime).receivedAt env.exchangeTime := rfl
      rw [moved, MatchingEngine.submitOrder_receivedAt, MatchingEngine.submitOrder_untimed,
        engines, ← MatchingEngine.submitOrder_untimed]
    exact map_alike (fun seen : MatchingResult × MatchingEngine × ExecutionContext =>
        other.untimed.reported command.side seen.2.1 seen.2.2) submitted
      (fun done => same ▸ manager.reported_untimed _ done.engine done.ctx)
      (fun done => other.reported_untimed _ done.engine done.ctx)
  | cancelOrder =>
    have cancelled := manager.matchingEngine.cancelOrder_untimed .empty env.engineClock
      command.origClientOrderId 1 command.accountId command.symbolId
    rw [engines, ← other.matchingEngine.cancelOrder_untimed .empty env'.engineClock] at cancelled
    exact map_alike (fun seen : Bool × MatchingEngine × ExecutionContext =>
        other.untimed.reported .buy seen.2.1 seen.2.2) cancelled
      (fun done => same ▸ manager.reported_untimed _ done.2.1 done.2.2)
      (fun done => other.reported_untimed _ done.2.1 done.2.2)
  | replaceOrder => exact congrArg Except.ok same

/-- Managers that differ in clock readings only process a command alike. -/
theorem processCommand_untimed (same : manager.untimed = other.untimed) {env env' : CommandEnv}
    (halts : env.halts = env'.halts) (command : OrderCommand) :
    (manager.processCommand env command).map (fun done => done.manager.untimed) =
      (other.processCommand env' command).map fun done => done.manager.untimed := by
  have validated := RiskEngine.validate_untimed (congrArg EngineManager.riskEngine same)
    env.halts env.riskClock env'.riskClock command.riskContext ⟨[]⟩
  nth_rewrite 2 4 [halts] at validated
  obtain ⟨tables, decided⟩ : (manager.validate env command).engine.untimed =
      (other.validate env' command).engine.untimed ∧ (manager.validate env command).result.map
        (fun _ => ()) = (other.validate env' command).result.map fun _ => () := validated
  have kept : EngineManager.untimed { manager with
      riskEngine := (manager.validate env command).engine } = EngineManager.untimed { other with
        riskEngine := (other.validate env' command).engine } := by
    simp only [untimed, mk.injEq] at same ⊢
    exact ⟨same.1, same.2.1, tables, trivial⟩
  unfold processCommand
  dsimp only
  cases here : (manager.validate env command).result with
  | error reason =>
    cases there : (other.validate env' command).result with
    | error reason' => exact congrArg Except.ok kept
    | ok value =>
      rw [here, there] at decided
      cases decided
  | ok value =>
    cases there : (other.validate env' command).result with
    | error reason' =>
      rw [here, there] at decided
      cases decided
    | ok value' => exact execute_untimed (by exact kept) env env' command

end EngineManager

namespace ManagerRun

/-- A manager processes commands alone, with all clocks stopped. -/
def alone (round : ℚ → ℚ) (symbolId : SymbolId) (halts : OrderCommand → Halts)
    (commands : List OrderCommand) : Except Fault ManagerRun :=
  runAll step (start symbolId round)
    (commands.map fun command => ⟨command, .quiet (halts command)⟩)

/-- A run's step is the manager's. -/
theorem step_untimed (run : ManagerRun) (input : ManagerInput) :
    (run.step input).map (fun next => next.manager.untimed) =
      (run.manager.processCommand input.env input.command).map
        fun done => done.manager.untimed := by
  unfold step
  cases run.manager.processCommand input.env input.command <;> rfl

/-- A manager that stands where one alone does still does after the next command. -/
theorem alone_snoc {round : ℚ → ℚ} {symbolId : SymbolId} {halts : OrderCommand → Halts}
    {commands : List OrderCommand} {run next : ManagerRun} {command : OrderCommand}
    {env : CommandEnv} (inForce : (CommandEnv.quiet (halts command)).halts = env.halts)
    (same : Returns (fun only => only.manager.untimed = run.manager.untimed)
      (alone round symbolId halts commands)) (taken : run.step ⟨command, env⟩ = .ok next) :
    Returns (fun only => only.manager.untimed = next.manager.untimed)
      (alone round symbolId halts (commands ++ [command])) := by
  obtain ⟨only, ran, alike⟩ := same.exists
  have steps : (only.step ⟨command, .quiet (halts command)⟩).map
      (fun next => next.manager.untimed) = .ok next.manager.untimed := by
    rw [step_untimed, EngineManager.processCommand_untimed alike inForce command]
    exact (run.step_untimed ⟨command, env⟩).symm.trans (by rw [taken]; rfl)
  unfold alone at ran ⊢
  rw [List.map_append, runAll_append, ran]
  simp only [List.map_cons, List.map_nil, runAll]
  cases moved : only.step ⟨command, .quiet (halts command)⟩ with
  | error fault =>
    rw [moved] at steps
    cases steps
  | ok after =>
    rw [moved] at steps
    exact Except.ok.inj steps

end ManagerRun

namespace Pipeline

variable {registered : RegisteredSymbols} {pipeline : Pipeline}

/-- A command is processed under the halts given for it. -/
def HaltedAs (registered : RegisteredSymbols) (halts : OrderCommand → Halts)
    (pipeline : Pipeline) : PipelineStep → Prop
  | .process engine env =>
    ∀ command ∈ pipeline.hand registered engine, halts command = env.halts
  | _ => True

/-- Every engine stands where an engine alone does that has processed the same commands. -/
def StandsAlone (registered : RegisteredSymbols) (round : ℚ → ℚ) (halts : OrderCommand → Halts)
    (pipeline : Pipeline) : Prop :=
  pipeline.Each fun engine state => ∀ symbolId, registered.ids[engine]? = some symbolId →
    Returns (fun only => only.manager.untimed = state.run.manager.untimed)
      (ManagerRun.alone round symbolId halts state.run.processed)

/-- In every interleaving and with any clock readings, the book and the risk tables of every engine
are those of an engine that processes the same commands one after the other on its own. -/
theorem engines_stand_alone {round : ℚ → ℚ} {maxFileSize : Nat} {halts : OrderCommand → Halts}
    {actions : List PipelineStep} (halted : Along (HaltedAs registered halts) (step registered)
      (start registered round maxFileSize) actions) :
    Throughout (StandsAlone registered round halts) (step registered)
      (start registered round maxFileSize) actions := by
  refine Throughout.of_guarded ?_ ?_ (fun _ stands => stands) halted
  · refine .start fun engine own found symbolId listed => ?_
    cases found.symm.trans listed
    rfl
  · intro pipeline action next stands inForce taken
    cases moves taken with
    | stays => exact stands
    | inbound input => exact stands
    | processes found held stepped =>
      refine stands.set fun symbolId listed => ?_
      simp only [JournaledRun.step] at stepped
      split at stepped
      · rename_i run ran
        cases stepped
        rw [ManagerRun.step_processed ran]
        exact ManagerRun.alone_snoc (inForce _ held) (stands _ _ found symbolId listed) ran
      · cases stepped
    | writes found stepped =>
      refine stands.set fun symbolId listed => ?_
      obtain ⟨queue, run, _⟩ := JournaledRun.step_write stepped
      rw [run]
      exact stands _ _ found symbolId listed

/-- The bids of both symbols, processed at different times. -/
theorem engines_stand_alone_bids :
    Throughout (StandsAlone twoSymbols id fun _ => .none) (step twoSymbols)
      (start twoSymbols id 1000) twoBids := by
  have unhalted : ∀ action ∈ twoBids, ∀ engine env, action = .process engine env →
      Halts.none = env.halts := by
    rintro _ member engine env rfl
    rcases List.mem_append.mp member with front | back
    · obtain ⟨input, _, wrong⟩ := List.mem_map.mp front
      cases wrong
    · simp only [List.mem_cons, PipelineStep.process.injEq, reduceCtorEq, List.not_mem_nil,
        or_false] at back
      rcases back with ⟨_, rfl⟩ | ⟨_, rfl⟩ <;> rfl
  refine engines_stand_alone (Along.mono ?_ (Along.of_mem _ unhalted))
  intro pipeline action plain
  cases action with
  | process engine env => exact fun _ _ => plain engine env rfl
  | inbound | write => trivial

end Pipeline

end FluxTrade
