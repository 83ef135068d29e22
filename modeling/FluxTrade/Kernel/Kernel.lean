import FluxTrade.Kernel.DependencyResolver

/-!
# The kernel

`Kernel` initializes, configures and starts its modules in the order that the
resolver returns, each phase only up to the first module that fails, and stops
them in the reverse order, asking each module whether it is running. How the
calls of a module end is an input. The calls are traced: whatever fails, starts
follow the dependencies and stops undo exactly the starts that succeeded.
-/

namespace FluxTrade

open Trace.Justified DependencyResolver List

/-- `ModuleState`. -/
inductive ModuleState where
  | created
  | initializing
  | configured
  | starting
  | running
  | paused
  | stopping
  | stopped
  | shutdown
  | failed
  deriving DecidableEq, Inhabited

/-- `HealthStatus`. -/
inductive HealthStatus where
  | healthy
  | degraded
  | unhealthy
  deriving DecidableEq, Inhabited

/-- How a lifecycle call ends: its result, and what `state()` reports from then on. -/
structure CallOutcome where
  result : Except String Unit
  state : ModuleState

/-- `IModule`: how each lifecycle call ends. `state()` reports `Running` exactly from a successful
`start` to `stop`. -/
structure IModule extends Module where
  name : String
  init : CallOutcome
  configure : CallOutcome
  start : CallOutcome
  stop : CallOutcome
  shutdown : CallOutcome
  init_idle : init.state ≠ .running
  configure_idle : configure.state ≠ .running
  start_running : start.state = .running ↔ start.result.isOk = true
  stop_idle : stop.state ≠ .running
  shutdown_idle : shutdown.state ≠ .running

/-- `modules_`: one module for each identifier. -/
structure ModuleTable where
  entries : List (ModuleId × IModule)
  distinct : (entries.map Prod.fst).Nodup

namespace ModuleTable

/-- No module is registered. -/
def empty : ModuleTable := ⟨[], nodup_nil⟩

/-- The registered identifiers. -/
def ids (table : ModuleTable) : List ModuleId := table.entries.map Prod.fst

/-- `modules_[id]`; a null pointer for an identifier without a module. -/
def find (table : ModuleTable) (id : ModuleId) : Option IModule := table.entries.lookup id

/-- The copy of the table that the resolver is given. -/
def pointers (table : ModuleTable) : ModuleMap where
  entries := table.entries.map fun entry => (entry.1, some entry.2.toModule)
  distinct := by
    rw [map_map]
    exact table.distinct

/-- `register_module`. -/
def register (table : ModuleTable) (id : ModuleId) (module : IModule) :
    Except String ModuleTable :=
  if known : id ∈ table.ids then
    .error ("Module with ID " ++ toString id.toNat ++ " already registered")
  else
    .ok ⟨(id, module) :: table.entries, nodup_cons.mpr ⟨known, table.distinct⟩⟩

/-- The pointers have the same ids. -/
theorem pointers_ids (table : ModuleTable) : table.pointers.ids = table.ids := by
  rw [ModuleMap.ids, pointers, map_map]
  rfl

/-- Listed modules are found. -/
theorem exists_find {table : ModuleTable} {id : ModuleId} (member : id ∈ table.ids) :
    ∃ module, table.find id = some module := by
  obtain ⟨entry, listed, rfl⟩ := mem_map.mp member
  cases found : table.find entry.1 with
  | some module => exact ⟨module, rfl⟩
  | none =>
    have apart := lookup_eq_none_iff.mp found entry listed
    simp at apart

end ModuleTable

/-- The lifecycle calls that the kernel makes. -/
inductive LifecycleCall where
  | init
  | configure
  | start
  | stop
  | shutdown
  deriving DecidableEq, Inhabited

/-- A lifecycle call that was made, and whether it succeeded. -/
structure CallRecord where
  id : ModuleId
  call : LifecycleCall
  ok : Bool
  deriving DecidableEq, Inhabited

/-- `Kernel` with the calls it has made. -/
structure Kernel where
  modules : ModuleTable
  startupOrder : List ModuleId
  /-- What `state()` of each module reports. -/
  states : ModuleId → ModuleState
  /-- The statuses in `health_monitor_`. -/
  health : ModuleId → Option (ModuleState × HealthStatus)
  /-- Calls made, the first one first. -/
  trace : List CallRecord

/-- The phases of a start-up, which differ in the call they make and in what they report. -/
inductive Phase where
  | init
  | configure
  | start
  deriving DecidableEq

namespace Phase

/-- The call that a phase makes. -/
def call : Phase → LifecycleCall
  | init => .init
  | configure => .configure
  | start => .start

/-- What a module answers in a phase. -/
def outcome (module : IModule) : Phase → CallOutcome
  | init => module.init
  | configure => module.configure
  | start => module.start

/-- The state reported before the call. -/
def entering : Phase → Option ModuleState
  | init => some .initializing
  | configure => none
  | start => some .starting

/-- The state reported after a call that succeeded. -/
def done : Phase → ModuleState
  | init => .configured
  | configure => .configured
  | start => .running

/-- The word for a phase in error messages. -/
def verb : Phase → String
  | init => "initialize"
  | configure => "configure"
  | start => "start"

end Phase

namespace Kernel

/-- A kernel with registered modules, none of which has been called. -/
def new (modules : ModuleTable) : Kernel :=
  ⟨modules, [], fun _ => .created, fun _ => none, []⟩

/-- `HealthMonitor::update_status`. -/
def updateStatus (kernel : Kernel) (id : ModuleId) (state : ModuleState) (health : HealthStatus) :
    Kernel :=
  { kernel with health := Function.update kernel.health id (some (state, health)) }

/-- A call that ends as given. -/
def record (kernel : Kernel) (id : ModuleId) (call : LifecycleCall) (outcome : CallOutcome) :
    Kernel :=
  { kernel with
    states := Function.update kernel.states id outcome.state
    trace := kernel.trace ++ [⟨id, call, outcome.result.isOk⟩] }

/-- The status that a phase reports before its call. -/
def enter (kernel : Kernel) (phase : Phase) (id : ModuleId) : Kernel :=
  match phase.entering with
  | some state => kernel.updateStatus id state .healthy
  | none => kernel

/-- The loop of `initialize`, `configure` and `start`: the first module that fails ends it. -/
def runPhase (phase : Phase) :
    List ModuleId → Kernel → Except Fault (Except String Unit × Kernel)
  | [], kernel => .ok (.ok (), kernel)
  | id :: rest, kernel =>
    match kernel.modules.find id with
    | none => .error .assertion
    | some module =>
      let outcome := phase.outcome module
      let kernel := (kernel.enter phase id).record id phase.call outcome
      match outcome.result with
      | .error message =>
        .ok (.error ("Module '" ++ module.name ++ "' failed to " ++ phase.verb ++ ": " ++ message),
          kernel.updateStatus id .failed .unhealthy)
      | .ok () => runPhase phase rest (kernel.updateStatus id phase.done .healthy)

/-- `Kernel::initialize`; `degreeOrder` is the order in which the resolver visits its in-degrees. -/
def init (kernel : Kernel) (degreeOrder : List ModuleId) :
    Except Fault (Except String Unit × Kernel) :=
  match resolve kernel.modules.pointers degreeOrder with
  | .error fault => .error fault
  | .ok (.error message) => .ok (.error ("Dependency resolution failed: " ++ message), kernel)
  | .ok (.ok order) => runPhase .init order { kernel with startupOrder := order }

/-- `Kernel::configure`. -/
def configure (kernel : Kernel) : Except Fault (Except String Unit × Kernel) :=
  runPhase .configure kernel.startupOrder kernel

/-- `Kernel::start`. -/
def start (kernel : Kernel) : Except Fault (Except String Unit × Kernel) :=
  runPhase .start kernel.startupOrder kernel

/-- The loop of `stop`: only modules that report to be running are stopped. -/
def stopAll : List ModuleId → Kernel → Except Fault Kernel
  | [], kernel => .ok kernel
  | id :: rest, kernel =>
    match kernel.modules.find id with
    | none => .error .assertion
    | some module =>
      if kernel.states id = .running then
        stopAll rest (((kernel.updateStatus id .stopping .healthy).record id .stop
          module.stop).updateStatus id .stopped .healthy)
      else stopAll rest kernel

/-- `Kernel::stop`. -/
def stop (kernel : Kernel) : Except Fault Kernel := stopAll kernel.startupOrder.reverse kernel

/-- The loop of `shutdown`. -/
def shutdownAll : List ModuleId → Kernel → Except Fault Kernel
  | [], kernel => .ok kernel
  | id :: rest, kernel =>
    match kernel.modules.find id with
    | none => .error .assertion
    | some module =>
      shutdownAll rest
        ((kernel.record id .shutdown module.shutdown).updateStatus id .shutdown .healthy)

/-- `Kernel::shutdown`. -/
def shutdown (kernel : Kernel) : Except Fault Kernel :=
  shutdownAll kernel.startupOrder.reverse kernel

/-- The next phase, if the phases so far have succeeded. -/
def andThen (so : Except String Unit × Kernel)
    (next : Kernel → Except Fault (Except String Unit × Kernel)) :
    Except Fault (Except String Unit × Kernel) :=
  match so.1 with
  | .ok () => next so.2
  | .error _ => .ok so

/-- The three phases, each run only if the one before it has succeeded. -/
def startUp (kernel : Kernel) (degreeOrder : List ModuleId) :
    Except Fault (Except String Unit × Kernel) := do
  let initialized ← kernel.init degreeOrder
  let configured ← andThen initialized configure
  andThen configured start

/-- A start-up, successful or not, and a stop. -/
def lifecycle (kernel : Kernel) (degreeOrder : List ModuleId) :
    Except Fault (Except String Unit × Kernel) := do
  let started ← kernel.startUp degreeOrder
  let stopped ← started.2.stop
  .ok (started.1, stopped)

end Kernel

/-! ## What the loops do -/

namespace Kernel

variable {kernel : Kernel} {phase : Phase} {id : ModuleId} {order started : List ModuleId}

/-- Exactly the listed modules report to be running. -/
def RunningExactly (kernel : Kernel) (ids : List ModuleId) : Prop :=
  ∀ id, kernel.states id = .running ↔ id ∈ ids

/-- A call that may start a module. -/
theorem RunningExactly.record {call : LifecycleCall} {outcome : CallOutcome}
    (running : kernel.RunningExactly started) (fresh : id ∉ started) :
    (kernel.record id call outcome).RunningExactly
      (started ++ if outcome.state = .running then [id] else []) := by
  intro other
  change Function.update kernel.states id outcome.state other = .running ↔ _
  rw [Function.update_apply, mem_append]
  by_cases same : other = id
  · rw [if_pos same, same]
    by_cases runs : outcome.state = .running
    · simp [runs]
    · simp [runs, fresh]
  · rw [if_neg same, running other]
    by_cases runs : outcome.state = .running
    · simp [runs, same]
    · simp [runs]

/-- Entering keeps the modules. -/
@[simp] theorem enter_modules : (kernel.enter phase id).modules = kernel.modules := by
  cases phase <;> rfl

/-- It keeps the order. -/
@[simp] theorem enter_startupOrder :
    (kernel.enter phase id).startupOrder = kernel.startupOrder := by
  cases phase <;> rfl

/-- It keeps the states. -/
@[simp] theorem enter_states : (kernel.enter phase id).states = kernel.states := by
  cases phase <;> rfl

/-- It keeps the trace. -/
@[simp] theorem enter_trace : (kernel.enter phase id).trace = kernel.trace := by
  cases phase <;> rfl

/-- A call of a phase leaves a module running exactly if it is a `start` that succeeded. -/
theorem Phase.outcome_running (phase : Phase) (module : IModule) :
    (phase.outcome module).state = .running ↔
      phase = .start ∧ (phase.outcome module).result.isOk = true := by
  cases phase with
  | init => simp [Phase.outcome, module.init_idle]
  | configure => simp [Phase.outcome, module.configure_idle]
  | start => simp [Phase.outcome, module.start_running]

/-- What a phase does: it calls a front of the order, and only its last call may fail. -/
structure PhaseRun (phase : Phase) (order : List ModuleId) (before : Kernel)
    (result : Except String Unit) (after : Kernel) (done : List ModuleId)
    (failed : Option ModuleId) : Prop where
  front : ∃ rest, order = done ++ failed.toList ++ rest
  complete : result = .ok () → done = order ∧ failed = none
  modules : after.modules = before.modules
  startupOrder : after.startupOrder = before.startupOrder
  trace : after.trace = before.trace ++ done.map (fun id => ⟨id, phase.call, true⟩) ++
    failed.toList.map fun id => ⟨id, phase.call, false⟩
  running : ∀ started, before.RunningExactly started → (started ++ order).Nodup →
    after.RunningExactly (started ++ if phase = .start then done else [])

/-- A call of a phase adds its module to the running ones exactly if it is a `start` that
succeeded. -/
theorem RunningExactly.call (running : kernel.RunningExactly started) (fresh : id ∉ started)
    (phase : Phase) (module : IModule) :
    ((kernel.enter phase id).record id phase.call (phase.outcome module)).RunningExactly
      (started ++
        if phase = .start ∧ (phase.outcome module).result.isOk = true then [id] else []) := by
  have entered : (kernel.enter phase id).RunningExactly started := by
    intro other
    rw [enter_states]
    exact running other
  simp only [← Phase.outcome_running]
  exact entered.record fresh

/-- A first call that fails ends the phase. -/
theorem PhaseRun.failing {module : IModule} {message : String} (text : String)
    (result : (phase.outcome module).result = .error message) (rest : List ModuleId) :
    PhaseRun phase (id :: rest) kernel (.error text)
      (((kernel.enter phase id).record id phase.call (phase.outcome module)).updateStatus id
        .failed .unhealthy) [] (some id) where
  front := ⟨rest, rfl⟩
  complete := fun ok => nomatch ok
  modules := enter_modules
  startupOrder := enter_startupOrder
  trace := by
    change (kernel.enter phase id).trace ++ [⟨id, phase.call, _⟩] = _
    rw [enter_trace, result]
    simp [Except.isOk, Except.toBool]
  running := by
    intro started running distinct
    have fresh : id ∉ started := fun early =>
      (nodup_append.mp distinct).2.2 id early id mem_cons_self rfl
    have after := running.call fresh phase module
    rw [result, if_neg fun succeeded => nomatch succeeded.2] at after
    rw [ite_self]
    exact after

/-- A first call that succeeds goes before the rest of the phase. -/
theorem PhaseRun.cons {module : IModule} {result : Except String Unit} {after : Kernel}
    {rest done : List ModuleId} {failed : Option ModuleId}
    (succeeded : (phase.outcome module).result = .ok ())
    (spec : PhaseRun phase rest (((kernel.enter phase id).record id phase.call
      (phase.outcome module)).updateStatus id phase.done .healthy) result after done failed) :
    PhaseRun phase (id :: rest) kernel result after (id :: done) failed where
  front := by
    obtain ⟨behind, split⟩ := spec.front
    exact ⟨behind, congrArg (id :: ·) split⟩
  complete := by
    intro ok
    obtain ⟨all, none⟩ := spec.complete ok
    exact ⟨congrArg (id :: ·) all, none⟩
  modules := spec.modules.trans enter_modules
  startupOrder := spec.startupOrder.trans enter_startupOrder
  trace := by
    rw [spec.trace]
    change (kernel.enter phase id).trace ++ [⟨id, phase.call, _⟩] ++ _ ++ _ = _
    rw [enter_trace, succeeded]
    simp [Except.isOk, Except.toBool]
  running := by
    intro started running distinct
    have fresh : id ∉ started := fun early =>
      (nodup_append.mp distinct).2.2 id early id mem_cons_self rfl
    have after := spec.running _ (running.call fresh phase module)
    have isOk : (phase.outcome module).result.isOk = true := by
      rw [succeeded]
      rfl
    by_cases starts : phase = .start
    · rw [if_pos ⟨starts, isOk⟩, if_pos starts, append_assoc, append_assoc] at after
      rw [if_pos starts]
      exact after distinct
    · rw [if_neg fun both => starts both.1, if_neg starts, append_nil,
        append_nil] at after
      rw [if_neg starts, append_nil]
      exact after (distinct.sublist
        (Sublist.append_left (sublist_cons_self id rest) started))

/-- A phase runs up to a failure. -/
theorem runPhase_spec (known : ∀ id ∈ order, id ∈ kernel.modules.ids) :
    ∃ result after done failed, runPhase phase order kernel = .ok (result, after) ∧
      PhaseRun phase order kernel result after done failed := by
  induction order generalizing kernel with
  | nil =>
    refine ⟨_, kernel, [], none, rfl, ⟨[], rfl⟩, fun _ => ⟨rfl, rfl⟩, rfl, rfl, by simp, ?_⟩
    intro started running _
    simpa using running
  | cons id rest ih =>
    obtain ⟨module, found⟩ := ModuleTable.exists_find (known id mem_cons_self)
    simp only [runPhase, found]
    cases result : (phase.outcome module).result with
    | error message => exact ⟨_, _, [], some id, rfl, .failing _ result rest⟩
    | ok _ =>
      have next := @ih (((kernel.enter phase id).record id phase.call
        (phase.outcome module)).updateStatus id phase.done .healthy) (by
          intro other member
          change other ∈ (kernel.enter phase id).modules.ids
          rw [enter_modules]
          exact known other (mem_cons_of_mem _ member))
      obtain ⟨result', after, done, failed, ran, spec⟩ := next
      exact ⟨result', after, id :: done, failed, ran, spec.cons result⟩

/-- The result of a module's `stop`. -/
def stops (modules : ModuleTable) (id : ModuleId) : Bool :=
  match modules.find id with
  | some module => module.stop.result.isOk
  | none => false

/-- `stop` makes one call for each module of the order that is running. -/
theorem stopAll_spec (known : ∀ id ∈ order, id ∈ kernel.modules.ids) (distinct : order.Nodup)
    (running : ∀ id ∈ order, kernel.states id = .running ↔ id ∈ started) :
    ∃ after, stopAll order kernel = .ok after ∧
      after.trace = kernel.trace ++ (order.filter fun id => id ∈ started).map
        fun id => ⟨id, .stop, stops kernel.modules id⟩ := by
  induction order generalizing kernel with
  | nil => exact ⟨kernel, rfl, by simp⟩
  | cons id rest ih =>
    obtain ⟨module, found⟩ := ModuleTable.exists_find (known id mem_cons_self)
    obtain ⟨fresh, distinctRest⟩ := nodup_cons.mp distinct
    have knownRest : ∀ other ∈ rest, other ∈ kernel.modules.ids :=
      fun other member => known other (mem_cons_of_mem _ member)
    have runningRest : ∀ other ∈ rest, kernel.states other = .running ↔ other ∈ started :=
      fun other member => running other (mem_cons_of_mem _ member)
    simp only [stopAll, found]
    by_cases runs : kernel.states id = .running
    · have inside : id ∈ started := (running id mem_cons_self).mp runs
      rw [if_pos runs]
      obtain ⟨after, ran, trace⟩ := @ih (((kernel.updateStatus id .stopping .healthy).record id
        .stop module.stop).updateStatus id .stopped .healthy) knownRest distinctRest (by
          intro other member
          have apart : other ≠ id := fun same => fresh (same ▸ member)
          change Function.update kernel.states id _ other = .running ↔ _
          rw [Function.update_of_ne apart]
          exact runningRest other member)
      refine ⟨after, ran, ?_⟩
      have answer : stops kernel.modules id = module.stop.result.isOk := by
        simp only [stops, found]
      rw [trace, filter_cons_of_pos (by simpa using inside), map_cons, answer]
      change kernel.trace ++ [⟨id, .stop, module.stop.result.isOk⟩] ++ _ = _
      rw [append_assoc]
      rfl
    · have outside : id ∉ started := fun inside => runs ((running id mem_cons_self).mpr inside)
      rw [if_neg runs, filter_cons_of_neg (by simpa using outside)]
      exact ih knownRest distinctRest runningRest

end Kernel

/-! ## Nesting -/

/-- Starts follow the dependencies, and stops undo exactly the starts that succeeded, users of a
module first. -/
structure Nested (deps : ModuleId → List ModuleId) (trace : List CallRecord) : Prop where
  startsAfter : Trace.Justified (fun early made => made.call = .start →
    ∀ dep ∈ deps made.id, ⟨dep, .start, true⟩ ∈ early) trace
  stopsOnce : ∀ id, (trace.countP fun made => made.id = id ∧ made.call = .stop) =
    if ⟨id, .start, true⟩ ∈ trace then 1 else 0
  stopsBefore : Trace.Justified (fun early made => made.call = .stop →
    ∀ user, made.id ∈ deps user → ⟨user, .start, true⟩ ∈ trace →
      ∃ ok, ⟨user, .stop, ok⟩ ∈ early) trace

section

variable {deps : ModuleId → List ModuleId} {done rest : List ModuleId} {failed : Option ModuleId}
  {before : List CallRecord} {stopOk : ModuleId → Bool}

/-- The trace of a start-up that got as far as `done`. -/
def startTrace (before : List CallRecord) (done : List ModuleId) (failed : Option ModuleId) :
    List CallRecord :=
  before ++ done.map (fun id => ⟨id, .start, true⟩) ++
    failed.toList.map fun id => ⟨id, .start, false⟩

/-- The calls of the stop after it. -/
def stopTrace (stopOk : ModuleId → Bool) (done : List ModuleId) : List CallRecord :=
  done.reverse.map fun id => ⟨id, .stop, stopOk id⟩

/-- Before the starts nothing is started or stopped. -/
def Quiet (before : List CallRecord) : Prop :=
  ∀ made ∈ before, made.call ≠ .start ∧ made.call ≠ .stop

/-- The modules that started. -/
theorem mem_startTrace (quiet : Quiet before) (id : ModuleId) :
    ⟨id, .start, true⟩ ∈ startTrace before done failed ↔ id ∈ done := by
  have absent : (⟨id, .start, true⟩ : CallRecord) ∉ before := fun member => (quiet _ member).1 rfl
  simp [startTrace, absent]

/-- Starting stops nothing. -/
theorem not_stop_of_mem_startTrace (quiet : Quiet before) {made : CallRecord}
    (member : made ∈ startTrace before done failed) : made.call ≠ .stop := by
  simp only [startTrace, mem_append, mem_map] at member
  rcases member with (early | ⟨_, _, rfl⟩) | ⟨_, _, rfl⟩
  · exact (quiet made early).2
  · exact LifecycleCall.noConfusion
  · exact LifecycleCall.noConfusion

/-- Dependencies first in the order, dependencies first in the trace. -/
theorem startTrace_startsAfter
    (first : Kahn.DependenciesFirst deps (done ++ failed.toList ++ rest)) (quiet : Quiet before) :
    Trace.Justified (fun early made => made.call = .start →
      ∀ dep ∈ deps made.id, ⟨dep, .start, true⟩ ∈ early) (startTrace before done failed) := by
  apply append_map
  · apply append_map
    · exact of_forall fun made member early starts =>
        absurd starts (quiet made member).1
    · rintro front id back rfl _ dep needs
      have earlier := first front id (back ++ failed.toList ++ rest) (by simp) dep needs
      exact mem_append_right _ (mem_map_of_mem earlier)
  · intro front id back split _ dep needs
    have earlier := first (done ++ front) id (back ++ rest) (by simp [split]) dep needs
    cases failed with
    | none => simp at split
    | some last =>
      obtain rfl : front = [] := by
        cases front with
        | nil => rfl
        | cons _ _ => simp at split
      rw [append_nil] at earlier
      simp [earlier]

/-- Modules are stopped in the reverse of the order in which they started. -/
theorem stopTrace_stopsBefore
    (first : Kahn.DependenciesFirst deps (done ++ failed.toList ++ rest))
    (distinct : done.Nodup) (quiet : Quiet before) :
    Trace.Justified (fun early made => made.call = .stop → ∀ user, made.id ∈ deps user →
      user ∈ done → ∃ ok, ⟨user, .stop, ok⟩ ∈ early)
      (startTrace before done failed ++ stopTrace stopOk done) := by
  apply append_map
  · exact of_forall fun made member early stops =>
      absurd stops (not_stop_of_mem_startTrace quiet member)
  · intro front id back split _ user needs inDone
    have order : done = back.reverse ++ id :: front.reverse := by
      rw [← reverse_reverse done, split]
      simp
    refine ⟨stopOk user, mem_append_right _ (mem_map_of_mem ?_)⟩
    -- The module comes before its user in the order, so after it in the reverse order.
    have place := (first.index_lt (by simp [inDone]) needs).2
    rw [order] at place inDone distinct
    have fresh : id ∉ back.reverse := fun again =>
      (nodup_append.mp distinct).2.2 id again id mem_cons_self rfl
    rw [append_assoc, append_assoc, idxOf_append_of_notMem fresh, cons_append,
      idxOf_cons_self, Nat.add_zero] at place
    rcases mem_append.mp inDone with sooner | later
    · rw [idxOf_append_of_mem sooner] at place
      have inside := idxOf_lt_length_of_mem sooner
      omega
    · rcases mem_cons.mp later with rfl | later
      · rw [idxOf_append_of_notMem fresh, idxOf_cons_self] at place
        omega
      · exact mem_reverse.mp later

/-- Exactly the modules that started are stopped. -/
theorem stopTrace_stopsOnce (distinct : done.Nodup) (quiet : Quiet before) (id : ModuleId) :
    ((startTrace before done failed ++ stopTrace stopOk done).countP
      fun made => made.id = id ∧ made.call = .stop) = if id ∈ done then 1 else 0 := by
  have none : (startTrace before done failed).countP
      (fun made => made.id = id ∧ made.call = .stop) = 0 := by
    rw [countP_eq_zero]
    intro made member
    simp [not_stop_of_mem_startTrace quiet member]
  have stops : (stopTrace stopOk done).countP (fun made => made.id = id ∧ made.call = .stop) =
      done.count id := by
    rw [stopTrace, countP_map, countP_reverse, count]
    congr 1
    funext other
    rw [Bool.eq_iff_iff]
    simp [Function.comp]
  rw [countP_append, none, stops, Nat.zero_add]
  exact distinct.count

/-- Starts and stops nest. -/
theorem nested_of_parts (first : Kahn.DependenciesFirst deps (done ++ failed.toList ++ rest))
    (distinct : done.Nodup) (quiet : Quiet before) :
    Nested deps (startTrace before done failed ++ stopTrace stopOk done) := by
  have started (id : ModuleId) :
      ⟨id, .start, true⟩ ∈ startTrace before done failed ++ stopTrace stopOk done ↔
        id ∈ done := by
    rw [mem_append, mem_startTrace quiet]
    simp [stopTrace]
  constructor
  · apply append_map (startTrace_startsAfter first quiet)
    intro front id back split starts
    cases starts
  · intro id
    simp only [started]
    exact stopTrace_stopsOnce distinct quiet id
  · simp only [started]
    exact stopTrace_stopsBefore first distinct quiet

end

namespace Kernel

variable {modules : ModuleTable} {degreeOrder : List ModuleId}
variable {phase : Phase} {order done : List ModuleId} {failed : Option ModuleId} {kernel : Kernel}

/-- An early phase starts nothing. -/
theorem PhaseRun.quiet {before after : Kernel} {result : Except String Unit}
    (spec : PhaseRun phase order before result after done failed) (early : phase ≠ .start)
    (quiet : Quiet before.trace) : Quiet after.trace := by
  have others : phase.call ≠ .start ∧ phase.call ≠ .stop := by
    cases phase with
    | start => exact absurd rfl early
    | _ => exact ⟨LifecycleCall.noConfusion, LifecycleCall.noConfusion⟩
  intro made member
  rw [spec.trace] at member
  simp only [mem_append, mem_map] at member
  rcases member with (old | ⟨_, _, rfl⟩) | ⟨_, _, rfl⟩
  · exact quiet made old
  · exact others
  · exact others

/-- Between two phases before the starts: nothing has started. -/
structure Idle (modules : ModuleTable) (order : List ModuleId) (kernel : Kernel) : Prop where
  sameModules : kernel.modules = modules
  sameOrder : kernel.startupOrder = order
  quiet : Quiet kernel.trace
  running : kernel.RunningExactly []

/-- An order of the registered modules, dependencies first. -/
structure Ordered (modules : ModuleTable) (order : List ModuleId) : Prop where
  perm : order.Perm modules.ids
  first : Kahn.DependenciesFirst modules.pointers.dependencies order

/-- An order lists a module once. -/
theorem Ordered.nodup (ordered : Ordered modules order) : order.Nodup :=
  ordered.perm.nodup_iff.mpr modules.distinct

/-- A phase before the starts. -/
theorem Idle.runPhase (idle : Idle modules order kernel) (ordered : Ordered modules order)
    (early : phase ≠ .start) :
    ∃ result after, Kernel.runPhase phase order kernel = .ok (result, after) ∧
      Idle modules order after := by
  have known : ∀ id ∈ order, id ∈ kernel.modules.ids := by
    rw [idle.sameModules]
    exact fun id member => ordered.perm.mem_iff.mp member
  obtain ⟨result, after, done, failed, ran, spec⟩ := @runPhase_spec kernel phase order known
  have running := spec.running [] idle.running ordered.nodup
  rw [if_neg early, append_nil] at running
  exact ⟨result, after, ran, spec.modules.trans idle.sameModules,
    spec.startupOrder.trans idle.sameOrder, spec.quiet early idle.quiet, running⟩

/-- How far a start-up got. -/
structure StartedUp (modules : ModuleTable) (kernel : Kernel) (before : List CallRecord)
    (done rest : List ModuleId) (failed : Option ModuleId) : Prop where
  sameModules : kernel.modules = modules
  sameOrder : kernel.startupOrder = done ++ failed.toList ++ rest
  ordered : Ordered modules kernel.startupOrder
  quiet : Quiet before
  trace : kernel.trace = startTrace before done failed
  running : kernel.RunningExactly done

/-- A start-up that ended before the starts. -/
theorem Idle.startedUp (idle : Idle modules order kernel) (ordered : Ordered modules order) :
    StartedUp modules kernel kernel.trace [] order none where
  sameModules := idle.sameModules
  sameOrder := idle.sameOrder
  ordered := by
    rw [idle.sameOrder]
    exact ordered
  quiet := idle.quiet
  trace := by simp [startTrace]
  running := idle.running

/-- The starts. -/
theorem Idle.start (idle : Idle modules order kernel) (ordered : Ordered modules order) :
    ∃ result after done rest failed, Kernel.start kernel = .ok (result, after) ∧
      StartedUp modules after kernel.trace done rest failed := by
  have known : ∀ id ∈ order, id ∈ kernel.modules.ids := by
    rw [idle.sameModules]
    exact fun id member => ordered.perm.mem_iff.mp member
  obtain ⟨result, after, done, failed, ran, spec⟩ := @runPhase_spec kernel .start order known
  obtain ⟨rest, front⟩ := spec.front
  have sameOrder := spec.startupOrder.trans idle.sameOrder
  refine ⟨result, after, done, rest, failed, ?_, spec.modules.trans idle.sameModules,
    sameOrder.trans front, ?_, idle.quiet, spec.trace, ?_⟩
  · rw [Kernel.start, idle.sameOrder]
    exact ran
  · rw [sameOrder]
    exact ordered
  · exact spec.running [] idle.running ordered.nodup

section

variable (visits : degreeOrder.Perm modules.ids) (registered : modules.pointers.Registered)
  (acyclic : modules.pointers.Acyclic)
include visits registered acyclic

/-- A resolvable graph is resolved, and the first phase runs in the resolved order. -/
theorem exists_init :
    ∃ order, Ordered modules order ∧ (new modules).init degreeOrder =
      runPhase .init order { new modules with startupOrder := order } := by
  have present : ∀ entry ∈ modules.pointers.entries, entry.2.isSome := by
    intro entry member
    obtain ⟨_, _, rfl⟩ := mem_map.mp member
    rfl
  rw [← modules.pointers_ids] at visits
  rcases resolve_cases present visits with
    ⟨order, resolved, perm, first, _⟩ | ⟨_, _, impossible⟩
  · rw [modules.pointers_ids] at perm
    refine ⟨order, ⟨perm, first⟩, ?_⟩
    have asked : resolve (new modules).modules.pointers degreeOrder =
        .ok (.ok order) := resolved
    rw [Kernel.init, asked]
  · exact absurd ⟨registered, acyclic⟩ impossible

/-- With a resolvable graph every start-up returns, having started a front of the order. -/
theorem startUp_spec :
    ∃ result kernel before done rest failed,
      (new modules).startUp degreeOrder = .ok (result, kernel) ∧
        StartedUp modules kernel before done rest failed := by
  obtain ⟨order, ordered, initializes⟩ := exists_init visits registered acyclic
  have fresh : Idle modules order { new modules with startupOrder := order } :=
    ⟨rfl, rfl, (fun _ member => by cases member), fun id => by simp [new]⟩
  obtain ⟨result, kernel, ran, idle⟩ :=
    fresh.runPhase ordered (show Phase.init ≠ .start from Phase.noConfusion)
  have begins : (new modules).startUp degreeOrder =
      (andThen (result, kernel) configure >>= fun configured =>
        andThen configured Kernel.start) := by
    rw [startUp, initializes, ran]
    rfl
  rw [begins]
  cases result with
  | error message => exact ⟨_, kernel, _, _, _, _, rfl, idle.startedUp ordered⟩
  | ok _ =>
    obtain ⟨result', kernel', ran', idle'⟩ :=
      idle.runPhase ordered (show Phase.configure ≠ .start from Phase.noConfusion)
    have configures : configure kernel = .ok (result', kernel') := by
      rw [configure, idle.sameOrder]
      exact ran'
    dsimp only [andThen]
    rw [configures]
    cases result' with
    | error message => exact ⟨_, kernel', _, _, _, _, rfl, idle'.startedUp ordered⟩
    | ok _ =>
      obtain ⟨result'', after, done, rest, failed, starts, spec⟩ := idle'.start ordered
      exact ⟨result'', after, _, done, rest, failed, starts, spec⟩

end

/-- `stop` after a start-up makes its calls in the reverse order of the starts. -/
theorem StartedUp.stop {before : List CallRecord} {rest : List ModuleId}
    (started : StartedUp modules kernel before done rest failed) :
    ∃ after, kernel.stop = .ok after ∧
      after.trace = startTrace before done failed ++ stopTrace (stops modules) done := by
  have known : ∀ id ∈ kernel.startupOrder.reverse, id ∈ kernel.modules.ids := by
    rw [started.sameModules]
    exact fun id member => started.ordered.perm.mem_iff.mp (mem_reverse.mp member)
  have distinct : kernel.startupOrder.reverse.Nodup :=
    nodup_reverse.mpr started.ordered.nodup
  obtain ⟨after, ran, trace⟩ :=
    stopAll_spec known distinct fun id _ => started.running id
  refine ⟨after, ran, ?_⟩
  have reversed : (kernel.startupOrder.reverse.filter fun id => id ∈ done) = done.reverse := by
    have whole := started.ordered.nodup
    rw [started.sameOrder] at whole ⊢
    rw [append_assoc] at whole
    have apart := (nodup_append.mp whole).2.2
    rw [filter_reverse, append_assoc, filter_append,
      filter_eq_self.mpr (by simp), filter_eq_nil_iff.mpr, append_nil]
    intro id member inside
    exact apart id (by simpa using inside) id member rfl
  rw [trace, started.trace, started.sameModules, reversed]
  rfl

/-- For every resolvable graph and every pattern of failing calls, the phases up to the first
failure and the stop after them return, and their calls are nested. -/
theorem lifecycle_nested (visits : degreeOrder.Perm modules.ids)
    (registered : modules.pointers.Registered) (acyclic : modules.pointers.Acyclic) :
    ∃ result kernel, (new modules).lifecycle degreeOrder = .ok (result, kernel) ∧
      Nested modules.pointers.dependencies kernel.trace := by
  obtain ⟨result, kernel, before, done, rest, failed, ran, started⟩ :=
    startUp_spec visits registered acyclic
  obtain ⟨after, stopped, trace⟩ := started.stop
  refine ⟨result, after, ?_, ?_⟩
  · have stops : (new modules).lifecycle degreeOrder =
        (kernel.stop >>= fun stopped => .ok (result, stopped)) := by
      rw [lifecycle, ran]
      rfl
    rw [stops, stopped]
    rfl
  · have distinct := started.ordered.nodup
    have first := started.ordered.first
    rw [started.sameOrder] at distinct first
    rw [trace]
    exact nested_of_parts first (nodup_append.mp (nodup_append.mp distinct).1).1
      started.quiet

/-- A module that is created, whose calls report what they did. -/
def plainModule (name : String) (dependencies : List ModuleId) (start : Except String Unit) :
    IModule where
  dependencies
  name
  init := ⟨.ok (), .configured⟩
  configure := ⟨.ok (), .configured⟩
  start := ⟨start, if start.isOk then .running else .failed⟩
  stop := ⟨.error "still busy", .stopped⟩
  shutdown := ⟨.ok (), .shutdown⟩
  init_idle := ModuleState.noConfusion
  configure_idle := ModuleState.noConfusion
  start_running := by cases start <;> simp
  stop_idle := ModuleState.noConfusion
  shutdown_idle := ModuleState.noConfusion

/-- Three modules in a row, of which the last fails to start, and one beside them. -/
def failingModules : ModuleTable where
  entries :=
    [(10, plainModule "Matching" [8, 4] (.error "no symbols")),
      (8, plainModule "Risk" [4] (.ok ())),
      (4, plainModule "EventBus" [] (.ok ())), (12, plainModule "Network" [10] (.ok ()))]
  distinct := by decide

/-- The third module fails. -/
theorem lifecycle_nested_failing :
    ∃ result kernel, (new failingModules).lifecycle [4, 8, 10, 12] = .ok (result, kernel) ∧
      Nested failingModules.pointers.dependencies kernel.trace := by
  have resolved : resolve failingModules.pointers [4, 8, 10, 12] =
      .ok (.ok [4, 8, 10, 12]) := by decide
  rcases @resolve_cases failingModules.pointers [4, 8, 10, 12] (by decide)
      (by decide) with ⟨_, _, _, _, registered, acyclic⟩ | ⟨_, failed, _⟩
  · exact lifecycle_nested (by decide) registered acyclic
  · rw [resolved] at failed
    cases failed

end Kernel

end FluxTrade
