import FluxTrade.Persistence.Durability
import FluxTrade.Persistence.Recovery

/-!
# Stopping an engine

Three threads meet when an engine stops: the engine loop, which appends an
accepted command to the journal queue and then executes it, the journal loop,
which writes queued entries and leaves once it is told to and finds the queue
empty, and the caller of `stop`, which joins the journal before it joins the
engine. Nobody looks at the result of an append. Executed commands are all in the
files when `stop` returns, provided every append finds room in the queue and is
made before the journal loop leaves.
-/

namespace FluxTrade

open Execution

/-- Where the loop of `EngineManager::run` stands. -/
inductive EngineStage where
  /-- Before `running_` is loaded. -/
  | checking
  | polling
  | validating (command : OrderCommand)
  | appending (input : ManagerInput)
  | executing (input : ManagerInput)
  | exited

/-- Where the loop of `DiskJournal::run` stands. -/
inductive JournalStage where
  /-- Before its `running_` is loaded. -/
  | checking
  /-- It was told to stop and has yet to see whether the queue is empty. -/
  | draining
  | polling
  | writing (entry : LogEntry)
  | exited
  deriving DecidableEq

/-- Where the call of `EngineManager::stop` stands. -/
inductive StopStage where
  | notCalled
  | engineTold
  | journalTold
  | journalJoined
  | returned
  deriving DecidableEq

/-- An engine manager with its threads, and the commands its matching engine has executed. -/
structure ShutdownRun where
  inbound : List OrderCommand
  manager : EngineManager
  disk : DiskJournal
  running : Bool
  journalRunning : Bool
  engine : EngineStage
  journal : JournalStage
  stop : StopStage
  executed : List ManagerInput

/-- The thread that moves, with what it reads from outside, or a command that arrives. -/
inductive ShutdownStep where
  | arrive (command : OrderCommand)
  | engine (env : CommandEnv)
  | journal (now : UInt64)
  | stop

/-- The matching engine is called for the command. -/
def OrderCommand.Executes (command : OrderCommand) : Prop := command.type ≠ .replaceOrder
  deriving Decidable

namespace ShutdownRun

/-- After `EngineManager::start`. -/
def start (symbolId : SymbolId) (round : ℚ → ℚ) (maxFileSize : Nat) : ShutdownRun where
  inbound := []
  manager := .new symbolId round
  disk := .new maxFileSize
  running := true
  journalRunning := true
  engine := .checking
  journal := .checking
  stop := .notCalled
  executed := []

/-- `inbound_queue_` has 4096 cells and refuses further commands. -/
def arrive (run : ShutdownRun) (command : OrderCommand) : ShutdownRun :=
  if 4096 ≤ run.inbound.length then run else { run with inbound := run.inbound ++ [command] }

/-- One step of `EngineManager::run`; validation, the append and the execution of a command are
steps of their own. -/
def engineStep (run : ShutdownRun) (env : CommandEnv) : Except Fault ShutdownRun :=
  match run.engine with
  | .checking => .ok { run with engine := if run.running then .polling else .exited }
  | .polling =>
    match run.inbound with
    | [] => .ok { run with engine := .checking }
    | command :: rest => .ok { run with inbound := rest, engine := .validating command }
  | .validating command =>
    let validation := run.manager.validate env command
    let manager := { run.manager with riskEngine := validation.engine }
    match validation.result with
    | .ok _ => .ok { run with manager, engine := .appending ⟨command, env⟩ }
    | .error _ => .ok { run with manager, engine := .checking }
  | .appending input =>
    .ok { run with
      manager := run.manager.journal input.env input.command
      engine := .executing input }
  | .executing input =>
    match run.manager.execute input.env input.command with
    | .ok processed =>
      .ok { run with
        manager := processed.manager
        engine := .checking
        executed :=
          if input.command.Executes then run.executed ++ [input] else run.executed }
    | .error fault => .error fault
  | .exited => .ok run

/-- One step of `DiskJournal::run`. -/
def journalStep (run : ShutdownRun) (now : UInt64) : ShutdownRun :=
  match run.journal with
  | .checking => { run with journal := if run.journalRunning then .polling else .draining }
  | .draining =>
    { run with journal := if run.manager.journalQueue = [] then .exited else .polling }
  | .polling =>
    match run.manager.journalQueue with
    | [] => { run with journal := .checking }
    | entry :: rest =>
      { run with manager := { run.manager with journalQueue := rest }, journal := .writing entry }
  | .writing entry => { run with disk := run.disk.writeEntry entry now, journal := .checking }
  | .exited => run

/-- One step of `EngineManager::stop`. A join waits for its thread to leave; when the journal is
joined its file is closed. -/
def stopStep (run : ShutdownRun) : ShutdownRun :=
  match run.stop with
  | .notCalled => { run with running := false, stop := .engineTold }
  | .engineTold => { run with journalRunning := false, stop := .journalTold }
  | .journalTold =>
    match run.journal with
    | .exited => { run with disk := { run.disk with isOpen := false }, stop := .journalJoined }
    | _ => run
  | .journalJoined =>
    match run.engine with
    | .exited => { run with stop := .returned }
    | _ => run
  | .returned => run

/-- One step of a thread. -/
def step (run : ShutdownRun) : ShutdownStep → Except Fault ShutdownRun
  | .arrive command => .ok (run.arrive command)
  | .engine env => run.engineStep env
  | .journal now => .ok (run.journalStep now)
  | .stop => .ok run.stopStep

/-- When `stop` has returned, each executed command has an entry of its own in the files. -/
def Complete (run : ShutdownRun) : Prop :=
  run.stop = .returned → ∃ read, run.disk.directory.records = .ok (true, read) ∧
    (run.executed.map ManagerInput.logEntry).Sublist read

/-- An append finds room in the queue and a journal loop that has not left. -/
def HeardAt (run : ShutdownRun) : EngineStage → Prop
  | .appending _ => run.manager.journalQueue.length < journalCapacity ∧ run.journal ≠ .exited
  | _ => True

/-- An engine that takes a command has not been told to stop. -/
def Heard (run : ShutdownRun) : ShutdownStep → Prop
  | .engine _ => run.HeardAt run.engine
  | _ => True

instance (run : ShutdownRun) (stage : EngineStage) : Decidable (run.HeardAt stage) := by
  cases stage <;> dsimp only [HeardAt] <;> infer_instance

instance (run : ShutdownRun) (input : ShutdownStep) : Decidable (run.Heard input) := by
  cases input <;> dsimp only [Heard] <;> infer_instance

/-! ## The steps of a command -/

/-- Execution does not touch the journal queue. -/
theorem execute_journalQueue {manager : EngineManager} {env : CommandEnv}
    {command : OrderCommand} {processed : Processed}
    (ran : manager.execute env command = .ok processed) :
    processed.manager.journalQueue = manager.journalQueue := by
  unfold EngineManager.execute at ran
  cases kind : command.type with
  | newOrder =>
    simp only [kind] at ran
    obtain ⟨submission, _, same⟩ := bind_eq_ok ran
    cases same
    rfl
  | cancelOrder =>
    simp only [kind] at ran
    obtain ⟨cancelled, _, same⟩ := bind_eq_ok ran
    cases same
    rfl
  | replaceOrder =>
    simp only [kind] at ran
    cases ran
    rfl

/-! ## The invariant -/

/-- The entry between the queue and the files. -/
def held (run : ShutdownRun) : List LogEntry :=
  match run.journal with
  | .writing entry => [entry]
  | _ => []

/-- Commands whose entries have been appended: the executed ones and the one to be executed. -/
def owed (run : ShutdownRun) : List ManagerInput :=
  match run.engine with
  | .executing input => run.executed ++ [input]
  | _ => run.executed

/-- Entries on their way: written, held by the writer and queued. -/
def trail (run : ShutdownRun) (files : List JournalFile) : List LogEntry :=
  files.flatMap JournalFile.entries ++ run.held ++ run.manager.journalQueue

/-- The entries of executed commands are on their way to the files, in order, and a journal loop
that has left has left nothing behind. -/
structure Logging (run : ShutdownRun) : Prop where
  files : ∃ files, run.disk.directory.Holds files ∧
    (run.journal ≠ .exited → run.disk.Wrote files) ∧
    (run.owed.map ManagerInput.logEntry).Sublist (run.trail files) ∧
    ∀ entry ∈ run.trail files, entry.WellFormed
  drained : run.journal = .exited → run.manager.journalQueue = []
  joined : run.stop = .journalJoined ∨ run.stop = .returned → run.journal = .exited

namespace Logging

variable {run next : ShutdownRun}

/-- Nothing to log yet. -/
theorem start (symbolId : SymbolId) (round : ℚ → ℚ) (maxFileSize : Nat) :
    (start symbolId round maxFileSize).Logging where
  files := by
    have wrote := DiskJournal.wrote_new maxFileSize
    exact ⟨[], wrote.holds, fun _ => wrote, List.Sublist.refl _,
      fun _ member => absurd member List.not_mem_nil⟩
  drained := fun left => by cases left
  joined := fun left => by rcases left with told | told <;> cases told

/-- What neither the files, the queue nor the threads' stages see. -/
theorem frame (logging : run.Logging) {inbound : List OrderCommand} {running : Bool} :
    Logging { run with inbound, running } :=
  ⟨logging.files, logging.drained, logging.joined⟩

/-- The engine may move where it owes no more entries and leaves the queue alone. -/
theorem move (logging : run.Logging) (manager : EngineManager) (engine : EngineStage)
    (executed : List ManagerInput) (queue : manager.journalQueue = run.manager.journalQueue)
    (owed : ({ run with manager, engine, executed } : ShutdownRun).owed.Sublist run.owed) :
    Logging { run with manager, engine, executed } := by
  obtain ⟨files, holds, wrote, entries, wellFormed⟩ := logging.files
  have same : ({ run with manager, engine, executed } : ShutdownRun).trail files =
      run.trail files := by
    simp only [trail, queue]
    rfl
  refine ⟨⟨files, holds, wrote, ?_, ?_⟩, ?_, logging.joined⟩
  · rw [same]
    exact (owed.map _).trans entries
  · rw [same]
    exact wellFormed
  · intro left
    exact queue.trans (logging.drained left)

/-- An append that is heard puts the entry at the end of the trail. -/
theorem append (logging : run.Logging) {input : ManagerInput}
    (stage : run.engine = .appending input) (heard : run.HeardAt run.engine) :
    Logging { run with
      manager := run.manager.journal input.env input.command
      engine := .executing input } := by
  rw [stage] at heard
  obtain ⟨room, listening⟩ := heard
  obtain ⟨files, holds, wrote, entries, wellFormed⟩ := logging.files
  have queue := input.journal_of_room room
  have owed : run.owed = run.executed := by simp [owed, stage]
  have longer : ({ run with
      manager := run.manager.journal input.env input.command
      engine := .executing input } : ShutdownRun).trail files =
        run.trail files ++ [input.logEntry] := by
    simp only [trail, queue, ← List.append_assoc]
    rfl
  refine ⟨⟨files, holds, wrote, ?_, ?_⟩, fun left => absurd left listening, logging.joined⟩
  · rw [longer]
    change ((run.executed ++ [input]).map ManagerInput.logEntry).Sublist _
    rw [owed] at entries
    rw [List.map_append]
    exact entries.append (List.Sublist.refl _)
  · rw [longer]
    intro entry member
    rcases List.mem_append.mp member with old | new
    · exact wellFormed entry old
    · rw [List.mem_singleton.mp new]
      exact input.logEntry_wellFormed

/-- A step of the engine loop. -/
theorem engine {env : CommandEnv} (logging : run.Logging) (heard : run.HeardAt run.engine)
    (taken : run.engineStep env = .ok next) : next.Logging := by
  cases stage : run.engine with
  | checking =>
    simp only [engineStep, stage] at taken
    cases taken
    apply logging.move run.manager _ run.executed rfl
    cases run.running <;> simp [owed, stage]
  | polling =>
    simp only [engineStep, stage] at taken
    cases waiting : run.inbound with
    | nil =>
      simp only [waiting] at taken
      cases taken
      exact (logging.move run.manager .checking run.executed rfl (by simp [owed, stage])).frame
    | cons command rest =>
      simp only [waiting] at taken
      cases taken
      exact (logging.move run.manager (.validating command) run.executed rfl
        (by simp [owed, stage])).frame
  | validating command =>
    simp only [engineStep, stage] at taken
    cases result : (run.manager.validate env command).result with
    | ok value =>
      simp only [result] at taken
      cases taken
      exact logging.move _ (.appending _) run.executed rfl (by simp [owed, stage])
    | error reason =>
      simp only [result] at taken
      cases taken
      exact logging.move _ .checking run.executed rfl (by simp [owed, stage])
  | appending input =>
    simp only [engineStep, stage] at taken
    cases taken
    exact logging.append stage heard
  | executing input =>
    simp only [engineStep, stage] at taken
    cases ran : run.manager.execute input.env input.command with
    | error fault =>
      rw [ran] at taken
      cases taken
    | ok processed =>
      rw [ran] at taken
      cases taken
      apply logging.move _ .checking _ (execute_journalQueue ran)
      simp only [owed, stage]
      split <;> simp
  | exited =>
    simp only [engineStep, stage] at taken
    cases taken
    exact logging

/-- The writer may move entries along the trail. -/
theorem shift (logging : run.Logging) (active : run.journal ≠ .exited)
    (manager : EngineManager) (disk : DiskJournal) (journal : JournalStage)
    (moves : ∀ files, run.disk.Wrote files → ∃ files', disk.Wrote files' ∧
      ({ run with manager, disk, journal } : ShutdownRun).trail files' = run.trail files)
    (drained : journal = .exited → manager.journalQueue = []) :
    Logging { run with manager, disk, journal } := by
  obtain ⟨files, holds, wrote, entries, wellFormed⟩ := logging.files
  obtain ⟨files', wrote', same⟩ := moves files (wrote active)
  refine ⟨⟨files', wrote'.holds, fun _ => wrote', ?_, ?_⟩, drained, ?_⟩
  · rw [same]
    exact entries
  · rw [same]
    exact wellFormed
  · exact fun told => absurd (logging.joined told) active

/-- A step of the journal loop moves an entry along the trail or leaves an empty queue. -/
theorem journal (logging : run.Logging) (now : UInt64) : (run.journalStep now).Logging := by
  cases stage : run.journal with
  | checking =>
    simp only [journalStep, stage]
    apply logging.shift (by simp [stage]) run.manager run.disk
    · intro files wrote
      refine ⟨files, wrote, ?_⟩
      cases run.journalRunning <;> simp [trail, held, stage]
    · cases run.journalRunning <;> simp
  | draining =>
    simp only [journalStep, stage]
    apply logging.shift (by simp [stage]) run.manager run.disk
    · intro files wrote
      refine ⟨files, wrote, ?_⟩
      by_cases empty : run.manager.journalQueue = [] <;> simp [trail, held, stage, empty]
    · by_cases empty : run.manager.journalQueue = [] <;> simp [empty]
  | polling =>
    simp only [journalStep, stage]
    cases waiting : run.manager.journalQueue with
    | nil =>
      apply logging.shift (by simp [stage]) run.manager run.disk
      · exact fun files wrote => ⟨files, wrote, by simp [trail, held, stage]⟩
      · intro left
        cases left
    | cons entry rest =>
      apply logging.shift (by simp [stage]) _ run.disk
      · exact fun files wrote => ⟨files, wrote, by simp [trail, held, stage, waiting]⟩
      · intro left
        cases left
  | writing entry =>
    simp only [journalStep, stage]
    apply logging.shift (by simp [stage]) run.manager
    · intro files wrote
      obtain ⟨files', wrote', entries⟩ := wrote.writeEntry entry now
      exact ⟨files', wrote', by simp [trail, held, stage, entries]⟩
    · intro left
      cases left
  | exited =>
    simp only [journalStep, stage]
    exact logging

/-- A step of the call of `stop`. -/
theorem stopped (logging : run.Logging) : run.stopStep.Logging := by
  cases stage : run.stop with
  | notCalled =>
    simp only [stopStep, stage]
    exact ⟨logging.files, logging.drained, by simp⟩
  | engineTold =>
    simp only [stopStep, stage]
    exact ⟨logging.files, logging.drained, by simp⟩
  | journalTold =>
    unfold stopStep
    simp only [stage]
    split
    · rename_i left
      obtain ⟨files, holds, _, entries, wellFormed⟩ := logging.files
      exact ⟨⟨files, holds, fun active => absurd left active, entries, wellFormed⟩,
        logging.drained, fun _ => left⟩
    · exact logging
  | journalJoined =>
    have left := logging.joined (.inl stage)
    unfold stopStep
    simp only [stage]
    split
    · exact ⟨logging.files, logging.drained, fun _ => left⟩
    · exact logging
  | returned =>
    simp only [stopStep, stage]
    exact logging

/-- A heard step keeps the log. -/
theorem step {input : ShutdownStep} (logging : run.Logging) (heard : run.Heard input)
    (taken : run.step input = .ok next) : next.Logging := by
  cases input with
  | arrive command =>
    cases taken
    unfold arrive
    split
    · exact logging
    · exact logging.frame
  | engine env => exact logging.engine heard taken
  | journal now =>
    cases taken
    exact logging.journal now
  | stop =>
    cases taken
    exact logging.stopped

/-- When `stop` has returned, the trail ends in the files. -/
theorem complete (logging : run.Logging) : run.Complete := by
  intro returned
  have left := logging.joined (.inr returned)
  obtain ⟨files, holds, _, entries, wellFormed⟩ := logging.files
  have written : run.trail files = files.flatMap JournalFile.entries := by
    simp [trail, held, left, logging.drained left]
  rw [written] at entries wellFormed
  have executed : run.executed.Sublist run.owed := by
    unfold owed
    split <;> simp
  exact ⟨_, holds.records_eq wellFormed, (executed.map _).trans entries⟩

end Logging

/-- In every interleaving of the engine loop, the journal loop and `stop` in which every append is
heard, each executed command has its entry in the files when `stop` has returned. -/
theorem complete_of_heard {symbolId : SymbolId} {round : ℚ → ℚ} {maxFileSize : Nat}
    {steps : List ShutdownStep}
    (heard : Along Heard step (start symbolId round maxFileSize) steps) :
    Throughout Complete step (start symbolId round maxFileSize) steps :=
  Throughout.of_guarded (Logging.start symbolId round maxFileSize)
    (fun _ _ _ logging here taken => logging.step here taken)
    (fun _ logging => logging.complete) heard

/-- What `limitCommand` is processed with in the runs below. -/
def plainEnv : CommandEnv := (commandInput (limitCommand 1 1 .buy 10000000000 1000000)).env

/-- A command is processed and journalled before `stop` is called. -/
def orderlyStop : List ShutdownStep :=
  [.arrive (limitCommand 1 1 .buy 10000000000 1000000)] ++ List.replicate 5 (.engine plainEnv) ++
    List.replicate 3 (.journal 0) ++ [.stop, .stop] ++ List.replicate 2 (.journal 0) ++
    [.stop, .engine plainEnv, .stop]

/-- A command has passed the risk checks when `stop` is called, and is appended after the journal
loop has found its queue empty and left. -/
def lateAppend : List ShutdownStep :=
  [.arrive (limitCommand 1 1 .buy 10000000000 1000000)] ++ List.replicate 3 (.engine plainEnv) ++
    [.stop, .stop] ++ List.replicate 2 (.journal 0) ++ [.stop] ++
    List.replicate 3 (.engine plainEnv) ++ [.stop]

/-- One command, then the stop. -/
theorem complete_of_heard_orderly :
    ∃ run, runAll step (start 1 id 64) orderlyStop = .ok run ∧ run.stop = .returned ∧
      run.executed.length = 1 ∧ run.Complete := by
  have returns : ∃ run, runAll step (start 1 id 64) orderlyStop = .ok run ∧
      run.stop = .returned ∧ run.executed.length = 1 := Returns.exists (by decide +kernel)
  obtain ⟨run, ran, returned, executed⟩ := returns
  exact ⟨run, ran, returned, executed,
    (complete_of_heard (by decide +kernel : Along Heard step _ orderlyStop)).final ran⟩

/-- The matching engine has executed a command, `stop` has returned, and no file holds an entry. -/
theorem late_append_unwritten :
    ∃ run, runAll step (start 1 id 64) lateAppend = .ok run ∧ run.stop = .returned ∧
      run.executed.length = 1 ∧ run.disk.directory.records = .ok (true, []) ∧ ¬run.Complete := by
  have returns : ∃ run, runAll step (start 1 id 64) lateAppend = .ok run ∧
      run.stop = .returned ∧ run.executed.length = 1 ∧
      Returns (fun read => read = (true, [])) run.disk.directory.records :=
    Returns.exists (by decide +kernel)
  obtain ⟨run, ran, returned, executed, scanned⟩ := returns
  obtain ⟨read, isRead, same⟩ := scanned.exists
  rw [same] at isRead
  refine ⟨run, ran, returned, executed, isRead, ?_⟩
  intro complete
  obtain ⟨found, isFound, entries⟩ := complete returned
  rw [isRead] at isFound
  cases isFound
  have short := entries.length_le
  rw [List.length_map, executed] at short
  exact absurd short (by decide)

end ShutdownRun

end FluxTrade
