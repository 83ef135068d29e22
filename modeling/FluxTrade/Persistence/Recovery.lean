import FluxTrade.Exchange.ManagerRun
import FluxTrade.Matching.Reports
import FluxTrade.Persistence.Replay

/-!
# Recovery of the live book

The manager journals accepted commands and lets the matching engine execute
them; recovery inserts every journalled new order and cancels every journalled
cancellation. The two agree while accepted new orders are limit orders that meet
nothing, and while every accepted command is journalled under a sequence number
above the earlier ones: then recovery yields the live book whenever all entries
have reached the disk.
-/

namespace FluxTrade

open Execution OrderCommand ReplayEngine

/-- A manager with its disk journal. -/
structure JournaledRun where
  run : ManagerRun
  disk : DiskJournal
  /-- Entries queued so far, the first one first. -/
  journalled : List LogEntry

/-- What happens next: a command is processed, or the writer thread takes an entry. -/
inductive JournaledStep where
  | command (input : ManagerInput)
  | write (now : UInt64)

namespace JournaledRun

/-- The entries that wait to be written. -/
def queue (state : JournaledRun) : JournalQueue := state.run.manager.journalQueue

/-- A new engine with an empty journal. -/
def start (symbolId : SymbolId) (round : ℚ → ℚ) (maxFileSize : Nat) : JournaledRun :=
  ⟨.start symbolId round, .new maxFileSize, []⟩

/-- The manager after the writer has taken the first entries of its queue. -/
def withQueue (run : ManagerRun) (journalQueue : JournalQueue) : ManagerRun :=
  { run with manager := { run.manager with journalQueue } }

/-- One command or one write. -/
def step (state : JournaledRun) : JournaledStep → Except Fault JournaledRun
  | .command input =>
    match state.run.step input with
    | .ok run =>
      let queued := run.manager.journalQueue.drop state.queue.length
      .ok { state with run, journalled := state.journalled ++ queued }
    | .error fault => .error fault
  | .write now =>
    match state.queue with
    | [] => .ok state
    | entry :: rest =>
      .ok { state with run := withQueue state.run rest, disk := state.disk.writeEntry entry now }

/-- When every journalled entry is on disk, recovery returns true and yields the live book. -/
def Recovers (state : JournaledRun) : Prop :=
  state.queue = [] → ∃ currentSeq,
    recover state.disk.directory (.new none) =
      .ok (true, ⟨state.run.book, currentSeq⟩)

/-- An accepted new order is a limit order with a quantity that meets nothing, and an accepted
command is sequenced above the journalled ones and finds room in the journal queue. -/
def Replayable (state : JournaledRun) : JournaledStep → Prop
  | .command input => state.run.Accepts input →
    (input.command.type = .newOrder → input.command.orderType = .limit ∧ input.command.qty ≠ 0 ∧
      ¬input.order.Meets state.run.book) ∧
    0 < input.command.sequence ∧
    (∀ entry ∈ state.journalled, entry.header.sequence < input.command.sequence) ∧
    state.queue.length < journalCapacity
  | .write _ => True

instance (state : JournaledRun) (action : JournaledStep) :
    Decidable (state.Replayable action) := by
  cases action <;> dsimp only [Replayable] <;> infer_instance

end JournaledRun

/-! ## One command, live and replayed -/

/-- The entry that a command is journalled as. -/
def ManagerInput.logEntry (input : ManagerInput) : LogEntry :=
  LogEntry.make input.command.sequence input.command.timestamp input.command.type.code.toUInt16
    ((image input.env.unnamed).encode input.command)

namespace ManagerInput

variable (input : ManagerInput)

/-- A command has 72 bytes. -/
theorem payload_length : input.logEntry.payload.length = 72 := by
  change ((image input.env.unnamed).encode input.command).length = 72
  rw [Layout.encode_length, image_width]

/-- Its entry is well formed. -/
theorem logEntry_wellFormed : input.logEntry.WellFormed := by
  apply LogEntry.make_wellFormed
  rw [Layout.encode_length, image_width]
  decide

/-- An append that finds room queues the entry of the command. -/
theorem journal_of_room {manager : EngineManager}
    (room : manager.journalQueue.length < journalCapacity) :
    (manager.journal input.env input.command).journalQueue =
      manager.journalQueue ++ [input.logEntry] := by
  have short : ¬256 < ((image input.env.unnamed).encode input.command).length := by
    rw [Layout.encode_length, image_width]
    decide
  simp only [EngineManager.journal, MemoryJournal.append, short, if_false, Nat.not_le.mpr room]
  rfl

/-- What recovery does with the entry of a command. -/
theorem applyRecord_logEntry (book : LimitOrderBook) :
    applyRecord book input.logEntry =
      match input.command.type with
      | .newOrder => (book.insert input.order input.order.seqNum).map Prod.snd
      | .cancelOrder => (book.cancel input.command.origClientOrderId).map Prod.snd
      | .replaceOrder => .ok book := by
  have decoded : (image 0).decode input.logEntry.payload = input.command :=
    decode_image _ _
  have kind : input.logEntry.header.messageType = input.command.type.code.toUInt16 := rfl
  simp only [applyRecord, decoded, payload_length, image_width, kind, if_true]
  cases input.command.type with
  | newOrder =>
    -- The replayed order differs in its exchange timestamp, which the book does not keep.
    have same : book.insert (input.command.toOrder input.logEntry.header.timestamp)
        input.command.sequence = book.insert input.order input.order.seqNum := rfl
    rw [if_pos rfl, same]
    cases book.insert input.order input.order.seqNum <;> rfl
  | cancelOrder =>
    rw [if_neg (by decide), if_pos rfl]
    cases book.cancel input.command.origClientOrderId <;> rfl
  | replaceOrder => rfl

end ManagerInput

/-- The engine cancels as its book does, also when there is nothing to cancel. -/
theorem cancelOrder_book {engine after : MatchingEngine} {orderId : OrderId} {clientId : ClientId}
    {accountId : AccountId} {symbolId : SymbolId} {ctx ctx' : ExecutionContext}
    {clock : ClockReadings} {found : Bool}
    (cancels : engine.cancelOrder orderId clientId accountId symbolId ctx clock =
      .ok (found, after, ctx')) :
    (engine.book.cancel orderId).map Prod.snd = .ok after.book := by
  cases shape : engine.book.findOrder orderId with
  | none =>
    simp only [MatchingEngine.cancelOrder, shape] at cancels
    cases cancels
    simp only [LimitOrderBook.cancel, shape]
    rfl
  | some slot =>
    simp only [MatchingEngine.cancelOrder, shape] at cancels
    obtain ⟨removed, cancelled, same⟩ := bind_eq_ok cancels
    cases same
    rw [cancelled]
    rfl

namespace ManagerRun

variable {run next : ManagerRun} {input : ManagerInput}

/-- An accepted command is journalled if there is room. -/
theorem journalQueue_of_accepts (taken : run.step input = .ok next) (accepts : run.Accepts input)
    (room : run.manager.journalQueue.length < journalCapacity) :
    next.manager.journalQueue = run.manager.journalQueue ++ [input.logEntry] := by
  have admitted : (run.admitted input).journalQueue =
      run.manager.journalQueue ++ [input.logEntry] := input.journal_of_room room
  cases outcome taken with
  | rejected refused => exact absurd accepts (not_accepts_of_error refused)
  | entered _ _ _ => exact admitted
  | cancelled _ _ _ => exact admitted
  | replaced _ _ => exact admitted

/-- A rejected command leaves queue and book alone. -/
theorem step_of_rejects (taken : run.step input = .ok next) (rejects : ¬run.Accepts input) :
    next.manager.journalQueue = run.manager.journalQueue ∧ next.book = run.book := by
  cases outcome taken with
  | rejected _ => exact ⟨rfl, rfl⟩
  | entered accepted _ _ => exact absurd accepted rejects
  | cancelled accepted _ _ => exact absurd accepted rejects
  | replaced accepted _ => exact absurd accepted rejects

/-- Recovery does to the book what the engine did to it. -/
theorem applyRecord_step (taken : run.step input = .ok next) (accepts : run.Accepts input)
    (passive : input.command.type = .newOrder → input.command.orderType = .limit ∧
      input.command.qty ≠ 0 ∧ ¬input.order.Meets run.book) :
    applyRecord run.book input.logEntry = .ok next.book := by
  rw [input.applyRecord_logEntry]
  cases outcome taken with
  | rejected refused => exact absurd accepts (not_accepts_of_error refused)
  | entered _ isNew submits =>
    obtain ⟨isLimit, some', idle⟩ := passive isNew
    obtain ⟨_, rests, _⟩ := submitOrder_idle idle submits
    obtain ⟨slot, inserted⟩ := rests isLimit some'
    have live : run.book.insert input.order input.order.seqNum = _ := inserted
    simp only [isNew, live]
    rfl
  | cancelled _ isCancel cancels =>
    simp only [isCancel]
    exact cancelOrder_book cancels
  | replaced _ isReplace =>
    simp only [isReplace]
    rfl

end ManagerRun

/-! ## Runs -/

namespace JournaledRun

variable {state next : JournaledRun} {action : JournaledStep}

/-- The files and the queue hold the journalled entries, and replaying these yields the live
book. -/
structure Logged (state : JournaledRun) : Prop where
  wrote : ∃ files, state.disk.Wrote files ∧
    files.flatMap JournalFile.entries ++ state.queue = state.journalled
  wellFormed : ∀ entry ∈ state.journalled, entry.WellFormed
  replays : ∃ currentSeq, state.journalled.foldlM visit ⟨.new none, 0⟩ =
      .ok ⟨state.run.book, currentSeq⟩ ∧
    ∀ sequence, 0 < sequence → (∀ entry ∈ state.journalled, entry.header.sequence < sequence) →
      currentSeq < sequence

namespace Logged

/-- Nothing is logged yet. -/
theorem start (symbolId : SymbolId) (round : ℚ → ℚ) (maxFileSize : Nat) :
    (start symbolId round maxFileSize).Logged where
  wrote := ⟨[], DiskJournal.wrote_new maxFileSize, rfl⟩
  wellFormed := fun _ member => absurd member List.not_mem_nil
  replays := ⟨0, rfl, fun _ positive _ => positive⟩

/-- The writer moves an entry from the queue to the files. -/
theorem write {now : UInt64} (logged : state.Logged)
    (taken : state.step (.write now) = .ok next) : next.Logged := by
  obtain ⟨files, wrote, holds⟩ := logged.wrote
  cases waiting : state.queue with
  | nil =>
    simp only [JournaledRun.step, waiting] at taken
    cases taken
    exact logged
  | cons entry rest =>
    simp only [JournaledRun.step, waiting] at taken
    cases taken
    obtain ⟨files', wrote', entries⟩ := wrote.writeEntry entry now
    refine ⟨⟨files', wrote', ?_⟩, logged.wellFormed, logged.replays⟩
    rw [entries, ← holds, waiting, List.append_assoc]
    rfl

/-- A command that replay repeats keeps the log in step with the book. -/
theorem command {input : ManagerInput} (logged : state.Logged)
    (replayable : state.Replayable (.command input))
    (taken : state.step (.command input) = .ok next) : next.Logged := by
  cases ran : state.run.step input with
  | error fault =>
    simp only [JournaledRun.step, ran] at taken
    cases taken
  | ok run =>
    simp only [JournaledRun.step, ran] at taken
    cases taken
    obtain ⟨files, wrote, holds⟩ := logged.wrote
    obtain ⟨currentSeq, replays, below⟩ := logged.replays
    by_cases accepts : state.run.Accepts input
    · obtain ⟨passive, positive, above, room⟩ := replayable accepts
      have queue : run.manager.journalQueue = state.queue ++ [input.logEntry] :=
        ManagerRun.journalQueue_of_accepts ran accepts room
      have fresh : ¬input.logEntry.header.sequence ≤ currentSeq :=
        UInt64.not_le.mpr (below input.command.sequence positive above)
      have visited : visit ⟨state.run.book, currentSeq⟩ input.logEntry =
          .ok ⟨run.book, input.command.sequence⟩ := by
        simp only [visit, fresh, if_false,
          ManagerRun.applyRecord_step ran accepts passive]
        rfl
      rw [queue, List.drop_left]
      refine ⟨⟨files, wrote, ?_⟩, ?_, input.command.sequence, ?_, ?_⟩
      · rw [JournaledRun.queue, queue, ← List.append_assoc, holds]
      · intro entry member
        rcases List.mem_append.mp member with old | new
        · exact logged.wellFormed entry old
        · rw [List.mem_singleton.mp new]
          exact input.logEntry_wellFormed
      · rw [List.foldlM_append, replays]
        change (visit ⟨state.run.book, currentSeq⟩ input.logEntry).bind _ = _
        rw [visited]
        rfl
      · exact fun _ _ beyond =>
          beyond input.logEntry (List.mem_append_right _ List.mem_cons_self)
    · obtain ⟨queue, book⟩ := ManagerRun.step_of_rejects ran accepts
      rw [queue, JournaledRun.queue, List.drop_length, List.append_nil]
      refine ⟨⟨files, wrote, ?_⟩, logged.wellFormed, currentSeq, ?_, below⟩
      · rw [JournaledRun.queue, queue]
        exact holds
      · rw [book]
        exact replays

end Logged

/-- Recovery from a complete log yields the live book. -/
theorem Logged.recovers (logged : state.Logged) : state.Recovers := by
  intro written
  obtain ⟨files, wrote, holds⟩ := logged.wrote
  obtain ⟨currentSeq, replays, _⟩ := logged.replays
  rw [written, List.append_nil] at holds
  refine ⟨currentSeq, ?_⟩
  rw [recover_of_holds wrote.holds (holds ▸ logged.wellFormed), holds, replays]
  rfl

/-- A step is logged. -/
theorem Logged.step (logged : state.Logged) (replayable : state.Replayable action)
    (taken : state.step action = .ok next) : next.Logged := by
  cases action with
  | command input => exact logged.command replayable taken
  | write now => exact logged.write taken

/-- In every run of commands and writes whose accepted commands are replayable, recovery yields the
live book in every state in which all journalled entries are on disk, whatever the size at which
files are rotated. -/
theorem recovers_of_replayable {symbolId : SymbolId} {round : ℚ → ℚ} {maxFileSize : Nat}
    {actions : List JournaledStep}
    (replayable : Along Replayable step (start symbolId round maxFileSize) actions) :
    Throughout Recovers step (start symbolId round maxFileSize) actions :=
  Throughout.of_guarded (Logged.start symbolId round maxFileSize)
    (fun _ _ _ logged here taken => logged.step here taken) (fun _ logged => logged.recovers)
    replayable

/-- Two orders rest, one of them is cancelled, and every entry goes to a file of its own. -/
def quietActions : List JournaledStep :=
  [.command (commandInput (limitCommand 1 1 .sell 10100000000 1000000)), .write 0,
    .command (commandInput (limitCommand 2 2 .buy 9900000000 1000000)),
    .command (commandInput { limitCommand 3 1 .buy 10000000000 0 with
      type := .cancelOrder, origClientOrderId := 1 }), .write 0, .write 0]

/-- One entry in each file. -/
theorem recovers_of_replayable_rotated :
    ∃ state, runAll step (start 1 id 1) quietActions = .ok state ∧ state.queue = [] ∧
      state.disk.fileIndex = 3 ∧ state.Recovers := by
  have returns : Returns (fun state => state.queue = [] ∧ state.disk.fileIndex = 3)
      (runAll step (start 1 id 1) quietActions) := by
    decide +kernel
  obtain ⟨state, ran, written, files⟩ := returns.exists
  exact ⟨state, ran, written, files,
    (recovers_of_replayable (by decide +kernel)).final ran⟩

/-- A sell order is bought whole, and both commands reach the disk. -/
def tradeActions : List JournaledStep :=
  [.command (commandInput (limitCommand 1 1 .sell 10000000000 1000000)),
    .command (commandInput (limitCommand 2 2 .buy 10000000000 1000000)), .write 0, .write 0]

/-- The live book is empty, but recovery lets both orders rest. -/
theorem trade_not_recovered :
    ∃ state, runAll step (start 1 id 1000000) tradeActions = .ok state ∧ state.queue = [] ∧
      state.run.processed.map type = [.newOrder, .newOrder] ∧
      restingBoth state.run.book.levelsOf = [] ∧ ¬state.Recovers := by
  have returns : Returns (fun state => state.queue = [] ∧
      state.run.processed.map type = [.newOrder, .newOrder] ∧
      restingBoth state.run.book.levelsOf = [] ∧
      Returns (fun recovered : Bool × ReplayState =>
        (restingBoth recovered.2.book.levelsOf).map (fun entry => entry.key.orderId) = [2, 1])
        (recover state.disk.directory (.new none)))
      (runAll step (start 1 id 1000000) tradeActions) := by
    decide +kernel
  obtain ⟨state, ran, written, commands, live, replayed⟩ := returns.exists
  obtain ⟨recovered, yields, orders⟩ := replayed.exists
  refine ⟨state, ran, written, commands, live, ?_⟩
  intro recovers
  obtain ⟨currentSeq, same⟩ := recovers written
  rw [yields] at same
  cases same
  change (restingBoth state.run.book.levelsOf).map _ = _ at orders
  rw [live] at orders
  cases orders

end JournaledRun

end FluxTrade
