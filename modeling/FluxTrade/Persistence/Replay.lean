import FluxTrade.Exchange.Messages
import FluxTrade.Matching.OrderBook
import FluxTrade.Persistence.Journal

/-!
# Replaying the log

`ReplayEngine` reads the journal files from index one while they exist, checks
each record's checksum and applies the recorded commands to a book. The reading
loop is separate from what is done with a record: of well-formed files it visits
exactly the entries, in order.
-/

namespace FluxTrade

open WALRecordHeader List

/-- The record loop of `replay_journal`: false if a checksum does not match. A record that the file
does not hold completely ends the loop. -/
def scanRecords {σ : Type*} (visit : σ → LogEntry → Except Fault σ) :
    Nat → List UInt8 → σ → Except Fault (Bool × σ)
  | 0, _, _ => .error .outOfFuel
  | fuel + 1, bytes, state =>
    if bytes.length < image.width then .ok (true, state)
    else
      let header := image.decode bytes
      let rest := bytes.drop image.width
      if rest.length < header.payloadLength.toNat then .ok (true, state)
      else
        let payload := rest.take header.payloadLength.toNat
        if header.checksum ≠ header.crc payload then .ok (false, state)
        else do
          let state ← visit state ⟨header, payload⟩
          scanRecords visit fuel (rest.drop header.payloadLength.toNat) state

/-- `ReplayEngine::replay_journal` on the bytes of a file. Each record takes at least its header,
so the length of the file bounds the loop. -/
def scanJournal {σ : Type*} (visit : σ → LogEntry → Except Fault σ) (bytes : List UInt8)
    (state : σ) : Except Fault (Bool × σ) :=
  if bytes.length < WALHeader.image.width then .ok (false, state)
  else
    let header := WALHeader.image.decode bytes
    if header.magic ≠ walMagic ∨ header.version ≠ walVersion then .ok (false, state)
    else
      scanRecords visit (bytes.length + 1) (bytes.drop WALHeader.image.width) state

/-- The file loop of `ReplayEngine::recover` from an index on. No file exists beyond the bound of
the directory, so as many rounds are enough. -/
def scanDirectory {σ : Type*} (visit : σ → LogEntry → Except Fault σ) (directory : Directory) :
    Nat → Nat → σ → Except Fault (Bool × σ)
  | 0, _, state => .ok (true, state)
  | rounds + 1, index, state =>
    match directory.files index with
    | none => .ok (true, state)
    | some bytes => do
      let (ok, state) ← scanJournal visit bytes state
      if ok then scanDirectory visit directory rounds (index + 1) state else .ok (false, state)

/-- The book under recovery and the last sequence applied to it. -/
structure ReplayState where
  book : LimitOrderBook
  currentSeq : UInt64

/-- A record's effect on the book. Payloads of another size and other types have none. -/
def applyRecord (book : LimitOrderBook) (entry : LogEntry) : Except Fault LimitOrderBook :=
  let image := OrderCommand.image 0
  let command := image.decode entry.payload
  if entry.payload.length = image.width then
    if entry.header.messageType = CommandType.newOrder.code.toUInt16 then do
      let (_, book) ← book.insert (command.toOrder entry.header.timestamp) command.sequence
      .ok book
    else if entry.header.messageType = CommandType.cancelOrder.code.toUInt16 then do
      let (_, book) ← book.cancel command.origClientOrderId
      .ok book
    else .ok book
  else .ok book

namespace ReplayEngine

/-- What `replay_journal` does with a checked record. -/
def visit (state : ReplayState) (entry : LogEntry) : Except Fault ReplayState :=
  if entry.header.sequence ≤ state.currentSeq then .ok state
  else do
    let book ← applyRecord state.book entry
    .ok ⟨book, entry.header.sequence⟩

/-- `ReplayEngine::recover` in a directory without metadata. -/
def recover (directory : Directory) (book : LimitOrderBook) :
    Except Fault (Bool × ReplayState) :=
  scanDirectory visit directory directory.bound 1 ⟨book, 0⟩

end ReplayEngine

/-! ## Written files are read back -/

section

variable {σ : Type*} (visit : σ → LogEntry → Except Fault σ)
variable {entries : List LogEntry} {directory : Directory}

/-- The first step of the record loop on the bytes of a well-formed entry. -/
theorem scanRecords_cons {entry : LogEntry} (wellFormed : entry.WellFormed) (fuel : Nat)
    (rest : List UInt8) (state : σ) :
    scanRecords visit (fuel + 1) (entry.bytes ++ rest) state = (do
      let state ← visit state entry
      scanRecords visit fuel rest state) := by
  have whole : entry.bytes ++ rest =
      image.encode entry.header ++ (entry.payload ++ rest) :=
    append_assoc ..
  have long := image.le_length entry.header (entry.payload ++ rest)
  have complete : ¬(entry.payload ++ rest).length < entry.header.payloadLength.toNat := by
    rw [length_append, wellFormed.length]
    omega
  rw [scanRecords, whole, if_neg (by omega)]
  simp only [image.decode_encode, Layout.drop_encode]
  rw [if_neg complete, take_left' wellFormed.length, drop_left' wellFormed.length,
    if_neg (not_not.mpr wellFormed.checksum)]

/-- The record loop goes through well-formed entries to the bytes behind them. -/
theorem scanRecords_append (wellFormed : ∀ entry ∈ entries, entry.WellFormed) (fuel : Nat)
    (rest : List UInt8) (state : σ) :
    scanRecords visit (fuel + entries.length) (entries.flatMap LogEntry.bytes ++ rest) state = (do
      let state ← entries.foldlM visit state
      scanRecords visit fuel rest state) := by
  induction entries generalizing state with
  | nil => rfl
  | cons entry others ih =>
    rw [flatMap_cons, append_assoc, length_cons, ← Nat.add_assoc,
      scanRecords_cons visit (wellFormed entry mem_cons_self), foldlM_cons]
    cases visit state entry with
    | error fault => rfl
    | ok next =>
      exact ih (fun other member => wellFormed other (mem_cons_of_mem _ member)) next

/-- The record loop visits the entries of a well-formed file. -/
theorem scanRecords_entries (wellFormed : ∀ entry ∈ entries, entry.WellFormed) {fuel : Nat}
    (enough : entries.length < fuel) (state : σ) :
    scanRecords visit fuel (entries.flatMap LogEntry.bytes) state =
      (entries.foldlM visit state).map fun state => (true, state) := by
  obtain ⟨more, rfl⟩ : ∃ more, fuel = more + 1 + entries.length :=
    ⟨fuel - 1 - entries.length, by omega⟩
  have scanned := scanRecords_append visit wellFormed (more + 1) [] state
  rw [append_nil] at scanned
  rw [scanned]
  cases entries.foldlM visit state <;> rfl

/-- An entry has a byte. -/
theorem length_le_flatMap_bytes (entries : List LogEntry) :
    entries.length ≤ (entries.flatMap LogEntry.bytes).length := by
  induction entries with
  | nil => exact Nat.le_refl _
  | cons entry rest ih =>
    have header : 24 ≤ entry.bytes.length :=
      image.le_length entry.header entry.payload
    rw [flatMap_cons, length_append, length_cons]
    omega

/-- Behind a right header the record loop starts. -/
theorem scanJournal_header {header : WALHeader}
    (valid : header.magic = walMagic ∧ header.version = walVersion) (records : List UInt8)
    (state : σ) :
    scanJournal visit (WALHeader.image.encode header ++ records) state =
      scanRecords visit ((WALHeader.image.encode header ++ records).length + 1) records state := by
  have long := Nat.not_lt.mpr (WALHeader.image.le_length header records)
  simp only [scanJournal, long, WALHeader.image.decode_encode, WALHeader.image.drop_encode,
    valid.1, valid.2, ne_eq, not_true_eq_false, or_self, if_false]

/-- A journal file is read back as its entries. -/
theorem scanJournal_bytes {file : JournalFile} (valid : file.Valid)
    (wellFormed : ∀ entry ∈ file.entries, entry.WellFormed) (state : σ) :
    scanJournal visit file.bytes state =
      (file.entries.foldlM visit state).map fun state => (true, state) := by
  have bound := length_le_flatMap_bytes file.entries
  rw [JournalFile.bytes, scanJournal_header visit valid]
  refine scanRecords_entries visit wellFormed ?_ state
  rw [length_append]
  omega

/-- The loop over the records of a file visits the entries and finds no wrong checksum. -/
def ReadsAs (bytes : List UInt8) (entries : List LogEntry) : Prop :=
  ∀ state, scanJournal visit bytes state =
    (entries.foldlM visit state).map fun state => (true, state)

/-- The file loop visits what each file from an index on is read as. -/
theorem scanDirectory_reads {contents : List (List UInt8 × List LogEntry)}
    (present : ∀ index, directory.files (index + 1) = contents[index]?.map Prod.fst)
    (reads : ∀ file ∈ contents, ReadsAs visit file.1 file.2) (rounds index : Nat)
    (enough : contents.length ≤ index + rounds) (state : σ) :
    scanDirectory visit directory rounds (index + 1) state =
      (((contents.drop index).flatMap Prod.snd).foldlM visit state).map
        fun state => (true, state) := by
  induction rounds generalizing index state with
  | zero =>
    rw [drop_of_length_le (by omega)]
    rfl
  | succ rounds ih =>
    rw [scanDirectory, present]
    cases found : contents[index]? with
    | none =>
      rw [drop_of_length_le (List.getElem?_eq_none_iff.mp found)]
      rfl
    | some file =>
      have member := mem_of_getElem? found
      obtain ⟨inside, isFile⟩ := List.getElem?_eq_some_iff.mp found
      have split : contents.drop index = file :: contents.drop (index + 1) := by
        rw [drop_eq_getElem_cons inside, isFile]
      simp only [Option.map_some]
      rw [reads file member, split, flatMap_cons, foldlM_append]
      cases file.2.foldlM visit state with
      | error fault => rfl
      | ok next => exact ih (index + 1) (by omega) next

/-- A directory holds its files below its bound. -/
theorem Directory.Holds.length_le {files : List JournalFile}
    (holds : directory.Holds files) : files.length ≤ directory.bound := by
  by_contra beyond
  have inside : directory.bound < files.length := by omega
  have contents := holds.contents directory.bound
  rw [directory.absent _ (Nat.le_succ _), List.getElem?_eq_getElem inside] at contents
  cases contents

/-- The file loop visits the entries of the files from an index on. -/
theorem scanDirectory_files {files : List JournalFile} (holds : directory.Holds files)
    (wellFormed : ∀ entry ∈ files.flatMap JournalFile.entries, entry.WellFormed) (index : Nat)
    (state : σ) :
    scanDirectory visit directory directory.bound (index + 1) state =
      (((files.drop index).flatMap JournalFile.entries).foldlM visit state).map
        fun state => (true, state) := by
  have present (place : Nat) : directory.files (place + 1) =
      (files.map fun file => (file.bytes, file.entries))[place]?.map Prod.fst := by
    rw [holds.contents, List.getElem?_map, Option.map_map]
    rfl
  have bound := holds.length_le
  have scanned := scanDirectory_reads visit present (by
    intro content member
    obtain ⟨file, listed, rfl⟩ := mem_map.mp member
    exact scanJournal_bytes visit (holds.valid file listed) fun entry inside =>
      wellFormed entry (mem_flatMap.mpr ⟨file, listed, inside⟩))
    directory.bound index (by rw [length_map]; omega) state
  rw [scanned, ← map_drop, flatMap_map]

end

/-- Recovery from written files applies every entry once, in order. -/
theorem ReplayEngine.recover_of_holds {directory : Directory} {files : List JournalFile}
    (holds : directory.Holds files)
    (wellFormed : ∀ entry ∈ files.flatMap JournalFile.entries, entry.WellFormed)
    (book : LimitOrderBook) :
    recover directory book =
      ((files.flatMap JournalFile.entries).foldlM visit ⟨book, 0⟩).map
        fun state => (true, state) :=
  scanDirectory_files visit holds wellFormed 0 _

/-! ## Records that go up -/

/-- Sequence numbers that go up from entry to entry. -/
def Increasing (entries : List LogEntry) : Prop :=
  entries.Pairwise fun early late => early.header.sequence < late.header.sequence
  deriving Decidable

namespace ReplayEngine

/-- The last sequence after a list of entries. -/
def lastSequence (currentSeq : UInt64) (entries : List LogEntry) : UInt64 :=
  entries.foldl (fun _ entry => entry.header.sequence) currentSeq

/-- Entries above the last sequence that go up are all applied. -/
theorem foldlM_visit {entries : List LogEntry} (increasing : Increasing entries)
    (state : ReplayState)
    (above : ∀ entry ∈ entries, state.currentSeq < entry.header.sequence) :
    entries.foldlM visit state = (entries.foldlM applyRecord state.book).map fun book =>
      ⟨book, lastSequence state.currentSeq entries⟩ := by
  induction entries generalizing state with
  | nil => rfl
  | cons entry rest ih =>
    obtain ⟨first, later⟩ := pairwise_cons.mp increasing
    have kept : ¬entry.header.sequence ≤ state.currentSeq :=
      UInt64.not_le.mpr (above entry mem_cons_self)
    rw [foldlM_cons, foldlM_cons]
    simp only [visit, kept, if_false]
    cases applyRecord state.book entry with
    | error fault => rfl
    | ok book => exact ih later ⟨book, entry.header.sequence⟩ first

/-- Entries up to the last sequence are all skipped. -/
theorem foldlM_visit_skipped {entries : List LogEntry} (state : ReplayState)
    (below : ∀ entry ∈ entries, entry.header.sequence ≤ state.currentSeq) :
    entries.foldlM visit state = .ok state := by
  induction entries with
  | nil => rfl
  | cons entry rest ih =>
    rw [foldlM_cons, visit, if_pos (below entry mem_cons_self)]
    exact ih fun other member => below other (mem_cons_of_mem _ member)

end ReplayEngine

end FluxTrade
