import FluxTrade.Library.Execution
import FluxTrade.Persistence.Replay

/-!
# What the log keeps

Entries written to a fresh directory are read back across all its files. A file
that is cut short is read up to its last whole record, and the file loop then
goes on with the next file, so a cut in any file but the last leaves a hole. A
journal that is constructed again starts with the first file and truncates it,
so only one lifetime may write.
-/

namespace FluxTrade

open Execution ReplayEngine WALHeader DiskJournal Directory List

/-! ## Writing and reading lists of entries -/

/-- The entry was queued by some call of `MemoryJournal::append`. -/
def LogEntry.Appended (entry : LogEntry) : Prop :=
  ∃ queue sequence timestamp messageType data,
    MemoryJournal.append queue sequence timestamp messageType data = (true, queue ++ [entry])

/-- Appended means well formed. -/
theorem LogEntry.Appended.wellFormed {entry : LogEntry} (appended : entry.Appended) :
    entry.WellFormed := by
  obtain ⟨queue, sequence, timestamp, messageType, data, queued⟩ := appended
  unfold MemoryJournal.append at queued
  split at queued
  · simp at queued
  · split at queued
    · simp at queued
    · rename_i short _
      simp only [Prod.mk.injEq, true_and, append_cancel_left_eq, cons.injEq,
        and_true] at queued
      rw [← queued]
      exact make_wellFormed sequence timestamp messageType (by omega)

/-- A short entry is appended. -/
theorem LogEntry.make_appended (sequence timestamp : UInt64) (messageType : UInt16)
    {data : List UInt8} (short : data.length ≤ 256) :
    (LogEntry.make sequence timestamp messageType data).Appended := by
  refine ⟨[], sequence, timestamp, messageType, data, ?_⟩
  have room : ¬journalCapacity ≤ ([] : JournalQueue).length := by decide
  rw [MemoryJournal.append, if_neg (by omega), if_neg room]

namespace DiskJournal

/-- The constructor, on a directory that may hold files. -/
def openOn (maxFileSize : Nat) (directory : Directory) : DiskJournal :=
  ⟨maxFileSize, false, 0, 0, directory⟩

/-- `write_entry` for each entry, with the reading of the clock for a new file's header. -/
def writeAll (journal : DiskJournal) (written : List (LogEntry × UInt64)) : DiskJournal :=
  written.foldl (fun journal (entry, now) => journal.writeEntry entry now) journal

/-- Nothing is written over yet. -/
theorem wroteOver_openOn {directory : Directory} {old : List JournalFile}
    (holds : directory.Holds old) (maxFileSize : Nat) :
    (openOn maxFileSize directory).WroteOver old [] where
  holds := holds
  index := rfl
  opened := by simp [openOn]

/-- Written entries are in the files of this journal, in order. -/
theorem WroteOver.writeAll {journal : DiskJournal} {old files : List JournalFile}
    (wrote : journal.WroteOver old files) (filled : ∀ file ∈ files, file.entries ≠ [])
    (written : List (LogEntry × UInt64)) :
    ∃ files', (journal.writeAll written).WroteOver old files' ∧
      files'.flatMap JournalFile.entries =
        files.flatMap JournalFile.entries ++ written.map Prod.fst ∧
      ∀ file ∈ files', file.entries ≠ [] := by
  induction written generalizing journal files with
  | nil => exact ⟨files, wrote, (append_nil _).symm, filled⟩
  | cons first rest ih =>
    obtain ⟨entry, now⟩ := first
    obtain ⟨next, wroteNext, entries, filledNext⟩ := wrote.writeEntry entry now
    obtain ⟨files', wrote', all, filled'⟩ := ih wroteNext (filledNext filled)
    refine ⟨files', wrote', ?_, filled'⟩
    rw [all, entries, map_cons, append_assoc]
    rfl

/-- Entries written to a fresh directory are in its files, none of which is empty. -/
theorem holds_writeAll (maxFileSize : Nat) (written : List (LogEntry × UInt64)) :
    ∃ files, ((new maxFileSize).writeAll written).directory.Holds files ∧
      files.flatMap JournalFile.entries = written.map Prod.fst ∧
      ∀ file ∈ files, file.entries ≠ [] := by
  have fresh : (new maxFileSize).WroteOver [] [] := wroteOver_nil.mpr (wrote_new maxFileSize)
  obtain ⟨files, wrote, entries, filled⟩ :=
    fresh.writeAll (fun _ member => absurd member not_mem_nil) written
  exact ⟨files, (wroteOver_nil.mp wrote).holds, entries, filled⟩

end DiskJournal

/-! ## Which records are applied -/

section

variable {σ τ : Type*} {visit : σ → LogEntry → Except Fault σ}
  {seen : τ → LogEntry → Except Fault τ} {image : σ → τ}

variable (follows : ∀ state entry, seen (image state) entry = (visit state entry).map image)
include follows

/-- A visit that follows another one through a map reads a file as the other one does. -/
theorem scanRecords_map (fuel : Nat) (bytes : List UInt8) (state : σ) :
    scanRecords seen fuel bytes (image state) =
      (scanRecords visit fuel bytes state).map (Prod.map id image) := by
  induction fuel generalizing bytes state with
  | zero => rfl
  | succ fuel ih =>
    simp only [scanRecords]
    split
    · rfl
    · split
      · rfl
      · split
        · rfl
        · rw [follows]
          cases visit state _ with
          | error fault => rfl
          | ok next => exact ih _ next

/-- A file seen through a map. -/
theorem scanJournal_map (bytes : List UInt8) (state : σ) :
    scanJournal seen bytes (image state) =
      (scanJournal visit bytes state).map (Prod.map id image) := by
  simp only [scanJournal]
  split
  · rfl
  · split
    · rfl
    · exact scanRecords_map follows _ _ state

/-- The files seen through a map. -/
theorem scanDirectory_map (directory : Directory) (rounds index : Nat) (state : σ) :
    scanDirectory seen directory rounds index (image state) =
      (scanDirectory visit directory rounds index state).map (Prod.map id image) := by
  induction rounds generalizing index state with
  | zero => rfl
  | succ rounds ih =>
    simp only [scanDirectory]
    cases directory.files index with
    | none => rfl
    | some bytes =>
      simp only [scanJournal_map follows]
      cases scanJournal visit bytes state with
      | error fault => rfl
      | ok result =>
        obtain ⟨ok, next⟩ := result
        cases ok with
        | false => rfl
        | true => exact ih (index + 1) next

end

/-- The records that the file loop of `recover` reads. -/
def Directory.records (directory : Directory) : Except Fault (Bool × List LogEntry) :=
  scanDirectory (fun read entry => .ok (read ++ [entry])) directory directory.bound 1 []

/-- Reading a list of entries collects it. -/
theorem foldlM_collect (entries read : List LogEntry) :
    entries.foldlM (fun read entry => (.ok (read ++ [entry]) : Except Fault _)) read =
      .ok (read ++ entries) := by
  induction entries generalizing read with
  | nil => simp [pure, Except.pure]
  | cons entry rest ih =>
    rw [foldlM_cons]
    exact (ih (read ++ [entry])).trans (by rw [append_assoc]; rfl)

/-- The file loop reads the entries of well-formed files. -/
theorem Directory.Holds.records_eq {directory : Directory} {files : List JournalFile}
    (holds : directory.Holds files)
    (wellFormed : ∀ entry ∈ files.flatMap JournalFile.entries, entry.WellFormed) :
    directory.records = .ok (true, files.flatMap JournalFile.entries) := by
  have scanned := scanDirectory_files (fun read entry => .ok (read ++ [entry])) holds wellFormed
    0 []
  rw [foldlM_collect] at scanned
  exact scanned

namespace ReplayEngine

/-- `visit`, with the records applied so far. -/
def visitTraced (traced : ReplayState × List LogEntry) (entry : LogEntry) :
    Except Fault (ReplayState × List LogEntry) :=
  if entry.header.sequence ≤ traced.1.currentSeq then .ok traced
  else do
    let book ← applyRecord traced.1.book entry
    .ok (⟨book, entry.header.sequence⟩, traced.2 ++ [entry])

/-- `recover`, with the records it applies. -/
def recoverTraced (directory : Directory) (book : LimitOrderBook) :
    Except Fault (Bool × ReplayState × List LogEntry) :=
  scanDirectory visitTraced directory directory.bound 1 (⟨book, 0⟩, [])

/-- The trace does not change the recovery. -/
theorem recover_eq_traced (directory : Directory) (book : LimitOrderBook) :
    recover directory book =
      (recoverTraced directory book).map (Prod.map id Prod.fst) := by
  have follows (traced : ReplayState × List LogEntry) (entry : LogEntry) :
      visit traced.1 entry = (visitTraced traced entry).map Prod.fst := by
    simp only [visit, visitTraced]
    split
    · rfl
    · cases applyRecord traced.1.book entry <;> rfl
  exact scanDirectory_map follows directory directory.bound 1 (⟨book, 0⟩, [])

/-- Entries above the last sequence that go up are all applied. -/
theorem foldlM_visitTraced {entries : List LogEntry} (increasing : Increasing entries)
    (state : ReplayState) (above : ∀ entry ∈ entries, state.currentSeq < entry.header.sequence)
    (applied : List LogEntry) :
    entries.foldlM visitTraced (state, applied) =
      (entries.foldlM applyRecord state.book).map fun book =>
        (⟨book, lastSequence state.currentSeq entries⟩, applied ++ entries) := by
  induction entries generalizing state applied with
  | nil => simp [pure, Except.pure, Except.map, lastSequence]
  | cons entry rest ih =>
    obtain ⟨first, later⟩ := pairwise_cons.mp increasing
    have new := above entry mem_cons_self
    have kept : ¬entry.header.sequence ≤ state.currentSeq := UInt64.not_le.mpr new
    rw [foldlM_cons, foldlM_cons]
    simp only [visitTraced, kept, if_false]
    cases applyRecord state.book entry with
    | error fault => rfl
    | ok book =>
      have rest := ih later ⟨book, entry.header.sequence⟩ first (applied ++ [entry])
      exact rest.trans (by rw [append_assoc]; rfl)

end ReplayEngine

/-! ## The round trip -/

/-- The file loop visits the entries written to a fresh directory. -/
theorem scanDirectory_writeAll {σ : Type*} (visit : σ → LogEntry → Except Fault σ)
    (maxFileSize : Nat) {written : List (LogEntry × UInt64)}
    (accepted : ∀ entry ∈ written.map Prod.fst, entry.Appended) {directory : Directory}
    (wrote : directory = ((new maxFileSize).writeAll written).directory) (state : σ) :
    scanDirectory visit directory directory.bound 1 state =
      ((written.map Prod.fst).foldlM visit state).map fun state => (true, state) := by
  obtain ⟨files, holds, entries, _⟩ := holds_writeAll maxFileSize written
  rw [← wrote] at holds
  rw [← entries] at accepted ⊢
  exact scanDirectory_files visit holds (fun entry member => (accepted entry member).wellFormed)
    0 state

/-- Entries accepted by `append` and written to a fresh directory, under any size limit, are
visited by the file loop exactly once and in order, and recovery applies every one of them. -/
theorem wal_roundTrip {σ : Type*} (visit : σ → LogEntry → Except Fault σ) (state : σ)
    (book : LimitOrderBook) (maxFileSize : Nat) (written : List (LogEntry × UInt64))
    (accepted : ∀ entry ∈ written.map Prod.fst, entry.Appended)
    (positive : ∀ entry ∈ written.map Prod.fst, 1 ≤ entry.header.sequence)
    (increasing : Increasing (written.map Prod.fst)) :
    let directory := ((new maxFileSize).writeAll written).directory
    scanDirectory visit directory directory.bound 1 state =
        ((written.map Prod.fst).foldlM visit state).map (fun state => (true, state)) ∧
      recoverTraced directory book =
        ((written.map Prod.fst).foldlM applyRecord book).map fun book =>
          (true, ⟨book, lastSequence 0 (written.map Prod.fst)⟩,
            written.map Prod.fst) := by
  intro directory
  refine ⟨scanDirectory_writeAll visit maxFileSize accepted rfl state, ?_⟩
  have above (entry : LogEntry) (member : entry ∈ written.map Prod.fst) :
      0 < entry.header.sequence := by
    have one := positive entry member
    rw [UInt64.le_iff_toNat_le] at one
    rw [UInt64.lt_iff_toNat_lt]
    exact one
  rw [recoverTraced, scanDirectory_writeAll _ maxFileSize accepted rfl,
    foldlM_visitTraced increasing ⟨book, 0⟩ above []]
  cases (written.map Prod.fst).foldlM applyRecord book <;> rfl

/-- Entries without meaning to the book, told apart by their sequence. -/
def markEntry (sequence : UInt64) : LogEntry := LogEntry.make sequence 0 9 []

/-- A mark is appended. -/
theorem markEntry_appended (sequence : UInt64) : (markEntry sequence).Appended :=
  LogEntry.make_appended sequence 0 9 (by decide)

/-- Three entries, each in a file of its own. -/
theorem wal_roundTrip_threeFiles :
    recoverTraced ((new 0).writeAll
        [(markEntry 1, 0), (markEntry 2, 0), (markEntry 5, 0)]).directory (.new none) =
      .ok (true, ⟨.new none, 5⟩, [markEntry 1, markEntry 2, markEntry 5]) :=
  (wal_roundTrip (fun (state : Unit) _ => .ok state) () (.new none) 0
    [(markEntry 1, 0), (markEntry 2, 0), (markEntry 5, 0)]
    (by simp [markEntry_appended]) (by decide) (by decide)).2

/-! ## Truncated files -/

/-- The records that so many bytes of a file hold completely. -/
def wholeRecords : List LogEntry → Nat → List LogEntry
  | [], _ => []
  | entry :: rest, length =>
    if length < entry.bytes.length then []
    else entry :: wholeRecords rest (length - entry.bytes.length)

/-- Bytes that end inside a record lose at least that one. -/
theorem wholeRecords_append {entries : List LogEntry} {length : Nat}
    (shorter : length < (entries.flatMap LogEntry.bytes).length) :
    ∃ entry lost, entries = wholeRecords entries length ++ entry :: lost := by
  induction entries generalizing length with
  | nil => exact absurd shorter (Nat.not_lt_zero _)
  | cons entry rest ih =>
    by_cases cut : length < entry.bytes.length
    · exact ⟨entry, rest, by simp [wholeRecords, cut]⟩
    · rw [flatMap_cons, length_append] at shorter
      obtain ⟨first, lost, split⟩ := @ih (length - entry.bytes.length) (by omega)
      refine ⟨first, lost, ?_⟩
      simp only [wholeRecords, cut, if_false, cons_append, cons.injEq, true_and]
      exact split

/-- A record has a byte. -/
theorem wholeRecords_length_le (entries : List LogEntry) (length : Nat) :
    (wholeRecords entries length).length ≤ length := by
  induction entries generalizing length with
  | nil => exact Nat.zero_le _
  | cons entry rest ih =>
    have header : 24 ≤ entry.bytes.length :=
      WALRecordHeader.image.le_length entry.header entry.payload
    rw [wholeRecords]
    split
    · exact Nat.zero_le _
    · have later := ih (length - entry.bytes.length)
      rw [length_cons]
      omega

section

variable {σ : Type*} (visit : σ → LogEntry → Except Fault σ)

/-- A record that is not complete ends the record loop. -/
theorem scanRecords_cut {entry : LogEntry} (wellFormed : entry.WellFormed) {length : Nat}
    (cut : length < entry.bytes.length) (rest : List UInt8) (fuel : Nat) (state : σ) :
    scanRecords visit (fuel + 1) ((entry.bytes ++ rest).take length) state = .ok (true, state) := by
  have size : entry.bytes.length = WALRecordHeader.image.width + entry.payload.length := by
    rw [LogEntry.bytes, length_append, Layout.encode_length]
  have taken : ((entry.bytes ++ rest).take length).length = length := by
    rw [length_take, length_append]
    omega
  rw [scanRecords]
  by_cases headless : length < WALRecordHeader.image.width
  · rw [if_pos (by omega)]
  · -- The header is whole, so it tells a length that the rest of the bytes does not reach.
    have front : (entry.bytes ++ rest).take length =
        WALRecordHeader.image.encode entry.header ++
          (entry.payload ++ rest).take (length - WALRecordHeader.image.width) := by
      rw [LogEntry.bytes, append_assoc, take_append,
        take_of_length_le (by rw [Layout.encode_length]; omega), Layout.encode_length]
    have missing : ((entry.payload ++ rest).take
        (length - WALRecordHeader.image.width)).length < entry.header.payloadLength.toNat := by
      rw [← wellFormed.length, length_take]
      omega
    rw [if_neg (by omega), front]
    simp only [WALRecordHeader.image.decode_encode, Layout.drop_encode]
    rw [if_pos missing]

/-- The record loop reads the whole records of bytes that end early. -/
theorem scanRecords_take {entries : List LogEntry}
    (wellFormed : ∀ entry ∈ entries, entry.WellFormed) {fuel length : Nat}
    (enough : (wholeRecords entries length).length < fuel) (state : σ) :
    scanRecords visit fuel ((entries.flatMap LogEntry.bytes).take length) state =
      ((wholeRecords entries length).foldlM visit state).map fun state => (true, state) := by
  induction entries generalizing fuel length state with
  | nil =>
    obtain ⟨fuel, rfl⟩ := Nat.exists_eq_succ_of_ne_zero (by omega : fuel ≠ 0)
    rw [flatMap_nil, take_nil]
    rfl
  | cons entry rest ih =>
    obtain ⟨fuel, rfl⟩ := Nat.exists_eq_succ_of_ne_zero (by omega : fuel ≠ 0)
    have here := wellFormed entry mem_cons_self
    rw [flatMap_cons]
    by_cases cut : length < entry.bytes.length
    · rw [scanRecords_cut visit here cut, wholeRecords, if_pos cut]
      rfl
    · rw [take_append, take_of_length_le (by omega), scanRecords_cons visit here,
        wholeRecords, if_neg cut, foldlM_cons]
      cases visit state entry with
      | error fault => rfl
      | ok next =>
        rw [wholeRecords, if_neg cut, length_cons] at enough
        exact ih (fun other member => wellFormed other (mem_cons_of_mem _ member))
          (by omega) next

/-- A file cut inside its header is refused. -/
theorem scanJournal_headless {bytes : List UInt8} (short : bytes.length < image.width)
    (state : σ) : scanJournal visit bytes state = .ok (false, state) := by
  rw [scanJournal, if_pos short]

/-- A file cut behind its header is read up to its last whole record. -/
theorem readsAs_take {file : JournalFile} (valid : file.Valid)
    (wellFormed : ∀ entry ∈ file.entries, entry.WellFormed) {length : Nat}
    (long : image.width ≤ length) (inside : length ≤ file.bytes.length) :
    ReadsAs visit (file.bytes.take length)
      (wholeRecords file.entries (length - image.width)) := by
  intro state
  have front : file.bytes.take length = image.encode file.header ++
      (file.entries.flatMap LogEntry.bytes).take (length - image.width) := by
    rw [JournalFile.bytes, take_append,
      take_of_length_le (by rw [Layout.encode_length]; exact long), Layout.encode_length]
  have few := wholeRecords_length_le file.entries (length - image.width)
  have taken : (file.bytes.take length).length = length := length_take_of_le inside
  rw [front] at taken ⊢
  rw [scanJournal_header visit valid]
  exact scanRecords_take visit wellFormed (by omega) state

end

/-- Cut a file to a length. -/
def Directory.truncate (directory : Directory) (index length : Nat) : Directory :=
  directory.write index (((directory.files index).getD []).take length)

/-- A recovery that returns true has read every file before the first missing one. -/
theorem scanJournal_of_scanDirectory {σ : Type*} {visit : σ → LogEntry → Except Fault σ}
    {directory : Directory} {rounds index : Nat} {state final : σ}
    (returns : scanDirectory visit directory rounds index state = .ok (true, final))
    {offset : Nat} (inside : offset < rounds)
    (present : ∀ other, other ≤ offset → directory.files (index + other) ≠ none) :
    ∃ bytes before after, directory.files (index + offset) = some bytes ∧
      scanJournal visit bytes before = .ok (true, after) := by
  induction rounds generalizing index offset state with
  | zero => exact absurd inside (Nat.not_lt_zero _)
  | succ rounds ih =>
    rw [scanDirectory] at returns
    cases found : directory.files index with
    | none => exact absurd found (present 0 (Nat.zero_le _))
    | some bytes =>
      simp only [found] at returns
      obtain ⟨⟨ok, next⟩, scanned, rest⟩ := bind_eq_ok returns
      cases ok with
      | false => cases rest
      | true =>
        cases offset with
        | zero => exact ⟨bytes, state, next, found, scanned⟩
        | succ offset =>
          have later := @ih (index + 1) next rest offset (by omega) (by
            intro other bound
            have here := present (other + 1) (by omega)
            rwa [show index + (other + 1) = index + 1 + other by omega] at here)
          rwa [show index + 1 + offset = index + (offset + 1) by omega] at later

section

variable {directory : Directory} {files : List JournalFile} {index length : Nat}
  {file : JournalFile}

/-- What each file is read as when one of them is cut behind its header. -/
def truncatedContents (files : List JournalFile) (index length : Nat) (file : JournalFile) :
    List (List UInt8 × List LogEntry) :=
  (files.map fun file => (file.bytes, file.entries)).set index
    (file.bytes.take length, wholeRecords file.entries (length - image.width))

/-- The files after the cut. -/
theorem truncate_present (holds : directory.Holds files) (found : files[index]? = some file)
    (place : Nat) :
    (directory.truncate (index + 1) length).files (place + 1) =
      (truncatedContents files index length file)[place]?.map Prod.fst := by
  obtain ⟨inside, _⟩ := List.getElem?_eq_some_iff.mp found
  have bytes : directory.files (index + 1) = some file.bytes := by
    rw [holds.contents, found]
    rfl
  rw [truncatedContents, List.getElem?_set]
  simp only [truncate, write, bytes, Option.getD_some, length_map]
  by_cases here : place = index
  · simp [here, inside]
  · rw [Function.update_of_ne (by omega), holds.contents, if_neg (Ne.symm here),
      List.getElem?_map, Option.map_map]
    rfl

/-- The records that are left: those before the cut file, its whole ones, and all later ones. -/
theorem truncatedContents_entries (found : files[index]? = some file) :
    (truncatedContents files index length file).flatMap Prod.snd =
      (files.take index).flatMap JournalFile.entries ++
        wholeRecords file.entries (length - image.width) ++
        (files.drop (index + 1)).flatMap JournalFile.entries := by
  obtain ⟨inside, _⟩ := List.getElem?_eq_some_iff.mp found
  rw [truncatedContents, set_eq_take_append_cons_drop,
    if_pos (by rw [length_map]; exact inside)]
  simp only [flatMap_append, flatMap_cons, ← map_take, ← map_drop,
    flatMap_map, append_assoc]

/-- The file loop over a directory with one file cut behind its header. -/
theorem scanDirectory_truncate {σ : Type*} (visit : σ → LogEntry → Except Fault σ)
    (holds : directory.Holds files) (found : files[index]? = some file)
    (wellFormed : ∀ entry ∈ files.flatMap JournalFile.entries, entry.WellFormed)
    (long : image.width ≤ length) (shorter : length < file.bytes.length) (state : σ) :
    scanDirectory visit (directory.truncate (index + 1) length)
        (directory.truncate (index + 1) length).bound 1 state =
      (((files.take index).flatMap JournalFile.entries ++
        wholeRecords file.entries (length - image.width) ++
        (files.drop (index + 1)).flatMap JournalFile.entries).foldlM visit state).map
        fun state => (true, state) := by
  have each (other : JournalFile) (member : other ∈ files) (entry : LogEntry)
      (inside : entry ∈ other.entries) : entry.WellFormed :=
    wellFormed entry (mem_flatMap.mpr ⟨other, member, inside⟩)
  have member := mem_of_getElem? found
  have bound := holds.length_le
  rw [← truncatedContents_entries found]
  apply scanDirectory_reads visit (truncate_present holds found) ?_ _ 0
  · simp only [truncatedContents, length_set, length_map, truncate,
      write]
    omega
  · intro content listed
    rcases mem_or_eq_of_mem_set listed with old | rfl
    · obtain ⟨other, inside, rfl⟩ := mem_map.mp old
      exact scanJournal_bytes visit (holds.valid other inside) (each other inside)
    · exact readsAs_take visit (holds.valid file member) (each file member) long shorter.le

end

/-- Recovery from the start applies all records but one with the sequence 0, which it takes for
applied. -/
theorem ReplayEngine.applied_eq_filter {entries : List LogEntry} (increasing : Increasing entries)
    {book : LimitOrderBook} {state : ReplayState} {applied : List LogEntry}
    (ran : entries.foldlM visitTraced (⟨book, 0⟩, []) = .ok (state, applied)) :
    applied = entries.filter fun entry => entry.header.sequence ≠ 0 := by
  have all {rest : List LogEntry} (goesUp : Increasing rest)
      (above : ∀ entry ∈ rest, (0 : UInt64) < entry.header.sequence)
      (ran : rest.foldlM visitTraced (⟨book, 0⟩, []) = .ok (state, applied)) :
      applied = rest.filter fun entry => entry.header.sequence ≠ 0 := by
    rw [foldlM_visitTraced goesUp ⟨book, 0⟩ above []] at ran
    have kept : (rest.filter fun entry => entry.header.sequence ≠ 0) = rest := by
      apply filter_eq_self.mpr
      intro entry member
      exact decide_eq_true (UInt64.pos_iff_ne_zero.mp (above entry member))
    cases shape : rest.foldlM applyRecord book with
    | error fault =>
      rw [shape] at ran
      cases ran
    | ok final =>
      rw [shape] at ran
      cases ran
      rw [kept]
      rfl
  cases entries with
  | nil =>
    cases ran
    rfl
  | cons first rest =>
    obtain ⟨later, goesUp⟩ := pairwise_cons.mp increasing
    by_cases zero : first.header.sequence = 0
    · have skipped : visitTraced (⟨book, 0⟩, []) first = .ok (⟨book, 0⟩, []) := by
        simp [visitTraced, zero]
      rw [foldlM_cons, skipped] at ran
      rw [filter_cons_of_neg (by simp [zero])]
      exact all goesUp (fun entry member => zero ▸ later entry member) ran
    · apply all increasing ?_ ran
      intro entry member
      rcases mem_cons.mp member with rfl | inside
      · exact UInt64.pos_iff_ne_zero.mpr zero
      · exact Nat.lt_of_le_of_lt (Nat.zero_le _) (later entry inside)

/-- A sequence above another one is not 0. -/
theorem ne_zero_of_above {low high : UInt64} (above : low < high) : high ≠ 0 := by
  intro zero
  rw [zero] at above
  exact absurd above (UInt64.not_lt.mpr (Nat.zero_le _))

/-- If the applied records are the first ones written, no record stands behind a hole. -/
theorem nothing_behind {front lost back : List LogEntry} {first : LogEntry}
    (increasing : Increasing (front ++ first :: lost ++ back))
    (isFirst : ((front ++ back).filter fun entry => entry.header.sequence ≠ 0) <+:
      front ++ first :: lost ++ back) : back = [] := by
  cases back with
  | nil => rfl
  | cons entry rest =>
    have above (other : LogEntry) (member : other ∈ front ++ first :: lost) :
        other.header.sequence < entry.header.sequence :=
      (pairwise_append.mp increasing).2.2 other member entry mem_cons_self
    have kept : entry.header.sequence ≠ 0 :=
      ne_zero_of_above (above first (mem_append_right _ mem_cons_self))
    have reaches : (front.filter fun entry => entry.header.sequence ≠ 0) ++ [entry] <+:
        front ++ first :: lost ++ entry :: rest := by
      rw [filter_append, filter_cons_of_pos (by simpa using kept)] at isFirst
      refine List.IsPrefix.trans ?_ isFirst
      exact prefix_append_right_inj _ |>.mpr (prefix_append [entry] _)
    have place : front ++ [first] <+: front ++ first :: lost ++ entry :: rest := by
      rw [append_assoc]
      exact prefix_append_right_inj _ |>.mpr (prefix_append [first] _)
    have short := length_filter_le (fun entry : LogEntry => entry.header.sequence ≠ 0) front
    have inside := prefix_of_prefix_length_le reaches place (by
      simp only [length_append, length_singleton]
      omega)
    have member : entry ∈ front ++ [first] :=
      inside.subset (mem_append_right _ mem_cons_self)
    have smaller := above entry (by
      rcases mem_append.mp member with old | new
      · exact mem_append_left _ old
      · exact mem_append_right _ (mem_singleton.mp new ▸ mem_cons_self))
    exact absurd smaller (UInt64.lt_irrefl _)

/-- If the applied records are the first of two or more written, the very first is applied. -/
theorem ne_zero_of_filter {first second : LogEntry} {others lost : List LogEntry}
    (increasing : Increasing (first :: second :: others ++ lost))
    (isFirst : ((first :: second :: others).filter fun entry => entry.header.sequence ≠ 0) <+:
      first :: second :: others ++ lost) :
    ∀ entry ∈ first :: second :: others ++ lost, entry.header.sequence ≠ 0 := by
  obtain ⟨above, _⟩ := pairwise_cons.mp increasing
  have next := above second mem_cons_self
  have started : first.header.sequence ≠ 0 := by
    intro zero
    have positive := ne_zero_of_above next
    rw [filter_cons_of_neg (by simp [zero]),
      filter_cons_of_pos (by simpa using positive)] at isFirst
    have same : second = first := (cons_prefix_cons.mp isFirst).1
    rw [same] at next
    exact absurd next (UInt64.lt_irrefl _)
  intro entry member
  rcases mem_cons.mp member with rfl | later
  · exact started
  · exact ne_zero_of_above (above entry later)

/-- Of records that go up, with some lost in the middle, those that are applied are the first ones
only if nothing follows the hole and no record with the sequence 0 was passed over. -/
theorem filter_prefix_iff {front lost back : List LogEntry} {first : LogEntry}
    (increasing : Increasing (front ++ first :: lost ++ back)) :
    ((front ++ back).filter fun entry => entry.header.sequence ≠ 0) <+:
        front ++ first :: lost ++ back ↔
      back = [] ∧ ((∀ entry ∈ front ++ first :: lost ++ back, entry.header.sequence ≠ 0) ∨
        (front ++ back).length ≤ 1) := by
  constructor
  · intro isFirst
    obtain rfl := nothing_behind increasing isFirst
    refine ⟨rfl, ?_⟩
    simp only [append_nil] at isFirst increasing ⊢
    cases front with
    | nil => exact .inr (Nat.zero_le _)
    | cons zeroth tail =>
      cases tail with
      | nil => exact .inr (Nat.le_refl _)
      | cons second others => exact .inl (ne_zero_of_filter increasing isFirst)
  · rintro ⟨rfl, whole⟩
    simp only [append_nil] at whole ⊢
    rcases whole with all | few
    · have kept : (front.filter fun entry => entry.header.sequence ≠ 0) = front := by
        apply filter_eq_self.mpr
        intro entry member
        exact decide_eq_true (all entry (mem_append_left _ member))
      rw [kept]
      exact prefix_append _ _
    · cases front with
      | nil => exact nil_prefix
      | cons only tail =>
        obtain rfl : tail = [] := length_eq_zero_iff.mp (by
          rw [length_cons] at few
          omega)
        by_cases zero : only.header.sequence = 0
        · simp [zero]
        · simp [zero]

section

variable {directory : Directory} {files : List JournalFile} {index length : Nat}
  {file : JournalFile}

/-- A recovery that returns true has found the header of the cut file whole. -/
theorem header_of_scanDirectory {σ : Type*} {visit : σ → LogEntry → Except Fault σ}
    {state final : σ} (holds : directory.Holds files) (found : files[index]? = some file)
    (returns : scanDirectory visit (directory.truncate (index + 1) length)
      (directory.truncate (index + 1) length).bound 1 state = .ok (true, final)) :
    image.width ≤ length := by
  by_contra headless
  obtain ⟨inside, _⟩ := List.getElem?_eq_some_iff.mp found
  have bound := holds.length_le
  have rounds : index < (directory.truncate (index + 1) length).bound := by
    simp only [truncate, write]
    omega
  have before (other : Nat) (early : other ≤ index) :
      (directory.truncate (index + 1) length).files (1 + other) ≠ none := by
    rw [Nat.add_comm 1 other, truncate_present holds found, ne_eq, Option.map_eq_none_iff,
      List.getElem?_eq_none_iff, truncatedContents, length_set, length_map]
    omega
  have cut : (directory.truncate (index + 1) length).files (1 + index) =
      some (file.bytes.take length) := by
    rw [Nat.add_comm 1 index, truncate_present holds found, truncatedContents,
      List.getElem?_set_self (by rw [length_map]; exact inside)]
    rfl
  obtain ⟨read, start, after, isRead, scanned⟩ :=
    scanJournal_of_scanDirectory returns rounds before
  rw [cut] at isRead
  rw [← Option.some.inj isRead,
    scanJournal_headless visit (by rw [length_take]; omega)] at scanned
  cases scanned

/-- No file follows exactly if no entry does. -/
theorem files_none_iff (holds : directory.Holds files)
    (filled : ∀ file ∈ files, file.entries ≠ []) :
    directory.files (index + 2) = none ↔
      (files.drop (index + 1)).flatMap JournalFile.entries = [] := by
  rw [holds.contents, Option.map_eq_none_iff, List.getElem?_eq_none_iff, flatMap_eq_nil_iff]
  constructor
  · intro ends other member
    rw [drop_of_length_le ends] at member
    exact absurd member not_mem_nil
  · intro empty
    by_contra more
    have next : files[index + 1] ∈ files.drop (index + 1) := by
      rw [drop_eq_getElem_cons (by omega)]
      exact mem_cons_self
    exact filled _ (getElem_mem _) (empty _ next)

end

/-- Of a journal in a fresh directory, with one file cut to fewer bytes, a recovery that returns
true has applied the first written records exactly if the cut file is the last one and no record
with the sequence 0 was passed over. -/
theorem applied_prefix_iff {maxFileSize : Nat} {written : List (LogEntry × UInt64)}
    {directory : Directory}
    (wrote : directory = ((new maxFileSize).writeAll written).directory)
    (accepted : ∀ entry ∈ written.map Prod.fst, entry.Appended)
    (increasing : Increasing (written.map Prod.fst)) {index length : Nat} {bytes : List UInt8}
    (present : directory.files (index + 1) = some bytes) (shorter : length < bytes.length)
    {book : LimitOrderBook} {state : ReplayState} {applied : List LogEntry}
    (returns : recoverTraced (directory.truncate (index + 1) length) book =
      .ok (true, state, applied)) :
    applied <+: written.map Prod.fst ↔
      directory.files (index + 2) = none ∧
        ((∀ entry ∈ written.map Prod.fst, entry.header.sequence ≠ 0) ∨
          ∃ read, (directory.truncate (index + 1) length).records = .ok (true, read) ∧
            read.length ≤ 1) := by
  obtain ⟨files, holds, entries, filled⟩ := holds_writeAll maxFileSize written
  rw [← wrote] at holds
  have wellFormed : ∀ entry ∈ files.flatMap JournalFile.entries, entry.WellFormed :=
    fun entry member => (accepted entry (entries ▸ member)).wellFormed
  obtain ⟨file, found, isBytes⟩ : ∃ file, files[index]? = some file ∧ file.bytes = bytes := by
    rw [holds.contents] at present
    exact Option.map_eq_some_iff.mp present
  rw [← isBytes] at shorter
  have long := header_of_scanDirectory holds found returns
  obtain ⟨inside, isFile⟩ := List.getElem?_eq_some_iff.mp found
  have size : file.bytes.length =
      image.width + (file.entries.flatMap LogEntry.bytes).length := by
    rw [JournalFile.bytes, length_append, Layout.encode_length]
  obtain ⟨first, lost, split⟩ := @wholeRecords_append file.entries
    (length - image.width) (by omega)
  have traced := scanDirectory_truncate visitTraced holds found wellFormed long
    shorter (⟨book, 0⟩, [])
  have read := scanDirectory_truncate (fun read entry => .ok (read ++ [entry])) holds found
    wellFormed long shorter []
  rw [foldlM_collect, nil_append] at read
  -- The written records around the cut, and what is left of them.
  have whole : written.map Prod.fst =
      (files.take index).flatMap JournalFile.entries ++
        wholeRecords file.entries (length - image.width) ++ first :: lost ++
        (files.drop (index + 1)).flatMap JournalFile.entries := by
    have around : files = files.take index ++ file :: files.drop (index + 1) := by
      rw [← isFile, getElem_cons_drop, take_append_drop]
    rw [← entries]
    conv_lhs => rw [around, flatMap_append, flatMap_cons, split]
    simp only [append_assoc, cons_append]
  generalize (files.take index).flatMap JournalFile.entries ++
    wholeRecords file.entries (length - image.width) = front at traced read whole
  rw [files_none_iff holds filled]
  generalize (files.drop (index + 1)).flatMap JournalFile.entries = back at traced read whole ⊢
  rw [whole] at increasing ⊢
  have left : Increasing (front ++ back) :=
    List.Pairwise.sublist ((sublist_append_left front (first :: lost)).append_right back)
      increasing
  have isApplied : applied =
      (front ++ back).filter fun entry => entry.header.sequence ≠ 0 := by
    change scanDirectory _ _ _ _ _ = _ at returns
    rw [traced] at returns
    cases shape : (front ++ back).foldlM visitTraced (⟨book, 0⟩, []) with
    | error fault =>
      rw [shape] at returns
      cases returns
    | ok result =>
      rw [shape] at returns
      cases returns
      exact applied_eq_filter left shape
  have isRead : (directory.truncate (index + 1) length).records = .ok (true, front ++ back) := read
  rw [isApplied, filter_prefix_iff increasing, isRead]
  simp

/-- Two entries in a file each: the last file is cut, and the first entry is applied. -/
theorem applied_prefix_iff_lastFile :
    ∃ state applied, recoverTraced
        (((new 0).writeAll [(markEntry 1, 0), (markEntry 2, 0)]).directory.truncate
          2 40) (.new none) = .ok (true, state, applied) ∧
      applied <+: [markEntry 1, markEntry 2] := by
  have returns : ∃ result, recoverTraced
        (((new 0).writeAll [(markEntry 1, 0), (markEntry 2, 0)]).directory.truncate
          2 40) (.new none) = .ok result ∧ result.1 = true ∧ result.2.2 = [markEntry 1] :=
    Returns.exists (by decide +kernel)
  obtain ⟨result, ran, isTrue, _⟩ := returns
  have accepted : ∀ entry ∈ [markEntry 1, markEntry 2], entry.Appended := by
    simp [markEntry_appended]
  have shape : result = (true, result.2.1, result.2.2) := Prod.ext isTrue rfl
  rw [shape] at ran
  refine ⟨result.2.1, result.2.2, ran, ?_⟩
  exact (@applied_prefix_iff 0 [(markEntry 1, 0), (markEntry 2, 0)] _ rfl accepted (by decide) 1
    40 _ rfl (by decide +kernel) _ _ _ ran).mpr ⟨by decide +kernel, .inl (by decide)⟩

/-- Two entries in a file each: the first file is cut behind its header, recovery returns true, and
it has applied the second entry without the first. -/
theorem truncated_first_file_skips :
    ∃ state, recoverTraced
        (((new 0).writeAll [(markEntry 1, 0), (markEntry 2, 0)]).directory.truncate
          1 32) (.new none) = .ok (true, state, [markEntry 2]) ∧
      ¬[markEntry 2] <+: [markEntry 1, markEntry 2] := by
  have returns : ∃ result, recoverTraced
        (((new 0).writeAll [(markEntry 1, 0), (markEntry 2, 0)]).directory.truncate
          1 32) (.new none) = .ok result ∧ result.1 = true ∧ result.2.2 = [markEntry 2] :=
    Returns.exists (by decide +kernel)
  obtain ⟨result, ran, isTrue, applied⟩ := returns
  have shape : result = (true, result.2.1, [markEntry 2]) :=
    Prod.ext isTrue (Prod.ext rfl applied)
  rw [shape] at ran
  exact ⟨result.2.1, ran, by decide⟩

/-! ## Restarts -/

/-- One lifetime of a `DiskJournal`: its size limit and what it writes. -/
structure Lifetime where
  maxFileSize : Nat
  written : List (LogEntry × UInt64)

namespace Lifetime

variable {old : List JournalFile} {history : List Lifetime}

/-- The entries written in the lifetime. -/
def entries (lifetime : Lifetime) : List LogEntry := lifetime.written.map Prod.fst

/-- The directory after a journal was constructed on it, has written and was stopped. -/
def run (directory : Directory) (lifetime : Lifetime) : Directory :=
  ((openOn lifetime.maxFileSize directory).writeAll lifetime.written).directory

/-- The directory after one lifetime after another, from an empty one. -/
def runHistory (history : List Lifetime) : Directory := history.foldl run .empty

/-- Everything written, the first entry first. -/
def historyEntries (history : List Lifetime) : List LogEntry := history.flatMap entries

/-- The file loop reads every entry that any lifetime wrote. -/
def Durable (history : List Lifetime) : Prop :=
  ∃ read, (runHistory history).records = .ok (true, read) ∧
    ∀ entry ∈ historyEntries history, entry ∈ read

/-- At most one lifetime writes. -/
def OneWriter (history : List Lifetime) : Prop :=
  (history.filter fun lifetime => lifetime.written ≠ []).length ≤ 1
  deriving Decidable

/-- One lifetime more. -/
theorem runHistory_append (history : List Lifetime) (lifetime : Lifetime) :
    runHistory (history ++ [lifetime]) = run (runHistory history) lifetime := by
  simp [runHistory]

/-- Its entries. -/
theorem historyEntries_append (history : List Lifetime) (lifetime : Lifetime) :
    historyEntries (history ++ [lifetime]) = historyEntries history ++ lifetime.entries := by
  simp [historyEntries]

/-- A lifetime replaces the first files and leaves the later ones. -/
theorem run_holds {directory : Directory} (holds : directory.Holds old) (lifetime : Lifetime) :
    ∃ files, (run directory lifetime).Holds (files ++ old.drop files.length) ∧
      files.flatMap JournalFile.entries = lifetime.entries ∧
      ∀ file ∈ files, file.entries ≠ [] := by
  obtain ⟨files, wrote, entries, filled⟩ :=
    (wroteOver_openOn holds lifetime.maxFileSize).writeAll
      (fun _ member => absurd member not_mem_nil) lifetime.written
  exact ⟨files, wrote.holds, entries, filled⟩

/-- What the files hold after a history: no empty file, no entry twice, and only what was
written. -/
structure Keeps (history : List Lifetime) (files : List JournalFile) : Prop where
  holds : (runHistory history).Holds files
  filled : ∀ file ∈ files, file.entries ≠ []
  once : (files.flatMap JournalFile.entries).Nodup
  written : ∀ entry ∈ files.flatMap JournalFile.entries, entry ∈ historyEntries history
  some_iff : files = [] ↔ historyEntries history = []

/-- Numbers that go up differ. -/
theorem increasing_nodup {entries : List LogEntry} (increasing : Increasing entries) :
    entries.Nodup := by
  apply List.Pairwise.imp ?_ increasing
  rintro early late smaller rfl
  exact absurd smaller (UInt64.lt_irrefl _)

/-- Nothing to keep. -/
theorem keeps_nil : Keeps [] [] where
  holds := ⟨fun _ => rfl, fun _ member => absurd member not_mem_nil⟩
  filled := fun _ member => absurd member not_mem_nil
  once := nodup_nil
  written := fun _ member => absurd member not_mem_nil
  some_iff := ⟨fun _ => rfl, fun _ => rfl⟩

/-- The files after one more lifetime. -/
theorem Keeps.append (keeps : Keeps history old) (lifetime : Lifetime)
    (increasing : Increasing (historyEntries (history ++ [lifetime]))) :
    ∃ files, Keeps (history ++ [lifetime]) (files ++ old.drop files.length) ∧
      files.flatMap JournalFile.entries = lifetime.entries := by
  obtain ⟨files, holds, entries, filled⟩ := run_holds keeps.holds lifetime
  rw [← runHistory_append] at holds
  rw [historyEntries_append] at increasing
  obtain ⟨_, _, across⟩ := pairwise_append.mp increasing
  obtain ⟨_, newOnce, apart⟩ := nodup_append.mp (increasing_nodup increasing)
  have rest : ((old.drop files.length).flatMap JournalFile.entries).Sublist
      (old.flatMap JournalFile.entries) := (drop_sublist _ _).flatMap _
  refine ⟨files, ⟨holds, ?_, ?_, ?_, ?_⟩, entries⟩
  · intro file member
    rcases mem_append.mp member with new | later
    · exact filled file new
    · exact keeps.filled file (mem_of_mem_drop later)
  · rw [flatMap_append, entries, nodup_append]
    refine ⟨newOnce, keeps.once.sublist rest, ?_⟩
    intro new isNew earlier isOld same
    exact apart earlier (keeps.written earlier (rest.subset isOld)) new isNew same.symm
  · intro entry member
    rw [historyEntries_append]
    rw [flatMap_append, entries] at member
    rcases mem_append.mp member with new | later
    · exact mem_append_right _ new
    · exact mem_append_left _ (keeps.written entry (rest.subset later))
  · rw [historyEntries_append, append_eq_nil_iff, append_eq_nil_iff]
    have newEmpty : files = [] ↔ lifetime.entries = [] := by
      rw [← entries, flatMap_eq_nil_iff]
      constructor
      · rintro rfl file member
        exact absurd member not_mem_nil
      · intro empty
        cases files with
        | nil => rfl
        | cons file others =>
          exact absurd (empty file mem_cons_self) (filled file mem_cons_self)
    constructor
    · rintro ⟨none, remains⟩
      rw [none] at remains
      exact ⟨keeps.some_iff.mp remains, newEmpty.mp none⟩
    · rintro ⟨before, now⟩
      have none := newEmpty.mpr now
      rw [none]
      exact ⟨rfl, keeps.some_iff.mpr before⟩

/-- Every history keeps some files. -/
theorem exists_keeps (increasing : Increasing (historyEntries history)) :
    ∃ files, Keeps history files := by
  induction history using reverseRecOn with
  | nil => exact ⟨[], keeps_nil⟩
  | append_singleton before lifetime ih =>
    have earlier : Increasing (historyEntries before) := by
      rw [historyEntries_append] at increasing
      exact (pairwise_append.mp increasing).1
    obtain ⟨old, keeps⟩ := ih earlier
    obtain ⟨files, kept, _⟩ := keeps.append lifetime increasing
    exact ⟨_, kept⟩

/-- Nothing is written exactly by histories without a writer. -/
theorem historyEntries_eq_nil (history : List Lifetime) :
    historyEntries history = [] ↔
      (history.filter fun lifetime => lifetime.written ≠ []).length = 0 := by
  simp [historyEntries, entries]

/-- A lifetime that writes overwrites the first file of the earlier ones, and an entry is lost. -/
theorem Keeps.exists_lost {before : List Lifetime} {files : List JournalFile}
    (keeps : Keeps before old) {lifetime : Lifetime}
    (increasing : Increasing (historyEntries (before ++ [lifetime])))
    (entries : files.flatMap JournalFile.entries = lifetime.entries)
    (writes : lifetime.written ≠ []) (wrote : historyEntries before ≠ []) :
    ∃ entry ∈ historyEntries before,
      entry ∉ lifetime.entries ++ (old.drop files.length).flatMap JournalFile.entries := by
  have someFile : old ≠ [] := fun none => wrote (keeps.some_iff.mp none)
  obtain ⟨first, others, rfl⟩ := exists_cons_of_ne_nil someFile
  obtain ⟨entry, rest, isFirst⟩ :=
    exists_cons_of_ne_nil (keeps.filled first mem_cons_self)
  have member : entry ∈ first.entries := by
    rw [isFirst]
    exact mem_cons_self
  have earlier : entry ∈ historyEntries before :=
    keeps.written entry (mem_flatMap.mpr ⟨first, mem_cons_self, member⟩)
  refine ⟨entry, earlier, ?_⟩
  intro still
  rw [historyEntries_append] at increasing
  obtain ⟨_, _, apart⟩ := nodup_append.mp (increasing_nodup increasing)
  rcases mem_append.mp still with new | later
  · exact apart entry earlier entry new rfl
  · have opened : files.length ≠ 0 := by
      intro zero
      rw [length_eq_zero_iff.mp zero] at entries
      exact writes (map_eq_nil_iff.mp entries.symm)
    obtain ⟨place, isSucc⟩ := Nat.exists_eq_succ_of_ne_zero opened
    rw [isSucc, drop_succ_cons] at later
    have once := keeps.once
    rw [flatMap_cons, nodup_append] at once
    exact once.2.2 entry member entry
      (((drop_sublist place others).flatMap _).subset later) rfl

/-- Whatever was written in any lifetime can be read after all of them exactly if at most one
lifetime writes: a journal that is constructed again truncates the first file. -/
theorem durable_iff_oneWriter (accepted : ∀ entry ∈ historyEntries history, entry.Appended)
    (increasing : Increasing (historyEntries history)) :
    Durable history ↔ OneWriter history := by
  induction history using reverseRecOn with
  | nil => exact ⟨fun _ => by decide, fun _ => ⟨[], rfl, fun _ member => by cases member⟩⟩
  | append_singleton before lifetime ih =>
    have earlier : Increasing (historyEntries before) := by
      rw [historyEntries_append] at increasing
      exact (pairwise_append.mp increasing).1
    obtain ⟨old, keeps⟩ := exists_keeps earlier
    obtain ⟨files, kept, entries⟩ := keeps.append lifetime increasing
    have read := kept.holds.records_eq fun entry member =>
      (accepted entry (kept.written entry member)).wellFormed
    rw [flatMap_append, entries] at read
    by_cases idle : lifetime.written = []
    · -- A lifetime that writes nothing changes nothing.
      have same : Durable (before ++ [lifetime]) ↔ Durable before := by
        have nothing : lifetime.entries = [] := by simp [Lifetime.entries, idle]
        have still : run (runHistory before) lifetime = runHistory before := by
          rw [run, idle]
          rfl
        simp only [Durable, runHistory_append, historyEntries_append, nothing, still,
          append_nil]
      rw [same, ih (fun entry member => accepted entry (by
        rw [historyEntries_append]
        exact mem_append_left _ member)) earlier]
      simp [OneWriter, filter_append, idle]
    · have count : OneWriter (before ++ [lifetime]) ↔ historyEntries before = [] := by
        rw [historyEntries_eq_nil, OneWriter, filter_append, length_append]
        have one : ([lifetime].filter fun lifetime => lifetime.written ≠ []).length = 1 := by
          simp [idle]
        rw [one]
        omega
      rw [count]
      constructor
      · rintro ⟨found, isFound, all⟩
        rw [read] at isFound
        have same : found = lifetime.entries ++
            (old.drop files.length).flatMap JournalFile.entries := by
          cases isFound
          rfl
        by_contra wrote
        obtain ⟨entry, earlier, lost⟩ := keeps.exists_lost increasing entries idle wrote
        have still := all entry (by
          rw [historyEntries_append]
          exact mem_append_left _ earlier)
        rw [same] at still
        exact lost still
      · intro none
        refine ⟨_, read, ?_⟩
        intro entry member
        rw [historyEntries_append, none, nil_append] at member
        exact mem_append_left _ member

/-- One lifetime writes two entries between two that write nothing. -/
theorem durable_iff_oneWriter_between :
    Durable [⟨0, []⟩, ⟨64, [(markEntry 1, 0), (markEntry 2, 0)]⟩, ⟨0, []⟩] := by
  apply (durable_iff_oneWriter ?_ (by decide)).mpr (by decide)
  simp [historyEntries, entries, markEntry_appended]

/-- A second lifetime writes one entry, and the entry of the first one is in no file any more. -/
theorem restart_loses_entry :
    records (runHistory [⟨64, [(markEntry 1, 0)]⟩, ⟨64, [(markEntry 2, 0)]⟩]) =
        .ok (true, [markEntry 2]) ∧
      ¬Durable [⟨64, [(markEntry 1, 0)]⟩, ⟨64, [(markEntry 2, 0)]⟩] := by
  have read : records
      (runHistory [⟨64, [(markEntry 1, 0)]⟩, ⟨64, [(markEntry 2, 0)]⟩]) =
        .ok (true, [markEntry 2]) := by
    obtain ⟨result, ran, isResult⟩ : ∃ result, records
        (runHistory [⟨64, [(markEntry 1, 0)]⟩, ⟨64, [(markEntry 2, 0)]⟩]) = .ok result ∧
          result = (true, [markEntry 2]) := Returns.exists (by decide +kernel)
    rw [ran, isResult]
  refine ⟨read, ?_⟩
  rintro ⟨found, isFound, all⟩
  rw [read] at isFound
  cases isFound
  exact absurd (all (markEntry 1) (by simp [historyEntries, entries])) (by decide)

end Lifetime

end FluxTrade
