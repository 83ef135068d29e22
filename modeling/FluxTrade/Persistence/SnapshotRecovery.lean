import FluxTrade.Persistence.Replay
import FluxTrade.Persistence.Snapshot

/-!
# Recovery from a snapshot and the rest of the log

`latest.meta` names the last snapshot and the journal file to go on with. With
both in place `ReplayEngine::recover` loads the snapshot, skips the records that
it covers and applies the others. The book is the one that recovery from all
journal files yields, wherever the log was cut, as long as the replay never has
two resting orders of one identifier or one price on both sides.
-/

namespace FluxTrade

open Execution ReplayEngine LimitOrderBook List

/-! ## Metadata -/

/-- `METADATA_MAGIC`. -/
def metadataMagic : UInt32 := 0x4D455441

/-- `METADATA_VERSION`. -/
def metadataVersion : UInt16 := 1

/-- `MetadataInfo`. -/
structure MetadataInfo where
  magic : UInt32
  version : UInt16
  flags : UInt16
  latestSnapshotSequence : UInt64
  lastJournalSequence : UInt64
  currentJournalIndex : UInt64
  checksum : UInt32
  padding : UInt32
  deriving DecidableEq

namespace MetadataInfo

open Layout in
/-- The fields before the checksum, 32 bytes. -/
def front : Layout (UInt32 × UInt16 × UInt16 × UInt64 × UInt64 × UInt64) :=
  uint32.pair <| uint16.pair <| uint16.pair <| uint64.pair <| uint64.pair uint64

/-- The fields before the checksum. -/
def fields (info : MetadataInfo) : UInt32 × UInt16 × UInt16 × UInt64 × UInt64 × UInt64 :=
  (info.magic, info.version, info.flags, info.latestSnapshotSequence, info.lastJournalSequence,
    info.currentJournalIndex)

/-- `MetadataInfo` in memory, 40 bytes. -/
def image : Layout MetadataInfo :=
  (front.pair <| Layout.uint32.pair Layout.uint32).map
    (fun info => (info.fields, info.checksum, info.padding))
    (fun ((magic, version, flags, latestSnapshotSequence, lastJournalSequence,
        currentJournalIndex), checksum, padding) =>
      ⟨magic, version, flags, latestSnapshotSequence, lastJournalSequence, currentJournalIndex,
        checksum, padding⟩)
    fun _ => rfl

/-- The checksum over the fields before it. -/
def crc (info : MetadataInfo) : UInt32 := Checksum.crc32c (front.encode info.fields) 0xFFFFFFFF

end MetadataInfo

namespace MetadataManager

/-- The record that `save` writes for the given one. -/
def sealed (info : MetadataInfo) : MetadataInfo :=
  let info := { info with magic := metadataMagic, version := metadataVersion }
  { info with checksum := info.crc }

/-- `MetadataManager::save`: the bytes of `latest.meta`. -/
def save (info : MetadataInfo) : List UInt8 := MetadataInfo.image.encode (sealed info)

/-- `MetadataManager::load` of a file, which may not exist. -/
def load (file : Option (List UInt8)) : Option MetadataInfo :=
  match file with
  | none => none
  | some bytes =>
    if bytes.length < MetadataInfo.image.width then none
    else
      let info := MetadataInfo.image.decode bytes
      if info.magic ≠ metadataMagic ∨ info.version ≠ metadataVersion then none
      else if info.checksum ≠ info.crc then none
      else some info

/-- Saved metadata is loaded with its magic, version and checksum filled in. -/
theorem load_save (info : MetadataInfo) : load (some (save info)) = some (sealed info) := by
  have decoded : MetadataInfo.image.decode (save info) = sealed info :=
    MetadataInfo.image.decode_encode_self (sealed info)
  have long : ¬(save info).length < MetadataInfo.image.width := by
    rw [save, MetadataInfo.image.encode_length]
    exact Nat.lt_irrefl _
  have magic : (sealed info).magic = metadataMagic := rfl
  have version : (sealed info).version = metadataVersion := rfl
  have checksum : (sealed info).checksum = (sealed info).crc := rfl
  simp only [load, long, if_false, decoded, magic, version, checksum, ne_eq, not_true_eq_false,
    or_self]

end MetadataManager

/-! ## Recovery -/

/-- What recovery finds in its directory: the journal files, `latest.meta` and the files
`snapshot_<sequence>.bin`. -/
structure RecoveryDirectory where
  journal : Directory
  metadata : Option (List UInt8)
  snapshots : UInt64 → Option (List UInt8)

namespace ReplayEngine

/-- The rest of `recover` after a snapshot has been found: false if it does not load. -/
def recoverSnapshot (journal : Directory) (info : MetadataInfo) (snapshot : List UInt8)
    (book : LimitOrderBook) : Except Fault (Bool × ReplayState) := do
  let result ← SnapshotReader.load (some snapshot) book 0 0
  if result.loaded then
    scanDirectory visit journal journal.bound info.currentJournalIndex.toNat
      ⟨result.book, result.outSequence⟩
  else .ok (false, ⟨result.book, result.outSequence⟩)

/-- `ReplayEngine::recover`: without metadata or without the snapshot it names, from the first
journal file on. -/
def recoverAll (directory : RecoveryDirectory) (book : LimitOrderBook) :
    Except Fault (Bool × ReplayState) :=
  match MetadataManager.load directory.metadata with
  | none => recover directory.journal book
  | some info =>
    match directory.snapshots info.latestSnapshotSequence with
    | none => recover directory.journal book
    | some snapshot => recoverSnapshot directory.journal info snapshot book

end ReplayEngine

/-! ## Cutting the log -/

/-- The entries up to a sequence. -/
def covered (cut : UInt64) (entries : List LogEntry) : List LogEntry :=
  entries.filter fun entry => entry.header.sequence ≤ cut

/-- The entries above a sequence. -/
def beyond (cut : UInt64) (entries : List LogEntry) : List LogEntry :=
  entries.filter fun entry => ¬entry.header.sequence ≤ cut

/-- The entries up to the cut. -/
theorem mem_covered {cut : UInt64} {entries : List LogEntry} {entry : LogEntry} :
    entry ∈ covered cut entries ↔ entry ∈ entries ∧ entry.header.sequence ≤ cut := by
  simp [covered]

/-- Entries that are all above a sequence. -/
theorem beyond_eq_self {cut : UInt64} {entries : List LogEntry}
    (above : ∀ entry ∈ entries, cut < entry.header.sequence) :
    covered cut entries = [] ∧ beyond cut entries = entries := by
  constructor
  · apply filter_eq_nil_iff.mpr
    intro entry member
    simpa using above entry member
  · apply filter_eq_self.mpr
    intro entry member
    simpa using above entry member

namespace Increasing

variable {entries : List LogEntry}

variable (increasing : Increasing entries) (cut : UInt64)
include increasing

/-- They go up. -/
theorem covered :
    Increasing (covered cut entries) :=
  Pairwise.sublist filter_sublist increasing

/-- So do the others. -/
theorem beyond :
    Increasing (beyond cut entries) :=
  Pairwise.sublist filter_sublist increasing

/-- Entries that go up are those up to a sequence, followed by those above it. -/
theorem split :
    FluxTrade.covered cut entries ++ FluxTrade.beyond cut entries = entries := by
  induction entries with
  | nil => rfl
  | cons entry rest ih =>
    obtain ⟨first, later⟩ := pairwise_cons.mp increasing
    by_cases inside : entry.header.sequence ≤ cut
    · have taken : FluxTrade.covered cut (entry :: rest) =
          entry :: FluxTrade.covered cut rest := filter_cons_of_pos (by simpa using inside)
      have dropped : FluxTrade.beyond cut (entry :: rest) = FluxTrade.beyond cut rest :=
        filter_cons_of_neg (by simpa using inside)
      rw [taken, dropped, cons_append, ih later]
    · have above (other : LogEntry) (member : other ∈ entry :: rest) :
          cut < other.header.sequence := by
        rcases mem_cons.mp member with rfl | behind
        · exact UInt64.not_le.mp inside
        · exact UInt64.lt_trans (UInt64.not_le.mp inside) (first other behind)
      obtain ⟨none, all⟩ := beyond_eq_self above
      rw [none, all, nil_append]

end Increasing

/-! ## Replays of books of the same contents -/

/-- No two resting orders of one identifier, and no price on both sides. -/
structure LimitOrderBook.Distinct (book : LimitOrderBook) : Prop where
  ids : book.contents.ids.Nodup
  apart : NoOverlap book.levelsOf

instance (book : LimitOrderBook) : Decidable book.Distinct :=
  have : Decidable (NoOverlap book.levelsOf) :=
    inferInstanceAs (Decidable (∀ bid ∈ book.levelsOf .buy, ∀ ask ∈ book.levelsOf .sell,
      bid.price ≠ ask.price))
  decidable_of_iff (book.contents.ids.Nodup ∧ NoOverlap book.levelsOf)
    ⟨fun ⟨ids, apart⟩ => ⟨ids, apart⟩, fun distinct => ⟨distinct.ids, distinct.apart⟩⟩

/-- A record does the same to books of the same contents. -/
theorem SameContents.applyRecord {left right : LimitOrderBook} (same : SameContents left right)
    (entry : LogEntry) (distinct : left.Distinct)
    (next : ∀ book, applyRecord left entry = .ok book → book.Distinct) :
    Agree SameContents (applyRecord left entry) (applyRecord right entry) := by
  have last {α : Type} (result : Except Fault (α × LimitOrderBook)) :
      (do let (_, book) ← result; .ok book) = result.map Prod.snd := by
    cases result <;> rfl
  unfold FluxTrade.applyRecord at next ⊢
  dsimp only at next ⊢
  split
  · rename_i sized
    rw [if_pos sized] at next
    split
    · rename_i isNew
      rw [if_pos isNew, last] at next
      rw [last, last]
      apply same.insert
      intro slot book inserted
      exact (next book (by rw [inserted]; rfl)).ids
    · split
      · rw [last, last]
        exact same.cancel distinct.apart _
      · exact .states same
  · exact .states same

/-- Records do the same to books of the same contents, if the first replay stays distinct. -/
theorem SameContents.applyRecords {left right : LimitOrderBook} (same : SameContents left right)
    {entries : List LogEntry}
    (always : Throughout Distinct FluxTrade.applyRecord left entries) :
    Agree SameContents (entries.foldlM FluxTrade.applyRecord left)
      (entries.foldlM FluxTrade.applyRecord right) := by
  rw [← runAll_eq_foldlM, ← runAll_eq_foldlM]
  exact runAll_agree (fun _ _ entry same distinct next => same.applyRecord entry distinct next)
    same always

/-- A record fails only for lack of room. -/
theorem applyRecord_fault {book : LimitOrderBook} (consistent : Consistent book)
    (distinct : book.Distinct) {entry : LogEntry} {fault : Fault}
    (failed : applyRecord book entry = .error fault) : fault = .badAlloc := by
  unfold applyRecord at failed
  dsimp only at failed
  split at failed
  · split at failed
    · rcases consistent.rep.insert ((OrderCommand.image 0).decode entry.payload |>.toOrder
        entry.header.timestamp) ((OrderCommand.image 0).decode entry.payload).sequence with
        ⟨_, _, _, inserted, _⟩ | ⟨full, _⟩
      · rw [inserted] at failed
        cases failed
      · rw [full] at failed
        cases failed
        rfl
    · split at failed
      · obtain ⟨_, _, cancelled, _⟩ := consistent.cancel distinct.apart
          ((OrderCommand.image 0).decode entry.payload).origClientOrderId
        rw [cancelled] at failed
        cases failed
      · cases failed
  · cases failed

/-- A replay that stays distinct fails only for lack of room. -/
theorem applyRecords_fault {book : LimitOrderBook} (consistent : Consistent book)
    {entries : List LogEntry} {fault : Fault}
    (always : Throughout Distinct applyRecord book entries)
    (failed : entries.foldlM applyRecord book = .error fault) : fault = .badAlloc := by
  induction entries generalizing book with
  | nil => cases failed
  | cons entry rest ih =>
    obtain ⟨distinct, later⟩ := always
    cases applied : applyRecord book entry with
    | error other =>
      rw [foldlM_cons, applied] at failed
      cases failed
      exact applyRecord_fault consistent distinct applied
    | ok next =>
      rw [foldlM_cons, applied] at failed
      rw [applied] at later
      have agree := SameContents.applyRecord ⟨consistent, consistent, rfl⟩ entry distinct
        fun other same => by
          cases applied.symm.trans same
          exact later.head
      rw [applied] at agree
      cases agree with
      | states same => exact ih same.ofLeft later failed

namespace ReplayEngine

/-- The books of a replay that skips nothing are those of its records. -/
theorem throughout_applyRecord {entries : List LogEntry} (increasing : Increasing entries)
    {state : ReplayState}
    (above : ∀ entry ∈ entries, state.currentSeq < entry.header.sequence)
    (always : Throughout (fun state => state.book.Distinct) visit state entries) :
    Throughout Distinct applyRecord state.book entries := by
  induction entries generalizing state with
  | nil => exact always
  | cons entry rest ih =>
    obtain ⟨first, later⟩ := pairwise_cons.mp increasing
    obtain ⟨here, visited⟩ := always
    have kept : ¬entry.header.sequence ≤ state.currentSeq :=
      UInt64.not_le.mpr (above entry mem_cons_self)
    refine ⟨here, ?_⟩
    simp only [visit, kept, if_false] at visited
    cases applied : applyRecord state.book entry with
    | error fault => trivial
    | ok book =>
      rw [applied] at visited
      exact @ih later ⟨book, entry.header.sequence⟩ first visited

end ReplayEngine

/-! ## The files that recovery goes on with -/

/-- The entries of journal files. -/
def journalEntries (files : List JournalFile) : List LogEntry :=
  files.flatMap JournalFile.entries

/-- No file before the one at an index holds an entry above the cut. -/
def StartsBefore (cut : UInt64) (files : List JournalFile) (index : Nat) : Prop :=
  ∀ file ∈ files.take index, ∀ entry ∈ file.entries, entry.header.sequence ≤ cut

namespace ReplayEngine

variable {files : List JournalFile} {cut : UInt64} {index : Nat}

/-- The entries above the cut are all in the files from the index on. -/
theorem beyond_drop (early : StartsBefore cut files index) :
    beyond cut (journalEntries (files.drop index)) = beyond cut (journalEntries files) := by
  have none : beyond cut (journalEntries (files.take index)) = [] := by
    apply filter_eq_nil_iff.mpr
    intro entry member
    obtain ⟨file, listed, inside⟩ := mem_flatMap.mp member
    simpa using early file listed entry inside
  conv_rhs => rw [← take_append_drop index files]
  rw [journalEntries, journalEntries, flatMap_append, beyond, beyond, filter_append]
  change _ = beyond cut (journalEntries (files.take index)) ++ _
  rw [none, nil_append]

/-- From the cut on, the files from the index on add the entries above it. -/
theorem foldlM_visit_drop (increasing : Increasing (journalEntries files))
    (early : StartsBefore cut files index) (book : LimitOrderBook) :
    (journalEntries (files.drop index)).foldlM visit ⟨book, cut⟩ =
      ((beyond cut (journalEntries files)).foldlM applyRecord book).map fun book =>
        ⟨book, lastSequence cut (beyond cut (journalEntries files))⟩ := by
  have tail : Increasing (journalEntries (files.drop index)) :=
    Pairwise.sublist ((drop_sublist index files).flatMap _) increasing
  have below (entry : LogEntry)
      (member : entry ∈ covered cut (journalEntries (files.drop index))) :
      entry.header.sequence ≤ cut := (mem_covered.mp member).2
  rw [← tail.split cut, beyond_drop early, foldlM_append,
    foldlM_visit_skipped ⟨book, cut⟩ below]
  exact foldlM_visit (increasing.beyond cut) ⟨book, cut⟩ fun entry member =>
    UInt64.not_le.mp (of_decide_eq_true (mem_filter.mp member).2)

/-- Recovery from all files applies the entries up to the cut and then those above it. -/
theorem recover_cut {journal : Directory} (holds : journal.Holds files)
    (wellFormed : ∀ entry ∈ journalEntries files, entry.WellFormed)
    (increasing : Increasing (journalEntries files))
    (positive : ∀ entry ∈ journalEntries files, 0 < entry.header.sequence)
    {book middle : LimitOrderBook}
    (reached : (covered cut (journalEntries files)).foldlM applyRecord book = .ok middle) :
    recover journal book =
      ((beyond cut (journalEntries files)).foldlM applyRecord middle).map fun book =>
        (true, ⟨book, lastSequence 0 (journalEntries files)⟩) := by
  have applied : (journalEntries files).foldlM applyRecord book =
      (beyond cut (journalEntries files)).foldlM applyRecord middle := by
    conv_lhs => rw [← increasing.split cut]
    rw [foldlM_append, reached]
    rfl
  have visited := foldlM_visit increasing ⟨book, 0⟩ positive
  rw [applied] at visited
  rw [recover_of_holds holds wellFormed]
  change ((journalEntries files).foldlM visit ⟨book, 0⟩).map _ = _
  rw [visited]
  cases (beyond cut (journalEntries files)).foldlM applyRecord middle <;> rfl

/-- Recovery from a snapshot that loads applies the entries above the cut. -/
theorem recoverSnapshot_cut {journal : Directory} (holds : journal.Holds files)
    (wellFormed : ∀ entry ∈ journalEntries files, entry.WellFormed)
    (increasing : Increasing (journalEntries files)) (early : StartsBefore cut files index)
    {info : MetadataInfo} (isIndex : info.currentJournalIndex.toNat = index + 1)
    {snapshot : List UInt8} {book restored : LimitOrderBook} {timestamp : UInt64}
    (loaded : SnapshotReader.load (some snapshot) book 0 0 =
      .ok ⟨true, restored, cut, timestamp⟩) :
    recoverSnapshot journal info snapshot book =
      ((beyond cut (journalEntries files)).foldlM applyRecord restored).map fun book =>
        (true, ⟨book, lastSequence cut (beyond cut (journalEntries files))⟩) := by
  have scanned := scanDirectory_files visit holds wellFormed index ⟨restored, cut⟩
  have visited := foldlM_visit_drop increasing early restored
  rw [journalEntries] at visited
  rw [recoverSnapshot, loaded]
  simp only [bind, Except.bind, if_true, isIndex, scanned, visited]
  cases (beyond cut (journalEntries files)).foldlM applyRecord restored <;> rfl

end ReplayEngine

/-! ## The same book -/

/-- The directory holds the journal files, a snapshot of the book after the entries up to a
sequence, and metadata that names it and a journal file before which no later entry stands. -/
structure RecoveryDirectory.CutAt (directory : RecoveryDirectory) (files : List JournalFile)
    (cut : UInt64) : Prop where
  holds : directory.journal.Holds files
  snapshot : ∃ listener taken unnamed timestamp bytes,
    (covered cut (journalEntries files)).foldlM visit ⟨.new listener, 0⟩ =
      .ok taken ∧
    SnapshotWriter.save unnamed taken.book cut timestamp = .ok bytes ∧
    directory.snapshots cut = some bytes
  metadata : ∃ info index, directory.metadata = some (MetadataManager.save info) ∧
    info.latestSnapshotSequence = cut ∧ info.currentJournalIndex.toNat = index + 1 ∧
    index < files.length ∧ StartsBefore cut files index

/-- The book that a snapshot is taken of has the contents that the replay of all entries has at
the cut. -/
theorem ReplayEngine.exists_middle {entries : List LogEntry} {cut : UInt64}
    (increasing : Increasing entries) (positive : ∀ entry ∈ entries, 0 < entry.header.sequence)
    {listener watcher : Option (List BookEvent)}
    (always : Throughout Distinct applyRecord (.new listener) entries)
    {taken : ReplayState}
    (ran : (covered cut entries).foldlM visit ⟨.new watcher, 0⟩ = .ok taken) :
    ∃ middle, (covered cut entries).foldlM applyRecord (.new listener) = .ok middle ∧
      SameContents middle taken.book := by
  have start : SameContents (.new listener) (.new watcher) :=
    ⟨Consistent.new listener, Consistent.new watcher, rfl⟩
  rw [← increasing.split cut] at always
  have agree := start.applyRecords always.front
  rw [foldlM_visit (increasing.covered cut) ⟨.new watcher, 0⟩ fun entry member =>
    positive entry (mem_covered.mp member).1] at ran
  cases watched : (covered cut entries).foldlM applyRecord (.new watcher) with
  | error fault =>
    rw [watched] at ran
    cases ran
  | ok book =>
    rw [watched] at ran agree
    obtain rfl : _ = taken := Except.ok.inj ran
    generalize (covered cut entries).foldlM applyRecord (.new listener) = left at agree
    cases agree with
    | states same => exact ⟨_, rfl, same⟩

/-- If the replay of the records returns, recovery from all journal files yields its book, and
recovery from the snapshot and the files named by the metadata, into any book, yields the same one.
The replay fails only for lack of room, and then so do both recoveries. -/
theorem recoverAll_sameBook {directory : RecoveryDirectory} {files : List JournalFile}
    {cut : UInt64} (cutAt : directory.CutAt files cut)
    (wellFormed : ∀ entry ∈ journalEntries files, entry.WellFormed)
    (increasing : Increasing (journalEntries files))
    (positive : ∀ entry ∈ journalEntries files, 1 ≤ entry.header.sequence)
    {listener : Option (List BookEvent)}
    (always : Throughout (fun state => state.book.Distinct) visit
      ⟨.new listener, 0⟩ (journalEntries files))
    {target : LimitOrderBook} (consistent : Consistent target) :
    (∀ state, (journalEntries files).foldlM visit ⟨.new listener, 0⟩ = .ok state →
      recoverAll { directory with metadata := none } (.new listener) =
          .ok (true, state) ∧
        ∃ restored, recoverAll directory target = .ok (true, restored) ∧
          SameBook state.book restored.book) ∧
    ∀ fault, (journalEntries files).foldlM visit ⟨.new listener, 0⟩ = .error fault →
      fault = .badAlloc ∧
        recoverAll { directory with metadata := none } (.new listener) =
          .error .badAlloc ∧
        recoverAll directory target = .error .badAlloc := by
  obtain ⟨holds, ⟨watcher, taken, unnamed, timestamp, bytes, ran, saved, stored⟩,
    info, index, metadata, isCut, isIndex, inside, early⟩ := cutAt
  have above (entry : LogEntry) (member : entry ∈ journalEntries files) :
      0 < entry.header.sequence := by
    have one := positive entry member
    rw [UInt64.le_iff_toNat_le] at one
    rw [UInt64.lt_iff_toNat_lt]
    exact one
  have always := throughout_applyRecord increasing above always
  obtain ⟨middle, reached, same⟩ := exists_middle increasing above always ran
  obtain ⟨bytes', restored, saved', loaded, kept, contents⟩ := SnapshotReader.load_save
    same.ofRight consistent unnamed cut timestamp 0 0
  obtain rfl : bytes' = bytes := by
    rw [saved] at saved'
    exact (Except.ok.inj saved').symm
  -- Both recoveries go on with the entries above the cut, from books of the same contents.
  have rebuilt : SameContents middle restored :=
    ⟨same.ofLeft, kept, by rw [same.contents, contents]⟩
  have rest : Throughout Distinct applyRecord middle
      (beyond cut (journalEntries files)) := by
    rw [← increasing.split cut] at always
    exact always.later (by rw [runAll_eq_foldlM]; exact reached)
  have whole := recover_cut holds wellFormed increasing above reached
  have tail := recoverSnapshot_cut holds wellFormed increasing early isIndex loaded
  have fromSnapshot : recoverAll directory target =
      recoverSnapshot directory.journal (MetadataManager.sealed info) bytes'
        target := by
    have named : directory.snapshots (MetadataManager.sealed info).latestSnapshotSequence =
        some bytes' := by
      rw [← stored, ← isCut]
      rfl
    simp only [recoverAll, metadata, MetadataManager.load_save, named]
  change recoverAll directory target =
    recoverSnapshot directory.journal info bytes' target at fromSnapshot
  have agree : Agree (fun whole restored : Bool × ReplayState => restored.1 = true ∧
        SameBook whole.2.book restored.2.book)
      (recover directory.journal (.new listener))
      (recoverAll directory target) := by
    rw [whole, fromSnapshot, tail]
    exact (rebuilt.applyRecords rest).map fun _ _ same => ⟨rfl, same.sameBook⟩
  have replayed := recover_of_holds holds wellFormed (.new listener)
  change (∀ state, _ → recover directory.journal (.new listener) = _ ∧ _) ∧
    ∀ fault, _ → _ ∧ recover directory.journal (.new listener) = _ ∧ _
  generalize recoverAll directory target = result at agree
  change _ = ((journalEntries files).foldlM visit ⟨.new listener, 0⟩).map _ at replayed
  refine ⟨fun state ran => ?_, fun fault failed => ?_⟩
  · rw [ran] at replayed
    rw [replayed] at agree ⊢
    cases agree with
    | @states _ restored same => exact ⟨rfl, restored.2, by rw [← same.1], same.2⟩
  · rw [failed] at replayed
    rw [replayed] at agree ⊢
    cases agree
    rw [foldlM_visit increasing ⟨.new listener, 0⟩ above] at failed
    obtain rfl : fault = .badAlloc := by
      cases applied : (journalEntries files).foldlM applyRecord (.new listener) with
      | error other =>
        rw [applied] at failed
        cases failed
        exact applyRecords_fault (Consistent.new listener) always applied
      | ok book =>
        rw [applied] at failed
        cases failed
    exact ⟨rfl, rfl, rfl⟩

/-- The entry of a command on order 7 or 8. -/
def sampleEntry (type : CommandType) (sequence orderId : UInt64) (price : Price) (side : Side) :
    LogEntry :=
  LogEntry.make sequence 0 type.code.toUInt16 ((OrderCommand.image 0).encode
    ⟨type, sequence, 0, orderId, orderId, 1, 1, price, 10, side, .limit, .gtc, 0⟩)

/-- A bid and an ask in the first file, the cancellation of the bid in the second one. -/
def sampleFiles : List JournalFile :=
  [⟨⟨walMagic, walVersion, 0, 1, 0⟩,
      [sampleEntry .newOrder 1 7 100 .buy, sampleEntry .newOrder 2 8 105 .sell]⟩,
    ⟨⟨walMagic, walVersion, 0, 3, 0⟩, [sampleEntry .cancelOrder 3 7 100 .buy]⟩]

/-- The sample is well formed. -/
theorem sampleEntry_wellFormed (type : CommandType) (sequence orderId : UInt64) (price : Price)
    (side : Side) : (sampleEntry type sequence orderId price side).WellFormed := by
  apply LogEntry.make_wellFormed
  rw [(OrderCommand.image 0).encode_length]
  decide

/-- A directory with the two files. -/
def sampleJournal : Directory :=
  sampleFiles.zipIdx.foldl (fun directory (file, index) => directory.write (index + 1) file.bytes)
    .empty

/-- It is in the files. -/
theorem sampleJournal_holds : sampleJournal.Holds sampleFiles := by
  have none : Directory.empty.Holds [] :=
    ⟨fun _ => rfl, fun _ member => absurd member not_mem_nil⟩
  have one := none.write 0 (Nat.le_refl _) ⟨⟨walMagic, walVersion, 0, 1, 0⟩,
    [sampleEntry .newOrder 1 7 100 .buy, sampleEntry .newOrder 2 8 105 .sell]⟩ ⟨rfl, rfl⟩
  exact one.write 1 (Nat.le_refl _) ⟨⟨walMagic, walVersion, 0, 3, 0⟩,
    [sampleEntry .cancelOrder 3 7 100 .buy]⟩ ⟨rfl, rfl⟩

/-- A snapshot after the first entry, and metadata that names the first file. Both recoveries return
a book with the ask alone. -/
theorem recoverAll_sameBook_twoFiles :
    ∃ directory whole restored, RecoveryDirectory.CutAt directory sampleFiles 1 ∧
      recoverAll { directory with metadata := none } (.new none) =
        .ok (true, whole) ∧
      recoverAll directory (.new none) = .ok (true, restored) ∧
      SameBook whole.book restored.book ∧
      whole.book.bestPrice .buy = 0 ∧ whole.book.bestPrice .sell = 105 := by
  have increasing : Increasing (journalEntries sampleFiles) := by decide +kernel
  have positive : ∀ entry ∈ journalEntries sampleFiles, 1 ≤ entry.header.sequence := by
    decide +kernel
  have above : ∀ entry ∈ journalEntries sampleFiles, 0 < entry.header.sequence := by
    decide +kernel
  have always : Throughout (fun state => state.book.Distinct) visit
      ⟨.new none, 0⟩ (journalEntries sampleFiles) := by decide +kernel
  have wellFormed : ∀ entry ∈ journalEntries sampleFiles, entry.WellFormed := by
    simp [journalEntries, sampleFiles, sampleEntry_wellFormed]
  obtain ⟨taken, ran, _⟩ : ∃ taken, (covered 1 (journalEntries sampleFiles)).foldlM
      visit ⟨.new none, 0⟩ = .ok taken ∧ taken.currentSeq = 1 :=
    Returns.exists (by decide +kernel)
  obtain ⟨whole, replayed, bid, ask⟩ : ∃ whole, (journalEntries sampleFiles).foldlM
      visit ⟨.new none, 0⟩ = .ok whole ∧ whole.book.bestPrice .buy = 0 ∧
        whole.book.bestPrice .sell = 105 :=
    Returns.exists (by decide +kernel)
  obtain ⟨_, _, same⟩ := exists_middle increasing above
    (throughout_applyRecord increasing above always) ran
  have saved := SnapshotWriter.save_eq same.ofRight (fun _ => 0) 1 1000
  let info : MetadataInfo := ⟨0, 0, 0, 1, 1, 1, 0, 0⟩
  have cutAt : RecoveryDirectory.CutAt
      ⟨sampleJournal, some (MetadataManager.save info), fun _ => some _⟩ sampleFiles 1 :=
    ⟨sampleJournal_holds, ⟨none, taken, fun _ => 0, 1000, _, ran, saved, rfl⟩,
      info, 0, rfl, rfl, rfl, by decide, fun _ member => absurd member not_mem_nil⟩
  obtain ⟨fromJournal, restored, fromSnapshot, sameBook⟩ := (recoverAll_sameBook cutAt wellFormed
    increasing positive always (Consistent.new none)).1 whole replayed
  exact ⟨_, whole, restored, cutAt, fromJournal, fromSnapshot, sameBook, bid, ask⟩

end FluxTrade
