import FluxTrade.Matching.LevelLists
import FluxTrade.Matching.Pools
import FluxTrade.Persistence.Durability
import FluxTrade.Persistence.Recovery

/-!
# The torn tail of a journal file

A crash can leave a file that ends anywhere. Replay then processes the records
that the file holds completely, in order, and nothing of the torn one. Replay puts
every recorded order into the book without matching it, so a long journal can
exhaust the pools of the book, and then replay does not return.
-/

namespace FluxTrade

open Execution CommandType List

/-! ## A journal in one file -/

namespace DiskJournal

/-- The journal writes to a file and has counted its bytes. -/
structure WritesTo (journal : DiskJournal) (index : Nat) (bytes : List UInt8) : Prop where
  isOpen : journal.isOpen = true
  current : journal.fileIndex = index
  contents : journal.directory.files index = some bytes
  counted : journal.currentBytes = bytes.length

variable {journal : DiskJournal} {index : Nat} {bytes : List UInt8} {entry : LogEntry}

/-- The limit stays. -/
theorem maxFileSize_writeEntry (journal : DiskJournal) (entry : LogEntry) (now : UInt64) :
    (journal.writeEntry entry now).maxFileSize = journal.maxFileSize := by
  unfold writeEntry
  dsimp only
  split <;> rfl

/-- Bytes appended to the open file. -/
theorem WritesTo.append (writes : journal.WritesTo index bytes) (wellFormed : entry.WellFormed) :
    WritesTo { journal with
      directory := journal.directory.append journal.fileIndex entry.bytes
      currentBytes := journal.currentBytes + WALRecordHeader.image.width +
        entry.header.payloadLength.toNat } index (bytes ++ entry.bytes) where
  isOpen := writes.isOpen
  current := writes.current
  contents := by
    change Function.update _ _ _ index = _
    rw [writes.current, Function.update_self, writes.contents]
    rfl
  counted := by
    rw [LogEntry.bytes, length_append, length_append, Layout.encode_length,
      wellFormed.length, ← writes.counted]
    exact Nat.add_assoc ..

/-- An entry goes to the open file while that is below its size. -/
theorem WritesTo.writeEntry (writes : journal.WritesTo index bytes) (wellFormed : entry.WellFormed)
    (below : bytes.length < journal.maxFileSize) (now : UInt64) :
    (journal.writeEntry entry now).WritesTo index (bytes ++ entry.bytes) := by
  have stays : ¬(!journal.isOpen || decide (journal.maxFileSize ≤ journal.currentBytes)) := by
    rw [writes.isOpen, writes.counted]
    simp only [Bool.not_true, Bool.false_or, decide_eq_true_eq]
    omega
  rw [DiskJournal.writeEntry, if_neg stays]
  exact writes.append wellFormed

/-- The first entry of a journal opens the first file. -/
theorem writesTo_first (maxFileSize : Nat) (wellFormed : entry.WellFormed) (now : UInt64) :
    ((new maxFileSize).writeEntry entry now).WritesTo 1
      (JournalFile.bytes ⟨⟨walMagic, walVersion, 0, entry.header.sequence, now⟩, [entry]⟩) := by
  have opened : ((new maxFileSize).rotateFile entry.header.sequence now).WritesTo 1
      (WALHeader.image.encode ⟨walMagic, walVersion, 0, entry.header.sequence, now⟩) := by
    refine ⟨rfl, rfl, ?_, (Layout.encode_length _ _).symm⟩
    change Function.update Directory.empty.files 1 (some (WALHeader.image.encode _)) 1 = _
    exact Function.update_self ..
  have appended := opened.append wellFormed
  rw [JournalFile.bytes, flatMap_cons, flatMap_nil, append_nil]
  exact appended

/-- Entries that fit into the open file are added to it. -/
theorem WritesTo.writeAll {written : List (LogEntry × UInt64)}
    (writes : journal.WritesTo index bytes)
    (wellFormed : ∀ entry ∈ written.map Prod.fst, entry.WellFormed)
    (fits : bytes.length + ((written.map Prod.fst).flatMap LogEntry.bytes).length ≤
      journal.maxFileSize) :
    (journal.writeAll written).WritesTo index
      (bytes ++ (written.map Prod.fst).flatMap LogEntry.bytes) := by
  induction written generalizing journal bytes with
  | nil =>
    rw [map_nil, flatMap_nil, append_nil]
    exact writes
  | cons first rest ih =>
    obtain ⟨entry, now⟩ := first
    have header : 24 ≤ entry.bytes.length :=
      WALRecordHeader.image.le_length entry.header entry.payload
    simp only [map_cons, flatMap_cons, length_append] at fits
    have next := writes.writeEntry (wellFormed entry mem_cons_self) (by omega) now
    have later := ih next (fun other member => wellFormed other (mem_cons_of_mem _ member))
      (by rw [maxFileSize_writeEntry, length_append]; omega)
    rw [map_cons, flatMap_cons, ← append_assoc]
    exact later

/-- A journal whose entries fit into one file writes that file. -/
theorem files_writeAll {maxFileSize : Nat} {now : UInt64} {rest : List (LogEntry × UInt64)}
    (wellFormed : ∀ other ∈ entry :: rest.map Prod.fst, other.WellFormed)
    {file : JournalFile}
    (isFile : file = ⟨⟨walMagic, walVersion, 0, entry.header.sequence, now⟩,
      entry :: rest.map Prod.fst⟩) (fits : file.bytes.length ≤ maxFileSize) :
    ((new maxFileSize).writeAll ((entry, now) :: rest)).directory.files 1 = some file.bytes := by
  have whole : file.bytes = JournalFile.bytes
      ⟨⟨walMagic, walVersion, 0, entry.header.sequence, now⟩, [entry]⟩ ++
        (rest.map Prod.fst).flatMap LogEntry.bytes := by
    rw [isFile, JournalFile.bytes, JournalFile.bytes, flatMap_cons, flatMap_cons,
      flatMap_nil, append_nil, append_assoc]
  have first := writesTo_first maxFileSize (wellFormed entry mem_cons_self) now
  rw [whole, length_append] at fits
  rw [whole]
  exact (first.writeAll (fun other member => wellFormed other (mem_cons_of_mem _ member))
    (by rw [maxFileSize_writeEntry]; exact fits)).contents

end DiskJournal

/-! ## Torn files -/

/-- Whole records are records. -/
theorem wholeRecords_sublist (entries : List LogEntry) (length : Nat) :
    (wholeRecords entries length).Sublist entries := by
  induction entries generalizing length with
  | nil => exact nil_sublist _
  | cons entry rest ih =>
    rw [wholeRecords]
    split
    · exact nil_sublist _
    · exact (ih _).cons_cons entry

/-! ## Records and the book -/

/-- What a record needs of the book: a new order its slots, a cancelled one a level of its price. -/
def FindsPlace (book : LimitOrderBook) (entry : LogEntry) : Prop :=
  let image := OrderCommand.image 0
  let command := image.decode entry.payload
  let order := command.toOrder entry.header.timestamp
  entry.payload.length = image.width →
    (entry.header.messageType = newOrder.code.toUInt16 →
      book.Admits order.side order.price) ∧
    (entry.header.messageType = cancelOrder.code.toUInt16 →
      book.Locates command.origClientOrderId)
  deriving Decidable

/-- A record is applied exactly if it finds its place, and keeps the level lists linked. -/
theorem LimitOrderBook.LevelsLinked.applyRecord_decided {book : LimitOrderBook}
    (linked : book.LevelsLinked) (entry : LogEntry) :
    (∃ next, applyRecord book entry = .ok next ∧ next.LevelsLinked) ∧ FindsPlace book entry ∨
      (∃ fault, applyRecord book entry = .error fault) ∧ ¬FindsPlace book entry := by
  unfold applyRecord FindsPlace
  dsimp only
  by_cases sized : entry.payload.length = (OrderCommand.image 0).width
  · simp only [sized, if_true, forall_const]
    by_cases isNew : entry.header.messageType = newOrder.code.toUInt16
    · have other : newOrder.code.toUInt16 ≠ cancelOrder.code.toUInt16 := by
        decide
      simp only [isNew, if_true, forall_const, other, false_implies, and_true]
      rcases linked.insert_decided _ _ with ⟨⟨slot, next, inserted, kept⟩, admits⟩ | ⟨failed, full⟩
      · rw [inserted]
        exact Or.inl ⟨⟨next, rfl, kept⟩, admits⟩
      · rw [failed]
        exact Or.inr ⟨⟨_, rfl⟩, full⟩
    · simp only [isNew, if_false, false_implies, true_and]
      by_cases isCancel : entry.header.messageType = cancelOrder.code.toUInt16
      · simp only [isCancel, if_true, forall_const]
        rcases linked.cancel_decided _ with ⟨⟨known, next, cancelled, kept⟩, locates⟩ |
          ⟨failed, lost⟩
        · rw [cancelled]
          exact Or.inl ⟨⟨next, rfl, kept⟩, locates⟩
        · rw [failed]
          exact Or.inr ⟨⟨_, rfl⟩, lost⟩
      · simp only [isCancel, if_false, false_implies]
        exact Or.inl ⟨⟨book, rfl, linked⟩, trivial⟩
  · simp only [sized, if_false, false_implies]
    exact Or.inl ⟨⟨book, rfl, linked⟩, trivial⟩

/-- Records are applied one after the other exactly if each finds its place. -/
theorem LimitOrderBook.LevelsLinked.applyRecords_iff {book : LimitOrderBook}
    (linked : book.LevelsLinked) (records : List LogEntry) :
    (∃ next, records.foldlM applyRecord book = .ok next) ↔
      Along FindsPlace applyRecord book records := by
  rw [← runAll_eq_foldlM]
  have kept (book : LimitOrderBook) (entry : LogEntry) (next : LimitOrderBook)
      (linked : book.LevelsLinked) (applied : applyRecord book entry = .ok next) :
      next.LevelsLinked := by
    rcases linked.applyRecord_decided entry with ⟨⟨_, same, later⟩, _⟩ | ⟨⟨_, failed⟩, _⟩
    · rw [applied] at same
      cases same
      exact later
    · rw [applied] at failed
      cases failed
  have decided (book : LimitOrderBook) (entry : LogEntry) (linked : book.LevelsLinked) :
      (∃ next, applyRecord book entry = .ok next) ∧ FindsPlace book entry ∨
        (∃ fault, applyRecord book entry = .error fault ∧ True) ∧ ¬FindsPlace book entry := by
    rcases linked.applyRecord_decided entry with ⟨⟨next, applied, _⟩, finds⟩ |
      ⟨⟨fault, failed⟩, lost⟩
    · exact Or.inl ⟨⟨next, applied⟩, finds⟩
    · exact Or.inr ⟨⟨fault, failed, trivial⟩, lost⟩
  rcases runAll_decided records linked kept decided with ⟨returned, along⟩ |
    ⟨⟨_, failed, _⟩, missed⟩
  · exact iff_of_true returned along
  · refine iff_of_false ?_ missed
    rintro ⟨_, returned⟩
    rw [failed] at returned
    cases returned

namespace ReplayEngine

/-- `replay_journal` returns true, has applied the records and no others, in order, and leaves the
sequence of the last one. -/
def Replays (bytes : List UInt8) (state : ReplayState) (records : List LogEntry) : Prop :=
  ∃ book, scanJournal visitTraced bytes (state, []) =
    .ok (true, ⟨book, lastSequence state.currentSeq records⟩, records)

variable {file : JournalFile} {state : ReplayState} {length : Nat}

/-- A file cut anywhere behind its header is read as the records that it holds completely. Replay
returns true and applies exactly these if and only if each finds its place in the book. -/
theorem tornTail_iff {σ : Type*} (visit : σ → LogEntry → Except Fault σ) (valid : file.Valid)
    (appended : ∀ entry ∈ file.entries, entry.Appended) (increasing : Increasing file.entries)
    (above : ∀ entry ∈ file.entries, state.currentSeq < entry.header.sequence)
    (linked : state.book.LevelsLinked) (long : WALHeader.image.width ≤ length)
    (inside : length ≤ file.bytes.length) :
    let whole := wholeRecords file.entries (length - WALHeader.image.width)
    ReadsAs visit (file.bytes.take length) whole ∧
      (Replays (file.bytes.take length) state whole ↔
        Along FindsPlace applyRecord state.book whole) := by
  intro whole
  have wellFormed (entry : LogEntry) (member : entry ∈ file.entries) : entry.WellFormed :=
    (appended entry member).wellFormed
  have part : whole.Sublist file.entries := wholeRecords_sublist file.entries _
  have applied := foldlM_visitTraced (increasing.sublist part) state
    (fun entry member => above entry (part.subset member)) []
  refine ⟨readsAs_take visit valid wellFormed long inside, ?_⟩
  rw [Replays, readsAs_take visitTraced valid wellFormed long inside, applied,
    ← linked.applyRecords_iff]
  cases whole.foldlM applyRecord state.book with
  | error fault =>
    constructor
    · rintro ⟨_, returned⟩
      cases returned
    · rintro ⟨_, returned⟩
      cases returned
  | ok book => exact ⟨fun _ => ⟨book, rfl⟩, fun _ => ⟨book, rfl⟩⟩

/-- A file of two records, cut inside the checksum of the second. -/
theorem tornTail_iff_checksum :
    let file : JournalFile :=
      ⟨⟨walMagic, walVersion, 0, 1, 0⟩, [markEntry 1, markEntry 2]⟩
    Replays (file.bytes.take 78) ⟨.new none, 0⟩ [markEntry 1] :=
  ((@tornTail_iff ⟨⟨walMagic, walVersion, 0, 1, 0⟩, [markEntry 1, markEntry 2]⟩ ⟨.new none, 0⟩ 78
    Unit (fun state _ => .ok state) ⟨rfl, rfl⟩ (by simp [markEntry_appended]) (by decide)
    (by decide) (.new none) (by decide) (by decide)).2).mpr (by decide)

end ReplayEngine

/-! ## A journal that exhausts the pools -/

/-- The record of a new order of the ladder. -/
def ladderRecord (rung : Nat) : LogEntry :=
  (commandInput (limitCommand (UInt64.ofNat (rung + 1)) 1 .buy (Int64.ofNat (2000 - rung))
    1)).logEntry

/-- The file of the first records. -/
def ladderFile (count : Nat) : JournalFile :=
  ⟨⟨walMagic, walVersion, 0, 1, 0⟩, (range count).map ladderRecord⟩

/-- A rung is appended. -/
theorem ladderRecord_appended (rung : Nat) : (ladderRecord rung).Appended := by
  apply LogEntry.make_appended
  rw [Layout.encode_length, OrderCommand.image_width]
  decide

/-- A rung has 96 bytes. -/
theorem length_ladderRecord (rung : Nat) : (ladderRecord rung).bytes.length = 96 := by
  rw [LogEntry.bytes, length_append, Layout.encode_length]
  exact congrArg (24 + ·) (ManagerInput.payload_length _)

/-- Rungs are numbered from one. -/
theorem sequence_ladderRecord {rung : Nat} (inside : rung < 1025) :
    (ladderRecord rung).header.sequence.toNat = rung + 1 := by
  change (rung + 1) % 2 ^ 64 = rung + 1
  omega

/-- Their numbers go up. -/
theorem ladderFile_increasing {count : Nat} (inside : count ≤ 1025) :
    Increasing (ladderFile count).entries := by
  refine pairwise_map.mpr (pairwise_lt_range.imp_of_mem ?_)
  intro early late earlyMember lateMember before
  have earlyInside := mem_range.mp earlyMember
  have lateInside := mem_range.mp lateMember
  rw [UInt64.lt_iff_toNat_lt, sequence_ladderRecord (by omega), sequence_ladderRecord (by omega)]
  omega

/-- The size of the file. -/
theorem length_ladderFile (count : Nat) : (ladderFile count).bytes.length = 32 + count * 96 := by
  have records : (((range count).map ladderRecord).flatMap LogEntry.bytes).length =
      count * 96 := by
    induction count with
    | zero => rfl
    | succ count ih =>
      rw [range_succ, map_append, flatMap_append, length_append, ih,
        map_singleton, flatMap_singleton, length_ladderRecord]
      omega
  rw [JournalFile.bytes, length_append, Layout.encode_length, ladderFile, records]
  rfl

/-- A rung inserts its order. -/
theorem applyRecord_ladderRecord (book : LimitOrderBook) (rung : Nat) :
    applyRecord book (ladderRecord rung) =
      (book.insert (ladderOrder rung) (ladderOrder rung).seqNum).map Prod.snd :=
  ManagerInput.applyRecord_logEntry _ book

/-- The records rest one after the other while levels are free. -/
theorem foldlM_ladderRecord {count : Nat} (inside : count ≤ levelCapacity) :
    ∃ book, ((range count).map ladderRecord).foldlM applyRecord (.new none) = .ok book ∧
      Ladder.Rests ladderOrder count book := by
  induction count with
  | zero => exact ⟨_, rfl, .new ladderOrder none⟩
  | succ count ih =>
    obtain ⟨book, applied, rests⟩ := ih (by omega)
    obtain ⟨slot, book', inserted, rests'⟩ := rests.next ladderOrder_ladder inside
    refine ⟨book', ?_, rests'⟩
    rw [range_succ, map_append, foldlM_append, applied]
    change (applyRecord book (ladderRecord count)).bind _ = _
    rw [applyRecord_ladderRecord, inserted]
    rfl

/-- One rung too many. -/
theorem foldlM_ladderRecord_full :
    ((range (levelCapacity + 1)).map ladderRecord).foldlM applyRecord (.new none) =
      .error .badAlloc := by
  obtain ⟨book, applied, rests⟩ := foldlM_ladderRecord (Nat.le_refl levelCapacity)
  rw [range_succ, map_append, foldlM_append, applied]
  change (applyRecord book (ladderRecord levelCapacity)).bind _ = _
  rw [applyRecord_ladderRecord,
    rests.consistent.insert_of_full _ (rests.full ladderOrder_ladder)]
  rfl

section

variable {count : Nat} {entry : LogEntry}

/-- All rungs are appended. -/
theorem appended_of_mem_ladderFile (member : entry ∈ (ladderFile count).entries) :
    entry.Appended := by
  obtain ⟨rung, _, rfl⟩ := mem_map.mp member
  exact ladderRecord_appended rung

/-- No number is zero. -/
theorem sequence_of_mem_ladderFile (inside : count ≤ 1025)
    (member : entry ∈ (ladderFile count).entries) : 0 < entry.header.sequence := by
  obtain ⟨rung, early, rfl⟩ := mem_map.mp member
  have bound := mem_range.mp early
  rw [UInt64.lt_iff_toNat_lt, sequence_ladderRecord (by omega)]
  exact Nat.succ_pos rung

/-- The file is what a journal with a large enough file size writes. -/
theorem files_ladderFile {maxFileSize : Nat} (positive : 0 < count)
    (fits : (ladderFile count).bytes.length ≤ maxFileSize) :
    ((DiskJournal.new maxFileSize).writeAll
        ((ladderFile count).entries.map fun entry => (entry, 0))).directory.files 1 =
      some (ladderFile count).bytes := by
  obtain ⟨later, rfl⟩ := Nat.exists_eq_succ_of_ne_zero (Nat.ne_of_gt positive)
  have split : (ladderFile (later + 1)).entries =
      ladderRecord 0 :: (range later).map fun rung => ladderRecord (rung + 1) := by
    rw [ladderFile, range_succ_eq_map, map_cons, map_map]
    rfl
  have entries : (((range later).map fun rung => ladderRecord (rung + 1)).map
      fun entry => (entry, (0 : UInt64))).map Prod.fst =
        (range later).map fun rung => ladderRecord (rung + 1) := by
    rw [map_map]
    exact map_id _
  have wellFormed (entry : LogEntry) (member : entry ∈ (ladderFile (later + 1)).entries) :
      entry.WellFormed := (appended_of_mem_ladderFile member).wellFormed
  rw [split] at wellFormed
  rw [split, map_cons]
  refine DiskJournal.files_writeAll ?_ ?_ fits
  · rw [entries]
    exact wellFormed
  · rw [entries, ← split]
    rfl

/-- The records are as replay expects them, and one more than there are levels exhausts the
pools. -/
theorem ladderFile_exhausts (isFull : count = levelCapacity + 1) {maxFileSize : Nat}
    (fits : (ladderFile count).bytes.length ≤ maxFileSize) :
    ((DiskJournal.new maxFileSize).writeAll
        ((ladderFile count).entries.map fun entry => (entry, 0))).directory.files 1 =
      some (ladderFile count).bytes ∧
    (∀ entry ∈ (ladderFile count).entries, entry.Appended ∧ 0 < entry.header.sequence) ∧
    Increasing (ladderFile count).entries ∧
    scanJournal ReplayEngine.visitTraced (ladderFile count).bytes (⟨.new none, 0⟩, []) =
      .error .badAlloc := by
  have capacity : levelCapacity = 1024 := rfl
  have increasing := @ladderFile_increasing count (by omega)
  have positive (entry : LogEntry) (member : entry ∈ (ladderFile count).entries) :
      0 < entry.header.sequence := sequence_of_mem_ladderFile (by omega) member
  have full : (ladderFile count).entries.foldlM applyRecord (.new none) = .error .badAlloc := by
    rw [isFull, ladderFile, foldlM_ladderRecord_full]
  refine ⟨files_ladderFile (by omega) fits, fun entry member =>
    ⟨appended_of_mem_ladderFile member, positive entry member⟩, increasing, ?_⟩
  rw [scanJournal_bytes ReplayEngine.visitTraced ⟨rfl, rfl⟩
    fun entry member => (appended_of_mem_ladderFile member).wellFormed,
    ReplayEngine.foldlM_visitTraced increasing ⟨.new none, 0⟩ positive [], full]
  rfl

end

/-- A journal of 1025 new orders at different prices, written to one file and not cut at all:
replaying it into an empty book ends the process. -/
theorem ladder_not_replayed :
    ((DiskJournal.new 1000000).writeAll
        ((ladderFile 1025).entries.map fun entry => (entry, 0))).directory.files 1 =
      some (ladderFile 1025).bytes ∧
    (∀ entry ∈ (ladderFile 1025).entries, entry.Appended ∧ 0 < entry.header.sequence) ∧
    Increasing (ladderFile 1025).entries ∧
    scanJournal ReplayEngine.visitTraced (ladderFile 1025).bytes (⟨.new none, 0⟩, []) =
      .error .badAlloc :=
  @ladderFile_exhausts 1025 rfl 1000000 (by rw [length_ladderFile]; decide)

end FluxTrade
