import FluxTrade.Library.Layout
import FluxTrade.Domain

/-!
# The write-ahead log

`MemoryJournal::append` puts a checksummed entry into a queue, and `DiskJournal`
writes queued entries to numbered files, starting a new file when the current
one has reached its size. The file system is a directory of byte lists. Entries
written from a fresh directory are found in its files, in order.
-/

namespace FluxTrade

open List

/-! ## Checksums -/

namespace Checksum

/-- One round of the bitwise loop. -/
def crcBit (crc : UInt32) : UInt32 := (crc >>> 1) ^^^ (0x82F63B78 * (crc &&& 1))

/-- One byte of the checksum. -/
def crcByte (crc : UInt32) (byte : UInt8) : UInt32 := crcBit^[8] (crc ^^^ byte.toUInt32)

/-- `Checksum::crc32c`, the portable loop. -/
def crc32c (bytes : List UInt8) (initial : UInt32) : UInt32 := ~~~(bytes.foldl crcByte initial)

end Checksum

/-! ## Records -/

/-- `WALHeader`. -/
structure WALHeader where
  magic : UInt32
  version : UInt16
  flags : UInt16
  startSequence : UInt64
  timestamp : UInt64
  deriving DecidableEq

/-- `WALRecordHeader`. -/
structure WALRecordHeader where
  sequence : UInt64
  timestamp : UInt64
  messageType : UInt16
  payloadLength : UInt16
  checksum : UInt32
  deriving DecidableEq

/-- `WAL_MAGIC`. -/
def walMagic : UInt32 := 0x58554C46

/-- `WAL_VERSION`. -/
def walVersion : UInt16 := 1

open Layout in
/-- `WALHeader` in memory, 32 bytes. -/
def WALHeader.image : Layout WALHeader :=
  (uint32.pair <| uint16.pair <| uint16.pair <| uint64.pair <|
    uint64.padded [0, 0, 0, 0, 0, 0, 0, 0]).map
    (fun header =>
      (header.magic, header.version, header.flags, header.startSequence, header.timestamp))
    (fun (magic, version, flags, startSequence, timestamp) =>
      ⟨magic, version, flags, startSequence, timestamp⟩)
    fun _ => rfl

namespace WALRecordHeader

open Layout in
/-- The fields before the checksum, 20 bytes. -/
def front : Layout (UInt64 × UInt64 × UInt16 × UInt16) :=
  uint64.pair <| uint64.pair <| uint16.pair uint16

/-- `WALRecordHeader` in memory, 24 bytes. -/
def image : Layout WALRecordHeader :=
  (front.pair Layout.uint32).map
    (fun header => ((header.sequence, header.timestamp, header.messageType,
      header.payloadLength), header.checksum))
    (fun ((sequence, timestamp, messageType, payloadLength), checksum) =>
      ⟨sequence, timestamp, messageType, payloadLength, checksum⟩)
    fun _ => rfl

/-- The checksum over the fields before it, continued over the payload. -/
def crc (header : WALRecordHeader) (payload : List UInt8) : UInt32 :=
  let bytes := front.encode
    (header.sequence, header.timestamp, header.messageType, header.payloadLength)
  Checksum.crc32c payload (~~~(Checksum.crc32c bytes 0xFFFFFFFF))

end WALRecordHeader

/-- `LogEntry`; of the 256 payload bytes only the first `payload_length` are ever read. -/
structure LogEntry where
  header : WALRecordHeader
  payload : List UInt8
  deriving DecidableEq

namespace LogEntry

/-- The entry that `MemoryJournal::append` fills in. -/
def make (sequence timestamp : UInt64) (messageType : UInt16) (data : List UInt8) : LogEntry :=
  let header : WALRecordHeader :=
    ⟨sequence, timestamp, messageType, UInt16.ofNat data.length, 0⟩
  ⟨{ header with checksum := header.crc data }, data⟩

/-- The bytes of an entry in a journal file. -/
def bytes (entry : LogEntry) : List UInt8 :=
  WALRecordHeader.image.encode entry.header ++ entry.payload

/-- The header tells the length of the payload and carries its checksum. -/
structure WellFormed (entry : LogEntry) : Prop where
  length : entry.payload.length = entry.header.payloadLength.toNat
  checksum : entry.header.checksum = entry.header.crc entry.payload

/-- A short entry is well formed. -/
theorem make_wellFormed (sequence timestamp : UInt64) (messageType : UInt16) {data : List UInt8}
    (short : data.length ≤ 256) : (make sequence timestamp messageType data).WellFormed where
  length := by
    change data.length = data.length % 2 ^ 16
    omega
  checksum := rfl

end LogEntry

/-- Entries on their way to disk: `RingBuffer<LogEntry, 65536>` between its two threads. -/
abbrev JournalQueue := List LogEntry

/-- The entries that the journal queue holds. -/
def journalCapacity : Nat := 65536

/-- `MemoryJournal::append`: whether the entry was queued, and the queue after the call. -/
def MemoryJournal.append (queue : JournalQueue) (sequence timestamp : UInt64)
    (messageType : UInt16) (data : List UInt8) : Bool × JournalQueue :=
  if 256 < data.length then (false, queue)
  else if journalCapacity ≤ queue.length then (false, queue)
  else (true, queue ++ [LogEntry.make sequence timestamp messageType data])

/-! ## Files -/

/-- The journal files of a directory by their index. Only finitely many exist. -/
structure Directory where
  files : Nat → Option (List UInt8)
  bound : Nat
  absent : ∀ index, bound ≤ index → files index = none

namespace Directory

/-- A directory without files. -/
def empty : Directory := ⟨fun _ => none, 0, fun _ _ => rfl⟩

/-- Replace the contents of a file, creating it if needed. -/
def write (directory : Directory) (index : Nat) (contents : List UInt8) : Directory where
  files := Function.update directory.files index (some contents)
  bound := max directory.bound (index + 1)
  absent := by
    intro other beyond
    have apart : other ≠ index := by omega
    rw [Function.update_of_ne apart]
    exact directory.absent other (by omega)

/-- Add to the end of a file. -/
def append (directory : Directory) (index : Nat) (contents : List UInt8) : Directory :=
  directory.write index ((directory.files index).getD [] ++ contents)

end Directory

/-- `DiskJournal`, with the directory it writes to. -/
structure DiskJournal where
  maxFileSize : Nat
  isOpen : Bool
  currentBytes : Nat
  fileIndex : Nat
  directory : Directory

namespace DiskJournal

/-- The constructor, on an empty directory. -/
def new (maxFileSize : Nat) : DiskJournal := ⟨maxFileSize, false, 0, 0, .empty⟩

/-- `DiskJournal::rotate_file`: the next file is opened and truncated, and gets its header. -/
def rotateFile (journal : DiskJournal) (sequence now : UInt64) : DiskJournal :=
  let header : WALHeader := ⟨walMagic, walVersion, 0, sequence, now⟩
  { journal with
    isOpen := true
    fileIndex := journal.fileIndex + 1
    directory := journal.directory.write (journal.fileIndex + 1) (WALHeader.image.encode header)
    currentBytes := WALHeader.image.width }

/-- `DiskJournal::write_entry`. -/
def writeEntry (journal : DiskJournal) (entry : LogEntry) (now : UInt64) : DiskJournal :=
  let journal :=
    if !journal.isOpen || decide (journal.maxFileSize ≤ journal.currentBytes) then
      journal.rotateFile entry.header.sequence now
    else journal
  { journal with
    directory := journal.directory.append journal.fileIndex entry.bytes
    currentBytes := journal.currentBytes + WALRecordHeader.image.width +
      entry.header.payloadLength.toNat }

end DiskJournal

/-! ## What the files hold -/

/-- A journal file: its header and its entries. -/
structure JournalFile where
  header : WALHeader
  entries : List LogEntry

/-- The bytes of a file: its header and its records. -/
def JournalFile.bytes (file : JournalFile) : List UInt8 :=
  WALHeader.image.encode file.header ++ file.entries.flatMap LogEntry.bytes

/-- The header names this log and its version. -/
def JournalFile.Valid (file : JournalFile) : Prop :=
  file.header.magic = walMagic ∧ file.header.version = walVersion

/-- The directory holds exactly the files, numbered from one. -/
structure Directory.Holds (directory : Directory) (files : List JournalFile) : Prop where
  contents : ∀ index, directory.files (index + 1) = files[index]?.map JournalFile.bytes
  valid : ∀ file ∈ files, file.Valid

/-- Writing a whole file replaces it, or adds it after the last one. -/
theorem Directory.Holds.write {directory : Directory} {files : List JournalFile}
    (holds : directory.Holds files) (index : Nat) (inside : index ≤ files.length)
    (file : JournalFile) (valid : file.Valid) :
    (directory.write (index + 1) file.bytes).Holds
      (files.take index ++ file :: files.drop (index + 1)) where
  contents := by
    intro other
    have front : (files.take index).length = index := length_take_of_le inside
    simp only [Directory.write]
    by_cases here : other = index
    · rw [here, Function.update_self, getElem?_append_right (Nat.le_of_eq front), front,
        Nat.sub_self, getElem?_cons_zero]
      rfl
    · rw [Function.update_of_ne (by omega), holds.contents]
      by_cases early : other < index
      · rw [getElem?_append_left (by omega), getElem?_take_of_lt early]
      · obtain ⟨later, rfl⟩ : ∃ later, other = index + 1 + later := ⟨other - index - 1, by omega⟩
        rw [getElem?_append_right (by omega), front,
          show index + 1 + later - index = later + 1 by omega, getElem?_cons_succ,
          getElem?_drop]
  valid := by
    intro other member
    rcases mem_append.mp member with early | later
    · exact holds.valid other (mem_of_mem_take early)
    · rcases mem_cons.mp later with rfl | rest
      · exact valid
      · exact holds.valid other (mem_of_mem_drop rest)

/-- A journal that has written the files, the last of which is open. -/
structure DiskJournal.Wrote (journal : DiskJournal) (files : List JournalFile) : Prop where
  holds : journal.directory.Holds files
  index : journal.fileIndex = files.length
  opened : journal.isOpen = true ↔ files ≠ []

/-- A journal that has written the files over the first files of an earlier one. -/
structure DiskJournal.WroteOver (journal : DiskJournal) (old files : List JournalFile) : Prop where
  holds : journal.directory.Holds (files ++ old.drop files.length)
  index : journal.fileIndex = files.length
  opened : journal.isOpen = true ↔ files ≠ []

namespace DiskJournal

/-- Nothing is written yet. -/
theorem wrote_new (maxFileSize : Nat) : (new maxFileSize).Wrote [] where
  holds := ⟨fun _ => rfl, fun _ member => absurd member not_mem_nil⟩
  index := rfl
  opened := by simp [new]

variable {journal : DiskJournal} {old files : List JournalFile}

/-- Written over nothing. -/
theorem wroteOver_nil : journal.WroteOver [] files ↔ journal.Wrote files := by
  constructor
  · rintro ⟨holds, index, opened⟩
    rw [drop_nil, append_nil] at holds
    exact ⟨holds, index, opened⟩
  · rintro ⟨holds, index, opened⟩
    refine ⟨?_, index, opened⟩
    rw [drop_nil, append_nil]
    exact holds

/-- A rotation adds a file without entries, in the place of the next old one. -/
theorem WroteOver.rotateFile (wrote : journal.WroteOver old files) (sequence now : UInt64) :
    (journal.rotateFile sequence now).WroteOver old
      (files ++ [⟨⟨walMagic, walVersion, 0, sequence, now⟩, []⟩]) where
  holds := by
    have written := wrote.holds.write files.length (by simp)
      ⟨⟨walMagic, walVersion, 0, sequence, now⟩, []⟩ ⟨rfl, rfl⟩
    simpa [DiskJournal.rotateFile, JournalFile.bytes, wrote.index, Nat.add_comm] using written
  index := by
    rw [length_append, length_singleton, ← wrote.index]
    rfl
  opened := by simp [DiskJournal.rotateFile]

/-- Bytes added to the open file are an entry added to the last file. -/
theorem WroteOver.appendEntry {front : List JournalFile} {last : JournalFile}
    (wrote : journal.WroteOver old (front ++ [last])) (entry : LogEntry) (currentBytes : Nat) :
    WroteOver { journal with
      directory := journal.directory.append journal.fileIndex entry.bytes
      currentBytes } old (front ++ [{ last with entries := last.entries ++ [entry] }]) where
  holds := by
    have place : journal.fileIndex = front.length + 1 := by
      rw [wrote.index, length_append, length_singleton]
    have contents : journal.directory.files (front.length + 1) = some last.bytes := by
      rw [wrote.holds.contents]
      simp
    have valid : last.Valid := wrote.holds.valid last (by simp)
    have written := wrote.holds.write front.length (by simp)
      { last with entries := last.entries ++ [entry] } valid
    simpa [Directory.append, JournalFile.bytes, place, contents] using written
  index := by
    have index := wrote.index
    rw [length_append, length_singleton] at index ⊢
    exact index
  opened := by
    have opened := wrote.opened
    simpa using opened

/-- A written entry is the last one in the files of this journal, and leaves no file empty. -/
theorem WroteOver.writeEntry (wrote : journal.WroteOver old files) (entry : LogEntry)
    (now : UInt64) :
    ∃ files', (journal.writeEntry entry now).WroteOver old files' ∧
      files'.flatMap JournalFile.entries = files.flatMap JournalFile.entries ++ [entry] ∧
      ((∀ file ∈ files, file.entries ≠ []) → ∀ file ∈ files', file.entries ≠ []) := by
  by_cases rotates : (!journal.isOpen || decide (journal.maxFileSize ≤ journal.currentBytes))
  · have rotated := (wrote.rotateFile entry.header.sequence now).appendEntry entry
      (WALHeader.image.width + WALRecordHeader.image.width + entry.header.payloadLength.toNat)
    simp only [DiskJournal.writeEntry, rotates, if_true]
    refine ⟨_, rotated, by simp, ?_⟩
    intro filled file member
    rcases mem_append.mp member with early | last
    · exact filled file early
    · obtain rfl := mem_singleton.mp last
      simp
  · have isOpen : journal.isOpen = true := by
      cases shape : journal.isOpen with
      | true => rfl
      | false => simp [shape] at rotates
    have nonempty := wrote.opened.mp isOpen
    obtain ⟨front, last, rfl⟩ : ∃ front last, files = front ++ [last] :=
      ⟨files.dropLast, files.getLast nonempty, (dropLast_append_getLast nonempty).symm⟩
    have appended := wrote.appendEntry entry
      (journal.currentBytes + WALRecordHeader.image.width + entry.header.payloadLength.toNat)
    simp only [DiskJournal.writeEntry, rotates]
    refine ⟨_, appended, by simp, ?_⟩
    intro filled file member
    rcases mem_append.mp member with early | isLast
    · exact filled file (mem_append_left _ early)
    · obtain rfl := mem_singleton.mp isLast
      simp

/-- A written entry is the last one in the files. -/
theorem Wrote.writeEntry (wrote : journal.Wrote files) (entry : LogEntry) (now : UInt64) :
    ∃ files', (journal.writeEntry entry now).Wrote files' ∧
      files'.flatMap JournalFile.entries = files.flatMap JournalFile.entries ++ [entry] := by
  obtain ⟨files', wrote', entries, _⟩ := (wroteOver_nil.mpr wrote).writeEntry entry now
  exact ⟨files', wroteOver_nil.mp wrote', entries⟩

end DiskJournal

end FluxTrade
