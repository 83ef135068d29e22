import FluxTrade.Persistence.Crc
import FluxTrade.Persistence.Durability

/-!
# Corrupted records

The checksum of a record covers a stream of bytes: the header up to the checksum,
then the payload. A record on disk whose stream is changed within four
consecutive bytes no longer carries its checksum, whatever the payload's length
and wherever the bytes lie, as long as its length field is kept. The record loop
stops there and has applied the records before it only.
-/

namespace FluxTrade

open WALRecordHeader Layout LogEntry

namespace LogEntry

/-- The bytes that the checksum covers. -/
def stream (entry : LogEntry) : List UInt8 :=
  front.encode (entry.header.sequence, entry.header.timestamp,
    entry.header.messageType, entry.header.payloadLength) ++ entry.payload

/-- The bytes of an entry on disk, with another stream around its checksum. -/
def withStream (entry : LogEntry) (stream : List UInt8) : List UInt8 :=
  stream.take front.width ++ uint32.encode entry.header.checksum ++
    stream.drop front.width

variable {entry : LogEntry}

/-- The two chained calls compute the checksum of the stream. -/
theorem crc_eq (header : WALRecordHeader) (payload : List UInt8) :
    header.crc payload = Checksum.crc32c (stream ⟨header, payload⟩) 0xFFFFFFFF :=
  Checksum.crc32c_append _ _ _

end LogEntry

namespace WALRecordHeader

/-- The header has one image. -/
theorem front_canonical : front.Canonical :=
  uint64_canonical.pair (uint64_canonical.pair
    (uint16_canonical.pair uint16_canonical))

/-- It reads its own bytes. -/
theorem front_local : front.Local :=
  word_local.pair (word_local.pair (word_local.pair word_local))

/-- So does a record's head. -/
theorem image_local : image.Local := (front_local.pair word_local).map

variable {stream : List UInt8} {entry : LogEntry}

/-- What the record loop reads from a record with another stream. -/
theorem decode_withStream (long : front.width ≤ stream.length) (rest : List UInt8) :
    let read := image.decode (entry.withStream stream ++ rest)
    read.checksum = entry.header.checksum ∧
      front.encode (read.sequence, read.timestamp, read.messageType, read.payloadLength) =
        stream.take front.width ∧
      (entry.withStream stream ++ rest).drop image.width = stream.drop front.width ++ rest := by
  have length : (stream.take front.width).length = front.width := List.length_take_of_le long
  have whole : entry.withStream stream ++ rest = stream.take front.width ++
      (uint32.encode entry.header.checksum ++ (stream.drop front.width ++ rest)) := by
    rw [withStream, List.append_assoc, List.append_assoc]
  rw [whole]
  refine ⟨?_, ?_, ?_⟩
  · change uint32.decode ((stream.take front.width ++ _).drop front.width) = _
    rw [List.drop_left' length, decode_encode]
  · change front.encode (front.decode (stream.take front.width ++ _)) = _
    rw [front_local _ _ length.ge, front_canonical _ length.ge, List.take_take, Nat.min_self]
  · change (stream.take front.width ++ _).drop (front.width + uint32.width) = _
    rw [← List.drop_drop, List.drop_left' length, drop_encode]

end WALRecordHeader

/-- Bytes that are changed in a window of at most so many consecutive ones. -/
def Burst (width : Nat) (original changed : List UInt8) : Prop :=
  ∃ front left right back, original = front ++ left ++ back ∧ changed = front ++ right ++ back ∧
    left.length = right.length ∧ left.length ≤ width

section

variable {entry : LogEntry} {changed : List UInt8}

/-- A burst keeps the length. -/
theorem Burst.length {width : Nat} {original : List UInt8} (burst : Burst width original changed) :
    changed.length = original.length := by
  obtain ⟨front, left, right, back, rfl, rfl, length, _⟩ := burst
  simp only [List.length_append, length]

/-- A burst of at most four bytes changes the checksum. -/
theorem Burst.crc32c_ne {original : List UInt8} (burst : Burst 4 original changed)
    (differ : changed ≠ original) (initial : UInt32) :
    Checksum.crc32c original initial ≠ Checksum.crc32c changed initial := by
  obtain ⟨front, left, right, back, rfl, rfl, length, short⟩ := burst
  refine Checksum.crc32c_burst length short ?_ front back initial
  rintro rfl
  exact differ rfl

/-- The checksum that is computed for a record with another stream is that of the stream. -/
theorem WALRecordHeader.crc_withStream (long : front.width ≤ changed.length)
    (rest : List UInt8) :
    (image.decode (entry.withStream changed ++ rest)).crc (changed.drop front.width) =
      Checksum.crc32c changed 0xFFFFFFFF := by
  obtain ⟨_, fields, _⟩ := @decode_withStream changed entry long rest
  rw [crc_eq, LogEntry.stream, fields, List.take_append_drop]

/-- The record loop at a record with a burst: the checksum does not match and it is not visited. -/
theorem scanRecords_burst {σ : Type*} (visit : σ → LogEntry → Except Fault σ)
    (wellFormed : entry.WellFormed) (burst : Burst 4 entry.stream changed)
    (differ : changed ≠ entry.stream)
    (kept : (image.decode (entry.withStream changed)).payloadLength =
      entry.header.payloadLength) (rest : List UInt8) (fuel : Nat) (state : σ) :
    scanRecords visit (fuel + 1) (entry.withStream changed ++ rest) state = .ok (false, state) := by
  have size : changed.length = front.width + entry.payload.length := by
    rw [burst.length, LogEntry.stream, List.length_append, encode_length]
  have long : front.width ≤ changed.length := by omega
  obtain ⟨checksum, _, behind⟩ :=
    @decode_withStream changed entry long rest
  have width : image.width ≤ (entry.withStream changed).length := by
    rw [withStream, List.length_append, List.length_append, encode_length,
      List.length_take_of_le long]
    exact Nat.le_add_right _ _
  rw [← image_local _ rest width] at kept
  have payload : (changed.drop front.width).length =
      entry.header.payloadLength.toNat := by
    rw [List.length_drop, size, Nat.add_sub_cancel_left, wellFormed.length]
  have complete : ¬(changed.drop front.width ++ rest).length <
      entry.header.payloadLength.toNat := by
    rw [List.length_append, payload]
    omega
  have mismatch : entry.header.checksum ≠
      (image.decode (entry.withStream changed ++ rest)).crc
        (changed.drop front.width) := by
    rw [wellFormed.checksum, crc_eq, crc_withStream long]
    exact burst.crc32c_ne differ _
  rw [scanRecords, if_neg (by rw [List.length_append]; omega)]
  simp only [behind, kept, checksum]
  rw [if_neg complete, List.take_left' payload, if_pos mismatch]

/-- A record accepted by `append` with a burst of at most four bytes in its stream fails its
checksum test: reading returns false there, with the records before it visited and itself not. -/
theorem burst_detected {σ : Type*} (visit : σ → LogEntry → Except Fault σ)
    (appended : entry.Appended) (burst : Burst 4 entry.stream changed)
    (differ : changed ≠ entry.stream)
    (kept : (image.decode (entry.withStream changed)).payloadLength =
      entry.header.payloadLength) :
    (∀ rest fuel state, scanRecords visit (fuel + 1) (entry.withStream changed ++ rest) state =
      .ok (false, state)) ∧
    ∀ file : JournalFile, file.Valid → (∀ earlier ∈ file.entries, earlier.WellFormed) →
      ∀ rest state, scanJournal visit (file.bytes ++ (entry.withStream changed ++ rest)) state =
        (file.entries.foldlM visit state).map fun state => (false, state) := by
  have stops := scanRecords_burst visit appended.wellFormed burst differ kept
  refine ⟨stops, fun file valid wellFormed rest state => ?_⟩
  have few := length_le_flatMap_bytes file.entries
  rw [JournalFile.bytes, List.append_assoc, scanJournal_header visit valid]
  obtain ⟨fuel, rounds⟩ : ∃ fuel, (WALHeader.image.encode file.header ++
      (file.entries.flatMap bytes ++ (entry.withStream changed ++ rest))).length + 1 =
        fuel + 1 + file.entries.length := by
    refine ⟨WALHeader.image.width + (entry.withStream changed ++ rest).length +
      ((file.entries.flatMap bytes).length - file.entries.length), ?_⟩
    rw [List.length_append, List.length_append, encode_length]
    omega
  rw [rounds, scanRecords_append visit wellFormed]
  cases file.entries.foldlM visit state with
  | error fault => rfl
  | ok next => exact stops rest fuel next

/-- Four payload bytes of the second record of a file are overwritten. -/
theorem burst_detected_payload :
    let entry := make 2 0 9 [1, 2, 3, 4, 5]
    let changed := entry.stream.take 21 ++ [6, 7, 8, 9]
    scanJournal (fun read entry => .ok (read ++ [entry]))
        (JournalFile.bytes ⟨⟨walMagic, walVersion, 0, 1, 0⟩, [markEntry 1]⟩ ++
          (entry.withStream changed ++ [])) [] = .ok (false, [markEntry 1]) := by
  intro entry changed
  have burst : Burst 4 entry.stream changed :=
    ⟨entry.stream.take 21, [2, 3, 4, 5], [6, 7, 8, 9], [], by decide, by decide, rfl, by decide⟩
  exact (burst_detected (fun read entry => .ok (read ++ [entry]))
    (make_appended 2 0 9 (by decide)) burst (by decide) (by decide)).2
    ⟨⟨walMagic, walVersion, 0, 1, 0⟩, [markEntry 1]⟩ ⟨rfl, rfl⟩
    (by simpa using (markEntry_appended 1).wellFormed) [] []

end

end FluxTrade
