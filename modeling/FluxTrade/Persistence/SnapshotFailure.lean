import FluxTrade.Persistence.SnapshotReading

/-!
# Snapshots that fail to load

`load` writes its outputs and clears the book as soon as the header is accepted.
A later failure, a file too short for its counts or a wrong checksum, does not
undo that. Which files fail so is a matter of their bytes alone.
-/

namespace FluxTrade

open Execution SnapshotHeader

/-- What the bytes behind a header hold under its counts. -/
def SnapshotHeader.scan (header : SnapshotHeader) (body : List UInt8) : RecordScan :=
  scanLevels (header.bidLevelCount.toNat + header.askLevelCount.toNat) body

/-- The bytes behind a header hold all records that it counts, with the checksum that it stores. -/
def SnapshotHeader.Covers (header : SnapshotHeader) (body : List UInt8) : Prop :=
  ∃ size, (header.scan body).size = some size ∧
    header.checksum = ~~~snapshotCrc 0xFFFFFFFF (body.take size)

/-- The empty checksum. -/
theorem not_initial : ~~~(0xFFFFFFFF : UInt32) = 0 := by decide

namespace SnapshotReader

/-- The file holds a whole header with the right magic number and version. -/
def HeaderAccepted (bytes : List UInt8) : Prop :=
  image.width ≤ bytes.length ∧
    (image.decode bytes).magic = snapshotMagic ∧
    (image.decode bytes).version = snapshotVersion
  deriving Decidable

/-- What the body of the file holds under the counts of its header. -/
def bodyScan (bytes : List UInt8) : RecordScan :=
  (image.decode bytes).scan (bytes.drop image.width)

/-- The body of the file is whole level and order records, as counted, with the stored checksum. -/
def RecordsWhole (bytes : List UInt8) : Prop :=
  (image.decode bytes).Covers (bytes.drop image.width)

/-- A failed load of the file leaves the book and both outputs as they were. -/
def FailsClean (file : Option (List UInt8)) (book : LimitOrderBook) : Prop :=
  ∀ outSequence outTimestamp result,
    load file book outSequence outTimestamp = .ok result → result.loaded = false →
      result = ⟨false, book, outSequence, outTimestamp⟩

variable {file : Option (List UInt8)} {bytes : List UInt8}

/-- A bad header ends the load. -/
theorem load_rejected (rejected : ∀ bytes ∈ file, ¬HeaderAccepted bytes) (book : LimitOrderBook)
    (outSequence outTimestamp : UInt64) :
    load file book outSequence outTimestamp = .ok ⟨false, book, outSequence, outTimestamp⟩ := by
  cases file with
  | none => rfl
  | some bytes =>
    have refused := rejected bytes rfl
    simp only [load]
    split
    · rfl
    · rename_i long
      rw [if_pos]
      by_contra accepted
      rw [not_or, not_not, not_not] at accepted
      exact refused ⟨Nat.le_of_not_lt long, accepted⟩

/-- The outputs that an accepted file is loaded into do not matter. -/
theorem load_accepted (accepted : HeaderAccepted bytes) (book : LimitOrderBook)
    (outSequence outTimestamp : UInt64) :
    load (some bytes) book outSequence outTimestamp = (do
      let book ← book.clear
      loadBody (image.decode bytes)
        ⟨bytes.drop image.width, 0xFFFFFFFF, book⟩) := by
  obtain ⟨long, magic, version⟩ := accepted
  simp only [load, Nat.not_lt.mpr long, if_false, magic, version, ne_eq, not_true_eq_false, or_self]

section Body

variable {header : SnapshotHeader} {body : List UInt8} {book : LimitOrderBook}
  {bids asks : SnapshotInput} {complete : Bool}

/-- A body that ends within the bids holds nothing else. -/
theorem scan_of_incomplete (readBids : readLevels .buy header.bidLevelCount.toNat
      ⟨body, 0xFFFFFFFF, book⟩ = .ok (false, bids)) :
    header.scan body = scanLevels header.bidLevelCount.toNat body ∧
      (header.scan body).size = none := by
  have missing : (scanLevels header.bidLevelCount.toNat body).size = none :=
    Option.not_isSome_iff_eq_none.mp (Bool.eq_false_iff.mp (readLevels_stops readBids).1.symm)
  have same : header.scan body = scanLevels header.bidLevelCount.toNat body := by
    rw [scan, scanLevels_add, RecordScan.andThen, missing]
  exact ⟨same, same ▸ missing⟩

section

variable
  (readBids :
    readLevels .buy header.bidLevelCount.toNat ⟨body, 0xFFFFFFFF, book⟩ = .ok (true, bids))
include readBids

/-- A body whose bids have been read holds them and the asks behind them. -/
theorem scan_of_complete :
    ∃ width, SnapshotInput.Stops ⟨body, 0xFFFFFFFF, book⟩ bids true (some width) ∧
      header.scan body =
        ⟨(scanLevels header.bidLevelCount.toNat body).levels +
            (scanLevels header.askLevelCount.toNat bids.rest).levels,
          (scanLevels header.bidLevelCount.toNat body).orders +
            (scanLevels header.askLevelCount.toNat bids.rest).orders,
          (scanLevels header.askLevelCount.toNat bids.rest).size.map (width + ·)⟩ := by
  have stops := readLevels_stops readBids
  obtain ⟨width, size⟩ := Option.isSome_iff_exists.mp stops.1.symm
  rw [size] at stops
  refine ⟨width, stops, ?_⟩
  rw [scan, scanLevels_add, RecordScan.andThen, size, (stops.2 width rfl).1]

/-- When the bids have been read, the asks and the checksum decide. -/
theorem covers_iff
    (readAsks : readLevels .sell header.askLevelCount.toNat bids = .ok (complete, asks)) :
    header.Covers body ↔ complete = true ∧ header.checksum = ~~~asks.crc := by
  obtain ⟨width, stops, scanned⟩ := scan_of_complete readBids
  have both := stops.trans (readLevels_stops readAsks)
  have size := congrArg RecordScan.size scanned
  rw [both.1, Covers, size]
  cases all : (scanLevels header.askLevelCount.toNat bids.rest).size with
  | none => simp
  | some more =>
    rw [all] at both
    have crc := (both.2 _ rfl).2
    rw [← not_snapshotCrc] at crc
    simp [crc]

end

/-- After its header is accepted, a load is refused, or the records are whole and read. -/
theorem loadBody_cases {result : SnapshotLoad}
    (ran : loadBody header ⟨body, 0xFFFFFFFF, book⟩ = .ok result) :
    (¬header.Covers body ∧ ∃ left, result = ⟨false, left, header.sequence, header.timestamp⟩) ∨
      header.Covers body ∧ ∃ bids asks,
        readLevels .buy header.bidLevelCount.toNat ⟨body, 0xFFFFFFFF, book⟩ = .ok (true, bids) ∧
        readLevels .sell header.askLevelCount.toNat bids = .ok (true, asks) ∧
        result = ⟨true, asks.book, header.sequence, header.timestamp⟩ := by
  obtain ⟨⟨complete, bids⟩, readBids, rest⟩ := bind_eq_ok ran
  cases complete with
  | false =>
    cases rest
    refine .inl ⟨?_, _, rfl⟩
    rintro ⟨size, whole, _⟩
    cases (scan_of_incomplete readBids).2.symm.trans whole
  | true =>
    obtain ⟨⟨complete, asks⟩, readAsks, rest⟩ := bind_eq_ok rest
    rw [covers_iff readBids readAsks]
    cases complete with
    | false =>
      cases rest
      exact .inl ⟨by simp, _, rfl⟩
    | true =>
      simp only [Bool.not_true, Bool.false_eq_true, if_false] at rest
      split at rest
      · rename_i wrong
        cases rest
        exact .inl ⟨fun all => wrong all.2, _, rfl⟩
      · rename_i right
        obtain ⟨_, _, rest⟩ := bind_eq_ok rest
        cases rest
        exact .inr ⟨⟨rfl, not_not.mp right⟩, bids, asks, readBids, readAsks, rfl⟩

end Body

/-- A file whose loads return fails clean exactly if its header is not accepted or its records are
whole: then, and only then, a failure comes before anything is overwritten, or not at all. -/
theorem failsClean_iff {book : LimitOrderBook}
    (returns : ∃ outSequence outTimestamp result,
      load file book outSequence outTimestamp = .ok result) :
    FailsClean file book ↔ ∀ bytes ∈ file, HeaderAccepted bytes → RecordsWhole bytes := by
  constructor
  · rintro clean bytes rfl accepted
    obtain ⟨_, outTimestamp, result, loads⟩ := returns
    rw [load_accepted accepted] at loads
    obtain ⟨cleared, _, ran⟩ := bind_eq_ok loads
    rcases loadBody_cases ran with ⟨_, left, rfl⟩ | ⟨whole, _⟩
    · -- The same failure overwrites an output that differs from the header's sequence.
      have again := clean ((image.decode bytes).sequence + 1) outTimestamp _
        ((load_accepted accepted book _ _).trans loads) rfl
      have output := congrArg SnapshotLoad.outSequence again
      simp at output
    · exact whole
  · intro whole outSequence outTimestamp result loads failed
    by_cases rejected : ∀ bytes ∈ file, ¬HeaderAccepted bytes
    · rw [load_rejected rejected] at loads
      cases loads
      rfl
    · simp only [not_forall, not_not] at rejected
      obtain ⟨bytes, rfl, accepted⟩ := rejected
      rw [load_accepted accepted] at loads
      obtain ⟨cleared, _, ran⟩ := bind_eq_ok loads
      rcases loadBody_cases ran with ⟨broken, _⟩ | ⟨_, _, _, _, _, rfl⟩
      · exact absurd (whole bytes rfl accepted) broken
      · cases failed

/-- A file too short for a header fails clean, and so does a snapshot of an empty book. -/
theorem failsClean_iff_short :
    FailsClean (some [0x50, 0x41, 0x4E, 0x53]) (LimitOrderBook.new none) ∧
      FailsClean (some (image.encode
        ⟨snapshotMagic, snapshotVersion, 0, 4, 1000, 0, 0, 0⟩)) (LimitOrderBook.new none) := by
  constructor
  · refine (failsClean_iff ⟨0, 0, _, rfl⟩).mpr ?_
    rintro _ ⟨⟩ accepted
    exact absurd accepted (by decide)
  · obtain ⟨result, loads, _⟩ : ∃ result, load (some (image.encode
        ⟨snapshotMagic, snapshotVersion, 0, 4, 1000, 0, 0, 0⟩)) (LimitOrderBook.new none) 0 0 =
          .ok result ∧ True := Returns.exists (by decide +kernel)
    refine (failsClean_iff ⟨0, 0, result, loads⟩).mpr ?_
    rintro _ ⟨⟩ _
    exact ⟨0, by decide +kernel, by decide +kernel⟩

/-- A header that counts one bid level, and no records. -/
def truncatedSnapshot : List UInt8 :=
  image.encode ⟨snapshotMagic, snapshotVersion, 0, 4, 1000, 1, 0, 0⟩

/-- A truncated snapshot fails to load into a book with a bid. The bid is gone and both outputs are
overwritten. -/
theorem failed_load_clears :
    Returns (fun placed : Nat × LimitOrderBook =>
        placed.2.bestPrice .buy = 100 ∧
        Returns (fun result => result.loaded = false ∧ result.book.bestPrice .buy = 0 ∧
            result.outSequence = 4 ∧ result.outTimestamp = 1000)
          (load (some truncatedSnapshot) placed.2 0 0))
      ((LimitOrderBook.new none).insert (OrderSnapshot.dummy ⟨⟨1, 7⟩, 10, 3⟩ 100 .buy) 3) := by
  decide +kernel

end SnapshotReader

end FluxTrade
