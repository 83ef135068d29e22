import FluxTrade.Persistence.SnapshotFailure
import FluxTrade.Persistence.SnapshotReading

/-!
# Snapshots with one flipped bit

The checksum of a snapshot covers its records and not its header. A flipped bit
in a record is found unless it changes how many orders are read. In the header,
the magic number, the version and the checksum itself are compared, the level
counts steer the reading, the flags, the timestamp and the padding do not matter,
and the sequence is believed. What a changed count comes to depends on the bytes
that are read under it.
-/

namespace FluxTrade

open BitErrors Execution SnapshotHeader SnapshotWriter Layout

/-- The load is refused, or it restores the saved book and sequence. -/
def SnapshotLoad.Honest (book : LimitOrderBook) (sequence : UInt64) (result : SnapshotLoad) :
    Prop :=
  result.loaded = false ∨ result.outSequence = sequence ∧ SameBook result.book book

/-- How many orders the levels of a book have, in the order of the file. -/
def levelSizes (book : LimitOrderBook) : List Nat :=
  (book.levelsOf .buy ++ book.levelsOf .sell).map fun level => level.orders.length

/-- The place belongs to `sequence`. -/
def SequenceAt (place : Nat) : Prop := 8 ≤ place ∧ place < 16

/-- The place belongs to a count: `bid_level_count`, `ask_level_count` or the `order_count` of a
level. -/
def CountAt (book : LimitOrderBook) (place : Nat) : Prop :=
  24 ≤ place ∧ place < 32 ∨ ∃ inBody, place = 40 + inBody ∧ OrderCountAt (levelSizes book) inBody

/-! ## The header -/

open Layout in
/-- The fields of a header at their places. -/
theorem SnapshotHeader.decode_eq (bytes : List UInt8) :
    image.decode bytes = ⟨uint32.decode (bytes.drop 0), uint16.decode (bytes.drop 4),
      uint16.decode (bytes.drop 6), uint64.decode (bytes.drop 8), uint64.decode (bytes.drop 16),
      uint32.decode (bytes.drop 24), uint32.decode (bytes.drop 28),
      uint32.decode (bytes.drop 32)⟩ := by
  change (⟨uint32.decode bytes, uint16.decode (bytes.drop 4), uint16.decode ((bytes.drop 4).drop 2),
    uint64.decode (((bytes.drop 4).drop 2).drop 2),
    uint64.decode ((((bytes.drop 4).drop 2).drop 2).drop 8),
    uint32.decode (((((bytes.drop 4).drop 2).drop 2).drop 8).drop 8),
    uint32.decode ((((((bytes.drop 4).drop 2).drop 2).drop 8).drop 8).drop 4),
    uint32.decode (((((((bytes.drop 4).drop 2).drop 2).drop 8).drop 8).drop 4).drop 4)⟩ :
    SnapshotHeader) = _
  simp only [List.drop_drop, List.drop_zero]

namespace SnapshotHeader

section

variable (bytes : List UInt8)

/-- Bytes 0 to 3. -/
theorem magic_at :
    (image.decode bytes).magic = uint32.decode (bytes.drop 0) :=
  congrArg magic (decode_eq bytes)

/-- Bytes 4 and 5. -/
theorem version_at :
    (image.decode bytes).version = uint16.decode (bytes.drop 4) :=
  congrArg version (decode_eq bytes)

/-- Bytes 8 to 15. -/
theorem sequence_at :
    (image.decode bytes).sequence = uint64.decode (bytes.drop 8) :=
  congrArg sequence (decode_eq bytes)

/-- Bytes 24 to 27. -/
theorem bidLevelCount_at :
    (image.decode bytes).bidLevelCount = uint32.decode (bytes.drop 24) :=
  congrArg bidLevelCount (decode_eq bytes)

/-- Bytes 28 to 31. -/
theorem askLevelCount_at :
    (image.decode bytes).askLevelCount = uint32.decode (bytes.drop 28) :=
  congrArg askLevelCount (decode_eq bytes)

/-- Bytes 32 to 35. -/
theorem checksum_at :
    (image.decode bytes).checksum = uint32.decode (bytes.drop 32) :=
  congrArg checksum (decode_eq bytes)

end

section Fields

variable {α : Type} {read : SnapshotHeader → α} {offset width : Nat} {toNat : α → Nat}
  {ofNat : Nat → α} {bound : ∀ value, toNat value < 256 ^ width}
  {inverse : ∀ value, ofNat (toNat value) = value} {place : Nat}

variable (isAt : ∀ bytes, read (image.decode bytes) =
  (word width toNat ofNat bound inverse).decode (bytes.drop offset))
include isAt

/-- A field that a flip misses. -/
theorem flip_outside (header : SnapshotHeader) (body : List UInt8) (bit : Fin 8)
    (outside : place < offset ∨ offset + width ≤ place) :
    read (image.decode (flipBit place bit (image.encode header ++ body))) = read header := by
  rw [isAt, word_flip_outside bit outside, ← isAt, image.decode_encode]

/-- A field that a flip hits. -/
theorem flip_inside (exact : ∀ number, number < 256 ^ width → toNat (ofNat number) = number)
    (header : SnapshotHeader) (body : List UInt8) (bit : Fin 8) (low : offset ≤ place)
    (high : place < offset + width) (fits : offset + width ≤ 40) :
    read (image.decode (flipBit place bit (image.encode header ++ body))) ≠ read header := by
  have long : 40 ≤ (image.encode header ++ body).length := image.le_length header body
  have differ := @word_flip_inside place (image.encode header ++ body) α offset width toNat ofNat
    bound inverse exact bit low high (by omega)
  rw [← isAt, ← isAt, image.decode_encode] at differ
  exact differ

end Fields

end SnapshotHeader

/-! ## The body -/

/-- The shape of a side. -/
theorem shaped_sideRecords (unnamed : Nat → UInt32) (levels : List LevelView)
    (short : ∀ level ∈ levels, level.orders.length ≤ orderCapacity) :
    Shaped (levels.map fun level => level.orders.length) (sideRecords unnamed levels).flatten := by
  induction levels with
  | nil => exact .nil
  | cons level rest ih =>
    let lsnap : LevelSnapshot :=
      ⟨level.price, openQty level.orders, UInt32.ofNat level.orders.length⟩
    have bound := short level List.mem_cons_self
    have capacity : orderCapacity = 10240 := rfl
    have later := ih fun other member => short other (List.mem_cons_of_mem _ member)
    have count : (LevelSnapshot.image.decode (LevelSnapshot.image.encode lsnap)).orderCount.toNat =
        level.orders.length := by
      rw [LevelSnapshot.image.decode_encode_self]
      change level.orders.length % 2 ^ 32 = _
      omega
    have width : (level.orders.map (orderRecord unnamed)).flatten.length =
        32 * level.orders.length := by
      have each (entry : OrderView) : (orderRecord unnamed entry).length = 32 :=
        (OrderSnapshot.image _).encode_length _
      simp [List.length_flatten, Function.comp_def, each, Nat.mul_comm]
    have whole : (sideRecords unnamed (level :: rest)).flatten =
        LevelSnapshot.image.encode lsnap ++ ((level.orders.map (orderRecord unnamed)).flatten ++
          (sideRecords unnamed rest).flatten) := by
      simp [sideRecords_cons, levelRecords, lsnap]
    rw [whole]
    exact .cons (LevelSnapshot.image.encode_length lsnap) count width later

/-- The shape of a book. -/
theorem shaped_bookRecords {book : LimitOrderBook} (rep : BookRep book book.levelsOf)
    (unnamed : Nat → UInt32) : Shaped (levelSizes book) (bookRecords unnamed book).flatten := by
  rw [levelSizes, List.map_append, bookRecords, List.flatten_append]
  exact (shaped_sideRecords unnamed _ fun _ member => rep.queue_length_le member).append
    (shaped_sideRecords unnamed _ fun _ member => rep.queue_length_le member)

/-! ## Refused and loaded bodies -/

/-- The sizes count the orders. -/
theorem levelSizes_sum (book : LimitOrderBook) :
    (levelSizes book).sum = book.contents.held.length := by
  rw [LimitOrderBook.contents, held_length, restingBoth, ← restingOrders_append, restingOrders,
    List.length_flatMap]
  rfl

/-- There is a size for each level. -/
theorem levelSizes_length (book : LimitOrderBook) :
    (levelSizes book).length = book.contents.levelCount := by
  simp [levelSizes, LimitOrderBook.contents, contentsOf, BookContents.levelCount]

/-- The same records make the same contents. -/
theorem SameBook.contents_eq {left right : LimitOrderBook} (same : SameBook left right) :
    left.contents = right.contents := by
  have read (book : LimitOrderBook) (side : Side) : book.contents side =
      (book.records side).map fun record => ⟨record.price, record.orders⟩ := by
    simp [LimitOrderBook.contents, contentsOf, LimitOrderBook.records, LevelView.contents]
  funext side
  rw [read, read, same.records]

namespace SnapshotReader

variable {book empty : LimitOrderBook} {header : SnapshotHeader} {body : List UInt8}

section Body

variable (fresh : Consistent empty) (isEmpty : empty.contents = fun _ => [])
  (levels : (header.scan body).levels ≤ levelCapacity)

include fresh isEmpty levels

/-- Unless the records are whole, the load returns exactly if their orders find room. -/
theorem loadBody_returns_iff (broken : ¬header.Covers body) :
    (∃ result, loadBody header ⟨body, 0xFFFFFFFF, empty⟩ = .ok result) ↔
      (header.scan body).orders ≤ orderCapacity := by
  have noOrders : empty.contents.held.length = 0 := by rw [isEmpty]; rfl
  have noLevels : empty.contents.levelCount = 0 := by rw [isEmpty]; rfl
  obtain ⟨fewer, less⟩ := (scanLevels header.bidLevelCount.toNat body).le_andThen fun size =>
    scanLevels header.askLevelCount.toNat (body.drop size)
  rw [← scanLevels_add] at fewer less
  change _ ≤ (header.scan body).levels at fewer
  change _ ≤ (header.scan body).orders at less
  rcases @readLevels_grows .buy header.bidLevelCount.toNat ⟨body, 0xFFFFFFFF, empty⟩ fresh.rep
    (by change empty.contents.levelCount + (scanLevels _ body).levels ≤ _; omega) with
    ⟨complete, bids, readBids, grows⟩ | ⟨failed, crowded⟩
  · simp only [loadBody, readBids, bind, Except.bind]
    cases complete with
    | false =>
      have room := grows.orders_le
      rw [(scan_of_incomplete readBids).1]
      exact iff_of_true ⟨_, rfl⟩ (Nat.le_of_add_left_le room)
    | true =>
      obtain ⟨width, _, scanned⟩ := scan_of_complete readBids
      have created := grows.levels
      have held := grows.held
      change _ ≤ empty.contents.levelCount + (scanLevels _ body).levels at created
      change _ = empty.contents.held.length + (scanLevels _ body).orders at held
      rw [scanned] at levels ⊢
      simp only at levels ⊢
      rcases @readLevels_grows .sell header.askLevelCount.toNat bids grows.rep (by omega) with
        ⟨complete, asks, readAsks, grows'⟩ | ⟨failed, crowded⟩
      · have room := grows'.orders_le
        rw [covers_iff readBids readAsks] at broken
        refine iff_of_true ?_ (by omega)
        rw [readAsks]
        cases complete with
        | false => exact ⟨_, rfl⟩
        | true =>
          have wrong : header.checksum ≠ ~~~asks.crc := fun right => broken ⟨rfl, right⟩
          simp only [Bool.not_true, Bool.false_eq_true, if_false, if_pos wrong]
          exact ⟨_, rfl⟩
      · refine iff_of_false ?_ (by omega)
        rintro ⟨result, ran⟩
        rw [failed] at ran
        cases ran
  · change _ < empty.contents.held.length + (scanLevels _ body).orders at crowded
    refine iff_of_false ?_ (by omega)
    rintro ⟨result, ran⟩
    simp only [loadBody, failed, bind, Except.bind] at ran
    cases ran

/-- A load that restores the book has read as many levels as it has, and all bytes. -/
theorem loadBody_restored (length : body.length = shapedLength (levelSizes book))
    {result : SnapshotLoad} (ran : loadBody header ⟨body, 0xFFFFFFFF, empty⟩ = .ok result)
    (loaded : result.loaded = true) (same : SameBook result.book book) :
    header.bidLevelCount.toNat + header.askLevelCount.toNat = (levelSizes book).length ∧
      header.checksum = body.foldl Checksum.crcByte 0 := by
  have noOrders : empty.contents.held.length = 0 := by rw [isEmpty]; rfl
  have noLevels : empty.contents.levelCount = 0 := by rw [isEmpty]; rfl
  rcases loadBody_cases ran with ⟨_, _, rfl⟩ | ⟨⟨size, whole, right⟩, bids, asks, readBids,
    readAsks, rfl⟩
  · cases loaded
  · obtain ⟨width, _, scanned⟩ := scan_of_complete readBids
    have isLevels := congrArg RecordScan.levels scanned
    have isOrders := congrArg RecordScan.orders scanned
    simp only at isLevels isOrders
    have grows := @readLevels_grown .buy _ ⟨body, 0xFFFFFFFF, empty⟩ bids _ fresh.rep
      (by change empty.contents.levelCount + (scanLevels _ body).levels ≤ _; omega) readBids
    have created := grows.levels
    change _ ≤ empty.contents.levelCount + (scanLevels _ body).levels at created
    have both := grows.trans (readLevels_grown grows.rep (by omega) readAsks)
    have held := both.held
    have few := both.levels
    have contents : asks.book.contents = book.contents := same.contents_eq
    rw [contents, ← levelSizes_sum book] at held
    rw [contents, ← levelSizes_length book] at few
    change _ = empty.contents.held.length + ((scanLevels _ body).orders + _) at held
    change _ ≤ empty.contents.levelCount + ((scanLevels _ body).levels + _) at few
    have most : (header.scan body).levels ≤ _ := scanLevels_levels_le _ _
    obtain ⟨isSize, fits⟩ := scanLevels_size whole
    change size = _ + 32 * (header.scan body).orders at isSize
    rw [shapedLength_eq] at length
    -- As many orders and at least as many levels as the book has were read: nothing is left.
    have all : body.take size = body := List.take_of_length_le (by omega)
    rw [right, all, not_snapshotCrc, not_initial]
    exact ⟨by omega, rfl⟩

/-- Records of the shape of a book that do not have the checksum of the header are refused. -/
theorem loadBody_refused (shaped : Shaped (levelSizes book) body)
    (counts : header.bidLevelCount.toNat + header.askLevelCount.toNat = (levelSizes book).length)
    (few : (levelSizes book).sum ≤ orderCapacity)
    (wrong : header.checksum ≠ body.foldl Checksum.crcByte 0) :
    Returns (fun result => result.loaded = false) (loadBody header ⟨body, 0xFFFFFFFF, empty⟩) := by
  have broken : ¬header.Covers body := by
    rintro ⟨size, whole, right⟩
    rw [scan, counts, shaped.scan] at whole
    cases whole
    rw [List.take_length, not_snapshotCrc, not_initial] at right
    exact wrong right
  have room : (header.scan body).orders ≤ orderCapacity := (shaped.scan_le _).2.trans few
  obtain ⟨result, ran⟩ := (loadBody_returns_iff fresh isEmpty levels broken).mpr room
  rw [ran]
  rcases loadBody_cases ran with ⟨_, _, rfl⟩ | ⟨whole, _⟩
  · rfl
  · exact absurd whole broken

end Body

/-! ## Flips in the header -/

section Header

variable {target : LimitOrderBook} {place : Nat} (header : SnapshotHeader) (bit : Fin 8)

section

variable (magic : header.magic = snapshotMagic) (version : header.version = snapshotVersion)
  (body : List UInt8)
include magic version

/-- A late flip is accepted. -/
theorem accepted_flip (late : 6 ≤ place) :
    HeaderAccepted (flipBit place bit (image.encode header ++ body)) := by
  refine ⟨?_, ?_, ?_⟩
  · rw [flipBit_length]
    exact image.le_length header body
  · rw [flip_outside magic_at header body bit (by omega), magic]
  · rw [flip_outside version_at header body bit (by omega), version]

/-- An early flip is rejected. -/
theorem rejected_flip (early : place < 6) :
    ¬HeaderAccepted (flipBit place bit (image.encode header ++ body)) := by
  rintro ⟨_, sameMagic, sameVersion⟩
  by_cases inMagic : place < 4
  · refine flip_inside magic_at ?_ header body bit (Nat.zero_le _)
      (by omega) (by omega) (sameMagic.trans magic.symm)
    exact fun _ => Nat.mod_eq_of_lt
  · refine flip_inside version_at ?_ header body bit (by omega)
      (by omega) (by omega) (sameVersion.trans version.symm)
    exact fun _ => Nat.mod_eq_of_lt

end

/-- A flip in a level count changes the number of levels. -/
theorem levelCounts_flip (body : List UInt8) (low : 24 ≤ place) (high : place < 32) :
    let flipped := image.decode
      (flipBit place bit (image.encode header ++ body))
    flipped.bidLevelCount.toNat + flipped.askLevelCount.toNat ≠
      header.bidLevelCount.toNat + header.askLevelCount.toNat := by
  intro flipped counts
  by_cases inBids : place < 28
  · have asks : flipped.askLevelCount = header.askLevelCount :=
      flip_outside askLevelCount_at header body bit (Or.inl inBids)
    rw [asks] at counts
    have unchanged := UInt32.toNat_inj.mp (Nat.add_right_cancel counts)
    exact flip_inside bidLevelCount_at (fun _ => Nat.mod_eq_of_lt)
      header body bit low inBids (by omega) unchanged
  · have bids : flipped.bidLevelCount = header.bidLevelCount :=
      flip_outside bidLevelCount_at header body bit
        (Or.inr (by omega))
    rw [bids] at counts
    have unchanged := UInt32.toNat_inj.mp (Nat.add_left_cancel counts)
    exact flip_inside askLevelCount_at (fun _ => Nat.mod_eq_of_lt)
      header body bit (by omega) high (by omega) unchanged

/-- A flip in front of the body. -/
theorem drop_flip (body : List UInt8) (early : place < 40) :
    (flipBit place bit (image.encode header ++ body)).drop
      image.width = body := by
  have length := image.encode_length header
  have inside : place < (image.encode header).length := length ▸ early
  rw [flipBit_append_left bit body inside]
  exact List.drop_left' (by rw [flipBit_length, length])

/-- A flip in the body. -/
theorem flip_body (inBody : Nat) (body : List UInt8) :
    flipBit (40 + inBody) bit (image.encode header ++ body) =
      image.encode header ++ flipBit inBody bit body := by
  have length : (image.encode header).length = 40 :=
    image.encode_length header
  rw [← length, flipBit_append_right]

end Header

/-- The load after the clearing. -/
theorem load_cleared {bytes : List UInt8} (accepted : HeaderAccepted bytes)
    {target : LimitOrderBook} (cleared : target.clear = .ok empty)
    (outSequence outTimestamp : UInt64) :
    load (some bytes) target outSequence outTimestamp =
      loadBody (image.decode bytes)
        ⟨bytes.drop image.width, 0xFFFFFFFF, empty⟩ := by
  rw [load_accepted accepted, cleared]
  rfl

end SnapshotReader

/-- The checksum of a saved book is that of its bytes. -/
theorem SnapshotHeader.checksum_of (unnamed : Nat → UInt32) (book : LimitOrderBook)
    (sequence timestamp : UInt64) : (of unnamed book sequence timestamp).checksum =
      (bookRecords unnamed book).flatten.foldl Checksum.crcByte 0 := by
  rw [← not_initial]
  exact not_foldl_snapshotCrc _ _

/-! ## Flipped files -/

/-- The bytes that `save` writes. -/
def SnapshotWriter.written (unnamed : Nat → UInt32) (book : LimitOrderBook)
    (sequence timestamp : UInt64) : List UInt8 :=
  image.encode (of unnamed book sequence timestamp) ++
    (bookRecords unnamed book).flatten

namespace SnapshotReader

open SnapshotWriter (written)

/-- The header of a saved book counts its levels. -/
theorem counts_of {book : LimitOrderBook} (consistent : Consistent book) (unnamed : Nat → UInt32)
    (sequence timestamp : UInt64) :
    (of unnamed book sequence timestamp).bidLevelCount.toNat +
      (of unnamed book sequence timestamp).askLevelCount.toNat =
        (levelSizes book).length := by
  change (UInt32.ofNat _).toNat + (UInt32.ofNat _).toNat = _
  rw [levelCounts consistent, levelCounts consistent, levelSizes, List.length_map,
    List.length_append]

section Files

variable {book target empty : LimitOrderBook} {place : Nat} (consistent : Consistent book)
  (cleared : target.clear = .ok empty) (fresh : Consistent empty)
  (isEmpty : empty.contents = fun _ => []) (unnamed : Nat → UInt32)
  (sequence timestamp outSequence outTimestamp : UInt64) (bit : Fin 8)

include cleared in
/-- The load of a late flip. -/
theorem load_flip_eq (late : 6 ≤ place) :
    load (some (flipBit place bit (written unnamed book sequence timestamp))) target outSequence
        outTimestamp =
      loadBody (image.decode
          (flipBit place bit (written unnamed book sequence timestamp)))
        ⟨(flipBit place bit (written unnamed book sequence timestamp)).drop
          image.width, 0xFFFFFFFF, empty⟩ :=
  load_cleared
    (accepted_flip (of unnamed book sequence timestamp) bit rfl rfl _ late) cleared
    outSequence outTimestamp

include consistent in
/-- A file with a flip in a count does not count the levels of the book, or does not have their
checksum. -/
theorem not_counts_flip (inside : place < 40 + (bookRecords unnamed book).flatten.length)
    (isCount : CountAt book place) :
    let file := flipBit place bit (written unnamed book sequence timestamp)
    let header := image.decode file
    ¬(header.bidLevelCount.toNat + header.askLevelCount.toNat = (levelSizes book).length ∧
      header.checksum = (file.drop image.width).foldl Checksum.crcByte 0) := by
  rintro file header ⟨counts, checksum⟩
  let saved := of unnamed book sequence timestamp
  rcases isCount with ⟨low, high⟩ | ⟨offset, rfl, _⟩
  · exact levelCounts_flip saved bit _ low high
      (counts.trans (counts_of consistent unnamed sequence timestamp).symm)
  · simp only [header, file, written, flip_body, image.decode_encode,
      drop_encode, checksum_of] at checksum
    exact Checksum.foldl_flip_ne bit (by omega) 0 checksum.symm

include consistent cleared fresh isEmpty

/-- A flip that leaves the counts and the checksum of the header is believed. -/
theorem load_flip_believed (late : 6 ≤ place) (early : place < 40)
    (elsewhere : place < 24 ∨ 36 ≤ place) :
    let file := flipBit place bit (written unnamed book sequence timestamp)
    ∃ restored, load (some file) target outSequence outTimestamp =
        .ok ⟨true, restored, (image.decode file).sequence,
          (image.decode file).timestamp⟩ ∧
      SameBook restored book := by
  intro file
  let header := of unnamed book sequence timestamp
  rw [load_flip_eq cleared unnamed sequence timestamp outSequence outTimestamp bit late, written,
    drop_flip header bit _ early]
  obtain ⟨restored, loaded, kept, contents⟩ := @loadBody_eq book empty consistent fresh isEmpty
    unnamed (image.decode file)
    (flip_outside bidLevelCount_at header _ bit (by omega))
    (flip_outside askLevelCount_at header _ bit (by omega))
    (flip_outside checksum_at header _ bit (by omega))
  exact ⟨restored, loaded, SameContents.sameBook ⟨kept, consistent, contents⟩⟩

section

variable (inside : place < 40 + (bookRecords unnamed book).flatten.length)
include inside

/-- A flip in the checksum or in a record, outside the counts, is refused. -/
theorem load_flip_refused (late : 32 ≤ place) (covered : place < 36 ∨ 40 ≤ place)
    (elsewhere : ¬CountAt book place) :
    Returns (fun result => result.loaded = false)
      (load (some (flipBit place bit (written unnamed book sequence timestamp))) target outSequence
        outTimestamp) := by
  let header := of unnamed book sequence timestamp
  have shaped := shaped_bookRecords consistent.rep unnamed
  have checksum := checksum_of unnamed book sequence timestamp
  have counts := counts_of consistent unnamed sequence timestamp
  have few : (levelSizes book).sum ≤ orderCapacity :=
    (levelSizes_sum book).trans_le consistent.fits.orders
  have short : (levelSizes book).length ≤ levelCapacity :=
    (levelSizes_length book).trans_le consistent.fits.levels
  rw [load_flip_eq cleared unnamed sequence timestamp outSequence outTimestamp bit (by omega),
    written]
  rcases covered with inChecksum | inBody
  · rw [drop_flip header bit _ (show place < 40 by omega)]
    rw [← flip_outside bidLevelCount_at header
        (bookRecords unnamed book).flatten bit (show place < 24 ∨ 28 ≤ place by omega),
      ← flip_outside askLevelCount_at header
        (bookRecords unnamed book).flatten bit (show place < 28 ∨ 32 ≤ place by omega)] at counts
    refine loadBody_refused fresh isEmpty ((shaped.scan_le _).1.trans short) shaped counts few ?_
    rw [← checksum]
    exact flip_inside checksum_at (fun _ => Nat.mod_eq_of_lt) header
      _ bit late (by omega) (by omega)
  · obtain ⟨offset, rfl⟩ := Nat.exists_eq_add_of_le inBody
    rw [flip_body, image.decode_encode, drop_encode]
    have shaped' := shaped.flip bit fun isCount => elsewhere (Or.inr ⟨offset, rfl, isCount⟩)
    refine loadBody_refused fresh isEmpty ((shaped'.scan_le _).1.trans short) shaped' counts few ?_
    rw [checksum]
    exact (Checksum.foldl_flip_ne bit (by omega) 0).symm

/-- A flip in a count is refused exactly if the bytes that are read under it are not whole records
with the stored checksum, and find room. Otherwise the load does not restore the book. -/
theorem load_flip_count (isCount : CountAt book place) :
    Returns (SnapshotLoad.Honest book sequence)
        (load (some (flipBit place bit (written unnamed book sequence timestamp))) target
          outSequence outTimestamp) ↔
      ¬RecordsWhole (flipBit place bit (written unnamed book sequence timestamp)) ∧
        (bodyScan (flipBit place bit (written unnamed book sequence timestamp))).orders ≤
          orderCapacity := by
  let header := of unnamed book sequence timestamp
  have shaped := shaped_bookRecords consistent.rep unnamed
  have counts := counts_of consistent unnamed sequence timestamp
  have short : (levelSizes book).length ≤ levelCapacity :=
    (levelSizes_length book).trans_le consistent.fits.levels
  have late : 6 ≤ place := by
    rcases isCount with inHeader | ⟨_, rfl, _⟩
    · omega
    · omega
  have levels : (bodyScan (flipBit place bit (written unnamed book sequence timestamp))).levels ≤
      levelCapacity := by
    unfold bodyScan written
    rcases isCount with ⟨low, high⟩ | ⟨offset, rfl, _⟩
    · rw [drop_flip header bit _ (show place < 40 by omega)]
      exact (shaped.scan_le _).1.trans short
    · rw [flip_body, image.decode_encode, drop_encode]
      exact (scanLevels_levels_le _ _).trans (counts.trans_le short)
  rw [load_flip_eq cleared unnamed sequence timestamp outSequence outTimestamp bit late]
  constructor
  · intro honest
    obtain ⟨result, ran, honest⟩ := honest.exists
    have broken : ¬RecordsWhole (flipBit place bit (written unnamed book sequence timestamp)) := by
      intro whole
      rcases loadBody_cases ran with ⟨broken, _⟩ | ⟨_, bids, asks, _, _, rfl⟩
      · exact broken whole
      · rcases honest with refused | ⟨_, same⟩
        · cases refused
        · have length : (((flipBit place bit (written unnamed book sequence timestamp)).drop
              image.width)).length = shapedLength (levelSizes book) := by
            rw [List.length_drop, flipBit_length, ← List.length_drop, written, drop_encode,
              shaped.length_eq]
          exact not_counts_flip consistent unnamed sequence timestamp bit inside isCount
            (loadBody_restored fresh isEmpty levels length ran rfl same)
    exact ⟨broken, (loadBody_returns_iff fresh isEmpty levels broken).mp ⟨result, ran⟩⟩
  · rintro ⟨broken, room⟩
    obtain ⟨result, ran⟩ := (loadBody_returns_iff fresh isEmpty levels broken).mpr room
    rw [ran]
    rcases loadBody_cases ran with ⟨_, _, rfl⟩ | ⟨whole, _⟩
    · exact .inl rfl
    · exact absurd whole broken

/-- A flip outside the sequence and the counts is refused or harmless. -/
theorem load_flip_honest (notSequence : ¬SequenceAt place) (notCount : ¬CountAt book place) :
    Returns (SnapshotLoad.Honest book sequence)
      (load (some (flipBit place bit (written unnamed book sequence timestamp))) target outSequence
        outTimestamp) := by
  let header := of unnamed book sequence timestamp
  have notLevels : ¬(24 ≤ place ∧ place < 32) := fun isLevels => notCount (Or.inl isLevels)
  by_cases early : place < 6
  · have rejected := rejected_flip header bit rfl rfl (bookRecords unnamed book).flatten early
    rw [load_rejected (by rintro _ ⟨⟩; exact rejected)]
    exact Or.inl rfl
  · by_cases covered : 32 ≤ place ∧ (place < 36 ∨ 40 ≤ place)
    · have refuses := load_flip_refused consistent cleared fresh isEmpty unnamed sequence timestamp
        outSequence outTimestamp bit inside covered.1 covered.2 notCount
      exact refuses.mono fun _ => Or.inl
    · have outside : place < 8 ∨ 16 ≤ place := by
        rw [SequenceAt] at notSequence
        omega
      obtain ⟨restored, loads, same⟩ := load_flip_believed consistent cleared fresh isEmpty unnamed
        sequence timestamp outSequence outTimestamp bit (show 6 ≤ place by omega) (by omega)
        (by omega)
      rw [loads]
      exact Or.inr
        ⟨flip_outside sequence_at header _ bit outside, same⟩

end

/-- A flip in the sequence is believed. -/
theorem load_flip_sequence (isSequence : SequenceAt place) :
    ¬Returns (SnapshotLoad.Honest book sequence)
      (load (some (flipBit place bit (written unnamed book sequence timestamp))) target outSequence
        outTimestamp) := by
  intro honest
  obtain ⟨low, high⟩ := isSequence
  obtain ⟨restored, loads, _⟩ := load_flip_believed consistent cleared fresh isEmpty unnamed
    sequence timestamp outSequence outTimestamp bit (show 6 ≤ place by omega) (by omega) (by omega)
  rw [loads] at honest
  rcases honest with refused | ⟨sameSequence, _⟩
  · cases refused
  · exact flip_inside sequence_at (fun _ => Nat.mod_eq_of_lt)
      (of unnamed book sequence timestamp) _ bit low high (by omega) sameSequence

end Files

/-- One flipped bit is detected or harmless exactly if it is not in the sequence and, where it is in
a count, the bytes that are read under the changed count are not whole records with the stored
checksum, and hold no more orders than the pool. -/
theorem flip_honest_iff {book target : LimitOrderBook} (consistent : Consistent book)
    (other : Consistent target) (unnamed : Nat → UInt32)
    (sequence timestamp outSequence outTimestamp : UInt64) {bytes : List UInt8}
    (saved : save unnamed book sequence timestamp = .ok bytes) {place : Nat}
    (inside : place < bytes.length) (bit : Fin 8) :
    Returns (SnapshotLoad.Honest book sequence)
        (load (some (flipBit place bit bytes)) target outSequence outTimestamp) ↔
      ¬SequenceAt place ∧
        (CountAt book place → ¬RecordsWhole (flipBit place bit bytes) ∧
          (bodyScan (flipBit place bit bytes)).orders ≤ orderCapacity) := by
  obtain ⟨empty, cleared, fresh, isEmpty⟩ := other.clear
  have isWritten : written unnamed book sequence timestamp = bytes :=
    Except.ok.inj ((save_eq consistent unnamed sequence timestamp).symm.trans saved)
  subst isWritten
  rw [written, List.length_append, image.encode_length] at inside
  have counted := @load_flip_count book target empty place consistent cleared fresh isEmpty unnamed
    sequence timestamp outSequence outTimestamp bit inside
  constructor
  · intro honest
    exact ⟨fun isSequence => load_flip_sequence consistent cleared fresh isEmpty unnamed sequence
      timestamp outSequence outTimestamp bit isSequence honest,
      fun isCount => (counted isCount).mp honest⟩
  · rintro ⟨notSequence, refusedCount⟩
    by_cases isCount : CountAt book place
    · exact (counted isCount).mpr (refusedCount isCount)
    · exact load_flip_honest consistent cleared fresh isEmpty unnamed sequence timestamp
        outSequence outTimestamp bit inside notSequence isCount

/-- A flip in the price of the first record. -/
theorem flip_honest_iff_price :
    ∃ book bytes, Consistent book ∧ save (fun _ => 0xAB) book 4 1000 = .ok bytes ∧
      40 < bytes.length ∧
      Returns (SnapshotLoad.Honest book 4)
        (load (some (flipBit 40 0 bytes)) (LimitOrderBook.new none) 0 0) := by
  obtain ⟨slot, book, inserted, consistent, _⟩ :=
    Consistent.insert_new none (OrderSnapshot.dummy ⟨⟨1, 7⟩, 10, 3⟩ 100 .buy) 3
  have saves : Returns (fun placed : Nat × LimitOrderBook =>
        Returns (fun bytes => 40 < bytes.length)
          (save (fun _ => 0xAB) placed.2 4 1000))
      ((LimitOrderBook.new none).insert (OrderSnapshot.dummy ⟨⟨1, 7⟩, 10, 3⟩ 100 .buy) 3) := by
    decide +kernel
  rw [inserted] at saves
  obtain ⟨_, ⟨⟩, saves⟩ := saves.exists
  obtain ⟨bytes, saved, long⟩ := Returns.exists saves
  have notCount : ¬CountAt book 40 := by
    rintro (⟨_, high⟩ | ⟨inBody, isPlace, front, _, _, _, low, _⟩) <;> omega
  refine ⟨book, bytes, consistent, saved, long, ?_⟩
  exact (flip_honest_iff consistent (Consistent.new none) _ 4 1000 0 0 saved long 0).mpr
    ⟨by rintro ⟨_, high⟩; omega, fun isCount => absurd isCount notCount⟩

/-- The lowest bit of the saved sequence is flipped. The load succeeds with another sequence. -/
theorem flipped_sequence_believed :
    ∃ book bytes, Consistent book ∧ save (fun _ => 0xAB) book 4 1000 = .ok bytes ∧
      8 < bytes.length ∧
      Returns (fun result => result.loaded = true ∧ result.outSequence = 5)
        (load (some (flipBit 8 0 bytes)) (LimitOrderBook.new none) 0 0) := by
  obtain ⟨slot, book, inserted, consistent, _⟩ :=
    Consistent.insert_new none (OrderSnapshot.dummy ⟨⟨1, 7⟩, 10, 3⟩ 100 .buy) 3
  have loads : Returns (fun placed : Nat × LimitOrderBook =>
        Returns (fun bytes => 8 < bytes.length ∧
            Returns (fun result => result.loaded = true ∧ result.outSequence = 5)
              (load (some (flipBit 8 0 bytes)) (LimitOrderBook.new none) 0 0))
          (save (fun _ => 0xAB) placed.2 4 1000))
      ((LimitOrderBook.new none).insert (OrderSnapshot.dummy ⟨⟨1, 7⟩, 10, 3⟩ 100 .buy) 3) := by
    decide +kernel
  rw [inserted] at loads
  obtain ⟨_, ⟨⟩, loads⟩ := loads.exists
  obtain ⟨bytes, saved, long, believed⟩ := Returns.exists loads
  exact ⟨book, bytes, consistent, saved, long, believed⟩

-- The records of this bid have the checksum of no records. With its only level uncounted, the file
-- loads as an empty book.
example :
    Returns (fun placed : Nat × LimitOrderBook =>
        placed.2.bestPrice .buy = 100 ∧
        Returns (fun bytes =>
            Returns (fun result => result.loaded = true ∧ result.book.bestPrice .buy = 0)
              (load (some (flipBit 24 0 bytes)) (LimitOrderBook.new none) 0 0))
          (save (fun _ => 0) placed.2 4 1000))
      ((LimitOrderBook.new none).insert
        (OrderSnapshot.dummy ⟨⟨1, 7⟩, 10, 639806788⟩ 100 .buy) 639806788) := by
  decide +kernel

end SnapshotReader

end FluxTrade
