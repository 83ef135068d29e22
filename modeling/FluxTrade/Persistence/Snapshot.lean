import FluxTrade.Matching.SameContents
import FluxTrade.Matching.VerifyInvariants
import FluxTrade.Persistence.Journal

/-!
# Snapshots of a book

`SnapshotWriter::save` walks the levels of both sides and their queues, writes
one record for each, and then puts the checksum of the records into the header.
`SnapshotReader::load` clears a book and inserts the recorded orders into it.
Both carry one running checksum over the records in the order of the file. What
was saved is loaded back, wherever the orders are stored.
-/

namespace FluxTrade

open LinkedList List

/-! ## Records -/

/-- `SNAPSHOT_MAGIC`. -/
def snapshotMagic : UInt32 := 0x534E4150

/-- `SNAPSHOT_VERSION`. -/
def snapshotVersion : UInt16 := 1

/-- `SnapshotHeader`. -/
structure SnapshotHeader where
  magic : UInt32
  version : UInt16
  flags : UInt16
  sequence : UInt64
  timestamp : UInt64
  bidLevelCount : UInt32
  askLevelCount : UInt32
  checksum : UInt32
  deriving DecidableEq

/-- `LevelSnapshot`. -/
structure LevelSnapshot where
  price : Price
  totalQty : Quantity
  orderCount : UInt32
  deriving DecidableEq

/-- `OrderSnapshot`. -/
structure OrderSnapshot where
  key : OrderKey
  remainingQty : Quantity
  prioritySeq : UInt64
  deriving DecidableEq

open Layout in
/-- `SnapshotHeader` in memory, 40 bytes. -/
def SnapshotHeader.image : Layout SnapshotHeader :=
  (uint32.pair <| uint16.pair <| uint16.pair <| uint64.pair <| uint64.pair <| uint32.pair <|
    uint32.pair <| uint32.padded [0, 0, 0, 0]).map
    (fun header => (header.magic, header.version, header.flags, header.sequence,
      header.timestamp, header.bidLevelCount, header.askLevelCount, header.checksum))
    (fun (magic, version, flags, sequence, timestamp, bidLevelCount, askLevelCount, checksum) =>
      ⟨magic, version, flags, sequence, timestamp, bidLevelCount, askLevelCount, checksum⟩)
    fun _ => rfl

open Layout in
/-- `LevelSnapshot` in memory, 24 bytes. -/
def LevelSnapshot.image : Layout LevelSnapshot :=
  let price := uint64.map Int64.toUInt64 UInt64.toInt64 Int64.toInt64_toUInt64
  (price.pair <| uint64.pair <| uint32.padded [0, 0, 0, 0]).map
    (fun level => (level.price, level.totalQty, level.orderCount))
    (fun fields => ⟨fields.1, fields.2.1, fields.2.2⟩)
    fun _ => rfl

open Layout in
/-- `OrderSnapshot` in memory, 32 bytes. The four bytes of the key after `symbol_id` have no name
and any contents. -/
def OrderSnapshot.image (unnamed : UInt32) : Layout OrderSnapshot :=
  ((uint32.padded (uint32.encode unnamed)).pair <| uint64.pair <| uint64.pair uint64).map
    (fun order => (order.key.symbolId, order.key.orderId, order.remainingQty, order.prioritySeq))
    (fun (symbolId, orderId, remainingQty, prioritySeq) =>
      ⟨⟨symbolId, orderId⟩, remainingQty, prioritySeq⟩)
    fun _ => rfl

/-- The size of a record. -/
theorem OrderSnapshot.image_width (unnamed : UInt32) :
    (image unnamed).width = (image 0).width := rfl

/-- An order is read back from its record, whatever the bytes without a name were. -/
theorem OrderSnapshot.decode_image (unnamed : UInt32) (order : OrderSnapshot) :
    (image 0).decode ((image unnamed).encode order) = order :=
  (image unnamed).decode_encode_self order

/-- The running checksum of a snapshot after one more record. -/
def snapshotCrc (crc : UInt32) (record : List UInt8) : UInt32 := Checksum.crc32c record (~~~crc)

/-! ## Writing -/

/-- The file and the running checksum of a snapshot being written. -/
structure SnapshotOutput where
  written : List UInt8
  crc : UInt32

/-- A record is written and added to the checksum. -/
def SnapshotOutput.put (output : SnapshotOutput) (record : List UInt8) : SnapshotOutput :=
  ⟨output.written ++ record, snapshotCrc output.crc record⟩

namespace SnapshotWriter

/-- The loop of `count_levels` and `count_orders`. -/
def countNodes (next : Nat → Option Nat) : Nat → Option Nat → UInt32 → Except Fault UInt32
  | _, none, count => .ok count
  | 0, some _, _ => .error .outOfFuel
  | fuel + 1, some current, count => countNodes next fuel (next current) (count + 1)

/-- `count_levels`. -/
def countLevels (book : LimitOrderBook) (start : Option Nat) : Except Fault UInt32 :=
  countNodes (fun slot => (book.level slot).next) levelCapacity start 0

/-- `count_orders`. -/
def countOrders (book : LimitOrderBook) (start : Option Nat) : Except Fault UInt32 :=
  countNodes (fun slot => (book.order slot).next) orderCapacity start 0

/-- The inner loop of `write_levels`. `unnamed` are the bytes without a name in each key. -/
def writeOrders (unnamed : Nat → UInt32) (book : LimitOrderBook) :
    Nat → Option Nat → SnapshotOutput → Except Fault SnapshotOutput
  | _, none, output => .ok output
  | 0, some _, _ => .error .outOfFuel
  | fuel + 1, some current, output =>
    let order := book.order current
    let osnap : OrderSnapshot := ⟨order.key, order.remainingQty, order.prioritySeq⟩
    writeOrders unnamed book fuel order.next
      (output.put ((OrderSnapshot.image (unnamed current)).encode osnap))

/-- `write_levels`. -/
def writeLevels (unnamed : Nat → UInt32) (book : LimitOrderBook) :
    Nat → Option Nat → SnapshotOutput → Except Fault SnapshotOutput
  | _, none, output => .ok output
  | 0, some _, _ => .error .outOfFuel
  | fuel + 1, some current, output => do
    let level := book.level current
    let orderCount ← countOrders book level.orders.head
    let lsnap : LevelSnapshot := ⟨level.price, level.totalQty, orderCount⟩
    let output := output.put (LevelSnapshot.image.encode lsnap)
    let output ← writeOrders unnamed book orderCapacity level.orders.head output
    writeLevels unnamed book fuel level.next output

/-- `SnapshotWriter::save`: the bytes of the file. The header is written twice, the second time
over the first one. -/
def save (unnamed : Nat → UInt32) (book : LimitOrderBook) (sequence timestamp : UInt64) :
    Except Fault (List UInt8) := do
  let bidLevelCount ← countLevels book (book.bestLevel .buy)
  let askLevelCount ← countLevels book (book.bestLevel .sell)
  let header : SnapshotHeader := ⟨snapshotMagic, snapshotVersion, 0, sequence, timestamp,
    bidLevelCount, askLevelCount, 0⟩
  let output : SnapshotOutput := ⟨SnapshotHeader.image.encode header, 0xFFFFFFFF⟩
  let output ← writeLevels unnamed book levelCapacity (book.bestLevel .buy) output
  let output ← writeLevels unnamed book levelCapacity (book.bestLevel .sell) output
  let header := { header with checksum := ~~~output.crc }
  .ok (SnapshotHeader.image.encode header ++ output.written.drop SnapshotHeader.image.width)

end SnapshotWriter

/-! ## Reading -/

/-- The unread bytes, the running checksum and the book of a snapshot being read. -/
structure SnapshotInput where
  rest : List UInt8
  crc : UInt32
  book : LimitOrderBook

/-- Read a record and add it to the checksum; nothing if the file is too short. -/
def SnapshotInput.read (input : SnapshotInput) (width : Nat) :
    Option (List UInt8 × SnapshotInput) :=
  if input.rest.length < width then none
  else
    let record := input.rest.take width
    some (record, { input with
      rest := input.rest.drop width, crc := snapshotCrc input.crc record })

/-- The `dummy` order that `read_levels` inserts for a record. -/
def OrderSnapshot.dummy (osnap : OrderSnapshot) (price : Price) (side : Side) : Order where
  orderId := osnap.key.orderId
  price := price
  qty := osnap.remainingQty
  seqNum := 0
  clientTimestamp := 0
  exchangeTimestamp := 0
  clientId := 0
  accountId := 0
  symbolId := osnap.key.symbolId
  side := side
  type := .limit
  tif := .gtc

/-- What `load` returns and leaves in its reference arguments. -/
structure SnapshotLoad where
  loaded : Bool
  book : LimitOrderBook
  outSequence : UInt64
  outTimestamp : UInt64

namespace SnapshotReader

/-- The inner loop of `read_levels`. -/
def readOrders (price : Price) (side : Side) :
    Nat → SnapshotInput → Except Fault (Bool × SnapshotInput)
  | 0, input => .ok (true, input)
  | count + 1, input =>
    match input.read (OrderSnapshot.image 0).width with
    | none => .ok (false, input)
    | some (record, input) => do
      let osnap := (OrderSnapshot.image 0).decode record
      let (_, book) ← input.book.insert (osnap.dummy price side) osnap.prioritySeq
      readOrders price side count { input with book }

/-- `read_levels`. -/
def readLevels (side : Side) : Nat → SnapshotInput → Except Fault (Bool × SnapshotInput)
  | 0, input => .ok (true, input)
  | count + 1, input =>
    match input.read LevelSnapshot.image.width with
    | none => .ok (false, input)
    | some (record, input) => do
      let lsnap := LevelSnapshot.image.decode record
      let (complete, input) ← readOrders lsnap.price side lsnap.orderCount.toNat input
      if complete then readLevels side count input else .ok (false, input)

/-- `load` after the header has been accepted and the book cleared. -/
def loadBody (header : SnapshotHeader) (input : SnapshotInput) : Except Fault SnapshotLoad := do
  let failed (book : LimitOrderBook) : SnapshotLoad :=
    ⟨false, book, header.sequence, header.timestamp⟩
  let (complete, input) ← readLevels .buy header.bidLevelCount.toNat input
  if !complete then .ok (failed input.book)
  else do
    let (complete, input) ← readLevels .sell header.askLevelCount.toNat input
    if !complete then .ok (failed input.book)
    else if header.checksum ≠ ~~~input.crc then .ok (failed input.book)
    else do
      input.book.verifyInvariants
      .ok ⟨true, input.book, header.sequence, header.timestamp⟩

/-- `SnapshotReader::load` of a file, which may not exist. -/
def load (file : Option (List UInt8)) (book : LimitOrderBook)
    (outSequence outTimestamp : UInt64) : Except Fault SnapshotLoad :=
  let failed : SnapshotLoad := ⟨false, book, outSequence, outTimestamp⟩
  match file with
  | none => .ok failed
  | some bytes =>
    if bytes.length < SnapshotHeader.image.width then .ok failed
    else
      let header := SnapshotHeader.image.decode bytes
      if header.magic ≠ snapshotMagic ∨ header.version ≠ snapshotVersion then .ok failed
      else do
        let book ← book.clear
        loadBody header ⟨bytes.drop SnapshotHeader.image.width, 0xFFFFFFFF, book⟩

end SnapshotReader

/-! ## What is written -/

/-- The record of an order. -/
def orderRecord (unnamed : Nat → UInt32) (entry : OrderView) : List UInt8 :=
  (OrderSnapshot.image (unnamed entry.slot)).encode
    ⟨entry.key, entry.remainingQty, entry.prioritySeq⟩

/-- The records of a level: its own and those of its queue. -/
def levelRecords (unnamed : Nat → UInt32) (level : LevelView) : List (List UInt8) :=
  LevelSnapshot.image.encode
    ⟨level.price, openQty level.orders, UInt32.ofNat level.orders.length⟩ ::
    level.orders.map (orderRecord unnamed)

/-- The records of a side. -/
def sideRecords (unnamed : Nat → UInt32) (levels : List LevelView) : List (List UInt8) :=
  levels.flatMap (levelRecords unnamed)

/-- One level more. -/
theorem sideRecords_cons (unnamed : Nat → UInt32) (level : LevelView) (rest : List LevelView) :
    sideRecords unnamed (level :: rest) =
      levelRecords unnamed level ++ sideRecords unnamed rest :=
  flatMap_cons ..

/-- Records are appended. -/
theorem SnapshotOutput.foldl_put (records : List (List UInt8)) (output : SnapshotOutput) :
    records.foldl SnapshotOutput.put output =
      ⟨output.written ++ records.flatten, records.foldl snapshotCrc output.crc⟩ := by
  induction records generalizing output with
  | nil => simp
  | cons record rest ih => simp [ih, SnapshotOutput.put]

namespace SnapshotWriter

variable {start : Option Nat} {fuel : Nat} {book : LimitOrderBook}

/-- The counting loops count the nodes of a list. -/
theorem countNodes_eq {next : Nat → Option Nat} {slots : List Nat} (path : Path next start slots)
    (fits : slots.length ≤ fuel) (count : UInt32) :
    countNodes next fuel start count = .ok (count + UInt32.ofNat slots.length) := by
  induction slots generalizing start fuel count with
  | nil =>
    rw [show start = none from path]
    cases fuel <;> simp [countNodes]
  | cons slot rest ih =>
    cases fuel with
    | zero => simp at fits
    | succ fuel =>
      simp only [length_cons] at fits
      have more : count + 1 + UInt32.ofNat rest.length =
          count + UInt32.ofNat (rest.length + 1) := by
        rw [UInt32.ofNat_add, UInt32.add_assoc, UInt32.add_comm 1]
        rfl
      rw [path.1, countNodes, ih path.2 (by omega), more, length_cons]

/-- The inner loop writes the records of a queue. -/
theorem writeOrders_eq {queue : List OrderView} (unnamed : Nat → UInt32)
    (path : Path (fun slot => (book.order slot).next) start (queueSlots queue))
    (contents : ∀ entry ∈ queue, (book.order entry.slot).view entry.slot = entry)
    (fits : queue.length ≤ fuel) (output : SnapshotOutput) :
    writeOrders unnamed book fuel start output =
      .ok ((queue.map (orderRecord unnamed)).foldl SnapshotOutput.put output) := by
  induction queue generalizing start fuel output with
  | nil =>
    rw [show start = none from path]
    cases fuel <;> rfl
  | cons entry rest ih =>
    cases fuel with
    | zero => simp at fits
    | succ fuel =>
      simp only [length_cons] at fits
      have view := contents entry mem_cons_self
      have key : (book.order entry.slot).key = entry.key := congrArg OrderView.key view
      have qty : (book.order entry.slot).remainingQty = entry.remainingQty :=
        congrArg OrderView.remainingQty view
      have seq : (book.order entry.slot).prioritySeq = entry.prioritySeq :=
        congrArg OrderView.prioritySeq view
      rw [path.1, writeOrders, key, qty, seq, ih path.2
        (fun other member => contents other (mem_cons_of_mem _ member)) (by omega)]
      rfl

/-- The outer loop writes the records of a side. -/
theorem writeLevels_eq {levels : List LevelView} (unnamed : Nat → UInt32)
    (path : Path (fun slot => (book.level slot).next) start (levelSlots levels))
    (nodes : ∀ level ∈ levels, LevelRep book.orderPool.storage (book.level level.slot) level)
    (short : ∀ level ∈ levels, level.orders.length ≤ orderCapacity) (fits : levels.length ≤ fuel)
    (output : SnapshotOutput) :
    writeLevels unnamed book fuel start output =
      .ok ((sideRecords unnamed levels).foldl SnapshotOutput.put output) := by
  induction levels generalizing start fuel output with
  | nil =>
    rw [show start = none from path]
    cases fuel <;> rfl
  | cons level rest ih =>
    cases fuel with
    | zero => simp at fits
    | succ fuel =>
      simp only [length_cons] at fits
      have node := nodes level mem_cons_self
      have room := short level mem_cons_self
      have queue : Path (fun slot => (book.order slot).next)
          (book.level level.slot).orders.head (queueSlots level.orders) :=
        node.queue.links.forward
      have counted : countOrders book (book.level level.slot).orders.head =
          .ok (UInt32.ofNat level.orders.length) := by
        rw [countOrders, countNodes_eq queue (by simpa using room)]
        simp
      have later := fun output => ih path.2
        (fun other member => nodes other (mem_cons_of_mem _ member))
        (fun other member => short other (mem_cons_of_mem _ member))
        (Nat.le_of_succ_le_succ fits) output
      rw [path.1, writeLevels, counted]
      simp only [bind, Except.bind]
      rw [writeOrders_eq unnamed queue node.queue.contents room, node.priced, node.total,
        sideRecords_cons, foldl_append]
      exact later _

end SnapshotWriter

/-- The records of a book, bids first. -/
def bookRecords (unnamed : Nat → UInt32) (book : LimitOrderBook) : List (List UInt8) :=
  sideRecords unnamed (book.levelsOf .buy) ++ sideRecords unnamed (book.levelsOf .sell)

/-- The header of a saved book. -/
def SnapshotHeader.of (unnamed : Nat → UInt32) (book : LimitOrderBook)
    (sequence timestamp : UInt64) : SnapshotHeader where
  magic := snapshotMagic
  version := snapshotVersion
  flags := 0
  sequence := sequence
  timestamp := timestamp
  bidLevelCount := UInt32.ofNat (book.levelsOf .buy).length
  askLevelCount := UInt32.ofNat (book.levelsOf .sell).length
  checksum := ~~~((bookRecords unnamed book).foldl snapshotCrc 0xFFFFFFFF)

/-- `save` writes the header and the records. -/
theorem SnapshotWriter.save_eq {book : LimitOrderBook} (consistent : Consistent book)
    (unnamed : Nat → UInt32) (sequence timestamp : UInt64) :
    save unnamed book sequence timestamp = .ok (SnapshotHeader.image.encode
      (SnapshotHeader.of unnamed book sequence timestamp) ++
        (bookRecords unnamed book).flatten) := by
  have rep := consistent.rep
  have counted (side : Side) : countLevels book (book.bestLevel side) =
      .ok (UInt32.ofNat (book.levelsOf side).length) := by
    have chain : Path (fun slot => (book.level slot).next) (book.bestLevel side)
        (levelSlots (book.levelsOf side)) := (rep.sides side).chain.forward
    rw [countLevels, countNodes_eq chain (by simpa using rep.levels_length_le side)]
    simp
  have written (side : Side) (output : SnapshotOutput) :
      writeLevels unnamed book levelCapacity (book.bestLevel side) output =
        .ok ((sideRecords unnamed (book.levelsOf side)).foldl SnapshotOutput.put output) :=
    writeLevels_eq unnamed (rep.sides side).chain.forward (rep.sides side).nodes
      (fun level member => rep.queue_length_le member) (rep.levels_length_le side) output
  simp only [save, counted, written, bind, Except.bind, ← foldl_append]
  rw [SnapshotOutput.foldl_put, Layout.drop_encode]
  rfl

/-! ## What is read -/

/-- A record at the front of the unread bytes is read. -/
theorem SnapshotInput.read_append (record rest : List UInt8) (crc : UInt32)
    (book : LimitOrderBook) {width : Nat} (isWidth : record.length = width) :
    SnapshotInput.read ⟨record ++ rest, crc, book⟩ width =
      some (record, ⟨rest, snapshotCrc crc record, book⟩) := by
  have enough : ¬(record ++ rest).length < width := by
    rw [length_append]
    omega
  simp only [SnapshotInput.read, enough, if_false, take_left' isWidth,
    drop_left' isWidth]

namespace SnapshotReader

variable {book : LimitOrderBook} {side : Side}

/-- The inner loop inserts the recorded orders one after the other. -/
theorem readOrders_eq (unnamed : Nat → UInt32) (price : Price) (queue : List OrderView)
    (rest : List UInt8) (crc : UInt32) (consistent : Consistent book)
    (fits : (BookContents.insertLevel side book.contents
      ⟨price, queue.map OrderView.contents⟩).Fits) :
    ∃ book', readOrders price side queue.length
        ⟨(queue.map (orderRecord unnamed)).flatten ++ rest, crc, book⟩ =
          .ok (true, ⟨rest, (queue.map (orderRecord unnamed)).foldl snapshotCrc crc, book'⟩) ∧
      Consistent book' ∧ book'.contents = BookContents.insertLevel side book.contents
        ⟨price, queue.map OrderView.contents⟩ := by
  induction queue generalizing book crc with
  | nil => exact ⟨book, rfl, consistent, rfl⟩
  | cons entry later ih =>
    have one : (book.contents.insert side price entry.contents).Fits :=
      @BookContents.Fits.of_insertLevel side _ ⟨price, later.map OrderView.contents⟩ fits
    obtain ⟨_, room, fresh⟩ := one.of_insert
    have read := SnapshotInput.read_append (orderRecord unnamed entry)
      ((later.map (orderRecord unnamed)).flatten ++ rest) crc book
      ((OrderSnapshot.image (unnamed entry.slot)).encode_length _)
    rw [← append_assoc, OrderSnapshot.image_width] at read
    have decoded : (OrderSnapshot.image 0).decode (orderRecord unnamed entry) =
        ⟨entry.key, entry.remainingQty, entry.prioritySeq⟩ :=
      OrderSnapshot.decode_image _ _
    obtain ⟨slot, book', inserted, kept, contents⟩ := @Consistent.insert_of_room book consistent
      (OrderSnapshot.dummy ⟨entry.key, entry.remainingQty, entry.prioritySeq⟩ price side)
      entry.prioritySeq room fresh
    have stepped : book'.contents = book.contents.insert side price entry.contents := contents
    obtain ⟨book'', ran, kept', contents'⟩ :=
      ih (snapshotCrc crc (orderRecord unnamed entry)) kept (by rw [stepped]; exact fits)
    refine ⟨book'', ?_, kept', ?_⟩
    · rw [length_cons, readOrders, map_cons, flatten_cons, read]
      simp only [decoded, inserted, bind, Except.bind]
      exact ran
    · rw [contents', stepped]
      rfl

/-- The outer loop inserts the recorded levels one after the other. -/
theorem readLevels_eq (unnamed : Nat → UInt32) (levels : List LevelView) (rest : List UInt8)
    (crc : UInt32) (consistent : Consistent book)
    (short : ∀ level ∈ levels, level.orders.length ≤ orderCapacity)
    (fits : (BookContents.insertLevels side book.contents
      (levels.map LevelView.contents)).Fits) :
    ∃ book', readLevels side levels.length
        ⟨(sideRecords unnamed levels).flatten ++ rest, crc, book⟩ =
          .ok (true, ⟨rest, (sideRecords unnamed levels).foldl snapshotCrc crc, book'⟩) ∧
      Consistent book' ∧ book'.contents = BookContents.insertLevels side book.contents
        (levels.map LevelView.contents) := by
  induction levels generalizing book crc with
  | nil => exact ⟨book, rfl, consistent, rfl⟩
  | cons level later ih =>
    have one : (BookContents.insertLevel side book.contents level.contents).Fits :=
      @BookContents.Fits.of_insertLevels side _ (later.map LevelView.contents) fits
    let lsnap : LevelSnapshot :=
      ⟨level.price, openQty level.orders, UInt32.ofNat level.orders.length⟩
    have count : lsnap.orderCount.toNat = level.orders.length := by
      have bound := short level mem_cons_self
      change level.orders.length % 2 ^ 32 = level.orders.length
      have capacity : orderCapacity = 10240 := rfl
      omega
    have decoded := LevelSnapshot.image.decode_encode_self lsnap
    have read := SnapshotInput.read_append (LevelSnapshot.image.encode lsnap)
      ((level.orders.map (orderRecord unnamed)).flatten ++
        ((sideRecords unnamed later).flatten ++ rest)) crc book
      (LevelSnapshot.image.encode_length _)
    obtain ⟨book', ran, kept, contents⟩ := readOrders_eq unnamed level.price level.orders
      ((sideRecords unnamed later).flatten ++ rest)
      (snapshotCrc crc (LevelSnapshot.image.encode lsnap)) consistent one
    have stepped : book'.contents =
        BookContents.insertLevel side book.contents level.contents := contents
    obtain ⟨book'', ran', kept', contents'⟩ := ih
      ((level.orders.map (orderRecord unnamed)).foldl snapshotCrc
        (snapshotCrc crc (LevelSnapshot.image.encode lsnap))) kept
      (fun other member => short other (mem_cons_of_mem _ member))
      (by rw [stepped]; exact fits)
    have whole : (sideRecords unnamed (level :: later)).flatten ++ rest =
        LevelSnapshot.image.encode lsnap ++ ((level.orders.map (orderRecord unnamed)).flatten ++
          ((sideRecords unnamed later).flatten ++ rest)) := by
      simp [sideRecords_cons, levelRecords, lsnap]
    refine ⟨book'', ?_, kept', ?_⟩
    · rw [length_cons, readLevels, whole, read]
      simp only [decoded, count]
      have ran : readOrders lsnap.price side level.orders.length _ = _ := ran
      rw [ran]
      simp only [bind, Except.bind, if_true]
      rw [ran', sideRecords_cons, foldl_append]
      rfl
    · rw [contents', stepped]
      rfl

/-- The header of a consistent book counts its levels. -/
theorem levelCounts (consistent : Consistent book) (side : Side) :
    (UInt32.ofNat (book.levelsOf side).length).toNat = (book.levelsOf side).length := by
  have bound := consistent.rep.levels_length_le side
  change (book.levelsOf side).length % 2 ^ 32 = (book.levelsOf side).length
  have capacity : levelCapacity = 1024 := rfl
  omega

/-- The records of a book are read into an empty one, under the counts and the checksum of the book.
-/
theorem loadBody_eq {empty : LimitOrderBook} (consistent : Consistent book)
    (fresh : Consistent empty) (isEmpty : empty.contents = fun _ => [])
    (unnamed : Nat → UInt32) {header : SnapshotHeader}
    (bidCount : header.bidLevelCount = UInt32.ofNat (book.levelsOf .buy).length)
    (askCount : header.askLevelCount = UInt32.ofNat (book.levelsOf .sell).length)
    (checksum : header.checksum = ~~~((bookRecords unnamed book).foldl snapshotCrc 0xFFFFFFFF)) :
    ∃ restored, loadBody header ⟨(bookRecords unnamed book).flatten, 0xFFFFFFFF, empty⟩ =
          .ok ⟨true, restored, header.sequence, header.timestamp⟩ ∧
      Consistent restored ∧ restored.contents = book.contents := by
  have rebuilt := consistent.insertLevels_eq
  have allFit : (BookContents.insertLevels .sell
      (BookContents.insertLevels .buy (fun _ => []) (book.contents .buy))
      (book.contents .sell)).Fits := by
    rw [rebuilt]
    exact consistent.fits
  have short (side : Side) (level : LevelView) (member : level ∈ book.levelsOf side) :=
    consistent.rep.queue_length_le member
  obtain ⟨bids, readBids, bidsKept, bidContents⟩ := @readLevels_eq empty .buy unnamed
    (book.levelsOf .buy) (sideRecords unnamed (book.levelsOf .sell)).flatten 0xFFFFFFFF fresh
    (short .buy) (by rw [isEmpty]; exact allFit.of_insertLevels)
  rw [isEmpty] at bidContents
  obtain ⟨restored, readAsks, kept, contents⟩ := @readLevels_eq bids .sell unnamed
    (book.levelsOf .sell) [] ((sideRecords unnamed (book.levelsOf .buy)).foldl snapshotCrc
      0xFFFFFFFF) bidsKept (short .sell) (by rw [bidContents]; exact allFit)
  rw [append_nil] at readAsks
  refine ⟨restored, ?_, kept, ?_⟩
  · simp only [loadBody, bidCount, askCount, checksum, bookRecords, flatten_append,
      levelCounts consistent, readBids, readAsks, kept.verifyInvariants, bind, Except.bind,
      Bool.not_true, Bool.false_eq_true, if_false, foldl_append, ne_eq, not_true_eq_false]
  · rw [contents, bidContents]
    exact rebuilt

/-- What was saved is loaded, into any book. -/
theorem load_save {target : LimitOrderBook} (consistent : Consistent book)
    (other : Consistent target) (unnamed : Nat → UInt32)
    (sequence timestamp outSequence outTimestamp : UInt64) :
    ∃ bytes restored, SnapshotWriter.save unnamed book sequence timestamp = .ok bytes ∧
      load (some bytes) target outSequence outTimestamp =
        .ok ⟨true, restored, sequence, timestamp⟩ ∧
      Consistent restored ∧ restored.contents = book.contents := by
  let header := SnapshotHeader.of unnamed book sequence timestamp
  obtain ⟨empty, cleared, fresh, isEmpty⟩ := other.clear
  obtain ⟨restored, loaded, kept, contents⟩ :=
    @loadBody_eq book empty consistent fresh isEmpty unnamed header rfl rfl rfl
  refine ⟨_, restored, SnapshotWriter.save_eq consistent unnamed sequence timestamp, ?_, kept,
    contents⟩
  have long := SnapshotHeader.image.le_length header (bookRecords unnamed book).flatten
  have magic : header.magic = snapshotMagic := rfl
  have version : header.version = snapshotVersion := rfl
  simp only [load, Nat.not_lt.mpr long, if_false, SnapshotHeader.image.decode_encode,
    Layout.drop_encode, header, magic, version, ne_eq, not_true_eq_false, or_self, cleared,
    bind, Except.bind]
  exact loaded

end SnapshotReader

/-- A snapshot restores the bids and asks with their queues and totals, and a lookup that leads to
exactly the restored orders, whatever the target held before. -/
theorem snapshot_roundTrip {book target : LimitOrderBook} (consistent : Consistent book)
    (other : Consistent target) (unnamed : Nat → UInt32)
    (sequence timestamp outSequence outTimestamp : UInt64) :
    ∃ bytes restored, SnapshotWriter.save unnamed book sequence timestamp = .ok bytes ∧
      SnapshotReader.load (some bytes) target outSequence outTimestamp =
        .ok ⟨true, restored, sequence, timestamp⟩ ∧
      (∀ side, restored.records side = book.records side) ∧
      (∀ orderId slot, restored.findOrder orderId = some slot ↔
        ∃ side, Links (restored.levelsOf side) orderId slot) ∧
      Consistent restored := by
  obtain ⟨bytes, restored, saved, loaded, kept, contents⟩ := SnapshotReader.load_save consistent
    other unnamed sequence timestamp outSequence outTimestamp
  refine ⟨bytes, restored, saved, loaded, ?_, fun _ _ => kept.findOrder_eq_some, kept⟩
  intro side
  rw [kept.records_eq, consistent.records_eq, contents]

/-- A book of two orders is restored into a new one. -/
theorem snapshot_roundTrip_twoOrders :
    ∃ book, Consistent book ∧
      book.contents .buy = [⟨100, [⟨⟨1, 7⟩, 10, 3⟩]⟩] ∧
      book.contents .sell = [⟨105, [⟨⟨1, 8⟩, 20, 4⟩]⟩] ∧
      ∃ bytes restored, SnapshotWriter.save (fun _ => 0xAB) book 4 1000 = .ok bytes ∧
        SnapshotReader.load (some bytes) (LimitOrderBook.new none) 0 0 =
          .ok ⟨true, restored, 4, 1000⟩ ∧
        (∀ side, restored.records side = book.records side) ∧
        (∀ orderId slot, restored.findOrder orderId = some slot ↔
          ∃ side, Links (restored.levelsOf side) orderId slot) ∧
        Consistent restored := by
  obtain ⟨_, first, _, firstKept, firstContents⟩ :=
    Consistent.insert_new none (OrderSnapshot.dummy ⟨⟨1, 7⟩, 10, 3⟩ 100 .buy) 3
  obtain ⟨_, book, _, kept, contents⟩ := @Consistent.insert_of_room _ firstKept
    (OrderSnapshot.dummy ⟨⟨1, 8⟩, 20, 4⟩ 105 .sell) 4
    (by rw [firstContents]; exact ⟨by decide, Or.inl (by decide)⟩)
    (by rw [firstContents]; decide)
  rw [firstContents] at contents
  exact ⟨book, kept, by rw [contents]; rfl, by rw [contents]; rfl,
    snapshot_roundTrip kept (Consistent.new none) (fun _ => 0xAB) 4 1000 0 0⟩

end FluxTrade
