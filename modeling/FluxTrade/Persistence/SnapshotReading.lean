import FluxTrade.Library.Execution
import FluxTrade.Persistence.Crc
import FluxTrade.Persistence.Snapshot

/-!
# What the snapshot reader consumes

Which records a reader finds depends on the bytes and the counts in them only:
`scanLevels` says how many levels and orders it reads and, if none is missing,
how many bytes they take. The checksum is that of the bytes taken, however they
were cut into records. The book decides only whether the orders find room.
-/

namespace FluxTrade

open BitErrors Execution LevelSnapshot SnapshotInput List

/-! ## Checksums -/

namespace Checksum

/-- A flipped bit changes the state after the bytes. -/
theorem foldl_flip_ne {place : Nat} {bytes : List UInt8} (bit : Fin 8)
    (inside : place < bytes.length) (start : UInt32) :
    (flipBit place bit bytes).foldl crcByte start ≠ bytes.foldl crcByte start := by
  obtain ⟨front, byte, other, back, split, _, differ, flipped⟩ := exists_flipBit bit inside
  rw [flipped, split]
  exact foldl_ne crcByte_lossless crcByte_sensitive differ front back start

end Checksum

/-- The complement of the checksum is a plain fold. -/
theorem not_snapshotCrc (crc : UInt32) (record : List UInt8) :
    ~~~snapshotCrc crc record = record.foldl Checksum.crcByte (~~~crc) :=
  UInt32.not_not

/-- The checksum of records does not depend on where they are cut. -/
theorem not_foldl_snapshotCrc (records : List (List UInt8)) (crc : UInt32) :
    ~~~records.foldl snapshotCrc crc = records.flatten.foldl Checksum.crcByte (~~~crc) := by
  induction records generalizing crc with
  | nil => rfl
  | cons record rest ih =>
    rw [foldl_cons, ih, not_snapshotCrc, flatten_cons, foldl_append]

/-! ## Insertions counted -/

/-- The contents hold the resting orders. -/
theorem held_length (view : BookView) :
    (contentsOf view).held.length = (restingBoth view).length := by
  simp only [BookContents.held, contentsOf, heldOrders_contents, restingBoth, length_append,
    length_map]

/-- An insertion adds one order, and a level if its price has none. -/
theorem BookRep.insert_counts {book next : LimitOrderBook} (rep : BookRep book book.levelsOf)
    {order : Order} {prioritySeq : UInt64} {slot : Nat}
    (inserted : book.insert order prioritySeq = .ok (slot, next)) :
    BookRep next next.levelsOf ∧
      next.contents.held.length = book.contents.held.length + 1 ∧
      next.contents.levelCount = book.contents.levelCount +
        (if (book.contents order.side).any (fun level => level.price = order.price) then 0
          else 1) ∧
      (next.contents order.side).any (fun level => level.price = order.price) = true := by
  rcases rep.insert order prioritySeq with ⟨_, node, _, same, placed, _⟩ | ⟨failed, _⟩
  · cases inserted.symm.trans same
    have contents : next.contents = book.contents.insert order.side order.price
        ((order.live prioritySeq).view slot).contents := by
      rw [LimitOrderBook.contents, ← placed.view_eq, contentsOf_update, contents_placeOrder]
      rfl
    refine ⟨placed.view_eq ▸ placed, ?_, ?_, ?_⟩
    · rw [LimitOrderBook.contents, LimitOrderBook.contents, ← placed.view_eq, held_length,
        held_length, (restingBoth_update ..).length_eq, length_append,
        (placeOrder_perm (rep.sides order.side).sorted).length_eq,
        (restingBoth_perm book.levelsOf order.side).length_eq, length_append,
        length_cons]
      omega
    · rw [contents, BookContents.levelCount_insert]
    · rw [contents]
      exact BookContents.any_insert ..
  · cases inserted.symm.trans failed

/-! ## Scanning -/

/-- What a number of records come to, as far as the bytes go. -/
structure RecordScan where
  levels : Nat
  orders : Nat
  /-- The bytes that the records take, if none is missing. -/
  size : Option Nat

namespace RecordScan

/-- Records and, if none is missing, those behind them. -/
def andThen (front : RecordScan) (back : Nat → RecordScan) : RecordScan :=
  match front.size with
  | none => front
  | some size => ⟨front.levels + (back size).levels, front.orders + (back size).orders,
      (back size).size.map (size + ·)⟩

/-- Scans compose associatively. -/
theorem andThen_assoc (front : RecordScan) (middle back : Nat → RecordScan) :
    (front.andThen middle).andThen back =
      front.andThen fun size => (middle size).andThen fun more => back (size + more) := by
  cases first : front.size with
  | none => simp only [andThen, first]
  | some size =>
    cases second : (middle size).size with
    | none => simp only [andThen, first, second, Option.map_none]
    | some more =>
      simp only [andThen, first, second, Option.map_some, Nat.add_assoc, Option.map_map]
      rfl

/-- A scan counts what its front counts. -/
theorem le_andThen (front : RecordScan) (back : Nat → RecordScan) :
    front.levels ≤ (front.andThen back).levels ∧ front.orders ≤ (front.andThen back).orders := by
  unfold andThen
  split
  · exact ⟨Nat.le_refl _, Nat.le_refl _⟩
  · exact ⟨Nat.le_add_right _ _, Nat.le_add_right _ _⟩

end RecordScan

/-- Scan the record of a level and of the orders it counts. -/
def scanLevel (bytes : List UInt8) : RecordScan :=
  let orders := (image.decode (bytes.take 24)).orderCount.toNat
  if bytes.length < 24 then ⟨0, 0, none⟩
  else if bytes.length < 24 + 32 * orders then ⟨1, (bytes.length - 24) / 32, none⟩
  else ⟨1, orders, some (24 + 32 * orders)⟩

/-- A level whose own record is there. -/
theorem scanLevel_eq {bytes : List UInt8} (long : 24 ≤ bytes.length) {orders : Nat}
    (counted : (image.decode (bytes.take 24)).orderCount.toNat = orders) :
    scanLevel bytes = ⟨1, min orders ((bytes.length - 24) / 32),
      (if bytes.length - 24 < 32 * orders then none else some (32 * orders)).map (24 + ·)⟩ := by
  unfold scanLevel
  grind

/-- Scan the records of so many levels. -/
def scanLevels : Nat → List UInt8 → RecordScan
  | 0, _ => ⟨0, 0, some 0⟩
  | count + 1, bytes =>
    (scanLevel bytes).andThen fun size => scanLevels count (bytes.drop size)

/-- Levels that are read after others continue where these end. -/
theorem scanLevels_add (front back : Nat) (bytes : List UInt8) :
    scanLevels (front + back) bytes =
      (scanLevels front bytes).andThen fun size => scanLevels back (bytes.drop size) := by
  induction front generalizing bytes with
  | zero =>
    rw [Nat.zero_add, scanLevels, RecordScan.andThen]
    simp
  | succ front ih =>
    rw [Nat.succ_add, scanLevels, scanLevels, RecordScan.andThen_assoc]
    simp only [ih, drop_drop]

/-- No more levels are read than are looked for. -/
theorem scanLevels_levels_le (count : Nat) (bytes : List UInt8) :
    (scanLevels count bytes).levels ≤ count := by
  induction count generalizing bytes with
  | zero => exact Nat.le_refl _
  | succ count ih =>
    have one : (scanLevel bytes).levels ≤ 1 := by
      unfold scanLevel
      grind
    unfold scanLevels RecordScan.andThen
    split
    · omega
    · rename_i size _
      have later := ih (bytes.drop size)
      change _ + (scanLevels count (bytes.drop size)).levels ≤ _
      omega

/-- Records of which none is missing take 24 bytes a level and 32 an order. -/
theorem scanLevels_size {count size : Nat} {bytes : List UInt8}
    (whole : (scanLevels count bytes).size = some size) :
    size = 24 * count + 32 * (scanLevels count bytes).orders ∧ size ≤ bytes.length := by
  induction count generalizing bytes size with
  | zero =>
    cases whole
    exact ⟨rfl, Nat.zero_le _⟩
  | succ count ih =>
    have one (first : Nat) (found : (scanLevel bytes).size = some first) :
        first = 24 + 32 * (scanLevel bytes).orders ∧ first ≤ bytes.length := by
      unfold scanLevel at found ⊢
      grind
    unfold scanLevels RecordScan.andThen at whole ⊢
    split at whole
    · rename_i missing
      cases missing.symm.trans whole
    · rename_i first found
      obtain ⟨more, later, rfl⟩ := Option.map_eq_some_iff.mp whole
      obtain ⟨same, fits⟩ := one first found
      obtain ⟨same', fits'⟩ := ih later
      rw [length_drop] at fits'
      change _ = _ + 32 * (_ + (scanLevels count (bytes.drop first)).orders) ∧ _
      constructor <;> omega

/-! ## Any bytes -/

namespace SnapshotInput

variable {before middle after : SnapshotInput} {complete : Bool} {size : Option Nat}

/-- The reader has gone over records of the given size, or misses one. -/
def Stops (before after : SnapshotInput) (complete : Bool) (size : Option Nat) : Prop :=
  complete = size.isSome ∧ ∀ bytes ∈ size, after.rest = before.rest.drop bytes ∧
    ~~~after.crc = (before.rest.take bytes).foldl Checksum.crcByte (~~~before.crc)

/-- Two reads in a row. -/
theorem Stops.trans {first : Nat} (left : before.Stops middle true (some first))
    (right : middle.Stops after complete size) :
    before.Stops after complete (size.map (first + ·)) := by
  obtain ⟨rest, crc⟩ := left.2 first rfl
  refine ⟨by rw [right.1, Option.isSome_map], ?_⟩
  rintro _ found
  obtain ⟨more, isSize, rfl⟩ := Option.mem_map.mp found
  obtain ⟨rest', crc'⟩ := right.2 more isSize
  rw [rest', crc', rest, crc, drop_drop, take_add, foldl_append]
  exact ⟨rfl, rfl⟩

/-- A record that is read is the next one. -/
theorem read_eq_some {width : Nat} {record : List UInt8}
    (found : before.read width = some (record, after)) :
    width ≤ before.rest.length ∧ record = before.rest.take width ∧ after.book = before.book ∧
      before.Stops after true (some width) := by
  unfold read at found
  split at found
  · cases found
  · rename_i long
    cases found
    refine ⟨Nat.le_of_not_lt long, rfl, rfl, rfl, ?_⟩
    rintro _ ⟨⟩
    exact ⟨rfl, not_snapshotCrc _ _⟩

/-- A read fails on a short file. -/
theorem read_eq_none {width : Nat} (missing : before.read width = none) :
    before.rest.length < width := by
  unfold read at missing
  split at missing
  · assumption
  · cases missing

/-- The book has grown by so many orders and at most so many levels. -/
structure Grows (before after : SnapshotInput) (levels orders : Nat) : Prop where
  rep : BookRep after.book after.book.levelsOf
  held : after.book.contents.held.length = before.book.contents.held.length + orders
  levels : after.book.contents.levelCount ≤ before.book.contents.levelCount + levels

/-- Two stretches in a row. -/
theorem Grows.trans {levels orders levels' orders' : Nat} (left : before.Grows middle levels orders)
    (right : middle.Grows after levels' orders') :
    before.Grows after (levels + levels') (orders + orders') :=
  ⟨right.rep, by rw [right.held, left.held, Nat.add_assoc],
    right.levels.trans (by have bound := left.levels; omega)⟩

/-- The orders of a book that has grown have found room. -/
theorem Grows.orders_le {levels orders : Nat} (grows : before.Grows after levels orders) :
    before.book.contents.held.length + orders ≤ orderCapacity := by
  have room : _ + after.book.contents.held.length = _ := grows.rep.free_lengths.1
  rw [grows.held] at room
  omega

end SnapshotInput

namespace SnapshotReader

variable {side : Side} {price : Price} {count : Nat} {input after : SnapshotInput}
  {complete : Bool}

/-- The orders of a level are read if they are all there. -/
theorem readOrders_stops (ran : readOrders price side count input = .ok (complete, after)) :
    input.Stops after complete
      (if input.rest.length < 32 * count then none else some (32 * count)) := by
  induction count generalizing input with
  | zero =>
    cases ran
    refine ⟨rfl, ?_⟩
    rintro _ ⟨⟩
    exact ⟨rfl, rfl⟩
  | succ count ih =>
    rw [readOrders] at ran
    cases found : input.read (OrderSnapshot.image 0).width with
    | none =>
      have short : input.rest.length < 32 := read_eq_none found
      rw [found] at ran
      cases ran
      rw [if_pos (by omega)]
      exact ⟨rfl, fun _ named => by cases named⟩
    | some taken =>
      obtain ⟨record, next⟩ := taken
      rw [found] at ran
      obtain ⟨⟨slot, book⟩, inserted, rest⟩ := bind_eq_ok ran
      obtain ⟨long, _, _, first⟩ := read_eq_some found
      have long : 32 ≤ input.rest.length := long
      have left : next.rest = input.rest.drop 32 := (first.2 _ rfl).1
      have both := @Stops.trans input { next with book } after _ _ 32 first (ih rest)
      have same : (if next.rest.length < 32 * count then none else some (32 * count)).map (32 + ·) =
          if input.rest.length < 32 * (count + 1) then none else some (32 * (count + 1)) := by
        rw [left, length_drop]
        grind
      rwa [same] at both

/-- A level that has been found is read if its orders are all there. -/
theorem readLevel_stops {record : List UInt8} {next : SnapshotInput}
    (found : input.read image.width = some (record, next))
    (ran : readOrders (image.decode record).price side
      (image.decode record).orderCount.toNat next = .ok (complete, after)) :
    input.Stops after complete (scanLevel input.rest).size := by
  obtain ⟨long, rfl, _, first⟩ := read_eq_some found
  have left : next.rest.length = input.rest.length - 24 := by
    rw [(first.2 _ rfl).1]
    exact length_drop
  have both := first.trans (readOrders_stops ran)
  rw [left] at both
  rw [scanLevel_eq long rfl]
  exact both

/-- Levels are read if all records are there. -/
theorem readLevels_stops (ran : readLevels side count input = .ok (complete, after)) :
    input.Stops after complete (scanLevels count input.rest).size := by
  induction count generalizing input with
  | zero =>
    cases ran
    refine ⟨rfl, ?_⟩
    rintro _ ⟨⟩
    exact ⟨rfl, rfl⟩
  | succ count ih =>
    rw [readLevels] at ran
    rw [scanLevels]
    cases found : input.read image.width with
    | none =>
      have short : input.rest.length < 24 := read_eq_none found
      rw [found] at ran
      cases ran
      simp only [scanLevel, if_pos short, RecordScan.andThen]
      exact ⟨rfl, fun _ named => by cases named⟩
    | some taken =>
      rw [found] at ran
      obtain ⟨⟨all, middle⟩, orders, rest⟩ := bind_eq_ok ran
      have level := readLevel_stops found orders
      unfold RecordScan.andThen
      cases size : (scanLevel input.rest).size with
      | none =>
        rw [size] at level
        cases level.1
        cases rest
        simp only [size]
        exact level
      | some width =>
        rw [size] at level
        cases level.1
        have later := ih rest
        rw [(level.2 width rfl).1] at later
        exact level.trans later

/-- Orders are inserted as far as they are there and find room. -/
theorem readOrders_grows (rep : BookRep input.book input.book.levelsOf)
    (level : input.book.contents.levelCount < levelCapacity ∨
      (input.book.contents side).any (fun level => level.price = price) = true) :
    (∃ complete after, readOrders price side count input = .ok (complete, after) ∧
      input.Grows after
        (if (input.book.contents side).any (fun level => level.price = price) then 0 else 1)
        (min count (input.rest.length / 32))) ∨
    readOrders price side count input = .error .badAlloc ∧
      orderCapacity < input.book.contents.held.length + min count (input.rest.length / 32) := by
  induction count generalizing input with
  | zero => exact .inl ⟨_, _, rfl, rep, by simp, Nat.le_add_right _ _⟩
  | succ count ih =>
    rw [readOrders]
    cases found : input.read (OrderSnapshot.image 0).width with
    | none =>
      have short : input.rest.length < 32 := read_eq_none found
      exact .inl ⟨_, _, rfl, rep, by omega, Nat.le_add_right _ _⟩
    | some taken =>
      obtain ⟨record, next⟩ := taken
      obtain ⟨long, _, same, first⟩ := read_eq_some found
      have long : 32 ≤ input.rest.length := long
      have left : next.rest.length = input.rest.length - 32 := by
        rw [(first.2 _ rfl).1]
        exact length_drop
      let osnap := (OrderSnapshot.image 0).decode record
      by_cases room : input.book.contents.HasRoom side price
      · obtain ⟨slot, _, book, inserted, _⟩ := @BookRep.insert_of_room input.book
          input.book.levelsOf rep (osnap.dummy price side) osnap.prioritySeq room
        obtain ⟨rep', held, levels, priced⟩ := rep.insert_counts inserted
        have priced : (book.contents side).any (fun level => level.price = price) = true := priced
        simp only [same, bind, Except.bind]
        rw [inserted]
        have counts := @ih { next with book } rep' (.inr priced)
        rw [if_pos priced] at counts
        refine counts.imp ?_ ?_
        · rintro ⟨complete, after, ran, grows⟩
          refine ⟨complete, after, ran, grows.rep, ?_, grows.levels.trans levels.le⟩
          have total := grows.held
          change _ = book.contents.held.length + min count (next.rest.length / 32) at total
          omega
        · rintro ⟨failed, crowded⟩
          refine ⟨failed, ?_⟩
          change _ < book.contents.held.length + min count (next.rest.length / 32) at crowded
          omega
      · have failed := @BookRep.insert_of_full input.book input.book.levelsOf rep
          (osnap.dummy price side) osnap.prioritySeq room
        simp only [same, bind, Except.bind]
        rw [failed]
        refine .inr ⟨rfl, ?_⟩
        have full : orderCapacity ≤ input.book.contents.held.length := by
          by_contra few
          refine room ⟨Nat.lt_of_not_le few, level.imp_right fun present => ?_⟩
          obtain ⟨home, member, priced⟩ := any_eq_true.mp present
          exact ⟨home, member, of_decide_eq_true priced⟩
        omega

/-- Levels are inserted as far as their records are there and their orders find room. -/
theorem readLevels_grows (rep : BookRep input.book input.book.levelsOf)
    (levels : input.book.contents.levelCount + (scanLevels count input.rest).levels ≤
      levelCapacity) :
    (∃ complete after, readLevels side count input = .ok (complete, after) ∧
      input.Grows after (scanLevels count input.rest).levels
        (scanLevels count input.rest).orders) ∨
    readLevels side count input = .error .badAlloc ∧
      orderCapacity < input.book.contents.held.length + (scanLevels count input.rest).orders := by
  induction count generalizing input with
  | zero => exact .inl ⟨_, _, rfl, rep, rfl, Nat.le_refl _⟩
  | succ count ih =>
    rw [readLevels]
    rw [scanLevels] at levels ⊢
    cases found : input.read image.width with
    | none =>
      have short : input.rest.length < 24 := read_eq_none found
      simp only [scanLevel, if_pos short, RecordScan.andThen]
      exact .inl ⟨_, _, rfl, rep, rfl, Nat.le_refl _⟩
    | some taken =>
      obtain ⟨record, next⟩ := taken
      obtain ⟨long, isRecord, same, first⟩ := read_eq_some found
      have left : next.rest.length = input.rest.length - 24 := by
        rw [(first.2 _ rfl).1]
        exact length_drop
      let lsnap := image.decode record
      have scanned := @scanLevel_eq input.rest long lsnap.orderCount.toNat
        (by subst isRecord; rfl)
      have one : (scanLevel input.rest).levels = 1 := by rw [scanned]
      have some' : (scanLevel input.rest).orders =
          min lsnap.orderCount.toNat ((input.rest.length - 24) / 32) := by rw [scanned]
      obtain ⟨moreLevels, moreOrders⟩ := (scanLevel input.rest).le_andThen fun size =>
        scanLevels count (input.rest.drop size)
      have grown := @readOrders_grows side lsnap.price lsnap.orderCount.toNat next (same ▸ rep)
        (.inl (by rw [same]; omega))
      rw [left, ← some', same] at grown
      simp only [bind, Except.bind]
      rcases grown with ⟨all, middle, ran, grows⟩ | ⟨failed, crowded⟩
      · have level := readLevel_stops found ran
        have created : middle.book.contents.levelCount ≤ input.book.contents.levelCount + 1 := by
          have bound := grows.levels
          rw [same] at bound
          split at bound <;> omega
        have held := grows.held
        rw [same] at held
        rw [ran]
        unfold RecordScan.andThen at levels ⊢
        cases size : (scanLevel input.rest).size with
        | none =>
          rw [size] at level
          cases level.1
          exact .inl ⟨_, _, rfl, grows.rep, held, by simp only; omega⟩
        | some width =>
          rw [size] at level levels
          cases level.1
          have later := @ih middle grows.rep
          rw [(level.2 width rfl).1] at later
          simp only at levels ⊢
          refine (later (by omega)).imp ?_ ?_
          · rintro ⟨complete, after, ran', grows'⟩
            have held' := grows'.held
            have levels' := grows'.levels
            exact ⟨complete, after, ran', grows'.rep, by omega, by omega⟩
          · rintro ⟨failed, crowded⟩
            exact ⟨failed, by omega⟩
      · rw [failed]
        exact .inr ⟨rfl, by omega⟩

/-- What levels that were read have done to the book. -/
theorem readLevels_grown (rep : BookRep input.book input.book.levelsOf)
    (levels : input.book.contents.levelCount + (scanLevels count input.rest).levels ≤
      levelCapacity) (ran : readLevels side count input = .ok (complete, after)) :
    input.Grows after (scanLevels count input.rest).levels
      (scanLevels count input.rest).orders := by
  rcases @readLevels_grows side count input rep levels with ⟨_, _, same, grows⟩ | ⟨failed, _⟩
  · cases ran.symm.trans same
    exact grows
  · cases ran.symm.trans failed

end SnapshotReader

/-! ## Whole records -/

/-- Bytes in which every level is followed by as many orders as it counts. -/
inductive Shaped : List Nat → List UInt8 → Prop where
  | nil : Shaped [] []
  | cons {count : Nat} {counts : List Nat} {record orders rest : List UInt8}
      (isLevel : record.length = 24)
      (counted : (image.decode record).orderCount.toNat = count)
      (areOrders : orders.length = 32 * count) (later : Shaped counts rest) :
      Shaped (count :: counts) (record ++ (orders ++ rest))

/-- The bytes that levels with so many orders take. -/
def shapedLength (counts : List Nat) : Nat := (counts.map fun count => 24 + 32 * count).sum

/-- The bytes of one more level. -/
theorem shapedLength_cons (count : Nat) (counts : List Nat) :
    shapedLength (count :: counts) = 24 + 32 * count + shapedLength counts := by
  rw [shapedLength, map_cons, sum_cons]
  rfl

/-- The bytes of the levels and of their orders. -/
theorem shapedLength_eq (counts : List Nat) :
    shapedLength counts = 24 * counts.length + 32 * counts.sum := by
  induction counts with
  | nil => rfl
  | cons count counts ih =>
    rw [shapedLength_cons, ih, length_cons, sum_cons]
    omega

namespace Shaped

variable {counts front back : List Nat} {bytes : List UInt8}

/-- The length of a shaped file. -/
theorem length_eq (shaped : Shaped counts bytes) : bytes.length = shapedLength counts := by
  induction shaped with
  | nil => rfl
  | cons isLevel _ areOrders _ ih =>
    rw [length_append, length_append, isLevel, areOrders, ih, shapedLength_cons]
    omega

/-- Shaped files in a row. -/
theorem append {other : List UInt8} (shaped : Shaped front bytes) (shaped' : Shaped back other) :
    Shaped (front ++ back) (bytes ++ other) := by
  induction shaped with
  | nil => exact shaped'
  | cons isLevel counted areOrders _ ih =>
    rw [append_assoc, append_assoc]
    exact .cons isLevel counted areOrders ih

end Shaped

/-- The place belongs to the order count of a level. -/
def OrderCountAt (counts : List Nat) (place : Nat) : Prop :=
  ∃ front count back, counts = front ++ count :: back ∧
    shapedLength front + 16 ≤ place ∧ place < shapedLength front + 20

/-- A count behind one more level. -/
theorem OrderCountAt.later {count : Nat} {counts : List Nat} {place : Nat}
    (isCount : OrderCountAt counts place) :
    OrderCountAt (count :: counts) (24 + 32 * count + place) := by
  obtain ⟨front, other, back, rfl, low, high⟩ := isCount
  refine ⟨count :: front, other, back, rfl, ?_, ?_⟩ <;> rw [shapedLength_cons] <;> omega

/-- Where a level's record keeps its order count. -/
theorem LevelSnapshot.orderCount_decode (record : List UInt8) :
    (image.decode record).orderCount =
      UInt32.ofNat (Layout.fromLittleEndian (field 16 4 record)) := by
  change UInt32.ofNat (Layout.fromLittleEndian (((record.drop 8).drop 8).take 4)) = _
  rw [drop_drop]
  rfl

/-- A flip outside the order counts leaves the shape. -/
theorem Shaped.flip {counts : List Nat} {bytes : List UInt8} (shaped : Shaped counts bytes)
    {place : Nat} (bit : Fin 8) (elsewhere : ¬OrderCountAt counts place) :
    Shaped counts (flipBit place bit bytes) := by
  induction shaped generalizing place with
  | nil =>
    rw [flipBit, modify_nil]
    exact .nil
  | @cons count counts record orders rest isLevel counted areOrders later ih =>
    by_cases inRecord : place < record.length
    · have outside : place < 16 ∨ 16 + 4 ≤ place := by
        by_contra within
        refine elsewhere ⟨[], count, counts, rfl, ?_, ?_⟩ <;> simp only [shapedLength,
          map_nil, sum_nil] <;> omega
      rw [flipBit_append_left bit _ inRecord]
      refine .cons (by rw [flipBit_length, isLevel]) ?_ areOrders later
      rw [orderCount_decode, field_flip_outside bit outside,
        ← orderCount_decode, counted]
    · obtain ⟨inBody, rfl⟩ := Nat.exists_eq_add_of_le (Nat.le_of_not_lt inRecord)
      rw [flipBit_append_right]
      by_cases inOrders : inBody < orders.length
      · rw [flipBit_append_left bit _ inOrders]
        exact .cons isLevel counted (by rw [flipBit_length, areOrders]) later
      · obtain ⟨inRest, rfl⟩ := Nat.exists_eq_add_of_le (Nat.le_of_not_lt inOrders)
        rw [flipBit_append_right]
        refine .cons isLevel counted areOrders (ih fun isCount => elsewhere ?_)
        rw [isLevel, areOrders, ← Nat.add_assoc]
        exact isCount.later

/-- The scan of a level and its orders, whatever follows. -/
theorem scanLevel_append {record orders : List UInt8} {count : Nat} (rest : List UInt8)
    (isLevel : record.length = 24)
    (counted : (image.decode record).orderCount.toNat = count)
    (areOrders : orders.length = 32 * count) :
    scanLevel (record ++ (orders ++ rest)) = ⟨1, count, some (24 + 32 * count)⟩ ∧
      (record ++ (orders ++ rest)).drop (24 + 32 * count) = rest := by
  have length : (record ++ (orders ++ rest)).length = 24 + 32 * count + rest.length := by
    rw [length_append, length_append, isLevel, areOrders]
    omega
  have behind : (record ++ orders).length = 24 + 32 * count := by
    rw [length_append, isLevel, areOrders]
  constructor
  · rw [scanLevel, take_left' isLevel, counted, length, if_neg (by omega), if_neg (by omega)]
  · rw [← append_assoc]
    exact drop_left' behind

/-- However many levels are looked for, shaped bytes hold those of their shape. -/
theorem Shaped.scan_le {counts : List Nat} {bytes : List UInt8} (shaped : Shaped counts bytes)
    (count : Nat) : (scanLevels count bytes).levels ≤ counts.length ∧
      (scanLevels count bytes).orders ≤ counts.sum := by
  induction shaped generalizing count with
  | nil => cases count <;> exact ⟨Nat.le_refl _, Nat.le_refl _⟩
  | @cons _ _ _ _ rest isLevel counted areOrders _ ih =>
    cases count with
    | zero => exact ⟨Nat.zero_le _, Nat.zero_le _⟩
    | succ count =>
      obtain ⟨one, behind⟩ := scanLevel_append rest isLevel counted areOrders
      obtain ⟨levels, orders⟩ := ih count
      simp only [scanLevels, one, RecordScan.andThen, behind, length_cons, sum_cons]
      omega

/-- Shaped bytes hold all records of their shape. -/
theorem Shaped.scan {counts : List Nat} {bytes : List UInt8} (shaped : Shaped counts bytes) :
    (scanLevels counts.length bytes).size = some bytes.length := by
  induction shaped with
  | nil => rfl
  | @cons _ _ _ _ rest isLevel counted areOrders _ ih =>
    obtain ⟨one, behind⟩ := scanLevel_append rest isLevel counted areOrders
    simp only [length_cons, scanLevels, one, RecordScan.andThen, behind, ih, Option.map_some,
      length_append, isLevel, areOrders, Nat.add_assoc]

end FluxTrade
