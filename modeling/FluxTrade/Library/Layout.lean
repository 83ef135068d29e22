import Mathlib.Algebra.Order.Ring.Int
import Mathlib.Data.Nat.ModEq

/-!
# Memory images of fixed-size records

A layout writes a value as a fixed number of bytes and reads it back from the
front of a byte list. It carries the law that reading what was written returns
the value, whatever follows. Words are little-endian; records are built from
their fields in memory order.
-/

namespace Layout

/-- The `width` little-endian bytes of a number. -/
def littleEndian : Nat → Nat → List UInt8
  | 0, _ => []
  | width + 1, number => UInt8.ofNat (number % 256) :: littleEndian width (number / 256)

/-- The number that little-endian bytes denote. -/
def fromLittleEndian : List UInt8 → Nat
  | [] => 0
  | byte :: rest => byte.toNat + 256 * fromLittleEndian rest

/-- The number of bytes. -/
theorem littleEndian_length (width number : Nat) : (littleEndian width number).length = width := by
  induction width generalizing number with
  | zero => rfl
  | succ width ih => simp only [littleEndian, List.length_cons, ih]

/-- Bytes are read back. -/
theorem fromLittleEndian_littleEndian (width number : Nat) :
    fromLittleEndian (littleEndian width number) = number % 256 ^ width := by
  induction width generalizing number with
  | zero => simp only [littleEndian, fromLittleEndian, Nat.pow_zero, Nat.mod_one]
  | succ width ih =>
    have byte : (UInt8.ofNat (number % 256)).toNat = number % 256 := by
      change number % 256 % 2 ^ 8 = number % 256
      omega
    rw [littleEndian, fromLittleEndian, ih, byte, Nat.pow_succ', Nat.mod_mul]

end Layout

/-- A fixed-size memory image. -/
structure Layout (α : Type*) where
  width : Nat
  encode : α → List UInt8
  decode : List UInt8 → α
  encode_length : ∀ value, (encode value).length = width
  decode_encode : ∀ value rest, decode (encode value ++ rest) = value

namespace Layout

variable {α β : Type*}

/-- A word that is a number below `256 ^ width`. -/
def word (width : Nat) (toNat : α → Nat) (ofNat : Nat → α)
    (bound : ∀ value, toNat value < 256 ^ width)
    (inverse : ∀ value, ofNat (toNat value) = value) : Layout α where
  width := width
  encode value := littleEndian width (toNat value)
  decode bytes := ofNat (fromLittleEndian (bytes.take width))
  encode_length value := littleEndian_length width _
  decode_encode value rest := by
    rw [List.take_left' (littleEndian_length width _), fromLittleEndian_littleEndian,
      Nat.mod_eq_of_lt (bound value), inverse]

/-- One byte. -/
def uint8 : Layout UInt8 :=
  word 1 UInt8.toNat UInt8.ofNat (fun value => value.toNat_lt) fun _ => UInt8.ofNat_toNat

/-- A word of two bytes. -/
def uint16 : Layout UInt16 :=
  word 2 UInt16.toNat UInt16.ofNat (fun value => value.toNat_lt) fun _ => UInt16.ofNat_toNat

/-- A word of four bytes. -/
def uint32 : Layout UInt32 :=
  word 4 UInt32.toNat UInt32.ofNat (fun value => value.toNat_lt) fun _ => UInt32.ofNat_toNat

/-- A word of eight bytes. -/
def uint64 : Layout UInt64 :=
  word 8 UInt64.toNat UInt64.ofNat (fun value => value.toNat_lt) fun _ => UInt64.ofNat_toNat

/-- The image of another type's values. -/
def map (layout : Layout α) (into : β → α) (back : α → β)
    (inverse : ∀ value, back (into value) = value) : Layout β where
  width := layout.width
  encode value := layout.encode (into value)
  decode bytes := back (layout.decode bytes)
  encode_length value := layout.encode_length _
  decode_encode value rest := by rw [layout.decode_encode, inverse]

/-- Two fields in memory order. -/
def pair (left : Layout α) (right : Layout β) : Layout (α × β) where
  width := left.width + right.width
  encode value := left.encode value.1 ++ right.encode value.2
  decode bytes := (left.decode bytes, right.decode (bytes.drop left.width))
  encode_length value := by
    rw [List.length_append, left.encode_length, right.encode_length]
  decode_encode value rest := by
    rw [List.append_assoc, left.decode_encode, List.drop_left' (left.encode_length _),
      right.decode_encode]

/-- Reading through a map. -/
theorem map_decode (layout : Layout α) (into : β → α) (back : α → β)
    (inverse : ∀ value, back (into value) = value) (bytes : List UInt8) :
    (layout.map into back inverse).decode bytes = back (layout.decode bytes) := rfl

/-- Reading a pair. -/
theorem pair_decode (left : Layout α) (right : Layout β) (bytes : List UInt8) :
    (left.pair right).decode bytes = (left.decode bytes, right.decode (bytes.drop left.width)) :=
  rfl

/-- One byte. -/
theorem uint8_width : uint8.width = 1 := rfl

/-- Four bytes. -/
theorem uint32_width : uint32.width = 4 := rfl

/-- Eight bytes. -/
theorem uint64_width : uint64.width = 8 := rfl

/-- A field followed by padding bytes of any contents. -/
def padded (layout : Layout α) (padding : List UInt8) : Layout α where
  width := layout.width + padding.length
  encode value := layout.encode value ++ padding
  decode := layout.decode
  encode_length value := by rw [List.length_append, layout.encode_length]
  decode_encode value rest := by rw [List.append_assoc, layout.decode_encode]

/-- A value is read back from its image alone. -/
theorem decode_encode_self (layout : Layout α) (value : α) :
    layout.decode (layout.encode value) = value := by
  have read := layout.decode_encode value []
  rw [List.append_nil] at read
  exact read

/-- What follows an image. -/
theorem drop_encode (layout : Layout α) (value : α) (rest : List UInt8) :
    (layout.encode value ++ rest).drop layout.width = rest :=
  List.drop_left' (layout.encode_length value)

/-- An image fits its bytes. -/
theorem le_length (layout : Layout α) (value : α) (rest : List UInt8) :
    layout.width ≤ (layout.encode value ++ rest).length := by
  rw [List.length_append, layout.encode_length]
  exact Nat.le_add_right _ _

/-- No bytes for the unit value. -/
def unit : Layout Unit where
  width := 0
  encode _ := []
  decode _ := ()
  encode_length _ := rfl
  decode_encode _ _ := rfl

/-- An array of bytes; a missing byte is read as zero. -/
def bytes (count : Nat) : Layout (Vector UInt8 count) where
  width := count
  encode value := value.toList
  decode bytes := Vector.ofFn fun index => bytes.getD index 0
  encode_length value := value.length_toList
  decode_encode value rest := by
    ext index bound
    rw [Vector.getElem_ofFn, List.getD_eq_getElem?_getD,
      List.getElem?_append_left (by rw [value.length_toList]; exact bound)]
    simp [bound]

/-- Bytes make a small number. -/
theorem fromLittleEndian_lt (bytes : List UInt8) :
    fromLittleEndian bytes < 256 ^ bytes.length := by
  induction bytes with
  | nil => exact Nat.one_pos
  | cons byte rest ih =>
    have small := byte.toNat_lt
    rw [fromLittleEndian, List.length_cons, Nat.pow_succ']
    omega

/-- Other bytes make another number. -/
theorem fromLittleEndian_inj {left right : List UInt8} (length : left.length = right.length)
    (same : fromLittleEndian left = fromLittleEndian right) : left = right := by
  induction left generalizing right with
  | nil => exact (List.length_eq_zero_iff.mp length.symm).symm
  | cons byte rest ih =>
    cases right with
    | nil => cases length
    | cons other others =>
      have small := byte.toNat_lt
      have small' := other.toNat_lt
      simp only [fromLittleEndian] at same
      have low : byte = other := UInt8.toNat_inj.mp (by omega)
      have high := ih (Nat.succ_inj.mp length) (by omega)
      rw [low, high]

/-- Bytes are the little-endian bytes of the number they denote. -/
theorem littleEndian_fromLittleEndian (bytes : List UInt8) :
    littleEndian bytes.length (fromLittleEndian bytes) = bytes := by
  apply fromLittleEndian_inj (littleEndian_length _ _)
  rw [fromLittleEndian_littleEndian, Nat.mod_eq_of_lt (fromLittleEndian_lt bytes)]

/-- What is read is stored as the bytes it was read from. -/
def Canonical (layout : Layout α) : Prop :=
  ∀ bytes : List UInt8, layout.width ≤ bytes.length →
    layout.encode (layout.decode bytes) = bytes.take layout.width

section

variable {width : Nat} {toNat : α → Nat} {ofNat : Nat → α}
  {bound : ∀ value, toNat value < 256 ^ width} {inverse : ∀ value, ofNat (toNat value) = value}

variable (exact : ∀ number, number < 256 ^ width → toNat (ofNat number) = number)
include exact

/-- Words have one image each. -/
theorem word_canonical :
    (word width toNat ofNat bound inverse).Canonical := by
  intro bytes long
  change width ≤ bytes.length at long
  have length : (bytes.take width).length = width := List.length_take_of_le long
  have small := fromLittleEndian_lt (bytes.take width)
  have stored := littleEndian_fromLittleEndian (bytes.take width)
  rw [length] at small stored
  change littleEndian width (toNat (ofNat (fromLittleEndian (bytes.take width)))) = _
  rw [exact _ small, stored]
  rfl

/-- Different bytes make different words. -/
theorem word_decode_inj {left right : List UInt8} (leftLong : width ≤ left.length)
    (rightLong : width ≤ right.length) (same : (word width toNat ofNat bound inverse).decode left =
      (word width toNat ofNat bound inverse).decode right) :
    left.take width = right.take width := by
  have length (bytes : List UInt8) (long : width ≤ bytes.length) :
      (bytes.take width).length = width := by
    rw [List.length_take]
    omega
  have read (bytes : List UInt8) (long : width ≤ bytes.length) :
      toNat ((word width toNat ofNat bound inverse).decode bytes) =
        fromLittleEndian (bytes.take width) := by
    have small := fromLittleEndian_lt (bytes.take width)
    rw [length bytes long] at small
    exact exact _ small
  apply fromLittleEndian_inj
  · rw [length left leftLong, length right rightLong]
  · rw [← read left leftLong, ← read right rightLong, same]

/-- Words with different last bytes are different. -/
theorem word_decode_ne {front : List UInt8} (length : front.length + 1 = width) {last other : UInt8}
    (differ : last ≠ other) :
    (word width toNat ofNat bound inverse).decode (front ++ [last]) ≠
      (word width toNat ofNat bound inverse).decode (front ++ [other]) := by
  have whole (byte : UInt8) : (front ++ [byte]).length = width := by
    rw [List.length_append, List.length_singleton, length]
  intro same
  have bytes := word_decode_inj exact (whole last).ge (whole other).ge same
  rw [List.take_of_length_le (whole last).le, List.take_of_length_le (whole other).le] at bytes
  exact differ (List.cons.inj (List.append_cancel_left bytes)).1

end

/-- So has a byte. -/
theorem uint8_canonical : uint8.Canonical := word_canonical fun _ => Nat.mod_eq_of_lt

/-- So has a 16-bit word. -/
theorem uint16_canonical : uint16.Canonical := word_canonical fun _ => Nat.mod_eq_of_lt

/-- So has a 32-bit word. -/
theorem uint32_canonical : uint32.Canonical := word_canonical fun _ => Nat.mod_eq_of_lt

/-- So has a 64-bit word. -/
theorem uint64_canonical : uint64.Canonical := word_canonical fun _ => Nat.mod_eq_of_lt

/-- So has a pair. -/
theorem Canonical.pair {left : Layout α} {right : Layout β} (head : left.Canonical)
    (tail : right.Canonical) : (left.pair right).Canonical := by
  intro bytes long
  change left.width + right.width ≤ bytes.length at long
  have rest : right.width ≤ (bytes.drop left.width).length := by
    rw [List.length_drop]
    omega
  change left.encode (left.decode bytes) ++
    right.encode (right.decode (bytes.drop left.width)) = _
  rw [head bytes (by omega), tail _ rest]
  exact List.take_add.symm

/-- So many bytes. -/
theorem bytes_width (count : Nat) : (bytes count).width = count := rfl

/-- Reading looks at the bytes of the image only. -/
def Local (layout : Layout α) : Prop :=
  ∀ bytes rest, layout.width ≤ bytes.length → layout.decode (bytes ++ rest) = layout.decode bytes

section

variable {left : Layout α} {right : Layout β}

/-- A word reads its own bytes. -/
theorem word_local {width : Nat} {toNat : α → Nat} {ofNat : Nat → α}
    {bound : ∀ value, toNat value < 256 ^ width}
    {inverse : ∀ value, ofNat (toNat value) = value} :
    (word width toNat ofNat bound inverse).Local := by
  intro bytes rest enough
  change width ≤ bytes.length at enough
  change ofNat (fromLittleEndian ((bytes ++ rest).take width)) = _
  rw [List.take_append_of_le_length enough]
  rfl

/-- A field inside the front is read from there. -/
theorem Local.decode_drop {bytes : List UInt8} {offset : Nat} (own : left.Local)
    (inside : offset + left.width ≤ bytes.length) (rest : List UInt8) :
    left.decode ((bytes ++ rest).drop offset) = left.decode (bytes.drop offset) := by
  rw [List.drop_append_of_le_length (by omega)]
  exact own _ _ (by rw [List.length_drop]; omega)

/-- So does its image. -/
theorem Local.map {into : β → α} {back : α → β} {inverse : ∀ value, back (into value) = value}
    (own : left.Local) : (left.map into back inverse).Local := by
  intro bytes rest enough
  exact congrArg back (own bytes rest enough)

/-- So does a pair. -/
theorem Local.pair (ownLeft : left.Local) (ownRight : right.Local) :
    (left.pair right).Local := by
  intro bytes rest enough
  change left.width + right.width ≤ bytes.length at enough
  have front := ownLeft bytes rest (by omega)
  have back := ownRight (bytes.drop left.width) rest (by rw [List.length_drop]; omega)
  change (left.decode (bytes ++ rest), right.decode ((bytes ++ rest).drop left.width)) = _
  rw [List.drop_append_of_le_length (by omega), front, back]
  rfl

end

end Layout
