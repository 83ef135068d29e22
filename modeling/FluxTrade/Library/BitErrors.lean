import FluxTrade.Library.Layout
import Mathlib.Logic.Function.Iterate

/-!
# Errors in byte lists

A flipped bit changes one byte of a byte list and no other. A fold that loses
nothing of its state and nothing of its input has another result on a list with
one other element. One round of a reflected cyclic redundancy check is such a
step: it shifts the state to the right and adds the polynomial if a one was
shifted out. The top bit of the polynomial is set, so the new top bit shows what
was shifted out. Rounds are linear, so bytes that are taken in one after the other
could be added at once, side by side. As long as they fit into the state, none of
them is lost.
-/

namespace BitErrors

/-! ## Flips -/

/-- Flip one bit of the byte at a place. -/
def flipBit (place : Nat) (bit : Fin 8) (bytes : List UInt8) : List UInt8 :=
  bytes.modify place fun byte => byte ^^^ (1 <<< UInt8.ofNat bit)

/-- A flip changes the byte. -/
theorem flipped_ne (byte : UInt8) (bit : Fin 8) : byte ^^^ (1 <<< UInt8.ofNat bit) ≠ byte := by
  have masks : ∀ bit : Fin 8, 1 <<< UInt8.ofNat bit ≠ 0 := by decide
  intro same
  have cancel : byte ^^^ (1 <<< UInt8.ofNat bit) = byte ^^^ 0 := by rw [same, UInt8.xor_zero]
  exact masks bit ((UInt8.xor_right_inj byte).mp cancel)

variable {place : Nat} {bytes : List UInt8}

/-- A flip keeps the length. -/
@[simp]
theorem flipBit_length (place : Nat) (bit : Fin 8) (bytes : List UInt8) :
    (flipBit place bit bytes).length = bytes.length :=
  List.length_modify ..

/-- A flip replaces one byte. -/
theorem exists_flipBit (bit : Fin 8) (inside : place < bytes.length) :
    ∃ front byte other back, bytes = front ++ byte :: back ∧ front.length = place ∧ other ≠ byte ∧
      flipBit place bit bytes = front ++ other :: back := by
  obtain ⟨front, byte, back, split, isPlace, changed⟩ :=
    List.exists_of_modify (fun byte : UInt8 => byte ^^^ (1 <<< UInt8.ofNat bit)) inside
  exact ⟨front, byte, _, back, split, isPlace, flipped_ne byte bit, changed⟩

/-- A flip in the front. -/
theorem flipBit_append_left (bit : Fin 8) (back : List UInt8) (inside : place < bytes.length) :
    flipBit place bit (bytes ++ back) = flipBit place bit bytes ++ back := by
  induction bytes generalizing place with
  | nil => cases inside
  | cons byte rest ih =>
    cases place with
    | zero => rfl
    | succ place => exact congrArg (byte :: ·) (ih (Nat.lt_of_succ_lt_succ inside))

/-- A flip in the back. -/
theorem flipBit_append_right (place : Nat) (bit : Fin 8) (front back : List UInt8) :
    flipBit (front.length + place) bit (front ++ back) = front ++ flipBit place bit back := by
  induction front with
  | nil => rw [List.length_nil, Nat.zero_add, List.nil_append, List.nil_append]
  | cons byte rest ih =>
    rw [List.length_cons, Nat.add_right_comm]
    exact congrArg (byte :: ·) ih

/-! ## Fields -/

/-- The bytes of a field. -/
def field (offset width : Nat) (bytes : List UInt8) : List UInt8 := (bytes.drop offset).take width

/-- The bytes of a field. -/
theorem field_getElem? (offset width : Nat) (bytes : List UInt8) (index : Nat) :
    (field offset width bytes)[index]? =
      if index < width then bytes[offset + index]? else none := by
  rw [field, List.getElem?_take, List.getElem?_drop]

/-- A field that a flip misses. -/
theorem field_flip_outside {offset width : Nat} (bit : Fin 8)
    (outside : place < offset ∨ offset + width ≤ place) :
    field offset width (flipBit place bit bytes) = field offset width bytes := by
  apply List.ext_getElem?
  intro index
  rw [field_getElem?, field_getElem?]
  by_cases within : index < width
  · have apart : place ≠ offset + index := by omega
    simp only [if_pos within, flipBit, List.getElem?_modify, if_neg apart]
    exact Option.map_id'
  · rw [if_neg within, if_neg within]

/-- A field that a flip hits. -/
theorem field_flip_inside {offset width : Nat} (bit : Fin 8) (low : offset ≤ place)
    (high : place < offset + width) (inside : place < bytes.length) :
    field offset width (flipBit place bit bytes) ≠ field offset width bytes := by
  obtain ⟨front, byte, other, back, split, isPlace, differ, flipped⟩ := exists_flipBit bit inside
  intro same
  rw [flipped, split] at same
  have byteHere := congrArg (fun part : List UInt8 => part[place - offset]?) same
  have within : place - offset < width := by omega
  have here : offset + (place - offset) = front.length := by omega
  simp only [field_getElem?, if_pos within, here, List.getElem?_append_right, Nat.le_refl,
    Nat.sub_self, List.getElem?_cons_zero, Option.some.injEq] at byteHere
  exact differ byteHere

section Words

variable {α : Type*} {offset width : Nat} {toNat : α → Nat} {ofNat : Nat → α}
  {bound : ∀ value, toNat value < 256 ^ width} {inverse : ∀ value, ofNat (toNat value) = value}

/-- A word that a flip misses. -/
theorem word_flip_outside (bit : Fin 8) (outside : place < offset ∨ offset + width ≤ place) :
    (Layout.word width toNat ofNat bound inverse).decode ((flipBit place bit bytes).drop offset) =
      (Layout.word width toNat ofNat bound inverse).decode (bytes.drop offset) :=
  congrArg (fun part => ofNat (Layout.fromLittleEndian part)) (field_flip_outside bit outside)

/-- A word that a flip hits. -/
theorem word_flip_inside (exact : ∀ number, number < 256 ^ width → toNat (ofNat number) = number)
    (bit : Fin 8) (low : offset ≤ place) (high : place < offset + width)
    (fits : offset + width ≤ bytes.length) :
    (Layout.word width toNat ofNat bound inverse).decode ((flipBit place bit bytes).drop offset) ≠
      (Layout.word width toNat ofNat bound inverse).decode (bytes.drop offset) := by
  intro same
  refine field_flip_inside bit low high (by omega) (Layout.word_decode_inj exact ?_ ?_ same)
  · rw [List.length_drop, flipBit_length]
    omega
  · rw [List.length_drop]
    omega

end Words

/-! ## Folds -/

section Folds

variable {σ β : Type*} {step : σ → β → σ}

/-- A fold loses nothing of its start. -/
theorem foldl_injective (lossless : ∀ item, Function.Injective fun state => step state item)
    (items : List β) : Function.Injective fun state => items.foldl step state := by
  induction items with
  | nil => exact Function.injective_id
  | cons item rest ih => exact ih.comp (lossless item)

/-- One other element gives another result. -/
theorem foldl_ne (lossless : ∀ item, Function.Injective fun state => step state item)
    (sensitive : ∀ state, Function.Injective (step state)) {left right : β} (differ : left ≠ right)
    (front back : List β) (start : σ) :
    (front ++ left :: back).foldl step start ≠ (front ++ right :: back).foldl step start := by
  rw [List.foldl_append, List.foldl_append, List.foldl_cons, List.foldl_cons]
  intro same
  exact differ (sensitive _ (foldl_injective lossless back same))

end Folds

/-! ## Cyclic redundancy checks -/

section Crc

variable {width : Nat} {polynomial : BitVec width}
variable {place index : Nat} {value : BitVec width} {left right : List UInt8}

/-- One round of a reflected check. -/
def crcRound (polynomial state : BitVec width) : BitVec width :=
  (state >>> 1) ^^^ (if state.getLsbD 0 then polynomial else 0)

/-- A round, bit by bit. -/
theorem getLsbD_crcRound (polynomial state : BitVec width) (index : Nat) :
    (crcRound polynomial state).getLsbD index =
      (state.getLsbD (1 + index) ^^ (state.getLsbD 0 && polynomial.getLsbD index)) := by
  rw [crcRound, BitVec.getLsbD_xor, BitVec.getLsbD_ushiftRight]
  cases state.getLsbD 0 <;> simp

/-- The top bit after a round is the low bit before it. -/
theorem getLsbD_crcRound_top (top : polynomial.getLsbD (width - 1) = true) (state : BitVec width) :
    (crcRound polynomial state).getLsbD (width - 1) = state.getLsbD 0 := by
  have outside : state.getLsbD (1 + (width - 1)) = false := BitVec.getLsbD_of_ge _ _ (by omega)
  rw [getLsbD_crcRound, outside, top, Bool.and_true, Bool.false_xor]

/-- A round loses nothing. -/
theorem crcRound_injective (top : polynomial.getLsbD (width - 1) = true) :
    Function.Injective (crcRound polynomial) := by
  intro left right same
  have low : left.getLsbD 0 = right.getLsbD 0 := by
    rw [← getLsbD_crcRound_top top left, ← getLsbD_crcRound_top top right, same]
  apply BitVec.eq_of_getLsbD_eq
  intro index _
  cases index with
  | zero => exact low
  | succ index =>
    have bits := congrArg (fun state : BitVec width => state.getLsbD index) same
    simp only [getLsbD_crcRound, low, Bool.xor_left_inj] at bits
    rw [Nat.add_comm]
    exact bits

/-! ## Bursts -/

/-- A round is linear. -/
theorem crcRound_xor (polynomial left right : BitVec width) :
    crcRound polynomial (left ^^^ right) =
      crcRound polynomial left ^^^ crcRound polynomial right := by
  apply BitVec.eq_of_getLsbD_eq
  intro index _
  simp only [BitVec.getLsbD_xor, getLsbD_crcRound]
  cases left.getLsbD 0 <;> cases right.getLsbD 0 <;> cases polynomial.getLsbD index <;>
    cases left.getLsbD (1 + index) <;> cases right.getLsbD (1 + index) <;> rfl

/-- No bit is set from a place on. -/
def Below (place : Nat) (value : BitVec width) : Prop :=
  ∀ index, place ≤ index → value.getLsbD index = false

/-- A looser bound. -/
theorem Below.mono {later : Nat} (small : Below place value) (further : place ≤ later) :
    Below later value :=
  fun index from' => small index (Nat.le_trans further from')

/-- Moving up moves the bound. -/
theorem Below.shiftLeft (small : Below place value) (distance : Nat) :
    Below (place + distance) (value <<< distance) := by
  intro index far
  rw [BitVec.getLsbD_shiftLeft, small (index - distance) (by omega), Bool.and_false]

/-- A value without a top bit that was moved up comes down again in a round. -/
theorem crcRound_shiftLeft (small : Below (width - 1) value) (polynomial : BitVec width) :
    crcRound polynomial (value <<< 1) = value := by
  apply BitVec.eq_of_getLsbD_eq
  intro index inside
  rw [getLsbD_crcRound, BitVec.getLsbD_shiftLeft, BitVec.getLsbD_shiftLeft]
  by_cases top : index = width - 1
  · have zero := small index (by omega)
    simp [zero]
  · have below : 1 + index < width := by omega
    simp [below]

/-- What is added after some rounds can be added before them, moved up by as many places. -/
theorem iterate_crcRound_xor {rounds : Nat} (fits : rounds ≤ width)
    (small : Below (width - rounds) value) (state : BitVec width) :
    (crcRound polynomial)^[rounds] (state ^^^ (value <<< rounds)) =
      (crcRound polynomial)^[rounds] state ^^^ value := by
  induction rounds generalizing state with
  | zero =>
    rw [BitVec.shiftLeft_zero]
    rfl
  | succ rounds ih =>
    have moved : Below (width - 1) (value <<< rounds) :=
      (small.shiftLeft rounds).mono (by omega)
    rw [Function.iterate_succ_apply, Function.iterate_succ_apply, BitVec.shiftLeft_add,
      crcRound_xor, crcRound_shiftLeft moved, ih (by omega) (small.mono (by omega))]

/-- Eight rounds take in a byte. -/
def crcFeed (polynomial state : BitVec width) (byte : UInt8) : BitVec width :=
  (crcRound polynomial)^[8] (state ^^^ byte.toBitVec.setWidth width)

/-- Bytes side by side, the first one in the low bits. -/
def crcWord : List UInt8 → BitVec width
  | [] => 0
  | byte :: rest => byte.toBitVec.setWidth width ^^^ (crcWord rest <<< 8)

/-- A byte has eight bits. -/
theorem getLsbD_byte_of_ge (byte : UInt8) (far : 8 ≤ index) :
    (byte.toBitVec.setWidth width).getLsbD index = false := by
  rw [BitVec.getLsbD_setWidth, BitVec.getLsbD_of_ge _ _ far, Bool.and_false]

/-- A word is as wide as its bytes. -/
theorem crcWord_below (bytes : List UInt8) :
    Below (8 * bytes.length) (crcWord bytes : BitVec width) := by
  induction bytes with
  | nil => exact fun index _ => BitVec.getLsbD_zero
  | cons byte rest ih =>
    intro index far
    rw [List.length_cons] at far
    rw [crcWord, BitVec.getLsbD_xor, getLsbD_byte_of_ge byte (by omega),
      ih.shiftLeft 8 index (by omega)]
    rfl

/-- The low bits of a word are its first byte. -/
theorem getLsbD_crcWord_low (byte : UInt8) (rest : List UInt8) (low : index < 8)
    (inside : index < width) :
    (crcWord (byte :: rest) : BitVec width).getLsbD index = byte.toBitVec.getLsbD index := by
  rw [crcWord, BitVec.getLsbD_xor, BitVec.getLsbD_setWidth, BitVec.getLsbD_shiftLeft]
  simp [low, inside]

/-- The other bits of a word are those of its other bytes. -/
theorem getLsbD_crcWord_high (byte : UInt8) (rest : List UInt8) (inside : index + 8 < width) :
    (crcWord (byte :: rest) : BitVec width).getLsbD (index + 8) =
      (crcWord rest : BitVec width).getLsbD index := by
  rw [crcWord, BitVec.getLsbD_xor, getLsbD_byte_of_ge byte (Nat.le_add_left 8 index),
    BitVec.getLsbD_shiftLeft]
  simp [inside]

/-- Bytes that fit into a word are determined by it. -/
theorem crcWord_inj (length : left.length = right.length) (fits : 8 * left.length ≤ width)
    (same : (crcWord left : BitVec width) = crcWord right) :
    left = right := by
  induction left generalizing right with
  | nil => exact (List.length_eq_zero_iff.mp length.symm).symm
  | cons byte rest ih =>
    cases right with
    | nil => cases length
    | cons other others =>
      rw [List.length_cons] at fits
      have first : byte = other := by
        apply UInt8.toBitVec_inj.mp
        apply BitVec.eq_of_getLsbD_eq
        intro index low
        rw [← getLsbD_crcWord_low byte rest low (show index < width by omega), same,
          getLsbD_crcWord_low other others low (by omega)]
      have later : rest = others := by
        have lengths : rest.length = others.length := Nat.succ_inj.mp length
        refine ih lengths (by omega) (BitVec.eq_of_getLsbD_eq fun index inside => ?_)
        by_cases near : index + 8 < width
        · rw [← getLsbD_crcWord_high byte rest near, same, getLsbD_crcWord_high other others near]
        · rw [crcWord_below rest index (by omega), crcWord_below others index (by omega)]
      rw [first, later]

/-- Taking in bytes one by one is taking in the word that they make. -/
theorem foldl_crcFeed {bytes : List UInt8} (fits : 8 * bytes.length ≤ width)
    (state : BitVec width) :
    bytes.foldl (crcFeed polynomial) state =
      (crcRound polynomial)^[8 * bytes.length] (state ^^^ crcWord bytes) := by
  induction bytes generalizing state with
  | nil => exact BitVec.xor_zero.symm
  | cons byte rest ih =>
    rw [List.length_cons] at fits
    have small : Below (width - 8) (crcWord rest : BitVec width) :=
      (crcWord_below rest).mono (by omega)
    rw [List.foldl_cons, ih (by omega), crcFeed, ← iterate_crcRound_xor (by omega) small,
      BitVec.xor_assoc, ← Function.iterate_add_apply, List.length_cons, Nat.mul_succ]
    rfl

/-- Other bytes in a window no wider than the state lead to another state. -/
theorem foldl_crcFeed_ne (top : polynomial.getLsbD (width - 1) = true)
    (length : left.length = right.length) (fits : 8 * left.length ≤ width) (differ : left ≠ right)
    (state : BitVec width) :
    left.foldl (crcFeed polynomial) state ≠ right.foldl (crcFeed polynomial) state := by
  intro same
  rw [foldl_crcFeed fits, foldl_crcFeed (length ▸ fits), length] at same
  have words := (crcRound_injective top).iterate _ same
  exact differ (crcWord_inj length fits ((BitVec.xor_right_inj _).mp words))

end Crc

end BitErrors
