import Mathlib.Algebra.Order.Ring.Int
import Mathlib.Data.Nat.ModEq

/-!
# Machine words

Conversions between 64-bit words and the integers, where no bit is lost, signed
distances of words, and the counters of ring buffers: words that count modulo
2^64 and address modulo a power of two.
-/

namespace Words

variable {left right capacity counter : UInt64} {early late : Nat}

/-- A word below 2^63 keeps its value when it is read as signed. -/
theorem toInt_toInt64 {word : UInt64} (small : word.toNat < 2 ^ 63) :
    word.toInt64.toInt = word.toNat := by
  change word.toBitVec.toInt = word.toBitVec.toNat
  have bound : word.toBitVec.toNat < 2 ^ 63 := small
  rw [BitVec.toInt_eq_toNat_of_lt (by omega)]

/-- A word read as signed is its value modulo 2^64. -/
theorem ofInt_toNat (word : UInt64) : Int64.ofInt word.toNat = word.toInt64 := by
  simp [← Int64.toBitVec_inj]

/-- Values that a signed word cannot tell apart differ by a multiple of 2^64. -/
theorem dvd_of_toInt_ofInt {stored value : Int} (same : (Int64.ofInt stored).toInt = value) :
    (2 ^ 64 : Int) ∣ value - stored := by
  have wrapped : stored.bmod (2 ^ 64) = value := Int64.toInt_ofInt ▸ same
  apply Int.dvd_of_emod_eq_zero
  rw [← wrapped, Int.sub_emod, show (2 ^ 64 : Int) = ((2 ^ 64 : Nat) : Int) from rfl,
    Int.bmod_emod]
  simp

/-- A nonnegative signed word keeps its value when it is read as unsigned. -/
theorem toNat_toUInt64 {value : Int64} (nonneg : 0 ≤ value.toInt) :
    (value.toUInt64.toNat : Int) = value.toInt := by
  change (value.toBitVec.toNat : Int) = value.toBitVec.toInt
  have signed : 0 ≤ value.toBitVec.toInt := nonneg
  have bound := value.toBitVec.isLt
  rw [BitVec.toInt_eq_toNat_cond] at signed ⊢
  split at signed <;> omega

section

variable {value : Int64} {word : UInt64}

section

variable (small : word.toNat < 2 ^ 62) (low : -2 ^ 62 ≤ value.toInt) (high : value.toInt ≤ 2 ^ 62)
include small low high

/-- A sum in range. -/
theorem toInt_add_word : (value + word.toInt64).toInt = value.toInt + word.toNat := by
  rw [Int64.toInt_add, toInt_toInt64 (by omega), Int.bmod_eq_of_le_mul_two (by omega) (by omega)]

/-- A difference in range. -/
theorem toInt_sub_word : (value - word.toInt64).toInt = value.toInt - word.toNat := by
  rw [Int64.toInt_sub, toInt_toInt64 (by omega), Int.bmod_eq_of_le_mul_two (by omega) (by omega)]

end

/-- A negation in range. -/
theorem toInt_neg_of_lt (low : -2 ^ 63 < value.toInt) : (-value).toInt = -value.toInt := by
  have high := value.toInt_lt
  rw [Int64.toInt_neg, Int.bmod_eq_of_le_mul_two (by omega) (by omega)]

end

/-! ## Residues -/

/-- The word of an integer is its residue. -/
theorem toNat_ofInt (value : Int) : ((UInt64.ofInt value).toNat : Int) = value % 2 ^ 64 := by
  have low : 0 ≤ value % 2 ^ 64 := Int.emod_nonneg value (by decide)
  have high : value % 2 ^ 64 < 2 ^ 64 := Int.emod_lt_of_pos value (by decide)
  rw [UInt64.ofInt, UInt64.toNat_ofNat', Nat.mod_eq_of_lt (by omega)]
  omega

/-- A word holds an integer exactly if it is in the range of words. -/
theorem toNat_ofInt_eq_iff (value : Int) :
    ((UInt64.ofInt value).toNat : Int) = value ↔ 0 ≤ value ∧ value < 2 ^ 64 := by
  rw [toNat_ofInt]
  omega

/-- A word is its value's word. -/
theorem ofInt_toNat_word (word : UInt64) : UInt64.ofInt word.toNat = word := by
  have bound := UInt64.toNat_lt word
  apply UInt64.toNat_inj.mp
  have value := toNat_ofInt word.toNat
  omega

/-- So is a signed one. -/
theorem ofInt_toInt (value : Int64) : UInt64.ofInt value.toInt = value.toUInt64 := by
  have residue := toNat_ofInt value.toInt
  have bound := UInt64.toNat_lt value.toUInt64
  have signed : value.toInt = value.toUInt64.toNat ∨
      value.toInt = value.toUInt64.toNat - 2 ^ 64 := by
    change value.toBitVec.toInt = value.toBitVec.toNat ∨
      value.toBitVec.toInt = value.toBitVec.toNat - 2 ^ 64
    rw [BitVec.toInt_eq_toNat_cond]
    split <;> omega
  apply UInt64.toNat_inj.mp
  omega

/-! ## Signed distances -/

/-- Distance zero means equal. -/
theorem signed_sub_eq_zero :
    left.toInt64 - right.toInt64 = 0 ↔ left = right := by
  constructor
  · intro zero
    have same : left.toInt64 = right.toInt64 := by grind
    have bits := congrArg Int64.toBitVec same
    exact UInt64.toBitVec_inj.mp bits
  · rintro rfl
    exact Int64.sub_self _

/-- A negative signed distance is a smaller word, or one ahead by half the range. -/
theorem lt_or_far_of_signed_sub_neg (negative : left.toInt64 - right.toInt64 < 0) :
    left.toNat < right.toNat ∨ right.toNat + 2 ^ 63 ≤ left.toNat := by
  have value : (left.toInt64 - right.toInt64).toInt =
      ((left.toNat : Int) - right.toNat).bmod (2 ^ 64) := by
    rw [← ofInt_toNat, ← ofInt_toNat, ← Int64.ofInt_sub, Int64.toInt_ofInt]
    rfl
  have below : (left.toInt64 - right.toInt64).toInt < 0 := Int64.lt_iff_toInt_lt.mp negative
  rw [value] at below
  by_contra other
  have order : right.toNat ≤ left.toNat := by omega
  have near : left.toNat < right.toNat + 2 ^ 63 := by omega
  rw [Int.bmod_eq_of_le_mul_two (by omega) (by omega)] at below
  omega

/-- A word reads as behind one that is ahead of it by at most half the range. -/
theorem signed_sub_neg {word : UInt64} {distance : Nat} (positive : 0 < distance)
    (near : distance ≤ 2 ^ 63) :
    word.toInt64 - (word + UInt64.ofNat distance).toInt64 < 0 := by
  have moved : word.toInt64 - (word + UInt64.ofNat distance).toInt64 =
      Int64.ofInt (-(distance : Int)) := by
    have offset : (UInt64.ofNat distance).toInt64 = Int64.ofInt (distance : Int) := by
      rw [← ofInt_toNat, UInt64.toNat_ofNat', Nat.mod_eq_of_lt (by omega)]
    rw [UInt64.toInt64_add, offset, Int64.ofInt_neg]
    grind
  have value : (Int64.ofInt (-(distance : Int))).toInt = -(distance : Int) := by
    have wrapped : (Int64.ofInt (-(distance : Int))).toInt = (-(distance : Int)).bmod (2 ^ 64) :=
      Int64.toInt_ofInt
    rw [wrapped, Int.bmod_eq_of_le_mul_two (by omega) (by omega)]
  rw [moved, Int64.lt_iff_toInt_lt, value, Int64.toInt_zero]
  omega

/-! ## Laps -/

/-- Every cell has one position in the lap that starts anywhere. -/
theorem exists_in_lap {capacity : Nat} (positive : 0 < capacity) (low pos : Nat) :
    ∃ place, low ≤ place ∧ place < low + capacity ∧ place % capacity = pos % capacity := by
  have inside := Nat.mod_lt pos positive
  have start := Nat.mod_lt low positive
  have split := Nat.div_add_mod low capacity
  by_cases ahead : low % capacity ≤ pos % capacity
  · refine ⟨capacity * (low / capacity) + pos % capacity, by omega, by omega, ?_⟩
    rw [Nat.mul_add_mod, Nat.mod_mod]
  · refine ⟨capacity * (low / capacity + 1) + pos % capacity, ?_, ?_, ?_⟩
    · rw [Nat.mul_add]
      omega
    · rw [Nat.mul_add]
      omega
    · rw [Nat.mul_add_mod, Nat.mod_mod]

/-- Positions of one lap that share a cell are the same. -/
theorem eq_of_same_lap {capacity low left right : Nat} (leftLow : low ≤ left)
    (leftHigh : left < low + capacity) (rightLow : low ≤ right) (rightHigh : right < low + capacity)
    (same : left % capacity = right % capacity) : left = right := by
  rcases Nat.le_total left right with ordered | ordered
  · have divides := (Nat.modEq_iff_dvd' ordered).mp same
    have zero := Nat.eq_zero_of_dvd_of_lt divides (by omega)
    omega
  · have divides := (Nat.modEq_iff_dvd' ordered).mp same.symm
    have zero := Nat.eq_zero_of_dvd_of_lt divides (by omega)
    omega

/-! ## Counters -/

/-- A number of cells that a word can count and a mask can address. -/
def PowerOfTwo (capacity : UInt64) : Prop := ∃ bits, bits < 64 ∧ capacity.toNat = 2 ^ bits

/-- There is a cell. -/
theorem PowerOfTwo.positive (power : PowerOfTwo capacity) :
    0 < capacity.toNat := by
  obtain ⟨bits, _, value⟩ := power
  rw [value]
  exact Nat.two_pow_pos bits

/-- A counter short of the end of its range moves on by one. -/
theorem toNat_add_one (small : counter.toNat + 1 < 2 ^ 64) :
    (counter + 1).toNat = counter.toNat + 1 := by
  rw [UInt64.toNat_add]
  exact Nat.mod_eq_of_lt small

/-- The cell a counter addresses. -/
def masked (capacity counter : UInt64) : Nat := (counter &&& (capacity - 1)).toNat

/-- A counter that does not wrap grows. -/
theorem lt_add_one (unwrapped : counter + 1 ≠ 0) : counter < counter + 1 := by
  have bound := UInt64.toNat_lt counter
  have small : counter.toNat + 1 < 2 ^ 64 := by
    by_contra last
    apply unwrapped
    apply UInt64.toNat_inj.mp
    rw [UInt64.toNat_add, UInt64.toNat_one, show counter.toNat + 1 = 2 ^ 64 by omega]
    rfl
  rw [UInt64.lt_iff_toNat_lt, toNat_add_one small]
  exact Nat.lt_succ_self _

/-- The mask is a remainder. -/
theorem masked_eq_mod (power : PowerOfTwo capacity) (counter : UInt64) :
    masked capacity counter = counter.toNat % capacity.toNat := by
  obtain ⟨bits, _, value⟩ := power
  have positive : (1 : UInt64) ≤ capacity := by
    rw [UInt64.le_iff_toNat_le, value]
    exact Nat.one_le_two_pow
  have mask : (capacity - 1).toNat = 2 ^ bits - 1 := by
    rw [UInt64.toNat_sub_of_le _ _ positive, value]
    rfl
  rw [masked, UInt64.toNat_and, mask, Nat.and_two_pow_sub_one_eq_mod, value]

/-- A counter started anywhere and moved on addresses as the unbounded count does. -/
theorem masked_add (power : PowerOfTwo capacity) (start : UInt64) (count : Nat) :
    masked capacity (start + UInt64.ofNat count) = (start.toNat + count) % capacity.toNat := by
  rw [masked_eq_mod power]
  obtain ⟨bits, small, value⟩ := power
  have divides : capacity.toNat ∣ 2 ^ 64 := value ▸ Nat.pow_dvd_pow 2 (Nat.le_of_lt small)
  rw [UInt64.toNat_add, Nat.mod_mod_of_dvd _ divides, Nat.add_mod,
    show (UInt64.ofNat count).toNat = count % 2 ^ 64 from rfl, Nat.mod_mod_of_dvd _ divides,
    ← Nat.add_mod]

/-- Counts that differ by less than the capacity address different cells. -/
theorem masked_ne (power : PowerOfTwo capacity) (start : UInt64) (ordered : early < late)
    (near : late - early < capacity.toNat) :
    masked capacity (start + UInt64.ofNat early) ≠ masked capacity (start + UInt64.ofNat late) := by
  rw [masked_add power, masked_add power]
  intro same
  have divides : capacity.toNat ∣ late - early := by
    have shifted := (Nat.modEq_iff_dvd' (by omega)).mp same
    rwa [show start.toNat + late - (start.toNat + early) = late - early by omega] at shifted
  exact absurd (Nat.le_of_dvd (by omega) divides) (by omega)

/-- The distance of two counters is the distance of their counts. -/
theorem counter_distance (start : UInt64) (ordered : early ≤ late) (small : late - early < 2 ^ 64) :
    (start + UInt64.ofNat late - (start + UInt64.ofNat early)).toNat = late - early := by
  have split : UInt64.ofNat late = UInt64.ofNat early + UInt64.ofNat (late - early) := by
    rw [← UInt64.ofNat_add, Nat.add_sub_cancel' ordered]
  have moved : start + UInt64.ofNat late - (start + UInt64.ofNat early) =
      UInt64.ofNat (late - early) := by
    rw [split]
    grind
  rw [moved]
  exact Nat.mod_eq_of_lt small

/-- One step more. -/
theorem add_ofNat_succ (start : UInt64) (count : Nat) :
    start + UInt64.ofNat (count + 1) = start + 1 + UInt64.ofNat count := by
  rw [UInt64.ofNat_add]
  grind

/-! ## Checked arithmetic -/

/-- A difference that does not wrap. -/
def checkedSub (left right : UInt64) : Option UInt64 :=
  if right ≤ left then some (left - right) else none

/-- A sum that does not wrap. -/
def checkedAdd (left right : UInt64) : Option UInt64 :=
  if left.toNat + right.toNat < 2 ^ 64 then some (left + right) else none

/-- A difference that fits. -/
theorem checkedSub_of_le (covered : right ≤ left) :
    checkedSub left right = some (left - right) := if_pos covered

/-- A sum that fits. -/
theorem checkedAdd_of_lt (fits : left.toNat + right.toNat < 2 ^ 64) :
    checkedAdd left right = some (left + right) := if_pos fits

end Words
