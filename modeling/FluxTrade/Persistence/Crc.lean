import FluxTrade.Library.BitErrors
import FluxTrade.Persistence.Journal

/-!
# CRC-32C

The portable loop of `Checksum::crc32c` takes in a byte in eight rounds. Builds
for processors with CRC instructions take in eight bytes at a time, then four,
then one. If the instructions fold the byte step over the bytes of their operand,
all builds compute the same checksum, and a checksum can be continued. Other bytes
in a window of at most four give another checksum.
-/

namespace FluxTrade

open BitErrors

namespace Checksum

/-! ## Builds with CRC instructions -/

/-- The loop over words of one width: while a whole word is left, it is loaded and taken in. -/
def wordLoop {α : Type} (layout : Layout α) (feed : UInt32 → α → UInt32) :
    Nat → UInt32 → List UInt8 → UInt32 × List UInt8
  | 0, crc, bytes => (crc, bytes)
  | rounds + 1, crc, bytes =>
    if bytes.length < layout.width then (crc, bytes)
    else
      wordLoop layout feed rounds (feed crc (layout.decode bytes)) (bytes.drop layout.width)

/-- The three loops after each other. No loop has more rounds than there are bytes. -/
def wordLoops (feed64 : UInt32 → UInt64 → UInt32) (feed32 : UInt32 → UInt32 → UInt32)
    (feed8 : UInt32 → UInt8 → UInt32) (bytes : List UInt8) (initial : UInt32) : UInt32 :=
  let first := wordLoop .uint64 feed64 bytes.length initial bytes
  let second := wordLoop .uint32 feed32 bytes.length first.1 first.2
  let third := wordLoop .uint8 feed8 bytes.length second.1 second.2
  ~~~third.1

/-- The intrinsics of `arm_acle.h`. -/
structure ArmIntrinsics where
  crc32cd : UInt32 → UInt64 → UInt32
  crc32cw : UInt32 → UInt32 → UInt32
  crc32cb : UInt32 → UInt8 → UInt32

/-- The intrinsics of `nmmintrin.h`. -/
structure SseIntrinsics where
  mmCrc32U64 : UInt64 → UInt64 → UInt64
  mmCrc32U32 : UInt32 → UInt32 → UInt32
  mmCrc32U8 : UInt32 → UInt8 → UInt32

/-- `Checksum::crc32c` with `__ARM_FEATURE_CRC32`. -/
def crc32cArm (arm : ArmIntrinsics) : List UInt8 → UInt32 → UInt32 :=
  wordLoops arm.crc32cd arm.crc32cw arm.crc32cb

/-- `Checksum::crc32c` with `__SSE4_2__`. -/
def crc32cSse (sse : SseIntrinsics) : List UInt8 → UInt32 → UInt32 :=
  wordLoops (fun crc word => (sse.mmCrc32U64 crc.toUInt64 word).toUInt32) sse.mmCrc32U32
    sse.mmCrc32U8

/-- The instruction folds the byte step over the bytes of its operand. -/
def FoldsBytes {α : Type} (layout : Layout α) (feed : UInt32 → α → UInt32) : Prop :=
  ∀ crc word, feed crc word = (layout.encode word).foldl crcByte crc

/-- The ARM instructions fold bytes. -/
structure ArmIntrinsics.Folding (arm : ArmIntrinsics) : Prop where
  crc32cd : FoldsBytes .uint64 arm.crc32cd
  crc32cw : FoldsBytes .uint32 arm.crc32cw
  crc32cb : FoldsBytes .uint8 arm.crc32cb

/-- The SSE instructions fold bytes. -/
structure SseIntrinsics.Folding (sse : SseIntrinsics) : Prop where
  mmCrc32U64 : FoldsBytes .uint64 fun crc word => (sse.mmCrc32U64 crc.toUInt64 word).toUInt32
  mmCrc32U32 : FoldsBytes .uint32 sse.mmCrc32U32
  mmCrc32U8 : FoldsBytes .uint8 sse.mmCrc32U8

section Loops

variable {α : Type} {layout : Layout α} {feed : UInt32 → α → UInt32}

/-- What a loop has not taken in yet leads from its state to the state after all bytes. -/
theorem foldl_wordLoop (canonical : layout.Canonical) (folds : FoldsBytes layout feed)
    (rounds : Nat) (crc : UInt32) (bytes : List UInt8) :
    (wordLoop layout feed rounds crc bytes).2.foldl crcByte
        (wordLoop layout feed rounds crc bytes).1 = bytes.foldl crcByte crc := by
  induction rounds generalizing crc bytes with
  | zero => rfl
  | succ rounds ih =>
    rw [wordLoop]
    by_cases short : bytes.length < layout.width
    · rw [if_pos short]
    · rw [if_neg short, ih, folds, canonical bytes (Nat.le_of_not_lt short), ← List.foldl_append,
        List.take_append_drop]

/-- A loop ends with less than a word left. -/
theorem length_wordLoop (positive : 0 < layout.width) {rounds : Nat} {bytes : List UInt8}
    (enough : bytes.length ≤ rounds) (crc : UInt32) :
    (wordLoop layout feed rounds crc bytes).2.length < layout.width := by
  induction rounds generalizing crc bytes with
  | zero => exact Nat.lt_of_le_of_lt enough positive
  | succ rounds ih =>
    rw [wordLoop]
    by_cases short : bytes.length < layout.width
    · rw [if_pos short]
      exact short
    · rw [if_neg short]
      refine ih ?_ _
      rw [List.length_drop]
      omega

/-- A loop consumes bytes. -/
theorem length_wordLoop_le (rounds : Nat) (crc : UInt32) (bytes : List UInt8) :
    (wordLoop layout feed rounds crc bytes).2.length ≤ bytes.length := by
  induction rounds generalizing crc bytes with
  | zero => exact Nat.le_refl _
  | succ rounds ih =>
    rw [wordLoop]
    by_cases short : bytes.length < layout.width
    · rw [if_pos short]
    · rw [if_neg short]
      refine Nat.le_trans (ih _ _) ?_
      rw [List.length_drop]
      exact Nat.sub_le _ _

end Loops

/-- The three loops compute the checksum of the portable one. -/
theorem wordLoops_eq {feed64 : UInt32 → UInt64 → UInt32} {feed32 : UInt32 → UInt32 → UInt32}
    {feed8 : UInt32 → UInt8 → UInt32} (folds64 : FoldsBytes .uint64 feed64)
    (folds32 : FoldsBytes .uint32 feed32) (folds8 : FoldsBytes .uint8 feed8) (bytes : List UInt8)
    (initial : UInt32) : wordLoops feed64 feed32 feed8 bytes initial = crc32c bytes initial := by
  let first := wordLoop .uint64 feed64 bytes.length initial bytes
  let second := wordLoop .uint32 feed32 bytes.length first.1 first.2
  let third := wordLoop .uint8 feed8 bytes.length second.1 second.2
  have short : second.2.length ≤ bytes.length :=
    Nat.le_trans (length_wordLoop_le _ _ _) (length_wordLoop_le _ _ _)
  have nothing : third.2 = [] :=
    List.length_eq_zero_iff.mp (Nat.lt_one_iff.mp (length_wordLoop Nat.one_pos short _))
  have state : third.1 = bytes.foldl crcByte initial := by
    calc third.1 = third.2.foldl crcByte third.1 := by rw [nothing]; rfl
      _ = second.2.foldl crcByte second.1 := foldl_wordLoop Layout.uint8_canonical folds8 _ _ _
      _ = first.2.foldl crcByte first.1 := foldl_wordLoop Layout.uint32_canonical folds32 _ _ _
      _ = bytes.foldl crcByte initial := foldl_wordLoop Layout.uint64_canonical folds64 _ _ _
  change ~~~third.1 = _
  rw [state]
  rfl

/-- A checksum is continued by the complement of what was computed before. -/
theorem crc32c_append (front back : List UInt8) (initial : UInt32) :
    crc32c back (~~~crc32c front initial) = crc32c (front ++ back) initial := by
  rw [crc32c, crc32c, crc32c, UInt32.not_not, List.foldl_append]

/-- Checksums can be continued, and all builds compute the same ones. -/
theorem crc32c_portable {arm : ArmIntrinsics} {sse : SseIntrinsics} (armFolds : arm.Folding)
    (sseFolds : sse.Folding) :
    (∀ front back initial,
      crc32c back (~~~crc32c front initial) = crc32c (front ++ back) initial) ∧
    (∀ bytes initial, crc32cArm arm bytes initial = crc32c bytes initial) ∧
    ∀ bytes initial, crc32cSse sse bytes initial = crc32c bytes initial := by
  refine ⟨crc32c_append, fun bytes initial => ?_, fun bytes initial => ?_⟩
  · exact wordLoops_eq armFolds.crc32cd armFolds.crc32cw armFolds.crc32cb bytes initial
  · exact wordLoops_eq sseFolds.mmCrc32U64 sseFolds.mmCrc32U32 sseFolds.mmCrc32U8 bytes initial

/-- Intrinsics that do what the instructions are documented to do. -/
def foldingArm : ArmIntrinsics where
  crc32cd crc word := (Layout.uint64.encode word).foldl crcByte crc
  crc32cw crc word := (Layout.uint32.encode word).foldl crcByte crc
  crc32cb := crcByte

/-- The upper half of the 64-bit result is zero. -/
def foldingSse : SseIntrinsics where
  mmCrc32U64 crc word := ((Layout.uint64.encode word).foldl crcByte crc.toUInt32).toUInt64
  mmCrc32U32 crc word := (Layout.uint32.encode word).foldl crcByte crc
  mmCrc32U8 := crcByte

/-- A byte step folds its byte. -/
theorem foldsBytes_crcByte : FoldsBytes .uint8 crcByte := by
  intro crc byte
  have stored : Layout.uint8.encode byte = [byte] := by
    change [UInt8.ofNat (byte.toNat % 256)] = _
    rw [Nat.mod_eq_of_lt byte.toNat_lt, UInt8.ofNat_toNat]
  rw [stored]
  rfl

/-- So does the sample. -/
theorem foldsBytes_foldingSse :
    FoldsBytes .uint64 fun crc word => (foldingSse.mmCrc32U64 crc.toUInt64 word).toUInt32 := by
  intro crc word
  dsimp only [foldingSse]
  rw [UInt32.toUInt32_toUInt64, UInt32.toUInt32_toUInt64]

/-- The digits 1 to 9, in one run and continued after the fourth, on every build. -/
theorem crc32c_portable_digits :
    let digits : List UInt8 := [0x31, 0x32, 0x33, 0x34, 0x35, 0x36, 0x37, 0x38, 0x39]
    crc32c digits 0xFFFFFFFF = 0xE3069283 ∧
    crc32c (digits.drop 4) (~~~crc32c (digits.take 4) 0xFFFFFFFF) = crc32c digits 0xFFFFFFFF ∧
    crc32cArm foldingArm digits 0xFFFFFFFF = crc32c digits 0xFFFFFFFF ∧
    crc32cSse foldingSse digits 0xFFFFFFFF = crc32c digits 0xFFFFFFFF := by
  have portable := @crc32c_portable foldingArm foldingSse
    ⟨fun _ _ => rfl, fun _ _ => rfl, foldsBytes_crcByte⟩
    ⟨foldsBytes_foldingSse, fun _ _ => rfl, foldsBytes_crcByte⟩
  exact ⟨by decide +kernel, portable.1 _ _ _, portable.2.1 _ _, portable.2.2 _ _⟩

/-! ## Errors -/

/-- A round of the library. -/
theorem crcBit_eq (crc : UInt32) :
    (crcBit crc).toBitVec = crcRound 0x82F63B78#32 crc.toBitVec := by
  have low : (crc &&& 1).toBitVec = BitVec.setWidth 32 (BitVec.ofBool (crc.toBitVec.getLsbD 0)) :=
    BitVec.and_one_eq_setWidth_ofBool_getLsbD
  rw [crcBit, crcRound, UInt32.toBitVec_xor, UInt32.toBitVec_mul, low]
  cases crc.toBitVec.getLsbD 0 <;> rfl

/-- A round loses nothing. -/
theorem crcBit_injective : Function.Injective crcBit := by
  intro left right same
  have bits := congrArg UInt32.toBitVec same
  rw [crcBit_eq, crcBit_eq] at bits
  exact UInt32.toBitVec_inj.mp (crcRound_injective (by decide) bits)

/-- A byte loses no state. -/
theorem crcByte_lossless (byte : UInt8) : Function.Injective fun crc => crcByte crc byte := by
  intro left right same
  exact (UInt32.xor_left_inj _).mp (crcBit_injective.iterate 8 same)

/-- No byte is lost. -/
theorem crcByte_sensitive (crc : UInt32) : Function.Injective (crcByte crc) := by
  intro left right same
  exact UInt8.toUInt32_inj.mp ((UInt32.xor_right_inj _).mp (crcBit_injective.iterate 8 same))

/-- The byte step is the general one for the reflected Castagnoli polynomial. -/
theorem crcByte_toBitVec (crc : UInt32) (byte : UInt8) :
    (crcByte crc byte).toBitVec = crcFeed 0x82F63B78#32 crc.toBitVec byte := by
  have rounds : Function.Semiconj UInt32.toBitVec crcBit (crcRound 0x82F63B78#32) := crcBit_eq
  exact rounds.iterate_right 8 (crc ^^^ byte.toUInt32)

/-- A fold of the library. -/
theorem foldl_crcByte_toBitVec (bytes : List UInt8) (crc : UInt32) :
    (bytes.foldl crcByte crc).toBitVec = bytes.foldl (crcFeed 0x82F63B78#32) crc.toBitVec := by
  induction bytes generalizing crc with
  | nil => rfl
  | cons byte bytes ih =>
    rw [List.foldl_cons, List.foldl_cons, ih, crcByte_toBitVec]

/-- Different bytes in a window of at most four lead to different checksums. -/
theorem crc32c_burst {left right : List UInt8} (length : left.length = right.length)
    (short : left.length ≤ 4) (differ : left ≠ right) (front back : List UInt8)
    (initial : UInt32) :
    crc32c (front ++ left ++ back) initial ≠ crc32c (front ++ right ++ back) initial := by
  intro same
  have states := UInt32.not_inj.mp same
  rw [List.foldl_append, List.foldl_append, List.foldl_append, List.foldl_append] at states
  have window := foldl_injective crcByte_lossless back states
  have bits := congrArg UInt32.toBitVec window
  rw [foldl_crcByte_toBitVec left, foldl_crcByte_toBitVec right] at bits
  have top : (0x82F63B78#32).getLsbD (32 - 1) = true := by decide
  exact foldl_crcFeed_ne top length (by omega) differ _ bits

end Checksum

end FluxTrade
