import InfraFromScratch.Foundations.Bytes

/-!
# Big-endian words of two bytes

Network formats put a 16-bit number into two bytes, the high one first, and pack flags
into single bits. The bit operations act on the two bytes separately (`word_and`,
`word_or`), so that statements about masks of a word become statements about bytes.
-/

set_option autoImplicit false

namespace InfraFromScratch.Foundations

/-- What holds of the 256 bytes holds of every byte. -/
theorem forall_byte {property : UInt8 → Prop}
    (checked : ∀ number : Fin 256, property (UInt8.ofFin number)) (byte : UInt8) :
    property byte :=
  checked byte.toFin

/-- The number with the given high and low byte. -/
def word (high low : UInt8) : UInt16 := high.toUInt16 <<< 8 ||| low.toUInt16

/-- The bytes of a number, the high one first. -/
def wordBytes (number : UInt16) : Bytes := [(number >>> 8).toUInt8, number.toUInt8]

theorem word_toBitVec (high low : UInt8) :
    (word high low).toBitVec = (high.toBitVec ++ low.toBitVec : BitVec (8 + 8)) := by
  have shifted : high.toBitVec.toNat <<< 8 < 2 ^ 16 := by
    have bound := high.toBitVec.isLt
    rw [Nat.shiftLeft_eq]
    omega
  have joined : (high.toBitVec.setWidth 16) <<< 8 ||| low.toBitVec.setWidth 16 =
      (high.toBitVec ++ low.toBitVec : BitVec (8 + 8)) := by
    apply BitVec.eq_of_toNat_eq
    rw [BitVec.toNat_append, BitVec.toNat_or, BitVec.toNat_shiftLeft]
    simp only [BitVec.toNat_setWidth_of_le (show 8 ≤ 16 by decide)]
    rw [Nat.mod_eq_of_lt shifted]
  exact joined

/-- The value of a word. -/
theorem word_toNat (high low : UInt8) :
    (word high low).toNat = 256 * high.toNat + low.toNat := by
  rw [← UInt16.toNat_toBitVec, word_toBitVec, BitVec.toNat_append,
    ← Nat.shiftLeft_add_eq_or_of_lt low.toBitVec.isLt, Nat.shiftLeft_eq, UInt8.toNat_toBitVec,
    UInt8.toNat_toBitVec]
  omega

/-- Masks act on the bytes. -/
theorem word_and (high low maskHigh maskLow : UInt8) :
    word high low &&& word maskHigh maskLow = word (high &&& maskHigh) (low &&& maskLow) := by
  apply UInt16.toBitVec_inj.mp
  rw [UInt16.toBitVec_and, word_toBitVec, word_toBitVec, word_toBitVec, UInt8.toBitVec_and,
    UInt8.toBitVec_and]
  exact BitVec.and_append

theorem word_or (high low otherHigh otherLow : UInt8) :
    word high low ||| word otherHigh otherLow = word (high ||| otherHigh) (low ||| otherLow) := by
  apply UInt16.toBitVec_inj.mp
  rw [UInt16.toBitVec_or, word_toBitVec, word_toBitVec, word_toBitVec, UInt8.toBitVec_or,
    UInt8.toBitVec_or]
  exact BitVec.or_append

theorem word_inj {high low otherHigh otherLow : UInt8}
    (same : word high low = word otherHigh otherLow) : high = otherHigh ∧ low = otherLow := by
  have values := congrArg UInt16.toNat same
  rw [word_toNat, word_toNat] at values
  have lowBound := low.toNat_lt
  have otherBound := otherLow.toNat_lt
  exact ⟨UInt8.toNat_inj.mp (by omega), UInt8.toNat_inj.mp (by omega)⟩

/-- The high byte is what the number has above 255. -/
theorem shiftRight_toUInt8_toNat (number : UInt16) :
    (number >>> 8).toUInt8.toNat = number.toNat / 256 := by
  have bound := number.toNat_lt
  have divided : number.toNat >>> (8 % 16) = number.toNat / 256 := Nat.shiftRight_eq_div_pow _ 8
  simp only [UInt16.toNat_toUInt8, UInt16.toNat_shiftRight, UInt16.reduceToNat, divided]
  omega

/-- A word is written as its bytes. -/
theorem wordBytes_word (high low : UInt8) : wordBytes (word high low) = [high, low] := by
  have value := word_toNat high low
  have highBound := high.toNat_lt
  have lowBound := low.toNat_lt
  have highByte : (word high low >>> 8).toUInt8 = high := by
    apply UInt8.toNat_inj.mp
    rw [shiftRight_toUInt8_toNat]
    omega
  have lowByte : (word high low).toUInt8 = low := by
    apply UInt8.toNat_inj.mp
    rw [UInt16.toNat_toUInt8]
    omega
  rw [wordBytes, highByte, lowByte]

/-- The two bytes of a word read as the word. -/
theorem word_bytes (number : UInt16) : word (number >>> 8).toUInt8 number.toUInt8 = number := by
  apply UInt16.toNat_inj.mp
  have bound := number.toNat_lt
  rw [word_toNat, shiftRight_toUInt8_toNat, UInt16.toNat_toUInt8]
  omega

/-- Every word is written as two bytes that read as the word. -/
theorem word_wordBytes (number : UInt16) :
    ∃ high low, wordBytes number = [high, low] ∧ number = word high low :=
  ⟨(number >>> 8).toUInt8, number.toUInt8, rfl, (word_bytes number).symm⟩

end InfraFromScratch.Foundations
