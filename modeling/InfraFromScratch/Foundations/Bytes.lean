import Mathlib

/-!
# Byte strings

Every component of the stack exchanges byte strings. They are lists of bytes
here, so that the cuts and searches the components perform are list operations.
-/

set_option autoImplicit false

namespace InfraFromScratch

/-- A string of bytes. -/
abbrev Bytes := List UInt8

/-- The bytes of a text whose characters are all ASCII. -/
def ascii (text : String) : Bytes := text.toList.map fun character => UInt8.ofNat character.toNat

/-- Carriage return. -/
abbrev cr : UInt8 := 13

/-- Line feed. -/
abbrev lf : UInt8 := 10

/-- Nothing is stripped from the ends of a list without elements to strip. -/
theorem strip_of_solid {α : Type*} {strips : α → Bool} {elements : List α}
    (solid : ∀ element ∈ elements, strips element = false) :
    (elements.dropWhile strips).rdropWhile strips = elements := by
  have front : elements.dropWhile strips = elements := by
    cases elements with
    | nil => rfl
    | cons element rest =>
        rw [List.dropWhile_cons_of_neg]
        rw [solid element List.mem_cons_self]
        decide
  rw [front, List.rdropWhile_eq_self_iff]
  intro nonempty
  rw [solid _ (List.getLast_mem nonempty)]
  decide

/-! ## Decimal numbers -/

/-- A number written in decimal digits. -/
def decimal (number : Nat) : Bytes := ascii number.repr

theorem mem_decimal {number : Nat} {byte : UInt8} (member : byte ∈ decimal number) :
    48 ≤ byte.toNat ∧ byte.toNat ≤ 57 := by
  simp only [decimal, ascii, List.mem_map, Nat.toList_repr] at member
  obtain ⟨character, isMember, rfl⟩ := member
  have digit := Nat.isDigit_of_mem_toDigits (by omega) (by omega) isMember
  simp only [Char.isDigit, Bool.and_eq_true, decide_eq_true_eq, ge_iff_le] at digit
  have lower : 48 ≤ character.toNat := digit.1
  have upper : character.toNat ≤ 57 := digit.2
  have value : (UInt8.ofNat character.toNat).toNat = character.toNat := by
    simp only [UInt8.toNat_ofNat']
    omega
  omega

theorem decimal_ne_nil (number : Nat) : decimal number ≠ [] := by
  simp [decimal, ascii, Nat.toList_repr]

theorem decimal_length_le {number size : Nat} (positive : 0 < size) (bound : number < 10 ^ size) :
    (decimal number).length ≤ size := by
  simp only [decimal, ascii, List.length_map, Nat.toList_repr]
  exact (Nat.length_toDigits_le_iff (by omega) positive).mpr bound

/-- Reading the digits from the left gives the number back. -/
theorem foldl_decimal (number : Nat) :
    (decimal number).foldl (fun total digit => total * 10 + (digit.toNat - 48)) 0 = number := by
  have reading : ∀ (digits : List Char) (start : Nat),
      (∀ character ∈ digits, character.isDigit = true) →
      (digits.map fun character => UInt8.ofNat character.toNat).foldl
          (fun total digit => total * 10 + (digit.toNat - 48)) start =
        Nat.ofDigitChars 10 digits start := by
    intro digits
    induction digits with
    | nil => intro start _; rfl
    | cons character digits ih =>
        intro start allDigits
        have digit := allDigits character List.mem_cons_self
        simp only [Char.isDigit, Bool.and_eq_true, decide_eq_true_eq, ge_iff_le] at digit
        have upper : character.toNat ≤ 57 := digit.2
        have value : (UInt8.ofNat character.toNat).toNat = character.toNat := by
          simp only [UInt8.toNat_ofNat']
          omega
        rw [List.map_cons, List.foldl_cons, Nat.ofDigitChars_cons,
          ih _ fun other member => allDigits other (List.mem_cons_of_mem _ member), value,
          Nat.mul_comm start 10]
        rfl
  rw [decimal, ascii, Nat.toList_repr, reading _ _ fun character member =>
    Nat.isDigit_of_mem_toDigits (by omega) (by omega) member]
  exact Nat.ofDigitChars_ten_toDigits

end InfraFromScratch
