import InfraFromScratch.Foundations.PythonText
import InfraFromScratch.Foundations.Search
import InfraFromScratch.Foundations.Words

/-!
# Numerals

A number has one spelling in decimal digits without leading zeros (`decimal_digitsValue`), but the
functions that read numbers accept more. `strconv.Atoi` in Go takes a sign and leading zeros. `int`
in Python also takes white space around the numeral, underscores between digits, and digits of
other scripts; which characters are digits there is a parameter.

The address of four octets in dotted notation is read without leading zeros, so it has exactly
one spelling (`dottedQuad_eq_some_iff`).
-/

set_option autoImplicit false

namespace InfraFromScratch.Foundations

/-! ## Decimal digits -/

/-- An ASCII digit. -/
def isDecimalDigit (byte : UInt8) : Bool := 48 ≤ byte.toNat && byte.toNat ≤ 57

/-- The number that digits spell. -/
def digitsValue (digits : Bytes) : Nat :=
  digits.foldl (fun total digit => total * 10 + (digit.toNat - 48)) 0

theorem digitsValue_concat (digits : Bytes) (digit : UInt8) :
    digitsValue (digits ++ [digit]) = digitsValue digits * 10 + (digit.toNat - 48) := by
  rw [digitsValue, List.foldl_append]
  rfl

@[simp] theorem digitsValue_decimal (number : Nat) : digitsValue (decimal number) = number :=
  foldl_decimal number

theorem isDecimalDigit_iff {byte : UInt8} :
    isDecimalDigit byte = true ↔ 48 ≤ byte.toNat ∧ byte.toNat ≤ 57 := by
  rw [isDecimalDigit, Bool.and_eq_true, decide_eq_true_eq, decide_eq_true_eq]

theorem all_isDecimalDigit_decimal (number : Nat) :
    (decimal number).all isDecimalDigit = true :=
  List.all_eq_true.mpr fun _ member => isDecimalDigit_iff.mpr (mem_decimal member)

/-- The spelling of a number ends with its last digit. -/
theorem decimal_concat (number : Nat) {digit : UInt8} (isDigit : isDecimalDigit digit = true)
    (positive : 0 < number) :
    decimal (number * 10 + (digit.toNat - 48)) = decimal number ++ [digit] := by
  obtain ⟨above, below⟩ := isDecimalDigit_iff.mp isDigit
  have small : digit.toNat - 48 < 10 := by omega
  have joined :=
    @Nat.toDigits_append_toDigits 10 number (digit.toNat - 48) (by omega) positive small
  rw [Nat.toDigits_of_lt_base small] at joined
  have last : UInt8.ofNat (Nat.digitChar (digit.toNat - 48)).toNat = digit := by
    rw [Nat.toNat_digitChar_of_lt_ten small]
    apply UInt8.toNat.inj
    rw [UInt8.toNat_ofNat']
    omega
  rw [decimal, decimal, ascii, ascii, Nat.toList_repr, Nat.toList_repr, Nat.mul_comm, ← joined,
    List.map_append, List.map_singleton, last]

theorem decimal_of_digit (digit : UInt8) (isDigit : isDecimalDigit digit = true) :
    decimal (digit.toNat - 48) = [digit] := by
  revert digit
  exact forall_byte (by decide +kernel)

/-- **Digits without a leading zero** are the spelling of their number. -/
theorem decimal_digitsValue {digits : Bytes} (nonempty : digits ≠ [])
    (areDigits : digits.all isDecimalDigit = true)
    (noZero : digits.length = 1 ∨ digits.head? ≠ some 48) :
    decimal (digitsValue digits) = digits := by
  induction digits using List.reverseRecOn with
  | nil => exact absurd rfl nonempty
  | append_singleton front digit ih =>
      rw [List.all_append, Bool.and_eq_true, List.all_cons, List.all_nil,
        Bool.and_true] at areDigits
      rw [digitsValue_concat]
      by_cases single : front = []
      · subst single
        rw [List.nil_append, digitsValue, List.foldl_nil, Nat.zero_mul, Nat.zero_add]
        exact decimal_of_digit digit areDigits.2
      · have head : front.head? ≠ some 48 := by
          have first := noZero.resolve_left (by simp [single])
          rwa [List.head?_append_of_ne_nil _ single] at first
        have spelled := ih single areDigits.1 (.inr head)
        have positive : 0 < digitsValue front := by
          by_contra zero
          rw [Nat.eq_zero_of_not_pos zero] at spelled
          rw [← spelled] at head
          exact head (by decide)
        rw [decimal_concat _ areDigits.2 positive, spelled]

/-! ## Numbers in Go -/

/-- The sign in front of a numeral, and what follows it. -/
def splitSign : Bytes → Bool × Bytes
  | 43 :: digits => (false, digits)
  | 45 :: digits => (true, digits)
  | digits => (false, digits)

/-- The number with its sign. -/
def signed (negative : Bool) (number : Nat) : Int := if negative then -number else number

/-- `strconv.Atoi`: an optional sign and digits, whose number fits an `int` of 64 bits. -/
def atoi (text : Bytes) : Option Int :=
  let (negative, digits) := splitSign text
  if digits = [] ∨ ¬ digits.all isDecimalDigit then none
  else if -2 ^ 63 ≤ signed negative (digitsValue digits) ∧
      signed negative (digitsValue digits) < 2 ^ 63 then
    some (signed negative (digitsValue digits))
  else none

/-- `strconv.Itoa`. -/
def itoa : Int → Bytes
  | .ofNat number => decimal number
  | .negSucc number => ascii "-" ++ decimal (number + 1)

theorem splitSign_decimal (number : Nat) :
    splitSign (decimal number) = (false, decimal number) := by
  cases spelled : decimal number with
  | nil => exact absurd spelled (decimal_ne_nil number)
  | cons first rest =>
      have digit := mem_decimal (spelled ▸ List.mem_cons_self : first ∈ decimal number)
      unfold splitSign
      split
      · rename_i same
        rw [(List.cons.inj same).1] at digit
        exact absurd digit (by decide)
      · rename_i same
        rw [(List.cons.inj same).1] at digit
        exact absurd digit (by decide)
      · rfl

/-- A number that is written is read back. -/
theorem atoi_decimal {number : Nat} (fits : number < 2 ^ 63) :
    atoi (decimal number) = some (number : Int) := by
  have digits : ¬ (decimal number = [] ∨ ¬ (decimal number).all isDecimalDigit = true) := by
    simp [decimal_ne_nil, all_isDecimalDigit_decimal]
  rw [atoi, splitSign_decimal]
  dsimp only
  rw [if_neg digits, digitsValue_decimal, if_pos]
  · rfl
  · simp only [signed, Bool.false_eq_true, if_false]
    omega

/-! ## Numbers in Python -/

/-- The characters outside ASCII that `str.isspace` counts as white space. -/
def isWideSpace (character : Char) : Bool :=
  character.toNat ∈ [0x85, 0xA0, 0x1680, 0x2028, 0x2029, 0x202F, 0x205F, 0x3000] ||
    (0x2000 ≤ character.toNat && character.toNat ≤ 0x200A)

/-- A character as `int` reads it: ASCII is kept, other white space becomes a space, and digits
of other scripts become ASCII digits. Nothing else occurs in a numeral. -/
def numeralByte (decimalOf : Char → Option (Fin 10)) (character : Char) : UInt8 :=
  if character.toNat < 127 then .ofNat character.toNat
  else if isWideSpace character then 32
  else
    match decimalOf character with
    | some digit => .ofNat (48 + digit)
    | none => 63

/-- The white space of C. -/
def isSpaceByte (byte : UInt8) : Bool := byte.toNat = 32 || (9 ≤ byte.toNat && byte.toNat ≤ 13)

/-- The limit on the digits of a numeral, `sys.int_info.default_max_str_digits`. -/
def maxStrDigits : Nat := 4300

/-- `int(text)`, or nothing where it raises `ValueError`. The digits may be grouped by single
underscores. -/
def pythonInt (decimalOf : Char → Option (Fin 10)) (text : Text) : Option Int :=
  let stripped :=
    ((text.map (numeralByte decimalOf)).dropWhile isSpaceByte).rdropWhile isSpaceByte
  let (negative, numeral) := splitSign stripped
  let groups := splitAround [95] numeral
  if (∀ group ∈ groups, group ≠ [] ∧ group.all isDecimalDigit) ∧
      groups.flatten.length ≤ maxStrDigits then
    some (signed negative (digitsValue groups.flatten))
  else none

/-- The text of a number, `str(number)`. -/
def decimalText (number : Nat) : Text := number.repr.toList

theorem mem_decimalText {character : Char} {number : Nat}
    (member : character ∈ decimalText number) : character.isDigit = true := by
  rw [decimalText, Nat.toList_repr] at member
  exact Nat.isDigit_of_mem_toDigits (by omega) (by omega) member

theorem notMem_decimalText {character : Char} (noDigit : character.isDigit = false) (number : Nat) :
    character ∉ decimalText number := by
  intro member
  rw [mem_decimalText member] at noDigit
  cases noDigit

theorem decimalText_ne_nil (number : Nat) : decimalText number ≠ [] := by
  rw [decimalText, Nat.toList_repr]
  exact Nat.toDigits_ne_nil

theorem decimalText_small {character : Char} {number : Nat}
    (member : character ∈ decimalText number) : character.toNat ≤ 57 := by
  have digit := mem_decimalText member
  rw [Char.isDigit, Bool.and_eq_true, decide_eq_true_eq, decide_eq_true_eq] at digit
  exact digit.2

theorem map_numeralByte_decimalText (decimalOf : Char → Option (Fin 10)) (number : Nat) :
    (decimalText number).map (numeralByte decimalOf) = decimal number := by
  apply List.map_congr_left
  intro character member
  have small := decimalText_small member
  rw [numeralByte, if_pos (by omega)]

/-- A byte that is no digit is not in the spelling of a number. -/
theorem notMem_decimal {byte : UInt8} (noDigit : isDecimalDigit byte = false) (number : Nat) :
    byte ∉ decimal number := by
  intro member
  rw [isDecimalDigit_iff.mpr (mem_decimal member)] at noDigit
  cases noDigit

/-- A number that is written is read back, if it is not too long. -/
theorem pythonInt_decimalText (decimalOf : Char → Option (Fin 10)) {number : Nat}
    (short : (decimal number).length ≤ maxStrDigits) :
    pythonInt decimalOf (decimalText number) = some (number : Int) := by
  have solid : ∀ byte ∈ decimal number, isSpaceByte byte = false := by
    intro byte member
    have digit := mem_decimal member
    simp only [isSpaceByte, Bool.or_eq_false_iff, Bool.and_eq_false_iff, decide_eq_false_iff_not]
    omega
  have whole : splitAround [95] (decimal number) = [decimal number] :=
    splitAround_of_missing (indexOf_missing_of_clean (notMem_decimal (by decide) number) [])
  have accepted : (∀ group ∈ [decimal number], group ≠ [] ∧ group.all isDecimalDigit) ∧
      [decimal number].flatten.length ≤ maxStrDigits := by
    rw [List.flatten_singleton]
    refine ⟨fun group member => ?_, short⟩
    rw [List.mem_singleton.mp member]
    exact ⟨decimal_ne_nil number, all_isDecimalDigit_decimal number⟩
  rw [pythonInt, map_numeralByte_decimalText]
  dsimp only
  rw [strip_of_solid solid, splitSign_decimal]
  dsimp only
  rw [whole, if_pos accepted, List.flatten_singleton, digitsValue_decimal]
  rfl

/-! ## Addresses of four octets -/

/-- An IPv4 address. -/
structure IPv4 where
  first : UInt8
  second : UInt8
  third : UInt8
  fourth : UInt8
  deriving DecidableEq, Repr

/-- One octet: digits without a leading zero whose number is at most 255. -/
def octet (text : Bytes) : Option UInt8 :=
  if text = [] ∨ ¬ text.all isDecimalDigit ∨ (text.length ≠ 1 ∧ text.head? = some 48) ∨
      255 < digitsValue text then none
  else some (.ofNat (digitsValue text))

/-- An address in dotted notation. -/
def dottedQuad (text : Bytes) : Option IPv4 :=
  match splitAround [46] text with
  | [first, second, third, fourth] => do
      return ⟨← octet first, ← octet second, ← octet third, ← octet fourth⟩
  | _ => none

/-- The dotted notation of an address. -/
def IPv4.dotted (address : IPv4) : Bytes :=
  [46].intercalate [decimal address.first.toNat, decimal address.second.toNat,
    decimal address.third.toNat, decimal address.fourth.toNat]

theorem octet_decimal (byte : UInt8) : octet (decimal byte.toNat) = some byte := by
  revert byte
  exact forall_byte (by decide +kernel)

theorem octet_eq_some_iff {text : Bytes} {byte : UInt8} :
    octet text = some byte ↔ text = decimal byte.toNat := by
  constructor
  · intro read
    unfold octet at read
    split at read
    · cases read
    · rename_i checks
      simp only [not_or, not_not, not_and] at checks
      obtain ⟨nonempty, areDigits, noZero, small⟩ := checks
      obtain rfl := Option.some.inj read
      have spelled := decimal_digitsValue nonempty areDigits (or_iff_not_imp_left.mpr noZero)
      rw [UInt8.toNat_ofNat_of_lt' (Nat.lt_succ_of_le (not_lt.mp small)), spelled]
  · rintro rfl
    exact octet_decimal byte

/-- **An address has one spelling** in dotted notation. -/
theorem dottedQuad_eq_some_iff {text : Bytes} {address : IPv4} :
    dottedQuad text = some address ↔ text = address.dotted := by
  constructor
  · intro read
    have joined := intercalate_splitAround (List.cons_ne_nil 46 []) text
    unfold dottedQuad at read
    split at read
    · rename_i first second third fourth pieces
      simp only [bind, Option.bind_eq_some_iff, pure, Option.some.injEq] at read
      obtain ⟨one, readOne, two, readTwo, three, readThree, four, readFour, rfl⟩ := read
      rw [octet_eq_some_iff] at readOne readTwo readThree readFour
      rw [← joined, pieces, readOne, readTwo, readThree, readFour, IPv4.dotted]
    · cases read
  · rintro rfl
    have pieces : splitAround [46] address.dotted = [decimal address.first.toNat,
        decimal address.second.toNat, decimal address.third.toNat,
        decimal address.fourth.toNat] := by
      refine splitAround_intercalate (List.cons_ne_nil _ _) fun piece member => ?_
      simp only [List.mem_cons, List.not_mem_nil, or_false] at member
      rcases member with rfl | rfl | rfl | rfl <;> exact notMem_decimal (by decide) _
    rw [dottedQuad, pieces]
    simp only [octet_decimal]
    rfl

theorem dotted_injective : Function.Injective IPv4.dotted := by
  intro one other same
  have read : dottedQuad one.dotted = some other := dottedQuad_eq_some_iff.mpr same
  rw [dottedQuad_eq_some_iff.mpr rfl] at read
  exact Option.some.inj read

/-- A byte that is no digit and no dot is not in an address in dotted notation. -/
theorem notMem_dotted {byte : UInt8} (noDigit : isDecimalDigit byte = false) (noDot : byte ≠ 46)
    (address : IPv4) : byte ∉ address.dotted := by
  simp only [IPv4.dotted, List.intercalate, List.intersperse, List.flatten_cons, List.flatten_nil,
    List.mem_append, List.mem_singleton, List.not_mem_nil, or_false, not_or]
  have digits := fun number => notMem_decimal noDigit number
  exact ⟨digits _, noDot, digits _, noDot, digits _, noDot, digits _⟩

theorem dotted_ne_nil (address : IPv4) : address.dotted ≠ [] := by
  simp [IPv4.dotted, List.intercalate, decimal_ne_nil]

theorem mem_dotted {address : IPv4} {byte : UInt8} (member : byte ∈ address.dotted) :
    46 ≤ byte.toNat ∧ byte.toNat ≤ 57 := by
  by_contra outside
  refine notMem_dotted ?_ ?_ address member
  · rw [← Bool.not_eq_true, isDecimalDigit_iff]
    omega
  · rintro rfl
    exact outside (by decide)

theorem dotted_length_le (address : IPv4) : address.dotted.length ≤ 15 := by
  have small : ∀ byte : UInt8, (decimal byte.toNat).length ≤ 3 := fun byte =>
    decimal_length_le (by omega) (byte.toNat_lt.trans (by decide))
  have one := small address.first
  have two := small address.second
  have three := small address.third
  have four := small address.fourth
  simp only [IPv4.dotted, List.intercalate, List.intersperse, List.flatten_cons, List.flatten_nil,
    List.length_append, List.length_cons, List.length_nil]
  omega

end InfraFromScratch.Foundations
