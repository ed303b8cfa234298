import InfraFromScratch.Foundations.Bytes

/-!
# Text in Go's `bytes` package

Byte strings are read as UTF-8. A byte that starts no well-formed sequence counts as one
replacement rune. The functions below follow `bytes.EqualFold`, `bytes.ToLower` and
`bytes.TrimSpace`; what the Unicode tables say about runes outside ASCII is a parameter
of the first two.

Folding compares runes, and some ASCII letters have partners outside ASCII. Against a
text without such letters it is comparison up to ASCII case, whatever the tables say
(`equalFold_iff`).
-/

set_option autoImplicit false

namespace InfraFromScratch.Foundations

/-- What `unicode.SimpleFold` and `unicode.ToLower` return on runes outside ASCII. -/
structure UnicodeTables where
  simpleFold : Nat → Nat
  toLower : Nat → Nat

/-! ## UTF-8 -/

/-- `utf8.RuneError`. -/
def runeError : Nat := 0xFFFD

def isContinuation (byte : UInt8) : Bool := 0x80 ≤ byte.toNat && byte.toNat ≤ 0xBF

/-- The bounds of the byte after the given first byte. -/
def secondBounds (first : UInt8) : Nat × Nat :=
  if first.toNat = 0xE0 then (0xA0, 0xBF)
  else if first.toNat = 0xED then (0x80, 0x9F)
  else if first.toNat = 0xF0 then (0x90, 0xBF)
  else if first.toNat = 0xF4 then (0x80, 0x8F)
  else (0x80, 0xBF)

/-- `utf8.DecodeRune`: the first rune and the number of its bytes. -/
def decodeRune : Bytes → Nat × Nat
  | [] => (runeError, 0)
  | first :: rest =>
      if first.toNat < 0x80 then (first.toNat, 1)
      else if 0xC2 ≤ first.toNat ∧ first.toNat ≤ 0xDF then
        match rest with
        | second :: _ =>
            if isContinuation second then
              ((first.toNat - 0xC0) * 64 + (second.toNat - 0x80), 2)
            else (runeError, 1)
        | _ => (runeError, 1)
      else if 0xE0 ≤ first.toNat ∧ first.toNat ≤ 0xEF then
        match rest with
        | second :: third :: _ =>
            if (secondBounds first).1 ≤ second.toNat ∧ second.toNat ≤ (secondBounds first).2 ∧
                isContinuation third then
              ((first.toNat - 0xE0) * 4096 + (second.toNat - 0x80) * 64 +
                (third.toNat - 0x80), 3)
            else (runeError, 1)
        | _ => (runeError, 1)
      else if 0xF0 ≤ first.toNat ∧ first.toNat ≤ 0xF4 then
        match rest with
        | second :: third :: fourth :: _ =>
            if (secondBounds first).1 ≤ second.toNat ∧ second.toNat ≤ (secondBounds first).2 ∧
                isContinuation third ∧ isContinuation fourth then
              ((first.toNat - 0xF0) * 262144 + (second.toNat - 0x80) * 4096 +
                (third.toNat - 0x80) * 64 + (fourth.toNat - 0x80), 4)
            else (runeError, 1)
        | _ => (runeError, 1)
      else (runeError, 1)

/-- The runes of a text, each with its bytes. -/
def runes : Bytes → List (Nat × Bytes)
  | [] => []
  | first :: rest =>
      ((decodeRune (first :: rest)).1, (first :: rest).take (decodeRune (first :: rest)).2) ::
        runes (rest.drop ((decodeRune (first :: rest)).2 - 1))
termination_by text => text.length
decreasing_by
  simp only [List.length_drop, List.length_cons]
  omega

/-- `utf8.AppendRune` to nothing. -/
def encodeRune (rune : Nat) : Bytes :=
  if rune < 0x80 then [.ofNat rune]
  else if rune < 0x800 then [.ofNat (0xC0 + rune / 64), .ofNat (0x80 + rune % 64)]
  else if 0x10FFFF < rune ∨ (0xD800 ≤ rune ∧ rune ≤ 0xDFFF) then [0xEF, 0xBF, 0xBD]
  else if rune < 0x10000 then
    [.ofNat (0xE0 + rune / 4096), .ofNat (0x80 + rune / 64 % 64), .ofNat (0x80 + rune % 64)]
  else
    [.ofNat (0xF0 + rune / 262144), .ofNat (0x80 + rune / 4096 % 64),
      .ofNat (0x80 + rune / 64 % 64), .ofNat (0x80 + rune % 64)]

/-! ## Case -/

/-- The lower case of an ASCII letter; any other byte is kept. -/
def asciiLower (byte : UInt8) : UInt8 :=
  if 65 ≤ byte.toNat ∧ byte.toNat ≤ 90 then byte + 32 else byte

/-- `unicode.ToLower`. -/
def runeLower (tables : UnicodeTables) (rune : Nat) : Nat :=
  if rune < 0x80 then if 65 ≤ rune ∧ rune ≤ 90 then rune + 32 else rune
  else tables.toLower rune

/-- `bytes.ToLower`. -/
def toLower (tables : UnicodeTables) (text : Bytes) : Bytes :=
  if text.all fun byte => byte.toNat < 0x80 then text.map asciiLower
  else (runes text).flatMap fun rune => encodeRune (runeLower tables rune.1)

/-- `unicode.SimpleFold`: the next rune that folds to the same, in a cycle. Among the
ASCII letters only `k` and `s` have partners outside ASCII. -/
def simpleFold (tables : UnicodeTables) (rune : Nat) : Nat :=
  if rune < 0x80 then
    if 65 ≤ rune ∧ rune ≤ 90 then rune + 32
    else if rune = 107 then 0x212A
    else if rune = 115 then 0x17F
    else if 97 ≤ rune ∧ rune ≤ 122 then rune - 32
    else rune
  else tables.simpleFold rune

/-- The loop of `EqualFold` around the cycle of `low`. A cycle is run through upwards,
so `high` rounds are enough. -/
def foldsTo (tables : UnicodeTables) (low high : Nat) : Nat → Nat → Bool
  | 0, rune => rune == high
  | rounds + 1, rune =>
      if rune ≠ low ∧ rune < high then foldsTo tables low high rounds (simpleFold tables rune)
      else rune == high

/-- Two ASCII runes are equal or one letter in two cases. -/
def asciiFolds (one other : Nat) : Bool :=
  one == other ||
    (65 ≤ min one other && min one other ≤ 90 && max one other == min one other + 32)

/-- Two runes fold to the same. -/
def runeFolds (tables : UnicodeTables) (one other : Nat) : Bool :=
  if one = other then true
  else if max one other < 0x80 then asciiFolds one other
  else foldsTo tables (min one other) (max one other) (max one other)
    (simpleFold tables (min one other))

/-- The runes of two texts fold to the same, one by one. -/
def runesFold (tables : UnicodeTables) : List Nat → List Nat → Bool
  | one :: ones, other :: others =>
      runeFolds tables one other && runesFold tables ones others
  | [], [] => true
  | _, _ => false

/-- `bytes.EqualFold`: bytes are compared as long as both are ASCII, then runes. -/
def equalFold (tables : UnicodeTables) : Bytes → Bytes → Bool
  | one :: ones, other :: others =>
      if 0x80 ≤ one.toNat ∨ 0x80 ≤ other.toNat then
        runesFold tables ((runes (one :: ones)).map Prod.fst)
          ((runes (other :: others)).map Prod.fst)
      else asciiFolds one.toNat other.toNat && equalFold tables ones others
  | [], [] => true
  | _, _ => false

/-! ## White space -/

/-- `unicode.IsSpace`. -/
def isUnicodeSpace (rune : Nat) : Bool :=
  rune ∈ [0x09, 0x0A, 0x0B, 0x0C, 0x0D, 0x20, 0x85, 0xA0, 0x1680, 0x2028, 0x2029, 0x202F, 0x205F,
    0x3000] || (0x2000 ≤ rune && rune ≤ 0x200A)

/-- `bytes.TrimSpace`. -/
def trimSpace (text : Bytes) : Bytes :=
  (((runes text).dropWhile fun rune => isUnicodeSpace rune.1).rdropWhile
    fun rune => isUnicodeSpace rune.1).flatMap Prod.snd

/-! ## Folding against plain ASCII -/

/-- An ASCII byte that is no letter with a partner outside ASCII. -/
def Plain (byte : UInt8) : Prop :=
  byte.toNat < 0x80 ∧ (asciiLower byte).toNat ≠ 107 ∧ (asciiLower byte).toNat ≠ 115

instance (byte : UInt8) : Decidable (Plain byte) := inferInstanceAs (Decidable (_ ∧ _ ∧ _))

theorem asciiLower_toNat (byte : UInt8) :
    (asciiLower byte).toNat =
      if 65 ≤ byte.toNat ∧ byte.toNat ≤ 90 then byte.toNat + 32 else byte.toNat := by
  unfold asciiLower
  split
  · rw [UInt8.toNat_add, show (32 : UInt8).toNat = 32 from rfl]
    omega
  · rfl

theorem asciiFolds_iff {one other : UInt8} (oneAscii : one.toNat < 0x80)
    (otherAscii : other.toNat < 0x80) :
    asciiFolds one.toNat other.toNat = true ↔ asciiLower one = asciiLower other := by
  rw [← UInt8.toNat_inj, asciiLower_toNat, asciiLower_toNat]
  simp only [asciiFolds, Bool.or_eq_true, beq_iff_eq, Bool.and_eq_true, decide_eq_true_eq]
  split <;> split <;> omega

theorem decodeRune_of_ascii {first : UInt8} (small : first.toNat < 0x80) (rest : Bytes) :
    decodeRune (first :: rest) = (first.toNat, 1) := if_pos small

/-- A rune that does not start with an ASCII byte is not ASCII. -/
theorem decodeRune_large {first : UInt8} (large : 0x80 ≤ first.toNat) (rest : Bytes) :
    0x80 ≤ (decodeRune (first :: rest)).1 := by
  have replaced : 0x80 ≤ runeError := by decide
  simp only [decodeRune, if_neg (not_lt.mpr large)]
  split
  · -- two bytes
    split
    · split
      · dsimp only
        omega
      · exact replaced
    · exact replaced
  · split
    · -- three bytes: a first byte `0xE0` demands a large second one
      split
      · rename_i second third others
        split
        · rename_i bounds
          have lower : first.toNat = 0xE0 → 0xA0 ≤ second.toNat := by
            intro same
            have := bounds.1
            rwa [secondBounds, if_pos same] at this
          dsimp only
          omega
        · exact replaced
      · exact replaced
    · split
      · -- four bytes: a first byte `0xF0` demands a large second one
        split
        · rename_i second third fourth others
          split
          · rename_i bounds
            have lower : first.toNat = 0xF0 → 0x90 ≤ second.toNat := by
              intro same
              have := bounds.1
              rwa [secondBounds, if_neg (by omega), if_neg (by omega), if_pos same] at this
            dsimp only
            omega
          · exact replaced
        · exact replaced
      · exact replaced

/-- A plain rune and one outside ASCII do not fold to the same. -/
theorem runeFolds_plain {tables : UnicodeTables} {one : Nat} {other : UInt8}
    (large : 0x80 ≤ one) (plain : Plain other) : runeFolds tables one other.toNat = false := by
  obtain ⟨small, noK, noS⟩ := plain
  rw [asciiLower_toNat] at noK noS
  have low : min one other.toNat = other.toNat := by omega
  have high : max one other.toNat = one := by omega
  rw [runeFolds, if_neg (by omega), high, low, if_neg (by omega)]
  obtain ⟨rounds, rfl⟩ : ∃ rounds, one = rounds + 2 := ⟨one - 2, by omega⟩
  by_cases upper : 65 ≤ other.toNat ∧ other.toNat ≤ 90
  · rw [if_pos upper] at noK noS
    have there : simpleFold tables other.toNat = other.toNat + 32 := by
      rw [simpleFold, if_pos small, if_pos upper]
    have back : simpleFold tables (other.toNat + 32) = other.toNat := by
      rw [simpleFold, if_pos (by omega), if_neg (by omega), if_neg noK, if_neg noS,
        if_pos (by omega)]
      omega
    rw [there, foldsTo, if_pos (by omega), back, foldsTo, if_neg (by omega)]
    exact beq_eq_false_iff_ne.mpr (by omega)
  · rw [if_neg upper] at noK noS
    by_cases lower : 97 ≤ other.toNat ∧ other.toNat ≤ 122
    · have there : simpleFold tables other.toNat = other.toNat - 32 := by
        rw [simpleFold, if_pos small, if_neg upper, if_neg noK, if_neg noS, if_pos lower]
      have back : simpleFold tables (other.toNat - 32) = other.toNat := by
        rw [simpleFold, if_pos (by omega), if_pos (by omega)]
        omega
      rw [there, foldsTo, if_pos (by omega), back, foldsTo, if_neg (by omega)]
      exact beq_eq_false_iff_ne.mpr (by omega)
    · have alone : simpleFold tables other.toNat = other.toNat := by
        rw [simpleFold, if_pos small, if_neg upper, if_neg noK, if_neg noS, if_neg lower]
      rw [alone, foldsTo, if_neg (by omega)]
      exact beq_eq_false_iff_ne.mpr (by omega)

/-- **Folding against plain ASCII** is comparison up to ASCII case. -/
theorem equalFold_iff {tables : UnicodeTables} {text pattern : Bytes}
    (plain : ∀ byte ∈ pattern, Plain byte) :
    equalFold tables text pattern = true ↔ text.map asciiLower = pattern.map asciiLower := by
  induction pattern generalizing text with
  | nil =>
      cases text with
      | nil => simp [equalFold]
      | cons one ones => simp [equalFold]
  | cons other others ih =>
      cases text with
      | nil => simp [equalFold]
      | cons one ones =>
          have otherPlain := plain other List.mem_cons_self
          rw [List.map_cons, List.map_cons, List.cons.injEq, equalFold]
          by_cases large : 0x80 ≤ one.toNat
          · -- The text leaves ASCII here, and the pattern does not.
            have firstRune := decodeRune_large large ones
            rw [if_pos (.inl large), runes, runes, List.map_cons, List.map_cons, runesFold,
              decodeRune_of_ascii otherPlain.1, runeFolds_plain firstRune otherPlain]
            have differ : asciiLower one ≠ asciiLower other := by
              intro same
              have values := congrArg UInt8.toNat same
              have small := otherPlain.1
              rw [asciiLower_toNat, asciiLower_toNat, if_neg (by omega)] at values
              split at values <;> omega
            simp [differ]
          · rw [if_neg (not_or.mpr ⟨large, not_le.mpr otherPlain.1⟩), Bool.and_eq_true,
              asciiFolds_iff (not_le.mp large) otherPlain.1,
              ih fun byte member => plain byte (List.mem_cons_of_mem _ member)]

/-! ## Texts without white space -/

theorem decodeRune_pos (first : UInt8) (rest : Bytes) : 0 < (decodeRune (first :: rest)).2 := by
  simp only [decodeRune]
  repeat' split
  all_goals exact Nat.succ_pos _

/-- The bytes of the runes are the text. -/
theorem flatMap_runes (text : Bytes) : (runes text).flatMap Prod.snd = text := by
  induction text using runes.induct with
  | case1 => rw [runes, List.flatMap_nil]
  | case2 first rest ih =>
      have positive := decodeRune_pos first rest
      have dropped : rest.drop ((decodeRune (first :: rest)).2 - 1) =
          (first :: rest).drop (decodeRune (first :: rest)).2 := by
        rw [List.drop_cons positive]
      rw [runes, List.flatMap_cons, ih, dropped]
      exact List.take_append_drop _ _

/-- Nothing is trimmed from a text without white space. -/
theorem trimSpace_of_solid {text : Bytes} (solid : ∀ rune ∈ runes text, isUnicodeSpace rune.1 = false) :
    trimSpace text = text := by
  rw [trimSpace, strip_of_solid solid, flatMap_runes]

theorem runes_of_ascii {first : UInt8} (small : first.toNat < 0x80) (rest : Bytes) :
    runes (first :: rest) = (first.toNat, [first]) :: runes rest := by
  rw [runes, decodeRune_of_ascii small]
  rfl

/-- Nothing is trimmed from printable ASCII. -/
theorem trimSpace_of_printable {text : Bytes}
    (printable : ∀ byte ∈ text, 32 < byte.toNat ∧ byte.toNat < 0x80) : trimSpace text = text := by
  apply trimSpace_of_solid
  induction text with
  | nil =>
      intro rune member
      rw [runes] at member
      cases member
  | cons byte rest ih =>
      obtain ⟨visible, small⟩ := printable byte List.mem_cons_self
      intro rune member
      rw [runes_of_ascii small, List.mem_cons] at member
      rcases member with rfl | later
      · simp only [isUnicodeSpace, List.mem_cons, List.not_mem_nil, or_false, Bool.or_eq_false_iff,
          Bool.and_eq_false_iff, decide_eq_false_iff_not]
        omega
      · exact ih (fun other inside => printable other (List.mem_cons_of_mem _ inside)) rune later

/-- The first byte of a sequence of two that no continuation follows is a replacement rune. -/
theorem runes_of_unfinished {first : UInt8} (leads : 0xC2 ≤ first.toNat ∧ first.toNat ≤ 0xDF)
    {rest : Bytes} (unfinished : ∀ second ∈ rest.head?, isContinuation second = false) :
    runes (first :: rest) = (runeError, [first]) :: runes rest := by
  have decoded : decodeRune (first :: rest) = (runeError, 1) := by
    cases rest with
    | nil => simp only [decodeRune, if_neg (show ¬ first.toNat < 0x80 by omega), if_pos leads]
    | cons second others =>
        simp only [decodeRune, if_neg (show ¬ first.toNat < 0x80 by omega), if_pos leads,
          unfinished second rfl, Bool.false_eq_true, if_false]
  rw [runes, decoded]
  rfl

/-- The bytes of the replacement rune. -/
def replacement : Bytes := encodeRune runeError

theorem runes_of_replacement (rest : Bytes) :
    runes (replacement ++ rest) = (runeError, replacement) :: runes rest := by
  have decoded : decodeRune (replacement ++ rest) = (runeError, 3) := by
    cases rest <;> rfl
  show runes (0xEF :: ([0xBF, 0xBD] ++ rest)) = _
  rw [runes]
  show ((decodeRune (replacement ++ rest)).1, _) :: _ = _
  rw [show (0xEF :: ([0xBF, 0xBD] ++ rest) : Bytes) = replacement ++ rest from rfl, decoded]
  rfl

end InfraFromScratch.Foundations
