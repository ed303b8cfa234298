import InfraFromScratch.Foundations.Bytes

/-!
# Text in Python

A `str` is a list of characters. Bytes become text by Latin-1, which keeps every byte as the
character of the same number, or by ASCII, which refuses the bytes from 128 on. Case is
folded as `str.casefold` does on Latin-1: most letters become their small letter, one becomes
a Greek letter, and the sharp s becomes two letters.
-/

set_option autoImplicit false

namespace InfraFromScratch.Foundations

/-- A `str`. -/
abbrev Text := List Char

instance decidableMemTexts (text : Text) (texts : List Text) : Decidable (text ∈ texts) :=
  inferInstance

/-- The character of a byte. -/
def latin1Char (byte : UInt8) : Char := Char.ofNat byte.toNat

/-- `bytes.decode("iso-8859-1")`. -/
def decodeLatin1 (bytes : Bytes) : Text := bytes.map latin1Char

/-- `str.isascii`. -/
def isAscii (text : Text) : Bool := text.all fun character => character.toNat < 128

/-- `bytes.decode("ascii")`, or nothing where it raises `UnicodeDecodeError`. -/
def decodeAscii (bytes : Bytes) : Option Text :=
  if bytes.all fun byte => byte.toNat < 128 then some (decodeLatin1 bytes) else none

/-- The bytes of an ASCII text. -/
def asciiBytes (text : Text) : Bytes := text.map fun character => UInt8.ofNat character.toNat

/-- The bytes of a Latin-1 text. -/
def latin1Bytes (text : Text) : Bytes := text.map fun character => UInt8.ofNat character.toNat

/-- `str.encode("ascii")`, or nothing where it raises `UnicodeEncodeError`. -/
def encodeAscii (text : Text) : Option Bytes :=
  if isAscii text then some (asciiBytes text) else none

/-- `str.encode("utf8")` of a text without surrogates. -/
def encodeUtf8 (text : Text) : Bytes := text.flatMap String.utf8EncodeChar

/-- The sharp s in Latin-1. -/
abbrev sharpS : UInt8 := 0xDF

/-- `str.casefold` of one Latin-1 character. -/
def casefoldChar (character : Char) : Text :=
  if 65 ≤ character.toNat ∧ character.toNat ≤ 90 then [Char.ofNat (character.toNat + 32)]
  else if character.toNat = 0xB5 then [Char.ofNat 0x3BC]
  else if 0xC0 ≤ character.toNat ∧ character.toNat ≤ 0xDE ∧ character.toNat ≠ 0xD7 then
    [Char.ofNat (character.toNat + 32)]
  else if character.toNat = 0xDF then ['s', 's']
  else [character]

/-- `str.casefold` of a Latin-1 text. -/
def casefold (text : Text) : Text := text.flatMap casefoldChar

/-- A space or a tab. -/
def isBlank (character : Char) : Bool := character = ' ' || character = '\t'

/-- `str.strip(" \t")`. -/
def stripBlanks (text : Text) : Text := (text.dropWhile isBlank).rdropWhile isBlank

/-! ## Characters and bytes -/

theorem charOfNat_toNat {number : Nat} (small : number < 0xD800) :
    (Char.ofNat number).toNat = number := by
  have valid : number.isValidChar := .inl small
  rw [Char.ofNat, dif_pos valid]
  rfl

@[simp] theorem latin1Char_toNat (byte : UInt8) : (latin1Char byte).toNat = byte.toNat := by
  have small := byte.toNat_lt
  exact charOfNat_toNat (by omega)

theorem latin1Char_injective : Function.Injective latin1Char := by
  intro one other same
  have numbers := congrArg Char.toNat same
  rwa [latin1Char_toNat, latin1Char_toNat, UInt8.toNat_inj] at numbers

theorem decodeLatin1_injective : Function.Injective decodeLatin1 :=
  List.map_injective_iff.mpr latin1Char_injective

/-- What holds of the 128 ASCII characters holds of every one. -/
theorem forall_ascii (property : Char → Prop)
    (checked : ∀ number < 128, property (Char.ofNat number)) {character : Char}
    (small : character.toNat < 128) : property character := by
  have here := checked character.toNat small
  rwa [Char.ofNat_toNat] at here

/-- Latin-1 text is read back from its bytes. -/
theorem decodeLatin1_latin1Bytes {text : Text}
    (small : ∀ character ∈ text, character.toNat < 256) :
    decodeLatin1 (latin1Bytes text) = text := by
  rw [decodeLatin1, latin1Bytes, List.map_map]
  conv_rhs => rw [← List.map_id text]
  apply List.map_congr_left
  intro character member
  have kept : (UInt8.ofNat character.toNat).toNat = character.toNat :=
    UInt8.toNat_ofNat_of_lt' (small character member)
  rw [Function.comp_apply, latin1Char, kept, Char.ofNat_toNat, id_eq]

/-- Bytes are the bytes of their Latin-1 text. -/
theorem latin1Bytes_decodeLatin1 (bytes : Bytes) : latin1Bytes (decodeLatin1 bytes) = bytes := by
  rw [latin1Bytes, decodeLatin1, List.map_map]
  conv_rhs => rw [← List.map_id bytes]
  apply List.map_congr_left
  intro byte _
  rw [Function.comp_apply, latin1Char_toNat, UInt8.ofNat_toNat, id_eq]

/-- ASCII text is read back from its bytes. -/
theorem decodeLatin1_asciiBytes {text : Text} (small : ∀ character ∈ text, character.toNat < 128) :
    decodeLatin1 (asciiBytes text) = text :=
  decodeLatin1_latin1Bytes fun character member => (small character member).trans (by omega)

/-- What is decoded as ASCII is ASCII. -/
theorem decodeAscii_eq_some {bytes : Bytes} {text : Text} (decoded : decodeAscii bytes = some text) :
    decodeLatin1 bytes = text ∧ ∀ character ∈ text, character.toNat < 128 := by
  unfold decodeAscii at decoded
  split at decoded
  · rename_i small
    obtain rfl := Option.some.inj decoded
    refine ⟨rfl, fun character member => ?_⟩
    obtain ⟨byte, inside, rfl⟩ := List.mem_map.mp member
    rw [latin1Char_toNat]
    exact of_decide_eq_true (List.all_eq_true.mp small byte inside)
  · cases decoded

/-- Bytes are folded one by one. -/
theorem casefold_decodeLatin1 (bytes : Bytes) :
    casefold (decodeLatin1 bytes) = bytes.flatMap fun byte => casefoldChar (latin1Char byte) := by
  rw [casefold, decodeLatin1, List.flatMap_map]

/-- Folding the case of ASCII text is lower case. -/
theorem casefold_of_small {text : Text} (small : ∀ character ∈ text, character.toNat < 128) :
    casefold text = text.map Char.toLower := by
  rw [casefold, List.map_eq_flatMap]
  apply List.flatMap_congr
  intro character member
  exact forall_ascii (fun character => casefoldChar character = [character.toLower])
    (by decide +kernel) (small character member)

theorem stripBlanks_of_solid {text : Text} (solid : ∀ character ∈ text, isBlank character = false) :
    stripBlanks text = text :=
  strip_of_solid solid

theorem stripBlanks_cons_space (text : Text) : stripBlanks (' ' :: text) = stripBlanks text := by
  rw [stripBlanks, List.dropWhile_cons_of_pos (by decide), stripBlanks]

/-! ## UTF-8 -/

theorem utf8EncodeChar_of_small {character : Char} (small : character.toNat < 128) :
    String.utf8EncodeChar character = [UInt8.ofNat character.toNat] := by
  have value : character.val.toNat ≤ 0x7f := Nat.le_of_lt_succ small
  rw [String.utf8EncodeChar]
  exact if_pos value

/-- Outside ASCII, every byte of a character is outside ASCII. -/
theorem large_of_mem_utf8EncodeChar {character : Char} (large : 128 ≤ character.toNat)
    {byte : UInt8} (member : byte ∈ String.utf8EncodeChar character) : 128 ≤ byte.toNat := by
  have value : ¬ character.val.toNat ≤ 0x7f := Nat.not_le_of_lt large
  simp only [String.utf8EncodeChar, if_neg value] at member
  split at member
  · simp only [List.mem_cons, List.not_mem_nil, or_false] at member
    rcases member with rfl | rfl <;> simp only [UInt8.toNat_ofNat'] <;> omega
  · split at member
    · simp only [List.mem_cons, List.not_mem_nil, or_false] at member
      rcases member with rfl | rfl | rfl <;> simp only [UInt8.toNat_ofNat'] <;> omega
    · simp only [List.mem_cons, List.not_mem_nil, or_false] at member
      rcases member with rfl | rfl | rfl | rfl <;> simp only [UInt8.toNat_ofNat'] <;> omega

@[simp] theorem encodeUtf8_append (front back : Text) :
    encodeUtf8 (front ++ back) = encodeUtf8 front ++ encodeUtf8 back :=
  List.flatMap_append

/-- ASCII text is its own encoding. -/
theorem encodeUtf8_of_small {text : Text} (small : ∀ character ∈ text, character.toNat < 128) :
    encodeUtf8 text = asciiBytes text := by
  rw [encodeUtf8, asciiBytes, List.map_eq_flatMap]
  apply List.flatMap_congr
  intro character member
  exact utf8EncodeChar_of_small (small character member)

/-- Only ASCII text has an encoding in ASCII. -/
theorem small_of_encodeUtf8 {text : Text} (small : ∀ byte ∈ encodeUtf8 text, byte.toNat < 128) :
    ∀ character ∈ text, character.toNat < 128 := by
  intro character member
  by_contra large
  obtain ⟨byte, inside⟩ := List.exists_mem_of_ne_nil _ (@String.utf8EncodeChar_ne_nil character)
  have outside := large_of_mem_utf8EncodeChar (not_lt.mp large) inside
  exact absurd (small byte (List.mem_flatMap.mpr ⟨character, member, inside⟩)) (not_lt.mpr outside)

/-- An encoding that is the bytes of ASCII text is the encoding of that text only. -/
theorem eq_of_encodeUtf8 {text other : Text} (small : ∀ character ∈ other, character.toNat < 128)
    (same : encodeUtf8 text = latin1Bytes other) : text = other := by
  have smallBytes : ∀ byte ∈ encodeUtf8 text, byte.toNat < 128 := by
    intro byte member
    rw [same] at member
    obtain ⟨character, inOther, rfl⟩ := List.mem_map.mp member
    have isSmall := small character inOther
    rwa [UInt8.toNat_ofNat_of_lt' (isSmall.trans (by decide))]
  have smallText := small_of_encodeUtf8 smallBytes
  rw [encodeUtf8_of_small smallText] at same
  rw [← decodeLatin1_asciiBytes smallText, same]
  exact decodeLatin1_asciiBytes small

/-- An ASCII byte of an encoding is a character of its own. The induction is on the text: the byte
is the first character, or the first character is encoded before it. -/
theorem encodeUtf8_eq_append_cons {text : Text} {before after : Bytes} {byte : UInt8}
    (small : byte.toNat < 128) (encoded : encodeUtf8 text = before ++ byte :: after) :
    ∃ front back, text = front ++ latin1Char byte :: back ∧ encodeUtf8 front = before ∧
      encodeUtf8 back = after := by
  induction text generalizing before with
  | nil => simp [encodeUtf8] at encoded
  | cons character text ih =>
      have later : ∀ middle, before = String.utf8EncodeChar character ++ middle →
          encodeUtf8 text = middle ++ byte :: after →
          ∃ front back, character :: text = front ++ latin1Char byte :: back ∧
            encodeUtf8 front = before ∧ encodeUtf8 back = after := by
        rintro middle rfl rest
        obtain ⟨front, back, rfl, rfl, rfl⟩ := ih rest
        exact ⟨character :: front, back, rfl, List.flatMap_cons, rfl⟩
      rw [encodeUtf8, List.flatMap_cons] at encoded
      rcases List.append_eq_append_iff.mp encoded with ⟨middle, split, rest⟩ | ⟨middle, split, rest⟩
      · exact later middle split rest
      · cases middle with
        | nil => exact later [] (by simpa using split.symm) rest.symm
        | cons first middle =>
            obtain ⟨rfl, rfl⟩ := List.cons.inj rest
            have isAscii : character.toNat < 128 := by
              by_contra large
              have member : byte ∈ String.utf8EncodeChar character := by simp [split]
              have outside := large_of_mem_utf8EncodeChar (not_lt.mp large) member
              omega
            rw [utf8EncodeChar_of_small isAscii] at split
            have alone : before = [] ∧ byte = UInt8.ofNat character.toNat ∧ middle = [] := by
              cases before with
              | nil => simpa [eq_comm] using split
              | cons other before => simp at split
            obtain ⟨rfl, rfl, rfl⟩ := alone
            have kept : latin1Char (UInt8.ofNat character.toNat) = character := by
              rw [latin1Char, UInt8.toNat_ofNat_of_lt' (isAscii.trans (by decide)), Char.ofNat_toNat]
            exact ⟨[], text, by rw [kept]; rfl, rfl, rfl⟩

/-- Two ASCII bytes that are neighbours in an encoding are neighbours in the text. -/
theorem pair_infix_encodeUtf8_iff {text : Text} {one two : UInt8} (small : one.toNat < 128)
    (smallToo : two.toNat < 128) :
    [one, two] <:+: encodeUtf8 text ↔ [latin1Char one, latin1Char two] <:+: text := by
  have encodes : ∀ byte : UInt8, byte.toNat < 128 → encodeUtf8 [latin1Char byte] = [byte] := by
    intro byte isSmall
    rw [encodeUtf8_of_small (by simpa using isSmall)]
    simp [asciiBytes]
  constructor
  · rintro ⟨before, after, inside⟩
    have first : encodeUtf8 text = before ++ one :: two :: after := by
      rw [← inside, List.append_assoc]
      rfl
    obtain ⟨front, rest, rfl, -, second⟩ := encodeUtf8_eq_append_cons small first
    obtain ⟨middle, back, rfl, empty, -⟩ :=
      @encodeUtf8_eq_append_cons rest [] after two smallToo second
    have nothing : middle = [] := by
      cases middle with
      | nil => rfl
      | cons character middle => simp [encodeUtf8] at empty
    rw [nothing]
    exact ⟨front, back, by simp⟩
  · rintro ⟨front, back, rfl⟩
    have pair : encodeUtf8 [latin1Char one, latin1Char two] = [one, two] :=
      (encodeUtf8_append [latin1Char one] [latin1Char two]).trans
        (by rw [encodes one small, encodes two smallToo]; rfl)
    rw [encodeUtf8_append, encodeUtf8_append, pair]
    exact ⟨encodeUtf8 front, encodeUtf8 back, rfl⟩

end InfraFromScratch.Foundations
