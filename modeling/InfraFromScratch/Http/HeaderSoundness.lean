import InfraFromScratch.Foundations.GoText
import InfraFromScratch.Foundations.Words
import InfraFromScratch.Http.Responses

/-!
# The raw names behind accepted headers

`parse_headers` and the loop of `_read_response` fold the case of a name before they check
that it is a token. What is checked is therefore not what was received. Of the 256 Latin-1
characters all but one fold to one character, and to a token character only when they are
token characters themselves. The sharp s folds to two letters s.

So a line is accepted exactly when it is sound with every sharp s of its name spelled out
(`parseHeader_eq_ok_iff`), and the accepted blocks are the sound ones exactly when no name
of an otherwise sound block has a sharp s (`headers_sound_iff`).
-/

set_option autoImplicit false

namespace InfraFromScratch.Http

open Foundations

/-! ## Sound fields -/

/-- A byte of a token: an ASCII letter, digit or one of the symbols. -/
def tokenByte (byte : UInt8) : Bool :=
  (48 ≤ byte && byte ≤ 57) || (65 ≤ byte && byte ≤ 90) || (97 ≤ byte && byte ≤ 122) ||
    byte ∈ ascii "!#$%&'*+-.^_`|~"

/-- A control character other than tab. -/
def controlByte (byte : UInt8) : Bool := (byte < 32 && byte != 9) || byte == 127

/-- The name and the value of a header line, as they were received. -/
abbrev RawField := Bytes × Bytes

/-- The bytes of a header line with this name and value. -/
def fieldBytes (field : RawField) : Bytes := field.1 ++ ascii ":" ++ field.2

/-- The name is one or more token characters, and the value has no control characters other
than tab. -/
structure SoundField (field : RawField) : Prop where
  nonempty : field.1 ≠ []
  token : ∀ byte ∈ field.1, tokenByte byte = true
  value : ∀ byte ∈ field.2, controlByte byte = false

/-- A name up to ASCII case. -/
def lowerName (field : RawField) : Bytes := field.1.map asciiLower

/-! ## The sharp s -/

/-- A byte of a name as its folded case has it. -/
def spellByte (byte : UInt8) : Bytes := if byte = sharpS then ascii "ss" else [byte]

/-- A name with every sharp s spelled out. -/
def spellName (name : Bytes) : Bytes := name.flatMap spellByte

/-- The field with its name spelled out. -/
def spell (field : RawField) : RawField := (spellName field.1, field.2)

theorem spell_of_plain {field : RawField} (plain : sharpS ∉ field.1) : spell field = field := by
  have same : field.1.flatMap spellByte = field.1.flatMap fun byte => [byte] := by
    apply List.flatMap_congr
    intro byte member
    rw [spellByte, if_neg]
    rintro rfl
    exact plain member
  rw [spell, spellName, same, List.flatMap_singleton']

theorem SoundField.plain {field : RawField} (sound : SoundField field) : sharpS ∉ field.1 := by
  intro member
  exact absurd (sound.token sharpS member) (by decide)

theorem SoundField.spell_eq {field : RawField} (sound : SoundField field) :
    spell field = field :=
  spell_of_plain sound.plain

/-- What a byte folds to is made of token characters when the byte, spelled out, is. -/
theorem casefold_tokens (byte : UInt8) :
    (casefoldChar (latin1Char byte)).all
        (fun character => character.toNat < 128 && isTokenChar character) =
      (spellByte byte).all tokenByte := by
  revert byte
  exact forall_byte (by decide +kernel)

/-- A byte of a token, spelled out, folds to its small letters. -/
theorem casefold_spelled (byte : UInt8) (token : (spellByte byte).all tokenByte = true) :
    casefoldChar (latin1Char byte) = decodeLatin1 ((spellByte byte).map asciiLower) := by
  revert byte
  exact forall_byte (by decide +kernel)

theorem spellByte_ne_nil (byte : UInt8) : spellByte byte ≠ [] := by
  unfold spellByte
  split
  · decide
  · exact List.cons_ne_nil _ _

theorem casefoldChar_ne_nil (character : Char) : casefoldChar character ≠ [] := by
  unfold casefoldChar
  split_ifs <;> exact List.cons_ne_nil _ _

/-- Mapping every element to a nonempty list keeps a list nonempty. -/
theorem flatMap_eq_nil_iff_of_nonempty {One Other : Type*} {pieces : One → List Other}
    (nonempty : ∀ element, pieces element ≠ []) {elements : List One} :
    elements.flatMap pieces = [] ↔ elements = [] := by
  rw [List.flatMap_eq_nil_iff]
  constructor
  · intro empty
    exact List.eq_nil_iff_forall_not_mem.mpr fun element member =>
      nonempty element (empty element member)
  · rintro rfl element member
    cases member

/-- **A folded name is a token** exactly when the name, spelled out, is one. -/
theorem isToken_casefold_iff (name : Bytes) :
    isToken (casefold (decodeLatin1 name)) = true ↔
      spellName name ≠ [] ∧ ∀ byte ∈ spellName name, tokenByte byte = true := by
  have split : ∀ text : Text, isToken text = true ↔
      text ≠ [] ∧
        text.all (fun character => character.toNat < 128 && isTokenChar character) = true := by
    intro text
    simp only [isToken, isAscii, Bool.and_eq_true, decide_eq_true_eq, List.all_eq_true]
    exact ⟨fun facts => ⟨facts.1.1, fun character member =>
        ⟨facts.1.2 character member, facts.2 character member⟩⟩,
      fun facts => ⟨⟨facts.1, fun character member => (facts.2 character member).1⟩,
        fun character member => (facts.2 character member).2⟩⟩
  rw [split, casefold_decodeLatin1, List.all_flatMap, ← List.all_eq_true, spellName,
    List.all_flatMap, ne_eq,
    flatMap_eq_nil_iff_of_nonempty fun byte => casefoldChar_ne_nil (latin1Char byte), ne_eq,
    flatMap_eq_nil_iff_of_nonempty spellByte_ne_nil]
  simp only [casefold_tokens]

/-- A token folds to its small letters, spelled out. -/
theorem casefold_of_spelled {name : Bytes}
    (token : ∀ byte ∈ spellName name, tokenByte byte = true) :
    casefold (decodeLatin1 name) = decodeLatin1 ((spellName name).map asciiLower) := by
  rw [casefold_decodeLatin1, spellName, List.map_flatMap, decodeLatin1, List.map_flatMap]
  apply List.flatMap_congr
  intro byte member
  refine casefold_spelled byte (List.all_eq_true.mpr fun spelled inside => ?_)
  exact token spelled (List.mem_flatMap.mpr ⟨byte, member, inside⟩)

theorem any_isControl_iff (value : Bytes) :
    (decodeLatin1 value).any isControl = false ↔ ∀ byte ∈ value, controlByte byte = false := by
  have each : ∀ byte : UInt8, isControl (latin1Char byte) = controlByte byte :=
    forall_byte (by decide +kernel)
  rw [List.any_eq_false, decodeLatin1]
  simp only [List.mem_map, forall_exists_index, and_imp, forall_apply_eq_imp_iff₂, each,
    Bool.not_eq_true]

/-- A byte that is no token character is not in a name that is one when spelled out. -/
theorem SoundField.notMem_name {field : RawField} (sound : SoundField (spell field))
    {byte : UInt8} (noToken : (spellByte byte).all tokenByte = false) : byte ∉ field.1 := by
  intro member
  have token : (spellByte byte).all tokenByte = true := by
    refine List.all_eq_true.mpr fun spelled inside => ?_
    exact sound.token spelled (List.mem_flatMap.mpr ⟨byte, member, inside⟩)
  rw [token] at noToken
  cases noToken

/-- Nor is a control character in the line of such a field. -/
theorem SoundField.notMem_fieldBytes {field : RawField} (sound : SoundField (spell field))
    {byte : UInt8} (noToken : (spellByte byte).all tokenByte = false) (noColon : byte ≠ 58)
    (control : controlByte byte = true) : byte ∉ fieldBytes field := by
  simp only [fieldBytes, List.mem_append, not_or]
  refine ⟨⟨sound.notMem_name noToken, ?_⟩, fun member => ?_⟩
  · exact fun isColon => noColon (List.mem_singleton.mp isColon)
  · rw [sound.value byte member] at control
    cases control

/-! ## Accepted lines -/

/-- The key under which a field is stored. -/
def fieldKey (field : RawField) : Text := decodeLatin1 (lowerName (spell field))

/-- The first colon of a line ends the name. -/
theorem cutAt_decodeLatin1_iff {line : Bytes} {name value : Text} :
    cutAt ':' (decodeLatin1 line) = some (name, value) ↔
      ∃ field : RawField, line = fieldBytes field ∧ 58 ∉ field.1 ∧
        decodeLatin1 field.1 = name ∧ decodeLatin1 field.2 = value := by
  have cut : cutAt ':' (decodeLatin1 line) =
      (cutAt 58 line).map fun parts => (decodeLatin1 parts.1, decodeLatin1 parts.2) :=
    cutAt_map latin1Char_injective 58 line
  rw [cut, Option.map_eq_some_iff]
  constructor
  · rintro ⟨field, found, same⟩
    obtain ⟨rfl, clean⟩ := cutAt_eq_some_iff.mp found
    obtain ⟨sameName, sameValue⟩ := Prod.mk.inj same
    exact ⟨field, by simp [fieldBytes, ascii], clean, sameName, sameValue⟩
  · rintro ⟨field, rfl, clean, rfl, rfl⟩
    refine ⟨field, cutAt_eq_some_iff.mpr ⟨?_, clean⟩, rfl⟩
    simp [fieldBytes, ascii]

/-- **The checks that both parsers make of a line**: they pass exactly when the line is a
field that is sound when spelled out. -/
theorem checks_iff {line : Bytes} {name value : Text} :
    (cutAt ':' (decodeLatin1 line) = some (name, value) ∧ isToken (casefold name) = true ∧
        value.any isControl = false) ↔
      ∃ field, line = fieldBytes field ∧ SoundField (spell field) ∧
        decodeLatin1 field.1 = name ∧ decodeLatin1 field.2 = value := by
  rw [cutAt_decodeLatin1_iff]
  constructor
  · rintro ⟨⟨field, rfl, -, rfl, rfl⟩, token, free⟩
    obtain ⟨nonempty, tokens⟩ := (isToken_casefold_iff field.1).mp token
    exact ⟨field, rfl, ⟨nonempty, tokens, (any_isControl_iff field.2).mp free⟩, rfl, rfl⟩
  · rintro ⟨field, rfl, sound, rfl, rfl⟩
    exact ⟨⟨field, rfl, sound.notMem_name (by decide), rfl, rfl⟩,
      (isToken_casefold_iff field.1).mpr ⟨sound.nonempty, sound.token⟩,
      (any_isControl_iff field.2).mpr sound.value⟩

theorem SoundField.casefold_eq {field : RawField} (sound : SoundField (spell field)) :
    casefold (decodeLatin1 field.1) = fieldKey field :=
  casefold_of_spelled sound.token

/-- A line that the server accepts. -/
theorem Server.parseHeader_eq_ok_iff {headers result : Headers} {line : Bytes} :
    Server.parseHeader headers line = .ok result ↔
      ∃ field, line = fieldBytes field ∧ SoundField (spell field) ∧
        fieldKey field ∉ headers.names ∧
        result = headers ++ [(fieldKey field, stripBlanks (decodeLatin1 field.2))] := by
  unfold Server.parseHeader
  constructor
  · intro accepted
    split at accepted
    · cases accepted
    · rename_i name value found
      split at accepted
      · cases accepted
      · rename_i wellNamed
        split at accepted
        · cases accepted
        · rename_i free
          obtain ⟨token, fresh⟩ := not_or.mp wellNamed
          obtain ⟨field, here, sound, rfl, rfl⟩ :=
            checks_iff.mp ⟨found, not_not.mp token, Bool.not_eq_true _ ▸ free⟩
          rw [sound.casefold_eq] at fresh accepted
          exact ⟨field, here, sound, fresh, (Except.ok.inj accepted).symm⟩
  · rintro ⟨field, rfl, sound, fresh, rfl⟩
    obtain ⟨found, token, free⟩ := checks_iff.mpr ⟨field, rfl, sound, rfl, rfl⟩
    rw [found]
    dsimp only
    rw [sound.casefold_eq] at token ⊢
    rw [if_neg (by simp [token, fresh]), free, if_neg (by decide)]

/-- A line that the client accepts. -/
theorem Client.parseHeaderLine_eq_ok_iff {headers result : Headers} {line : Bytes} :
    Client.parseHeaderLine headers (decodeLatin1 line) = .ok result ↔
      ∃ field, line = fieldBytes field ∧ SoundField (spell field) ∧
        result = Client.setItem headers (fieldKey field) (stripBlanks (decodeLatin1 field.2)) := by
  unfold Client.parseHeaderLine
  constructor
  · intro accepted
    split at accepted
    · cases accepted
    · rename_i name value found
      split at accepted
      · cases accepted
      · rename_i token
        split at accepted
        · cases accepted
        · rename_i free
          obtain ⟨field, here, sound, rfl, rfl⟩ :=
            checks_iff.mp ⟨found, not_not.mp token, Bool.not_eq_true _ ▸ free⟩
          rw [sound.casefold_eq] at accepted
          exact ⟨field, here, sound, (Except.ok.inj accepted).symm⟩
  · rintro ⟨field, rfl, sound, rfl⟩
    obtain ⟨found, token, free⟩ := checks_iff.mpr ⟨field, rfl, sound, rfl, rfl⟩
    rw [found]
    dsimp only
    rw [sound.casefold_eq] at token ⊢
    rw [if_neg (by simp [token]), free, if_neg (by decide)]

/-! ## Lists of fields -/

/-- Every field is sound, and no two names are equal up to case. -/
structure SoundFields (fields : List RawField) : Prop where
  each : ∀ field ∈ fields, SoundField field
  distinct : fields.Pairwise fun one other => lowerName one ≠ lowerName other

theorem map_spell_of_plain {fields : List RawField} (plain : ∀ field ∈ fields, sharpS ∉ field.1) :
    fields.map spell = fields := by
  conv_rhs => rw [← List.map_id fields]
  exact List.map_congr_left fun field member => spell_of_plain (plain field member)

/-- A line is the line of one field only. -/
theorem SoundField.eq_of_fieldBytes {one other : RawField} (sound : SoundField (spell one))
    (otherSound : SoundField (spell other)) (same : fieldBytes one = fieldBytes other) :
    one = other := by
  rw [fieldBytes, fieldBytes, List.append_assoc, List.append_assoc] at same
  obtain ⟨names, values⟩ := append_delimiter_inj (sound.notMem_name (by decide))
    (otherSound.notMem_name (by decide)) same
  exact Prod.ext names values

theorem fields_eq_of_lines {fields others : List RawField}
    (sound : ∀ field ∈ fields, SoundField (spell field))
    (othersSound : ∀ field ∈ others, SoundField (spell field))
    (same : fields.map fieldBytes = others.map fieldBytes) : fields = others := by
  induction fields generalizing others with
  | nil => exact (List.map_eq_nil_iff.mp same.symm).symm
  | cons field fields ih =>
      obtain ⟨other, rest, rfl, sameField, sameRest⟩ := List.map_eq_cons_iff.mp same.symm
      rw [sound field List.mem_cons_self |>.eq_of_fieldBytes
        (othersSound other List.mem_cons_self) sameField.symm]
      rw [ih (fun later member => sound later (List.mem_cons_of_mem _ member))
        (fun later member => othersSound later (List.mem_cons_of_mem _ member)) sameRest.symm]

theorem fieldKey_eq_iff {one other : RawField} :
    fieldKey one = fieldKey other ↔ lowerName (spell one) = lowerName (spell other) :=
  decodeLatin1_injective.eq_iff

/-! ## The server's blocks -/

namespace Server

/-- The lines over which `parse_headers` loops. -/
def blockLines (block : Bytes) : List Bytes :=
  if block = [] then [] else splitAround [cr, lf] block

/-- The loop accepts lines that are sound fields when spelled out, with new names. -/
theorem foldlM_parseHeader_ok_iff {lines : List Bytes} {headers : Headers} :
    (∃ result, lines.foldlM parseHeader headers = .ok result) ↔
      ∃ fields : List RawField, lines = fields.map fieldBytes ∧
        SoundFields (fields.map spell) ∧ ∀ field ∈ fields, fieldKey field ∉ headers.names := by
  induction lines generalizing headers with
  | nil =>
      refine iff_of_true ⟨headers, rfl⟩ ⟨[], rfl, ⟨?_, ?_⟩, ?_⟩
      · simp
      · simp
      · simp
  | cons line lines ih =>
      rw [List.foldlM_cons]
      constructor
      · rintro ⟨result, accepted⟩
        cases first : parseHeader headers line with
        | error text =>
            rw [first] at accepted
            cases accepted
        | ok next =>
            rw [first] at accepted
            obtain ⟨field, rfl, sound, fresh, rfl⟩ := parseHeader_eq_ok_iff.mp first
            obtain ⟨fields, rfl, ⟨each, distinct⟩, keys⟩ := ih.mp ⟨result, accepted⟩
            simp only [Headers.names, List.map_append, List.map_cons, List.map_nil, List.mem_append,
              List.mem_singleton, not_or] at keys
            refine ⟨field :: fields, rfl, ⟨?_, ?_⟩, ?_⟩
            · rw [List.map_cons]
              exact List.forall_mem_cons.mpr ⟨sound, each⟩
            · rw [List.map_cons, List.pairwise_cons]
              refine ⟨fun spelled member => ?_, distinct⟩
              obtain ⟨other, isOther, rfl⟩ := List.mem_map.mp member
              exact fun same => (keys other isOther).2 (fieldKey_eq_iff.mpr same.symm)
            · exact List.forall_mem_cons.mpr ⟨fresh, fun other member => (keys other member).1⟩
      · rintro ⟨fields, split, sound, keys⟩
        obtain ⟨field, rest, rfl, rfl, rfl⟩ := List.map_eq_cons_iff.mp split.symm
        rw [List.map_cons] at sound
        obtain ⟨each, distinct⟩ := sound
        obtain ⟨soundField, soundRest⟩ := List.forall_mem_cons.mp each
        obtain ⟨differs, distinctRest⟩ := List.pairwise_cons.mp distinct
        obtain ⟨fresh, freshRest⟩ := List.forall_mem_cons.mp keys
        have first := parseHeader_eq_ok_iff.mpr ⟨field, rfl, soundField, fresh, rfl⟩
        rw [first]
        refine ih.mpr ⟨rest, rfl, ⟨soundRest, distinctRest⟩, fun other member => ?_⟩
        simp only [Headers.names, List.map_append, List.map_cons, List.map_nil, List.mem_append,
          List.mem_singleton, not_or]
        refine ⟨freshRest other member, fun same => ?_⟩
        exact differs (spell other) (List.mem_map_of_mem member) (fieldKey_eq_iff.mp same.symm)

/-- The lines of the block are sound fields with different names. -/
def SoundBlock (block : Bytes) : Prop :=
  ∃ fields : List RawField, blockLines block = fields.map fieldBytes ∧ SoundFields fields

/-- The lines of the block are sound fields with different names once every sharp s of a
name is spelled out, and some name has one. -/
def SharpBlock (block : Bytes) : Prop :=
  ∃ fields : List RawField, blockLines block = fields.map fieldBytes ∧
    SoundFields (fields.map spell) ∧ ∃ field ∈ fields, sharpS ∈ field.1

/-- **The blocks that are accepted.** -/
theorem parseHeaders_ok_iff (block : Bytes) :
    (∃ headers, parseHeaders block = .ok headers) ↔
      ∃ fields : List RawField, blockLines block = fields.map fieldBytes ∧
        SoundFields (fields.map spell) := by
  refine foldlM_parseHeader_ok_iff.trans (exists_congr fun fields => ?_)
  simp [Headers.names, blockLines]

/-- A block with a sharp s in a name is accepted, and is not sound. -/
theorem SharpBlock.accepted {block : Bytes} (sharp : SharpBlock block) :
    (∃ headers, parseHeaders block = .ok headers) ∧ ¬ SoundBlock block := by
  obtain ⟨fields, lines, spelled, field, member, sharpName⟩ := sharp
  refine ⟨(parseHeaders_ok_iff block).mpr ⟨fields, lines, spelled⟩, ?_⟩
  rintro ⟨others, otherLines, sound⟩
  have same : fields = others := by
    refine fields_eq_of_lines (fun each inside => ?_) (fun each inside => ?_)
      (lines.symm.trans otherLines)
    · exact spelled.each _ (List.mem_map_of_mem inside)
    · rw [(sound.each each inside).spell_eq]
      exact sound.each each inside
  subst same
  exact (sound.each field member).plain sharpName

/-- The accepted blocks are the sound ones, except where a sharp s was spelled out. -/
theorem acceptsSound_iff (block : Bytes) :
    ((∃ headers, parseHeaders block = .ok headers) ↔ SoundBlock block) ↔ ¬ SharpBlock block := by
  constructor
  · intro alike sharp
    exact sharp.accepted.2 (alike.mp sharp.accepted.1)
  · intro notSharp
    rw [parseHeaders_ok_iff]
    constructor
    · rintro ⟨fields, lines, spelled⟩
      have plain : ∀ field ∈ fields, sharpS ∉ field.1 :=
        fun field member sharpName => notSharp ⟨fields, lines, spelled, field, member, sharpName⟩
      rw [map_spell_of_plain plain] at spelled
      exact ⟨fields, lines, spelled⟩
    · rintro ⟨fields, lines, sound⟩
      have plain : ∀ field ∈ fields, sharpS ∉ field.1 :=
        fun field member => (sound.each field member).plain
      exact ⟨fields, lines, by rwa [map_spell_of_plain plain]⟩

end Server

/-! ## The client's responses -/

namespace Client

/-- The header lines of a response, the empty line and the body. -/
def fieldSection (fields : List RawField) (body : Bytes) : Bytes :=
  (fields.map fun field => fieldBytes field ++ [cr, lf]).flatten ++ ([cr, lf] ++ body)

theorem fieldSection_cons (field : RawField) (fields : List RawField) (body : Bytes) :
    fieldSection (field :: fields) body =
      fieldBytes field ++ [cr, lf] ++ fieldSection fields body := by
  simp [fieldSection]

/-- What the client's `dict` holds after some fields. -/
def storeFields (headers : Headers) (fields : List RawField) : Headers :=
  fields.foldl
    (fun items field => setItem items (fieldKey field) (stripBlanks (decodeLatin1 field.2))) headers

theorem fieldBytes_ne_nil (field : RawField) : fieldBytes field ≠ [] := by
  simp [fieldBytes, ascii]

/-- A line and the rest are the stream. -/
theorem readLine_append (stream : Bytes) : (readLine stream).1 ++ (readLine stream).2 = stream := by
  unfold readLine
  cases found : cutAt lf stream with
  | none => exact List.append_nil stream
  | some parts =>
      obtain ⟨rfl, -⟩ := cutAt_eq_some_iff.mp found
      simp

/-- A line that is decoded ends in a carriage return and its newline. -/
theorem decodeLine_eq_ok {stream : Bytes} {text : Text}
    (decoded : decodeLine (readLine stream).1 = .ok text) :
    ∃ line, (readLine stream).1 = line ++ [cr, lf] ∧ lf ∉ line ∧ text = decodeLatin1 line := by
  unfold decodeLine at decoded
  split at decoded
  · rename_i ends
    obtain ⟨line, whole⟩ := ends
    rw [← whole] at decoded
    have size : (line ++ [cr, lf]).length - 2 = line.length := by simp
    rw [size, List.take_left] at decoded
    refine ⟨line, whole.symm, ?_, (Except.ok.inj decoded).symm⟩
    intro member
    -- The newline that ends the line is the first one of the stream.
    unfold readLine at whole
    cases found : cutAt lf stream with
    | none =>
        simp only [found] at whole
        have clean := cutAt_eq_none_iff.mp found
        rw [← whole] at clean
        exact clean (List.mem_append_left _ member)
    | some parts =>
        simp only [found] at whole
        obtain ⟨-, clean⟩ := cutAt_eq_some_iff.mp found
        have front : line ++ [cr] = parts.1 := by
          rw [← List.append_left_inj [lf], List.append_assoc]
          exact whole
        rw [← front] at clean
        exact clean (List.mem_append_left _ member)
  · cases decoded

/-- **The header lines that the client accepts.** -/
theorem readHeaders_eq_ok_iff {headers result : Headers} {stream body : Bytes} :
    readHeaders headers stream = .ok (result, body) ↔
      ∃ fields : List RawField, stream = fieldSection fields body ∧
        (∀ field ∈ fields, SoundField (spell field)) ∧ result = storeFields headers fields := by
  constructor
  · intro accepted
    induction length : stream.length using Nat.strongRecOn generalizing stream headers with
    | ind size ih =>
        rw [readHeaders] at accepted
        split at accepted
        · cases accepted
        · rename_i more
          split at accepted
          · rename_i ends
            obtain ⟨rfl, rfl⟩ := Prod.mk.inj (Except.ok.inj accepted)
            refine ⟨[], ?_, by simp, rfl⟩
            conv_lhs => rw [← readLine_append stream, ends]
            rfl
          · split at accepted
            · cases accepted
            · rename_i text decoded
              split at accepted
              · cases accepted
              · rename_i next parsed
                obtain ⟨line, whole, -, rfl⟩ := decodeLine_eq_ok decoded
                obtain ⟨field, rfl, sound, rfl⟩ := parseHeaderLine_eq_ok_iff.mp parsed
                have shorter : (readLine stream).2.length < size := by
                  rw [← length]
                  exact readLine_length_lt more
                obtain ⟨fields, rest, each, stored⟩ := ih _ shorter accepted rfl
                refine ⟨field :: fields, ?_, List.forall_mem_cons.mpr ⟨sound, each⟩, stored⟩
                rw [fieldSection_cons, ← rest, ← whole, readLine_append]
  · rintro ⟨fields, rfl, sound, rfl⟩
    induction fields generalizing headers with
    | nil => exact readHeaders_end headers body
    | cons field fields ih =>
        obtain ⟨soundField, soundRest⟩ := List.forall_mem_cons.mp sound
        have oneLine : lf ∉ fieldBytes field :=
          soundField.notMem_fieldBytes (by decide) (by decide) (by decide)
        have line := readLine_line oneLine (fieldSection fields body)
        have notEnd : fieldBytes field ++ [cr, lf] ≠ [cr, lf] := by
          rw [ne_eq, List.append_left_eq_self]
          exact fieldBytes_ne_nil field
        have parsed : parseHeaderLine headers (decodeLatin1 (fieldBytes field)) =
            .ok (setItem headers (fieldKey field) (stripBlanks (decodeLatin1 field.2))) :=
          parseHeaderLine_eq_ok_iff.mpr ⟨field, rfl, soundField, rfl⟩
        rw [fieldSection_cons, readHeaders, line, dif_neg (by simp), if_neg notEnd, decodeLine_line]
        simp only [parsed]
        exact ih soundRest

/-! ## Whole responses -/

theorem mem_names_setItem {headers : Headers} {name value wanted : Text} :
    wanted ∈ (setItem headers name value).names ↔ wanted = name ∨ wanted ∈ headers.names := by
  rw [mem_names_iff, mem_names_iff, lookup_setItem]
  split
  · rename_i same
    simp [same]
  · rename_i differs
    simp [differs]

theorem mem_names_storeFields {headers : Headers} {fields : List RawField} {wanted : Text} :
    wanted ∈ (storeFields headers fields).names ↔
      wanted ∈ headers.names ∨ ∃ field ∈ fields, fieldKey field = wanted := by
  induction fields generalizing headers with
  | nil => simp [storeFields]
  | cons field fields ih =>
      rw [storeFields, List.foldl_cons, ← storeFields, ih, mem_names_setItem,
        List.exists_mem_cons_iff, eq_comm]
      tauto

/-- The names after which `_read_response` gives up. -/
def unsupportedNames : List Bytes := [ascii "transfer-encoding", ascii "content-encoding"]

/-- The response is a first line, then the fields, an empty line and the body. -/
structure ResponseParts (stream statusLine : Bytes) (fields : List RawField) (body : Bytes) :
    Prop where
  whole : stream = statusLine ++ [cr, lf] ++ fieldSection fields body
  oneLine : lf ∉ statusLine

/-- The first line is a status line, and the fields are sound and supported once every sharp
s of a name is spelled out. -/
structure SpelledResponse (stream statusLine : Bytes) (fields : List RawField) (body : Bytes) :
    Prop extends ResponseParts stream statusLine fields body where
  status : ∃ parts, parseStatusLine (decodeLatin1 statusLine) = .ok parts
  sound : ∀ field ∈ fields, SoundField (spell field)
  supported : ∀ field ∈ fields, lowerName (spell field) ∉ unsupportedNames

/-- No field has a name after which `_read_response` gives up. -/
theorem supported_iff {fields : List RawField} :
    ("transfer-encoding".toList ∉ (storeFields [] fields).names ∧
        "content-encoding".toList ∉ (storeFields [] fields).names) ↔
      ∀ field ∈ fields, lowerName (spell field) ∉ unsupportedNames := by
  have transfer : "transfer-encoding".toList = decodeLatin1 (ascii "transfer-encoding") := by decide
  have content : "content-encoding".toList = decodeLatin1 (ascii "content-encoding") := by decide
  rw [transfer, content, mem_names_storeFields, mem_names_storeFields]
  simp only [Headers.names, List.map_nil, List.not_mem_nil, false_or, not_exists, not_and, fieldKey,
    decodeLatin1_injective.eq_iff, unsupportedNames, List.mem_cons, or_false, not_or]
  exact ⟨fun facts field member => ⟨facts.1 field member, facts.2 field member⟩,
    fun facts => ⟨fun field member => (facts field member).1,
      fun field member => (facts field member).2⟩⟩

/-- **The responses that are accepted.** -/
theorem readResponse_ok_iff (stream : Bytes) :
    (∃ response, readResponse stream = .ok response) ↔
      ∃ statusLine fields body, SpelledResponse stream statusLine fields body := by
  constructor
  · rintro ⟨response, accepted⟩
    unfold readResponse at accepted
    split at accepted
    · cases accepted
    · cases decoded : decodeLine (readLine stream).1 with
      | error error => simp only [decoded, bind, Except.bind, reduceCtorEq] at accepted
      | ok text =>
          cases status : parseStatusLine text with
          | error error => simp only [decoded, status, bind, Except.bind, reduceCtorEq] at accepted
          | ok parts =>
              cases read : readHeaders [] (readLine stream).2 with
              | error error =>
                  simp only [decoded, status, read, bind, Except.bind, reduceCtorEq] at accepted
              | ok result =>
                  obtain ⟨headers, body⟩ := result
                  simp only [decoded, status, read, bind, Except.bind] at accepted
                  obtain ⟨statusLine, whole, oneLine, rfl⟩ := decodeLine_eq_ok decoded
                  obtain ⟨fields, rest, sound, rfl⟩ := readHeaders_eq_ok_iff.mp read
                  split at accepted
                  · cases accepted
                  · rename_i noTransfer
                    split at accepted
                    · cases accepted
                    · rename_i noContent
                      refine ⟨statusLine, fields, body, ⟨?_, oneLine⟩, ⟨parts, status⟩, sound,
                        supported_iff.mp ⟨noTransfer, noContent⟩⟩
                      rw [← rest, ← whole, readLine_append]
  · rintro ⟨statusLine, fields, body, ⟨rfl, oneLine⟩, ⟨parts, status⟩, sound, supported⟩
    obtain ⟨noTransfer, noContent⟩ := supported_iff.mpr supported
    have line := readLine_line oneLine (fieldSection fields body)
    have read : readHeaders [] (fieldSection fields body) = .ok (storeFields [] fields, body) :=
      readHeaders_eq_ok_iff.mpr ⟨fields, rfl, sound, rfl⟩
    refine ⟨⟨parts.1, parts.2.1, parts.2.2, storeFields [] fields, body⟩, ?_⟩
    rw [readResponse, line, if_neg (by simp), decodeLine_line]
    simp only [bind, Except.bind, status, read, noTransfer, noContent, if_false]
    rfl

/-- The fields of a section are determined: its lines are read one after another. -/
theorem fields_eq_of_section {fields others : List RawField} {body otherBody : Bytes}
    (sound : ∀ field ∈ fields, SoundField (spell field))
    (othersSound : ∀ field ∈ others, SoundField (spell field))
    (same : fieldSection fields body = fieldSection others otherBody) : fields = others := by
  have endLine : ∀ rest, readLine (fieldSection [] rest) = ([] ++ [cr, lf], rest) :=
    fun rest => @readLine_line [] (by simp) rest
  have firstLine : ∀ (field : RawField) (later : List RawField) (rest : Bytes),
      SoundField (spell field) → readLine (fieldSection (field :: later) rest) =
        (fieldBytes field ++ [cr, lf], fieldSection later rest) := by
    intro field later rest soundField
    rw [fieldSection_cons]
    exact readLine_line (soundField.notMem_fieldBytes (by decide) (by decide) (by decide)) _
  induction fields generalizing others with
  | nil =>
      cases others with
      | nil => rfl
      | cons other others =>
          have lines := congrArg readLine same
          rw [endLine, firstLine _ _ _ (othersSound other List.mem_cons_self)] at lines
          have empty := List.append_cancel_right (Prod.mk.inj lines).1
          exact absurd empty.symm (fieldBytes_ne_nil other)
  | cons field fields ih =>
      have soundField := sound field List.mem_cons_self
      cases others with
      | nil =>
          have lines := congrArg readLine same
          rw [endLine, firstLine _ _ _ soundField] at lines
          have empty := List.append_cancel_right (Prod.mk.inj lines).1
          exact absurd empty (fieldBytes_ne_nil field)
      | cons other others =>
          have soundOther := othersSound other List.mem_cons_self
          have lines := congrArg readLine same
          rw [firstLine _ _ _ soundField, firstLine _ _ _ soundOther] at lines
          obtain ⟨sameLine, sameRest⟩ := Prod.mk.inj lines
          rw [soundField.eq_of_fieldBytes soundOther (List.append_cancel_right sameLine),
            ih (fun later member => sound later (List.mem_cons_of_mem _ member))
              (fun later member => othersSound later (List.mem_cons_of_mem _ member)) sameRest]

/-- The header lines of the response are sound. -/
def SoundResponse (stream : Bytes) : Prop :=
  ∃ statusLine fields body, ResponseParts stream statusLine fields body ∧
    ∀ field ∈ fields, SoundField field

/-- The response is one that is accepted once every sharp s of a name is spelled out, and
some name has one. -/
def SharpResponse (stream : Bytes) : Prop :=
  ∃ statusLine fields body, SpelledResponse stream statusLine fields body ∧
    ∃ field ∈ fields, sharpS ∈ field.1

/-- A response with a sharp s in a name is accepted, and its lines are not sound. -/
theorem SharpResponse.accepted {stream : Bytes} (sharp : SharpResponse stream) :
    (∃ response, readResponse stream = .ok response) ∧ ¬ SoundResponse stream := by
  obtain ⟨statusLine, fields, body, spelled, field, member, sharpName⟩ := sharp
  refine ⟨(readResponse_ok_iff stream).mpr ⟨statusLine, fields, body, spelled⟩, ?_⟩
  rintro ⟨otherStatus, others, otherBody, ⟨whole, oneLine⟩, sound⟩
  have lines := congrArg readLine (spelled.whole.symm.trans whole)
  rw [readLine_line spelled.oneLine, readLine_line oneLine] at lines
  have same : fields = others := by
    refine fields_eq_of_section spelled.sound (fun each inside => ?_) (Prod.mk.inj lines).2
    rw [(sound each inside).spell_eq]
    exact sound each inside
  subst same
  exact (sound field member).plain sharpName

/-- The lines of accepted responses are sound, except where a sharp s was spelled out. -/
theorem acceptsSound_iff (stream : Bytes) :
    ((∃ response, readResponse stream = .ok response) → SoundResponse stream) ↔
      ¬ SharpResponse stream := by
  constructor
  · intro onlySound sharp
    exact sharp.accepted.2 (onlySound sharp.accepted.1)
  · intro notSharp accepted
    obtain ⟨statusLine, fields, body, spelled⟩ := (readResponse_ok_iff stream).mp accepted
    refine ⟨statusLine, fields, body, spelled.toResponseParts, fun field member => ?_⟩
    have plain : sharpS ∉ field.1 :=
      fun sharpName => notSharp ⟨statusLine, fields, body, spelled, field, member, sharpName⟩
    have sound := spelled.sound field member
    rwa [spell_of_plain plain] at sound

end Client

/-! ## Both parsers -/

/-- **When accepted headers are sound.** The server accepts exactly the blocks whose lines are
sound fields with different names, and the client only responses whose header lines are
sound, unless the block or the response would be acceptable with every sharp s of a name
spelled out and some name has a sharp s. -/
theorem headers_sound_iff (block stream : Bytes) :
    (((∃ headers, Server.parseHeaders block = .ok headers) ↔ Server.SoundBlock block) ↔
        ¬ Server.SharpBlock block) ∧
      (((∃ response, Client.readResponse stream = .ok response) → Client.SoundResponse stream) ↔
        ¬ Client.SharpResponse stream) :=
  ⟨Server.acceptsSound_iff block, Client.acceptsSound_iff stream⟩

/-- A header line with a sharp s in its name. -/
def sharpField : RawField := (ascii "Stra" ++ [sharpS] ++ ascii "e", ascii " 1")

theorem sound_spell_sharpField : SoundField (spell sharpField) where
  nonempty := by decide
  token := List.all_eq_true.mp (by decide)
  value := List.all_iff_forall_prop.mp (by decide)

/-- Both parsers accept it. -/
theorem sharp_name_accepted :
    (∃ headers, Server.parseHeaders (fieldBytes sharpField) = .ok headers) ∧
      ¬ Server.SoundBlock (fieldBytes sharpField) ∧
      (∃ response, Client.readResponse
        (ascii "HTTP/1.1 200 OK\r\n" ++ fieldBytes sharpField ++ ascii "\r\n\r\n") = .ok response) ∧
      ¬ Client.SoundResponse
        (ascii "HTTP/1.1 200 OK\r\n" ++ fieldBytes sharpField ++ ascii "\r\n\r\n") := by
  have block : Server.SharpBlock (fieldBytes sharpField) := by
    have oneLine : Server.blockLines (fieldBytes sharpField) = [fieldBytes sharpField] := by
      rw [Server.blockLines, if_neg (by decide), splitAround_of_missing (by decide)]
    refine ⟨[sharpField], oneLine, ⟨?_, List.pairwise_singleton _ _⟩, sharpField,
      List.mem_cons_self, by decide⟩
    intro field member
    rw [List.mem_singleton.mp member]
    exact sound_spell_sharpField
  have response : Client.SharpResponse
      (ascii "HTTP/1.1 200 OK\r\n" ++ fieldBytes sharpField ++ ascii "\r\n\r\n") := by
    refine ⟨ascii "HTTP/1.1 200 OK", [sharpField], [], ⟨⟨by decide, by decide⟩,
      ⟨("HTTP/1.1".toList, 200, "OK".toList), by decide⟩, ?_, by decide⟩, sharpField,
      List.mem_cons_self, by decide⟩
    intro field member
    rw [List.mem_singleton.mp member]
    exact sound_spell_sharpField
  exact ⟨block.accepted.1, block.accepted.2, response.accepted.1, response.accepted.2⟩

end InfraFromScratch.Http
