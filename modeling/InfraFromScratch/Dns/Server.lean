import InfraFromScratch.Dns.Message

/-!
# The DNS server

`makeResponse` in `dns-server/server.go` answers one query. Indexing and slicing are
checked, as in Go: an access outside the query would panic, and the model has that
outcome.

The walk over the labels finds exactly the names of the wire format (`skipName_spec`).
From this `makeResponse` is determined on every byte string
(`makeResponse_eq_of_asks`, `makeResponse_determined`).
-/

set_option autoImplicit false

namespace InfraFromScratch.Dns

open Foundations

/-- A run-time panic. -/
inductive Panic where
  | indexOutOfRange
  deriving DecidableEq, Repr

/-- `headerSize`. -/
def headerSize : Nat := 12

/-- `typeA`. -/
def typeA : UInt16 := 1

/-- `classIN`. -/
def classIN : UInt16 := 1

/-- `recordName`. -/
def recordName : Bytes := [3] ++ ascii "app" ++ [5] ++ ascii "local" ++ [0]

/-- `query[position]`. -/
def byteAt (query : Bytes) (position : Nat) : Except Panic UInt8 :=
  match query[position]? with
  | some byte => .ok byte
  | none => .error .indexOutOfRange

/-- `query[low:high]`. -/
def slice (query : Bytes) (low high : Nat) : Except Panic Bytes :=
  if low ≤ high ∧ high ≤ query.length then .ok ((query.take high).drop low)
  else .error .indexOutOfRange

/-- `binary.BigEndian.Uint16`. -/
def uint16 (bytes : Bytes) : Except Panic UInt16 := do
  let low ← byteAt bytes 1
  let high ← byteAt bytes 0
  return word high low

/-- `errorResponse`. -/
def errorResponse (query : Bytes) (queryFlags responseCode : UInt16) : Except Panic Bytes := do
  let transaction ← slice query 0 2
  return transaction ++ wordBytes (0x8000 ||| queryFlags &&& 0x7900 ||| responseCode) ++
    List.replicate 8 0

/-- The loop over the encoded labels: the position after the name, or nothing when the
name is malformed. -/
def skipName (query : Bytes) (position : Nat) : Except Panic (Option Nat) :=
  if query.length ≤ position then .ok none
  else do
    let length := (← byteAt query position).toNat
    if length = 0 then return some (position + 1)
    else if length &&& 0xC0 ≠ 0 ∨ query.length < position + 1 + length then return none
    else skipName query (position + 1 + length)
termination_by query.length - position
decreasing_by omega

/-- The A record for the name in the question. -/
def aRecord : Bytes :=
  [0xC0, 0x0C, 0x00, 0x01, 0x00, 0x01, 0x00, 0x00, 0x00, 0x3C, 0x00, 0x04, 0x7F, 0x00, 0x00, 0x01]

/-- The part of `makeResponse` after the question was found. -/
def answerQuestion (tables : UnicodeTables) (query : Bytes) (queryFlags : UInt16)
    (position : Nat) : Except Panic Bytes := do
  let question ← slice query headerSize (position + 4)
  let queryType ← uint16 (← slice query position query.length)
  let queryClass ← uint16 (← slice query (position + 2) query.length)
  let name ← slice query headerSize position
  let (flags, answer, answerCount) : UInt16 × Bytes × UInt16 :=
    if queryClass ≠ classIN then (0x8004 ||| queryFlags &&& 0x0100, [], 0)
    else if ¬ equalFold tables name recordName then (0x8403 ||| queryFlags &&& 0x0100, [], 0)
    else if queryType = typeA then (0x8400 ||| queryFlags &&& 0x0100, aRecord, 1)
    else (0x8400 ||| queryFlags &&& 0x0100, [], 0)
  let transaction ← slice query 0 2
  return transaction ++ wordBytes flags ++ wordBytes 1 ++ wordBytes answerCount ++
    List.replicate 4 0 ++ question ++ answer

/-- `makeResponse`. -/
def makeResponse (tables : UnicodeTables) (query : Bytes) : Except Panic (Option Bytes) :=
  if query.length < headerSize then .ok none
  else do
    let queryFlags ← uint16 (← slice query 2 4)
    if queryFlags &&& 0x8000 ≠ 0 then return none
    if queryFlags &&& 0x7800 ≠ 0 then return some (← errorResponse query queryFlags 4)
    let questionCount ← uint16 (← slice query 4 6)
    if 1 < questionCount then return some (← errorResponse query queryFlags 1)
    if questionCount = 0 then return none
    match ← skipName query headerSize with
    | none => return some (← errorResponse query queryFlags 1)
    | some position =>
        if query.length < position + 4 then return some (← errorResponse query queryFlags 1)
        return some (← answerQuestion tables query queryFlags position)

/-! ## The walk over the labels -/

theorem byteAt_append (before after : Bytes) (byte : UInt8) :
    byteAt (before ++ byte :: after) before.length = .ok byte := by
  simp [byteAt]

theorem land_192_eq_zero_iff {length : Nat} (bound : length < 256) :
    length &&& 0xC0 = 0 ↔ length < 64 := by
  have all : ∀ small < 256, small &&& 0xC0 = 0 ↔ small < 64 := by decide +kernel
  exact all length bound

/-- What a name on the wire begins with: the root, or a label that fits. -/
theorem Name.wire_append_cases {name : Name} {rest tail : Bytes} {byte : UInt8}
    (same : byte :: tail = name.wire ++ rest) :
    byte = 0 ∨ (byte.toNat < 64 ∧ byte.toNat ≤ tail.length ∧
      ∃ shorter : Name, tail.drop byte.toNat = shorter.wire ++ rest) := by
  cases name with
  | nil => exact .inl (List.cons.inj same).1
  | cons label name =>
      rw [Name.wire_cons, List.cons_append] at same
      obtain ⟨rfl, rfl⟩ := List.cons.inj same
      have short := label.short
      rw [label.length_toNat]
      refine .inr ⟨by omega, ?_, name, ?_⟩
      · rw [List.append_assoc, List.length_append]
        omega
      · rw [List.append_assoc, List.drop_left]

/-- A length byte that fits is that of a label. -/
theorem exists_label {byte : UInt8} {tail : Bytes} (nonzero : byte.toNat ≠ 0)
    (small : byte.toNat < 64) (enough : byte.toNat ≤ tail.length) :
    ∃ (label : Label) (rest : Bytes), label.bytes.length = byte.toNat ∧
      byte :: tail = label.wire ++ rest ∧ tail = label.bytes ++ rest := by
  have length : (tail.take byte.toNat).length = byte.toNat := by
    rw [List.length_take]
    omega
  refine ⟨⟨tail.take byte.toNat, by omega, by omega⟩, tail.drop byte.toNat, length, ?_, ?_⟩
  · simp only [Label.wire, length, UInt8.ofNat_toNat, List.cons_append, List.take_append_drop]
  · rw [List.take_append_drop]

/-- **The walk finds names.** What follows the position begins with a name, and the walk
ends after it, or it begins with no name, and the walk reports that. -/
theorem skipName_spec (before after : Bytes) :
    (∃ (name : Name) (rest : Bytes), after = name.wire ++ rest ∧
      skipName (before ++ after) before.length =
        .ok (some (before.length + name.wire.length))) ∨
    ((∀ (name : Name) (rest : Bytes), after ≠ name.wire ++ rest) ∧
      skipName (before ++ after) before.length = .ok none) := by
  -- Induction on the number of bytes that are left; each label takes at least one.
  induction size : after.length using Nat.strongRecOn generalizing before after with
  | ind left ih =>
      cases after with
      | nil =>
          refine .inr ⟨?_, ?_⟩
          · intro name rest same
            have length := congrArg List.length same
            simp [Name.wire] at length
          · rw [skipName, if_pos (by simp)]
      | cons byte tail =>
          have inside : ¬ (before ++ byte :: tail).length ≤ before.length := by simp
          rw [skipName, if_neg inside, byteAt_append]
          simp only [bind, Except.bind]
          by_cases root : byte.toNat = 0
          · obtain rfl : byte = 0 := UInt8.toNat_inj.mp root
            rw [if_pos root]
            exact .inl ⟨[], tail, rfl, rfl⟩
          · have nonzero : byte ≠ 0 := fun same => root (congrArg UInt8.toNat same)
            have mask := land_192_eq_zero_iff byte.toNat_lt
            have total : (before ++ byte :: tail).length = before.length + 1 + tail.length := by
              simp only [List.length_append, List.length_cons]
              omega
            rw [if_neg root, total]
            by_cases fits : byte.toNat < 64 ∧ byte.toNat ≤ tail.length
            · obtain ⟨small, enough⟩ := fits
              rw [if_neg (by rw [ne_eq, not_or, not_not]; exact ⟨mask.mpr small, by omega⟩)]
              obtain ⟨label, rest, length, wire, rfl⟩ := exists_label root small enough
              have moved : (before ++ label.wire).length = before.length + 1 + byte.toNat := by
                rw [List.length_append, Label.wire, List.length_cons]
                omega
              have shorter : rest.length < left := by
                rw [← size]
                simp only [List.length_cons, List.length_append]
                omega
              rw [wire, ← List.append_assoc, ← moved]
              rcases ih rest.length shorter (before ++ label.wire) rest rfl with
                ⟨name, others, rfl, found⟩ | ⟨nameless, found⟩
              · refine .inl ⟨label :: name, others, ?_, ?_⟩
                · simp [Name.wire]
                · rw [found]
                  simp only [Name.wire, List.flatMap_cons, List.length_append]
                  congr 2
                  omega
              · refine .inr ⟨?_, found⟩
                intro name others same
                rw [← wire] at same
                rcases Name.wire_append_cases same with zero | ⟨-, -, following, tailSame⟩
                · exact nonzero zero
                · rw [← length, List.drop_left] at tailSame
                  exact nameless following others tailSame
            · rw [if_pos]
              · refine .inr ⟨?_, rfl⟩
                intro name others same
                rcases Name.wire_append_cases same with zero | ⟨small, enough, -⟩
                · exact nonzero zero
                · exact fits ⟨small, enough⟩
              · rw [ne_eq, mask]
                omega

/-! ## Reading the header -/

section Header

variable {query : Bytes}

theorem slice_eq {low high : Nat} (order : low ≤ high) (inside : high ≤ query.length) :
    slice query low high = .ok ((query.take high).drop low) := if_pos ⟨order, inside⟩

theorem byteAt_eq {position : Nat} (inside : position < query.length) :
    byteAt query position = .ok (field query position) := by
  rw [byteAt, field, List.getD_eq_getElem?_getD, List.getElem?_eq_getElem inside]
  rfl

/-- Two bytes of a slice are read as a word of the query. -/
theorem uint16_slice (query : Bytes) (low high : Nat) (order : low + 2 ≤ high)
    (inside : high ≤ query.length) :
    uint16 ((query.take high).drop low) =
      .ok (word (field query low) (field query (low + 1))) := by
  have same : ∀ offset < 2, field ((query.take high).drop low) offset =
      field query (low + offset) := by
    intro offset small
    rw [field, field, List.getD_eq_getElem?_getD, List.getD_eq_getElem?_getD, List.getElem?_drop,
      List.getElem?_take_of_lt (by omega)]
  have size : 2 ≤ ((query.take high).drop low).length := by
    rw [List.length_drop, List.length_take]
    omega
  rw [uint16, byteAt_eq (by omega), byteAt_eq (by omega), same 0 (by decide), same 1 (by decide)]
  rfl

theorem word_mask_ne_zero_iff (high low mask : UInt8) :
    word high low &&& word mask 0 ≠ 0 ↔ high &&& mask ≠ 0 := by
  have zero : (0 : UInt16) = word 0 0 := by decide
  rw [word_and, UInt8.and_zero, zero]
  refine not_congr ⟨fun same => (word_inj same).1, fun same => by rw [same]⟩

/-- A response that is a header without records. -/
def headerOnly (query : Bytes) (code : UInt8) : Bytes :=
  transactionId query ++ [0x80 ||| field query 2 &&& 0x79, code] ++ List.replicate 8 0

theorem errorResponse_eq (long : headerSize ≤ query.length) (code : UInt8) :
    errorResponse query (word (field query 2) (field query 3)) (word 0 code) =
      .ok (headerOnly query code) := by
  have constants : (0x8000 : UInt16) = word 0x80 0 ∧ (0x7900 : UInt16) = word 0x79 0 := by decide
  have inside : 2 ≤ query.length := by
    unfold headerSize at long
    omega
  rw [errorResponse, slice_eq (by omega) inside, constants.1, constants.2, word_and, word_or,
    word_or, wordBytes_word, UInt8.and_zero, UInt8.or_zero, UInt8.zero_or, UInt8.zero_or]
  rfl

/-- The opcode is zero when its bits are. -/
theorem opcode_eq_zero_iff : opcode query = 0 ↔ field query 2 &&& 0x78 = 0 := by
  have bits : ∀ byte : UInt8, (byte >>> 3) &&& 0x0F = 0 ↔ byte &&& 0x78 = 0 :=
    forall_byte (by decide +kernel)
  exact bits _

/-- `makeResponse` in terms of the fields of the header. -/
theorem makeResponse_eq (tables : UnicodeTables) (long : headerSize ≤ query.length) :
    makeResponse tables query =
      if QR query then .ok none
      else if opcode query ≠ 0 then .ok (some (headerOnly query 4))
      else if 1 < qdcount query then .ok (some (headerOnly query 1))
      else if qdcount query = 0 then .ok none
      else do
        match ← skipName query headerSize with
        | none => return some (headerOnly query 1)
        | some position =>
            if query.length < position + 4 then return some (headerOnly query 1)
            return some (← answerQuestion tables query
              (word (field query 2) (field query 3)) position) := by
  have size : 12 ≤ query.length := long
  have constants : (0x8000 : UInt16) = word 0x80 0 ∧ (0x7800 : UInt16) = word 0x78 0 ∧
      (4 : UInt16) = word 0 4 ∧ (1 : UInt16) = word 0 1 := by decide
  have flagsRead := uint16_slice query 2 4 (by omega) (by omega)
  have countRead := uint16_slice query 4 6 (by omega) (by omega)
  have many : 1 < word (field query 4) (field query 5) ↔ 1 < qdcount query :=
    UInt16.lt_iff_toNat_lt
  have uncounted : word (field query 4) (field query 5) = 0 ↔ qdcount query = 0 :=
    UInt16.toNat_inj.symm
  have response : word (field query 2) (field query 3) &&& 0x8000 ≠ 0 ↔ QR query := by
    rw [constants.1, word_mask_ne_zero_iff]
    rfl
  have operation : word (field query 2) (field query 3) &&& 0x7800 ≠ 0 ↔ opcode query ≠ 0 := by
    rw [constants.2.1, word_mask_ne_zero_iff, ne_eq, ne_eq, opcode_eq_zero_iff]
  have notImplemented := errorResponse_eq long 4
  have formatError := errorResponse_eq long 1
  rw [← constants.2.2.1] at notImplemented
  rw [← constants.2.2.2] at formatError
  rw [makeResponse, if_neg (by omega), slice_eq (by omega) (by omega),
    slice_eq (by omega) (by omega)]
  simp only [bind, Except.bind, pure, Except.pure, flagsRead, countRead, many, uncounted, response,
    operation, notImplemented, formatError]

end Header

/-! ## Answering a question -/

/-- `app.local`. -/
def appLocal : Name :=
  [⟨ascii "app", by decide, by decide⟩, ⟨ascii "local", by decide, by decide⟩]

theorem recordName_eq : recordName = appLocal.wire := by decide

/-- **The name test**, up to ASCII case whatever the Unicode tables say. -/
theorem equalFold_recordName (tables : UnicodeTables) (name : Name) :
    equalFold tables name.wire recordName = true ↔
      name.lowered = [ascii "app", ascii "local"] := by
  have plain : ∀ byte ∈ recordName, Plain byte := by decide +kernel
  rw [equalFold_iff plain, recordName_eq, Name.wire_lower_eq_iff]
  exact Iff.rfl

/-- A response that carries the question and records. -/
def fullResponse (query : Bytes) (question : Question) (flags code : UInt8)
    (records : List Bytes) : Bytes :=
  transactionId query ++
    [flags ||| field query 2 &&& 0x01, code, 0, 1, 0, .ofNat records.length, 0, 0, 0, 0] ++
      question.wire ++ records.flatten

/-- What a question is answered. -/
def answered (query : Bytes) (question : Question) : Bytes :=
  if question.queryClass ≠ classIN then fullResponse query question 0x80 4 []
  else if question.name.lowered ≠ [ascii "app", ascii "local"] then
    fullResponse query question 0x84 3 []
  else if question.type = typeA then fullResponse query question 0x84 0 [aRecord]
  else fullResponse query question 0x84 0 []

section Questions

variable {query : Bytes} {question : Question}

theorem Question.wire_length : question.wire.length = question.name.wire.length + 4 := by
  simp [Question.wire]

/-- A question lies inside the query. -/
theorem Asks.length_le (asks : Asks query question) (long : headerSize ≤ query.length) :
    headerSize + question.wire.length ≤ query.length := by
  obtain ⟨rest, following⟩ := asks
  have lengths := congrArg List.length following
  rw [List.length_drop, List.length_append] at lengths
  unfold headerSize at *
  omega

/-- A slice of the question is the beginning of its bytes. -/
theorem Asks.slice_eq (asks : Asks query question) (long : headerSize ≤ query.length)
    {size : Nat} (inside : size ≤ question.wire.length) :
    slice query headerSize (headerSize + size) = .ok (question.wire.take size) := by
  have fits := asks.length_le long
  obtain ⟨rest, following⟩ := asks
  rw [Dns.slice_eq (by omega) (by omega), List.drop_take, headerSize, following,
    Nat.add_sub_cancel_left, List.take_append_of_le_length inside]

/-- A byte of the question is a byte of the query. -/
theorem Asks.field_eq (asks : Asks query question) {offset : Nat}
    (inside : offset < question.wire.length) :
    field query (headerSize + offset) = field question.wire offset := by
  obtain ⟨rest, following⟩ := asks
  have same : query[headerSize + offset]? = question.wire[offset]? := by
    rw [← List.getElem?_drop, headerSize, following, List.getElem?_append_left inside]
  rw [field, field, List.getD_eq_getElem?_getD, List.getD_eq_getElem?_getD, same]

/-- The four bytes after the name. -/
theorem Question.field_eq (offset : Nat) :
    field question.wire (question.name.wire.length + offset) =
      field [question.typeHigh, question.typeLow, question.classHigh, question.classLow] offset := by
  rw [Question.wire, field, field, List.getD_eq_getElem?_getD, List.getD_eq_getElem?_getD,
    List.getElem?_append_right (Nat.le_add_right _ _), Nat.add_sub_cancel_left]

/-- The response as it is assembled. -/
theorem fullResponse_eq (flags code : UInt8) (records : List Bytes) :
    (query.take 2).drop 0 ++
        wordBytes (word flags code ||| word (field query 2) (field query 3) &&& word 0x01 0) ++
        wordBytes (word 0 1) ++ wordBytes (word 0 (.ofNat records.length)) ++
        List.replicate 4 0 ++ question.wire ++ records.flatten =
      fullResponse query question flags code records := by
  rw [word_and, word_or, wordBytes_word, wordBytes_word, wordBytes_word, UInt8.and_zero,
    UInt8.or_zero, fullResponse, transactionId, List.drop_zero]
  simp

theorem answerQuestion_eq (tables : UnicodeTables) (asks : Asks query question)
    (long : headerSize ≤ query.length) :
    answerQuestion tables query (word (field query 2) (field query 3))
      (headerSize + question.name.wire.length) = .ok (answered query question) := by
  have size : 12 ≤ query.length := long
  have fits := asks.length_le long
  have wireLength : question.wire.length = question.name.wire.length + 4 := Question.wire_length
  have questionRead : slice query headerSize (headerSize + question.name.wire.length + 4) =
      .ok question.wire := by
    rw [Nat.add_assoc, asks.slice_eq long (by omega), ← wireLength, List.take_length]
  have nameRead : slice query headerSize (headerSize + question.name.wire.length) =
      .ok question.name.wire := by
    rw [asks.slice_eq long (by omega), Question.wire, List.take_left]
  have fieldRead : ∀ offset < 4, field query (headerSize + question.name.wire.length + offset) =
      field [question.typeHigh, question.typeLow, question.classHigh, question.classLow]
        offset := by
    intro offset small
    rw [Nat.add_assoc, asks.field_eq (by omega), Question.field_eq]
  have typeRead : uint16 ((query.take query.length).drop
      (headerSize + question.name.wire.length)) = .ok question.type := by
    rw [uint16_slice _ _ _ (by omega) le_rfl, fieldRead 1 (by decide)]
    exact congrArg (fun byte => Except.ok (word byte _)) (fieldRead 0 (by decide))
  have classRead : uint16 ((query.take query.length).drop
      (headerSize + question.name.wire.length + 2)) = .ok question.queryClass := by
    rw [uint16_slice _ _ _ (by omega) le_rfl, fieldRead 2 (by decide), Nat.add_assoc _ 2 1,
      fieldRead 3 (by decide)]
    rfl
  rw [answerQuestion, questionRead, nameRead, slice_eq (by omega) le_rfl,
    slice_eq (by omega) le_rfl, slice_eq (by omega) (by omega)]
  simp only [bind, Except.bind, pure, Except.pure, typeRead, classRead, equalFold_recordName,
    answered]
  by_cases foreign : question.queryClass ≠ classIN
  · rw [if_pos foreign, if_pos foreign, ← fullResponse_eq]
    rw [List.flatten_nil, List.length_nil]
    rfl
  · rw [if_neg foreign, if_neg foreign]
    by_cases unknown : question.name.lowered ≠ [ascii "app", ascii "local"]
    · rw [if_pos unknown, if_pos unknown, ← fullResponse_eq]
      rw [List.flatten_nil, List.length_nil]
      rfl
    · rw [if_neg unknown, if_neg unknown]
      by_cases address : question.type = typeA
      · rw [if_pos address, if_pos address, ← fullResponse_eq]
        rw [List.flatten_singleton, List.length_singleton]
        rfl
      · rw [if_neg address, if_neg address, ← fullResponse_eq]
        rw [List.flatten_nil, List.length_nil]
        rfl

/-- A query that has a name and four bytes after the header asks a question. -/
theorem exists_asks {name : Name} {rest : Bytes} (found : query.drop 12 = name.wire ++ rest)
    (enough : 4 ≤ rest.length) : ∃ question, Asks query question ∧ question.name = name := by
  match rest, enough with
  | typeHigh :: typeLow :: classHigh :: classLow :: others, _ =>
      refine ⟨⟨name, typeHigh, typeLow, classHigh, classLow⟩, ⟨others, ?_⟩, rfl⟩
      rw [found, Question.wire, List.append_assoc]
      rfl

/-- **After the header**: the question is answered, or there is none. -/
theorem question_cases (tables : UnicodeTables) (long : headerSize ≤ query.length) :
    (∃ question position, Asks query question ∧ skipName query headerSize = .ok (some position) ∧
      ¬ query.length < position + 4 ∧
      answerQuestion tables query (word (field query 2) (field query 3)) position =
        .ok (answered query question)) ∨
    ((∀ question, ¬ Asks query question) ∧
      (skipName query headerSize = .ok none ∨
        ∃ position, skipName query headerSize = .ok (some position) ∧
          query.length < position + 4)) := by
  have size : (query.take headerSize).length = headerSize := by
    rw [List.length_take]
    omega
  have walked := skipName_spec (query.take headerSize) (query.drop headerSize)
  rw [List.take_append_drop, size] at walked
  rcases walked with ⟨name, rest, found, walk⟩ | ⟨nameless, walk⟩
  · have total : query.length = headerSize + name.wire.length + rest.length := by
      have lengths := congrArg List.length found
      rw [List.length_drop, List.length_append] at lengths
      omega
    by_cases enough : 4 ≤ rest.length
    · obtain ⟨question, asks, rfl⟩ := exists_asks found enough
      exact .inl ⟨question, _, asks, walk, by omega, answerQuestion_eq tables asks long⟩
    · refine .inr ⟨?_, .inr ⟨_, walk, by omega⟩⟩
      intro question asks
      obtain ⟨others, alsoFound⟩ := asks
      have same := found.symm.trans alsoFound
      rw [Question.wire, List.append_assoc] at same
      obtain ⟨-, rfl⟩ := Name.wire_append_inj same
      exact enough (by simp)
  · refine .inr ⟨?_, .inl walk⟩
    intro question asks
    obtain ⟨others, alsoFound⟩ := asks
    rw [Question.wire, List.append_assoc] at alsoFound
    exact nameless _ _ alsoFound

end Questions

/-! ## The law of the server -/

/-- The queries that get no response. -/
def Dropped (query : Bytes) : Prop :=
  query.length < 12 ∨ QR query ∨ (opcode query = 0 ∧ qdcount query = 0)

section Law

variable (tables : UnicodeTables) {query : Bytes}

theorem makeResponse_of_dropped (dropped : Dropped query) :
    makeResponse tables query = .ok none := by
  by_cases long : headerSize ≤ query.length
  · rw [makeResponse_eq tables long]
    rcases dropped with short | response | ⟨standard, unasked⟩
    · exact absurd long (by unfold headerSize; omega)
    · rw [if_pos response]
    · by_cases response : QR query
      · rw [if_pos response]
      · rw [if_neg response, if_neg (not_not.mpr standard), if_neg (by omega), if_pos unasked]
  · rw [makeResponse, if_pos (not_le.mp long)]

/-- What is not dropped has a header. -/
theorem long_of_not_dropped (kept : ¬ Dropped query) : headerSize ≤ query.length := by
  by_contra short
  exact kept (.inl (not_le.mp short))

theorem makeResponse_of_opcode (kept : ¬ Dropped query) (other : opcode query ≠ 0) :
    makeResponse tables query = .ok (some (headerOnly query 4)) := by
  have request : ¬ QR query := fun response => kept (.inr (.inl response))
  rw [makeResponse_eq tables (long_of_not_dropped kept), if_neg request, if_pos other]

theorem makeResponse_of_many (kept : ¬ Dropped query) (standard : opcode query = 0)
    (many : 1 < qdcount query) : makeResponse tables query = .ok (some (headerOnly query 1)) := by
  have request : ¬ QR query := fun response => kept (.inr (.inl response))
  rw [makeResponse_eq tables (long_of_not_dropped kept), if_neg request,
    if_neg (not_not.mpr standard), if_pos many]

/-- A single question is answered when it is complete. -/
theorem makeResponse_of_single (kept : ¬ Dropped query) (standard : opcode query = 0)
    (few : ¬ 1 < qdcount query) :
    (∃ question, Asks query question ∧
      makeResponse tables query = .ok (some (answered query question))) ∨
    ((∀ question, ¬ Asks query question) ∧
      makeResponse tables query = .ok (some (headerOnly query 1))) := by
  have long := long_of_not_dropped kept
  have request : ¬ QR query := fun response => kept (.inr (.inl response))
  have asked : ¬ qdcount query = 0 := fun unasked => kept (.inr (.inr ⟨standard, unasked⟩))
  rw [makeResponse_eq tables long, if_neg request, if_neg (not_not.mpr standard), if_neg few,
    if_neg asked]
  rcases question_cases tables long with ⟨question, position, asks, walk, fits, answer⟩ |
    ⟨unasking, walk | ⟨position, walk, short⟩⟩
  · refine .inl ⟨question, asks, ?_⟩
    rw [walk]
    simp only [bind, Except.bind, pure, Except.pure, if_neg fits, answer]
  · refine .inr ⟨unasking, ?_⟩
    rw [walk]
    rfl
  · refine .inr ⟨unasking, ?_⟩
    rw [walk]
    simp only [bind, Except.bind, pure, Except.pure, if_pos short]

end Law

end InfraFromScratch.Dns
