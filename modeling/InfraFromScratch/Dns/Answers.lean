import InfraFromScratch.Dns.Server

/-!
# What the DNS server answers

Every byte string gets a fixed treatment: no response, an error of header size, or a
response that carries the question (`makeResponse_determined`). Whatever is sent back
echoes the transaction id, the opcode and the bit that asks for recursion, counts its
records, is not much longer than the query, and would itself get no response.
-/

set_option autoImplicit false

namespace InfraFromScratch.Dns

open Foundations

/-- The response belongs to the query. -/
structure Echoes (query response : Bytes) : Prop where
  sameId : transactionId response = transactionId query
  isResponse : QR response
  sameOpcode : opcode response = opcode query
  sameRecursion : RD response = RD query

/-- The response carries the question, the records and the status. -/
structure Carries (response : Bytes) (question : Question) (code : UInt8)
    (records : List Bytes) : Prop where
  body : response.drop 12 = question.wire ++ records.flatten
  asked : qdcount response = 1
  counted : ancount response = records.length
  status : rcode response = code

/-- The response is a header that counts nothing and has the status. -/
structure Bare (response : Bytes) (code : UInt8) : Prop where
  size : response.length = 12
  unasked : qdcount response = 0
  uncounted : ancount response = 0
  status : rcode response = code

section Fields

variable {query : Bytes}

/-- A query with a header starts with its transaction id and two flag bytes. -/
theorem exists_header (long : headerSize ≤ query.length) :
    ∃ high low, transactionId query = [high, low] := by
  match query, long with
  | high :: low :: _, _ => exact ⟨high, low, rfl⟩

theorem headerOnly_echoes (long : headerSize ≤ query.length) (code : UInt8) :
    Echoes query (headerOnly query code) := by
  obtain ⟨high, low, ids⟩ := exists_header long
  have bits : ∀ byte : UInt8, ((0x80 : UInt8) ||| byte &&& 0x79) &&& 0x80 ≠ 0 ∧
      (((0x80 : UInt8) ||| byte &&& 0x79) >>> 3) &&& (0x0F : UInt8) = (byte >>> 3) &&& 0x0F ∧
      ((0x80 : UInt8) ||| byte &&& 0x79) &&& 0x01 = byte &&& 0x01 :=
    forall_byte (by decide +kernel)
  obtain ⟨isResponse, sameOpcode, sameRecursion⟩ := bits (field query 2)
  have flags : field (headerOnly query code) 2 = 0x80 ||| field query 2 &&& 0x79 := by
    rw [headerOnly, ids]
    rfl
  refine ⟨?_, ?_, ?_, ?_⟩
  · rw [headerOnly, ids]
    rfl
  · rwa [QR, flags]
  · rw [opcode, flags, sameOpcode, opcode]
  · rw [RD, flags, sameRecursion, RD]

theorem headerOnly_bare (long : headerSize ≤ query.length) {code : UInt8}
    (small : code &&& 0x0F = code) : Bare (headerOnly query code) code := by
  obtain ⟨high, low, ids⟩ := exists_header long
  refine ⟨?_, ?_, ?_, ?_⟩
  · rw [headerOnly, ids]
    rfl
  · rw [headerOnly, ids]
    exact word_toNat 0 0
  · rw [headerOnly, ids]
    exact word_toNat 0 0
  · rw [headerOnly, ids]
    exact small

theorem fullResponse_echoes (long : headerSize ≤ query.length) (standard : opcode query = 0)
    (question : Question) {flags : UInt8} (known : flags = 0x80 ∨ flags = 0x84) (code : UInt8)
    (records : List Bytes) : Echoes query (fullResponse query question flags code records) := by
  obtain ⟨high, low, ids⟩ := exists_header long
  have bits : ∀ byte flags : UInt8, flags = 0x80 ∨ flags = 0x84 →
      (flags ||| byte &&& 0x01) &&& 0x80 ≠ 0 ∧ ((flags ||| byte &&& 0x01) >>> 3) &&& 0x0F = 0 ∧
      (flags ||| byte &&& 0x01) &&& 0x01 = byte &&& 0x01 := by
    intro byte flags known
    rcases known with rfl | rfl
    · revert byte
      exact forall_byte (by decide +kernel)
    · revert byte
      exact forall_byte (by decide +kernel)
  obtain ⟨isResponse, sameOpcode, sameRecursion⟩ := bits (field query 2) flags known
  have sent : field (fullResponse query question flags code records) 2 =
      flags ||| field query 2 &&& 0x01 := by
    rw [fullResponse, ids]
    rfl
  refine ⟨?_, ?_, ?_, ?_⟩
  · rw [fullResponse, ids]
    rfl
  · rwa [QR, sent]
  · rw [opcode, sent, sameOpcode, standard]
  · rw [RD, sent, sameRecursion, RD]

theorem fullResponse_carries (long : headerSize ≤ query.length) (question : Question)
    (flags : UInt8) {code : UInt8} (small : code &&& 0x0F = code) {records : List Bytes}
    (few : records.length < 256) :
    Carries (fullResponse query question flags code records) question code records := by
  obtain ⟨high, low, ids⟩ := exists_header long
  refine ⟨?_, ?_, ?_, ?_⟩
  · rw [fullResponse, ids, List.append_assoc]
    rfl
  · rw [fullResponse, ids]
    exact word_toNat 0 1
  · have counts : ancount (fullResponse query question flags code records) =
        (word 0 (.ofNat records.length)).toNat := by
      rw [fullResponse, ids]
      rfl
    rw [counts, word_toNat, UInt8.toNat_ofNat_of_lt' few]
    exact Nat.zero_add _
  · rw [fullResponse, ids]
    exact small

theorem fullResponse_length (long : headerSize ≤ query.length) (question : Question)
    (flags code : UInt8) (records : List Bytes) :
    (fullResponse query question flags code records).length =
      headerSize + question.wire.length + records.flatten.length := by
  obtain ⟨high, low, ids⟩ := exists_header long
  rw [fullResponse, ids]
  simp only [List.length_append, List.length_cons, List.length_nil]
  rfl

/-- Authority is claimed by the flags alone. -/
theorem fullResponse_not_authoritative (long : headerSize ≤ query.length) (question : Question)
    (code : UInt8) (records : List Bytes) :
    ¬ AA (fullResponse query question 0x80 code records) := by
  obtain ⟨high, low, ids⟩ := exists_header long
  have bits : ∀ byte : UInt8, ((0x80 : UInt8) ||| byte &&& 0x01) &&& 0x04 = 0 :=
    forall_byte (by decide +kernel)
  have sent : field (fullResponse query question 0x80 code records) 2 =
      0x80 ||| field query 2 &&& 0x01 := by
    rw [fullResponse, ids]
    rfl
  rw [AA, sent]
  exact not_not.mpr (bits _)

end Fields

/-! ## Answered questions -/

section Answered

variable {query : Bytes} {question : Question}

/-- The four ways in which a question is answered. -/
theorem answered_cases (query : Bytes) (question : Question) :
    (question.queryClass ≠ classIN ∧
      answered query question = fullResponse query question 0x80 4 []) ∨
    (question.queryClass = classIN ∧ question.name.lowered ≠ [ascii "app", ascii "local"] ∧
      answered query question = fullResponse query question 0x84 3 []) ∨
    (question.queryClass = classIN ∧ question.name.lowered = [ascii "app", ascii "local"] ∧
      question.type = typeA ∧
      answered query question = fullResponse query question 0x84 0 [aRecord]) ∨
    (question.queryClass = classIN ∧ question.name.lowered = [ascii "app", ascii "local"] ∧
      question.type ≠ typeA ∧
      answered query question = fullResponse query question 0x84 0 []) := by
  unfold answered
  split
  · rename_i foreign
    exact .inl ⟨foreign, rfl⟩
  · rename_i internet
    split
    · rename_i unknown
      exact .inr (.inl ⟨not_not.mp internet, unknown, rfl⟩)
    · rename_i known
      split
      · rename_i address
        exact .inr (.inr (.inl ⟨not_not.mp internet, not_not.mp known, address, rfl⟩))
      · rename_i other
        exact .inr (.inr (.inr ⟨not_not.mp internet, not_not.mp known, other, rfl⟩))

/-- An answered question is a full response with one of two flags, a small code, and no
record or the one A record. -/
theorem answered_shape (query : Bytes) (question : Question) :
    ∃ flags code records, answered query question = fullResponse query question flags code records ∧
      (flags = 0x80 ∨ flags = 0x84) ∧ code &&& 0x0F = code ∧
      (records = [] ∨
        (records = [aRecord] ∧ question.name.lowered = [ascii "app", ascii "local"])) := by
  rcases answered_cases query question with ⟨-, same⟩ | ⟨-, -, same⟩ | ⟨-, known, -, same⟩ |
    ⟨-, -, -, same⟩
  · exact ⟨_, _, _, same, .inl rfl, by decide, .inl rfl⟩
  · exact ⟨_, _, _, same, .inr rfl, by decide, .inl rfl⟩
  · exact ⟨_, _, _, same, .inr rfl, by decide, .inr ⟨rfl, known⟩⟩
  · exact ⟨_, _, _, same, .inr rfl, by decide, .inl rfl⟩

/-- The name of the record has eleven bytes in every case. -/
theorem wire_length_of_known {name : Name}
    (known : name.lowered = [ascii "app", ascii "local"]) : name.wire.length = 11 := by
  have same : name.wire.map asciiLower = appLocal.wire.map asciiLower :=
    Name.wire_lower_eq_iff.mpr known
  have lengths := congrArg List.length same
  rw [List.length_map, List.length_map] at lengths
  exact lengths

theorem answered_length (asks : Asks query question) (long : headerSize ≤ query.length) :
    (answered query question).length ≤ max query.length 43 := by
  have fits := asks.length_le long
  obtain ⟨flags, code, records, same, -, -, shape⟩ := answered_shape query question
  rw [same, fullResponse_length long]
  rcases shape with rfl | ⟨rfl, known⟩
  · exact le_max_of_le_left fits
  · refine le_max_of_le_right ?_
    rw [Question.wire_length, wire_length_of_known known]
    decide

theorem headerOnly_ne_fullResponse (long : headerSize ≤ query.length) (code flags other : UInt8)
    (records : List Bytes) :
    headerOnly query code ≠ fullResponse query question flags other records := by
  intro same
  have lengths := congrArg List.length same
  obtain ⟨high, low, ids⟩ := exists_header long
  have short : (headerOnly query code).length = 12 := by
    rw [headerOnly, ids]
    rfl
  rw [short, fullResponse_length long, Question.wire_length, headerSize] at lengths
  omega

theorem headerOnly_ne_answered (long : headerSize ≤ query.length) (code : UInt8) :
    headerOnly query code ≠ answered query question := by
  obtain ⟨flags, other, records, same, -⟩ := answered_shape query question
  rw [same]
  exact headerOnly_ne_fullResponse long code flags other records

theorem headerOnly_ne {code other : UInt8} (different : code ≠ other) :
    headerOnly query code ≠ headerOnly query other := by
  intro same
  rw [headerOnly, headerOnly, List.append_cancel_right_eq, List.append_cancel_left_eq] at same
  exact different (List.cons.inj (List.cons.inj same).2).1

end Answered

/-! ## The law of the server -/

/-- What every response has in common. -/
structure Proper (tables : UnicodeTables) (query response : Bytes) : Prop where
  echoes : Echoes query response
  counted : ∃ (question : Bytes) (records : List Bytes), response.drop 12 = question ++ records.flatten ∧
    (question = [] ∨ ∃ asked : Question, Asks query asked ∧ question = asked.wire) ∧
    (∀ record ∈ records, record = aRecord) ∧ ancount response = records.length
  short : response.length ≤ max query.length 43
  unanswered : makeResponse tables response = .ok none

section Law

variable (tables : UnicodeTables) {query : Bytes}

theorem headerOnly_proper (long : headerSize ≤ query.length) {code : UInt8}
    (small : code &&& 0x0F = code) : Proper tables query (headerOnly query code) := by
  have echoes := headerOnly_echoes long code
  have bare := headerOnly_bare long small
  refine ⟨echoes, ⟨[], [], ?_, .inl rfl, by simp, bare.uncounted⟩, ?_, ?_⟩
  · exact List.drop_eq_nil_of_le bare.size.le
  · rw [bare.size]
    exact le_max_of_le_right (by decide)
  · exact makeResponse_of_dropped tables (.inr (.inl echoes.isResponse))

theorem answered_proper (long : headerSize ≤ query.length) (standard : opcode query = 0)
    {question : Question} (asks : Asks query question) :
    Proper tables query (answered query question) := by
  obtain ⟨flags, code, records, same, known, small, shape⟩ := answered_shape query question
  have few : records.length < 256 := by
    rcases shape with rfl | ⟨rfl, -⟩
    · decide
    · decide
  have onlyA : ∀ record ∈ records, record = aRecord := by
    intro record member
    rcases shape with rfl | ⟨rfl, -⟩
    · cases member
    · exact List.mem_singleton.mp member
  have echoes := fullResponse_echoes long standard question known code records
  have carries := fullResponse_carries long question flags small few
  rw [← same] at echoes carries
  exact ⟨echoes, ⟨question.wire, records, carries.body, .inr ⟨question, asks, rfl⟩, onlyA,
    carries.counted⟩, answered_length asks long,
    makeResponse_of_dropped tables (.inr (.inl echoes.isResponse))⟩

/-- How the four kinds of questions are answered. -/
theorem answered_carries (long : headerSize ≤ query.length) (question : Question) :
    (question.queryClass ≠ classIN →
      Carries (answered query question) question 4 [] ∧ ¬ AA (answered query question)) ∧
    (question.queryClass = classIN → question.name.lowered ≠ [ascii "app", ascii "local"] →
      Carries (answered query question) question 3 []) ∧
    (question.queryClass = classIN → question.name.lowered = [ascii "app", ascii "local"] →
      question.type = typeA → Carries (answered query question) question 0 [aRecord]) ∧
    (question.queryClass = classIN → question.name.lowered = [ascii "app", ascii "local"] →
      question.type ≠ typeA → Carries (answered query question) question 0 []) := by
  have carries : ∀ (flags code : UInt8) (records : List Bytes), code &&& 0x0F = code →
      records.length < 256 →
        Carries (fullResponse query question flags code records) question code records :=
    fun flags _ _ small few => fullResponse_carries long question flags small few
  rcases answered_cases query question with ⟨foreign, same⟩ | ⟨internet, unknown, same⟩ |
    ⟨internet, known, address, same⟩ | ⟨internet, known, other, same⟩
  · rw [same]
    refine ⟨fun _ => ⟨carries _ _ _ (by decide) (by decide), ?_⟩, ?_, ?_, ?_⟩
    · exact fullResponse_not_authoritative long question 4 []
    all_goals exact fun internet => absurd internet foreign
  · rw [same]
    refine ⟨fun foreign => absurd internet foreign, ?_, ?_, ?_⟩
    · exact fun _ _ => carries _ _ _ (by decide) (by decide)
    all_goals exact fun _ known => absurd known unknown
  · rw [same]
    refine ⟨fun foreign => absurd internet foreign, fun _ unknown => absurd known unknown, ?_, ?_⟩
    · exact fun _ _ _ => carries _ _ _ (by decide) (by decide)
    · exact fun _ _ other => absurd address other
  · rw [same]
    refine ⟨fun foreign => absurd internet foreign, fun _ unknown => absurd known unknown, ?_, ?_⟩
    · exact fun _ _ address => absurd address other
    · exact fun _ _ _ => carries _ _ _ (by decide) (by decide)

/-- **The law of the server.** On every byte string `makeResponse` returns without a
panic, and what it returns is determined:

* nothing exactly for short queries, for responses, and for standard queries that count no
  question;
* else a bare `NOTIMP` exactly for other opcodes;
* else a bare `FORMERR` exactly when more than one question is counted or no complete
  question follows the header;
* else the question with the status and the records it calls for, byte for byte as `answered` has
  it.

Every response is `Proper`. -/
theorem makeResponse_determined (tables : UnicodeTables) (query : Bytes) :
    ∃ response, makeResponse tables query = .ok response ∧
      (response = none ↔
        query.length < 12 ∨ QR query ∨ (opcode query = 0 ∧ qdcount query = 0)) ∧
      (response = some (headerOnly query 4) ↔ ¬ Dropped query ∧ opcode query ≠ 0) ∧
      (response = some (headerOnly query 1) ↔ ¬ Dropped query ∧ opcode query = 0 ∧
        (1 < qdcount query ∨ ¬ ∃ question, Asks query question)) ∧
      (¬ Dropped query → Bare (headerOnly query 4) 4 ∧ Bare (headerOnly query 1) 1) ∧
      (∀ question, ¬ Dropped query → opcode query = 0 → ¬ 1 < qdcount query →
        Asks query question → ∃ reply, response = some reply ∧ reply = answered query question ∧
          (question.queryClass ≠ classIN → Carries reply question 4 [] ∧ ¬ AA reply) ∧
          (question.queryClass = classIN → question.name.lowered ≠ [ascii "app", ascii "local"] →
            Carries reply question 3 []) ∧
          (question.queryClass = classIN → question.name.lowered = [ascii "app", ascii "local"] →
            question.type = typeA → Carries reply question 0 [aRecord]) ∧
          (question.queryClass = classIN → question.name.lowered = [ascii "app", ascii "local"] →
            question.type ≠ typeA → Carries reply question 0 [])) ∧
      ∀ reply, response = some reply → Proper tables query reply := by
  have bare : ¬ Dropped query → Bare (headerOnly query 4) 4 ∧ Bare (headerOnly query 1) 1 :=
    fun kept => ⟨headerOnly_bare (long_of_not_dropped kept) (by decide),
      headerOnly_bare (long_of_not_dropped kept) (by decide)⟩
  by_cases dropped : Dropped query
  · refine ⟨none, makeResponse_of_dropped tables dropped, iff_of_true rfl dropped, ?_, ?_, bare,
      fun _ kept => absurd dropped kept, by simp⟩
    · exact iff_of_false (by simp) fun kept => kept.1 dropped
    · exact iff_of_false (by simp) fun kept => kept.1 dropped
  · have long := long_of_not_dropped dropped
    by_cases standard : opcode query = 0
    · by_cases many : 1 < qdcount query
      · refine ⟨_, makeResponse_of_many tables dropped standard many,
          iff_of_false (by simp) dropped, ?_, ?_, bare, fun _ _ _ few => absurd many few, ?_⟩
        · refine iff_of_false ?_ fun other => other.2 standard
          rw [Option.some.injEq]
          exact headerOnly_ne (by decide)
        · exact iff_of_true rfl ⟨dropped, standard, .inl many⟩
        · intro reply same
          obtain rfl := Option.some.inj same
          exact headerOnly_proper tables long (by decide)
      · rcases makeResponse_of_single tables dropped standard many with
          ⟨question, asks, answer⟩ | ⟨unasking, answer⟩
        · refine ⟨_, answer, iff_of_false (by simp) dropped, ?_, ?_, bare, ?_, ?_⟩
          · refine iff_of_false ?_ fun other => other.2 standard
            rw [Option.some.injEq]
            exact (headerOnly_ne_answered long 4).symm
          · refine iff_of_false ?_ ?_
            · rw [Option.some.injEq]
              exact (headerOnly_ne_answered long 1).symm
            · intro malformed
              rcases malformed.2.2 with counted | unasking
              · exact many counted
              · exact unasking ⟨question, asks⟩
          · intro other _ _ _ alsoAsks
            obtain rfl := asks.unique alsoAsks
            exact ⟨_, rfl, rfl, answered_carries long question⟩
          · intro reply same
            obtain rfl := Option.some.inj same
            exact answered_proper tables long standard asks
        · refine ⟨_, answer, iff_of_false (by simp) dropped, ?_, ?_, bare, ?_, ?_⟩
          · refine iff_of_false ?_ fun other => other.2 standard
            rw [Option.some.injEq]
            exact headerOnly_ne (by decide)
          · refine iff_of_true rfl ⟨dropped, standard, .inr ?_⟩
            exact fun asking => unasking asking.choose asking.choose_spec
          · exact fun question _ _ _ asks => absurd asks (unasking question)
          · intro reply same
            obtain rfl := Option.some.inj same
            exact headerOnly_proper tables long (by decide)
    · refine ⟨_, makeResponse_of_opcode tables dropped standard, iff_of_false (by simp) dropped,
        iff_of_true rfl ⟨dropped, standard⟩, ?_, bare, fun _ _ zero => absurd zero standard, ?_⟩
      · refine iff_of_false ?_ fun malformed => standard malformed.2.1
        rw [Option.some.injEq]
        exact headerOnly_ne (by decide)
      · intro reply same
        obtain rfl := Option.some.inj same
        exact headerOnly_proper tables long (by decide)

end Law

end InfraFromScratch.Dns
