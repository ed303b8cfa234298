import InfraFromScratch.Dns.Answers
import InfraFromScratch.Http.DnsResponses

/-!
# Resolving a name through the DNS server

The client, in Python, encodes a host into a query and walks over the response; the
server, in Go, walks over the query and lays out the response. Between them both
messages are cut to 512 bytes.

A name that is too long for the cut query is a name the server finds incomplete, so it
answers every query (`resolve_agrees`). The client reads `127.0.0.1` out of the answer
to `app.local`, and raises `ValueError` for every other host and every other
transaction id.
-/

set_option autoImplicit false

namespace InfraFromScratch.Stack

open Foundations Dns Http DnsClient

/-- The size of the buffers on both sides. -/
def datagramSize : Nat := 512

/-- The question for the address of a name. -/
def addressQuestion (name : Name) : Question := ⟨name, 0, 1, 0, 1⟩

/-- The query as it arrives. -/
def arrivingQuery (high low : UInt8) (name : Name) : Bytes :=
  [high, low, 1, 0, 0, 1, 0, 0, 0, 0, 0, 0] ++ (addressQuestion name).wire.take 500

section Query

variable {host : String} {name : Name} {high low : UInt8}

/-- The client sends the question for its host. -/
theorem buildDnsQuery_eq (accepted : encodeDnsName host = .ok name.wire) :
    buildDnsQuery host (word high low) =
      .ok ([high, low, 1, 0, 0, 1, 0, 0, 0, 0, 0, 0] ++ (addressQuestion name).wire) := by
  have numbers : wordBytes 0x0100 = [1, 0] ∧ wordBytes 1 = [0, 1] ∧ wordBytes 0 = [0, 0] ∧
      wordBytes dnsTypeA = [0, 1] ∧ wordBytes dnsClassIN = [0, 1] := by decide
  obtain ⟨flags, one, zero, type, isClass⟩ := numbers
  rw [buildDnsQuery, accepted]
  simp only [wordBytes_word, flags, one, zero, type, isClass, addressQuestion, Question.wire]
  simp

theorem take_query (name : Name) :
    ([high, low, 1, 0, 0, 1, 0, 0, 0, 0, 0, 0] ++ (addressQuestion name).wire).take datagramSize =
      arrivingQuery high low name := by
  have short : [high, low, 1, 0, 0, 1, 0, 0, 0, 0, 0, 0].length ≤ datagramSize :=
    Nat.le_of_ble_eq_true rfl
  rw [List.take_append, List.take_of_length_le short]
  rfl

theorem arrivingQuery_drop : (arrivingQuery high low name).drop 12 =
    (addressQuestion name).wire.take 500 := rfl

theorem arrivingQuery_long : headerSize ≤ (arrivingQuery high low name).length := by
  rw [arrivingQuery, List.length_append]
  exact Nat.le_add_right 12 _

theorem arrivingQuery_length : (arrivingQuery high low name).length ≤ datagramSize := by
  rw [arrivingQuery, List.length_append, List.length_take, datagramSize]
  simp only [List.length_cons, List.length_nil]
  omega

theorem arrivingQuery_opcode : opcode (arrivingQuery high low name) = 0 := by
  have flags : field (arrivingQuery high low name) 2 = 1 := rfl
  rw [opcode, flags]
  decide

theorem arrivingQuery_qdcount : qdcount (arrivingQuery high low name) = 1 := word_toNat 0 1

theorem arrivingQuery_kept : ¬ Dropped (arrivingQuery high low name) := by
  intro dropped
  rcases dropped with short | response | ⟨-, unasked⟩
  · exact absurd arrivingQuery_long (not_le.mpr short)
  · have flags : field (arrivingQuery high low name) 2 = 1 := rfl
    rw [QR, flags] at response
    exact response (by decide)
  · rw [arrivingQuery_qdcount] at unasked
    exact absurd unasked (by decide)

/-- **The cut makes no other question**: what the server finds is what was asked. -/
theorem Asks.eq_addressQuestion {question : Question}
    (asks : Asks (arrivingQuery high low name) question) : question = addressQuestion name := by
  obtain ⟨rest, found⟩ := asks
  rw [arrivingQuery_drop] at found
  have whole : (addressQuestion name).wire = question.wire ++
      (rest ++ (addressQuestion name).wire.drop 500) := by
    rw [← List.append_assoc, ← found, List.take_append_drop]
  simp only [Question.wire, List.append_assoc] at whole
  obtain ⟨names, tails⟩ := Name.wire_append_inj whole
  simp only [List.cons_append, List.nil_append, List.cons.injEq] at tails
  obtain ⟨typeHigh, typeLow, classHigh, classLow, -⟩ := tails
  cases question
  simp_all [addressQuestion]

/-- A name that is short enough arrives. -/
theorem asks_of_known (known : name.lowered = [ascii "app", ascii "local"]) :
    Asks (arrivingQuery high low name) (addressQuestion name) := by
  have length : (addressQuestion name).wire.length = 15 := by
    rw [Question.wire_length, addressQuestion, wire_length_of_known known]
  refine ⟨[], ?_⟩
  rw [arrivingQuery_drop, List.take_of_length_le (by omega), List.append_nil]

end Query

/-! ## What the client makes of the answer -/

section Answer

variable {name : Name} {high low : UInt8}

/-- The A record of the server, whose name is a pointer to the question. -/
def aAnswer : AnswerRecord where
  name := ⟨[], .pointer 0xC0 0x0C (by decide)⟩
  type := 1
  recordClass := 1
  ttlHigh := 0
  ttlLow := 60
  data := [127, 0, 0, 1]
  short := by decide

theorem wire_aAnswer : aAnswer.wire = aRecord := by decide

/-- The answer to a known name, in its layout. -/
def knownAnswer (high low : UInt8) (name : Name) : Message where
  transaction := word high low
  flags := 0x8500
  isResponse := by decide
  successful := by decide
  authorities := 0
  additionals := 0
  question := ⟨name, .root⟩
  questionType := 1
  questionClass := 1
  records := [aAnswer]
  countable := by decide
  rest := []

/-- The server lays out its answer to a known name so. -/
theorem wire_knownAnswer {query : Bytes} (ids : transactionId query = [high, low])
    (flags : field query 2 = 1) (name : Name) :
    fullResponse query (addressQuestion name) 0x84 0 [aRecord] =
      (knownAnswer high low name).wire := by
  have sent : (0x84 : UInt8) ||| 1 &&& 0x01 = 0x85 := by decide
  have numbers : wordBytes 0x8500 = [0x85, 0] ∧ wordBytes 1 = [0, 1] ∧ wordBytes 0 = [0, 0] := by
    decide
  obtain ⟨flagBytes, one, zero⟩ := numbers
  rw [fullResponse, ids, flags, sent]
  simp [Message.wire, Message.header, knownAnswer, wordBytes_word, flagBytes, one, zero,
    wire_aAnswer, addressQuestion, Question.wire, Name.wire, WireName.wire, NameEnd.wire]

/-- **The address is found** in the answer to a known name. -/
theorem parseDnsAddress_fullResponse {query : Bytes} (ids : transactionId query = [high, low])
    (flags : field query 2 = 1) (name : Name) :
    parseDnsAddress (fullResponse query (addressQuestion name) 0x84 0 [aRecord])
      (word high low) = .ok "127.0.0.1" := by
  have address : firstAddress [aAnswer] = .ok "127.0.0.1" := by decide
  rw [wire_knownAnswer ids flags name]
  exact (parseDnsAddress_wire (knownAnswer high low name)).trans address

theorem id_of_echoes {query response : Bytes} (echoes : Echoes query response)
    (ids : transactionId query = [high, low]) :
    word (field response 0) (field response 1) = word high low := by
  have same := echoes.sameId.trans ids
  match response, same with
  | _ :: _ :: _, same =>
      obtain ⟨rfl, rest⟩ := List.cons.inj same
      obtain ⟨rfl, -⟩ := List.cons.inj rest
      rfl

/-- **Every query is answered**: a known name with its record, every other one with an
error. -/
theorem arrivingQuery_answer (tables : UnicodeTables) (high low : UInt8) (name : Name) :
    ∃ response, makeResponse tables (arrivingQuery high low name) = .ok (some response) ∧
      Proper tables (arrivingQuery high low name) response ∧ 12 ≤ response.length ∧
      ((name.lowered = [ascii "app", ascii "local"] ∧ response =
          fullResponse (arrivingQuery high low name) (addressQuestion name) 0x84 0 [aRecord]) ∨
        (name.lowered ≠ [ascii "app", ascii "local"] ∧ rcode response ≠ 0)) := by
  have long : headerSize ≤ (arrivingQuery high low name).length := arrivingQuery_long
  have standard : opcode (arrivingQuery high low name) = 0 := arrivingQuery_opcode
  have few : ¬ 1 < qdcount (arrivingQuery high low name) := by
    rw [arrivingQuery_qdcount]
    decide
  rcases makeResponse_of_single tables arrivingQuery_kept standard few with
    ⟨question, asks, answer⟩ | ⟨unasking, answer⟩
  · obtain rfl := Asks.eq_addressQuestion asks
    refine ⟨_, answer, answered_proper tables long standard asks, ?_, ?_⟩
    · obtain ⟨flags, code, records, same, -⟩ :=
        answered_shape (arrivingQuery high low name) (addressQuestion name)
      rw [same, fullResponse_length long, Nat.add_assoc]
      exact Nat.le_add_right 12 _
    · have one : word 0 1 = 1 := by decide
      have internet : (addressQuestion name).queryClass = classIN := one
      have address : (addressQuestion name).type = typeA := one
      rcases answered_cases (arrivingQuery high low name) (addressQuestion name) with
        ⟨foreign, -⟩ | ⟨-, unknown, same⟩ | ⟨-, known, -, same⟩ | ⟨-, -, other, -⟩
      · exact absurd internet foreign
      · refine .inr ⟨unknown, ?_⟩
        have carries : Carries (fullResponse (arrivingQuery high low name) (addressQuestion name)
            0x84 3 []) (addressQuestion name) 3 [] :=
          fullResponse_carries long (addressQuestion name) 0x84 (by decide) (by decide)
        rw [same, carries.status]
        decide
      · exact .inl ⟨known, same⟩
      · exact absurd address other
  · have bare : Bare (headerOnly (arrivingQuery high low name) 1) 1 :=
      headerOnly_bare long (by decide)
    refine ⟨_, answer, headerOnly_proper tables long (by decide), bare.size.ge, .inr ⟨?_, ?_⟩⟩
    · intro known
      exact unasking _ (asks_of_known known)
    · rw [bare.status]
      decide

end Answer

/-- **Client and server agree.** Every accepted host gets a response. The client reads
`127.0.0.1` out of it when the host is `app.local` up to case and trailing dots, and
raises `ValueError` for every other host, and for every other transaction id. -/
theorem resolve_agrees (tables : UnicodeTables) {host : String} {encoded : Bytes}
    (accepted : encodeDnsName host = .ok encoded) (transaction : UInt16) :
    ∃ query response, buildDnsQuery host transaction = .ok query ∧
      makeResponse tables (query.take datagramSize) = .ok (some response) ∧
      ((stripDots host).map Char.toLower = "app.local".toList →
        parseDnsAddress (response.take datagramSize) transaction = .ok "127.0.0.1") ∧
      ((stripDots host).map Char.toLower ≠ "app.local".toList →
        RaisesValueError (parseDnsAddress (response.take datagramSize) transaction)) ∧
      ∀ other, other ≠ transaction →
        RaisesValueError (parseDnsAddress (response.take datagramSize) other) := by
  obtain ⟨name, rfl, bytes, isAscii⟩ := exists_name_of_encodeDnsName accepted
  obtain ⟨high, low, -, rfl⟩ := word_wordBytes transaction
  have known_iff := lowered_eq_iff bytes isAscii
  obtain ⟨response, answer, proper, enough, kinds⟩ := arrivingQuery_answer tables high low name
  have ids : transactionId (arrivingQuery high low name) = [high, low] := rfl
  have uncut : response.take datagramSize = response := by
    refine List.take_of_length_le (proper.short.trans (max_le arrivingQuery_length ?_))
    decide
  have sameId := id_of_echoes proper.echoes ids
  refine ⟨_, response, buildDnsQuery_eq accepted, ?_, ?_, ?_, ?_⟩
  · rw [take_query, answer]
  · intro host
    rcases kinds with ⟨-, rfl⟩ | ⟨unknown, -⟩
    · rw [uncut]
      exact parseDnsAddress_fullResponse ids rfl name
    · exact absurd (known_iff.mpr host) unknown
  · intro host
    rcases kinds with ⟨known, -⟩ | ⟨-, failed⟩
    · exact absurd (known_iff.mp known) host
    · rw [uncut]
      exact parseDnsAddress_of_status enough sameId failed
  · intro other different
    rw [uncut]
    refine parseDnsAddress_of_id enough ?_
    rw [sameId]
    exact different.symm

/-- A host in mixed case with a trailing dot. -/
theorem resolve_agrees_sample : ∃ query response,
    buildDnsQuery "App.LOCAL." 0x1234 = .ok query ∧
      makeResponse ⟨id, id⟩ (query.take datagramSize) = .ok (some response) ∧
      parseDnsAddress (response.take datagramSize) 0x1234 = .ok "127.0.0.1" := by
  have accepted : encodeDnsName "App.LOCAL." =
      .ok ([3] ++ ascii "App" ++ [5] ++ ascii "LOCAL" ++ [0]) := by decide
  obtain ⟨query, response, built, answer, found, -⟩ :=
    resolve_agrees ⟨id, id⟩ accepted 0x1234
  exact ⟨query, response, built, answer, found (by decide)⟩

end InfraFromScratch.Stack
