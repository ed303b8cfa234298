import InfraFromScratch.Http.DnsClient

/-!
# What the client makes of a DNS response

`_parse_dns_address` moves one position through a packet whose lengths and counts come from
the network. Whatever the packet holds, the function reads inside it and ends with a dotted
quad or a `ValueError` (`parseDnsAddress_total`): the bounds are checked before every read,
slice and unpacking.

A packet that is laid out as the format says (`Message`) is read as it was laid out: the
result is the address of the first record that carries one (`parseDnsAddress_wire`). Names
may be any labels and end in the root or in a pointer.
-/

set_option autoImplicit false

namespace InfraFromScratch.Http.DnsClient

open Foundations Dns

/-! ## Every packet -/

/-- A name is skipped to a later position inside the packet, or a `ValueError` is raised. -/
theorem skipDnsName_total (packet : Bytes) (position : Nat) :
    (∃ next, skipDnsName packet position = .ok next ∧ position < next ∧ next ≤ packet.length) ∨
      ∃ text, skipDnsName packet position = .error (.valueError text) := by
  -- Every label moves the position forward, so the induction is on what is left of the packet.
  induction left : packet.length - position using Nat.strongRecOn generalizing position with
  | ind size ih =>
      rw [skipDnsName]
      by_cases outside : packet.length ≤ position
      · rw [if_pos outside]
        exact .inr ⟨_, rfl⟩
      · have inside : position < packet.length := not_le.mp outside
        have read : packetByte packet position = .ok packet[position] := by
          rw [packetByte, List.getElem?_eq_getElem inside]
        rw [if_neg outside, read]
        simp only [bind, Except.bind]
        split
        · exact .inl ⟨position + 1, rfl, by omega, by omega⟩
        · split
          · split
            · exact .inr ⟨_, rfl⟩
            · exact .inl ⟨position + 2, rfl, by omega, by omega⟩
          · split
            · exact .inr ⟨_, rfl⟩
            · split
              · exact .inr ⟨_, rfl⟩
              · rcases ih _ (by omega) (position + 1 + packet[position].toNat) rfl with
                  ⟨next, skipped, later, room⟩ | raised
                · exact .inl ⟨next, skipped, by omega, room⟩
                · exact .inr raised

/-- A slice inside a packet has the length that was asked for. -/
theorem slice_length {packet : Bytes} {position size : Nat}
    (room : position + size ≤ packet.length) :
    ((packet.take (position + size)).drop position).length = size := by
  rw [List.length_drop, List.length_take]
  omega

/-- Ten bytes are unpacked. -/
theorem unpackRecord_total {bytes : Bytes} (size : bytes.length = 10) :
    ∃ numbers, unpackRecord bytes = .ok numbers := by
  match bytes, size with
  | [a, b, c, d, e, f, g, h, i, j], _ => exact ⟨_, rfl⟩

/-- The result is the dotted quad of four bytes of the packet. -/
def ReturnsQuad (packet : Bytes) (result : Except PyError String) : Prop :=
  ∃ a b c d : UInt8, [a, b, c, d] <:+: packet ∧ result = .ok (inetNtoa [a, b, c, d])

/-- The four bytes of an address record are the address. -/
theorem returnsQuad_slice {packet : Bytes} {position : Nat} (room : position + 4 ≤ packet.length) :
    ReturnsQuad packet (.ok (inetNtoa ((packet.take (position + 4)).drop position))) := by
  have inside : (packet.take (position + 4)).drop position <:+: packet :=
    (List.drop_suffix _ _).isInfix.trans (List.take_prefix _ _).isInfix
  have size := slice_length room
  revert inside size
  generalize (packet.take (position + 4)).drop position = slice
  intro inside size
  match slice, size, inside with
  | [a, b, c, d], _, inside => exact ⟨a, b, c, d, inside, rfl⟩

/-- **The loop over the answers** ends in a quad or a `ValueError`. -/
theorem parseAnswers_total (packet : Bytes) (count position : Nat) :
    ReturnsQuad packet (parseAnswers packet count position) ∨
      RaisesValueError (parseAnswers packet count position) := by
  induction count generalizing position with
  | zero => exact .inr ⟨_, rfl⟩
  | succ count ih =>
      rw [parseAnswers]
      rcases skipDnsName_total packet position with ⟨next, skipped, -, -⟩ | ⟨text, raised⟩
      · rw [skipped]
        simp only [bind, Except.bind]
        split
        · exact .inr ⟨_, rfl⟩
        · rename_i enough
          obtain ⟨numbers, unpacked⟩ := unpackRecord_total (slice_length (not_lt.mp enough))
          rw [unpacked]
          dsimp only
          split
          · exact .inr ⟨_, rfl⟩
          · rename_i room
            split
            · rename_i isAddress
              rw [isAddress.2.2] at room ⊢
              exact .inl (returnsQuad_slice (not_lt.mp room))
            · exact ih _
      · rw [raised]
        exact .inr ⟨text, rfl⟩

/-- **Every packet** gives a quad of the packet or a `ValueError`. -/
theorem parseDnsAddress_total (packet : Bytes) (transaction : UInt16) :
    ReturnsQuad packet (parseDnsAddress packet transaction) ∨
      RaisesValueError (parseDnsAddress packet transaction) := by
  rw [parseDnsAddress]
  split
  · exact .inr ⟨_, rfl⟩
  · rename_i long
    rw [unpackHeader_eq (not_lt.mp long)]
    simp only [bind, Except.bind]
    split
    · exact .inr ⟨_, rfl⟩
    · split
      · exact .inr ⟨_, rfl⟩
      · split
        · exact .inr ⟨_, rfl⟩
        · rcases skipDnsName_total packet dnsHeaderSize with ⟨next, skipped, -, -⟩ | ⟨text, raised⟩
          · rw [skipped]
            dsimp only
            split
            · exact .inr ⟨_, rfl⟩
            · exact parseAnswers_total packet _ _
          · rw [raised]
            exact .inr ⟨text, rfl⟩

/-! ## The layout of a response -/

/-- How a name ends: in the root, or in a pointer of two bytes. -/
inductive NameEnd where
  | root
  | pointer (high low : UInt8) (marked : 0xC0 ≤ high.toNat)

def NameEnd.wire : NameEnd → Bytes
  | .root => [0]
  | .pointer high low _ => [high, low]

/-- A name in a response: labels and an end. -/
structure WireName where
  labels : Name
  ending : NameEnd

def WireName.wire (name : WireName) : Bytes :=
  name.labels.flatMap Label.wire ++ name.ending.wire

/-- An answer record. Its data has the length that the record says. -/
structure AnswerRecord where
  name : WireName
  type : UInt16
  recordClass : UInt16
  ttlHigh : UInt16
  ttlLow : UInt16
  data : Bytes
  short : data.length < 65536

/-- The numbers of a record between its name and its data. -/
def AnswerRecord.numbers (record : AnswerRecord) : Bytes :=
  wordBytes record.type ++ wordBytes record.recordClass ++ wordBytes record.ttlHigh ++
    wordBytes record.ttlLow ++ wordBytes (.ofNat record.data.length)

def AnswerRecord.wire (record : AnswerRecord) : Bytes :=
  record.name.wire ++ record.numbers ++ record.data

/-- The record is an IPv4 address: type A, class IN, four bytes. -/
def AnswerRecord.IsAddress (record : AnswerRecord) : Prop :=
  record.type = 1 ∧ record.recordClass = 1 ∧ record.data.length = 4

instance (record : AnswerRecord) : Decidable record.IsAddress :=
  inferInstanceAs (Decidable (_ ∧ _))

/-- The address of the first record that is one, or the error that there is none. -/
def firstAddress (records : List AnswerRecord) : Except PyError String :=
  match records.find? fun record => record.IsAddress with
  | some record => .ok (inetNtoa record.data)
  | none => .error (.valueError "DNS response did not contain an IPv4 address")

/-- A successful response to one question, with any answers and anything after them. -/
structure Message where
  transaction : UInt16
  flags : UInt16
  isResponse : flags &&& 0x8000 ≠ 0
  successful : flags &&& 0x000F = 0
  authorities : UInt16
  additionals : UInt16
  question : WireName
  questionType : UInt16
  questionClass : UInt16
  records : List AnswerRecord
  countable : records.length < 65536
  rest : Bytes

/-- The header, which counts one question and the records. -/
def Message.header (message : Message) : Bytes :=
  wordBytes message.transaction ++ wordBytes message.flags ++ wordBytes 1 ++
    wordBytes (.ofNat message.records.length) ++ wordBytes message.authorities ++
    wordBytes message.additionals

def Message.wire (message : Message) : Bytes :=
  message.header ++ message.question.wire ++
    (wordBytes message.questionType ++ wordBytes message.questionClass) ++
    message.records.flatMap AnswerRecord.wire ++ message.rest

/-! ## Reading it back -/

/-- A part of a packet is its slice. -/
theorem slice_append (front middle back : Bytes) :
    ((front ++ middle ++ back).take (front.length + middle.length)).drop front.length = middle := by
  rw [List.take_left' List.length_append, List.drop_left]

theorem skipDnsName_ending (before : Bytes) (ending : NameEnd) (after : Bytes) :
    skipDnsName (before ++ ending.wire ++ after) before.length =
      .ok (before ++ ending.wire).length := by
  rw [List.append_assoc, List.length_append]
  cases ending with
  | root => exact skipDnsName_root before after
  | pointer high low marked => exact skipDnsName_pointer before after marked low

theorem skipDnsName_wire (before : Bytes) (name : WireName) (after : Bytes) :
    skipDnsName (before ++ name.wire ++ after) before.length =
      .ok (before ++ name.wire).length := by
  have labels := skipDnsName_labels before name.labels (name.ending.wire ++ after)
  have ending := skipDnsName_ending (before ++ name.labels.flatMap Label.wire) name.ending after
  simp only [WireName.wire, List.append_assoc] at labels ending ⊢
  rw [labels, ending]

theorem unpackRecord_numbers (record : AnswerRecord) :
    unpackRecord record.numbers = .ok (record.type, record.recordClass, .ofNat record.data.length) := by
  show Except.ok (word _ _, word _ _, word _ _) = _
  rw [word_bytes, word_bytes, word_bytes]

theorem AnswerRecord.numbers_length (record : AnswerRecord) : record.numbers.length = 10 := rfl

theorem AnswerRecord.length_toNat (record : AnswerRecord) :
    (UInt16.ofNat record.data.length).toNat = record.data.length :=
  UInt16.toNat_ofNat_of_lt' record.short

/-- **One record.** The address of an address record is returned, and every other record is
passed over. -/
theorem parseAnswers_record (front : Bytes) (record : AnswerRecord) (rest : Bytes) (count : Nat) :
    parseAnswers (front ++ record.wire ++ rest) (count + 1) front.length =
      if record.IsAddress then .ok (inetNtoa record.data)
      else parseAnswers (front ++ record.wire ++ rest) count (front ++ record.wire).length := by
  have parts : front ++ record.wire ++ rest =
      front ++ record.name.wire ++ record.numbers ++ record.data ++ rest := by
    simp only [AnswerRecord.wire, List.append_assoc]
  have skipped : skipDnsName (front ++ record.wire ++ rest) front.length =
      .ok (front ++ record.name.wire).length := by
    rw [parts, List.append_assoc _ record.data, List.append_assoc _ record.numbers]
    exact skipDnsName_wire front record.name _
  have numbers : ((front ++ record.wire ++ rest).take
      ((front ++ record.name.wire).length + 10)).drop
        (front ++ record.name.wire).length = record.numbers := by
    rw [parts, List.append_assoc _ record.data, ← record.numbers_length]
    exact slice_append _ record.numbers _
  have address : ((front ++ record.wire ++ rest).take
      ((front ++ record.name.wire).length + 10 + record.data.length)).drop
        ((front ++ record.name.wire).length + 10) = record.data := by
    rw [parts, ← record.numbers_length, ← List.length_append]
    exact slice_append _ record.data rest
  have after : (front ++ record.wire).length =
      (front ++ record.name.wire).length + 10 + record.data.length := by
    simp only [AnswerRecord.wire, List.length_append, record.numbers_length]
    omega
  have total : (front ++ record.wire ++ rest).length =
      (front ++ record.wire).length + rest.length := List.length_append
  rw [parseAnswers, skipped]
  simp only [bind, Except.bind]
  rw [if_neg (by omega), numbers, unpackRecord_numbers]
  dsimp only
  rw [record.length_toNat, if_neg (by omega), address, after]
  rfl

/-- **The records** are read one after another, up to the first address. -/
theorem parseAnswers_records (front : Bytes) (records : List AnswerRecord) (rest : Bytes) :
    parseAnswers (front ++ records.flatMap AnswerRecord.wire ++ rest) records.length front.length =
      firstAddress records := by
  induction records generalizing front with
  | nil => rfl
  | cons record records ih =>
      have parts : front ++ (record :: records).flatMap AnswerRecord.wire ++ rest =
          front ++ record.wire ++ (records.flatMap AnswerRecord.wire ++ rest) := by
        simp only [List.flatMap_cons, List.append_assoc]
      rw [parts, List.length_cons, parseAnswers_record, ← List.append_assoc,
        ih (front ++ record.wire)]
      by_cases isAddress : record.IsAddress
      · simp only [firstAddress, List.find?_cons, isAddress, decide_true, if_true]
      · simp only [firstAddress, List.find?_cons, isAddress, decide_false, if_false]

theorem unpackHeader_header (message : Message) :
    unpackHeader message.header =
      .ok (message.transaction, message.flags, 1, .ofNat message.records.length) := by
  show Except.ok (word _ _, word _ _, word _ _, word _ _) = _
  rw [word_bytes, word_bytes, word_bytes, word_bytes]

/-- **A response is read as it was laid out**: the result is the address of the first record
that is one. -/
theorem parseDnsAddress_wire (message : Message) :
    parseDnsAddress message.wire message.transaction =
      firstAddress message.records := by
  have headerLength : message.header.length = 12 := rfl
  have parts : message.wire = message.header ++ message.question.wire ++
      (wordBytes message.questionType ++ wordBytes message.questionClass ++
        (message.records.flatMap AnswerRecord.wire ++ message.rest)) := by
    simp only [Message.wire, List.append_assoc]
  have long : message.wire.length = 12 + message.question.wire.length + 4 +
      (message.records.flatMap AnswerRecord.wire ++ message.rest).length := by
    rw [parts]
    simp only [List.length_append, headerLength, wordBytes, List.length_cons, List.length_nil]
    omega
  have unpacked : unpackHeader (message.wire.take dnsHeaderSize) =
      .ok (message.transaction, message.flags, 1, .ofNat message.records.length) := by
    rw [parts, List.append_assoc]
    exact unpackHeader_header message
  have skipped : skipDnsName message.wire dnsHeaderSize =
      .ok (12 + message.question.wire.length) := by
    rw [parts]
    have name := skipDnsName_wire message.header message.question
      (wordBytes message.questionType ++ wordBytes message.questionClass ++
        (message.records.flatMap AnswerRecord.wire ++ message.rest))
    rwa [List.length_append, headerLength] at name
  have count : (UInt16.ofNat message.records.length).toNat = message.records.length :=
    UInt16.toNat_ofNat_of_lt' message.countable
  have front : (message.header ++ message.question.wire ++
      (wordBytes message.questionType ++ wordBytes message.questionClass)).length =
        12 + message.question.wire.length + 4 := by
    rw [List.length_append, List.length_append, headerLength]
    rfl
  have answers : parseAnswers message.wire message.records.length
      (12 + message.question.wire.length + 4) = firstAddress message.records := by
    rw [← front]
    exact parseAnswers_records _ message.records message.rest
  rw [parseDnsAddress, if_neg (by unfold dnsHeaderSize; omega), unpacked]
  simp only [bind, Except.bind]
  rw [if_neg (not_not.mpr rfl), if_neg, if_neg (by decide), skipped]
  · dsimp only
    rw [if_neg (by omega), count]
    exact answers
  · exact not_or.mpr ⟨message.isResponse, not_not.mpr message.successful⟩

/-- There is no address exactly when a `ValueError` is raised. -/
theorem raises_firstAddress_iff (records : List AnswerRecord) :
    RaisesValueError (firstAddress records) ↔ ∀ record ∈ records, ¬ record.IsAddress := by
  unfold firstAddress
  cases found : records.find? fun record => record.IsAddress with
  | none =>
      refine iff_of_true ⟨_, rfl⟩ fun record member => ?_
      simpa using List.find?_eq_none.mp found record member
  | some record =>
      refine iff_of_false (fun raised => ?_) fun noAddress => ?_
      · obtain ⟨text, same⟩ := raised
        cases same
      · exact noAddress record (List.mem_of_find?_eq_some found) (by simpa using List.find?_some found)

/-- **Reading a response.** Whatever the packet and the id, the result is the dotted quad of
four bytes of the packet, or a `ValueError`. For a packet that is laid out as a successful
response to one question, it is the address in the first record of type A, class IN and
four bytes, and a `ValueError` exactly when there is no such record. -/
theorem parseDnsAddress_reads :
    (∀ (packet : Bytes) (transaction : UInt16),
      ReturnsQuad packet (parseDnsAddress packet transaction) ∨
        RaisesValueError (parseDnsAddress packet transaction)) ∧
    ∀ message : Message,
      (∀ before record after, message.records = before ++ record :: after →
        (∀ earlier ∈ before, ¬ earlier.IsAddress) → record.IsAddress →
          parseDnsAddress message.wire message.transaction = .ok (inetNtoa record.data)) ∧
      (RaisesValueError (parseDnsAddress message.wire message.transaction) ↔
        ∀ record ∈ message.records, ¬ record.IsAddress) := by
  refine ⟨parseDnsAddress_total, fun message => ⟨?_, ?_⟩⟩
  · intro before record after split earlier isAddress
    have noAddress : before.find? (fun record => record.IsAddress) = none := by
      rw [List.find?_eq_none]
      intro other member
      simpa using earlier other member
    rw [parseDnsAddress_wire, firstAddress, split, List.find?_append, noAddress, Option.none_or,
      List.find?_cons, decide_eq_true isAddress]
  · rw [parseDnsAddress_wire]
    exact raises_firstAddress_iff message.records

end InfraFromScratch.Http.DnsClient
