import InfraFromScratch.Dns.Message
import InfraFromScratch.Foundations.PythonText

/-!
# The DNS client of the HTTP client

`http-server/client.py` builds a query for one A record and reads the address out of
the response. Python checks indexing and unpacking, and so does the model: reading past
the packet or unpacking the wrong number of bytes is an error of its own kind, next to
the `ValueError`s that the code raises.
-/

set_option autoImplicit false

namespace InfraFromScratch.Http.DnsClient

open Foundations Dns

/-- The exceptions that can leave the functions below. -/
inductive PyError where
  | valueError (text : String)
  | indexError
  | structError
  deriving DecidableEq, Repr

/-- `DNS_HEADER_SIZE`. -/
def dnsHeaderSize : Nat := 12

/-- `DNS_TYPE_A`. -/
def dnsTypeA : UInt16 := 1

/-- `DNS_CLASS_IN`. -/
def dnsClassIN : UInt16 := 1

/-! ## Queries -/

/-- `host.rstrip(".")`. -/
def stripDots (host : String) : List Char := host.toList.rdropWhile (· == '.')

/-- The loop of `_encode_dns_name` over the labels. -/
def encodeLabels : List (List Char) → Except PyError Bytes
  | [] => .ok []
  | label :: labels =>
      if label.all fun character => character.toNat < 128 then
        if 63 < label.length then .error (.valueError "DNS labels are limited to 63 bytes")
        else
          match encodeLabels labels with
          | .error reason => .error reason
          | .ok rest =>
              .ok (.ofNat label.length ::
                (label.map fun character => UInt8.ofNat character.toNat) ++ rest)
      else .error (.valueError "DNS names must use ASCII labels")

/-- `_encode_dns_name`. -/
def encodeDnsName (host : String) : Except PyError Bytes :=
  let labels := (stripDots host).splitOn '.'
  if host = "" ∨ labels.any List.isEmpty then .error (.valueError "Invalid DNS name")
  else
    match encodeLabels labels with
    | .error reason => .error reason
    | .ok encoded => .ok (encoded ++ [0])

/-- `_build_dns_query`. -/
def buildDnsQuery (host : String) (transaction : UInt16) : Except PyError Bytes :=
  match encodeDnsName host with
  | .error reason => .error reason
  | .ok name =>
      .ok (wordBytes transaction ++ wordBytes 0x0100 ++ wordBytes 1 ++ wordBytes 0 ++
        wordBytes 0 ++ wordBytes 0 ++ (name ++ wordBytes dnsTypeA ++ wordBytes dnsClassIN))

/-! ## Responses -/

/-- `packet[position]`. -/
def packetByte (packet : Bytes) (position : Nat) : Except PyError UInt8 :=
  match packet[position]? with
  | some byte => .ok byte
  | none => .error .indexError

/-- `_skip_dns_name`. -/
def skipDnsName (packet : Bytes) (position : Nat) : Except PyError Nat :=
  if packet.length ≤ position then .error (.valueError "truncated DNS name")
  else do
    let length := (← packetByte packet position).toNat
    if length = 0 then return position + 1
    else if length &&& 0xC0 = 0xC0 then
      if packet.length < position + 2 then throw (.valueError "truncated DNS pointer")
      else return position + 2
    else if length &&& 0xC0 ≠ 0 then throw (.valueError "invalid DNS label")
    else if packet.length < position + 1 + length then throw (.valueError "truncated DNS label")
    else skipDnsName packet (position + 1 + length)
termination_by packet.length - position
decreasing_by omega

/-- `struct.unpack("!HHHHHH", ...)`, of which the first four numbers are used. -/
def unpackHeader : Bytes → Except PyError (UInt16 × UInt16 × UInt16 × UInt16)
  | [a, b, c, d, e, f, g, h, _, _, _, _] => .ok (word a b, word c d, word e f, word g h)
  | _ => .error .structError

/-- `struct.unpack("!HHIH", ...)` without the time to live. -/
def unpackRecord : Bytes → Except PyError (UInt16 × UInt16 × UInt16)
  | [a, b, c, d, _, _, _, _, i, j] => .ok (word a b, word c d, word i j)
  | _ => .error .structError

/-- `socket.inet_ntoa` of four bytes. -/
def inetNtoa (address : Bytes) : String :=
  String.intercalate "." (address.map fun byte => byte.toNat.repr)

/-- The loop of `_parse_dns_address` over the remaining answers. -/
def parseAnswers (packet : Bytes) : Nat → Nat → Except PyError String
  | 0, _ => .error (.valueError "DNS response did not contain an IPv4 address")
  | count + 1, position => do
      let position ← skipDnsName packet position
      if packet.length < position + 10 then throw (.valueError "truncated DNS answer")
      let (recordType, recordClass, dataLength) ←
        unpackRecord ((packet.take (position + 10)).drop position)
      let position := position + 10
      if packet.length < position + dataLength.toNat then
        throw (.valueError "truncated DNS answer data")
      if recordType = dnsTypeA ∧ recordClass = dnsClassIN ∧ dataLength.toNat = 4 then
        return inetNtoa ((packet.take (position + dataLength.toNat)).drop position)
      parseAnswers packet count (position + dataLength.toNat)

/-- `_parse_dns_address`. -/
def parseDnsAddress (packet : Bytes) (transaction : UInt16) : Except PyError String := do
  if packet.length < dnsHeaderSize then throw (.valueError "truncated DNS response")
  let (responseId, flags, questionCount, answerCount) ←
    unpackHeader (packet.take dnsHeaderSize)
  if responseId ≠ transaction then throw (.valueError "unexpected DNS transaction ID")
  if flags &&& 0x8000 = 0 ∨ flags &&& 0x000F ≠ 0 then
    throw (.valueError "DNS response was not successful")
  if questionCount ≠ 1 then throw (.valueError "DNS response did not contain one question")
  let position ← skipDnsName packet dnsHeaderSize
  if packet.length < position + 4 then throw (.valueError "truncated DNS question")
  parseAnswers packet answerCount.toNat (position + 4)

/-! ## Accepted names -/

/-- The bytes of an ASCII label. -/
def labelBytes (label : List Char) : Bytes := label.map fun character => UInt8.ofNat character.toNat

/-- The name of accepted labels. -/
theorem exists_name_of_encodeLabels {labels : List (List Char)} {encoded : Bytes}
    (nonempty : ∀ label ∈ labels, label ≠ []) (accepted : encodeLabels labels = .ok encoded) :
    ∃ name : Name, encoded = name.flatMap Label.wire ∧
      name.map Label.bytes = labels.map labelBytes ∧
      ∀ label ∈ labels, ∀ character ∈ label, character.toNat < 128 := by
  induction labels generalizing encoded with
  | nil =>
      obtain rfl := Except.ok.inj accepted
      exact ⟨[], rfl, rfl, by simp⟩
  | cons label labels ih =>
      rw [encodeLabels] at accepted
      split at accepted
      · rename_i isAscii
        split at accepted
        · cases accepted
        · rename_i short
          split at accepted
          · cases accepted
          · rename_i rest encodedRest
            obtain rfl := Except.ok.inj accepted
            obtain ⟨name, rfl, bytes, restAscii⟩ :=
              ih (fun other member => nonempty other (List.mem_cons_of_mem _ member)) encodedRest
            have positive : 1 ≤ label.length :=
              List.length_pos_of_ne_nil (nonempty label List.mem_cons_self)
            have size : (labelBytes label).length = label.length := List.length_map _
            refine ⟨⟨labelBytes label, by omega, by omega⟩ :: name, ?_, ?_, ?_⟩
            · simp only [List.flatMap_cons, Label.wire, size]
              rfl
            · rw [List.map_cons, List.map_cons, bytes]
            · intro other member
              rcases List.mem_cons.mp member with rfl | later
              · intro character inLabel
                exact of_decide_eq_true (List.all_eq_true.mp isAscii character inLabel)
              · exact restAscii other later
      · cases accepted

/-- **An accepted host is a name on the wire**, with the parts of the host between its dots
as labels. -/
theorem exists_name_of_encodeDnsName {host : String} {encoded : Bytes}
    (accepted : encodeDnsName host = .ok encoded) :
    ∃ name : Name, encoded = name.wire ∧
      name.map Label.bytes = ((stripDots host).splitOn '.').map labelBytes ∧
      ∀ label ∈ (stripDots host).splitOn '.', ∀ character ∈ label, character.toNat < 128 := by
  simp only [encodeDnsName] at accepted
  split at accepted
  · cases accepted
  · rename_i complete
    split at accepted
    · cases accepted
    · rename_i labels encodedLabels
      obtain rfl := Except.ok.inj accepted
      have nonempty : ∀ label ∈ (stripDots host).splitOn '.', label ≠ [] := by
        intro label member empty
        exact complete (.inr (List.any_eq_true.mpr ⟨label, member, by rw [empty]; rfl⟩))
      obtain ⟨name, rfl, bytes, isAscii⟩ := exists_name_of_encodeLabels nonempty encodedLabels
      exact ⟨name, rfl, bytes, isAscii⟩

/-! ## Names up to case -/

/-- Both notions of lower case agree on ASCII. -/
theorem asciiLower_ofNat {character : Char} (small : character.toNat < 128) :
    asciiLower (.ofNat character.toNat) = .ofNat character.toLower.toNat :=
  forall_ascii (fun character => asciiLower (.ofNat character.toNat) =
    .ofNat character.toLower.toNat) (by decide +kernel) small

/-- Lower case neither makes nor removes a dot. -/
theorem toLower_eq_dot_iff (character : Char) : character.toLower = '.' ↔ character = '.' := by
  by_cases small : character.toNat < 128
  · exact forall_ascii (fun character => character.toLower = '.' ↔ character = '.')
      (by decide +kernel) small
  · have kept : character.toLower = character := by
      rw [Char.toLower]
      refine dif_neg fun upper => small ?_
      exact Nat.lt_of_le_of_lt upper.2 (by decide)
    rw [kept]

/-- The byte of an ASCII character is read back as the character. -/
theorem ofNat_toLower {character : Char} (small : character.toNat < 128) :
    Char.ofNat (UInt8.ofNat character.toLower.toNat).toNat = character.toLower :=
  forall_ascii (fun character => Char.ofNat (UInt8.ofNat character.toLower.toNat).toNat =
    character.toLower) (by decide +kernel) small

/-- Splitting at dots commutes with lower case. -/
theorem splitOn_map_toLower (text : List Char) :
    (text.map Char.toLower).splitOn '.' = (text.splitOn '.').map (List.map Char.toLower) := by
  induction text with
  | nil => rfl
  | cons character text ih =>
      have dot := toLower_eq_dot_iff character
      rw [List.map_cons, List.splitOn_cons_eq_if_modifyHead, List.splitOn_cons_eq_if_modifyHead,
        ih]
      by_cases here : character = '.'
      · rw [if_pos (beq_iff_eq.mpr (dot.mpr here)), if_pos (beq_iff_eq.mpr here)]
        rfl
      · rw [if_neg (by rw [beq_iff_eq, dot]; exact here), if_neg (by rw [beq_iff_eq]; exact here)]
        cases text.splitOn '.' with
        | nil => rfl
        | cons label labels => rfl

/-- The labels of a name are `app` and `local` up to case when the host is `app.local`. -/
theorem lowered_eq_iff {name : Name} {text : List Char}
    (bytes : name.map Label.bytes = (text.splitOn '.').map labelBytes)
    (isAscii : ∀ label ∈ text.splitOn '.', ∀ character ∈ label, character.toNat < 128) :
    name.lowered = [ascii "app", ascii "local"] ↔
      text.map Char.toLower = "app.local".toList := by
  have lowered : name.lowered =
      ((text.splitOn '.').map (List.map Char.toLower)).map labelBytes := by
    have first : name.lowered = (name.map Label.bytes).map (List.map asciiLower) := by
      rw [Name.lowered, List.map_map]
      rfl
    rw [first, bytes, List.map_map, List.map_map]
    refine List.map_congr_left fun label member => ?_
    simp only [Function.comp_apply, labelBytes, List.map_map]
    exact List.map_congr_left fun character inLabel =>
      asciiLower_ofNat (isAscii label member character inLabel)
  have readBack : ((text.splitOn '.').map (List.map Char.toLower)).map
      (fun label => (labelBytes label).map fun byte => Char.ofNat byte.toNat) =
        (text.splitOn '.').map (List.map Char.toLower) := by
    rw [List.map_map]
    refine List.map_congr_left fun label member => ?_
    simp only [Function.comp_apply, labelBytes, List.map_map]
    exact List.map_congr_left fun character inLabel =>
      ofNat_toLower (isAscii label member character inLabel)
  rw [lowered, ← splitOn_map_toLower] at *
  constructor
  · intro same
    have labels : (text.map Char.toLower).splitOn '.' = ["app".toList, "local".toList] := by
      rw [← readBack]
      have mapped := congrArg (List.map fun bytes : Bytes =>
        bytes.map fun byte => Char.ofNat byte.toNat) same
      rw [List.map_map] at mapped
      exact mapped.trans (by decide)
    have joined : ['.'].intercalate ((text.map Char.toLower).splitOn '.') =
        text.map Char.toLower := List.intercalate_splitOn '.'
    rw [← joined, labels]
    decide
  · intro same
    rw [same]
    decide

/-! ## Reading a response -/

theorem packetByte_append (before after : Bytes) (byte : UInt8) :
    packetByte (before ++ byte :: after) before.length = .ok byte := by
  simp [packetByte]

/-- The root of a name is skipped. -/
theorem skipDnsName_root (before after : Bytes) :
    skipDnsName (before ++ 0 :: after) before.length = .ok (before.length + 1) := by
  rw [skipDnsName, if_neg (by simp), packetByte_append]
  rfl

/-- A pointer is skipped. -/
theorem skipDnsName_pointer (before after : Bytes) {high : UInt8} (pointer : 0xC0 ≤ high.toNat)
    (low : UInt8) :
    skipDnsName (before ++ (high :: low :: after)) before.length = .ok (before.length + 2) := by
  have mask : ∀ byte : UInt8, 0xC0 ≤ byte.toNat → byte.toNat &&& 0xC0 = 0xC0 :=
    forall_byte (by decide +kernel)
  rw [skipDnsName, if_neg (by simp), packetByte_append]
  simp only [bind, Except.bind, mask high pointer]
  rw [if_neg (by omega), if_pos trivial, if_neg (by simp)]
  rfl

/-- A label is skipped. -/
theorem skipDnsName_label (before : Bytes) (label : Label) (after : Bytes) :
    skipDnsName (before ++ (label.wire ++ after)) before.length =
      skipDnsName (before ++ (label.wire ++ after)) (before ++ label.wire).length := by
  have nonempty := label.nonempty
  have short := label.short
  have mask : label.bytes.length &&& 0xC0 = 0 := by
    have all : ∀ small < 64, small &&& 0xC0 = 0 := by decide
    exact all _ (by omega)
  have moved : (before ++ label.wire).length = before.length + 1 + label.bytes.length := by
    rw [List.length_append, Label.wire, List.length_cons]
    omega
  have room : (before ++ label.wire).length ≤ (before ++ (label.wire ++ after)).length := by
    simp only [List.length_append]
    omega
  have first : packetByte (before ++ (label.wire ++ after)) before.length =
      .ok (.ofNat label.bytes.length) := packetByte_append before (label.bytes ++ after) _
  conv_lhs => rw [skipDnsName]
  rw [if_neg (by omega), first]
  simp only [bind, Except.bind, label.length_toNat, mask]
  rw [if_neg (by omega), if_neg (by decide), if_neg (by simp), if_neg (by omega), moved]

theorem skipDnsName_labels (before : Bytes) (name : Name) (after : Bytes) :
    skipDnsName (before ++ (name.flatMap Label.wire ++ after)) before.length =
      skipDnsName (before ++ (name.flatMap Label.wire ++ after))
        (before ++ name.flatMap Label.wire).length := by
  induction name generalizing before with
  | nil => simp
  | cons label name ih =>
      have next := ih (before ++ label.wire)
      rw [List.append_assoc, List.append_assoc] at next
      rw [List.flatMap_cons, List.append_assoc, skipDnsName_label, next]

/-- The exception is a `ValueError`. -/
def RaisesValueError (result : Except PyError String) : Prop :=
  ∃ text, result = .error (.valueError text)

/-- A packet with a header is unpacked. -/
theorem unpackHeader_eq {packet : Bytes} (long : 12 ≤ packet.length) :
    unpackHeader (packet.take dnsHeaderSize) =
      .ok (word (field packet 0) (field packet 1), word (field packet 2) (field packet 3),
        word (field packet 4) (field packet 5), word (field packet 6) (field packet 7)) := by
  match packet, long with
  | _ :: _ :: _ :: _ :: _ :: _ :: _ :: _ :: _ :: _ :: _ :: _ :: _, _ => rfl

/-- A packet with another transaction id is refused. -/
theorem parseDnsAddress_of_id {packet : Bytes} {transaction : UInt16} (long : 12 ≤ packet.length)
    (other : word (field packet 0) (field packet 1) ≠ transaction) :
    RaisesValueError (parseDnsAddress packet transaction) := by
  refine ⟨"unexpected DNS transaction ID", ?_⟩
  rw [parseDnsAddress, if_neg (by unfold dnsHeaderSize; omega)]
  simp only [bind, Except.bind, unpackHeader_eq long, if_pos other]
  rfl

/-- A packet with an error status is refused. -/
theorem parseDnsAddress_of_status {packet : Bytes} {transaction : UInt16}
    (long : 12 ≤ packet.length)
    (same : word (field packet 0) (field packet 1) = transaction) (failed : rcode packet ≠ 0) :
    RaisesValueError (parseDnsAddress packet transaction) := by
  have status : word (field packet 2) (field packet 3) &&& 0x000F ≠ 0 := by
    rw [show (0x000F : UInt16) = word 0 0x0F by decide, word_and]
    intro zero
    exact failed (word_inj (zero.trans (show (0 : UInt16) = word 0 0 by decide))).2
  refine ⟨"DNS response was not successful", ?_⟩
  rw [parseDnsAddress, if_neg (by unfold dnsHeaderSize; omega)]
  simp only [bind, Except.bind, unpackHeader_eq long, if_neg (not_not.mpr same),
    if_pos (Or.inr status)]
  rfl

end InfraFromScratch.Http.DnsClient
