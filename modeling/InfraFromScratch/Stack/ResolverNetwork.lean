import InfraFromScratch.Foundations.Datagrams
import InfraFromScratch.Stack.NameResolution

/-!
# Many resolvers and one DNS server

`main` in `dns-server/server.go` reads every datagram into one buffer of 512 bytes and answers the
part of the buffer that was filled. `DNSResolver.resolve` in `http-server/client.py` sends its query
from a port of its own, which is free again when the call is over, and takes the first datagram that
comes to the port. The network may lose, repeat, delay and reorder datagrams, and others may send to
the server what they like; to the ports of the resolvers only the server sends.

What an earlier datagram has left in the buffer does not show in a reply, and the server does not
fail on any datagram. But all resolvers use one transaction id, and `resolve` compares neither the
question nor the sender: a resolver that gets a port to which the reply to an earlier one is still
under way takes that reply for its own (`reused_port_misleads`). Where that does not happen, no
resolver takes the answer to another one's question (`resolve_over_network`).
-/

set_option autoImplicit false

namespace InfraFromScratch.Stack

open Foundations Dns Http DnsClient

/-! ## The server -/

/-- `server.ReadFrom(buffer)`: the buffer is filled from its start, and what does not fit is lost. -/
def readFrom (buffer datagram : Bytes) : Bytes × Nat :=
  let size := min datagram.length buffer.length
  (datagram.take size ++ buffer.drop size, size)

/-- One round of the loop of `main`, with the buffer that is left and the datagram that is sent. -/
def serveDatagram (tables : UnicodeTables) (buffer datagram : Bytes) :
    Except Panic (Bytes × Option Bytes) :=
  let (buffer, size) := readFrom buffer datagram
  (makeResponse tables (buffer.take size)).map fun response => (buffer, response)

theorem readFrom_eq (buffer datagram : Bytes) :
    (readFrom buffer datagram).1.take (readFrom buffer datagram).2 =
        datagram.take buffer.length ∧
      (readFrom buffer datagram).1.length = buffer.length := by
  unfold readFrom
  dsimp only
  have size : (datagram.take (min datagram.length buffer.length)).length =
      min datagram.length buffer.length := by
    rw [List.length_take, min_eq_left (min_le_left _ _)]
  refine ⟨?_, ?_⟩
  · rw [List.take_left' size]
    rw [min_comm]
    exact (List.take_eq_take_min).symm
  · rw [List.length_append, size, List.length_drop]
    omega

/-- No datagram makes the server panic. -/
theorem exists_makeResponse (tables : UnicodeTables) (query : Bytes) :
    ∃ response, makeResponse tables query = .ok response := by
  by_cases dropped : Dropped query
  · exact ⟨_, makeResponse_of_dropped tables dropped⟩
  · by_cases standard : opcode query = 0
    · by_cases many : 1 < qdcount query
      · exact ⟨_, makeResponse_of_many tables dropped standard many⟩
      · rcases makeResponse_of_single tables dropped standard many with
          ⟨question, -, answer⟩ | ⟨-, answer⟩
        · exact ⟨_, answer⟩
        · exact ⟨_, answer⟩
    · exact ⟨_, makeResponse_of_opcode tables dropped standard⟩

/-- The reply to a datagram, whatever is in the buffer. -/
def replyTo (tables : UnicodeTables) (datagram : Bytes) : Option Bytes :=
  match makeResponse tables (datagram.take datagramSize) with
  | .ok response => response
  | .error _ => none

/-- **The server forgets**: it never panics, and its reply depends on the datagram alone. -/
theorem serveDatagram_eq (tables : UnicodeTables) {buffer : Bytes}
    (size : buffer.length = datagramSize) (datagram : Bytes) :
    ∃ after, serveDatagram tables buffer datagram = .ok (after, replyTo tables datagram) ∧
      after.length = datagramSize := by
  obtain ⟨filled, kept⟩ := readFrom_eq buffer datagram
  rw [size] at filled kept
  obtain ⟨response, made⟩ : ∃ response, makeResponse tables (datagram.take datagramSize) =
      .ok response := exists_makeResponse tables _
  refine ⟨(readFrom buffer datagram).1, ?_, kept⟩
  rw [serveDatagram]
  dsimp only
  rw [filled, replyTo, made]
  rfl

/-! ## Hosts -/

/-- The host is `app.local`, up to case and trailing dots. -/
def NamesApp (host : String) : Prop := (stripDots host).map Char.toLower = "app.local".toList

instance (host : String) : Decidable (NamesApp host) := inferInstanceAs (Decidable (_ = _))

theorem encodeLabels_of_short {labels : List (List Char)}
    (fits : ∀ label ∈ labels, label.length ≤ 63 ∧ ∀ character ∈ label, character.toNat < 128) :
    ∃ encoded, encodeLabels labels = .ok encoded := by
  induction labels with
  | nil => exact ⟨[], rfl⟩
  | cons label labels ih =>
      obtain ⟨encoded, rest⟩ := ih fun other member => fits other (List.mem_cons_of_mem _ member)
      obtain ⟨short, small⟩ := fits label List.mem_cons_self
      have allAscii : (label.all fun character => character.toNat < 128) = true := by
        simpa using small
      rw [encodeLabels, if_pos allAscii, if_neg (not_lt.mpr short), rest]
      exact ⟨_, rfl⟩

theorem encodeLabels_error {labels : List (List Char)} {reason : PyError}
    (failed : encodeLabels labels = .error reason) : ∃ text, reason = .valueError text := by
  induction labels with
  | nil => cases failed
  | cons label labels ih =>
      rw [encodeLabels] at failed
      split at failed
      · split at failed
        · cases failed
          exact ⟨_, rfl⟩
        · split at failed
          · rename_i earlier
            cases failed
            exact ih earlier
          · cases failed
      · cases failed
        exact ⟨_, rfl⟩

/-- A host that cannot be asked for is refused with a `ValueError`. -/
theorem buildDnsQuery_error {host : String} {transaction : UInt16} {reason : PyError}
    (failed : buildDnsQuery host transaction = .error reason) :
    encodeDnsName host = .error reason ∧ ∃ text, reason = .valueError text := by
  cases encoded : encodeDnsName host with
  | ok name =>
      rw [buildDnsQuery, encoded] at failed
      cases failed
  | error other =>
      rw [buildDnsQuery, encoded] at failed
      cases failed
      refine ⟨rfl, ?_⟩
      rw [encodeDnsName] at encoded
      split at encoded
      · cases encoded
        exact ⟨_, rfl⟩
      · split at encoded
        · rename_i labels
          cases encoded
          exact encodeLabels_error labels
        · cases encoded

/-- `app.local` can be asked for. -/
theorem exists_encoded_of_namesApp {host : String} (names : NamesApp host) :
    ∃ encoded, encodeDnsName host = .ok encoded := by
  have split : ((stripDots host).splitOn '.').map (List.map Char.toLower) =
      ["app".toList, "local".toList] := by
    rw [← splitOn_map_toLower, names]
    decide
  have small : ∀ character : Char, character.toLower.toNat < 128 → character.toNat < 128 := by
    intro character lower
    by_contra large
    have kept : character.toLower = character := by
      rw [Char.toLower]
      refine dif_neg fun upper => large ?_
      exact lt_of_le_of_lt (UInt32.le_iff_toNat_le.mp upper.2) (by decide)
    rw [kept] at lower
    exact large lower
  have each : ∀ label ∈ (stripDots host).splitOn '.', label ≠ [] ∧ label.length ≤ 63 ∧
      ∀ character ∈ label, character.toNat < 128 := by
    intro label member
    have lowered : label.map Char.toLower ∈ ["app".toList, "local".toList] := by
      rw [← split]
      exact List.mem_map_of_mem member
    have known : ∀ lower ∈ ["app".toList, "local".toList], lower ≠ [] ∧ lower.length ≤ 63 ∧
        ∀ character ∈ lower, character.toNat < 128 := by
      intro lower isLower
      rcases List.mem_pair.mp isLower with rfl | rfl
      · exact ⟨by decide, by decide, by simp⟩
      · exact ⟨by decide, by decide, by simp⟩
    obtain ⟨nonempty, short, isAscii⟩ := known _ lowered
    rw [List.length_map] at short
    refine ⟨fun empty => nonempty (by rw [empty, List.map_nil]), short, ?_⟩
    intro character inside
    exact small character (isAscii _ (List.mem_map_of_mem inside))
  have nonempty : host ≠ "" := by
    rintro rfl
    exact absurd names (by decide)
  have filled : ((stripDots host).splitOn '.').any List.isEmpty = false := by
    rw [List.any_eq_false]
    intro label member
    simpa using (each label member).1
  obtain ⟨encoded, labels⟩ := encodeLabels_of_short fun label member => (each label member).2
  refine ⟨encoded ++ [0], ?_⟩
  rw [encodeDnsName, if_neg (by rw [filled]; simp [nonempty]), labels]

/-- `transaction_id`. -/
def transactionNumber : UInt16 := 0x1234

/-- **What a resolver reads** out of the reply to its own query. -/
theorem reply_of_query (tables : UnicodeTables) {host : String} {query : Bytes}
    (built : buildDnsQuery host transactionNumber = .ok query) :
    ∃ reply, replyTo tables query = some reply ∧
      ((NamesApp host ∧
          parseDnsAddress (reply.take datagramSize) transactionNumber = .ok "127.0.0.1") ∨
        (¬ NamesApp host ∧
          RaisesValueError (parseDnsAddress (reply.take datagramSize) transactionNumber))) := by
  obtain ⟨encoded, accepted⟩ : ∃ encoded, encodeDnsName host = .ok encoded := by
    cases encoded : encodeDnsName host with
    | ok name => exact ⟨name, rfl⟩
    | error reason =>
        rw [buildDnsQuery, encoded] at built
        cases built
  obtain ⟨name, rfl, bytes, isAscii⟩ := exists_name_of_encodeDnsName accepted
  obtain ⟨high, low, -, number⟩ := word_wordBytes transactionNumber
  rw [number] at built ⊢
  have sent := Except.ok.inj (built.symm.trans (buildDnsQuery_eq accepted))
  have known_iff := lowered_eq_iff bytes isAscii
  obtain ⟨reply, answer, proper, enough, kinds⟩ := arrivingQuery_answer tables high low name
  have ids : transactionId (arrivingQuery high low name) = [high, low] := rfl
  have uncut : reply.take datagramSize = reply :=
    List.take_of_length_le (proper.short.trans (max_le arrivingQuery_length (by decide)))
  refine ⟨reply, ?_, ?_⟩
  · rw [replyTo, sent, take_query, answer]
  · rw [uncut]
    rcases kinds with ⟨known, rfl⟩ | ⟨unknown, failed⟩
    · exact .inl ⟨known_iff.mp known, parseDnsAddress_fullResponse ids rfl name⟩
    · exact .inr ⟨fun names => unknown (known_iff.mpr names),
        parseDnsAddress_of_status enough (id_of_echoes proper.echoes ids) failed⟩

/-! ## The network -/

/-- What `resolve` raises. `recvfrom` raises an `OSError` when the time is over. -/
inductive ResolveError where
  | python (error : PyError)
  | osError
  deriving DecidableEq

/-- The server, and one resolver for each call of `resolve`, with its host. -/
def resolution (tables : UnicodeTables) (hosts : Nat → String) :
    DatagramProtocol Bytes Bytes Bytes (Except ResolveError String) where
  query := fun resolver =>
    match buildDnsQuery (hosts resolver) transactionNumber with
    | .ok query => .ok query
    | .error reason => .error (.error (.python reason))
  handle := fun buffer datagram =>
    match serveDatagram tables buffer datagram with
    | .ok after => some after
    | .error _ => none
  read := fun _ reply =>
    (parseDnsAddress (reply.take datagramSize) transactionNumber).mapError ResolveError.python
  gaveUp := .error .osError

theorem forgets_resolution (tables : UnicodeTables) (hosts : Nat → String) :
    Forgets (resolution tables hosts) (fun buffer => buffer.length = datagramSize)
      (replyTo tables) where
  handles := by
    intro buffer datagram size
    obtain ⟨after, served, kept⟩ := serveDatagram_eq tables size datagram
    refine ⟨after, ?_, kept⟩
    rw [resolution]
    dsimp only
    rw [served]

/-- The result of `resolve` for its host: the address of the one name, a `ValueError` for any other
host, or nothing in time. -/
inductive Resolves (host : String) : Except ResolveError String → Prop
  | found (names : NamesApp host) : Resolves host (.ok "127.0.0.1")
  | refused (text : String) (other : ¬ NamesApp host) :
      Resolves host (.error (.python (.valueError text)))
  | timedOut : Resolves host (.error .osError)

theorem query_eq_ok {tables : UnicodeTables} {hosts : Nat → String} {resolver : Nat}
    {query : Bytes} (asked : (resolution tables hosts).query resolver = .ok query) :
    buildDnsQuery (hosts resolver) transactionNumber = .ok query := by
  unfold resolution at asked
  dsimp only at asked
  split at asked
  · rename_i built
    exact built.trans (congrArg _ (Except.ok.inj asked))
  · cases asked

/-- **An asker that has finished** has the result for its own host. -/
theorem resolves_of_finishes {tables : UnicodeTables} {hosts : Nat → String} {resolver : Nat}
    {result : Except ResolveError String}
    (finishes : Finishes (resolution tables hosts) (replyTo tables) resolver result) :
    Resolves (hosts resolver) result := by
  cases finishes with
  | unasked refused =>
      unfold resolution at refused
      dsimp only at refused
      split at refused
      · cases refused
      · rename_i reason failed
        obtain rfl := Except.error.inj refused
        obtain ⟨unencoded, text, rfl⟩ := buildDnsQuery_error failed
        refine .refused text fun names => ?_
        obtain ⟨encoded, accepted⟩ := exists_encoded_of_namesApp names
        rw [accepted] at unencoded
        cases unencoded
  | answered asked replied =>
      obtain ⟨reply, own, verdict⟩ := reply_of_query tables (query_eq_ok asked)
      obtain rfl := Option.some.inj (own.symm.trans replied)
      rcases verdict with ⟨names, found⟩ | ⟨other, text, raised⟩
      · rw [resolution]
        dsimp only
        rw [found]
        exact .found names
      · rw [resolution]
        dsimp only
        rw [raised]
        exact .refused text other
  | gaveUp asked => exact .timedOut

/-- The ports, the buffer of the server and the datagrams. -/
abbrev Network := Datagrams UInt16 Bytes Bytes Bytes (Except ResolveError String)

/-- **No resolver is misled** where no port is used again too early. For any number of calls of
`resolve`, with any hosts, however the network loses, repeats, delays and reorders their datagrams
and whatever else is sent to the server: if every call binds a port that no datagram is under way
from or to, then a call that returns has the address `127.0.0.1` and its host is `app.local` up to
case and trailing dots, or raises a `ValueError` and its host is another one, or has run out of
time. A call whose query is under way can still be answered, since the server never fails and
answers every query. -/
theorem resolve_over_network (tables : UnicodeTables) (hosts : Nat → String)
    {events : List (DatagramEvent UInt16 Bytes)} {network : Network}
    (run : runEvents (Datagrams.next (resolution tables hosts))
      (.start (List.replicate datagramSize 0)) events = some network)
    (fresh : AlongRun (Datagrams.next (resolution tables hosts)) Datagrams.FreshPort
      (.start (List.replicate datagramSize 0)) events) (resolver : Nat) :
    (∀ result, network.askers resolver = .finished result → Resolves (hosts resolver) result) ∧
      ∀ port query, network.askers resolver = .waiting port → (port, query) ∈ network.queries →
        ∃ index later result,
          runEvents (Datagrams.next (resolution tables hosts)) network
            [.serve index, .deliver network.replies.length] = some later ∧
          later.askers resolver = .finished result ∧ result ≠ .error .osError := by
  have faithful := faithful_of_run (forgets_resolution tables hosts) List.length_replicate run fresh
  refine ⟨fun result finished => resolves_of_finishes (faithful.finished resolver result finished),
    fun port query waits sent => ?_⟩
  have asked := faithful.queries resolver port query waits sent
  obtain ⟨reply, replied, verdict⟩ := reply_of_query tables (query_eq_ok asked)
  obtain ⟨index, later, ran, finished⟩ :=
    exists_answer (forgets_resolution tables hosts) faithful waits sent replied
  refine ⟨index, later, _, ran, finished, ?_⟩
  rw [resolution]
  dsimp only
  rcases verdict with ⟨-, found⟩ | ⟨-, text, raised⟩
  · rw [found]
    simp [Except.mapError]
  · rw [raised]
    simp [Except.mapError]

/-- The hosts of the resolvers. -/
def crossedHosts (resolver : Nat) : String := if resolver = 0 then "App.local." else "example"

/-- Two resolvers ask, and a longer datagram comes in between; the replies come in the other order
and once more. When nothing of the first one is under way any more, a third one gets its port. -/
def crossedEvents : List (DatagramEvent UInt16 Bytes) :=
  [.ask 0 5000, .stray 53 (List.replicate 600 0xFF), .ask 1 5001, .serve 2, .serve 1, .serve 0,
    .serve 0, .deliver 1, .deliver 2, .deliver 0, .loseQuery 0, .loseReply 2, .loseReply 1,
    .ask 2 5000]

theorem resolve_over_network_crossed :
    ∃ network : Network, runEvents (Datagrams.next (resolution ⟨id, id⟩ crossedHosts))
        (.start (List.replicate datagramSize 0)) crossedEvents = some network ∧
      network.askers 0 = .finished (.ok "127.0.0.1") ∧ Resolves "App.local." (.ok "127.0.0.1") := by
  have whole : ((runEvents (Datagrams.next (resolution ⟨id, id⟩ crossedHosts))
      (.start (List.replicate datagramSize 0)) crossedEvents : Option Network).bind fun network =>
        (network.askers 0).result?) = some (.ok "127.0.0.1") := by decide +kernel
  have fresh : AlongRun (Datagrams.next (resolution ⟨id, id⟩ crossedHosts)) Datagrams.FreshPort
      (.start (List.replicate datagramSize 0) : Network) crossedEvents := by decide +kernel
  obtain ⟨network, run, result⟩ := Option.bind_eq_some_iff.mp whole
  have finished := Asker.result?_eq_some_iff.mp result
  exact ⟨network, run, finished,
    (resolve_over_network ⟨id, id⟩ crossedHosts run fresh 0).1 _ finished⟩

/-- The first resolver gives up before the reply arrives, and the second one gets its port. -/
def reusedEvents : List (DatagramEvent UInt16 Bytes) :=
  [.ask 0 5000, .serve 0, .giveUp 0, .ask 1 5000, .deliver 0]

/-- **A reused port misleads**: the second resolver takes the reply to the first one, and has an
address for a host that the server does not know. -/
theorem reused_port_misleads :
    ∃ network : Network, runEvents (Datagrams.next (resolution ⟨id, id⟩ crossedHosts))
        (.start (List.replicate datagramSize 0)) reusedEvents = some network ∧
      network.askers 1 = .finished (.ok "127.0.0.1") ∧ ¬ Resolves "example" (.ok "127.0.0.1") := by
  have whole : ((runEvents (Datagrams.next (resolution ⟨id, id⟩ crossedHosts))
      (.start (List.replicate datagramSize 0)) reusedEvents : Option Network).bind fun network =>
        (network.askers 1).result?) = some (.ok "127.0.0.1") := by decide +kernel
  obtain ⟨network, run, result⟩ := Option.bind_eq_some_iff.mp whole
  refine ⟨network, run, Asker.result?_eq_some_iff.mp result, ?_⟩
  rintro ⟨names⟩
  exact absurd names (by decide)

end InfraFromScratch.Stack
