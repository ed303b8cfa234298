import InfraFromScratch.Foundations.GoText
import InfraFromScratch.Foundations.Search

/-!
# What the load balancer and the reverse proxy share

Both programs in Go read one request from a client, write it to a backend and copy the
response back. `relay`, `hasUnsupportedBody` and `sendError` are the same functions in
both sources; they are modelled once.

A connection is described by what its calls return. Reads return chunks of data and end
with an error, which may come together with data. The successive writes to the client
return results from a given sequence; a write that fails may have delivered a part of
its data. What a run does is recorded as a list of events.

Against one client, a backend behaves in one of three ways (`Exchange.cases`): it fails
before any byte, it closes without a byte, or it answers. `attempt_of_fails`,
`attempt_of_silent`, `attempt_of_refused` and `attempt_of_taken` say what comes of each.
-/

set_option autoImplicit false

namespace InfraFromScratch.Gateway

open Foundations

/-- `bufferSize`. -/
def bufferSize : Nat := 4096

/-- `maxRequestSize`. -/
def maxRequestSize : Nat := 64 * 1024

/-- The end of a header block. -/
def headerEnd : Bytes := [cr, lf, cr, lf]

theorem headerEnd_ne_nil : headerEnd ≠ [] := List.cons_ne_nil _ _

/-! ## Connections -/

/-- An error of a connection. -/
inductive NetError where
  | timeout
  | other
  deriving DecidableEq, Repr

/-- The error that ends the reads. -/
inductive ReadEnd where
  | eof
  | failed (error : NetError)
  deriving DecidableEq, Repr

/-- Why `readRequest` fails: `errRequestTooLarge`, or the error of the connection. -/
inductive ReadError where
  | tooLarge
  | network (finish : ReadEnd)
  deriving DecidableEq, Repr

/-- What the reads of a connection return: data without error, and at last data, often
none, with an error. -/
structure Incoming where
  reads : List Bytes
  last : Bytes
  finish : ReadEnd
  deriving DecidableEq, Repr

/-- All the data that is read. -/
def Incoming.bytes (incoming : Incoming) : Bytes := incoming.reads.flatten ++ incoming.last

/-- The stream arrives in reads of at most `bufferSize` bytes, and then an error without
data. -/
structure Incoming.Segments (incoming : Incoming) (stream : Bytes) : Prop where
  whole : incoming.reads.flatten = stream
  sizes : ∀ chunk ∈ incoming.reads, 1 ≤ chunk.length ∧ chunk.length ≤ bufferSize
  separate : incoming.last = []

/-- What a write returns. A failed write has delivered some bytes of its data. -/
inductive WriteResult where
  | done
  | failed (count : Nat) (error : NetError)
  deriving DecidableEq, Repr

/-- The writing side of a client connection: how often it was written to, and what the
client received. -/
structure Outgoing where
  calls : Nat
  delivered : Bytes
  deriving DecidableEq, Repr

/-- A connection nothing was written to. -/
def Outgoing.start : Outgoing := ⟨0, []⟩

/-- `client.Write(data)`. -/
def write (results : Nat → WriteResult) (client : Outgoing) (data : Bytes) :
    Outgoing × Option NetError :=
  match results client.calls with
  | .done => (⟨client.calls + 1, client.delivered ++ data⟩, none)
  | .failed count error => (⟨client.calls + 1, client.delivered ++ data.take count⟩, some error)

theorem write_of_done {results : Nat → WriteResult} {client : Outgoing}
    (done : results client.calls = .done) (data : Bytes) :
    write results client data = (⟨client.calls + 1, client.delivered ++ data⟩, none) := by
  rw [write, done]

theorem write_of_failed {results : Nat → WriteResult} {client : Outgoing} {count : Nat}
    {error : NetError} (failed : results client.calls = .failed count error) (data : Bytes) :
    write results client data =
      (⟨client.calls + 1, client.delivered ++ data.take count⟩, some error) := by
  rw [write, failed]

/-- The response of `sendError`. -/
def errorPage (status body : String) : Bytes :=
  ascii "HTTP/1.0 " ++ ascii status ++ ascii "\r\nContent-Length: " ++
    decimal (ascii body).length ++ ascii "\r\nConnection: close\r\n\r\n" ++ ascii body

/-- `sendError`. -/
def sendError (results : Nat → WriteResult) (client : Outgoing) (status body : String) : Outgoing :=
  (write results client (errorPage status body)).1

/-- On a connection nothing was delivered to, an error page is delivered alone. -/
theorem sendError_delivered (results : Nat → WriteResult) {client : Outgoing}
    (fresh : client.delivered = []) (status body : String) :
    (sendError results client status body).delivered <+: errorPage status body := by
  rw [sendError, write]
  cases results client.calls with
  | done =>
      dsimp only
      rw [fresh, List.nil_append]
  | failed count error =>
      dsimp only
      rw [fresh, List.nil_append]
      exact List.take_prefix _ _

/-! ## Body framing -/

/-- `unsupportedBodyHeaders`. -/
def unsupportedBodyHeaders : List Bytes := [ascii "content-length", ascii "transfer-encoding"]

/-- `hasUnsupportedBody`. -/
def hasUnsupportedBody (tables : UnicodeTables) (request : Bytes) : Bool :=
  let headers := (cutAround headerEnd request).1
  let lines := (splitAround [cr, lf] headers).drop 1
  lines.any fun line =>
    trimSpace (toLower tables (cutAround (ascii ":") line).1) ∈ unsupportedBodyHeaders

/-- The filter sees only what stands before the end of the headers. -/
theorem hasUnsupportedBody_congr (tables : UnicodeTables) {request other : Bytes}
    (same : (cutAround headerEnd request).1 = (cutAround headerEnd other).1) :
    hasUnsupportedBody tables request = hasUnsupportedBody tables other := by
  rw [hasUnsupportedBody, hasUnsupportedBody, same]

/-- A request without header fields. -/
def plainRequest : Bytes := ascii "GET / HTTP/1.0\r\n\r\n"

theorem hasUnsupportedBody_plainRequest (tables : UnicodeTables) :
    hasUnsupportedBody tables plainRequest = false := by
  have headers : (cutAround headerEnd plainRequest).1 = ascii "GET / HTTP/1.0" := by decide
  have oneLine : indexOf [cr, lf] (ascii "GET / HTTP/1.0") = none := by decide
  rw [hasUnsupportedBody, headers, splitAround, oneLine]
  rfl

/-! ## Relaying -/

/-- How a backend behaves towards one attempt: what dialling and writing the request
return, and what it answers. -/
structure Exchange where
  dial : Option NetError
  requestWrite : Option NetError
  answer : Incoming
  deriving DecidableEq, Repr

/-- A call of an attempt and what it returned. -/
inductive Event where
  | dial (error : Option NetError)
  | requestWrite (request : Bytes) (error : Option NetError)
  | read (data : Bytes) (finish : Option ReadEnd)
  | clientWrite (data : Bytes) (error : Option NetError)
  deriving DecidableEq, Repr

/-- What an attempt leaves: the client, `responseStarted`, the error and the events. -/
structure Relayed where
  client : Outgoing
  started : Bool
  error : Option NetError
  events : List Event

/-- Record earlier events. -/
def Relayed.after (events : List Event) (relayed : Relayed) : Relayed :=
  { relayed with events := events ++ relayed.events }

/-- What `relay` makes of the error of the last read. -/
def ReadEnd.error : ReadEnd → Option NetError
  | .eof => none
  | .failed error => some error

/-- The loop of `relay`. -/
def relayReads (results : Nat → WriteResult) (client : Outgoing) (started : Bool) :
    List Bytes → Bytes → ReadEnd → Relayed
  | [], last, finish =>
      if last = [] then ⟨client, started, finish.error, [.read last (some finish)]⟩
      else
        match write results client last with
        | (client, some error) =>
            ⟨client, started, some error,
              [.read last (some finish), .clientWrite last (some error)]⟩
        | (client, none) =>
            ⟨client, true, finish.error, [.read last (some finish), .clientWrite last none]⟩
  | chunk :: rest, last, finish =>
      if chunk = [] then
        (relayReads results client started rest last finish).after [.read chunk none]
      else
        match write results client chunk with
        | (client, some error) =>
            ⟨client, started, some error, [.read chunk none, .clientWrite chunk (some error)]⟩
        | (client, none) =>
            (relayReads results client true rest last finish).after
              [.read chunk none, .clientWrite chunk none]

/-- `relay`. -/
def relay (results : Nat → WriteResult) (client : Outgoing) (exchange : Exchange)
    (request : Bytes) : Relayed :=
  match exchange.requestWrite with
  | some error => ⟨client, false, some error, [.requestWrite request (some error)]⟩
  | none =>
      (relayReads results client false exchange.answer.reads exchange.answer.last
        exchange.answer.finish).after [.requestWrite request none]

/-- Dial the backend, and relay when that succeeds. -/
def attempt (results : Nat → WriteResult) (client : Outgoing) (exchange : Exchange)
    (request : Bytes) : Relayed :=
  match exchange.dial with
  | some error => ⟨client, false, some error, [.dial (some error)]⟩
  | none => (relay results client exchange request).after [.dial none]

/-! ## Failures -/

/-- The call failed on the side of the backend. The end of its data is no failure. -/
def Event.BackendFailed : Event → Prop
  | .dial error => error ≠ none
  | .requestWrite _ error => error ≠ none
  | .read _ finish => ∃ error, finish = some (.failed error)
  | .clientWrite _ _ => False

/-- The call was a failed write to the client. -/
def Event.ClientFailed : Event → Prop
  | .clientWrite _ error => error ≠ none
  | _ => False

/-- Some call of the attempt failed on the side of the backend. -/
def Relayed.BackendFailed (relayed : Relayed) : Prop :=
  ∃ event ∈ relayed.events, event.BackendFailed

/-- Some write of the attempt to the client failed. -/
def Relayed.ClientFailed (relayed : Relayed) : Prop := ∃ event ∈ relayed.events, event.ClientFailed

/-- The data of a read. -/
def Event.received : Event → Bytes
  | .read data _ => data
  | _ => []

/-- The bytes of the response that were read. -/
def Relayed.received (relayed : Relayed) : Bytes := relayed.events.flatMap Event.received

/-! ## The loop of `relay` -/

section Reads

variable (results : Nat → WriteResult)

@[simp] theorem Relayed.after_client (events : List Event) (relayed : Relayed) :
    (relayed.after events).client = relayed.client := rfl

@[simp] theorem Relayed.after_error (events : List Event) (relayed : Relayed) :
    (relayed.after events).error = relayed.error := rfl

theorem Relayed.received_after (events : List Event) (relayed : Relayed) :
    (relayed.after events).received = events.flatMap Event.received ++ relayed.received :=
  List.flatMap_append

theorem Relayed.clientFailed_after {events : List Event} {relayed : Relayed}
    (quiet : ∀ event ∈ events, ¬ event.ClientFailed) :
    (relayed.after events).ClientFailed ↔ relayed.ClientFailed := by
  constructor
  · intro failed
    obtain ⟨event, member, here⟩ := failed
    rcases List.mem_append.mp member with earlier | later
    · exact absurd here (quiet event earlier)
    · exact ⟨event, later, here⟩
  · intro failed
    obtain ⟨event, member, here⟩ := failed
    exact ⟨event, List.mem_append_right _ member, here⟩

theorem Relayed.BackendFailed.after {relayed : Relayed} (failed : relayed.BackendFailed)
    (events : List Event) : (relayed.after events).BackendFailed := by
  obtain ⟨event, member, here⟩ := failed
  exact ⟨event, List.mem_append_right _ member, here⟩

/-- Once the response has started, it has. -/
theorem relayReads_started (reads : List Bytes) (last : Bytes) (finish : ReadEnd)
    (client : Outgoing) : (relayReads results client true reads last finish).started = true := by
  induction reads generalizing client with
  | nil =>
      rw [relayReads]
      split
      · rfl
      · split
        · rfl
        · rfl
  | cons chunk rest ih =>
      rw [relayReads]
      split
      · exact ih client
      · split
        · rfl
        · exact ih _

/-- **The client receives a prefix of the response**, and all of it when there is no error. -/
theorem relayReads_delivered (reads : List Bytes) (last : Bytes) (finish : ReadEnd)
    (client : Outgoing) (started : Bool) :
    ∃ part, part <+: reads.flatten ++ last ∧
      (relayReads results client started reads last finish).client.delivered =
        client.delivered ++ part ∧
      ((relayReads results client started reads last finish).error = none →
        part = reads.flatten ++ last) := by
  induction reads generalizing client started with
  | nil =>
      rw [relayReads]
      split
      · rename_i empty
        exact ⟨[], List.nil_prefix, (List.append_nil _).symm, fun _ => empty.symm⟩
      · unfold write
        cases results client.calls with
        | done => exact ⟨last, List.prefix_rfl, rfl, fun _ => rfl⟩
        | failed count error =>
            exact ⟨last.take count, List.take_prefix _ _, rfl, by simp⟩
  | cons chunk rest ih =>
      rw [relayReads, List.flatten_cons, List.append_assoc]
      split
      · rename_i empty
        rw [empty, List.nil_append]
        exact ih client started
      · unfold write
        cases results client.calls with
        | done =>
            obtain ⟨part, isPrefix, delivered, complete⟩ :=
              ih ⟨client.calls + 1, client.delivered ++ chunk⟩ true
            refine ⟨chunk ++ part, (List.prefix_append_right_inj chunk).mpr isPrefix, ?_, ?_⟩
            · rw [← List.append_assoc]
              exact delivered
            · intro noError
              rw [complete noError]
        | failed count error =>
            refine ⟨chunk.take count, ?_, rfl, by simp⟩
            exact (List.take_prefix _ _).trans (List.prefix_append _ _)

/-- A client whose writes all succeed receives what is read. -/
theorem relayReads_received (done : ∀ call, results call = .done) (reads : List Bytes)
    (last : Bytes) (finish : ReadEnd) (client : Outgoing) (started : Bool) :
    (relayReads results client started reads last finish).client.delivered =
      client.delivered ++ (relayReads results client started reads last finish).received := by
  induction reads generalizing client started with
  | nil =>
      rw [relayReads]
      split
      · rename_i empty
        simp [Relayed.received, Event.received, empty]
      · rw [write_of_done (done _)]
        simp [Relayed.received, Event.received]
  | cons chunk rest ih =>
      rw [relayReads]
      split
      · rename_i empty
        rw [Relayed.after_client, Relayed.received_after, ih]
        simp [Event.received, empty]
      · rw [write_of_done (done _)]
        dsimp only
        rw [Relayed.after_client, Relayed.received_after, ih]
        simp [Event.received]

/-- A client whose writes all succeed leaves only the error of the last read. -/
theorem relayReads_error (done : ∀ call, results call = .done) (reads : List Bytes)
    (last : Bytes) (finish : ReadEnd) (client : Outgoing) (started : Bool) :
    (relayReads results client started reads last finish).error = finish.error := by
  induction reads generalizing client started with
  | nil =>
      rw [relayReads]
      split
      · rfl
      · rw [write_of_done (done _)]
  | cons chunk rest ih =>
      rw [relayReads]
      split
      · exact ih client started
      · rw [write_of_done (done _)]
        exact ih _ true

/-- The loop writes nothing to the backend. -/
theorem requestWrite_notMem_relayReads (reads : List Bytes) (last : Bytes) (finish : ReadEnd)
    (client : Outgoing) (started : Bool) (data : Bytes) (error : Option NetError) :
    .requestWrite data error ∉ (relayReads results client started reads last finish).events := by
  induction reads generalizing client started with
  | nil =>
      rw [relayReads]
      split
      · simp
      · split
        · simp
        · simp
  | cons chunk rest ih =>
      rw [relayReads]
      split
      · simpa [Relayed.after] using ih client started
      · split
        · simp
        · simpa [Relayed.after] using ih _ true

/-- Without data the client is left alone, and the end of the reads is the result. -/
theorem relayReads_of_nil {reads : List Bytes} {last : Bytes} (nothing : reads.flatten ++ last = [])
    (finish : ReadEnd) (client : Outgoing) (started : Bool) :
    (relayReads results client started reads last finish).client = client ∧
      (relayReads results client started reads last finish).started = started ∧
      (relayReads results client started reads last finish).error = finish.error ∧
      (relayReads results client started reads last finish).received = [] ∧
      ¬ (relayReads results client started reads last finish).ClientFailed ∧
      ∀ error, finish = .failed error →
        (relayReads results client started reads last finish).BackendFailed := by
  induction reads with
  | nil =>
      have empty : last = [] := nothing
      rw [relayReads, if_pos empty]
      refine ⟨rfl, rfl, rfl, by simp [Relayed.received, Event.received, empty], ?_, ?_⟩
      · intro failed
        obtain ⟨event, member, here⟩ := failed
        rw [List.mem_singleton.mp member] at here
        exact here
      · intro error failed
        exact ⟨_, List.mem_singleton.mpr rfl, error, by rw [failed]⟩
  | cons chunk rest ih =>
      rw [List.flatten_cons, List.append_assoc, List.append_eq_nil_iff] at nothing
      obtain ⟨empty, restNothing⟩ := nothing
      obtain ⟨sameClient, sameStarted, error, received, noClient, backend⟩ := ih restNothing
      rw [relayReads, if_pos empty]
      refine ⟨sameClient, sameStarted, error, ?_, ?_,
        fun reason failed => (backend reason failed).after _⟩
      · rw [Relayed.received_after, received, empty]
        rfl
      · rw [Relayed.clientFailed_after (by simp [Event.ClientFailed])]
        exact noClient

/-- When the client refuses the first data, nothing has started, and the error is that of
the client, which has a part of the data. -/
theorem relayReads_of_refused {reads : List Bytes} {last : Bytes}
    (something : reads.flatten ++ last ≠ []) (finish : ReadEnd) (client : Outgoing)
    (started : Bool) {count : Nat} {error : NetError}
    (refused : results client.calls = .failed count error) :
    (relayReads results client started reads last finish).started = started ∧
      (relayReads results client started reads last finish).error = some error ∧
      (relayReads results client started reads last finish).ClientFailed ∧
      ∃ data : Bytes, data ≠ [] ∧ (relayReads results client started reads last finish).client =
        ⟨client.calls + 1, client.delivered ++ data.take count⟩ := by
  induction reads with
  | nil =>
      have nonempty : ¬ last = [] := something
      rw [relayReads, if_neg nonempty, write_of_failed refused]
      exact ⟨rfl, rfl, ⟨_, List.mem_cons_of_mem _ List.mem_cons_self, by simp [Event.ClientFailed]⟩,
        last, nonempty, rfl⟩
  | cons chunk rest ih =>
      rw [relayReads]
      by_cases empty : chunk = []
      · rw [List.flatten_cons, empty, List.nil_append] at something
        obtain ⟨sameStarted, sameError, failed, part⟩ := ih something
        rw [if_pos empty]
        refine ⟨sameStarted, sameError, ?_, part⟩
        rw [Relayed.clientFailed_after (by simp [Event.ClientFailed])]
        exact failed
      · rw [if_neg empty, write_of_failed refused]
        exact ⟨rfl, rfl,
          ⟨_, List.mem_cons_of_mem _ List.mem_cons_self, by simp [Event.ClientFailed]⟩, chunk, empty,
          rfl⟩

/-- When the client takes the first data, the response has started and it has received
something. -/
theorem relayReads_of_taken {reads : List Bytes} {last : Bytes}
    (something : reads.flatten ++ last ≠ []) (finish : ReadEnd) (client : Outgoing)
    (started : Bool) (taken : results client.calls = .done) :
    (relayReads results client started reads last finish).started = true ∧
      (relayReads results client started reads last finish).client.delivered ≠
        client.delivered := by
  induction reads with
  | nil =>
      have nonempty : ¬ last = [] := something
      rw [relayReads, if_neg nonempty, write_of_done taken]
      exact ⟨rfl, fun same => nonempty (List.append_right_eq_self.mp same)⟩
  | cons chunk rest ih =>
      rw [relayReads]
      by_cases empty : chunk = []
      · rw [List.flatten_cons, empty, List.nil_append] at something
        rw [if_pos empty]
        exact ih something
      · rw [if_neg empty, write_of_done taken]
        refine ⟨relayReads_started results rest last finish _, ?_⟩
        obtain ⟨part, -, delivered, -⟩ := relayReads_delivered results rest last finish
          ⟨client.calls + 1, client.delivered ++ chunk⟩ true
        rw [Relayed.after_client, delivered, List.append_assoc]
        intro same
        exact empty (List.append_eq_nil_iff.mp (List.append_right_eq_self.mp same)).1

end Reads

/-! ## Three kinds of backends -/

namespace Exchange

/-- The backend fails by itself before it has sent a byte. -/
def Fails (exchange : Exchange) : Prop :=
  exchange.dial ≠ none ∨ exchange.requestWrite ≠ none ∨
    (exchange.answer.bytes = [] ∧ ∃ error, exchange.answer.finish = .failed error)

/-- The backend takes the request and closes without a byte. -/
def Silent (exchange : Exchange) : Prop :=
  exchange.dial = none ∧ exchange.requestWrite = none ∧ exchange.answer.bytes = [] ∧
    exchange.answer.finish = .eof

/-- The backend takes the request and sends something. -/
def Answers (exchange : Exchange) : Prop :=
  exchange.dial = none ∧ exchange.requestWrite = none ∧ exchange.answer.bytes ≠ []

theorem Fails.not_silent {exchange : Exchange} (fails : exchange.Fails) : ¬ exchange.Silent := by
  intro silent
  obtain ⟨dial, requestWrite, -, finish⟩ := silent
  rcases fails with dialled | written | ⟨-, error, failed⟩
  · exact dialled dial
  · exact written requestWrite
  · rw [finish] at failed
    cases failed

theorem cases (exchange : Exchange) : exchange.Fails ∨ exchange.Silent ∨ exchange.Answers := by
  by_cases dial : exchange.dial = none
  · by_cases requestWrite : exchange.requestWrite = none
    · by_cases nothing : exchange.answer.bytes = []
      · cases finish : exchange.answer.finish with
        | eof => exact .inr (.inl ⟨dial, requestWrite, nothing, finish⟩)
        | failed error => exact .inl (.inr (.inr ⟨nothing, error, finish⟩))
      · exact .inr (.inr ⟨dial, requestWrite, nothing⟩)
    · exact .inl (.inr (.inl requestWrite))
  · exact .inl (.inl dial)

theorem silent_or_answers {exchange : Exchange} (sound : ¬ exchange.Fails) :
    exchange.Silent ∨ exchange.Answers := exchange.cases.resolve_left sound

end Exchange

section Attempts

variable (results : Nat → WriteResult) (client : Outgoing) {exchange : Exchange}
  (request : Bytes)

/-- An attempt at a backend that takes the request is the loop of `relay`. -/
theorem attempt_eq (dial : exchange.dial = none) (requestWrite : exchange.requestWrite = none) :
    attempt results client exchange request =
      (relayReads results client false exchange.answer.reads exchange.answer.last
        exchange.answer.finish).after [.dial none, .requestWrite request none] := by
  rw [attempt, dial, relay, requestWrite]
  rfl

theorem quiet_start : ∀ event ∈ [Event.dial none, .requestWrite request none],
    ¬ event.ClientFailed := by
  simp [Event.ClientFailed]

/-- A backend that fails by itself has an error of its own, and the client is left alone. -/
theorem attempt_of_fails (fails : exchange.Fails) :
    (attempt results client exchange request).client = client ∧
      (attempt results client exchange request).started = false ∧
      (attempt results client exchange request).error ≠ none ∧
      (attempt results client exchange request).received = [] ∧
      (attempt results client exchange request).BackendFailed ∧
      ¬ (attempt results client exchange request).ClientFailed := by
  cases dial : exchange.dial with
  | some error =>
      rw [attempt, dial]
      exact ⟨rfl, rfl, by simp, rfl,
        ⟨_, List.mem_singleton.mpr rfl, by simp [Event.BackendFailed]⟩,
        by simp [Relayed.ClientFailed, Event.ClientFailed]⟩
  | none =>
      cases requestWrite : exchange.requestWrite with
      | some error =>
          rw [attempt, dial, relay, requestWrite]
          exact ⟨rfl, rfl, by simp, rfl,
            ⟨.requestWrite request (some error), by simp [Relayed.after],
              by simp [Event.BackendFailed]⟩,
            by simp [Relayed.ClientFailed, Relayed.after, Event.ClientFailed]⟩
      | none =>
          obtain ⟨nothing, error, finish⟩ : exchange.answer.bytes = [] ∧
              ∃ error, exchange.answer.finish = .failed error := by
            rcases fails with dialled | written | ended
            · exact absurd dial dialled
            · exact absurd requestWrite written
            · exact ended
          obtain ⟨sameClient, started, result, received, noClient, backend⟩ :=
            relayReads_of_nil results nothing exchange.answer.finish client false
          rw [attempt_eq results client request dial requestWrite]
          refine ⟨sameClient, started, ?_, ?_, (backend error finish).after _, ?_⟩
          · rw [Relayed.after_error, result, finish]
            exact Option.some_ne_none _
          · rw [Relayed.received_after, received]
            rfl
          · rw [Relayed.clientFailed_after (quiet_start request)]
            exact noClient

/-- A backend that closes without a byte looks like a success. -/
theorem attempt_of_silent (silent : exchange.Silent) :
    (attempt results client exchange request).client = client ∧
      (attempt results client exchange request).error = none ∧
      ¬ (attempt results client exchange request).ClientFailed := by
  obtain ⟨dial, requestWrite, nothing, finish⟩ := silent
  obtain ⟨sameClient, -, result, -, noClient, -⟩ :=
    relayReads_of_nil results nothing exchange.answer.finish client false
  rw [attempt_eq results client request dial requestWrite]
  refine ⟨sameClient, ?_, ?_⟩
  · rw [Relayed.after_error, result, finish]
    rfl
  · rw [Relayed.clientFailed_after (quiet_start request)]
    exact noClient

/-- When the client refuses the first data of an answer, the attempt looks like one at a
backend that failed. -/
theorem attempt_of_refused (answers : exchange.Answers) {count : Nat} {error : NetError}
    (refused : results client.calls = .failed count error) :
    (attempt results client exchange request).started = false ∧
      (attempt results client exchange request).error ≠ none ∧
      (attempt results client exchange request).ClientFailed ∧
      ∃ data : Bytes, data ≠ [] ∧ (attempt results client exchange request).client =
        ⟨client.calls + 1, client.delivered ++ data.take count⟩ := by
  obtain ⟨dial, requestWrite, something⟩ := answers
  obtain ⟨started, result, failed, part⟩ :=
    relayReads_of_refused results something exchange.answer.finish client false refused
  rw [attempt_eq results client request dial requestWrite]
  refine ⟨started, ?_, ?_, part⟩
  · rw [Relayed.after_error, result]
    exact Option.some_ne_none _
  · rw [Relayed.clientFailed_after (quiet_start request)]
    exact failed

/-- When the client takes the first data of an answer, the response has started. -/
theorem attempt_of_taken (answers : exchange.Answers) (taken : results client.calls = .done) :
    (attempt results client exchange request).started = true ∧
      (attempt results client exchange request).client.delivered ≠ client.delivered := by
  obtain ⟨dial, requestWrite, something⟩ := answers
  rw [attempt_eq results client request dial requestWrite]
  exact relayReads_of_taken results something exchange.answer.finish client false taken

/-- **What an attempt delivers**: a prefix of the response, and all of it when there is no
error. -/
theorem attempt_delivered (exchange : Exchange) :
    ∃ part, part <+: exchange.answer.bytes ∧
      (attempt results client exchange request).client.delivered = client.delivered ++ part ∧
      ((attempt results client exchange request).error = none → part = exchange.answer.bytes) := by
  rcases exchange.cases with fails | others
  · obtain ⟨sameClient, -, failed, -⟩ := attempt_of_fails results client request fails
    refine ⟨[], List.nil_prefix, ?_, fun noError => absurd noError failed⟩
    rw [sameClient, List.append_nil]
  · have took : exchange.dial = none ∧ exchange.requestWrite = none := by
      rcases others with silent | answers
      · exact ⟨silent.1, silent.2.1⟩
      · exact ⟨answers.1, answers.2.1⟩
    rw [attempt_eq results client request took.1 took.2]
    exact relayReads_delivered results exchange.answer.reads exchange.answer.last
      exchange.answer.finish client false

/-- A client whose writes all succeed receives what is read of the response. -/
theorem attempt_received (done : ∀ call, results call = .done) (answers : exchange.Answers) :
    (attempt results client exchange request).client.delivered =
      client.delivered ++ (attempt results client exchange request).received := by
  rw [attempt_eq results client request answers.1 answers.2.1, Relayed.received_after]
  exact relayReads_received results done exchange.answer.reads exchange.answer.last
    exchange.answer.finish client false

/-- A client whose writes all deliver nothing receives nothing. -/
theorem attempt_of_dead (dead : ∀ late, client.calls ≤ late → ∃ error, results late = .failed 0 error)
    (exchange : Exchange) :
    (attempt results client exchange request).client.delivered = client.delivered ∧
      client.calls ≤ (attempt results client exchange request).client.calls := by
  rcases exchange.cases with fails | silent | answers
  · rw [(attempt_of_fails results client request fails).1]
    exact ⟨rfl, le_rfl⟩
  · rw [(attempt_of_silent results client request silent).1]
    exact ⟨rfl, le_rfl⟩
  · obtain ⟨error, refused⟩ := dead client.calls le_rfl
    obtain ⟨-, -, -, data, -, after⟩ := attempt_of_refused results client request answers refused
    rw [after, List.take_zero, List.append_nil]
    exact ⟨rfl, Nat.le_succ _⟩

/-- What is written to the backend is the request. -/
theorem eq_of_requestWrite_mem {data : Bytes} {error : Option NetError} {exchange : Exchange}
    (member : .requestWrite data error ∈ (attempt results client exchange request).events) :
    data = request := by
  rw [attempt] at member
  split at member
  · simp at member
  · rw [relay] at member
    split at member
    · simp only [Relayed.after, List.mem_append, List.mem_singleton, reduceCtorEq, false_or,
        Event.requestWrite.injEq] at member
      exact member.1
    · simp only [Relayed.after, List.mem_append, List.mem_singleton, reduceCtorEq, false_or,
        Event.requestWrite.injEq] at member
      rcases member with here | later
      · exact here.1
      · exact absurd later (requestWrite_notMem_relayReads results _ _ _ _ _ _ _)

/-- A backend that is reached is sent the request. -/
theorem exists_requestWrite_mem {exchange : Exchange}
    (reached : .dial none ∈ (attempt results client exchange request).events) :
    ∃ error, .requestWrite request error ∈ (attempt results client exchange request).events := by
  cases dial : exchange.dial with
  | some error =>
      rw [attempt, dial] at reached
      simp at reached
  | none =>
      cases requestWrite : exchange.requestWrite with
      | some error =>
          rw [attempt, dial, relay, requestWrite]
          exact ⟨some error, List.mem_cons_of_mem _ List.mem_cons_self⟩
      | none =>
          rw [attempt_eq results client request dial requestWrite]
          exact ⟨none, List.mem_cons_of_mem _ List.mem_cons_self⟩

theorem dial_none_mem_attempt {exchange : Exchange} (dial : exchange.dial = none) :
    .dial none ∈ (attempt results client exchange request).events := by
  rw [attempt, dial]
  exact List.mem_cons_self

/-- An attempt dials. -/
theorem exists_dial_mem_attempt (exchange : Exchange) :
    ∃ error, .dial error ∈ (attempt results client exchange request).events := by
  rw [attempt]
  split
  · exact ⟨_, List.mem_singleton.mpr rfl⟩
  · exact ⟨_, List.mem_cons_self⟩

end Attempts

end InfraFromScratch.Gateway
