import InfraFromScratch.Gateway.Relay
import InfraFromScratch.Http.CacheAside

/-!
# What a cache can do to a response

`CacheClient` describes a connection by the bytes that arrive on it, or by nothing where it
fails. Here the calls are taken one by one: connecting, sending, each `recv` under `readline`, and
closing may raise an `OSError`, and the reply may arrive in pieces and stop anywhere. The
exceptions of Python are values, and a `try` decides which of them it catches.

Whatever the connection does, `_command` raises nothing but `CacheError`, and what it returns
is what `CacheClient.command` makes of the bytes that arrived (`commandOver_eq`). So
`respond_with_cache` always returns, with the response of `respondWithCache`
(`respondOver_eq`), and a body from the cache was the first line of the reply
(`cache_failures_contained`).
-/

set_option autoImplicit false

namespace InfraFromScratch.Http

open Foundations Gateway

namespace CacheClient

/-! ## Exceptions and connections -/

/-- The exceptions that are raised here. A timeout is an `OSError`. -/
inductive Raised where
  | osError (error : NetError)
  | cacheError (reason : CacheError)
  deriving DecidableEq, Repr

/-- Code that raises `CacheError`. -/
def raising {α : Type} (result : Except CacheError α) : Except Raised α :=
  result.mapError .cacheError

/-- A call on a socket that may raise an `OSError`. -/
def call : Option NetError → Except Raised Unit
  | none => .ok ()
  | some error => .error (.osError error)

/-- What the calls of one `_command` meet. -/
structure Conversation where
  /-- What `create_connection` raises. -/
  connect : Option NetError
  /-- What `sendall` raises. -/
  send : Option NetError
  /-- What `recv` returns, and how it goes on after that. -/
  chunks : List Bytes
  finish : ReadEnd
  /-- What closing the file and the socket raises. -/
  close : Option NetError

/-- The bytes that arrive. `recv` returns nothing at the end of the stream. -/
def Conversation.stream (conversation : Conversation) : Bytes :=
  (conversation.chunks.takeWhile (· ≠ [])).flatten

/-- `readline(limit)` of the buffered file, with what was received so far. It calls `recv` until
it has a newline or `limit` bytes. -/
def readlineOver (limit : Nat) (buffer : Bytes) : List Bytes → ReadEnd → Except Raised Bytes
  | [], .eof => .ok (readline limit buffer)
  | [], .failed error => .error (.osError error)
  | chunk :: rest, finish =>
      if chunk = [] then .ok (readline limit buffer)
      else if lf ∈ buffer ++ chunk ∨ limit ≤ (buffer ++ chunk).length then
        .ok (readline limit (buffer ++ chunk))
      else readlineOver limit (buffer ++ chunk) rest finish

/-- The body of the `try` in `_command`. -/
def converse (conversation : Conversation) : Except Raised Bytes := do
  call conversation.connect
  call conversation.send
  let reply ← readlineOver (maxReplySize + 1) [] conversation.chunks conversation.finish
  call conversation.close
  return reply

/-- `CacheClient._command`, with `except OSError`. -/
def commandOver (peer : Bytes → Conversation) (request : Bytes) : Except Raised Bytes :=
  match converse (peer request) with
  | .error (.osError _) => .error (.cacheError .requestFailed)
  | .error raised => .error raised
  | .ok reply =>
      if maxReplySize < reply.length ∨ reply.getLast? ≠ some lf then
        .error (.cacheError .malformedReply)
      else .ok reply

/-- `CacheClient.get`. -/
def getOver (peer : Bytes → Conversation) (key : String) : Except Raised (Option Bytes) := do
  let encoded ← raising (encodeKey key)
  let reply ← commandOver peer (getCommand encoded)
  raising (readGetReply reply)

/-- `CacheClient.set`. -/
def setOver (peer : Bytes → Conversation) (key : String) (value : Bytes) (ttl : Int) :
    Except Raised Unit := do
  let encodedKey ← raising (encodeKey key)
  let encodedValue ← raising (encodeValue value)
  if ¬ (0 ≤ ttl ∧ ttl ≤ ttlMax) then throw (.cacheError .invalidTtl)
  let reply ← commandOver peer (setCommand encodedKey ttl.toNat encodedValue)
  if reply ≠ ascii "OK\n" then throw (.cacheError .unexpectedSetReply)

/-! ## One command -/

/-- The bytes that arrive, unless a call fails before the reply is read. -/
def Conversation.outcome (conversation : Conversation) : Option Bytes :=
  match converse conversation with
  | .ok _ => some conversation.stream
  | .error _ => none

/-- A line is there once its newline or the limit is. -/
theorem readline_append {limit : Nat} {buffer : Bytes}
    (complete : lf ∈ buffer ∨ limit ≤ buffer.length) (rest : Bytes) :
    readline limit (buffer ++ rest) = readline limit buffer := by
  unfold readline
  cases found : cutAt lf buffer with
  | some parts =>
      obtain ⟨line, after⟩ := parts
      obtain ⟨rfl, clean⟩ := cutAt_eq_some_iff.mp found
      rw [List.append_assoc, List.cons_append, cutAt_append clean]
  | none =>
      have clean := cutAt_eq_none_iff.mp found
      have full : limit ≤ buffer.length := complete.resolve_left clean
      cases later : cutAt lf (buffer ++ rest) with
      | none => exact List.take_append_of_le_length full
      | some parts =>
          obtain ⟨line, after⟩ := parts
          obtain ⟨split, -⟩ := cutAt_eq_some_iff.mp later
          -- The newline stands behind the buffer, so the line starts with all of it.
          obtain ⟨tail, rfl⟩ : ∃ tail, line = buffer ++ tail := by
            rcases List.append_eq_append_iff.mp split with ⟨tail, whole, -⟩ | ⟨tail, whole, tailed⟩
            · exact ⟨tail, whole⟩
            · cases tail with
              | nil => exact ⟨[], by rw [whole, List.append_nil, List.append_nil]⟩
              | cons byte bytes =>
                  rw [List.cons_append, List.cons.injEq] at tailed
                  rw [whole, ← tailed.1] at clean
                  exact absurd (List.mem_append_right line List.mem_cons_self) clean
          dsimp only
          rw [List.append_assoc, List.take_append_of_le_length full]

/-- **The reply that is read** is the first line of the bytes that arrive, however they are cut. -/
theorem readlineOver_eq_ok {limit : Nat} {buffer reply : Bytes} {chunks : List Bytes}
    {finish : ReadEnd} (read : readlineOver limit buffer chunks finish = .ok reply) :
    reply = readline limit (buffer ++ (chunks.takeWhile (· ≠ [])).flatten) := by
  induction chunks generalizing buffer with
  | nil =>
      cases finish with
      | eof =>
          obtain rfl := Except.ok.inj read
          rw [List.takeWhile_nil, List.flatten_nil, List.append_nil]
      | failed error => cases read
  | cons chunk rest ih =>
      rw [readlineOver] at read
      split at read
      · rename_i ended
        obtain rfl := Except.ok.inj read
        rw [List.takeWhile_cons_of_neg (by simp [ended]), List.flatten_nil, List.append_nil]
      · rename_i more
        rw [List.takeWhile_cons_of_pos (by simp [more]), List.flatten_cons, ← List.append_assoc]
        split at read
        · rename_i complete
          obtain rfl := Except.ok.inj read
          exact (readline_append complete _).symm
        · exact ih read

/-- What is raised while the reply is read is an `OSError`. -/
theorem readlineOver_eq_error {limit : Nat} {buffer : Bytes} {chunks : List Bytes}
    {finish : ReadEnd} {raised : Raised}
    (failed : readlineOver limit buffer chunks finish = .error raised) :
    ∃ error, raised = .osError error := by
  induction chunks generalizing buffer with
  | nil =>
      cases finish with
      | eof => cases failed
      | failed error => exact ⟨error, (Except.error.inj failed).symm⟩
  | cons chunk rest ih =>
      rw [readlineOver] at failed
      split at failed
      · cases failed
      · split at failed
        · cases failed
        · exact ih failed

theorem call_cases (result : Option NetError) :
    call result = .ok () ∨ ∃ error, call result = .error (.osError error) := by
  cases result with
  | none => exact .inl rfl
  | some error => exact .inr ⟨error, rfl⟩

/-- **What the body of the `try` does**: it raises an `OSError`, or returns the first line of the
bytes that arrive. -/
theorem converse_cases (conversation : Conversation) :
    (∃ error, converse conversation = .error (.osError error)) ∨
      converse conversation = .ok (readline (maxReplySize + 1) conversation.stream) := by
  unfold converse
  rcases call_cases conversation.connect with connected | ⟨error, failed⟩
  · rcases call_cases conversation.send with sent | ⟨error, failed⟩
    · cases read : readlineOver (maxReplySize + 1) [] conversation.chunks conversation.finish with
      | error raised =>
          obtain ⟨error, rfl⟩ := readlineOver_eq_error read
          exact .inl ⟨error, by rw [connected, sent]; rfl⟩
      | ok reply =>
          have line := readlineOver_eq_ok read
          rw [List.nil_append] at line
          rcases call_cases conversation.close with closed | ⟨error, failed⟩
          · exact .inr (by rw [connected, sent, closed, line]; rfl)
          · exact .inl ⟨error, by rw [connected, sent, failed]; rfl⟩
    · exact .inl ⟨error, by rw [connected, failed]; rfl⟩
  · exact .inl ⟨error, by rw [failed]; rfl⟩

/-- **`_command` raises nothing but `CacheError`**, and otherwise returns the line that the bytes
start with. -/
theorem commandOver_eq (peer : Bytes → Conversation) (request : Bytes) :
    commandOver peer request =
      raising (command (fun sent => (peer sent).outcome) request) := by
  rcases converse_cases (peer request) with ⟨error, failed⟩ | read
  · have nothing : (peer request).outcome = none := by rw [Conversation.outcome, failed]
    simp only [commandOver, command, failed, nothing]
    rfl
  · have arrived : (peer request).outcome = some (peer request).stream := by
      rw [Conversation.outcome, read]
    simp only [commandOver, command, read, arrived]
    split <;> rfl

/-! ## The methods of the client -/

@[simp] theorem raising_ok_bind {α β : Type} (value : α) (next : α → Except Raised β) :
    (raising (.ok value) >>= next) = next value := rfl

theorem getOver_eq (peer : Bytes → Conversation) (key : String) :
    getOver peer key = raising (get (fun sent => (peer sent).outcome) key) := by
  unfold getOver get
  simp only [commandOver_eq]
  cases encodeKey key with
  | error reason => rfl
  | ok encoded =>
      rw [raising_ok_bind]
      dsimp only
      cases command (fun sent => (peer sent).outcome) (getCommand encoded) with
      | error reason => rfl
      | ok reply => rfl

theorem setOver_eq (peer : Bytes → Conversation) (key : String) (value : Bytes) (ttl : Int) :
    setOver peer key value ttl =
      raising (set (fun sent => (peer sent).outcome) key value ttl) := by
  unfold setOver set
  simp only [commandOver_eq]
  cases encodeKey key with
  | error reason => rfl
  | ok encodedKey =>
      cases encodeValue value with
      | error reason => rfl
      | ok encodedValue =>
          simp only [raising_ok_bind]
          split
          · rfl
          · cases command (fun sent => (peer sent).outcome)
                (setCommand encodedKey ttl.toNat encodedValue) with
            | error reason => rfl
            | ok reply =>
                simp only [raising_ok_bind]
                split <;> rfl

/-! ## The line behind a value -/

theorem readline_prefix (limit : Nat) (stream : Bytes) : readline limit stream <+: stream := by
  unfold readline
  cases found : cutAt lf stream with
  | none => exact List.take_prefix limit stream
  | some parts =>
      obtain ⟨line, after⟩ := parts
      obtain ⟨rfl, -⟩ := cutAt_eq_some_iff.mp found
      refine (List.take_prefix limit (line ++ [lf])).trans ⟨after, ?_⟩
      rw [List.append_assoc, List.singleton_append]

/-- A line that is accepted stands at the start of the stream, through its newline. -/
theorem command_eq_ok {peer : Bytes → Option Bytes} {request reply : Bytes}
    (accepted : command peer request = .ok reply) :
    ∃ stream, peer request = some stream ∧ reply <+: stream ∧ reply.getLast? = some lf := by
  unfold command at accepted
  split at accepted
  · cases accepted
  · rename_i stream arrived
    dsimp only at accepted
    split at accepted
    · cases accepted
    · rename_i complete
      obtain rfl := Except.ok.inj accepted
      exact ⟨stream, arrived, readline_prefix _ stream, not_not.mp (not_or.mp complete).2⟩

/-- A value comes from a line with the word `VALUE`, and it is one that may be sent. -/
theorem readGetReply_eq_some {reply value : Bytes} (ended : reply.getLast? = some lf)
    (found : readGetReply reply = .ok (some value)) :
    reply = ascii "VALUE " ++ value ++ [lf] ∧ SentValue value := by
  unfold readGetReply at found
  split at found
  · cases found
  · split at found
    · rename_i worded
      obtain ⟨payload, rfl⟩ := List.isPrefixOf_iff_prefix.mp worded.1
      rw [List.drop_left] at found
      split at found
      · cases found
      · rename_i sent accepted
        obtain ⟨rfl, isSent⟩ := encodeValue_eq_ok_iff.mp accepted
        cases found
        have nonempty : payload ≠ [] := by
          rintro rfl
          exact absurd ended (by decide)
        rw [List.getLast?_append_of_ne_nil _ nonempty, List.getLast?_eq_some_getLast nonempty,
          Option.some.injEq] at ended
        have split := List.dropLast_append_getLast nonempty
        rw [ended] at split
        refine ⟨?_, isSent⟩
        rw [List.append_assoc, split]
    · cases found

theorem Conversation.outcome_eq_some {conversation : Conversation} {stream : Bytes}
    (arrived : conversation.outcome = some stream) : stream = conversation.stream := by
  unfold Conversation.outcome at arrived
  split at arrived
  · exact (Option.some.inj arrived).symm
  · cases arrived

/-- **A value that `get` returns** was the first line of the reply. -/
theorem get_eq_some {peer : Bytes → Option Bytes} {key : String} {value : Bytes}
    (hit : get peer key = .ok (some value)) :
    ∃ encoded stream, encodeKey key = .ok encoded ∧ peer (getCommand encoded) = some stream ∧
      ascii "VALUE " ++ value ++ [lf] <+: stream ∧ SentValue value := by
  unfold get at hit
  split at hit
  · cases hit
  · rename_i encoded accepted
    split at hit
    · cases hit
    · rename_i reply received
      obtain ⟨stream, arrived, starts, ended⟩ := command_eq_ok received
      obtain ⟨rfl, sent⟩ := readGetReply_eq_some ended hit
      exact ⟨encoded, stream, accepted, arrived, starts, sent⟩

end CacheClient

namespace Server

open CacheClient (Conversation Raised SentValue raising)

/-! ## The response -/

/-- What the cache does on the connections of one `respond_with_cache`. -/
structure CacheService where
  onGet : Bytes → Conversation
  onSet : Bytes → Conversation

/-- The bytes that arrive on the connections. -/
def CacheService.outcomes (service : CacheService) : CachePeers where
  onGet := fun sent => (service.onGet sent).outcome
  onSet := fun sent => (service.onSet sent).outcome

/-- `respond_with_cache`, with `except CacheError`. -/
def respondOver (table : Routes) (cache : Option CacheService) (request : Request) :
    Except Raised Response :=
  match cache with
  | none => .ok (respond table request)
  | some service =>
      if ¬ isCached request then .ok (respond table request)
      else
        match CacheClient.getOver service.onGet cacheKey with
        | .error (.cacheError _) => .ok (respond table request)
        | .error raised => .error raised
        | .ok (some cachedBody) => .ok { status := "200 OK".toList, body := cachedBody ++ [lf] }
        | .ok none =>
            let response := respond table request
            match CacheClient.setOver service.onSet cacheKey (cacheValue response.body) cacheTtl with
            | .error (.cacheError _) => .ok response
            | .error raised => .error raised
            | .ok () => .ok response

/-- **`respond_with_cache` never raises.** Every exception of the client is a `CacheError`, and
what is returned depends only on the bytes that arrive. -/
theorem respondOver_eq (table : Routes) (cache : Option CacheService) (request : Request) :
    respondOver table cache request =
      .ok (respondWithCache table (cache.map CacheService.outcomes) request) := by
  cases cache with
  | none => rfl
  | some service =>
      simp only [respondOver, respondWithCache, Option.map_some, CacheClient.getOver_eq,
        CacheClient.setOver_eq, CacheService.outcomes]
      split
      · rfl
      · cases CacheClient.get (fun sent => (service.onGet sent).outcome) cacheKey with
        | error reason => rfl
        | ok found =>
            cases found with
            | some body => rfl
            | none =>
                cases CacheClient.set (fun sent => (service.onSet sent).outcome) cacheKey
                    (cacheValue (respond table request).body) cacheTtl with
                | error reason => rfl
                | ok stored => rfl

/-- The key of the cached route, as it is sent. -/
theorem encodeKey_cacheKey : CacheClient.encodeKey cacheKey = .ok (ascii cacheKey) := by decide

/-- **Cache failures stay inside the cache path.** Whatever the cache does, `respond_with_cache`
returns a response. It is that of `respond`, or, for the cached route only, one whose body is
the value in the first line of the reply, which has 1 to 4096 bytes without CR, LF and NUL. -/
theorem cache_failures_contained (table : Routes) (cache : Option CacheService)
    (request : Request) :
    ∃ response, respondOver table cache request = .ok response ∧
      (response = respond table request ∨
        ∃ service value,
          cache = some service ∧ request.method = "GET".toList ∧
            request.target = "/hello".toList ∧ SentValue value ∧
            ascii "VALUE " ++ value ++ [lf] <+:
              (service.onGet (CacheClient.getCommand (ascii cacheKey))).stream ∧
            response = { status := "200 OK".toList, body := value ++ [lf] }) := by
  refine ⟨_, respondOver_eq table cache request, ?_⟩
  cases cached : isCached request with
  | false => exact .inl (respondWithCache_of_other cached _)
  | true =>
      cases cache with
      | none => exact .inl rfl
      | some service =>
          rw [Option.map_some]
          cases looked : CacheClient.get service.outcomes.onGet cacheKey with
          | error reason => exact .inl (respondWithCache_of_error looked)
          | ok found =>
              cases found with
              | none => exact .inl (respondWithCache_of_miss looked)
              | some value =>
                  obtain ⟨encoded, stream, accepted, arrived, starts, sent⟩ :=
                    CacheClient.get_eq_some looked
                  rw [encodeKey_cacheKey] at accepted
                  obtain rfl := Except.ok.inj accepted
                  have same := CacheClient.Conversation.outcome_eq_some arrived
                  rw [isCached, Bool.and_eq_true, decide_eq_true_eq, decide_eq_true_eq] at cached
                  exact .inr ⟨service, value, rfl, cached.1, cached.2, sent, same ▸ starts,
                    respondWithCache_of_hit (by simp [isCached, cached]) looked⟩

end Server

end InfraFromScratch.Http
