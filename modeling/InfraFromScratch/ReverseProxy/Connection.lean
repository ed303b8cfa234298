import InfraFromScratch.Foundations.Arrival
import InfraFromScratch.Gateway.Relay

/-!
# One connection of the reverse proxy

`handleConnection` in `reverse-proxy/server.go` reads one request and makes one attempt at
its backend. It differs from the load balancer in how it reads: what came after the end of
the headers in the same read is counted against the limit and forwarded.
-/

set_option autoImplicit false

namespace InfraFromScratch.ReverseProxy

open Foundations Gateway

/-! ## Reading the request -/

/-- The loop of `readRequest`. -/
def readChunks (request : Bytes) : List Bytes → Bytes → ReadEnd → Bytes × Option ReadError
  | [], last, finish =>
      if indexOf headerEnd request ≠ none then (request, none)
      else if last ≠ [] ∧ maxRequestSize < (request ++ last).length then ([], some .tooLarge)
      else (request ++ last, some (.network finish))
  | chunk :: rest, last, finish =>
      if indexOf headerEnd request ≠ none then (request, none)
      else if chunk = [] then readChunks request rest last finish
      else if maxRequestSize < (request ++ chunk).length then ([], some .tooLarge)
      else readChunks (request ++ chunk) rest last finish

/-- `readRequest`. -/
def readRequest (incoming : Incoming) : Bytes × Option ReadError :=
  readChunks [] incoming.reads incoming.last incoming.finish

/-- **The request that is read**: a part of the stream that has the end of the headers and
is not too large. -/
theorem readChunks_eq_ok {request result : Bytes} {reads : List Bytes} {last : Bytes}
    {finish : ReadEnd} (small : request.length ≤ maxRequestSize)
    (ok : readChunks request reads last finish = (result, none)) :
    result <+: request ++ reads.flatten ∧ indexOf headerEnd result ≠ none ∧
      result.length ≤ maxRequestSize := by
  induction reads generalizing request with
  | nil =>
      rw [readChunks] at ok
      split at ok
      · rename_i marked
        cases ok
        exact ⟨List.prefix_append _ _, marked, small⟩
      · split at ok
        · cases ok
        · cases ok
  | cons chunk rest ih =>
      rw [readChunks] at ok
      rw [List.flatten_cons, ← List.append_assoc]
      split at ok
      · rename_i marked
        cases ok
        refine ⟨?_, marked, small⟩
        rw [List.append_assoc]
        exact List.prefix_append _ _
      · split at ok
        · rename_i empty
          rw [empty, List.append_nil]
          exact ih small ok
        · split at ok
          · cases ok
          · rename_i fits
            exact ih (not_lt.mp fits) ok

/-- **What the loop comes to**: what was received when the end of the headers was there, if
that is not too large. -/
theorem readChunks_eq {request : Bytes} {reads : List Bytes} (finish : ReadEnd)
    (nonempty : ∀ chunk ∈ reads, chunk ≠ []) (small : request.length ≤ maxRequestSize) :
    readChunks request reads [] finish =
      if maxRequestSize < (arrive headerEnd request reads).length then ([], some .tooLarge)
      else if indexOf headerEnd (arrive headerEnd request reads) = none then
        (arrive headerEnd request reads, some (.network finish))
      else (arrive headerEnd request reads, none) := by
  induction reads generalizing request with
  | nil =>
      rw [readChunks, arrive, if_neg (not_lt.mpr small), List.append_nil]
      simp only [ne_eq, not_true_eq_false, false_and, if_false, ite_not]
  | cons chunk rest ih =>
      rw [readChunks]
      by_cases missing : indexOf headerEnd request = none
      · rw [if_neg (not_not.mpr missing), if_neg (nonempty chunk List.mem_cons_self),
          arrive_cons_of_missing missing]
        by_cases large : maxRequestSize < (request ++ chunk).length
        · rw [if_pos large,
            if_pos (large.trans_le (prefix_arrive headerEnd (request ++ chunk) rest).length_le)]
        · rw [if_neg large]
          exact ih (fun later member => nonempty later (List.mem_cons_of_mem _ member))
            (not_lt.mp large)
      · rw [if_pos missing, arrive_of_found missing, if_neg (not_lt.mpr small), if_neg missing]

/-- The request, unless it is malformed or advertises a body. -/
def acceptRequest (tables : UnicodeTables) (incoming : Incoming) : Option Bytes :=
  let (request, error) := readRequest incoming
  if error ≠ none ∨ request.length = 0 ∨ indexOf headerEnd request = none then none
  else if hasUnsupportedBody tables request = true then none
  else some request

/-- **A request that is accepted** is a part of the stream that has the end of the headers,
is not too large and advertises no body. -/
theorem acceptRequest_eq_some {tables : UnicodeTables} {incoming : Incoming} {request : Bytes}
    (accepted : acceptRequest tables incoming = some request) :
    request <+: incoming.reads.flatten ∧ indexOf headerEnd request ≠ none ∧
      request.length ≤ maxRequestSize ∧ hasUnsupportedBody tables request = false := by
  cases read : readRequest incoming with
  | mk result error =>
      simp only [acceptRequest, read] at accepted
      split at accepted
      · cases accepted
      · rename_i valid
        split at accepted
        · cases accepted
        · rename_i noBody
          cases accepted
          obtain ⟨noError, -, -⟩ := not_or.mp valid |>.imp not_not.mp not_or.mp
          subst noError
          obtain ⟨isPrefix, marked, small⟩ := readChunks_eq_ok (Nat.zero_le _) read
          exact ⟨isPrefix, marked, small, Bool.eq_false_iff.mpr noBody⟩

/-! ## Runs -/

/-- What one run of `handleConnection` meets: the client and the backend. -/
structure Environment where
  incoming : Incoming
  writes : Nat → WriteResult
  exchange : Exchange

/-- What a run did: its attempt, the error page it sent, if any, and what the client
received. -/
structure Run where
  attempt : Option Relayed
  page : Option (String × String)
  client : Outgoing

/-- The page for an error of the backend. -/
def gatewayPage : NetError → String × String
  | .timeout => ("504 Gateway Timeout", "Gateway Timeout\n")
  | .other => ("502 Bad Gateway", "Bad Gateway\n")

/-- `handleConnection`. -/
def handleConnection (tables : UnicodeTables) (environment : Environment) : Run :=
  match acceptRequest tables environment.incoming with
  | none =>
      ⟨none, some ("400 Bad Request", "Bad Request\n"),
        sendError environment.writes .start "400 Bad Request" "Bad Request\n"⟩
  | some request =>
      let relayed := attempt environment.writes .start environment.exchange request
      match relayed.error with
      | none => ⟨some relayed, none, relayed.client⟩
      | some error =>
          if relayed.started = true then ⟨some relayed, none, relayed.client⟩
          else
            ⟨some relayed, some (gatewayPage error),
              sendError environment.writes relayed.client (gatewayPage error).1
                (gatewayPage error).2⟩

theorem acceptRequest_plain (tables : UnicodeTables) :
    acceptRequest tables ⟨[plainRequest], [], .eof⟩ = some plainRequest := by
  have read : readRequest ⟨[plainRequest], [], .eof⟩ = (plainRequest, none) := by decide
  have marked : indexOf headerEnd plainRequest ≠ none := by decide
  have nonempty : plainRequest.length ≠ 0 := by decide
  simp [acceptRequest, read, marked, nonempty, hasUnsupportedBody_plainRequest]

section Outcomes

variable {tables : UnicodeTables} {environment : Environment} {request : Bytes}
  (accepted : acceptRequest tables environment.incoming = some request) {relayed : Relayed}
  (attempted : attempt environment.writes .start environment.exchange request = relayed)

include accepted attempted

/-- After an attempt without error, or with a response started, nothing more is sent. -/
theorem handleConnection_of_relayed (settled : relayed.error = none ∨ relayed.started = true) :
    handleConnection tables environment = ⟨some relayed, none, relayed.client⟩ := by
  simp only [handleConnection, accepted, attempted]
  cases error : relayed.error with
  | none => rfl
  | some reason =>
      rcases settled with noError | started
      · rw [error] at noError
        cases noError
      · exact if_pos started

theorem handleConnection_of_failed {error : NetError} (isError : relayed.error = some error)
    (started : relayed.started = false) :
    handleConnection tables environment =
      ⟨some relayed, some (gatewayPage error),
        sendError environment.writes relayed.client (gatewayPage error).1
          (gatewayPage error).2⟩ := by
  simp only [handleConnection, accepted, attempted, isError, started, Bool.false_eq_true, if_false]

omit attempted in
theorem handleConnection_attempt :
    (handleConnection tables environment).attempt =
      some (attempt environment.writes .start environment.exchange request) := by
  simp only [handleConnection, accepted]
  split
  · rfl
  · split
    · rfl
    · rfl

end Outcomes

end InfraFromScratch.ReverseProxy
