import InfraFromScratch.Foundations.Arrival
import InfraFromScratch.Gateway.Relay

/-!
# Reading a request in the HTTP server

`read_request` in `http-server/server.py` collects what `recv` returns until the end of
the headers has arrived. At the end of the stream `recv` returns nothing, and when the
connection fails it raises an error of its own.
-/

set_option autoImplicit false

namespace InfraFromScratch.Http

open Foundations Gateway

namespace Server

/-- `BUFFER_SIZE`. -/
def bufferSize : Nat := 4096

/-- `MAX_REQUEST_SIZE`. -/
def maxRequestSize : Nat := 64 * 1024

/-- What `read_request` raises: a `ValueError` with its text, or the error of `recv`. -/
inductive ReadRequestError where
  | valueError (text : String)
  | socketError (error : NetError)
  deriving DecidableEq, Repr

/-- The part of `read_request` after its loop. -/
def cutRequest (request : Bytes) (index : Nat) : Except ReadRequestError Bytes :=
  if maxRequestSize < index + 4 then .error (.valueError "request headers are too large")
  else .ok (request.take (index + 4))

/-- `read_request`, with what was received so far, from the chunks that `recv` returns and
how they end. -/
def readChunks (request : Bytes) : List Bytes → ReadEnd → Except ReadRequestError Bytes
  | [], finish =>
      match indexOf headerEnd request with
      | some index => cutRequest request index
      | none =>
          match finish with
          | .eof => .error (.valueError "incomplete request headers")
          | .failed error => .error (.socketError error)
  | chunk :: rest, finish =>
      match indexOf headerEnd request with
      | some index => cutRequest request index
      | none =>
          if chunk = [] then .error (.valueError "incomplete request headers")
          else if maxRequestSize < (request ++ chunk).length then
            .error (.valueError "request headers are too large")
          else readChunks (request ++ chunk) rest finish

/-- `read_request`. -/
def readRequest (chunks : List Bytes) (finish : ReadEnd) : Except ReadRequestError Bytes :=
  readChunks [] chunks finish

theorem cutRequest_of_fits {request : Bytes} {index : Nat} (fits : index + 4 ≤ maxRequestSize) :
    cutRequest request index = .ok (request.take (index + 4)) :=
  if_neg (not_lt.mpr fits)

/-- **The request that is read** from a stream of limited length: all through the first end
of headers, however it arrives. -/
theorem readChunks_of_found {request : Bytes} {chunks : List Bytes} {index : Nat}
    (nonempty : ∀ chunk ∈ chunks, chunk ≠ [])
    (found : indexOf headerEnd (request ++ chunks.flatten) = some index)
    (fits : (request ++ chunks.flatten).length ≤ maxRequestSize) (finish : ReadEnd) :
    readChunks request chunks finish = .ok ((request ++ chunks.flatten).take (index + 4)) := by
  have room : index + 4 ≤ (request ++ chunks.flatten).length :=
    indexOf_add_length_le headerEnd_ne_nil found
  induction chunks generalizing request with
  | nil =>
      rw [List.flatten_nil, List.append_nil] at found fits room ⊢
      simp only [readChunks, found]
      exact cutRequest_of_fits (room.trans fits)
  | cons chunk rest ih =>
      cases here : indexOf headerEnd request with
      | some first =>
          have same : first = index := Option.some.inj
            ((indexOf_append headerEnd_ne_nil here _).symm.trans found)
          have inside : index + 4 ≤ request.length := by
            subst same
            exact indexOf_add_length_le headerEnd_ne_nil here
          simp only [readChunks, here, same]
          rw [cutRequest_of_fits (room.trans fits), List.take_append_of_le_length inside]
      | none =>
          rw [List.flatten_cons, ← List.append_assoc] at found fits room ⊢
          have small : ¬ maxRequestSize < (request ++ chunk).length := by
            rw [List.length_append] at fits
            omega
          simp only [readChunks, here]
          rw [if_neg (nonempty chunk List.mem_cons_self), if_neg small]
          exact ih (fun later member => nonempty later (List.mem_cons_of_mem _ member)) found fits
            room

/-- **What the loop comes to**: the size of what was received when the end of the headers
was there, and the place of that end, decide. -/
theorem readChunks_eq {request : Bytes} {chunks : List Bytes}
    (nonempty : ∀ chunk ∈ chunks, chunk ≠ []) (small : request.length ≤ maxRequestSize) :
    readChunks request chunks .eof =
      if maxRequestSize < (arrive headerEnd request chunks).length then
        .error (.valueError "request headers are too large")
      else
        match indexOf headerEnd (arrive headerEnd request chunks) with
        | some index => cutRequest (arrive headerEnd request chunks) index
        | none => .error (.valueError "incomplete request headers") := by
  induction chunks generalizing request with
  | nil =>
      rw [readChunks, arrive, if_neg (not_lt.mpr small)]
  | cons chunk rest ih =>
      rw [readChunks]
      cases here : indexOf headerEnd request with
      | some index =>
          have found : indexOf headerEnd request ≠ none := by
            rw [here]
            exact Option.some_ne_none _
          rw [arrive_of_found found, if_neg (not_lt.mpr small), here]
      | none =>
          rw [arrive_cons_of_missing here]
          dsimp only
          rw [if_neg (nonempty chunk List.mem_cons_self)]
          by_cases large : maxRequestSize < (request ++ chunk).length
          · rw [if_pos large,
              if_pos (large.trans_le (prefix_arrive headerEnd (request ++ chunk) rest).length_le)]
          · rw [if_neg large]
            exact ih (fun later member => nonempty later (List.mem_cons_of_mem _ member))
              (not_lt.mp large)

end Server

end InfraFromScratch.Http
