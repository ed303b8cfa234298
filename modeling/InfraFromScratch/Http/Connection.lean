import InfraFromScratch.Http.CacheFailures
import InfraFromScratch.Http.Requests
import InfraFromScratch.Http.Responses
import InfraFromScratch.Http.Server

/-!
# One connection of the HTTP server

`handle_connection` in `http-server/server.py` reads one request and prepares one response. What
goes wrong on the way is answered with `400 Bad Request`.

Whatever arrives and whatever the cache does, exactly one response is prepared and no exception
escapes, and the response is one that the client can read (`handleConnection_answers`).
-/

set_option autoImplicit false

namespace InfraFromScratch.Http

open Foundations Gateway

namespace Server

open CacheClient (Raised)

/-- The response to what cannot be answered. -/
def badRequest : Response := { status := "400 Bad Request".toList, body := ascii "Bad Request\n" }

/-- `build_response` of a response. -/
def Response.build (response : Response) : Option Bytes :=
  buildResponse response.status response.body response.headers

/-- The bytes that `handle_connection` passes to `sendall`, or nothing where an exception escapes.
An encoding error of `build_response` is a `ValueError`. -/
def handleConnection (table : Routes) (cache : Option CacheService) (chunks : List Bytes)
    (finish : ReadEnd) : Option Bytes :=
  match readRequest chunks finish with
  | .error _ => badRequest.build
  | .ok bytes =>
      match admitRequest bytes with
      | .error _ => badRequest.build
      | .ok request =>
          match respondOver table cache request with
          | .error (.cacheError _) => none
          | .error (.osError _) => badRequest.build
          | .ok response =>
              match response.build with
              | none => badRequest.build
              | some wire => some wire

/-- What the connection is to be answered: the response of the application to a request that is
read and admitted, and otherwise a bad request. -/
def answer (table : Routes) (cache : Option CacheService) (chunks : List Bytes)
    (finish : ReadEnd) : Response :=
  match readRequest chunks finish with
  | .error _ => badRequest
  | .ok bytes =>
      match admitRequest bytes with
      | .error _ => badRequest
      | .ok request => respondWithCache table (cache.map CacheService.outcomes) request

/-- The responses of the program, apart from their bodies. -/
def heads : List (Text × List (Text × Text)) :=
  [("200 OK".toList, []), ("404 Not Found".toList, []), ("400 Bad Request".toList, []),
    ("405 Method Not Allowed".toList, [("Allow".toList, "GET".toList)])]

theorem respond_head (request : Request) :
    ((respond routes request).status, (respond routes request).headers) ∈ heads := by
  rw [respond]
  split
  · decide
  · dsimp only
    cases found : routes.lookup request.target with
    | none => decide
    | some route =>
        have known : ∀ entry ∈ routes, (entry.2.1, ([] : List (Text × Text))) ∈ heads :=
          List.all_iff_forall_prop.mp (by decide)
        obtain ⟨before, after, split, -⟩ := List.lookup_eq_some_iff.mp found
        exact known (request.target, route) (split ▸ List.mem_append_right _ List.mem_cons_self)

theorem respondWithCache_head (cache : Option CachePeers) (request : Request) :
    ((respondWithCache routes cache request).status,
      (respondWithCache routes cache request).headers) ∈ heads := by
  have plain := respond_head request
  cases cached : isCached request with
  | false =>
      rw [respondWithCache_of_other cached]
      exact plain
  | true =>
      cases cache with
      | none => exact plain
      | some peers =>
          cases looked : CacheClient.get peers.onGet cacheKey with
          | error reason =>
              rw [respondWithCache_of_error looked]
              exact plain
          | ok found =>
              cases found with
              | none =>
                  rw [respondWithCache_of_miss looked]
                  exact plain
              | some body =>
                  rw [respondWithCache_of_hit cached looked]
                  exact List.mem_cons_self

/-- Every answer has one of the heads. -/
theorem answer_head (cache : Option CacheService) (chunks : List Bytes) (finish : ReadEnd) :
    ((answer routes cache chunks finish).status,
      (answer routes cache chunks finish).headers) ∈ heads := by
  rw [answer]
  split
  · decide
  · split
    · decide
    · exact respondWithCache_head _ _

end Server

/-! ## What the client reads -/

/-- The client reads the status, the headers and the body of the response, and the length and the
end of the connection that `build_response` adds. -/
structure Client.Response.Shows (received : Client.Response) (response : Server.Response) :
    Prop where
  version : received.version = "HTTP/1.1".toList
  status : response.status = received.status.repr.toList ++ ' ' :: received.reason
  headers : ∀ header ∈ response.headers,
    received.headers.lookup (Client.lower header.1) = some header.2
  length : received.headers.lookup "content-length".toList =
    some response.body.length.repr.toList
  connection : received.headers.lookup "connection".toList = some "close".toList
  body : received.body = response.body

namespace Client

/-- Every response with a head that the client understands is read back. -/
theorem exists_wire {status reason : Text} {code : Nat} {headers : List (Text × Text)}
    (parsed : parseStatusLine ("HTTP/1.1 ".toList ++ status) =
      .ok ("HTTP/1.1".toList, code, reason))
    (plain : Plain status) (fields : ∀ header ∈ headers, Field header)
    (plainCoding : ∀ name ∈ ["transfer-encoding".toList, "content-encoding".toList],
      lastValue headers name = none) (body : Bytes) :
    ∃ wire, Server.buildResponse status body headers = some wire ∧
      readResponse wire = .ok ⟨"HTTP/1.1".toList, code, reason,
        setItems [] (headers ++ framing body.length), body⟩ := by
  have all : ∀ header ∈ headers ++ framing body.length, Field header := by
    intro header member
    rcases List.mem_append.mp member with given | added
    · exact fields header given
    · exact framing_fields _ header added
  have absent : ∀ name ∈ ["transfer-encoding".toList, "content-encoding".toList],
      name ∉ (setItems [] (headers ++ framing body.length)).names := by
    intro name member
    have other : name ≠ "content-length".toList ∧ name ≠ "connection".toList := by
      rcases List.mem_pair.mp member with rfl | rfl <;> decide
    rw [mem_names_iff, lookup_received, if_neg other.1, if_neg other.2, plainCoding name member]
    decide
  exact ⟨_, buildResponse_eq plain fields body, readResponse_of_head
    (Plain.append (by decide) plain) parsed all (absent _ List.mem_cons_self)
    (absent _ (List.mem_cons_of_mem _ List.mem_cons_self)) body⟩

/-- A response whose headers the client keeps apart. -/
theorem readable {status reason : Text} {code : Nat} {headers : List (Text × Text)}
    (text : status = code.repr.toList ++ ' ' :: reason)
    (parsed : parseStatusLine ("HTTP/1.1 ".toList ++ status) =
      .ok ("HTTP/1.1".toList, code, reason))
    (plain : Plain status) (fields : ∀ header ∈ headers, Field header)
    (plainCoding : ∀ name ∈ ["transfer-encoding".toList, "content-encoding".toList],
      lastValue headers name = none)
    (apart : ∀ header ∈ headers, lower header.1 ≠ "content-length".toList ∧
      lower header.1 ≠ "connection".toList ∧
      lastValue headers (lower header.1) = some header.2) (body : Bytes) :
    ∃ wire received, Server.Response.build ⟨status, body, headers⟩ = some wire ∧
      readResponse wire = .ok received ∧ received.Shows ⟨status, body, headers⟩ := by
  obtain ⟨wire, built, read⟩ := exists_wire parsed plain fields plainCoding body
  refine ⟨wire, _, built, read, rfl, text, fun header member => ?_, ?_, ?_, rfl⟩
  · obtain ⟨notLength, notConnection, last⟩ := apart header member
    dsimp only
    rw [lookup_received, if_neg notLength, if_neg notConnection, last]
  · exact lookup_received headers body.length _
  · exact lookup_received headers body.length _

/-- **The responses of the program** can be built and read. -/
theorem readable_of_head {response : Server.Response}
    (known : (response.status, response.headers) ∈ Server.heads) :
    ∃ wire received, response.build = some wire ∧ readResponse wire = .ok received ∧
      received.Shows response := by
  obtain ⟨status, body, headers⟩ := response
  simp only [Server.heads, List.mem_cons, Prod.mk.injEq, List.not_mem_nil, or_false] at known
  have noHeaders : ∀ header ∈ ([] : List (Text × Text)), Field header := fun _ member => nomatch member
  have allow : ∀ header ∈ [("Allow".toList, "GET".toList)], Field header := by
    intro header member
    rw [List.mem_singleton.mp member]
    exact ⟨by decide, List.all_iff_forall_prop.mp (by decide)⟩
  rcases known with ⟨rfl, rfl⟩ | ⟨rfl, rfl⟩ | ⟨rfl, rfl⟩ | ⟨rfl, rfl⟩
  · exact @readable _ "OK".toList 200 _ (by decide) (by decide) (by decide) noHeaders (by decide)
      (by decide) body
  · exact @readable _ "Not Found".toList 404 _ (by decide) (by decide) (by decide) noHeaders
      (by decide) (by decide) body
  · exact @readable _ "Bad Request".toList 400 _ (by decide) (by decide) (by decide) noHeaders
      (by decide) (by decide) body
  · exact @readable _ "Method Not Allowed".toList 405 _ (by decide) (by decide) (by decide) allow
      (by decide) (by decide) body

end Client

/-- **The connection gets its answer**, built. -/
theorem Server.handleConnection_eq (cache : Option Server.CacheService) (chunks : List Bytes)
    (finish : ReadEnd) :
    Server.handleConnection Server.routes cache chunks finish =
      (Server.answer Server.routes cache chunks finish).build := by
  obtain ⟨wire, -, built, -, -⟩ := Client.readable_of_head (Server.answer_head cache chunks finish)
  rw [built]
  unfold Server.handleConnection
  unfold Server.answer at built
  cases requested : Server.readRequest chunks finish with
  | error reason =>
      rw [requested] at built
      exact built
  | ok bytes =>
      rw [requested] at built
      dsimp only at built ⊢
      cases admitted : Server.admitRequest bytes with
      | error reason =>
          rw [admitted] at built
          exact built
      | ok request =>
          rw [admitted] at built
          dsimp only at built ⊢
          rw [Server.respondOver_eq]
          dsimp only
          rw [built]

/-- **Exactly one response.** Whatever arrives on the connection, however it ends and whatever the
cache does, no exception escapes `handle_connection`. It sends the response of the application to
a request that it admits, and a bad request otherwise, and the client reads the response back. -/
theorem handleConnection_answers (cache : Option Server.CacheService) (chunks : List Bytes)
    (finish : ReadEnd) :
    ∃ wire received, Server.handleConnection Server.routes cache chunks finish = some wire ∧
      Client.readResponse wire = .ok received ∧
      received.Shows (Server.answer Server.routes cache chunks finish) := by
  rw [Server.handleConnection_eq]
  exact Client.readable_of_head (Server.answer_head cache chunks finish)

end InfraFromScratch.Http
