import InfraFromScratch.Http.Connection
import InfraFromScratch.Stack.BodyFraming
import InfraFromScratch.Stack.RequestReading

/-!
# A request and its response through the whole stack

A client sends a request to the reverse proxy, which forwards it to the load balancer, which tries
its backends until one answers. The response comes back the same way. Each connection on the way
cuts its stream into reads of its own.

Where every attempt on the way fails before its first byte or is served whole, the client reads
exactly one reply, whatever it sends: the response of the first sound backend, or the one error page
for what went wrong. The response to a header block that the server admits is that of the
application (`stack_replies`).
-/

set_option autoImplicit false

namespace InfraFromScratch.Stack

open Foundations Gateway Http

/-! ## Error pages -/

/-- The error pages of the reverse proxy and the load balancer. -/
def pages : List (String × String) :=
  [("400 Bad Request", "Bad Request\n"), ("502 Bad Gateway", "Bad Gateway\n"),
    ("504 Gateway Timeout", "Gateway Timeout\n")]

/-- The client reads the status and the text of the page. -/
structure ShowsPage (received : Client.Response) (status body : String) : Prop where
  status : status.toList = received.status.repr.toList ++ ' ' :: received.reason
  body : received.body = ascii body

theorem errorPage_eq (status body : String) :
    errorPage status body =
      Client.lineBytes ("HTTP/1.0 ".toList ++ status.toList) ++
        ((((Client.framing (ascii body).length).map Client.fieldLine).map
          Client.lineBytes).flatten ++ ([cr, lf] ++ ascii body)) := by
  have ends : ascii "\r\nConnection: close\r\n\r\n" =
      [cr, lf] ++ (ascii "Connection: close" ++ [cr, lf] ++ [cr, lf]) := by decide
  have starts : ascii "\r\nContent-Length: " = [cr, lf] ++ ascii "Content-Length: " := by decide
  rw [errorPage, ends, starts]
  simp [Client.framing, Client.lineBytes, Client.fieldLine, asciiBytes, ascii, decimal]

/-- **Every error page is readable.** -/
theorem readable_of_page {status body : String} (known : (status, body) ∈ pages) :
    ∃ received, Client.readResponse (errorPage status body) = .ok received ∧
      ShowsPage received status body := by
  have read : ∀ {status body : String} {code : Nat} {reason : Text},
      status.toList = code.repr.toList ++ ' ' :: reason →
      Client.parseStatusLine ("HTTP/1.0 ".toList ++ status.toList) =
        .ok ("HTTP/1.0".toList, code, reason) →
      Client.Plain status.toList →
      ∃ received, Client.readResponse (errorPage status body) = .ok received ∧
        ShowsPage received status body := by
    intro status body code reason text parsed plain
    have absent : ∀ name ∈ ["transfer-encoding".toList, "content-encoding".toList],
        name ∉ (Client.setItems [] (Client.framing (ascii body).length)).names := by
      intro name member
      have other : name ≠ "content-length".toList ∧ name ≠ "connection".toList := by
        rcases List.mem_pair.mp member with rfl | rfl <;> decide
      have looked := Client.lookup_received [] (ascii body).length name
      rw [List.nil_append, if_neg other.1, if_neg other.2] at looked
      rw [Client.mem_names_iff, looked, show Client.lastValue [] name = none from rfl]
      decide
    refine ⟨_, (congrArg Client.readResponse (errorPage_eq status body)).trans
      (Client.readResponse_of_head (Client.Plain.append (by decide) plain) parsed
        (Client.framing_fields _) (absent _ List.mem_cons_self)
        (absent _ (List.mem_cons_of_mem _ List.mem_cons_self)) (ascii body)), text, rfl⟩
  simp only [pages, List.mem_cons, Prod.mk.injEq, List.not_mem_nil, or_false] at known
  rcases known with ⟨rfl, rfl⟩ | ⟨rfl, rfl⟩ | ⟨rfl, rfl⟩
  · exact @read _ _ 400 "Bad Request".toList (by decide) (by decide) (by decide)
  · exact @read _ _ 502 "Bad Gateway".toList (by decide) (by decide) (by decide)
  · exact @read _ _ 504 "Gateway Timeout".toList (by decide) (by decide) (by decide)

/-! ## Attempts -/

/-- The backend takes the request, sends the response and closes. -/
structure Gives (exchange : Exchange) (response : Bytes) : Prop where
  dial : exchange.dial = none
  requestWrite : exchange.requestWrite = none
  whole : exchange.answer.bytes = response
  finish : exchange.answer.finish = .eof

/-- The first error of a backend. -/
def failure (exchange : Exchange) : Option NetError :=
  match exchange.dial, exchange.requestWrite with
  | some error, _ => some error
  | none, some error => some error
  | none, none => exchange.answer.finish.error

theorem Gives.not_fails {exchange : Exchange} {response : Bytes} (gives : Gives exchange response) :
    ¬ exchange.Fails := by
  rintro (dialled | written | ⟨-, error, failed⟩)
  · exact dialled gives.dial
  · exact written gives.requestWrite
  · rw [gives.finish] at failed
    cases failed

section Attempts

variable {results : Nat → WriteResult} (done : ∀ call, results call = .done) (client : Outgoing)
  {exchange : Exchange} (request : Bytes)

include done

/-- The whole response is delivered. -/
theorem attempt_of_gives {response : Bytes} (gives : Gives exchange response) :
    (attempt results client exchange request).error = none ∧
      (attempt results client exchange request).client.delivered =
        client.delivered ++ response := by
  have noError : (attempt results client exchange request).error = none := by
    rw [attempt_eq results client request gives.dial gives.requestWrite, Relayed.after_error,
      relayReads_error results done, gives.finish]
    rfl
  obtain ⟨part, -, delivered, complete⟩ := attempt_delivered results client request exchange
  refine ⟨noError, ?_⟩
  rw [delivered, complete noError, gives.whole]

/-- The error is the first one of the backend. -/
theorem attempt_error (exchange : Exchange) :
    (attempt results client exchange request).error = failure exchange := by
  cases dial : exchange.dial with
  | some error => rw [attempt, failure, dial]
  | none =>
      cases requestWrite : exchange.requestWrite with
      | some error =>
          rw [attempt, failure, dial, relay, requestWrite]
          rfl
      | none =>
          rw [attempt_eq results client request dial requestWrite, failure, dial, requestWrite]
          exact relayReads_error results done _ _ _ _ _

/-- An error page to a client that nothing was delivered to is delivered whole. -/
theorem sendError_of_done {client : Outgoing} (fresh : client.delivered = [])
    (status body : String) :
    (sendError results client status body).delivered = errorPage status body := by
  rw [sendError, write_of_done (done _), fresh]
  rfl

end Attempts

/-! ## The chain -/

/-- What one run of the HTTP server meets. -/
structure Service where
  chunks : List Bytes
  finish : ReadEnd
  cache : Option Server.CacheService

/-- The run of the HTTP server. -/
def Service.run (service : Service) : Option Bytes :=
  Server.handleConnection Server.routes service.cache service.chunks service.finish

/-- The response that is due. -/
def Service.answer (service : Service) : Server.Response :=
  Server.answer Server.routes service.cache service.chunks service.finish

/-- The connections that one request may cause: to the reverse proxy, from there to the load
balancer, and from there to the server at each offset. -/
structure Connections where
  proxy : ReverseProxy.Environment
  balancer : LoadBalancer.Environment
  serverAt : Nat → Service

namespace Connections

/-- The run of the reverse proxy. -/
def proxied (connections : Connections) (tables : UnicodeTables) : ReverseProxy.Run :=
  ReverseProxy.handleConnection tables connections.proxy

/-- The run of the load balancer. -/
def balanced (connections : Connections) (tables : UnicodeTables) : LoadBalancer.Run :=
  LoadBalancer.handleConnection tables connections.balancer

end Connections

/-- What one program writes, the next one reads, unless the attempt fails before its first byte.
The clients on the way take what they are sent. -/
structure Linked (tables : UnicodeTables) (stream : Bytes) (connections : Connections) : Prop where
  arrives : connections.proxy.incoming.Segments stream
  proxyWrites : ∀ call, connections.proxy.writes call = .done
  forwarded : ∀ request, Forwards (connections.proxied tables) request →
    connections.balancer.incoming.Segments request
  balancerWrites : ∀ call, connections.balancer.writes call = .done
  inRange : 0 ≤ LoadBalancer.initialIndex connections.balancer.selection
    connections.balancer.backends.length
  returned : connections.proxy.exchange.Fails ∨
    Gives connections.proxy.exchange (connections.balanced tables).client.delivered
  served : ∀ offset < connections.balancer.backends.length,
    (connections.balancer.exchangeAt offset).Fails ∨
      ∀ wire, (connections.serverAt offset).run = some wire →
        Gives (connections.balancer.exchangeAt offset) wire

/-- What the client is to read. The cases exclude each other. -/
inductive Reply (tables : UnicodeTables) (connections : Connections)
    (received : Client.Response) : Prop where
  | refused
      (refuses : ReverseProxy.acceptRequest tables connections.proxy.incoming = none)
      (page : ShowsPage received "400 Bad Request" "Bad Request\n")
  | unreachable {error : NetError}
      (accepts : ReverseProxy.acceptRequest tables connections.proxy.incoming ≠ none)
      (fails : connections.proxy.exchange.Fails)
      (reason : failure connections.proxy.exchange = some error)
      (page : ShowsPage received (ReverseProxy.gatewayPage error).1
        (ReverseProxy.gatewayPage error).2)
  | unserved
      (accepts : ReverseProxy.acceptRequest tables connections.proxy.incoming ≠ none)
      (reached : ¬ connections.proxy.exchange.Fails)
      (passes : ∀ offset < connections.balancer.backends.length,
        connections.balancer.Passes offset)
      (page : ShowsPage received "502 Bad Gateway" "Bad Gateway\n")
  | answered (offset : Nat)
      (accepts : ReverseProxy.acceptRequest tables connections.proxy.incoming ≠ none)
      (reached : ¬ connections.proxy.exchange.Fails)
      (first : connections.balancer.FirstSound offset)
      (response : received.Shows (connections.serverAt offset).answer)

section Chain

variable {tables : UnicodeTables} {stream : Bytes} {connections : Connections}
  (linked : Linked tables stream connections)

include linked

/-- What the reverse proxy refuses is answered with `400`. -/
theorem proxied_of_refused
    (refuses : ReverseProxy.acceptRequest tables connections.proxy.incoming = none) :
    (connections.proxied tables).client.delivered =
      errorPage "400 Bad Request" "Bad Request\n" := by
  rw [Connections.proxied, ReverseProxy.handleConnection, refuses]
  exact sendError_of_done linked.proxyWrites rfl _ _

/-- An attempt that fails is answered with the page for its error. -/
theorem proxied_of_fails {request : Bytes}
    (accepted : ReverseProxy.acceptRequest tables connections.proxy.incoming = some request)
    (fails : connections.proxy.exchange.Fails) :
    ∃ error, failure connections.proxy.exchange = some error ∧
      (connections.proxied tables).client.delivered =
        errorPage (ReverseProxy.gatewayPage error).1 (ReverseProxy.gatewayPage error).2 := by
  obtain ⟨sameClient, started, failed, -⟩ :=
    attempt_of_fails connections.proxy.writes .start request fails
  obtain ⟨error, isError⟩ := Option.ne_none_iff_exists'.mp failed
  have reason := attempt_error linked.proxyWrites .start request connections.proxy.exchange
  refine ⟨error, reason.symm.trans isError, ?_⟩
  rw [Connections.proxied,
    ReverseProxy.handleConnection_of_failed accepted rfl isError started, sameClient]
  exact sendError_of_done linked.proxyWrites rfl _ _

/-- Otherwise the client receives what the load balancer sent. -/
theorem proxied_of_gives {request : Bytes}
    (accepted : ReverseProxy.acceptRequest tables connections.proxy.incoming = some request)
    (gives : Gives connections.proxy.exchange (connections.balanced tables).client.delivered) :
    (connections.proxied tables).client.delivered =
      (connections.balanced tables).client.delivered := by
  obtain ⟨noError, delivered⟩ := attempt_of_gives linked.proxyWrites .start request gives
  rw [Connections.proxied,
    ReverseProxy.handleConnection_of_relayed accepted rfl (.inl noError), delivered]
  rfl

/-- The load balancer accepts the header block of what the reverse proxy has accepted. -/
theorem balancer_accepts {request : Bytes}
    (accepted : ReverseProxy.acceptRequest tables connections.proxy.incoming = some request)
    (dial : connections.proxy.exchange.dial = none) :
    LoadBalancer.acceptRequest tables connections.balancer.incoming =
      some (headerBlock stream) := by
  have segments := linked.forwarded request ((forwards_iff_of_accepted accepted request).mpr
    ⟨dial, rfl⟩)
  obtain ⟨isPrefix, marked, small, noBody⟩ := ReverseProxy.acceptRequest_eq_some accepted
  rw [linked.arrives.whole] at isPrefix
  obtain ⟨index, found⟩ := Option.ne_none_iff_exists'.mp marked
  have fits : index + 4 ≤ maxRequestSize :=
    (indexOf_add_length_le headerEnd_ne_nil found).trans small
  have block : request.take (index + 4) = headerBlock stream := by
    rw [← headerBlock_eq found, headerBlock_of_prefix isPrefix marked]
  have bodyless : hasUnsupportedBody tables (request.take (index + 4)) = false := by
    rw [← headerBlock_eq found, hasUnsupportedBody_headerBlock tables marked]
    exact noBody
  rw [← segments.whole] at found bodyless
  rw [LoadBalancer.acceptRequest_of_found found fits bodyless, segments.whole, block]

/-- The load balancer sends its page when it has passed over all backends, and else the response
of the first one that is sound. -/
theorem balanced_delivered {request : Bytes}
    (accepted : LoadBalancer.acceptRequest tables connections.balancer.incoming = some request) :
    ((∀ offset < connections.balancer.backends.length, connections.balancer.Passes offset) ∧
        (connections.balanced tables).client.delivered =
          errorPage "502 Bad Gateway" "Bad Gateway\n") ∨
      ∃ offset, connections.balancer.FirstSound offset ∧
        ∀ wire, (connections.serverAt offset).run = some wire →
          (connections.balanced tables).client.delivered = wire := by
  by_cases empty : connections.balancer.backends = []
  · refine .inl ⟨fun offset inside => ?_, ?_⟩
    · rw [empty] at inside
      exact absurd inside (Nat.not_lt_zero _)
    · rw [Connections.balanced, LoadBalancer.handleConnection_of_empty accepted empty]
      exact sendError_of_done linked.balancerWrites rfl _ _
  · rw [Connections.balanced, LoadBalancer.handleConnection_eq accepted empty]
    obtain ⟨passed, -, ⟨passes, equation⟩ | ⟨offset, position, backend, rest, first, found,
      available, equation⟩⟩ := LoadBalancer.tryBackends_split request .start linked.inRange
    · refine .inl ⟨passes, ?_⟩
      rw [equation]
      exact sendError_of_done linked.balancerWrites rfl _ _
    · refine .inr ⟨offset, first, fun wire isWire => ?_⟩
      have gives := (linked.served offset first.inside).resolve_left first.sound wire isWire
      obtain ⟨noError, delivered⟩ :=
        attempt_of_gives linked.balancerWrites .start request gives
      rw [equation, LoadBalancer.tryBackends_of_served found available rfl noError]
      exact delivered

/-- The client reads a reply. -/
theorem exists_reply :
    ∃ received, Client.readResponse (connections.proxied tables).client.delivered =
        .ok received ∧ Reply tables connections received := by
  cases accepted : ReverseProxy.acceptRequest tables connections.proxy.incoming with
  | none =>
      obtain ⟨received, read, page⟩ := @readable_of_page "400 Bad Request" "Bad Request\n"
        List.mem_cons_self
      rw [proxied_of_refused linked accepted]
      exact ⟨received, read, .refused accepted page⟩
  | some request =>
      have accepts : ReverseProxy.acceptRequest tables connections.proxy.incoming ≠ none := by
        rw [accepted]
        exact Option.some_ne_none request
      rcases linked.returned with fails | gives
      · obtain ⟨error, reason, delivered⟩ := proxied_of_fails linked accepted fails
        have known : ReverseProxy.gatewayPage error ∈ pages := by
          cases error with
          | timeout => decide
          | other => decide
        obtain ⟨received, read, page⟩ := readable_of_page known
        rw [delivered]
        exact ⟨received, read, .unreachable accepts fails reason page⟩
      · rw [proxied_of_gives linked accepted gives]
        rcases balanced_delivered linked (balancer_accepts linked accepted gives.dial) with
          ⟨passes, delivered⟩ | ⟨offset, first, delivered⟩
        · obtain ⟨received, read, page⟩ := @readable_of_page "502 Bad Gateway" "Bad Gateway\n"
            (List.mem_cons_of_mem _ List.mem_cons_self)
          rw [delivered]
          exact ⟨received, read, .unserved accepts gives.not_fails passes page⟩
        · obtain ⟨wire, received, built, read, shown⟩ := Client.readable_of_head
            (Server.answer_head (connections.serverAt offset).cache
              (connections.serverAt offset).chunks (connections.serverAt offset).finish)
          rw [delivered wire ((Server.handleConnection_eq _ _ _).trans built)]
          exact ⟨received, read, .answered offset accepts gives.not_fails first shown⟩

end Chain

/-- The server receives the header block. -/
structure Receives (service : Service) (block : Bytes) : Prop where
  sizes : ∀ chunk ∈ service.chunks, chunk ≠ []
  whole : service.chunks.flatten = block

/-- The answer to a header block within the limit depends on what the block is read as. -/
theorem answer_of_receives {service : Service} {stream : Bytes} {index : Nat}
    (found : indexOf headerEnd stream = some index) (fits : index + 4 ≤ maxRequestSize)
    (receives : Receives service (stream.take (index + 4))) :
    service.answer =
      match Server.admitRequest (stream.take (index + 4)) with
      | .ok request => Server.respondWithCache Server.routes
          (service.cache.map Server.CacheService.outcomes) request
      | .error _ => Server.badRequest := by
  have inBlock : indexOf headerEnd (stream.take (index + 4)) = some index :=
    indexOf_take headerEnd_ne_nil found
  have length : (stream.take (index + 4)).length ≤ maxRequestSize :=
    (List.length_take_le _ _).trans fits
  rw [← receives.whole] at inBlock length
  have read : Server.readRequest service.chunks service.finish =
      .ok (service.chunks.flatten.take (index + 4)) :=
    Server.readChunks_of_found receives.sizes inBlock length service.finish
  rw [receives.whole, List.take_take, min_self] at read
  rw [Service.answer, Server.answer, read]
  dsimp only
  cases Server.admitRequest (stream.take (index + 4)) with
  | error reason => rfl
  | ok request => rfl

/-- What the reverse proxy refuses of a stream within the limit, the server would not admit. -/
theorem not_admitted_of_refused {tables : UnicodeTables}
    (kept : tables.toLower runeError = runeError) {incoming : Incoming} {stream : Bytes}
    (segments : incoming.Segments stream)
    (refuses : ReverseProxy.acceptRequest tables incoming = none) {index : Nat}
    (found : indexOf headerEnd stream = some index) (small : stream.length ≤ maxRequestSize) :
    ∃ text, Server.admitRequest (stream.take (index + 4)) = .error text := by
  have body : hasUnsupportedBody tables (stream.take (index + 4)) = true := by
    by_contra noBody
    have isPrefix := arrive_prefix headerEnd [] incoming.reads
    rw [List.nil_append, segments.whole] at isPrefix
    have marked : indexOf headerEnd stream ≠ none := by
      rw [found]
      exact Option.some_ne_none _
    have accepted := (@proxy_accepts_iff tables _ _ segments _).mpr
      ⟨rfl, isPrefix.length_le.trans small, marked, by
        rw [headerBlock_eq found]
        exact Bool.eq_false_iff.mpr noBody⟩
    rw [refuses] at accepted
    cases accepted
  rw [Server.admitRequest]
  cases parsed : Server.parseRequest (stream.take (index + 4)) with
  | error text => exact ⟨text, rfl⟩
  | ok request =>
      have frames := (hasUnsupportedBody_iff_framesBody kept parsed).mp body
      exact ⟨"request bodies are not supported", by
        simp only [bind, Except.bind, frames, if_true]
        rfl⟩

/-- **Exactly one reply.** Where every attempt on the way fails before its first byte or is served
whole, the client of the stack reads exactly one reply, whatever it sends and however that is cut
into reads: the response of the first sound backend, or the one error page for what went wrong. When
its stream has a header block and fits, that response is the one of the application if the server
admits the block, and a bad request if not. -/
theorem stack_replies {tables : UnicodeTables} (kept : tables.toLower runeError = runeError)
    {stream : Bytes} {connections : Connections} (linked : Linked tables stream connections) :
    ∃ received, Client.readResponse (connections.proxied tables).client.delivered =
        .ok received ∧ Reply tables connections received ∧
      ∀ index offset, indexOf headerEnd stream = some index → stream.length ≤ maxRequestSize →
        ¬ connections.proxy.exchange.Fails → connections.balancer.FirstSound offset →
        Receives (connections.serverAt offset) (stream.take (index + 4)) →
        match Server.admitRequest (stream.take (index + 4)) with
        | .ok request => received.Shows (Server.respondWithCache Server.routes
            ((connections.serverAt offset).cache.map Server.CacheService.outcomes) request)
        | .error _ => ShowsPage received "400 Bad Request" "Bad Request\n" := by
  obtain ⟨received, read, reply⟩ := exists_reply linked
  refine ⟨received, read, reply, ?_⟩
  intro index offset found small reached first receives
  have fits : index + 4 ≤ maxRequestSize :=
    (indexOf_add_length_le headerEnd_ne_nil found).trans small
  cases reply with
  | refused refuses page =>
      obtain ⟨text, notAdmitted⟩ :=
        not_admitted_of_refused kept linked.arrives refuses found small
      rw [notAdmitted]
      exact page
  | unreachable _ fails _ _ => exact absurd fails reached
  | unserved _ _ passes _ => exact absurd (passes offset first.inside first.available) first.sound
  | answered other _ _ otherFirst shown =>
      rw [← first.unique otherFirst, answer_of_receives found fits receives] at shown
      cases admitted : Server.admitRequest (stream.take (index + 4)) with
      | ok request =>
          rw [admitted] at shown
          exact shown
      | error text =>
          rw [admitted] at shown
          exact ⟨shown.status, shown.body⟩

/-- A backend that sends the response at once. -/
def giving (response : Bytes) : Exchange := ⟨none, none, ⟨[response], [], .eof⟩⟩

theorem gives_giving (response : Bytes) : Gives (giving response) response :=
  ⟨rfl, rfl, by simp [giving, Incoming.bytes], rfl⟩

/-- The server receives a request without header fields, and has no cache. -/
def plainService : Service := ⟨[plainRequest], .eof, none⟩

def plainConnections : Connections :=
  let balancer := LoadBalancer.plainEnvironment (fun _ => .done) fun _ =>
    giving (plainService.run.getD [])
  { proxy := ⟨⟨[plainRequest], [], .eof⟩, fun _ => .done,
      giving (LoadBalancer.handleConnection ⟨id, id⟩ balancer).client.delivered⟩
    balancer := balancer
    serverAt := fun _ => plainService }

theorem linked_plainConnections : Linked ⟨id, id⟩ plainRequest plainConnections where
  arrives := ⟨by decide, by decide, rfl⟩
  proxyWrites := fun _ => rfl
  forwarded := by
    intro request forwards
    obtain ⟨-, rfl⟩ := (@forwards_iff_of_accepted _ plainConnections.proxy _
      (ReverseProxy.acceptRequest_plain _) request).mp forwards
    exact ⟨by decide, by decide, rfl⟩
  balancerWrites := fun _ => rfl
  inRange := by decide
  returned := .inr (gives_giving _)
  served := by
    intro offset _
    refine .inr fun wire isWire => ?_
    have given : plainService.run.getD [] = wire := by
      rw [show plainService.run = some wire from isWire]
      rfl
    rw [← given]
    exact gives_giving _

theorem firstSound_plainConnections : plainConnections.balancer.FirstSound 0 where
  inside := by decide
  available := ⟨_, _, rfl, by decide⟩
  sound := (gives_giving _).not_fails
  passes := fun _ before => absurd before (Nat.not_lt_zero _)

theorem stack_replies_plain :
    ∃ received, Client.readResponse (plainConnections.proxied ⟨id, id⟩).client.delivered =
        .ok received ∧
      received.Shows (Server.respondWithCache Server.routes none ⟨"GET".toList, "/".toList⟩) := by
  obtain ⟨received, read, -, answered⟩ := @stack_replies ⟨id, id⟩ rfl _ _ linked_plainConnections
  have admitted : Server.admitRequest (plainRequest.take (14 + 4)) =
      .ok ⟨"GET".toList, "/".toList⟩ := by decide +kernel
  have shown := answered 14 0 (by decide) (by decide) (gives_giving _).not_fails
    firstSound_plainConnections ⟨by decide, by decide⟩
  rw [admitted] at shown
  exact ⟨received, read, shown⟩

end InfraFromScratch.Stack
