import InfraFromScratch.Http.Server
import InfraFromScratch.LoadBalancer.Failover
import InfraFromScratch.ReverseProxy.Connection

/-!
# A request through the reverse proxy, the load balancer and the HTTP server

The three programs read a request in three ways. The reverse proxy forwards all it has
read, which may be more than the headers; the load balancer forwards the headers only. What
the reverse proxy has accepted, the load balancer does not refuse: the limit, the search
for the end of the headers and the filter for bodies agree on it, however the bytes are cut
into reads at each hop.
-/

set_option autoImplicit false

namespace InfraFromScratch.Stack

open Foundations Gateway

/-- The stream through the first end of headers. -/
def headerBlock (stream : Bytes) : Bytes :=
  match indexOf headerEnd stream with
  | some index => stream.take (index + 4)
  | none => []

theorem headerBlock_eq {stream : Bytes} {index : Nat}
    (found : indexOf headerEnd stream = some index) :
    headerBlock stream = stream.take (index + 4) := by
  rw [headerBlock, found]

/-- A part of the stream that has the end of the headers has the same header block. -/
theorem headerBlock_of_prefix {part stream : Bytes} (isPart : part <+: stream)
    (marked : indexOf headerEnd part ≠ none) : headerBlock part = headerBlock stream := by
  obtain ⟨rest, rfl⟩ := isPart
  obtain ⟨index, found⟩ := Option.ne_none_iff_exists'.mp marked
  have room : index + 4 ≤ part.length := indexOf_add_length_le headerEnd_ne_nil found
  rw [headerBlock_eq found, headerBlock_eq (indexOf_append headerEnd_ne_nil found rest),
    List.take_append_of_le_length room]

/-- The filter for bodies sees the header block. -/
theorem hasUnsupportedBody_headerBlock (tables : UnicodeTables) {stream : Bytes}
    (marked : indexOf headerEnd stream ≠ none) :
    hasUnsupportedBody tables (headerBlock stream) = hasUnsupportedBody tables stream := by
  obtain ⟨index, found⟩ := Option.ne_none_iff_exists'.mp marked
  apply hasUnsupportedBody_congr
  have inBlock : indexOf headerEnd (stream.take (index + 4)) = some index :=
    indexOf_take headerEnd_ne_nil found
  rw [headerBlock_eq found, cutAround, cutAround, inBlock, found]
  dsimp only
  rw [List.take_take, min_eq_left (Nat.le_add_right index 4)]

/-! ## The reverse proxy -/

/-- What the reverse proxy writes to its backend. -/
def Forwards (run : ReverseProxy.Run) (forwarded : Bytes) : Prop :=
  ∃ relayed error, run.attempt = some relayed ∧ .requestWrite forwarded error ∈ relayed.events

/-- What is forwarded is a request that was accepted. -/
theorem accepted_of_forwards {tables : UnicodeTables} {environment : ReverseProxy.Environment}
    {forwarded : Bytes}
    (forwards : Forwards (ReverseProxy.handleConnection tables environment) forwarded) :
    ReverseProxy.acceptRequest tables environment.incoming = some forwarded := by
  obtain ⟨relayed, error, isAttempt, member⟩ := forwards
  cases accepted : ReverseProxy.acceptRequest tables environment.incoming with
  | none =>
      rw [ReverseProxy.handleConnection, accepted] at isAttempt
      cases isAttempt
  | some request =>
      rw [ReverseProxy.handleConnection_attempt accepted] at isAttempt
      cases isAttempt
      rw [eq_of_requestWrite_mem _ _ _ member]

/-! ## The load balancer -/

/-- Every attempt of the run sends this request, once its backend is reached, and no
other. -/
def Sends (run : LoadBalancer.Run) (request : Bytes) : Prop :=
  ∀ visit ∈ run.visits, ∀ relayed, visit.attempt = some relayed →
    (∀ data error, .requestWrite data error ∈ relayed.events → data = request) ∧
      (.dial none ∈ relayed.events →
        ∃ error, .requestWrite request error ∈ relayed.events)

/-- A request that was accepted is not answered with `400`, and it is what is sent on. -/
theorem sends_of_accepted {tables : UnicodeTables} {environment : LoadBalancer.Environment}
    {request : Bytes}
    (accepted : LoadBalancer.acceptRequest tables environment.incoming = some request) :
    (LoadBalancer.handleConnection tables environment).ending ≠
        .errorPage "400 Bad Request" "Bad Request\n" ∧
      Sends (LoadBalancer.handleConnection tables environment) request := by
  by_cases empty : environment.backends = []
  · rw [LoadBalancer.handleConnection_of_empty accepted empty]
    exact ⟨by simp [LoadBalancer.failWith], by simp [Sends, LoadBalancer.failWith]⟩
  · rw [LoadBalancer.handleConnection_eq accepted empty]
    refine ⟨LoadBalancer.tryBackends_not_rejected _ _ _ _, ?_⟩
    intro visit member relayed isAttempt
    obtain ⟨client, rfl⟩ := LoadBalancer.exists_attempt_eq member isAttempt
    exact ⟨fun data error => eq_of_requestWrite_mem _ _ _, exists_requestWrite_mem _ _ _⟩

/-- Every backend that is available and accepts the connection is sent the request, when all
backends before it in the round are unavailable or fail by themselves. A negative initial index
ends the round before it begins. -/
def Reaches (environment : LoadBalancer.Environment) (run : LoadBalancer.Run)
    (request : Bytes) : Prop :=
  0 ≤ LoadBalancer.initialIndex environment.selection environment.backends.length →
    ∀ offset < environment.backends.length, environment.Available offset →
      (environment.exchangeAt offset).dial = none →
      (∀ earlier < offset, environment.Passes earlier) →
      ∃ visit ∈ run.visits, visit.offset = offset ∧ ∃ relayed error,
        visit.attempt = some relayed ∧ .requestWrite request error ∈ relayed.events

/-- A request that was accepted is sent to the backends that are reached. -/
theorem reaches_of_accepted {tables : UnicodeTables} {environment : LoadBalancer.Environment}
    {request : Bytes}
    (accepted : LoadBalancer.acceptRequest tables environment.incoming = some request) :
    Reaches environment (LoadBalancer.handleConnection tables environment) request := by
  intro nonneg offset inside available dial passes
  have nonempty : environment.backends ≠ [] := List.ne_nil_of_length_pos (by omega)
  obtain ⟨visit, member, isOffset, isAttempt⟩ := LoadBalancer.exists_visit_of_passes_before request
    .start nonneg inside available passes
  obtain ⟨error, sent⟩ := exists_requestWrite_mem environment.writes .start request
    (dial_none_mem_attempt environment.writes .start request dial)
  rw [LoadBalancer.handleConnection_eq accepted nonempty]
  exact ⟨visit, member, isOffset, _, error, isAttempt, sent⟩

/-! ## The chain -/

/-- **A request passes the chain unchanged**: what the reverse proxy forwards, the load
balancer accepts and goes round its backends with the stream through its first end of headers,
which each backend that is reached is sent, and nothing else; the HTTP server reads just that. -/
theorem request_chain_transparent (tables : UnicodeTables) (proxy : ReverseProxy.Environment)
    {stream forwarded : Bytes} (arrives : proxy.incoming.Segments stream)
    (forwards : Forwards (ReverseProxy.handleConnection tables proxy) forwarded) :
    ∃ index, indexOf headerEnd stream = some index ∧
      (∀ balancer : LoadBalancer.Environment, balancer.incoming.Segments forwarded →
        LoadBalancer.handleConnection tables balancer =
            (if balancer.backends = [] then
              LoadBalancer.failWith balancer .start "502 Bad Gateway" "Bad Gateway\n"
            else
              LoadBalancer.tryBackends balancer (stream.take (index + 4)) .start
                (List.range balancer.backends.length)) ∧
          (LoadBalancer.handleConnection tables balancer).ending ≠
            .errorPage "400 Bad Request" "Bad Request\n" ∧
          Sends (LoadBalancer.handleConnection tables balancer) (stream.take (index + 4)) ∧
          Reaches balancer (LoadBalancer.handleConnection tables balancer)
            (stream.take (index + 4))) ∧
      ∀ received : Incoming, received.Segments (stream.take (index + 4)) →
        Http.Server.readRequest received.reads received.finish =
          .ok (stream.take (index + 4)) := by
  obtain ⟨isPrefix, marked, small, noBody⟩ :=
    ReverseProxy.acceptRequest_eq_some (accepted_of_forwards forwards)
  rw [arrives.whole] at isPrefix
  obtain ⟨index, found⟩ := Option.ne_none_iff_exists'.mp marked
  have inStream : indexOf headerEnd stream = some index := by
    obtain ⟨rest, rfl⟩ := isPrefix
    exact indexOf_append headerEnd_ne_nil found rest
  have block : forwarded.take (index + 4) = stream.take (index + 4) := by
    rw [← headerBlock_eq found, ← headerBlock_eq inStream, headerBlock_of_prefix isPrefix marked]
  have fits : index + 4 ≤ maxRequestSize :=
    (indexOf_add_length_le headerEnd_ne_nil found).trans small
  refine ⟨index, inStream, ?_, ?_⟩
  · intro balancer segments
    have bodyless : hasUnsupportedBody tables (forwarded.take (index + 4)) = false := by
      rw [← headerBlock_eq found, hasUnsupportedBody_headerBlock tables marked]
      exact noBody
    rw [← segments.whole] at found bodyless
    have accepted := LoadBalancer.acceptRequest_of_found found fits bodyless
    rw [segments.whole, block] at accepted
    refine ⟨?_, (sends_of_accepted accepted).1, (sends_of_accepted accepted).2,
      reaches_of_accepted accepted⟩
    rw [LoadBalancer.handleConnection, accepted]
  · intro received segments
    have inBlock : indexOf headerEnd (stream.take (index + 4)) = some index :=
      indexOf_take headerEnd_ne_nil inStream
    have length : (stream.take (index + 4)).length ≤ index + 4 := List.length_take_le _ _
    rw [← segments.whole] at inBlock length
    have read : Http.Server.readRequest received.reads received.finish =
        .ok (received.reads.flatten.take (index + 4)) :=
      Http.Server.readChunks_of_found
        (fun chunk member => List.ne_nil_of_length_pos (segments.sizes chunk member).1) inBlock
        (length.trans fits) received.finish
    rw [read, segments.whole, List.take_take, min_self]

/-- A request without header fields, and a load balancer that gets it in two reads. -/
def plainBalancer : LoadBalancer.Environment :=
  { LoadBalancer.plainEnvironment (fun _ => .done) fun _ => ⟨none, none, ⟨[], [], .eof⟩⟩ with
    incoming := ⟨[plainRequest.take 15, plainRequest.drop 15], [], .eof⟩ }

/-- The first backend is sent the request, which the HTTP server reads. -/
theorem request_chain_transparent_plain :
    Sends (LoadBalancer.handleConnection ⟨id, id⟩ plainBalancer) plainRequest ∧
      (∃ visit ∈ (LoadBalancer.handleConnection ⟨id, id⟩ plainBalancer).visits,
        visit.offset = 0 ∧ ∃ relayed error,
          visit.attempt = some relayed ∧ .requestWrite plainRequest error ∈ relayed.events) ∧
      Http.Server.readRequest [plainRequest] .eof = .ok plainRequest := by
  have forwards : Forwards (ReverseProxy.handleConnection ⟨id, id⟩
      ⟨⟨[plainRequest], [], .eof⟩, fun _ => .done, ⟨none, none, ⟨[], [], .eof⟩⟩⟩)
      plainRequest :=
    ⟨_, none, ReverseProxy.handleConnection_attempt (ReverseProxy.acceptRequest_plain _),
      by decide⟩
  obtain ⟨index, found, balancer, server⟩ :=
    @request_chain_transparent ⟨id, id⟩ _ plainRequest _ ⟨by decide, by decide, rfl⟩ forwards
  have isIndex : indexOf headerEnd plainRequest = some 14 := by decide
  cases isIndex.symm.trans found
  obtain ⟨-, -, sends, reaches⟩ := balancer plainBalancer ⟨by decide, by decide, rfl⟩
  exact ⟨sends, reaches (by decide) 0 (by decide) ⟨0, 0, rfl, rfl⟩ rfl (by simp),
    server ⟨[plainRequest], [], .eof⟩ ⟨by decide, by decide, rfl⟩⟩

end InfraFromScratch.Stack
