import InfraFromScratch.Stack.RequestChain

/-!
# Three readers of one stream

The load balancer, the HTTP server and the reverse proxy read a request in the same way:
they receive until the end of the headers is there, and allow 64 KiB. What they are to
return is the block through the first end of headers, if it is within the limit
(`boundedBlock`), whatever follows it and however the stream is cut.

The load balancer does so (`balancer_reads_block`). It looks for the end of the headers
before it measures, and cuts the rest off. The HTTP server measures first, so bytes that
arrive together with the end of the headers count (`server_reads_block_iff`). The reverse
proxy measures first and does not cut, so it reads a stream correctly only if nothing follows
the block (`proxy_forwards_block_iff`).
-/

set_option autoImplicit false

namespace InfraFromScratch.Stack

open Foundations Gateway

/-- The block through the first end of headers, if it has at most 65536 bytes. -/
def boundedBlock (stream : Bytes) : Option Bytes :=
  match indexOf headerEnd stream with
  | some index => if index + 4 ≤ 65536 then some (stream.take (index + 4)) else none
  | none => none

section Block

variable {stream block : Bytes} {index : Nat}

theorem boundedBlock_eq_some_iff :
    boundedBlock stream = some block ↔
      ∃ index, indexOf headerEnd stream = some index ∧ index + 4 ≤ 65536 ∧
        stream.take (index + 4) = block := by
  unfold boundedBlock
  cases found : indexOf headerEnd stream with
  | none => simp
  | some place =>
      simp only [Option.some.injEq, exists_eq_left']
      by_cases fits : place + 4 ≤ 65536
      · rw [if_pos fits, Option.some.injEq]
        exact ⟨fun same => ⟨fits, same⟩, And.right⟩
      · rw [if_neg fits]
        exact ⟨nofun, fun within => absurd within.1 fits⟩

theorem boundedBlock_of_fits (found : indexOf headerEnd stream = some index)
    (fits : index + 4 ≤ 65536) : boundedBlock stream = some (stream.take (index + 4)) :=
  boundedBlock_eq_some_iff.mpr ⟨index, found, fits, rfl⟩

theorem boundedBlock_of_large (found : indexOf headerEnd stream = some index)
    (large : ¬ index + 4 ≤ 65536) : boundedBlock stream = none := by
  rw [boundedBlock, found]
  exact if_neg large

theorem boundedBlock_of_missing (missing : indexOf headerEnd stream = none) :
    boundedBlock stream = none := by
  rw [boundedBlock, missing]

/-- A block within the limit is the header block. -/
theorem headerBlock_of_bounded (bounded : boundedBlock stream = some block) :
    headerBlock stream = block := by
  obtain ⟨index, found, -, rfl⟩ := boundedBlock_eq_some_iff.mp bounded
  exact headerBlock_eq found

end Block

/-- A line of the headers has the name, in any case and with white space around it. -/
def HasHeader (tables : UnicodeTables) (headers name : Bytes) : Prop :=
  ∃ line ∈ (splitAround [cr, lf] headers).drop 1,
    trimSpace (toLower tables (cutAround (ascii ":") line).1) = name

/-- The filter for bodies looks for the two names. -/
theorem hasUnsupportedBody_eq_false_iff (tables : UnicodeTables) {stream : Bytes} {index : Nat}
    (found : indexOf headerEnd stream = some index) :
    hasUnsupportedBody tables (stream.take (index + 4)) = false ↔
      ¬ HasHeader tables (stream.take index) (ascii "content-length") ∧
        ¬ HasHeader tables (stream.take index) (ascii "transfer-encoding") := by
  have headers : (cutAround headerEnd (stream.take (index + 4))).1 = stream.take index := by
    have inBlock : indexOf headerEnd (stream.take (index + 4)) = some index :=
      indexOf_take headerEnd_ne_nil found
    rw [cutAround, inBlock]
    dsimp only
    rw [List.take_take, min_eq_left (Nat.le_add_right index 4)]
  rw [hasUnsupportedBody, headers, ← Bool.not_eq_true, List.any_eq_true, ← not_or, not_iff_not]
  constructor
  · rintro ⟨line, member, named⟩
    rcases List.mem_cons.mp (of_decide_eq_true named) with length | encoding
    · exact .inl ⟨line, member, length⟩
    · exact .inr ⟨line, member, List.mem_singleton.mp encoding⟩
  · rintro (⟨line, member, named⟩ | ⟨line, member, named⟩)
    · exact ⟨line, member, decide_eq_true (by rw [named]; exact List.mem_cons_self)⟩
    · exact ⟨line, member,
        decide_eq_true (by rw [named]; exact List.mem_cons_of_mem _ List.mem_cons_self)⟩

/-! ## The load balancer -/

section Balancer

variable {tables : UnicodeTables} {environment : LoadBalancer.Environment}

/-- The loop over the backends does not read from the client. -/
theorem tryBackends_setIncoming (incoming : Incoming) (request : Bytes) (client : Outgoing)
    (offsets : List Nat) :
    LoadBalancer.tryBackends { environment with incoming := incoming } request client offsets =
      LoadBalancer.tryBackends environment request client offsets := by
  induction offsets generalizing client with
  | nil => rfl
  | cons offset rest ih =>
      rw [LoadBalancer.tryBackends, LoadBalancer.tryBackends]
      simp only [ih]
      rfl

theorem handleConnection_setIncoming {incoming : Incoming}
    (same : LoadBalancer.acceptRequest tables incoming =
      LoadBalancer.acceptRequest tables environment.incoming) :
    LoadBalancer.handleConnection tables { environment with incoming := incoming } =
      LoadBalancer.handleConnection tables environment := by
  rw [LoadBalancer.handleConnection, LoadBalancer.handleConnection, same]
  cases LoadBalancer.acceptRequest tables environment.incoming with
  | none => rfl
  | some request =>
      simp only [tryBackends_setIncoming]
      rfl

theorem handleConnection_of_refused
    (refused : LoadBalancer.acceptRequest tables environment.incoming = none) :
    LoadBalancer.handleConnection tables environment =
      LoadBalancer.failWith environment .start "400 Bad Request" "Bad Request\n" := by
  rw [LoadBalancer.handleConnection, refused]

/-- The same stream is accepted or refused however it arrives. -/
theorem acceptRequest_of_segments {incoming other : Incoming} {stream : Bytes}
    (segments : incoming.Segments stream) (others : other.Segments stream) :
    LoadBalancer.acceptRequest tables other = LoadBalancer.acceptRequest tables incoming := by
  apply Option.ext
  intro request
  rw [LoadBalancer.acceptRequest_eq_some_iff, LoadBalancer.acceptRequest_eq_some_iff,
    segments.whole, others.whole]

/-- **The load balancer reads the block.** For every stream and every way in which it
arrives, the connection goes on to the backends iff the stream has an end of headers within
65536 bytes and no line of the headers has the name of a body header; what it then sends to
backends is the stream through there. Else it answers with `400` and visits no backend. The
run is the same however the stream arrives. -/
theorem balancer_reads_block (tables : UnicodeTables) (environment : LoadBalancer.Environment)
    {stream : Bytes} (segments : environment.incoming.Segments stream) :
    (∀ index, indexOf headerEnd stream = some index → index + 4 ≤ 65536 →
      ¬ HasHeader tables (stream.take index) (ascii "content-length") →
      ¬ HasHeader tables (stream.take index) (ascii "transfer-encoding") →
      LoadBalancer.handleConnection tables environment =
          (if environment.backends = [] then
            LoadBalancer.failWith environment .start "502 Bad Gateway" "Bad Gateway\n"
          else
            LoadBalancer.tryBackends environment (stream.take (index + 4)) .start
              (List.range environment.backends.length)) ∧
        (LoadBalancer.handleConnection tables environment).ending ≠
          .errorPage "400 Bad Request" "Bad Request\n" ∧
        Sends (LoadBalancer.handleConnection tables environment) (stream.take (index + 4))) ∧
    ((¬ ∃ index, indexOf headerEnd stream = some index ∧ index + 4 ≤ 65536 ∧
        ¬ HasHeader tables (stream.take index) (ascii "content-length") ∧
        ¬ HasHeader tables (stream.take index) (ascii "transfer-encoding")) →
      LoadBalancer.handleConnection tables environment =
        ⟨[], .errorPage "400 Bad Request" "Bad Request\n",
          sendError environment.writes .start "400 Bad Request" "Bad Request\n"⟩) ∧
    ∀ other : Incoming, other.Segments stream →
      LoadBalancer.handleConnection tables { environment with incoming := other } =
        LoadBalancer.handleConnection tables environment := by
  refine ⟨?_, ?_, ?_⟩
  · intro index found fits noLength noEncoding
    have noBody := (hasUnsupportedBody_eq_false_iff tables found).mpr ⟨noLength, noEncoding⟩
    have accepted : LoadBalancer.acceptRequest tables environment.incoming =
        some (stream.take (index + 4)) := by
      rw [LoadBalancer.acceptRequest_eq_some_iff, segments.whole]
      exact ⟨index, found, fits, noBody, rfl⟩
    refine ⟨?_, sends_of_accepted accepted⟩
    rw [LoadBalancer.handleConnection, accepted]
  · intro refused
    refine handleConnection_of_refused (Option.eq_none_iff_forall_ne_some.mpr ?_)
    intro request accepted
    rw [LoadBalancer.acceptRequest_eq_some_iff, segments.whole] at accepted
    obtain ⟨index, found, fits, noBody, -⟩ := accepted
    exact refused ⟨index, found, fits, (hasUnsupportedBody_eq_false_iff tables found).mp noBody⟩
  · intro other others
    exact handleConnection_setIncoming (acceptRequest_of_segments segments others)

theorem not_hasHeader_plain (tables : UnicodeTables) (name : Bytes) :
    ¬ HasHeader tables (ascii "GET / HTTP/1.0") name := by
  rintro ⟨line, member, -⟩
  rw [splitAround_of_missing (by decide)] at member
  cases member

/-- A client that sends a request without header fields, and backends that take it and close. -/
def silentEnvironment : LoadBalancer.Environment :=
  LoadBalancer.plainEnvironment (fun _ => .done) fun _ => ⟨none, none, ⟨[], [], .eof⟩⟩

/-- The request comes in one read, or in two. -/
theorem balancer_reads_block_plain :
    Sends (LoadBalancer.handleConnection ⟨id, id⟩ silentEnvironment) plainRequest ∧
      LoadBalancer.handleConnection ⟨id, id⟩
          { silentEnvironment with
            incoming := ⟨[plainRequest.take 15, plainRequest.drop 15], [], .eof⟩ } =
        LoadBalancer.handleConnection ⟨id, id⟩ silentEnvironment := by
  have segments : silentEnvironment.incoming.Segments plainRequest :=
    ⟨by decide, by decide, rfl⟩
  obtain ⟨accepts, -, same⟩ := balancer_reads_block ⟨id, id⟩ silentEnvironment segments
  refine ⟨?_, same _ ⟨by decide, by decide, rfl⟩⟩
  exact (accepts 14 (by decide) (by decide) (not_hasHeader_plain _ _)
    (not_hasHeader_plain _ _)).2.2

end Balancer

/-! ## The HTTP server -/

section Server

open Http.Server

/-- The result is the block within the limit, or a `ValueError` if there is none. -/
def ReadsBlock (stream : Bytes) (result : Except ReadRequestError Bytes) : Prop :=
  match boundedBlock stream with
  | some block => result = .ok block
  | none => ∃ text, result = .error (.valueError text)

variable {chunks : List Bytes} {index : Nat}

theorem readRequest_eq (nonempty : ∀ chunk ∈ chunks, chunk ≠ []) :
    readRequest chunks .eof =
      if 65536 < (arrive headerEnd [] chunks).length then
        .error (.valueError "request headers are too large")
      else
        match indexOf headerEnd chunks.flatten with
        | some index => cutRequest (arrive headerEnd [] chunks) index
        | none => .error (.valueError "incomplete request headers") := by
  have place := indexOf_arrive headerEnd_ne_nil [] chunks
  rw [List.nil_append] at place
  rw [readRequest, readChunks_eq nonempty (Nat.zero_le _), place]
  rfl

/-- Through the end of the headers, what was received is the stream. -/
theorem take_arrive (found : indexOf headerEnd chunks.flatten = some index) :
    (arrive headerEnd [] chunks).take (index + 4) = chunks.flatten.take (index + 4) := by
  have isPrefix := arrive_prefix headerEnd [] chunks
  have place := indexOf_arrive headerEnd_ne_nil [] chunks
  rw [List.nil_append] at isPrefix place
  have room : index + 4 ≤ (arrive headerEnd [] chunks).length :=
    indexOf_add_length_le headerEnd_ne_nil (place.trans found)
  obtain ⟨rest, whole⟩ := isPrefix
  rw [← whole, List.take_append_of_le_length room]

/-- What was received contains the block. -/
theorem le_length_arrive (found : indexOf headerEnd chunks.flatten = some index) :
    index + 4 ≤ (arrive headerEnd [] chunks).length := by
  have place := indexOf_arrive headerEnd_ne_nil [] chunks
  rw [List.nil_append] at place
  exact indexOf_add_length_le headerEnd_ne_nil (place.trans found)

theorem readRequest_of_small (nonempty : ∀ chunk ∈ chunks, chunk ≠ [])
    (small : (arrive headerEnd [] chunks).length ≤ 65536) :
    ReadsBlock chunks.flatten (readRequest chunks .eof) := by
  rw [readRequest_eq nonempty, if_neg (not_lt.mpr small)]
  cases found : indexOf headerEnd chunks.flatten with
  | none =>
      rw [ReadsBlock, boundedBlock_of_missing found]
      exact ⟨_, rfl⟩
  | some index =>
      have fits : index + 4 ≤ 65536 := (le_length_arrive found).trans small
      rw [ReadsBlock, boundedBlock_of_fits found fits, ← take_arrive found]
      exact cutRequest_of_fits fits

theorem readRequest_of_large (nonempty : ∀ chunk ∈ chunks, chunk ≠ [])
    (large : 65536 < (arrive headerEnd [] chunks).length) :
    readRequest chunks .eof = .error (.valueError "request headers are too large") := by
  rw [readRequest_eq nonempty, if_pos large]

/-- **When the HTTP server reads the block.** For every stream and every way of cutting it,
`read_request` returns the block within the limit, or raises a `ValueError` if there is none,
iff there is none or no chunk that begins before the end of the block reaches beyond 65536
bytes. -/
theorem server_reads_block_iff {stream : Bytes} (whole : chunks.flatten = stream)
    (sizes : ∀ chunk ∈ chunks, 1 ≤ chunk.length ∧ chunk.length ≤ Http.Server.bufferSize) :
    ReadsBlock stream (readRequest chunks .eof) ↔
      ∀ index, indexOf headerEnd stream = some index → index + 4 ≤ 65536 →
        ∀ before chunk after, chunks = before ++ chunk :: after →
          before.flatten.length < index + 4 → before.flatten.length + chunk.length ≤ 65536 := by
  subst whole
  have nonempty : ∀ chunk ∈ chunks, chunk ≠ [] := fun chunk member =>
    List.ne_nil_of_length_pos (sizes chunk member).1
  constructor
  · intro reads index found fits
    have within := length_arrive_le_iff headerEnd_ne_nil found 65536
    refine within.mp (not_lt.mp fun large => ?_)
    rw [readRequest_of_large nonempty large, ReadsBlock, boundedBlock_of_fits found fits] at reads
    cases reads
  · intro within
    by_cases small : (arrive headerEnd [] chunks).length ≤ 65536
    · exact readRequest_of_small nonempty small
    · rw [readRequest_of_large nonempty (not_le.mp small), ReadsBlock]
      cases found : indexOf headerEnd chunks.flatten with
      | none =>
          rw [boundedBlock_of_missing found]
          exact ⟨_, rfl⟩
      | some index =>
          by_cases fits : index + 4 ≤ 65536
          · exact absurd ((length_arrive_le_iff headerEnd_ne_nil found 65536).mpr
              (within index found fits)) small
          · rw [boundedBlock_of_large found fits]
            exact ⟨_, rfl⟩

theorem server_reads_block_plain :
    ReadsBlock plainRequest (readRequest [plainRequest.take 15, plainRequest.drop 15] .eof) := by
  refine (@server_reads_block_iff [plainRequest.take 15, plainRequest.drop 15] _ (by decide)
    (by decide)).mpr ?_
  intro index _ _ before chunk after cut _
  have total := congrArg (fun pieces => (List.flatten pieces).length) cut
  simp only [List.flatten_append, List.flatten_cons, List.length_append] at total
  have size : (List.flatten [plainRequest.take 15, plainRequest.drop 15]).length = 18 := by decide
  simp only [List.flatten_cons, List.length_append] at size
  omega

/-- A request line of 65454 bytes and an empty line, with further bytes in the last chunk. -/
def crowdedChunks : List Bytes :=
  ascii "GET /" :: List.replicate 15 (List.replicate 4096 97) ++
    [List.replicate 4000 97 ++ (ascii " HTTP/1.1" ++ (headerEnd ++ List.replicate 82 98))]

theorem flatten_crowdedChunks :
    crowdedChunks.flatten =
      (ascii "GET /" ++ List.replicate 65440 97 ++ ascii " HTTP/1.1") ++
        (headerEnd ++ List.replicate 82 98) := by
  simp only [crowdedChunks, List.cons_append, List.flatten_cons, List.flatten_append,
    List.flatten_replicate_replicate, List.flatten_nil, List.append_nil, List.append_assoc]
  rw [← List.append_assoc (List.replicate _ _), List.replicate_append_replicate]

theorem indexOf_crowdedChunks : indexOf headerEnd crowdedChunks.flatten = some 65454 := by
  have clean : cr ∉ ascii "GET /" ++ List.replicate 65440 97 ++ ascii " HTTP/1.1" := by
    simp only [List.mem_append, List.mem_replicate, not_or]
    exact ⟨⟨by decide, by decide⟩, by decide⟩
  rw [flatten_crowdedChunks]
  refine (indexOf_of_clean clean [lf, cr, lf] (List.replicate 82 98)).trans ?_
  simp only [List.length_append, List.length_replicate]
  rfl

theorem sizes_crowdedChunks :
    ∀ chunk ∈ crowdedChunks, 1 ≤ chunk.length ∧ chunk.length ≤ Http.Server.bufferSize := by
  intro chunk member
  simp only [crowdedChunks, List.cons_append, List.mem_cons, List.mem_append,
    List.mem_replicate, List.not_mem_nil, or_false] at member
  rcases member with rfl | ⟨-, rfl⟩ | rfl
  · decide
  · rw [List.length_replicate]
    decide
  · rw [List.length_append, List.length_replicate]
    decide

/-- **Bytes after the headers count**: a block of 65458 bytes is refused because of what arrives
with its end. -/
theorem crowded_block_refused :
    (∀ chunk ∈ crowdedChunks, 1 ≤ chunk.length ∧ chunk.length ≤ Http.Server.bufferSize) ∧
      boundedBlock crowdedChunks.flatten = some (crowdedChunks.flatten.take 65458) ∧
      readRequest crowdedChunks .eof = .error (.valueError "request headers are too large") ∧
      ¬ ReadsBlock crowdedChunks.flatten (readRequest crowdedChunks .eof) := by
  have block := boundedBlock_of_fits indexOf_crowdedChunks (by decide)
  have nonempty : ∀ chunk ∈ crowdedChunks, chunk ≠ [] := fun chunk member =>
    List.ne_nil_of_length_pos (sizes_crowdedChunks chunk member).1
  have large : 65536 < (arrive headerEnd [] crowdedChunks).length := by
    by_contra small
    have before : (ascii "GET /" :: List.replicate 15 (List.replicate 4096 97)).flatten.length =
        61445 := by
      rw [List.flatten_cons, List.flatten_replicate_replicate, List.length_append,
        List.length_replicate]
      rfl
    have last : (List.replicate 4000 97 ++ (ascii " HTTP/1.1" ++ (headerEnd ++
        List.replicate 82 98))).length = 4095 := by
      rw [List.length_append, List.length_replicate]
      rfl
    have fits := (length_arrive_le_iff headerEnd_ne_nil indexOf_crowdedChunks 65536).mp
      (not_lt.mp small) _ _ [] rfl
    rw [before, last] at fits
    exact absurd (fits (by decide)) (by decide)
  have refused := readRequest_of_large nonempty large
  refine ⟨sizes_crowdedChunks, block, refused, ?_⟩
  rw [ReadsBlock, block, refused]
  nofun

end Server

/-! ## The reverse proxy -/

section Proxy

variable {tables : UnicodeTables} {stream : Bytes}

/-- **What the reverse proxy accepts** is what it has received when the end of the headers is
there, if that is within the limit and advertises no body. -/
theorem proxy_accepts_iff {incoming : Incoming} (segments : incoming.Segments stream)
    {request : Bytes} :
    ReverseProxy.acceptRequest tables incoming = some request ↔
      arrive headerEnd [] incoming.reads = request ∧ request.length ≤ 65536 ∧
        indexOf headerEnd stream ≠ none ∧
        hasUnsupportedBody tables (headerBlock stream) = false := by
  have nonempty : ∀ chunk ∈ incoming.reads, chunk ≠ [] := fun chunk member =>
    List.ne_nil_of_length_pos (segments.sizes chunk member).1
  have isPrefix := arrive_prefix headerEnd [] incoming.reads
  have place := indexOf_arrive headerEnd_ne_nil [] incoming.reads
  rw [List.nil_append, segments.whole] at isPrefix place
  have read : ReverseProxy.readRequest incoming = _ :=
    (congrArg (fun last => ReverseProxy.readChunks [] incoming.reads last incoming.finish)
      segments.separate).trans
      (ReverseProxy.readChunks_eq incoming.finish nonempty (Nat.zero_le _))
  generalize arrive headerEnd [] incoming.reads = received at isPrefix place read
  by_cases large : maxRequestSize < received.length
  · rw [if_pos large] at read
    simp only [ReverseProxy.acceptRequest, read]
    refine iff_of_false (by simp) ?_
    rintro ⟨rfl, small, -⟩
    exact absurd large (not_lt.mpr small)
  · rw [if_neg large] at read
    by_cases missing : indexOf headerEnd stream = none
    · rw [if_pos (place.trans missing)] at read
      simp only [ReverseProxy.acceptRequest, read]
      exact iff_of_false (by simp) fun within => within.2.2.1 missing
    · have found : ¬ indexOf headerEnd received = none := by rwa [place]
      rw [if_neg found] at read
      have filled : received.length ≠ 0 := by
        intro zero
        rw [List.length_eq_zero_iff.mp zero] at found
        exact found (by decide)
      have filter : hasUnsupportedBody tables received =
          hasUnsupportedBody tables (headerBlock stream) := by
        rw [← hasUnsupportedBody_headerBlock tables found, headerBlock_of_prefix isPrefix found]
      simp only [ReverseProxy.acceptRequest, read, filled, found, filter]
      by_cases body : hasUnsupportedBody tables (headerBlock stream) = true
      · simp [body]
      · rw [Bool.not_eq_true] at body
        simp only [body, ne_eq, not_true_eq_false, or_self, if_false, Bool.false_eq_true,
          Option.some.injEq, missing, not_false_eq_true, and_true]
        refine ⟨fun same => ⟨same, ?_⟩, And.left⟩
        rw [← same]
        exact not_lt.mp large

/-- A run forwards the request that was accepted, if it reaches the backend. -/
theorem forwards_iff_of_accepted {environment : ReverseProxy.Environment} {request : Bytes}
    (accepted : ReverseProxy.acceptRequest tables environment.incoming = some request)
    (forwarded : Bytes) :
    Forwards (ReverseProxy.handleConnection tables environment) forwarded ↔
      environment.exchange.dial = none ∧ forwarded = request := by
  rw [Forwards, ReverseProxy.handleConnection_attempt accepted]
  constructor
  · rintro ⟨relayed, error, same, member⟩
    obtain rfl := Option.some.inj same
    refine ⟨?_, eq_of_requestWrite_mem _ _ _ member⟩
    cases dial : environment.exchange.dial with
    | none => rfl
    | some reason =>
        rw [attempt, dial] at member
        simp at member
  · rintro ⟨dial, rfl⟩
    have reached : .dial none ∈
        (attempt environment.writes .start environment.exchange forwarded).events := by
      rw [attempt, dial]
      exact List.mem_cons_self
    obtain ⟨error, member⟩ := exists_requestWrite_mem _ _ _ reached
    exact ⟨_, error, rfl, member⟩

theorem gatewayPage_ne (error : NetError) :
    ReverseProxy.gatewayPage error ≠ ("400 Bad Request", "Bad Request\n") := by
  cases error with
  | timeout => decide
  | other => decide

/-- An accepted request is not answered with `400`. -/
theorem page_of_accepted {environment : ReverseProxy.Environment} {request : Bytes}
    (accepted : ReverseProxy.acceptRequest tables environment.incoming = some request) :
    (ReverseProxy.handleConnection tables environment).page ≠
      some ("400 Bad Request", "Bad Request\n") := by
  rw [ReverseProxy.handleConnection, accepted]
  dsimp only
  split
  · exact (Option.some_ne_none _).symm
  · split
    · exact (Option.some_ne_none _).symm
    · intro same
      exact gatewayPage_ne _ (Option.some.inj same)

theorem handleConnection_of_unaccepted {environment : ReverseProxy.Environment}
    (refused : ReverseProxy.acceptRequest tables environment.incoming = none) :
    (ReverseProxy.handleConnection tables environment).page =
        some ("400 Bad Request", "Bad Request\n") ∧
      (ReverseProxy.handleConnection tables environment).attempt = none := by
  rw [ReverseProxy.handleConnection, refused]
  exact ⟨rfl, rfl⟩

/-- However the stream arrives, the connection is accepted iff the block within the limit
advertises no body, and then the backend is sent the block alone. -/
def ForwardsBlock (tables : UnicodeTables) (stream : Bytes) : Prop :=
  ∀ environment : ReverseProxy.Environment, environment.incoming.Segments stream →
    (∀ block, boundedBlock stream = some block → hasUnsupportedBody tables block = false →
      (ReverseProxy.handleConnection tables environment).page ≠
          some ("400 Bad Request", "Bad Request\n") ∧
        ∀ forwarded, Forwards (ReverseProxy.handleConnection tables environment) forwarded ↔
          environment.exchange.dial = none ∧ forwarded = block) ∧
    ((∀ block, boundedBlock stream = some block → hasUnsupportedBody tables block = true) →
      (ReverseProxy.handleConnection tables environment).page =
          some ("400 Bad Request", "Bad Request\n") ∧
        (ReverseProxy.handleConnection tables environment).attempt = none)

/-- The stream in single bytes, but for the last byte of its front and the byte after it. -/
def overrunReads (front : Bytes) (last extra : UInt8) (rest : Bytes) : List Bytes :=
  front.map (fun byte => [byte]) ++ [last, extra] :: rest.map fun byte => [byte]

theorem flatten_singles (bytes : Bytes) : (bytes.map fun byte => [byte]).flatten = bytes := by
  rw [← List.flatMap_def]
  exact List.flatMap_singleton' bytes

theorem segments_overrunReads (front : Bytes) (last extra : UInt8) (rest : Bytes) :
    (Incoming.mk (overrunReads front last extra rest) [] .eof).Segments
      (front ++ [last] ++ extra :: rest) where
  whole := by
    rw [overrunReads, List.flatten_append, List.flatten_cons, flatten_singles, flatten_singles]
    simp
  sizes := by
    have room : 2 ≤ bufferSize := by decide
    intro chunk member
    simp only [overrunReads, List.mem_append, List.mem_cons, List.mem_map] at member
    rcases member with ⟨byte, -, rfl⟩ | rfl | ⟨byte, -, rfl⟩
    · exact ⟨le_rfl, Nat.le_of_succ_le room⟩
    · exact ⟨Nat.le_succ 1, room⟩
    · exact ⟨le_rfl, Nat.le_of_succ_le room⟩
  separate := rfl

/-- What has arrived so is longer than the front. -/
theorem length_arrive_overrunReads {front rest : Bytes} {last extra : UInt8} {index : Nat}
    (found : indexOf headerEnd (front ++ [last] ++ extra :: rest) = some index)
    (length : front.length + 1 = index + 4) :
    index + 4 < (arrive headerEnd [] (overrunReads front last extra rest)).length := by
  have whole := (segments_overrunReads front last extra rest).whole
  have inReads : indexOf headerEnd ([] ++ (overrunReads front last extra rest).flatten) =
      some index := by
    rw [List.nil_append]
    exact (congrArg _ whole).trans found
  have early : ([] ++ (front.map fun byte => [byte]).flatten).length <
      index + headerEnd.length := by
    rw [List.nil_append, flatten_singles]
    exact Nat.lt_of_succ_le length.le
  have received := (piece_prefix_arrive headerEnd_ne_nil [] inReads early).length_le
  rw [flatten_singles, List.nil_append, List.length_append] at received
  exact lt_of_lt_of_le (by rw [← length]; exact Nat.lt_succ_self _) received

/-- The block is a nonempty front of the stream. -/
theorem exists_rest_of_bounded {block : Bytes} (bounded : boundedBlock stream = some block) :
    ∃ index front last rest, indexOf headerEnd stream = some index ∧
      block = front ++ [last] ∧ front.length + 1 = index + 4 ∧ stream = block ++ rest := by
  obtain ⟨index, found, -, rfl⟩ := boundedBlock_eq_some_iff.mp bounded
  have room : index + 4 ≤ stream.length := indexOf_add_length_le headerEnd_ne_nil found
  have size : (stream.take (index + 4)).length = index + 4 := List.length_take_of_le room
  have nonempty : stream.take (index + 4) ≠ [] := by
    intro empty
    rw [empty] at size
    cases size
  refine ⟨index, (stream.take (index + 4)).dropLast, (stream.take (index + 4)).getLast nonempty,
    stream.drop (index + 4), found, (List.dropLast_append_getLast nonempty).symm, ?_,
    (List.take_append_drop _ _).symm⟩
  rw [List.length_dropLast, size]
  omega

/-- A stream with something after its block can arrive so that the reverse proxy does not
forward the block. -/
theorem not_forwardsBlock_of_rest {block : Bytes} (bounded : boundedBlock stream = some block)
    (noBody : hasUnsupportedBody tables block = false) (more : stream ≠ block) :
    ¬ ForwardsBlock tables stream := by
  obtain ⟨index, front, last, rest, found, isBlock, length, whole⟩ :=
    exists_rest_of_bounded bounded
  cases rest with
  | nil =>
      rw [List.append_nil] at whole
      exact absurd whole more
  | cons extra rest =>
      intro forwards
      rw [isBlock] at whole
      have longer := length_arrive_overrunReads (whole ▸ found) length
      have segments := segments_overrunReads front last extra rest
      rw [← whole] at segments
      obtain ⟨admitted, sent⟩ :=
        (forwards ⟨⟨overrunReads front last extra rest, [], .eof⟩, fun _ => .done,
          ⟨none, none, ⟨[], [], .eof⟩⟩⟩ segments).1 block bounded noBody
      cases accepted : ReverseProxy.acceptRequest tables
          ⟨overrunReads front last extra rest, [], .eof⟩ with
      | none => exact admitted (handleConnection_of_unaccepted accepted).1
      | some request =>
          have received := ((proxy_accepts_iff segments).mp accepted).1
          have same := (sent request).mp
            ((forwards_iff_of_accepted accepted request).mpr ⟨rfl, rfl⟩)
          rw [received, same.2, isBlock, List.length_append, List.length_singleton, length]
            at longer
          exact longer.false

/-- **When the reverse proxy forwards the block.** However the stream arrives, it is treated in
one way and the block is all that is forwarded, iff the block within the limit, where it is
not refused, is the whole stream. -/
theorem proxy_forwards_block_iff (tables : UnicodeTables) (stream : Bytes) :
    ForwardsBlock tables stream ↔
      ∀ block, boundedBlock stream = some block → hasUnsupportedBody tables block = false →
        stream = block := by
  constructor
  · intro forwards block bounded noBody
    by_contra more
    exact not_forwardsBlock_of_rest bounded noBody more forwards
  · intro alone environment segments
    refine ⟨?_, ?_⟩
    · intro block bounded noBody
      have whole := alone block bounded noBody
      obtain ⟨index, found, fits, isBlock⟩ := boundedBlock_eq_some_iff.mp bounded
      have accepted : ReverseProxy.acceptRequest tables environment.incoming = some block := by
        have marked : indexOf headerEnd stream ≠ none := by
          rw [found]
          exact Option.some_ne_none _
        have short : block.length ≤ 65536 := by
          rw [← isBlock, List.length_take]
          exact (Nat.min_le_left _ _).trans fits
        rw [proxy_accepts_iff segments, headerBlock_of_bounded bounded]
        refine ⟨?_, short, marked, noBody⟩
        have isPrefix := arrive_prefix headerEnd [] environment.incoming.reads
        rw [List.nil_append, segments.whole] at isPrefix
        have reaches := le_length_arrive (segments.whole.symm ▸ found)
        refine (isPrefix.eq_of_length_le ?_).trans whole
        rw [whole, ← isBlock, List.length_take]
        exact (Nat.min_le_left _ _).trans reaches
      exact ⟨page_of_accepted accepted, forwards_iff_of_accepted accepted⟩
    · intro refuses
      refine handleConnection_of_unaccepted (Option.eq_none_iff_forall_ne_some.mpr ?_)
      intro request accepted
      obtain ⟨received, small, marked, noBody⟩ := (proxy_accepts_iff segments).mp accepted
      obtain ⟨index, found⟩ := Option.ne_none_iff_exists'.mp marked
      have fits : index + 4 ≤ 65536 := by
        rw [← received] at small
        exact (le_length_arrive (segments.whole.symm ▸ found)).trans small
      have body := refuses _ (boundedBlock_of_fits found fits)
      rw [← headerBlock_eq found, noBody] at body
      cases body

/-- A request and the first byte of another in one read. -/
theorem proxy_forwards_more :
    Forwards (ReverseProxy.handleConnection ⟨id, id⟩
        ⟨⟨[plainRequest ++ ascii "G"], [], .eof⟩, fun _ => .done, ⟨none, none, ⟨[], [], .eof⟩⟩⟩)
        (plainRequest ++ ascii "G") ∧
      Forwards (ReverseProxy.handleConnection ⟨id, id⟩
        ⟨⟨[plainRequest, ascii "G"], [], .eof⟩, fun _ => .done, ⟨none, none, ⟨[], [], .eof⟩⟩⟩)
        plainRequest ∧
      ¬ ForwardsBlock ⟨id, id⟩ (plainRequest ++ ascii "G") := by
  have block : boundedBlock (plainRequest ++ ascii "G") = some plainRequest := by decide
  have noBody := hasUnsupportedBody_plainRequest ⟨id, id⟩
  have filter : hasUnsupportedBody ⟨id, id⟩ (headerBlock (plainRequest ++ ascii "G")) = false := by
    rw [headerBlock_of_bounded block]
    exact noBody
  have marked : indexOf headerEnd (plainRequest ++ ascii "G") ≠ none := by decide
  have together : ReverseProxy.acceptRequest ⟨id, id⟩ ⟨[plainRequest ++ ascii "G"], [], .eof⟩ =
      some (plainRequest ++ ascii "G") :=
    (proxy_accepts_iff ⟨by decide, by decide, rfl⟩).mpr
      ⟨by decide, by decide, marked, filter⟩
  have apart : ReverseProxy.acceptRequest ⟨id, id⟩ ⟨[plainRequest, ascii "G"], [], .eof⟩ =
      some plainRequest :=
    (proxy_accepts_iff ⟨by decide, by decide, rfl⟩).mpr
      ⟨by decide, by decide, marked, filter⟩
  refine ⟨(forwards_iff_of_accepted together _).mpr ⟨rfl, rfl⟩,
    (forwards_iff_of_accepted apart _).mpr ⟨rfl, rfl⟩, ?_⟩
  exact not_forwardsBlock_of_rest block noBody (by decide)

end Proxy

end InfraFromScratch.Stack
