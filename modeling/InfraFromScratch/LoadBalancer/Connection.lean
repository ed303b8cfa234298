import InfraFromScratch.Foundations.Rotation
import InfraFromScratch.Gateway.Relay
import InfraFromScratch.LoadBalancer.Pool

/-!
# One connection of the load balancer

`handleConnection` in `load-balancer/server.go` reads one request, takes a snapshot of
the pool and tries its backends in turn until one of them has answered.

Other connections use the pool and the clock at the same time. So each check of a
backend finds a pool and a time of its own, and each attempt a backend that behaves in a
way of its own; the `Environment` gives them for every offset of the loop. A `Run`
records what was visited, what was told to the pool, and what the client received.

At the end of the module the loop is taken apart once (`tryBackends_split`): it passes
over backends that are unavailable or fail by themselves, which leaves the client alone,
up to the first one that does not, if there is one.
-/

set_option autoImplicit false

namespace InfraFromScratch.LoadBalancer

open Foundations Gateway

/-! ## Reading the request -/

/-- The loop of `readRequest`. As long as it runs, the end of the headers is missing. -/
def readChunks (request : Bytes) : List Bytes → Bytes → ReadEnd → Bytes × Option ReadError
  | [], last, finish =>
      if last ≠ [] ∧ indexOf headerEnd (request ++ last) = none ∧
          maxRequestSize < (request ++ last).length then
        ([], some .tooLarge)
      else (request ++ last, some (.network finish))
  | chunk :: rest, last, finish =>
      if chunk = [] then readChunks request rest last finish
      else
        match indexOf headerEnd (request ++ chunk) with
        | none =>
            if maxRequestSize < (request ++ chunk).length then ([], some .tooLarge)
            else readChunks (request ++ chunk) rest last finish
        | some index =>
            if maxRequestSize < index + 4 then ([], some .tooLarge)
            else ((request ++ chunk).take (index + 4), none)

/-- `readRequest`. -/
def readRequest (incoming : Incoming) : Bytes × Option ReadError :=
  readChunks [] incoming.reads incoming.last incoming.finish

/-- The request, unless it is `invalid`. -/
def acceptRequest (tables : UnicodeTables) (incoming : Incoming) : Option Bytes :=
  let (request, error) := readRequest incoming
  if error ≠ none ∨ request.length = 0 ∨ indexOf headerEnd request = none ∨
      hasUnsupportedBody tables request = true then
    none
  else some request

/-- **The request that is read**: the stream through the first end of headers, however it
arrives, if that fits. -/
theorem readChunks_of_found {request : Bytes} {reads : List Bytes} {index : Nat}
    (missing : indexOf headerEnd request = none)
    (found : indexOf headerEnd (request ++ reads.flatten) = some index)
    (fits : index + 4 ≤ maxRequestSize) (last : Bytes) (finish : ReadEnd) :
    readChunks request reads last finish =
      ((request ++ reads.flatten).take (index + 4), none) := by
  induction reads generalizing request with
  | nil =>
      rw [List.flatten_nil, List.append_nil, missing] at found
      cases found
  | cons chunk rest ih =>
      rw [List.flatten_cons, ← List.append_assoc] at found ⊢
      rw [readChunks]
      split
      · rename_i empty
        rw [empty, List.append_nil] at found ⊢
        exact ih missing found
      · cases here : indexOf headerEnd (request ++ chunk) with
        | none =>
            have short := length_lt_of_indexOf found here
            have small : ¬ maxRequestSize < (request ++ chunk).length :=
              not_lt.mpr (short.le.trans fits)
            dsimp only
            rw [if_neg small]
            exact ih here found
        | some first =>
            have same : first = index := Option.some.inj
              ((indexOf_append headerEnd_ne_nil here rest.flatten).symm.trans found)
            have room : first + 4 ≤ (request ++ chunk).length :=
              indexOf_add_length_le headerEnd_ne_nil here
            subst same
            dsimp only
            rw [if_neg (not_lt.mpr fits), List.take_append_of_le_length room]

/-- Nothing else is read: without error, the end of the headers was there and fits. -/
theorem readChunks_eq_ok {request result : Bytes} {reads : List Bytes} {last : Bytes}
    {finish : ReadEnd} (missing : indexOf headerEnd request = none)
    (ok : readChunks request reads last finish = (result, none)) :
    ∃ index, indexOf headerEnd (request ++ reads.flatten) = some index ∧
      index + 4 ≤ maxRequestSize ∧ result = (request ++ reads.flatten).take (index + 4) := by
  induction reads generalizing request with
  | nil =>
      rw [readChunks] at ok
      split at ok
      · cases ok
      · cases ok
  | cons chunk rest ih =>
      rw [readChunks] at ok
      rw [List.flatten_cons, ← List.append_assoc]
      split at ok
      · rename_i empty
        rw [empty, List.append_nil]
        exact ih missing ok
      · split at ok
        · rename_i here
          split at ok
          · cases ok
          · exact ih here ok
        · rename_i index here
          split at ok
          · cases ok
          · rename_i fits
            have room : index + 4 ≤ (request ++ chunk).length :=
              indexOf_add_length_le headerEnd_ne_nil here
            refine ⟨index, indexOf_append headerEnd_ne_nil here _, not_lt.mp fits, ?_⟩
            rw [List.take_append_of_le_length room]
            exact (Prod.mk.inj ok).1.symm

/-- A stream whose first end of headers fits is accepted through there, unless it
advertises a body. -/
theorem acceptRequest_of_found {tables : UnicodeTables} {incoming : Incoming} {index : Nat}
    (found : indexOf headerEnd incoming.reads.flatten = some index)
    (fits : index + 4 ≤ maxRequestSize)
    (noBody : hasUnsupportedBody tables (incoming.reads.flatten.take (index + 4)) = false) :
    acceptRequest tables incoming = some (incoming.reads.flatten.take (index + 4)) := by
  have read : readRequest incoming = (incoming.reads.flatten.take (index + 4), none) :=
    readChunks_of_found (by decide) found fits incoming.last incoming.finish
  have marked : indexOf headerEnd (incoming.reads.flatten.take (index + 4)) = some index :=
    indexOf_take headerEnd_ne_nil found
  have room : index + 4 ≤ (incoming.reads.flatten.take (index + 4)).length :=
    indexOf_add_length_le headerEnd_ne_nil marked
  have nonempty : (incoming.reads.flatten.take (index + 4)).length ≠ 0 := by omega
  simp only [acceptRequest, read, marked, noBody, nonempty, ne_eq, not_true_eq_false,
    reduceCtorEq, Bool.false_eq_true, or_self, if_false]

/-- **The requests that are accepted**: the stream has an end of headers that fits, and
advertises no body up to there. -/
theorem acceptRequest_eq_some_iff {tables : UnicodeTables} {incoming : Incoming}
    {request : Bytes} :
    acceptRequest tables incoming = some request ↔
      ∃ index, indexOf headerEnd incoming.reads.flatten = some index ∧
        index + 4 ≤ maxRequestSize ∧
        hasUnsupportedBody tables (incoming.reads.flatten.take (index + 4)) = false ∧
        request = incoming.reads.flatten.take (index + 4) := by
  constructor
  · intro accepted
    cases read : readRequest incoming with
    | mk result error =>
        simp only [acceptRequest, read] at accepted
        split at accepted
        · cases accepted
        · rename_i valid
          cases accepted
          obtain ⟨noError, valid⟩ := not_or.mp valid
          have noBody := (not_or.mp (not_or.mp valid).2).2
          rw [not_not.mp noError] at read
          obtain ⟨index, found, fits, rfl⟩ := readChunks_eq_ok (by decide) read
          exact ⟨index, found, fits, Bool.eq_false_iff.mpr noBody, rfl⟩
  · rintro ⟨index, found, fits, noBody, rfl⟩
    exact acceptRequest_of_found found fits noBody

/-! ## The selected backend -/

/-- `initialIndex`, from the counter before it is increased. The counter is converted to
`int`, and `%` truncates towards zero. -/
def initialIndex (selection : UInt64) (size : Nat) : Int :=
  selection.toBitVec.toInt.tmod size

/-- `(initialIndex+offset)%len(backends)`. -/
def selectedIndex (selection : UInt64) (size offset : Nat) : Int :=
  (initialIndex selection size + offset).tmod size

/-- `backends[(initialIndex+offset)%len(backends)]`, with its position. Indexing panics
when the index is negative. -/
def selected (selection : UInt64) (backends : List Pointer) (offset : Nat) :
    Option (Nat × Pointer) :=
  match selectedIndex selection backends.length offset with
  | .ofNat position => backends[position]?.map fun backend => (position, backend)
  | .negSucc _ => none

/-! ## Runs -/

/-- What one run of `handleConnection` meets. -/
structure Environment where
  /-- What the client sends. -/
  incoming : Incoming
  /-- What the writes to the client return. -/
  writes : Nat → WriteResult
  /-- The pool and the time of the snapshot. -/
  pool : BackendPool
  now : Int
  /-- The counter before this run increases it. -/
  selection : UInt64
  /-- The pool and the time of the check at each offset. -/
  poolAt : Nat → BackendPool
  timeAt : Nat → Int
  /-- What the backend at each offset does, if it is dialled. -/
  exchangeAt : Nat → Exchange

/-- The snapshot. -/
def Environment.backends (environment : Environment) : List Pointer :=
  (environment.pool.snapshot environment.now).2

/-- The result of `pool.available(selected)`. -/
def Environment.available (environment : Environment) (offset : Nat) (backend : Pointer) : Bool :=
  (environment.poolAt offset).available (environment.timeAt offset) backend

/-- A call of `markSuccess` or of `markFailure`. -/
inductive Mark where
  | success
  | failure
  deriving DecidableEq, Repr

/-- One round of the loop. A backend that is not available is not attempted. -/
structure Visit where
  offset : Nat
  position : Nat
  backend : Pointer
  attempt : Option Relayed
  mark : Option Mark

/-- What a visit does to the pool, at the time of its mark. -/
def Visit.tell (visit : Visit) (now : Int) (pool : BackendPool) : BackendPool :=
  match visit.mark with
  | some .failure => pool.markFailure now visit.backend
  | some .success => pool.markSuccess visit.backend
  | none => pool

/-- How a run ends: with an error page, with `relay` having returned `nil`, with a
response that broke off, or with a panic. -/
inductive Ending where
  | errorPage (status body : String)
  | served
  | broken
  | panicked
  deriving DecidableEq, Repr

structure Run where
  visits : List Visit
  ending : Ending
  client : Outgoing

/-- Record earlier visits. -/
def Run.after (visits : List Visit) (run : Run) : Run := { run with visits := visits ++ run.visits }

/-- Answer with an error page and return. -/
def failWith (environment : Environment) (client : Outgoing) (status body : String) : Run :=
  ⟨[], .errorPage status body, sendError environment.writes client status body⟩

/-- The loop of `handleConnection`, over the offsets that are left. -/
def tryBackends (environment : Environment) (request : Bytes) (client : Outgoing) :
    List Nat → Run
  | [] => failWith environment client "502 Bad Gateway" "Bad Gateway\n"
  | offset :: rest =>
      match selected environment.selection environment.backends offset with
      | none => ⟨[], .panicked, client⟩
      | some (position, backend) =>
          if environment.available offset backend = false then
            (tryBackends environment request client rest).after
              [⟨offset, position, backend, none, none⟩]
          else
            let relayed :=
              attempt environment.writes client (environment.exchangeAt offset) request
            if relayed.error = none then
              ⟨[⟨offset, position, backend, some relayed, some .success⟩], .served,
                relayed.client⟩
            else if relayed.started = true then
              ⟨[⟨offset, position, backend, some relayed, none⟩], .broken, relayed.client⟩
            else
              (tryBackends environment request relayed.client rest).after
                [⟨offset, position, backend, some relayed, some .failure⟩]

/-- `handleConnection`. -/
def handleConnection (tables : UnicodeTables) (environment : Environment) : Run :=
  match acceptRequest tables environment.incoming with
  | none => failWith environment .start "400 Bad Request" "Bad Request\n"
  | some request =>
      if environment.backends = [] then
        failWith environment .start "502 Bad Gateway" "Bad Gateway\n"
      else tryBackends environment request .start (List.range environment.backends.length)

/-- Two configured backends that are available, and a client that sends a request without
header fields. -/
def plainEnvironment (writes : Nat → WriteResult) (exchangeAt : Nat → Exchange) : Environment where
  incoming := ⟨[plainRequest], [], .eof⟩
  writes := writes
  pool := newBackendPool ["127.0.0.1:8088", "127.0.0.1:8089"]
  now := 0
  selection := 0
  poolAt := fun _ => newBackendPool ["127.0.0.1:8088", "127.0.0.1:8089"]
  timeAt := fun _ => 0
  exchangeAt := exchangeAt

theorem acceptRequest_plain (tables : UnicodeTables) :
    acceptRequest tables ⟨[plainRequest], [], .eof⟩ = some plainRequest := by
  have read : readRequest ⟨[plainRequest], [], .eof⟩ = (plainRequest, none) := by decide
  have marked : indexOf headerEnd plainRequest ≠ none := by decide
  have nonempty : plainRequest.length ≠ 0 := by decide
  simp [acceptRequest, read, marked, nonempty, hasUnsupportedBody_plainRequest]

/-! ## Where the loop goes -/

theorem initialIndex_of_small {selection : UInt64} (small : selection.toNat < 2 ^ 63)
    (size : Nat) : initialIndex selection size = ((selection.toNat % size : Nat) : Int) := by
  have converted : selection.toBitVec.toInt = (selection.toNat : Int) :=
    BitVec.toInt_eq_toNat_of_lt (by rw [UInt64.toNat_toBitVec]; omega)
  rw [initialIndex, converted]
  exact (Int.ofNat_tmod _ _).symm

theorem initialIndex_of_large {selection : UInt64} (large : 2 ^ 63 ≤ selection.toNat)
    (size : Nat) :
    initialIndex selection size = -(((2 ^ 64 - selection.toNat) % size : Nat) : Int) := by
  have below : selection.toNat < 2 ^ 64 := selection.toNat_lt
  have converted : selection.toBitVec.toInt = -((2 ^ 64 - selection.toNat : Nat) : Int) := by
    rw [BitVec.toInt_eq_toNat_cond, UInt64.toNat_toBitVec, if_neg (by omega)]
    omega
  rw [initialIndex, converted, Int.neg_tmod]
  exact congrArg Neg.neg (Int.ofNat_tmod _ _).symm

section Selection

variable {selection : UInt64} {backends : List Pointer} {offset : Nat}

theorem selected_eq_some {position : Nat} {backend : Pointer}
    (found : selected selection backends offset = some (position, backend)) :
    backends[position]? = some backend := by
  unfold selected at found
  cases index : selectedIndex selection backends.length offset with
  | ofNat place =>
      rw [index] at found
      obtain ⟨there, isBackend, same⟩ := Option.map_eq_some_iff.mp found
      cases same
      exact isBackend
  | negSucc place =>
      rw [index] at found
      cases found

/-- From an initial index that is not negative, the loop goes round the snapshot. -/
theorem selected_of_nonneg (nonneg : 0 ≤ initialIndex selection backends.length)
    (inside : offset < backends.length) :
    ∃ backend, selected selection backends offset =
      some (turnAt backends.length (initialIndex selection backends.length).toNat offset,
        backend) := by
  have index : selectedIndex selection backends.length offset =
      Int.ofNat (turnAt backends.length (initialIndex selection backends.length).toNat
        offset) := by
    rw [selectedIndex, turnAt]
    nth_rewrite 1 [← Int.toNat_of_nonneg nonneg]
    rw [← Int.natCast_add]
    exact (Int.ofNat_tmod _ _).symm
  refine ⟨backends.get ⟨turnAt backends.length (initialIndex selection backends.length).toNat
    offset, turnAt_lt inside _⟩, ?_⟩
  rw [selected, index]
  simp [turnAt_lt inside]

/-- A negative initial index is out of range at once. -/
theorem selected_zero_of_neg (negative : initialIndex selection backends.length < 0) :
    selected selection backends 0 = none := by
  have same : selectedIndex selection backends.length 0 =
      initialIndex selection backends.length := by
    rw [selectedIndex, Nat.cast_zero, add_zero, initialIndex, Int.tmod_tmod]
  rw [selected, same]
  cases index : initialIndex selection backends.length with
  | ofNat place =>
      rw [index] at negative
      exact absurd negative (Int.natCast_nonneg place).not_gt
  | negSucc place => rfl

end Selection

/-! ## Taking the loop apart -/

namespace Environment

variable (environment : Environment)

/-- The backend of the offset is there and available. -/
def Available (offset : Nat) : Prop :=
  ∃ position backend,
    selected environment.selection environment.backends offset = some (position, backend) ∧
      environment.available offset backend = true

/-- The backend of the offset is not available, or fails by itself. -/
def Passes (offset : Nat) : Prop :=
  environment.Available offset → (environment.exchangeAt offset).Fails

/-- The offset is the first one whose backend is available and does not fail by itself. -/
structure FirstSound (offset : Nat) : Prop where
  inside : offset < environment.backends.length
  available : environment.Available offset
  sound : ¬ (environment.exchangeAt offset).Fails
  passes : ∀ earlier < offset, environment.Passes earlier

theorem passes_or_firstSound :
    (∀ offset < environment.backends.length, environment.Passes offset) ∨
      ∃ offset, environment.FirstSound offset := by
  classical
  by_cases stops : ∃ offset, offset < environment.backends.length ∧ ¬ environment.Passes offset
  · obtain ⟨inside, stuck⟩ := Nat.find_spec stops
    obtain ⟨available, sound⟩ := Classical.not_imp.mp stuck
    refine .inr ⟨Nat.find stops, inside, available, sound, ?_⟩
    intro earlier before
    by_contra passes
    exact Nat.find_min stops before ⟨before.trans inside, passes⟩
  · refine .inl fun offset inside => ?_
    by_contra passes
    exact stops ⟨offset, inside, passes⟩

theorem FirstSound.unique {environment : Environment} {offset other : Nat}
    (first : environment.FirstSound offset) (otherFirst : environment.FirstSound other) :
    offset = other := by
  rcases Nat.lt_trichotomy offset other with before | same | after
  · exact absurd (otherFirst.passes offset before first.available) first.sound
  · exact same
  · exact absurd (first.passes other after otherFirst.available) otherFirst.sound

end Environment

/-- The backend was not attempted, or it was marked after it had failed by itself. -/
def Visit.PassedOver (visit : Visit) : Prop :=
  (visit.attempt = none ∧ visit.mark = none) ∨
    ∃ relayed, visit.attempt = some relayed ∧ visit.mark = some .failure ∧
      relayed.received = [] ∧ relayed.BackendFailed ∧ ¬ relayed.ClientFailed

@[simp] theorem Run.after_visits (visits : List Visit) (run : Run) :
    (run.after visits).visits = visits ++ run.visits := rfl

@[simp] theorem Run.after_client (visits : List Visit) (run : Run) :
    (run.after visits).client = run.client := rfl

theorem Run.after_after (earlier later : List Visit) (run : Run) :
    (run.after later).after earlier = run.after (earlier ++ later) := by
  rw [after, after, after, List.append_assoc]

section Loop

variable {environment : Environment} {request : Bytes} {client : Outgoing} {offset position : Nat}
  {backend : Pointer} {rest : List Nat}

theorem tryBackends_of_unavailable
    (found : selected environment.selection environment.backends offset = some (position, backend))
    (unavailable : environment.available offset backend = false) :
    tryBackends environment request client (offset :: rest) =
      (tryBackends environment request client rest).after
        [⟨offset, position, backend, none, none⟩] := by
  simp only [tryBackends, found, unavailable, if_true]

variable
  (found : selected environment.selection environment.backends offset = some (position, backend))
  (available : environment.available offset backend = true)
  {relayed : Relayed}
  (attempted : attempt environment.writes client (environment.exchangeAt offset) request = relayed)

include found available attempted

theorem tryBackends_of_served (noError : relayed.error = none) :
    tryBackends environment request client (offset :: rest) =
      ⟨[⟨offset, position, backend, some relayed, some .success⟩], .served, relayed.client⟩ := by
  simp only [tryBackends, found, available, attempted, noError, if_true, Bool.true_eq_false,
    if_false]

theorem tryBackends_of_broken (error : relayed.error ≠ none) (started : relayed.started = true) :
    tryBackends environment request client (offset :: rest) =
      ⟨[⟨offset, position, backend, some relayed, none⟩], .broken, relayed.client⟩ := by
  simp only [tryBackends, found, available, attempted, error, started, if_true,
    Bool.true_eq_false, if_false]

theorem tryBackends_of_failed (error : relayed.error ≠ none) (started : relayed.started = false) :
    tryBackends environment request client (offset :: rest) =
      (tryBackends environment request relayed.client rest).after
        [⟨offset, position, backend, some relayed, some .failure⟩] := by
  simp only [tryBackends, found, available, attempted, error, started, Bool.false_eq_true,
    Bool.true_eq_false, if_false]

end Loop

/-- Offsets that pass are passed over, with the client left alone. -/
theorem tryBackends_of_passes {environment : Environment} (request : Bytes) (client : Outgoing)
    (offsets rest : List Nat)
    (passes : ∀ offset ∈ offsets, environment.Passes offset)
    (inRange : ∀ offset ∈ offsets, ∃ position backend,
      selected environment.selection environment.backends offset = some (position, backend)) :
    ∃ passed : List Visit, (∀ visit ∈ passed, visit.PassedOver) ∧
      tryBackends environment request client (offsets ++ rest) =
        (tryBackends environment request client rest).after passed := by
  induction offsets with
  | nil => exact ⟨[], by simp, rfl⟩
  | cons offset offsets ih =>
      obtain ⟨passed, passedOver, equation⟩ :=
        ih (fun later member => passes later (List.mem_cons_of_mem _ member))
          (fun later member => inRange later (List.mem_cons_of_mem _ member))
      obtain ⟨position, backend, found⟩ := inRange offset List.mem_cons_self
      rw [List.cons_append]
      cases available : environment.available offset backend with
      | false =>
          refine ⟨⟨offset, position, backend, none, none⟩ :: passed, ?_, ?_⟩
          · exact List.forall_mem_cons.mpr ⟨.inl ⟨rfl, rfl⟩, passedOver⟩
          · rw [tryBackends_of_unavailable found available, equation, Run.after_after]
            rfl
      | true =>
          have fails := passes offset List.mem_cons_self ⟨position, backend, found, available⟩
          have outcome := attempt_of_fails environment.writes client request fails
          generalize attempted :
            attempt environment.writes client (environment.exchangeAt offset) request = relayed
              at outcome
          obtain ⟨sameClient, started, error, received, backendFailed, clientFine⟩ := outcome
          refine ⟨⟨offset, position, backend, some relayed, some .failure⟩ :: passed, ?_, ?_⟩
          · exact List.forall_mem_cons.mpr
              ⟨.inr ⟨relayed, rfl, rfl, received, backendFailed, clientFine⟩, passedOver⟩
          · rw [tryBackends_of_failed found available attempted error started, sameClient,
              equation, Run.after_after]
            rfl

/-- The loop comes to an offset when all offsets before it pass. -/
theorem tryBackends_of_passes_before {environment : Environment} (request : Bytes)
    (client : Outgoing)
    (nonneg : 0 ≤ initialIndex environment.selection environment.backends.length) {offset : Nat}
    (inside : offset < environment.backends.length)
    (passes : ∀ earlier < offset, environment.Passes earlier) :
    ∃ passed : List Visit, (∀ visit ∈ passed, visit.PassedOver) ∧
      tryBackends environment request client (List.range environment.backends.length) =
        (tryBackends environment request client
          (offset :: (List.range environment.backends.length).drop (offset + 1))).after passed := by
  have range : List.range environment.backends.length =
      List.range offset ++
        offset :: (List.range environment.backends.length).drop (offset + 1) := by
    nth_rewrite 1 [← List.take_append_drop offset (List.range environment.backends.length)]
    rw [List.take_range, min_eq_left inside.le,
      List.drop_eq_getElem_cons (by rw [List.length_range]; exact inside), List.getElem_range]
  nth_rewrite 1 [range]
  exact tryBackends_of_passes request client (List.range offset) _
    (fun earlier member => passes earlier (List.mem_range.mp member))
    fun earlier member =>
      ⟨_, selected_of_nonneg nonneg ((List.mem_range.mp member).trans inside)⟩

/-- **The loop of a run**: from an initial index in range, either every backend is passed
over and the page is sent, or the run is decided at the first one that is not. -/
theorem tryBackends_split {environment : Environment} (request : Bytes) (client : Outgoing)
    (nonneg : 0 ≤ initialIndex environment.selection environment.backends.length) :
    ∃ passed : List Visit, (∀ visit ∈ passed, visit.PassedOver) ∧
      (((∀ offset < environment.backends.length, environment.Passes offset) ∧
          tryBackends environment request client (List.range environment.backends.length) =
            (failWith environment client "502 Bad Gateway" "Bad Gateway\n").after passed) ∨
        ∃ offset position backend rest, environment.FirstSound offset ∧
          selected environment.selection environment.backends offset =
            some (position, backend) ∧
          environment.available offset backend = true ∧
          tryBackends environment request client (List.range environment.backends.length) =
            (tryBackends environment request client (offset :: rest)).after passed) := by
  rcases environment.passes_or_firstSound with passes | ⟨offset, first⟩
  · obtain ⟨passed, passedOver, equation⟩ := tryBackends_of_passes request client
      (List.range environment.backends.length) []
      (fun offset member => passes offset (List.mem_range.mp member))
      (fun offset member => ⟨_, selected_of_nonneg nonneg (List.mem_range.mp member)⟩)
    rw [List.append_nil] at equation
    exact ⟨passed, passedOver, .inl ⟨passes, equation⟩⟩
  · obtain ⟨position, backend, found, available⟩ := first.available
    obtain ⟨passed, passedOver, equation⟩ :=
      tryBackends_of_passes_before request client nonneg first.inside first.passes
    exact ⟨passed, passedOver,
      .inr ⟨offset, position, backend, _, first, found, available, equation⟩⟩

/-- Every attempt is made with the request. -/
theorem exists_attempt_eq {environment : Environment} {request : Bytes} {client : Outgoing}
    {offsets : List Nat} {visit : Visit}
    (member : visit ∈ (tryBackends environment request client offsets).visits)
    {relayed : Relayed} (isAttempt : visit.attempt = some relayed) :
    ∃ earlier, relayed =
      attempt environment.writes earlier (environment.exchangeAt visit.offset) request := by
  induction offsets generalizing client with
  | nil => cases member
  | cons offset rest ih =>
      rw [tryBackends] at member
      split at member
      · cases member
      · split at member
        · rcases List.mem_cons.mp member with here | later
          · rw [here] at isAttempt
            cases isAttempt
          · exact ih later
        · dsimp only at member
          split at member
          · rw [List.mem_singleton.mp member] at isAttempt ⊢
            exact ⟨client, (Option.some.inj isAttempt).symm⟩
          · split at member
            · rw [List.mem_singleton.mp member] at isAttempt ⊢
              exact ⟨client, (Option.some.inj isAttempt).symm⟩
            · rcases List.mem_cons.mp member with here | later
              · rw [here] at isAttempt ⊢
                exact ⟨client, (Option.some.inj isAttempt).symm⟩
              · exact ih later

/-- The loop sends no other error page than the one for a bad gateway. -/
theorem tryBackends_not_rejected (environment : Environment) (request : Bytes)
    (client : Outgoing) (offsets : List Nat) :
    (tryBackends environment request client offsets).ending ≠
      .errorPage "400 Bad Request" "Bad Request\n" := by
  induction offsets generalizing client with
  | nil => simp [tryBackends, failWith]
  | cons offset rest ih =>
      rw [tryBackends]
      split
      · simp
      · split
        · exact ih client
        · dsimp only
          split
          · simp
          · split
            · simp
            · exact ih _

/-- An initial index that is negative ends the run at once. -/
theorem tryBackends_of_neg {environment : Environment} (request : Bytes) (client : Outgoing)
    (nonempty : environment.backends ≠ [])
    (negative : initialIndex environment.selection environment.backends.length < 0) :
    tryBackends environment request client (List.range environment.backends.length) =
      ⟨[], .panicked, client⟩ := by
  obtain ⟨size, length⟩ : ∃ size, environment.backends.length = size + 1 :=
    Nat.exists_eq_succ_of_ne_zero fun zero => nonempty (List.length_eq_zero_iff.mp zero)
  rw [length, List.range_succ_eq_map, tryBackends, selected_zero_of_neg negative]

/-- Without backends the page is sent at once. -/
theorem handleConnection_of_empty {tables : UnicodeTables} {environment : Environment}
    {request : Bytes} (accepted : acceptRequest tables environment.incoming = some request)
    (empty : environment.backends = []) :
    handleConnection tables environment =
      failWith environment .start "502 Bad Gateway" "Bad Gateway\n" := by
  simp only [handleConnection, accepted, empty, if_true]

theorem handleConnection_eq {tables : UnicodeTables} {environment : Environment} {request : Bytes}
    (accepted : acceptRequest tables environment.incoming = some request)
    (nonempty : environment.backends ≠ []) :
    handleConnection tables environment =
      tryBackends environment request .start (List.range environment.backends.length) := by
  simp only [handleConnection, accepted, nonempty, if_false]

end InfraFromScratch.LoadBalancer
