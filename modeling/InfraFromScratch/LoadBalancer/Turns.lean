import InfraFromScratch.Foundations.Transitions
import InfraFromScratch.LoadBalancer.Connection

/-!
# Whose turn it is

`serve` in `load-balancer/server.go` runs `handleConnection` for every client in a goroutine of
its own. The goroutines share the counter of the round robin: each one that has accepted its
request and found backends increases it once, by an atomic addition, and starts at the backend
of the number it got. A request starts at the backend that it claims with the addition.

What else a connection meets is its own: the `Environment` of each connection is given, and only
the counter in it comes from the shared state. So the steps of the connections may interleave
in any way. (The goroutines of `Goroutines`, which share the pool too, have these runs: see
`turns_of_serving`.) The k-th connection to claim a turn first tries backend `k` modulo their number, and
the connections that started at two backends are as many, up to one (`turns_round_robin`).

When some backends stay unavailable, a turn goes on to the next available one. Then the requests
are spread evenly over the available ones only if all are available or no more than one is
(`served_evenly_iff`).
-/

set_option autoImplicit false

namespace InfraFromScratch.LoadBalancer

open Foundations Gateway

/-! ## Connections that share a counter -/

/-- Where a connection is in `handleConnection`. -/
inductive Phase where
  | idle
  /-- The request was invalid: the error page for a bad request was sent. -/
  | rejected
  /-- The request was accepted. -/
  | accepted
  /-- The snapshot was empty: the error page for a bad gateway was sent. -/
  | stranded
  /-- The snapshot has backends. -/
  | ready
  /-- The counter was increased, from this number. -/
  | claimed (turn : UInt64)
  /-- The loop is over. -/
  | closed (turn : UInt64)
  deriving DecidableEq

/-- The number that the connection got from the counter. -/
def Phase.turn? : Phase → Option UInt64
  | .claimed turn | .closed turn => some turn
  | _ => none

/-- The counter and the connections. `turns` lists the connections that have increased the
counter, in their order; the program keeps no such list. -/
structure Balancer where
  selection : UInt64
  phases : Nat → Phase
  turns : List Nat

/-- `serve` before the first client. -/
def Balancer.start : Balancer := ⟨0, fun _ => .idle, []⟩

inductive BalancerEvent where
  /-- The connection reads its request and validates it. -/
  | read (connection : Nat)
  | snapshot (connection : Nat)
  /-- `selection.Add(1)`. -/
  | claim (connection : Nat)
  /-- The loop over the backends ends. -/
  | close (connection : Nat)
  deriving DecidableEq

def Balancer.setPhase (balancer : Balancer) (connection : Nat) (phase : Phase) : Balancer :=
  { balancer with phases := Function.update balancer.phases connection phase }

/-- What an event does, with what each connection meets. -/
def Balancer.next (tables : UnicodeTables) (environments : Nat → Environment)
    (balancer : Balancer) : BalancerEvent → Option Balancer
  | .read connection =>
      match balancer.phases connection with
      | .idle =>
          match acceptRequest tables (environments connection).incoming with
          | none => some (balancer.setPhase connection .rejected)
          | some _ => some (balancer.setPhase connection .accepted)
      | _ => none
  | .snapshot connection =>
      match balancer.phases connection with
      | .accepted =>
          if (environments connection).backends = [] then
            some (balancer.setPhase connection .stranded)
          else some (balancer.setPhase connection .ready)
      | _ => none
  | .claim connection =>
      match balancer.phases connection with
      | .ready =>
          some { balancer.setPhase connection (.claimed balancer.selection) with
            selection := balancer.selection + 1
            turns := balancer.turns ++ [connection] }
      | _ => none
  | .close connection =>
      match balancer.phases connection with
      | .claimed turn => some (balancer.setPhase connection (.closed turn))
      | _ => none

/-- What a connection meets when it got the given number. -/
def Environment.atTurn (environment : Environment) (turn : UInt64) : Environment :=
  { environment with selection := turn }

@[simp] theorem Environment.backends_atTurn (environment : Environment) (turn : UInt64) :
    (environment.atTurn turn).backends = environment.backends := rfl

/-! ## The invariant -/

/-- A phase that the connection can be in. -/
def Phase.Sound (tables : UnicodeTables) (environment : Environment) : Phase → Prop
  | .idle => True
  | .rejected => acceptRequest tables environment.incoming = none
  | .accepted => acceptRequest tables environment.incoming ≠ none
  | .stranded => environment.backends = []
  | .ready | .claimed _ | .closed _ =>
      acceptRequest tables environment.incoming ≠ none ∧ environment.backends ≠ []

/-- What holds in every state: the connections in the list of turns are those with a number,
and the numbers are the places in the list. -/
structure InTurn (tables : UnicodeTables) (environments : Nat → Environment) (balancer : Balancer) :
    Prop where
  counter : balancer.selection = UInt64.ofNat balancer.turns.length
  numbers : ∀ index connection, balancer.turns[index]? = some connection →
    (balancer.phases connection).turn? = some (UInt64.ofNat index)
  sound : ∀ connection, (balancer.phases connection).Sound tables (environments connection)

section Step

variable {tables : UnicodeTables} {environments : Nat → Environment} {balancer : Balancer}

theorem inTurn_start : InTurn tables environments .start where
  counter := rfl
  numbers := by
    intro index connection found
    cases found
  sound := fun _ => trivial

/-- A connection without a number is not among the turns. -/
theorem InTurn.notMem (inTurn : InTurn tables environments balancer) {connection : Nat}
    (noTurn : (balancer.phases connection).turn? = none) : connection ∉ balancer.turns := by
  intro member
  obtain ⟨index, found⟩ := List.getElem?_of_mem member
  rw [inTurn.numbers index connection found] at noTurn
  cases noTurn

/-- A step of one connection that keeps its number. -/
theorem InTurn.setPhase (inTurn : InTurn tables environments balancer) {connection : Nat}
    {phase : Phase} (kept : phase.turn? = (balancer.phases connection).turn?)
    (sound : phase.Sound tables (environments connection)) :
    InTurn tables environments (balancer.setPhase connection phase) where
  counter := inTurn.counter
  numbers := by
    intro index other found
    rw [← inTurn.numbers index other found, Balancer.setPhase]
    by_cases here : other = connection
    · subst here
      simp [kept]
    · simp [Function.update_of_ne here]
  sound := by
    intro other
    by_cases here : other = connection
    · subst here
      simpa [Balancer.setPhase] using sound
    · simpa [Balancer.setPhase, Function.update_of_ne here] using inTurn.sound other

/-- The step in which a connection gets its number. -/
theorem InTurn.claim (inTurn : InTurn tables environments balancer) {connection : Nat}
    (ready : balancer.phases connection = .ready) :
    InTurn tables environments
      { balancer.setPhase connection (.claimed balancer.selection) with
        selection := balancer.selection + 1
        turns := balancer.turns ++ [connection] } where
  counter := by
    rw [inTurn.counter, List.length_append, List.length_singleton]
    exact (UInt64.ofNat_add _ _).symm
  numbers := by
    intro index other found
    by_cases earlier : index < balancer.turns.length
    · rw [List.getElem?_append_left earlier] at found
      have elsewhere : other ≠ connection := by
        rintro rfl
        exact inTurn.notMem (by rw [ready]; rfl) (List.mem_of_getElem? found)
      rw [← inTurn.numbers index other found]
      simp [Balancer.setPhase, Function.update_of_ne elsewhere]
    · rw [List.getElem?_append_right (not_lt.mp earlier), List.getElem?_singleton] at found
      split at found
      · rename_i last
        obtain rfl := Option.some.inj found
        have same : index = balancer.turns.length := by omega
        simp [Balancer.setPhase, Phase.turn?, inTurn.counter, same]
      · cases found
  sound := by
    intro other
    have sound := inTurn.sound connection
    rw [ready] at sound
    by_cases here : other = connection
    · subst here
      simp only [Balancer.setPhase, Function.update_self]
      exact sound
    · simpa [Balancer.setPhase, Function.update_of_ne here] using inTurn.sound other

/-- **One event** keeps the order of turns. -/
theorem InTurn.next (inTurn : InTurn tables environments balancer) {event : BalancerEvent}
    {after : Balancer} (taken : balancer.next tables environments event = some after) :
    InTurn tables environments after := by
  cases event with
  | read connection =>
      simp only [Balancer.next] at taken
      split at taken
      · rename_i idle
        split at taken
        · rename_i refused
          obtain rfl := Option.some.inj taken
          exact inTurn.setPhase (by rw [idle]; rfl) refused
        · rename_i request accepted
          obtain rfl := Option.some.inj taken
          refine inTurn.setPhase (by rw [idle]; rfl) ?_
          show acceptRequest tables (environments connection).incoming ≠ none
          rw [accepted]
          exact Option.some_ne_none request
      · cases taken
  | snapshot connection =>
      simp only [Balancer.next] at taken
      split at taken
      · rename_i accepted
        have sound := inTurn.sound connection
        rw [accepted] at sound
        split at taken
        · rename_i empty
          obtain rfl := Option.some.inj taken
          exact inTurn.setPhase (by rw [accepted]; rfl) empty
        · rename_i nonempty
          obtain rfl := Option.some.inj taken
          exact inTurn.setPhase (by rw [accepted]; rfl) ⟨sound, nonempty⟩
      · cases taken
  | claim connection =>
      simp only [Balancer.next] at taken
      split at taken
      · rename_i ready
        obtain rfl := Option.some.inj taken
        exact inTurn.claim ready
      · cases taken
  | close connection =>
      simp only [Balancer.next] at taken
      split at taken
      · rename_i turn claimed
        have sound := inTurn.sound connection
        rw [claimed] at sound
        obtain rfl := Option.some.inj taken
        exact inTurn.setPhase (by rw [claimed]; rfl) sound
      · cases taken

end Step

/-! ## The first backend of a turn -/

/-- An available backend at the first offset is attempted first. -/
theorem tryBackends_first {environment : Environment} {offset position : Nat} {backend : Pointer}
    (found : selected environment.selection environment.backends offset = some (position, backend))
    (available : environment.available offset backend = true) (request : Bytes) (client : Outgoing)
    (rest : List Nat) :
    ∃ relayed mark later, (tryBackends environment request client (offset :: rest)).visits =
      ⟨offset, position, backend, some relayed, mark⟩ :: later := by
  generalize attempted :
    attempt environment.writes client (environment.exchangeAt offset) request = relayed
  by_cases error : relayed.error = none
  · exact ⟨relayed, _, [], by rw [tryBackends_of_served found available attempted error]⟩
  · cases started : relayed.started with
    | true =>
        exact ⟨relayed, _, [], by rw [tryBackends_of_broken found available attempted error started]⟩
    | false =>
        exact ⟨relayed, _, _, by
          rw [tryBackends_of_failed found available attempted error started]; rfl⟩

/-- The first visit of a run with a small number. -/
theorem handleConnection_first {tables : UnicodeTables} {environment : Environment}
    (accepted : acceptRequest tables environment.incoming ≠ none)
    (nonempty : environment.backends ≠ [])
    (small : environment.selection.toNat < 2 ^ 63)
    (available : ∀ backend ∈ environment.backends, environment.available 0 backend = true) :
    ∃ visit rest, (handleConnection tables environment).visits = visit :: rest ∧
      visit.position = environment.selection.toNat % environment.backends.length ∧
      environment.backends[visit.position]? = some visit.backend ∧ visit.attempt ≠ none := by
  obtain ⟨request, isRequest⟩ := Option.ne_none_iff_exists'.mp accepted
  obtain ⟨size, length⟩ := Nat.exists_eq_succ_of_ne_zero
    fun zero => nonempty (List.length_eq_zero_iff.mp zero)
  have index := initialIndex_of_small small environment.backends.length
  have nonneg : 0 ≤ initialIndex environment.selection environment.backends.length := by
    rw [index]
    exact Int.natCast_nonneg _
  obtain ⟨backend, found⟩ := @selected_of_nonneg _ _ 0 nonneg (by omega)
  have isBackend := selected_eq_some found
  obtain ⟨relayed, mark, later, visits⟩ := tryBackends_first found
    (available backend (List.mem_of_getElem? isBackend)) request .start
    ((List.range size).map Nat.succ)
  rw [← List.range_succ_eq_map, ← Nat.succ_eq_add_one, ← length,
    ← handleConnection_eq isRequest nonempty] at visits
  refine ⟨_, later, visits, ?_, isBackend, Option.some_ne_none _⟩
  show turnAt _ _ 0 = _
  rw [index, Int.toNat_natCast, turnAt, Nat.add_zero, Nat.mod_mod]

/-! ## Concurrent round robin -/

/-- The position in a snapshot of the given size at which the connection starts. -/
def Balancer.startOf (balancer : Balancer) (size connection : Nat) : Option Int :=
  (balancer.phases connection).turn?.map fun turn => initialIndex turn size

/-- How many connections have started at the position. -/
def Balancer.startsAt (balancer : Balancer) (size position : Nat) : Nat :=
  balancer.turns.countP fun connection => balancer.startOf size connection = some (position : Int)

theorem toNat_ofNat_of_small {number : Nat} (small : number < 2 ^ 63) :
    (UInt64.ofNat number).toNat = number := by
  rw [UInt64.toNat_ofNat']
  exact Nat.mod_eq_of_lt (by omega)

/-- The starts are the remainders of the places in the list of turns. -/
theorem InTurn.startsAt_eq {tables : UnicodeTables} {environments : Nat → Environment}
    {balancer : Balancer} (inTurn : InTurn tables environments balancer)
    (few : balancer.turns.length ≤ 2 ^ 63) (size position : Nat) :
    balancer.startsAt size position =
      (List.range balancer.turns.length).countP fun turn => turnAt size 0 turn = position := by
  have starts : balancer.turns.map (balancer.startOf size) =
      (List.range balancer.turns.length).map fun turn => some ((turnAt size 0 turn : Nat) : Int) := by
    apply List.ext_getElem (by simp)
    intro index inside _
    rw [List.length_map] at inside
    have number := inTurn.numbers index _ (List.getElem?_eq_getElem inside)
    have small : (UInt64.ofNat index).toNat < 2 ^ 63 := by
      rw [toNat_ofNat_of_small (by omega)]
      omega
    rw [List.getElem_map, List.getElem_map, List.getElem_range, Balancer.startOf, number,
      Option.map_some, initialIndex_of_small small, toNat_ofNat_of_small (by omega), turnAt,
      Nat.zero_add]
  calc balancer.startsAt size position
      = (balancer.turns.map (balancer.startOf size)).countP (· = some (position : Int)) :=
        by rw [List.countP_map]; rfl
    _ = (List.range balancer.turns.length).countP fun turn => turnAt size 0 turn = position := by
        rw [starts, List.countP_map]
        apply List.countP_congr
        intro turn _
        simp

/-- **Concurrent round robin.** Connections that are rejected or find no backends claim no turn,
and the counter is the number of turns. With the same backends in every snapshot, each available
when it is first checked, and no more than `2^63` turns, the connection of turn `k` first tries
backend `k` modulo their number, and the numbers of connections that started at two backends
differ by at most 1. -/
theorem turns_round_robin {tables : UnicodeTables} {environments : Nat → Environment}
    {events : List BalancerEvent} {balancer : Balancer}
    (run : runEvents (Balancer.next tables environments) .start events = some balancer) :
    (∀ connection, (handleConnection tables (environments connection)).ending =
        .errorPage "400 Bad Request" "Bad Request\n" → connection ∉ balancer.turns) ∧
      (∀ connection, (environments connection).backends = [] → connection ∉ balancer.turns) ∧
      balancer.selection = UInt64.ofNat balancer.turns.length ∧
      ∀ backends : List Pointer, backends ≠ [] →
        (∀ connection ∈ balancer.turns, (environments connection).backends = backends) →
        (∀ connection ∈ balancer.turns, ∀ backend ∈ backends,
          (environments connection).available 0 backend = true) →
        balancer.turns.length ≤ 2 ^ 63 →
        (∀ turn connection, balancer.turns[turn]? = some connection →
          ∃ number visit rest, (balancer.phases connection).turn? = some number ∧
            (handleConnection tables ((environments connection).atTurn number)).visits =
              visit :: rest ∧
            visit.position = turn % backends.length ∧
            backends[turn % backends.length]? = some visit.backend ∧ visit.attempt ≠ none) ∧
        ∀ position other, position < backends.length → other < backends.length →
          balancer.startsAt backends.length position ≤
            balancer.startsAt backends.length other + 1 := by
  have inTurn : InTurn tables environments balancer :=
    runEvents_invariant inTurn_start (fun _ _ _ holds taken => holds.next taken) run
  have claimed : ∀ connection ∈ balancer.turns,
      acceptRequest tables (environments connection).incoming ≠ none ∧
        (environments connection).backends ≠ [] := by
    intro connection member
    obtain ⟨index, found⟩ := List.getElem?_of_mem member
    have number := inTurn.numbers index connection found
    have sound := inTurn.sound connection
    cases phase : balancer.phases connection with
    | claimed turn =>
        rw [phase] at sound
        exact sound
    | closed turn =>
        rw [phase] at sound
        exact sound
    | _ =>
        rw [phase] at number
        cases number
  refine ⟨?_, ?_, inTurn.counter, ?_⟩
  · intro connection rejected member
    obtain ⟨accepted, nonempty⟩ := claimed connection member
    obtain ⟨request, isRequest⟩ := Option.ne_none_iff_exists'.mp accepted
    rw [handleConnection_eq isRequest nonempty] at rejected
    exact tryBackends_not_rejected _ _ _ _ rejected
  · intro connection empty member
    exact (claimed connection member).2 empty
  · intro backends nonempty fixed available few
    refine ⟨?_, ?_⟩
    · intro turn connection found
      have member := List.mem_of_getElem? found
      have before : turn < balancer.turns.length := (List.getElem?_eq_some_iff.mp found).1
      have number : ((environments connection).atTurn (UInt64.ofNat turn)).selection.toNat = turn :=
        toNat_ofNat_of_small (by omega)
      have same := fixed connection member
      obtain ⟨visit, rest, visits, position, isBackend, attempted⟩ :=
        @handleConnection_first tables ((environments connection).atTurn (UInt64.ofNat turn))
          (claimed connection member).1 (claimed connection member).2 (by omega)
          (by rw [Environment.backends_atTurn, same]; exact available connection member)
      rw [number, Environment.backends_atTurn, same] at position
      rw [Environment.backends_atTurn, same, position] at isBackend
      exact ⟨_, visit, rest, inTurn.numbers turn connection found, visits, position, isBackend,
        attempted⟩
    · intro position other inside otherInside
      rw [inTurn.startsAt_eq few, inTurn.startsAt_eq few]
      exact countP_turnAt_le inside otherInside 0 _

/-- Two connections whose steps interleave, and what each of them meets. -/
def pairEnvironments : Nat → Environment := fun _ =>
  plainEnvironment (fun _ => .done) fun _ => ⟨none, none, ⟨[ascii "Hello"], [], .eof⟩⟩

theorem turns_round_robin_pair :
    ∃ balancer, runEvents (Balancer.next ⟨id, id⟩ pairEnvironments) .start
        [.read 0, .read 1, .snapshot 1, .snapshot 0, .claim 1, .claim 0, .close 0] = some balancer ∧
      balancer.turns = [1, 0] ∧
      balancer.startsAt 2 0 ≤ balancer.startsAt 2 1 + 1 := by
  have accepted : ∀ connection, acceptRequest ⟨id, id⟩ (pairEnvironments connection).incoming =
      some plainRequest := fun _ => acceptRequest_plain _
  have backends : ∀ connection, (pairEnvironments connection).backends = [0, 1] := fun _ => rfl
  obtain ⟨balancer, run, turns⟩ : ∃ balancer,
      runEvents (Balancer.next ⟨id, id⟩ pairEnvironments) .start
        [.read 0, .read 1, .snapshot 1, .snapshot 0, .claim 1, .claim 0, .close 0] = some balancer ∧
      balancer.turns = [1, 0] := by
    simp [runEvents_cons, Balancer.next, Balancer.start, Balancer.setPhase, accepted, backends]
  have available : ∀ connection ∈ balancer.turns, ∀ backend ∈ [0, 1],
      (pairEnvironments connection).available 0 backend = true := by
    intro connection _ backend member
    rcases List.mem_pair.mp member with rfl | rfl
    · rfl
    · rfl
  have fair := (turns_round_robin run).2.2.2 [0, 1] (by decide) (fun _ _ => rfl) available
    (by rw [turns]; decide)
  exact ⟨balancer, run, turns, fair.2 0 1 (by decide) (by decide)⟩

/-! ## Round robin with unavailable backends -/

/-- The position in the snapshot of the backend that served the request. -/
def servedPosition (run : Run) : Option Nat :=
  if run.ending = .served then run.visits.getLast?.map Visit.position else none

/-- How many of successive requests are served at a position, from a value of the counter on. -/
def servedCount (tables : UnicodeTables) (requests : Nat → Environment)
    (first count position : Nat) : Nat :=
  (List.range count).countP fun index =>
    servedPosition (handleConnection tables
      ((requests index).atTurn (UInt64.ofNat (first + index)))) = some position

/-- A valid request that meets the given backends, of which some are available and stay so,
and that every backend answers. -/
structure Succeeds (tables : UnicodeTables) (backends : List Pointer)
    (isAvailable : Pointer → Bool) (environment : Environment) : Prop where
  answered : ∃ request, acceptRequest tables environment.incoming = some request ∧
    ∀ offset, (attempt environment.writes .start (environment.exchangeAt offset) request).error = none
  snapshot : environment.backends = backends
  available : ∀ offset, ∀ backend ∈ backends,
    environment.available offset backend = isAvailable backend

theorem Succeeds.atTurn {tables : UnicodeTables} {backends : List Pointer}
    {isAvailable : Pointer → Bool} {environment : Environment}
    (succeeds : Succeeds tables backends isAvailable environment) (turn : UInt64) :
    Succeeds tables backends isAvailable (environment.atTurn turn) :=
  ⟨succeeds.answered, succeeds.snapshot, succeeds.available⟩

/-- The backend at the position is available. -/
def OpenAt (backends : List Pointer) (isAvailable : Pointer → Bool) (position : Nat) : Prop :=
  ∃ backend, backends[position]? = some backend ∧ isAvailable backend = true

theorem OpenAt.lt {backends : List Pointer} {isAvailable : Pointer → Bool} {position : Nat}
    (isOpen : OpenAt backends isAvailable position) : position < backends.length := by
  obtain ⟨backend, isBackend, -⟩ := isOpen
  exact (List.getElem?_eq_some_iff.mp isBackend).1

theorem openAt_all_iff {backends : List Pointer} {isAvailable : Pointer → Bool} :
    (∀ position < backends.length, OpenAt backends isAvailable position) ↔
      ∀ backend ∈ backends, isAvailable backend = true := by
  constructor
  · intro opens backend member
    obtain ⟨place, isBackend⟩ := List.getElem?_of_mem member
    obtain ⟨other, isOther, available⟩ :=
      opens place (List.getElem?_eq_some_iff.mp isBackend).1
    rwa [Option.some.inj (isBackend.symm.trans isOther)]
  · intro available position inside
    exact ⟨_, List.getElem?_eq_getElem inside, available _ (List.getElem_mem inside)⟩

/-- An offset is available as its position is. -/
theorem available_iff_openAt {tables : UnicodeTables} {backends : List Pointer}
    {isAvailable : Pointer → Bool} {environment : Environment}
    (succeeds : Succeeds tables backends isAvailable environment)
    (nonneg : 0 ≤ initialIndex environment.selection backends.length) {offset : Nat}
    (inside : offset < backends.length) :
    environment.Available offset ↔
      OpenAt backends isAvailable
        (turnAt backends.length (initialIndex environment.selection backends.length).toNat
          offset) := by
  obtain ⟨backend, found⟩ := selected_of_nonneg nonneg inside
  have isBackend := selected_eq_some found
  have checked := succeeds.available offset backend (List.mem_of_getElem? isBackend)
  rw [← succeeds.snapshot] at found
  constructor
  · rintro ⟨position, other, otherFound, available⟩
    obtain ⟨rfl, rfl⟩ := Prod.mk.inj (Option.some.inj (found.symm.trans otherFound))
    exact ⟨backend, isBackend, checked ▸ available⟩
  · rintro ⟨other, isOther, available⟩
    obtain rfl := Option.some.inj (isBackend.symm.trans isOther)
    exact ⟨_, backend, found, checked ▸ available⟩

/-- **A request is served** at the first available position from its turn on. -/
theorem firstOpen_of_succeeds {tables : UnicodeTables} {backends : List Pointer}
    {isAvailable : Pointer → Bool} {environment : Environment}
    (succeeds : Succeeds tables backends isAvailable environment)
    (nonneg : 0 ≤ initialIndex environment.selection backends.length)
    (anyOpen : ∃ position, OpenAt backends isAvailable position) :
    ∃ position, (handleConnection tables environment).ending = .served ∧
      servedPosition (handleConnection tables environment) = some position ∧
      FirstOpen backends.length (OpenAt backends isAvailable)
        (initialIndex environment.selection backends.length).toNat position := by
  obtain ⟨request, accepted, answered⟩ := succeeds.answered
  have sound : ∀ offset, ¬ (environment.exchangeAt offset).Fails := fun offset fails =>
    (attempt_of_fails environment.writes .start request fails).2.2.1 (answered offset)
  obtain ⟨place, isOpen⟩ := anyOpen
  obtain ⟨around, aroundInside, reached⟩ := exists_turnAt_eq isOpen.lt
    (initialIndex environment.selection backends.length).toNat
  have available : environment.Available around :=
    (available_iff_openAt succeeds nonneg aroundInside).mpr (reached ▸ isOpen)
  have nonempty : environment.backends ≠ [] := by
    rw [succeeds.snapshot]
    exact List.ne_nil_of_length_pos (Nat.zero_lt_of_lt aroundInside)
  have split := tryBackends_split request .start (succeeds.snapshot.symm ▸ nonneg)
  rw [succeeds.snapshot] at split
  obtain ⟨passed, -, ⟨passes, -⟩ | ⟨offset, position, chosen, rest, first, found, isAvailable', ran⟩⟩ :=
    split
  · exact absurd (passes around aroundInside available) (sound around)
  · have inside : offset < backends.length := succeeds.snapshot ▸ first.inside
    obtain ⟨other, otherFound⟩ := selected_of_nonneg nonneg inside
    obtain ⟨here, -⟩ := Prod.mk.inj (Option.some.inj (otherFound.symm.trans found))
    have served : handleConnection tables environment =
        (tryBackends environment request .start (offset :: rest)).after passed := by
      rw [handleConnection_eq accepted nonempty, succeeds.snapshot, ran]
    rw [tryBackends_of_served (succeeds.snapshot.symm ▸ found) isAvailable' rfl (answered offset)]
      at served
    refine ⟨position, by rw [served]; rfl, by simp [served, servedPosition, Run.after], offset,
      inside, here, ?_, ?_⟩
    · rw [← here]
      exact (available_iff_openAt succeeds nonneg inside).mp first.available
    · intro earlier before isOpen
      exact sound earlier (first.passes earlier before
        ((available_iff_openAt succeeds nonneg (before.trans inside)).mpr isOpen))

/-- A request that is served got an index in range. -/
theorem nonneg_of_served {tables : UnicodeTables} {environment : Environment}
    (served : (handleConnection tables environment).ending = .served) :
    0 ≤ initialIndex environment.selection environment.backends.length := by
  by_contra negative
  unfold handleConnection at served
  split at served
  · cases served
  · split at served
    · cases served
    · rename_i nonempty
      rw [tryBackends_of_neg _ _ nonempty (not_le.mp negative)] at served
      cases served

/-! ## A counter beyond the range of `int` -/

/-- With two backends or more, no two successive numbers beyond `int` are in range. -/
theorem small_of_successive {size turn : Nat} (two : 2 ≤ size)
    (nonneg : 0 ≤ initialIndex (UInt64.ofNat turn) size)
    (nextNonneg : 0 ≤ initialIndex (UInt64.ofNat (turn + 1)) size) : turn % 2 ^ 64 < 2 ^ 63 := by
  by_contra large
  have number : (UInt64.ofNat turn).toNat = turn % 2 ^ 64 := UInt64.toNat_ofNat'
  have next : (UInt64.ofNat (turn + 1)).toNat = (turn + 1) % 2 ^ 64 := UInt64.toNat_ofNat'
  rw [initialIndex_of_large (by omega), number] at nonneg
  have divides : size ∣ 2 ^ 64 - turn % 2 ^ 64 := Nat.dvd_of_mod_eq_zero (by omega)
  have one : size ∣ 1 := by
    by_cases wraps : turn % 2 ^ 64 = 2 ^ 64 - 1
    · rwa [wraps] at divides
    · have same : (turn + 1) % 2 ^ 64 = turn % 2 ^ 64 + 1 := by omega
      rw [initialIndex_of_large (by omega), next, same] at nextNonneg
      have nextDivides : size ∣ 2 ^ 64 - (turn % 2 ^ 64 + 1) := Nat.dvd_of_mod_eq_zero (by omega)
      have difference := Nat.dvd_sub divides nextDivides
      rwa [show 2 ^ 64 - turn % 2 ^ 64 - (2 ^ 64 - (turn % 2 ^ 64 + 1)) = 1 by omega] at difference
  have := Nat.le_of_dvd Nat.one_pos one
  omega

/-- **A window in range.** Successive numbers, two or more of them, whose indexes are all in
range are the indexes of successive natural numbers. -/
theorem initialIndex_of_window {size first count : Nat} (two : 2 ≤ size) (several : 2 ≤ count)
    (nonneg : ∀ index < count, 0 ≤ initialIndex (UInt64.ofNat (first + index)) size)
    {index : Nat} (inside : index < count) :
    initialIndex (UInt64.ofNat (first + index)) size =
      (((first % 2 ^ 64 + index) % size : Nat) : Int) := by
  have early : ∀ index, index + 1 < count → (first + index) % 2 ^ 64 < 2 ^ 63 :=
    fun index before => small_of_successive two (nonneg index (by omega))
      (nonneg (index + 1) before)
  have number : ∀ index < count,
      (first + index) % 2 ^ 64 = first % 2 ^ 64 + index ∧ first % 2 ^ 64 + index ≤ 2 ^ 63 := by
    intro index inside
    induction index with
    | zero =>
        have := early 0 (by omega)
        omega
    | succ index ih =>
        have := ih (by omega)
        have := early index inside
        omega
  obtain ⟨same, small⟩ := number index inside
  have converted : (UInt64.ofNat (first + index)).toNat = first % 2 ^ 64 + index := by
    rw [← same]
    exact UInt64.toNat_ofNat'
  by_cases last : first % 2 ^ 64 + index = 2 ^ 63
  · have inRange := nonneg index inside
    rw [initialIndex_of_large (by omega), converted, last] at inRange ⊢
    rw [show 2 ^ 64 - 2 ^ 63 = 2 ^ 63 by decide] at inRange ⊢
    omega
  · rw [initialIndex_of_small (by omega), converted]

/-! ## When round robin is even -/

/-- In all windows of successive requests that succeed, the numbers of requests that two
available backends serve differ by at most 1. -/
def ServedEvenly (tables : UnicodeTables) (backends : List Pointer) (isAvailable : Pointer → Bool)
    (requests : Nat → Environment) : Prop :=
  ∀ first count,
    (∀ index < count, (handleConnection tables
      ((requests index).atTurn (UInt64.ofNat (first + index)))).ending = .served) →
    ∀ position other, OpenAt backends isAvailable position → OpenAt backends isAvailable other →
      servedCount tables requests first count position ≤
        servedCount tables requests first count other + 1

section Even

variable {tables : UnicodeTables} {backends : List Pointer} {isAvailable : Pointer → Bool}
  {requests : Nat → Environment}
  (succeed : ∀ index, Succeeds tables backends isAvailable (requests index))

include succeed

/-- Requests that are served in turn from a number on are counted as the library counts. -/
theorem servedCount_eq_servedAt {serve : Nat → Nat}
    (serves : ∀ turn, FirstOpen backends.length (OpenAt backends isAvailable) turn (serve turn))
    {first count start : Nat}
    (indexes : ∀ index < count, initialIndex (UInt64.ofNat (first + index)) backends.length =
      (((start + index) % backends.length : Nat) : Int)) (position : Nat) :
    servedCount tables requests first count position = servedAt serve start count position := by
  apply List.countP_congr
  intro index member
  have index_eq := indexes index (List.mem_range.mp member)
  obtain ⟨_, _, _, isOpen, _⟩ := serves 0
  obtain ⟨place, -, served, firstOpen⟩ := firstOpen_of_succeeds
    ((succeed index).atTurn (UInt64.ofNat (first + index)))
    (by rw [Environment.atTurn, index_eq]; exact Int.natCast_nonneg _) ⟨_, isOpen⟩
  rw [Environment.atTurn, index_eq, Int.toNat_natCast, firstOpen_mod] at firstOpen
  rw [served, firstOpen.unique (serves (start + index))]
  simp

/-- **When round robin is even.** Let successive requests meet the same backends, of which some
are available and stay so, and let every backend that is asked answer. Then the available
backends are served evenly iff there is no more than one of them or no other backend. -/
theorem served_evenly_iff (bounded : backends.length ≤ maxBackends)
    (anyOpen : ∃ position, OpenAt backends isAvailable position) :
    ServedEvenly tables backends isAvailable requests ↔
      (∀ position other, OpenAt backends isAvailable position →
        OpenAt backends isAvailable other → position = other) ∨
      ∀ backend ∈ backends, isAvailable backend = true := by
  obtain ⟨place, isOpen⟩ := anyOpen
  choose serve serves using exists_firstOpen isOpen.lt isOpen
  have fair : ∀ limit, backends.length < limit → _ := fun limit room =>
    @fair_iff backends.length (OpenAt backends isAvailable) serve limit room
      fun turn _ => serves turn
  rw [← openAt_all_iff]
  constructor
  · intro even
    refine ((fair (2 ^ 63) (bounded.trans_lt (by decide))).mp ?_).imp
      (fun alone position other isOpen otherOpen =>
        alone position other isOpen.lt isOpen otherOpen.lt otherOpen) id
    intro first count within position other _ isOpen _ otherOpen
    have indexes : ∀ index < count,
        initialIndex (UInt64.ofNat (first + index)) backends.length =
          (((first + index) % backends.length : Nat) : Int) := by
      intro index inside
      have number := @toNat_ofNat_of_small (first + index) (by omega)
      rw [initialIndex_of_small (by omega), number]
    rw [← servedCount_eq_servedAt succeed serves indexes,
      ← servedCount_eq_servedAt succeed serves indexes]
    refine even first count ?_ position other isOpen otherOpen
    intro index inside
    obtain ⟨_, served, _⟩ := firstOpen_of_succeeds
      ((succeed index).atTurn (UInt64.ofNat (first + index)))
      (by rw [Environment.atTurn, indexes index inside]; exact Int.natCast_nonneg _) ⟨_, isOpen⟩
    exact served
  · rintro (alone | all) first count served position other isOpen otherOpen
    · rw [alone position other isOpen otherOpen]
      exact Nat.le_succ _
    · by_cases several : 2 ≤ backends.length ∧ 2 ≤ count
      · have nonneg : ∀ index < count,
            0 ≤ initialIndex (UInt64.ofNat (first + index)) backends.length := by
          intro index inside
          have inRange := nonneg_of_served (served index inside)
          rwa [Environment.backends_atTurn, (succeed index).snapshot] at inRange
        have indexes := fun index inside =>
          @initialIndex_of_window _ first count several.1 several.2 nonneg index inside
        rw [servedCount_eq_servedAt succeed serves indexes,
          servedCount_eq_servedAt succeed serves indexes]
        refine (fair (backends.length + first % 2 ^ 64 + count + 1) (by omega)).mpr (.inr all) _ _
          (by omega) position other isOpen.lt isOpen otherOpen.lt otherOpen
      · have few : servedCount tables requests first count position ≤ count := by
          have := @List.countP_le_length _ (fun index =>
            servedPosition (handleConnection tables
              ((requests index).atTurn (UInt64.ofNat (first + index)))) = some position)
            (List.range count)
          rwa [List.length_range] at this
        by_cases single : count ≤ 1
        · omega
        · have first := isOpen.lt
          have second := otherOpen.lt
          obtain rfl : position = other := by omega
          exact Nat.le_succ _

end Even

/-- Three backends that have registered with a pool that was empty. -/
def registeredPool : BackendPool :=
  ["127.0.0.1:8088", "127.0.0.1:8089", "127.0.0.1:8090"].foldl
    (fun pool address => (pool.register 0 address).1) (newBackendPool [])

/-- The third of them then failed. -/
def coolingPool : BackendPool :=
  registeredPool.markFailure 0 2

/-- A request half a second later, when all leases run, that every backend answers. -/
def coolingEnvironment : Environment where
  incoming := ⟨[plainRequest], [], .eof⟩
  writes := fun _ => .done
  pool := coolingPool
  now := 500000000
  selection := 0
  poolAt := fun _ => coolingPool
  timeAt := fun _ => 500000000
  exchangeAt := fun _ => ⟨none, none, ⟨[ascii "Hello"], [], .eof⟩⟩

theorem succeeds_cooling (tables : UnicodeTables) :
    Succeeds tables [0, 1, 2] (fun backend => backend != 2) coolingEnvironment where
  answered := by
    have answered : (attempt (fun _ => .done) .start ⟨none, none, ⟨[ascii "Hello"], [], .eof⟩⟩
        plainRequest).error = none := by decide +kernel
    exact ⟨plainRequest, acceptRequest_plain tables, fun _ => answered⟩
  snapshot := by decide +kernel
  available := by
    intro offset backend member
    have checked : ∀ backend ∈ [0, 1, 2],
        coolingPool.available 500000000 backend = (backend != 2) := by decide +kernel
    exact checked backend member

/-- Of the four requests after the failure, the first backend gets three. -/
theorem served_unevenly :
    (∀ index : Nat, Succeeds ⟨id, id⟩ [0, 1, 2] (fun backend => backend != 2)
      ((fun _ => coolingEnvironment) index)) ∧
      (∀ index < 4, (handleConnection ⟨id, id⟩
        (coolingEnvironment.atTurn (UInt64.ofNat (3 + index)))).ending = .served) ∧
      servedCount ⟨id, id⟩ (fun _ => coolingEnvironment) 3 4 0 = 3 ∧
      servedCount ⟨id, id⟩ (fun _ => coolingEnvironment) 3 4 1 = 1 ∧
      ¬ ServedEvenly ⟨id, id⟩ [0, 1, 2] (fun backend => backend != 2)
        (fun _ => coolingEnvironment) := by
  have runs : ∀ turn, handleConnection ⟨id, id⟩ (coolingEnvironment.atTurn turn) =
      tryBackends (coolingEnvironment.atTurn turn) plainRequest .start [0, 1, 2] := by
    intro turn
    have backends : (coolingEnvironment.atTurn turn).backends = [0, 1, 2] :=
      (succeeds_cooling ⟨id, id⟩).snapshot
    rw [handleConnection_eq (acceptRequest_plain _) (by rw [backends]; decide), backends]
    rfl
  have served : ∀ index < 4, (handleConnection ⟨id, id⟩
      (coolingEnvironment.atTurn (UInt64.ofNat (3 + index)))).ending = .served := by
    simp only [runs]
    decide +kernel
  have positions : (List.range 4).map (fun index => servedPosition (handleConnection ⟨id, id⟩
      (coolingEnvironment.atTurn (UInt64.ofNat (3 + index))))) =
      [some 0, some 1, some 0, some 0] := by
    simp only [runs]
    decide +kernel
  have counts : ∀ position, servedCount ⟨id, id⟩ (fun _ => coolingEnvironment) 3 4 position =
      [some 0, some 1, some 0, some 0].countP (· = some position) := by
    intro position
    rw [← positions, List.countP_map]
    rfl
  refine ⟨fun _ => succeeds_cooling _, served, counts 0, counts 1, ?_⟩
  intro even
  have close := even 3 4 served 0 1 ⟨0, by decide, by decide⟩ ⟨1, by decide, by decide⟩
  rw [counts, counts] at close
  exact absurd close (by decide)

theorem served_evenly_iff_cooling :
    ¬ ServedEvenly ⟨id, id⟩ [0, 1, 2] (fun backend => backend != 2)
      (fun _ => coolingEnvironment) := by
  rw [@served_evenly_iff ⟨id, id⟩ [0, 1, 2] (fun backend => backend != 2)
    (fun _ => coolingEnvironment) (fun _ => succeeds_cooling _) (by decide)
    ⟨0, 0, by decide, by decide⟩]
  rintro (alone | all)
  · exact absurd (alone 0 1 ⟨0, by decide, by decide⟩ ⟨1, by decide, by decide⟩) (by decide)
  · exact absurd (all 2 (by decide)) (by decide)

end InfraFromScratch.LoadBalancer
