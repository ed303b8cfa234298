import InfraFromScratch.Foundations.Transitions
import InfraFromScratch.LoadBalancer.Connection
import InfraFromScratch.LoadBalancer.Cooldown
import InfraFromScratch.LoadBalancer.PoolRefinement

/-!
# Connections over one pool

`serve` in `load-balancer/server.go` runs `handleConnection` for every client in a goroutine of its
own, and the registry in others. All share the pool and the counter. A method of the pool runs while
the mutex is held, and the addition to the counter is atomic; between two of these steps the others
may do anything. A panic in one goroutine ends the program.

The module of one connection takes what it meets for given. Here it is what the connection has met:
in every run, a connection that is over is a run of `handleConnection` in the environment that it
has observed, and the pool is what all calls made of it, in their order (`connections_refine`). So
what is proved of one connection holds of each, and what is proved of calls in any order holds of
the pool.
-/

set_option autoImplicit false

namespace InfraFromScratch.LoadBalancer

open Foundations Gateway

/-! ## Goroutines -/

/-- The local variables of `handleConnection` in its loop, with the visits so far. -/
structure Trial where
  request : Bytes
  backends : List Pointer
  turn : UInt64
  offset : Nat
  client : Outgoing
  visits : List Visit

/-- The loop goes on to the next backend. -/
def Trial.pass (trial : Trial) (visit : Visit) (client : Outgoing) : Trial :=
  { trial with offset := trial.offset + 1, client := client, visits := trial.visits ++ [visit] }

/-- Where a connection is. -/
inductive Goroutine where
  | idle
  | accepted (request : Bytes)
  /-- The snapshot has backends. -/
  | ready (request : Bytes) (backends : List Pointer)
  /-- Before the check of the next backend. -/
  | trying (trial : Trial)
  /-- The backend is available and is dialled. -/
  | attempting (trial : Trial) (position : Nat) (backend : Pointer)
  /-- `relay` returned `nil`: before `markSuccess`. -/
  | succeeding (result : Run) (backend : Pointer)
  /-- Before `markFailure`. -/
  | failing (trial : Trial) (backend : Pointer)
  | closed (result : Run)

/-- The backends that the connection may still use. -/
def Goroutine.holds : Goroutine → List Pointer
  | .ready _ backends => backends
  | .trying trial => trial.backends
  | .attempting trial _ backend | .failing trial backend => backend :: trial.backends
  | .succeeding _ backend => [backend]
  | .idle | .accepted _ | .closed _ => []

/-- The pool, the counter and the connections. The last two are records that the program does not
keep: the calls of the methods of the pool, and what each connection has observed so far. -/
structure Serving where
  pool : BackendPool
  selection : UInt64
  crashed : Bool
  goroutines : Nat → Goroutine
  history : List (Int × PoolCall)
  seen : Nat → Environment

/-- `serve` before the first client. Of each environment only the two ends of the connection to the
client are used. -/
def Serving.start (environments : Nat → Environment) (addresses : List String) : Serving :=
  ⟨newBackendPool addresses, 0, false, fun _ => .idle, [], environments⟩

inductive ServeEvent where
  /-- The connection reads its request and validates it. -/
  | read (connection : Nat)
  | snapshot (connection : Nat) (now : Int)
  /-- `selection.Add(1)`. -/
  | claim (connection : Nat)
  /-- `pool.available(selected)`. -/
  | check (connection : Nat) (now : Int)
  /-- The backend is dialled, and does what the exchange says. -/
  | attempt (connection : Nat) (exchange : Exchange)
  /-- `markSuccess` or `markFailure`. -/
  | mark (connection : Nat) (now : Int)
  /-- The loop has come to its end. -/
  | giveUp (connection : Nat)
  /-- The registry calls a method of the pool. -/
  | registry (now : Int) (call : Call)

/-- The call of the registry, as a call of the pool. -/
def Call.poolCall : Call → PoolCall
  | .register address => .register address
  | .remove address => .remove address
  | .snapshot => .snapshot

namespace Serving

/-- One connection goes on, and has observed more. -/
def advance (system : Serving) (connection : Nat) (goroutine : Goroutine) (seen : Environment) :
    Serving :=
  { system with
    goroutines := Function.update system.goroutines connection goroutine
    seen := Function.update system.seen connection seen }

/-- A method of the pool was called. -/
def calling (system : Serving) (now : Int) (call : PoolCall) (pool : BackendPool) : Serving :=
  { system with pool := pool, history := system.history ++ [(now, call)] }

/-- The check of the next backend. -/
def check (system : Serving) (connection : Nat) (now : Int) (trial : Trial) : Option Serving :=
  if trial.offset < trial.backends.length then
    match selected trial.turn trial.backends trial.offset with
    | none =>
        some (advance { system with crashed := true } connection
          (.closed ⟨trial.visits, .panicked, trial.client⟩) (system.seen connection))
    | some (position, backend) =>
        let seen : Environment := { system.seen connection with
          poolAt := Function.update (system.seen connection).poolAt trial.offset system.pool
          timeAt := Function.update (system.seen connection).timeAt trial.offset now }
        let called := system.calling now (.available backend) system.pool
        if system.pool.available now backend = false then
          some (called.advance connection
            (.trying (trial.pass ⟨trial.offset, position, backend, none, none⟩ trial.client)) seen)
        else some (called.advance connection (.attempting trial position backend) seen)
  else none

/-- What comes of the attempt at a backend. -/
def relay (system : Serving) (connection : Nat) (trial : Trial) (position : Nat)
    (backend : Pointer) (exchange : Exchange) : Serving :=
  let seen : Environment := { system.seen connection with
    exchangeAt := Function.update (system.seen connection).exchangeAt trial.offset exchange }
  let relayed := attempt seen.writes trial.client exchange trial.request
  let visit := Visit.mk trial.offset position backend (some relayed)
  if relayed.error = none then
    system.advance connection
      (.succeeding ⟨trial.visits ++ [visit (some .success)], .served, relayed.client⟩ backend) seen
  else if relayed.started = true then
    system.advance connection
      (.closed ⟨trial.visits ++ [visit none], .broken, relayed.client⟩) seen
  else
    system.advance connection
      (.failing (trial.pass (visit (some .failure)) relayed.client) backend) seen

/-- What an event does. -/
def next (tables : UnicodeTables) (system : Serving) (event : ServeEvent) : Option Serving :=
  if system.crashed then none
  else
    match event with
    | .read connection =>
        match system.goroutines connection with
        | .idle =>
            match acceptRequest tables (system.seen connection).incoming with
            | none =>
                some (system.advance connection
                  (.closed (failWith (system.seen connection) .start "400 Bad Request"
                    "Bad Request\n")) (system.seen connection))
            | some request =>
                some (system.advance connection (.accepted request) (system.seen connection))
        | _ => none
    | .snapshot connection now =>
        match system.goroutines connection with
        | .accepted request =>
            let (pool, backends) := system.pool.snapshot now
            let seen : Environment := { system.seen connection with pool := system.pool, now := now }
            let called := system.calling now .snapshot pool
            if backends = [] then
              some (called.advance connection
                (.closed (failWith seen .start "502 Bad Gateway" "Bad Gateway\n")) seen)
            else some (called.advance connection (.ready request backends) seen)
        | _ => none
    | .claim connection =>
        match system.goroutines connection with
        | .ready request backends =>
            some (advance { system with selection := system.selection + 1 } connection
              (.trying ⟨request, backends, system.selection, 0, .start, []⟩)
              { system.seen connection with selection := system.selection })
        | _ => none
    | .check connection now =>
        match system.goroutines connection with
        | .trying trial => system.check connection now trial
        | _ => none
    | .attempt connection exchange =>
        match system.goroutines connection with
        | .attempting trial position backend =>
            some (system.relay connection trial position backend exchange)
        | _ => none
    | .mark connection now =>
        match system.goroutines connection with
        | .succeeding result backend =>
            some ((system.calling now (.markSuccess backend)
              (system.pool.markSuccess backend)).advance connection (.closed result)
                (system.seen connection))
        | .failing trial backend =>
            some ((system.calling now (.markFailure backend)
              (system.pool.markFailure now backend)).advance connection (.trying trial)
                (system.seen connection))
        | _ => none
    | .giveUp connection =>
        match system.goroutines connection with
        | .trying trial =>
            if trial.offset < trial.backends.length then none
            else
              some (system.advance connection
                (.closed ((failWith (system.seen connection) trial.client "502 Bad Gateway"
                  "Bad Gateway\n").after trial.visits)) (system.seen connection))
        | _ => none
    | .registry now call =>
        some (system.calling now call.poolCall (system.pool.perform now call))

end Serving

/-! ## What a connection has observed -/

/-- The environments agree in what is observed before the check at the offset. -/
structure Environment.Agrees (seen other : Environment) (offset : Nat) : Prop where
  incoming : other.incoming = seen.incoming
  writes : other.writes = seen.writes
  pool : other.pool = seen.pool
  now : other.now = seen.now
  selection : other.selection = seen.selection
  poolAt : ∀ earlier < offset, other.poolAt earlier = seen.poolAt earlier
  timeAt : ∀ earlier < offset, other.timeAt earlier = seen.timeAt earlier
  exchangeAt : ∀ earlier < offset, other.exchangeAt earlier = seen.exchangeAt earlier

namespace Environment

variable {seen other : Environment} {offset : Nat}

theorem Agrees.refl (seen : Environment) (offset : Nat) : seen.Agrees seen offset :=
  ⟨rfl, rfl, rfl, rfl, rfl, fun _ _ => rfl, fun _ _ => rfl, fun _ _ => rfl⟩

theorem Agrees.backends (agrees : seen.Agrees other offset) : other.backends = seen.backends := by
  rw [Environment.backends, Environment.backends, agrees.pool, agrees.now]

/-- What is observed at the offset changes nothing before. -/
theorem Agrees.of_check {pool : BackendPool} {time : Int}
    (agrees : Agrees { seen with
      poolAt := Function.update seen.poolAt offset pool
      timeAt := Function.update seen.timeAt offset time } other offset) :
    seen.Agrees other offset where
  incoming := agrees.incoming
  writes := agrees.writes
  pool := agrees.pool
  now := agrees.now
  selection := agrees.selection
  poolAt := fun earlier before =>
    (agrees.poolAt earlier before).trans (Function.update_of_ne before.ne _ _)
  timeAt := fun earlier before =>
    (agrees.timeAt earlier before).trans (Function.update_of_ne before.ne _ _)
  exchangeAt := agrees.exchangeAt

theorem Agrees.of_attempt {exchange : Exchange}
    (agrees : Agrees { seen with
      exchangeAt := Function.update seen.exchangeAt offset exchange } other offset) :
    seen.Agrees other offset where
  incoming := agrees.incoming
  writes := agrees.writes
  pool := agrees.pool
  now := agrees.now
  selection := agrees.selection
  poolAt := agrees.poolAt
  timeAt := agrees.timeAt
  exchangeAt := fun earlier before =>
    (agrees.exchangeAt earlier before).trans (Function.update_of_ne before.ne _ _)

theorem Agrees.of_succ (agrees : seen.Agrees other (offset + 1)) : seen.Agrees other offset where
  incoming := agrees.incoming
  writes := agrees.writes
  pool := agrees.pool
  now := agrees.now
  selection := agrees.selection
  poolAt := fun earlier before => agrees.poolAt earlier (Nat.lt_succ_of_lt before)
  timeAt := fun earlier before => agrees.timeAt earlier (Nat.lt_succ_of_lt before)
  exchangeAt := fun earlier before => agrees.exchangeAt earlier (Nat.lt_succ_of_lt before)

end Environment

/-- In every environment that agrees with what was observed, `handleConnection` comes to the trial
and goes on from there. -/
structure Trial.Continues (tables : UnicodeTables) (seen : Environment) (trial : Trial) : Prop where
  backends : trial.backends = seen.backends
  turn : trial.turn = seen.selection
  goesOn : ∀ other, seen.Agrees other trial.offset →
    handleConnection tables other =
      (tryBackends other trial.request trial.client
        ((List.range trial.backends.length).drop trial.offset)).after trial.visits

/-- What a connection has done is what `handleConnection` does where that was observed. -/
def Goroutine.Follows (tables : UnicodeTables) (seen : Environment) : Goroutine → Prop
  | .idle => True
  | .accepted request => acceptRequest tables seen.incoming = some request
  | .ready request backends =>
      acceptRequest tables seen.incoming = some request ∧ backends = seen.backends ∧ backends ≠ []
  | .trying trial | .failing trial _ => trial.Continues tables seen
  | .attempting trial position backend =>
      trial.Continues tables seen ∧ trial.offset < trial.backends.length ∧
        selected trial.turn trial.backends trial.offset = some (position, backend) ∧
        seen.available trial.offset backend = true
  | .succeeding result _ | .closed result => result = handleConnection tables seen

/-! ## The loop goes on -/

namespace Trial.Continues

variable {tables : UnicodeTables} {seen : Environment} {trial : Trial}

/-- The loop is before the offset of the trial. -/
theorem drop_eq (inside : trial.offset < trial.backends.length) :
    (List.range trial.backends.length).drop trial.offset =
      trial.offset :: (List.range trial.backends.length).drop (trial.offset + 1) := by
  rw [List.drop_eq_getElem_cons (by rw [List.length_range]; exact inside), List.getElem_range]

variable (continues : trial.Continues tables seen)

include continues

/-- The backend of the trial is the one of the loop. -/
theorem selected_eq {other : Environment} (agrees : seen.Agrees other trial.offset) :
    selected other.selection other.backends trial.offset =
      selected trial.turn trial.backends trial.offset := by
  rw [agrees.selection, agrees.backends, continues.turn, continues.backends]

/-- What is observed of the next backend changes nothing of what was done. -/
theorem check (pool : BackendPool) (time : Int) :
    trial.Continues tables { seen with
      poolAt := Function.update seen.poolAt trial.offset pool
      timeAt := Function.update seen.timeAt trial.offset time } :=
  ⟨continues.backends, continues.turn, fun other agrees => continues.goesOn other agrees.of_check⟩

/-- A backend that is not available is passed. -/
theorem skip {pool : BackendPool} {time : Int} {position : Nat} {backend : Pointer}
    (inside : trial.offset < trial.backends.length)
    (found : selected trial.turn trial.backends trial.offset = some (position, backend))
    (unavailable : pool.available time backend = false) :
    (trial.pass ⟨trial.offset, position, backend, none, none⟩ trial.client).Continues tables
      { seen with
        poolAt := Function.update seen.poolAt trial.offset pool
        timeAt := Function.update seen.timeAt trial.offset time } := by
  refine ⟨continues.backends, continues.turn, fun other agrees => ?_⟩
  have earlier := agrees.of_succ.of_check
  have foundThere := (continues.selected_eq earlier).trans found
  have unavailableThere : other.available trial.offset backend = false := by
    rw [Environment.available, agrees.poolAt _ (Nat.lt_succ_self _),
      agrees.timeAt _ (Nat.lt_succ_self _)]
    simpa using unavailable
  rw [continues.goesOn other earlier, drop_eq inside,
    tryBackends_of_unavailable foundThere unavailableThere, Run.after_after]
  rfl

/-- A negative index panics. -/
theorem panic (inside : trial.offset < trial.backends.length)
    (nowhere : selected trial.turn trial.backends trial.offset = none) :
    ⟨trial.visits, .panicked, trial.client⟩ = handleConnection tables seen := by
  have there := (continues.selected_eq (.refl seen trial.offset)).trans nowhere
  rw [continues.goesOn seen (.refl _ _), drop_eq inside, tryBackends, there, Run.after,
    List.append_nil]

/-- After the last backend the page is sent. -/
theorem finish (outside : ¬ trial.offset < trial.backends.length) :
    (failWith seen trial.client "502 Bad Gateway" "Bad Gateway\n").after trial.visits =
      handleConnection tables seen := by
  rw [continues.goesOn seen (.refl _ _), List.drop_of_length_le (by
    rw [List.length_range]
    exact not_lt.mp outside)]
  rfl

section Attempt

variable {position : Nat} {backend : Pointer} {exchange : Exchange} {relayed : Relayed}
  (inside : trial.offset < trial.backends.length)
  (found : selected trial.turn trial.backends trial.offset = some (position, backend))
  (available : seen.available trial.offset backend = true)
  (attempted : attempt seen.writes trial.client exchange trial.request = relayed)

include found available attempted

/-- The environments that agree with the attempt make it. -/
theorem attempted_eq {other : Environment}
    (agrees : Environment.Agrees { seen with
      exchangeAt := Function.update seen.exchangeAt trial.offset exchange } other
        (trial.offset + 1)) :
    selected other.selection other.backends trial.offset = some (position, backend) ∧
      other.available trial.offset backend = true ∧
      attempt other.writes trial.client (other.exchangeAt trial.offset) trial.request = relayed := by
  refine ⟨(continues.selected_eq agrees.of_succ.of_attempt).trans found, ?_, ?_⟩
  · rw [Environment.available, agrees.poolAt _ (Nat.lt_succ_self _),
      agrees.timeAt _ (Nat.lt_succ_self _)]
    exact available
  · rw [agrees.writes, agrees.exchangeAt _ (Nat.lt_succ_self _)]
    simpa using attempted

include inside

/-- An attempt that failed with nothing started passes the backend. -/
theorem fail (error : relayed.error ≠ none) (started : relayed.started = false) :
    (trial.pass ⟨trial.offset, position, backend, some relayed, some .failure⟩
      relayed.client).Continues tables { seen with
        exchangeAt := Function.update seen.exchangeAt trial.offset exchange } := by
  refine ⟨continues.backends, continues.turn, fun other agrees => ?_⟩
  obtain ⟨foundThere, availableThere, attemptedThere⟩ :=
    continues.attempted_eq found available attempted agrees
  rw [continues.goesOn other agrees.of_succ.of_attempt, drop_eq inside,
    tryBackends_of_failed foundThere availableThere attemptedThere error started, Run.after_after]
  rfl

/-- An attempt without error ends the loop. -/
theorem serve (noError : relayed.error = none) :
    ⟨trial.visits ++ [⟨trial.offset, position, backend, some relayed, some .success⟩], .served,
      relayed.client⟩ =
      handleConnection tables { seen with
        exchangeAt := Function.update seen.exchangeAt trial.offset exchange } := by
  obtain ⟨foundThere, availableThere, attemptedThere⟩ :=
    continues.attempted_eq found available attempted (.refl _ _)
  rw [continues.goesOn _ (Environment.Agrees.of_attempt (.refl _ _)), drop_eq inside,
    tryBackends_of_served foundThere availableThere attemptedThere noError]
  rfl

/-- So does one that has started the response. -/
theorem breakOff (error : relayed.error ≠ none) (started : relayed.started = true) :
    ⟨trial.visits ++ [⟨trial.offset, position, backend, some relayed, none⟩], .broken,
      relayed.client⟩ =
      handleConnection tables { seen with
        exchangeAt := Function.update seen.exchangeAt trial.offset exchange } := by
  obtain ⟨foundThere, availableThere, attemptedThere⟩ :=
    continues.attempted_eq found available attempted (.refl _ _)
  rw [continues.goesOn _ (Environment.Agrees.of_attempt (.refl _ _)), drop_eq inside,
    tryBackends_of_broken foundThere availableThere attemptedThere error started]
  rfl

end Attempt

end Trial.Continues

/-- With backends and a number, a connection comes to its loop. -/
theorem continues_of_ready {tables : UnicodeTables} {seen : Environment} {request : Bytes}
    {backends : List Pointer} (accepted : acceptRequest tables seen.incoming = some request)
    (same : backends = seen.backends) (nonempty : backends ≠ []) (selection : UInt64) :
    Trial.Continues tables { seen with selection := selection }
      ⟨request, backends, selection, 0, .start, []⟩ where
  backends := same
  turn := rfl
  goesOn := by
    intro other agrees
    have acceptedThere : acceptRequest tables other.incoming = some request := by
      rw [agrees.incoming]
      exact accepted
    have sameThere : other.backends = backends := agrees.backends.trans same.symm
    have nonemptyThere : other.backends ≠ [] := by
      rw [sameThere]
      exact nonempty
    rw [handleConnection_eq acceptedThere nonemptyThere, sameThere, List.drop_zero]
    rfl

/-! ## The invariant -/

/-- The calls that were made of the pool have led to it, and have handed out the backends that the
connections hold. -/
def Serving.Shares (addresses : List String) (system : Serving) (handed : List Pointer) : Prop :=
  runEvents SharedPool.next (.start addresses) system.history = some ⟨system.pool, handed⟩ ∧
    ∀ connection, ∀ backend ∈ (system.goroutines connection).holds, backend ∈ handed

/-- What holds in every state. -/
structure Serving.Traced (tables : UnicodeTables) (environments : Nat → Environment)
    (addresses : List String) (system : Serving) : Prop where
  follows : ∀ connection, (system.goroutines connection).Follows tables (system.seen connection)
  incoming : ∀ connection, (system.seen connection).incoming = (environments connection).incoming
  writes : ∀ connection, (system.seen connection).writes = (environments connection).writes
  shares : ∃ handed, system.Shares addresses handed

section Steps

variable {tables : UnicodeTables} {environments : Nat → Environment} {addresses : List String}
  {system after : Serving}

theorem traced_start : (Serving.start environments addresses).Traced tables environments addresses
    where
  follows := fun _ => trivial
  incoming := fun _ => rfl
  writes := fun _ => rfl
  shares := ⟨[], rfl, fun _ _ member => absurd member List.not_mem_nil⟩

/-- **One connection goes on.** What it does follows what it has observed, and the calls that it
has made hand out what it holds. -/
theorem Serving.Traced.advance (traced : system.Traced tables environments addresses)
    {connection : Nat} {goroutine : Goroutine} {seen : Environment} {called : Serving}
    (follows : goroutine.Follows tables seen)
    (incoming : seen.incoming = (system.seen connection).incoming)
    (writes : seen.writes = (system.seen connection).writes)
    (goroutines : called.goroutines = system.goroutines) (observed : called.seen = system.seen)
    (shares : ∀ handed, system.Shares addresses handed →
      ∃ more, runEvents SharedPool.next (.start addresses) called.history =
          some ⟨called.pool, handed ++ more⟩ ∧
        ∀ backend ∈ goroutine.holds, backend ∈ handed ++ more) :
    (called.advance connection goroutine seen).Traced tables environments addresses where
  follows := by
    intro other
    by_cases here : other = connection
    · subst here
      simpa [Serving.advance] using follows
    · simpa [Serving.advance, Function.update_of_ne here, goroutines, observed] using
        traced.follows other
  incoming := by
    intro other
    by_cases here : other = connection
    · subst here
      simpa [Serving.advance] using incoming.trans (traced.incoming other)
    · simpa [Serving.advance, Function.update_of_ne here, observed] using traced.incoming other
  writes := by
    intro other
    by_cases here : other = connection
    · subst here
      simpa [Serving.advance] using writes.trans (traced.writes other)
    · simpa [Serving.advance, Function.update_of_ne here, observed] using traced.writes other
  shares := by
    obtain ⟨handed, sharing⟩ := traced.shares
    obtain ⟨more, run, holds⟩ := shares handed sharing
    refine ⟨handed ++ more, run, ?_⟩
    intro other backend member
    by_cases here : other = connection
    · subst here
      simp only [Serving.advance, Function.update_self] at member
      exact holds backend member
    · simp only [Serving.advance, Function.update_of_ne here, goroutines] at member
      exact List.mem_append_left _ (sharing.2 other backend member)

/-- A step without a call, after which the connection holds no other backends. -/
theorem Serving.Shares.same {connection : Nat} {goroutine : Goroutine} {handed : List Pointer}
    (sharing : system.Shares addresses handed)
    (holds : ∀ backend ∈ goroutine.holds, backend ∈ (system.goroutines connection).holds) :
    ∃ more, runEvents SharedPool.next (.start addresses) system.history =
        some ⟨system.pool, handed ++ more⟩ ∧
      ∀ backend ∈ goroutine.holds, backend ∈ handed ++ more := by
  refine ⟨[], ?_, fun backend member => ?_⟩
  · rw [List.append_nil]
    exact sharing.1
  · rw [List.append_nil]
    exact sharing.2 connection backend (holds backend member)

/-- A step without a call, after which the connection holds no backends. -/
theorem Serving.Shares.nothing {goroutine : Goroutine} {handed : List Pointer}
    (sharing : system.Shares addresses handed) (nothing : goroutine.holds = []) :
    ∃ more, runEvents SharedPool.next (.start addresses) system.history =
        some ⟨system.pool, handed ++ more⟩ ∧
      ∀ backend ∈ goroutine.holds, backend ∈ handed ++ more := by
  refine ⟨[], ?_, fun backend member => ?_⟩
  · rw [List.append_nil]
    exact sharing.1
  · rw [nothing] at member
    exact absurd member List.not_mem_nil

/-- A step with a call. -/
theorem Serving.Shares.call {now : Int} {call : PoolCall} {pool : BackendPool}
    {handed more : List Pointer} (sharing : system.Shares addresses handed)
    (taken : SharedPool.next ⟨system.pool, handed⟩ (now, call) = some ⟨pool, handed ++ more⟩) :
    runEvents SharedPool.next (.start addresses) (system.calling now call pool).history =
      some ⟨(system.calling now call pool).pool, handed ++ more⟩ :=
  runEvents_concat_eq_some_iff.mpr ⟨_, sharing.1, taken⟩

/-- A call about a backend that was handed out. -/
theorem Serving.Shares.use {connection : Nat} {goroutine : Goroutine} {now : Int}
    {call : PoolCall} {pool : BackendPool} {backend : Pointer} {handed : List Pointer}
    (sharing : system.Shares addresses handed)
    (held : backend ∈ (system.goroutines connection).holds)
    (taken : backend ∈ handed →
      SharedPool.next ⟨system.pool, handed⟩ (now, call) = some ⟨pool, handed⟩)
    (holds : ∀ other ∈ goroutine.holds, other ∈ (system.goroutines connection).holds) :
    ∃ more, runEvents SharedPool.next (.start addresses) (system.calling now call pool).history =
        some ⟨(system.calling now call pool).pool, handed ++ more⟩ ∧
      ∀ other ∈ goroutine.holds, other ∈ handed ++ more := by
  have grown : SharedPool.next ⟨system.pool, handed⟩ (now, call) = some ⟨pool, handed ++ []⟩ := by
    rw [List.append_nil]
    exact taken (sharing.2 connection backend held)
  refine ⟨[], sharing.call grown, fun other member => ?_⟩
  rw [List.append_nil]
  exact sharing.2 connection other (holds other member)

/-- The registry calls a method of the pool. -/
theorem Serving.Traced.registry (traced : system.Traced tables environments addresses) (now : Int)
    (call : Call) :
    (system.calling now call.poolCall (system.pool.perform now call)).Traced tables environments
      addresses := by
  refine ⟨traced.follows, traced.incoming, traced.writes, ?_⟩
  obtain ⟨handed, sharing⟩ := traced.shares
  obtain ⟨more, taken⟩ : ∃ more, SharedPool.next ⟨system.pool, handed⟩ (now, call.poolCall) =
      some ⟨system.pool.perform now call, handed ++ more⟩ := by
    cases call with
    | register address => exact ⟨[], by simp [Call.poolCall, SharedPool.next, BackendPool.perform]⟩
    | remove address => exact ⟨[], by simp [Call.poolCall, SharedPool.next, BackendPool.perform]⟩
    | snapshot => exact ⟨_, rfl⟩
  exact ⟨handed ++ more, sharing.call taken, fun connection backend member =>
    List.mem_append_left _ (sharing.2 connection backend member)⟩

/-- **The check of the next backend.** -/
theorem Serving.Traced.check (traced : system.Traced tables environments addresses)
    {connection : Nat} {now : Int} {trial : Trial}
    (trying : system.goroutines connection = .trying trial)
    (taken : system.check connection now trial = some after) :
    after.Traced tables environments addresses := by
  have continues := traced.follows connection
  rw [trying] at continues
  have holds : (system.goroutines connection).holds = trial.backends := by rw [trying]; rfl
  unfold Serving.check at taken
  split at taken
  · rename_i inside
    split at taken
    · rename_i nowhere
      obtain rfl := Option.some.inj taken
      exact traced.advance (continues.panic inside nowhere) rfl rfl rfl rfl
        fun handed sharing => sharing.nothing rfl
    · rename_i position backend found
      have listed : backend ∈ (system.goroutines connection).holds := by
        rw [holds]
        exact List.mem_of_getElem? (selected_eq_some found)
      have call : ∀ handed, backend ∈ handed →
          SharedPool.next ⟨system.pool, handed⟩ (now, .available backend) =
            some ⟨system.pool, handed⟩ := fun handed member => if_pos member
      dsimp only at taken
      split at taken
      · rename_i unavailable
        obtain rfl := Option.some.inj taken
        refine traced.advance (continues.skip inside found unavailable) rfl rfl rfl rfl ?_
        intro handed sharing
        refine sharing.use listed (call handed) fun other member => ?_
        rw [holds]
        exact member
      · rename_i available
        obtain rfl := Option.some.inj taken
        have availableSeen : (Environment.available { system.seen connection with
            poolAt := Function.update (system.seen connection).poolAt trial.offset system.pool
            timeAt := Function.update (system.seen connection).timeAt trial.offset now }
            trial.offset backend) = true := by
          simpa [Environment.available] using available
        refine traced.advance ⟨continues.check system.pool now, inside, found, availableSeen⟩
          rfl rfl rfl rfl ?_
        intro handed sharing
        refine sharing.use listed (call handed) fun other member => ?_
        rcases List.mem_cons.mp member with rfl | later
        · exact listed
        · rw [holds]
          exact later
  · cases taken

/-- **The attempt at a backend.** -/
theorem Serving.Traced.relay (traced : system.Traced tables environments addresses)
    {connection position : Nat} {trial : Trial} {backend : Pointer}
    (attempting : system.goroutines connection = .attempting trial position backend)
    (exchange : Exchange) :
    (system.relay connection trial position backend exchange).Traced tables environments
      addresses := by
  have follows := traced.follows connection
  rw [attempting] at follows
  obtain ⟨continues, inside, found, available⟩ := follows
  have holds : (system.goroutines connection).holds = backend :: trial.backends := by
    rw [attempting]
    rfl
  have attempted : attempt (system.seen connection).writes trial.client exchange trial.request =
      _ := rfl
  unfold Serving.relay
  dsimp only
  split
  · rename_i noError
    refine traced.advance (continues.serve inside found available attempted noError) rfl rfl rfl rfl
      fun handed sharing => @Serving.Shares.same _ _ connection _ _ sharing fun other member => ?_
    rw [holds, List.mem_singleton.mp member]
    exact List.mem_cons_self
  · rename_i error
    split
    · rename_i started
      exact traced.advance (continues.breakOff inside found available attempted error started)
        rfl rfl rfl rfl
        fun handed sharing => sharing.nothing rfl
    · rename_i started
      refine traced.advance
        (continues.fail inside found available attempted error (Bool.eq_false_iff.mpr started))
        rfl rfl rfl rfl
        fun handed sharing => @Serving.Shares.same _ _ connection _ _ sharing fun other member => ?_
      rw [holds]
      exact member

/-- **One step of the system.** -/
theorem Serving.Traced.next (traced : system.Traced tables environments addresses)
    {event : ServeEvent} (taken : system.next tables event = some after) :
    after.Traced tables environments addresses := by
  unfold Serving.next at taken
  split at taken
  · cases taken
  · cases event with
    | read connection =>
        dsimp only at taken
        split at taken
        · split at taken
          · rename_i refused
            obtain rfl := Option.some.inj taken
            refine traced.advance ?_ rfl rfl rfl rfl
              fun handed sharing => sharing.nothing rfl
            simp only [Goroutine.Follows, handleConnection, refused]
          · rename_i request accepted
            obtain rfl := Option.some.inj taken
            exact traced.advance accepted rfl rfl rfl rfl
              fun handed sharing => sharing.nothing rfl
        · cases taken
    | snapshot connection now =>
        dsimp only at taken
        split at taken
        · rename_i request isAccepted
          have accepted := traced.follows connection
          rw [isAccepted] at accepted
          have call : ∀ handed, system.Shares addresses handed →
              runEvents SharedPool.next (.start addresses)
                (system.calling now .snapshot (system.pool.snapshot now).1).history =
                some ⟨(system.calling now .snapshot (system.pool.snapshot now).1).pool,
                  handed ++ (system.pool.snapshot now).2⟩ :=
            fun handed sharing => sharing.call rfl
          split at taken
          · rename_i empty
            obtain rfl := Option.some.inj taken
            refine traced.advance ?_ rfl rfl rfl rfl
              fun handed sharing => ⟨_, call handed sharing,
                fun backend member => absurd member List.not_mem_nil⟩
            exact (@handleConnection_of_empty tables
              { system.seen connection with pool := system.pool, now := now } request accepted
              empty).symm
          · rename_i nonempty
            obtain rfl := Option.some.inj taken
            exact traced.advance ⟨accepted, rfl, nonempty⟩ rfl rfl rfl rfl
              fun handed sharing => ⟨_, call handed sharing,
                fun backend member => List.mem_append_right _ member⟩
        · cases taken
    | claim connection =>
        dsimp only at taken
        split at taken
        · rename_i request backends isReady
          have ready := traced.follows connection
          rw [isReady] at ready
          obtain ⟨accepted, same, nonempty⟩ := ready
          obtain rfl := Option.some.inj taken
          refine traced.advance
            (continues_of_ready accepted same nonempty system.selection) rfl rfl rfl rfl
            fun handed sharing => @Serving.Shares.same _ _ connection _ _ sharing
              fun backend member => ?_
          rw [isReady]
          exact member
        · cases taken
    | check connection now =>
        dsimp only at taken
        split at taken
        · rename_i trial trying
          exact traced.check trying taken
        · cases taken
    | attempt connection exchange =>
        dsimp only at taken
        split at taken
        · rename_i trial position backend attempting
          obtain rfl := Option.some.inj taken
          exact traced.relay attempting exchange
        · cases taken
    | mark connection now =>
        dsimp only at taken
        split at taken
        · rename_i result backend succeeding
          have follows := traced.follows connection
          rw [succeeding] at follows
          have holds : (system.goroutines connection).holds = [backend] := by rw [succeeding]; rfl
          obtain rfl := Option.some.inj taken
          refine traced.advance follows rfl rfl rfl rfl fun handed sharing =>
            @Serving.Shares.use _ _ connection _ _ _ _ backend _ sharing ?_ (fun member => ?_)
              fun other member => absurd member List.not_mem_nil
          · rw [holds]
            exact List.mem_cons_self
          · exact if_pos member
        · rename_i trial backend failing
          have follows := traced.follows connection
          rw [failing] at follows
          have holds : (system.goroutines connection).holds = backend :: trial.backends := by
            rw [failing]
            rfl
          obtain rfl := Option.some.inj taken
          refine traced.advance follows rfl rfl rfl rfl
            fun handed sharing => @Serving.Shares.use _ _ connection _ _ _ _ backend _ sharing ?_
              (fun member => ?_) fun other member => ?_
          · rw [holds]
            exact List.mem_cons_self
          · exact if_pos member
          · rw [holds]
            exact List.mem_cons_of_mem _ member
        · cases taken
    | giveUp connection =>
        dsimp only at taken
        split at taken
        · rename_i trial trying
          have continues := traced.follows connection
          rw [trying] at continues
          split at taken
          · cases taken
          · rename_i outside
            obtain rfl := Option.some.inj taken
            exact traced.advance (continues.finish outside) rfl rfl rfl rfl
              fun handed sharing => sharing.nothing rfl
        · cases taken
    | registry now call =>
        obtain rfl := Option.some.inj taken
        exact traced.registry now call

/-- **In every run.** -/
theorem traced_of_run {events : List ServeEvent}
    (run : runEvents (Serving.next tables) (.start environments addresses) events = some system) :
    system.Traced tables environments addresses :=
  runEvents_invariant traced_start (fun _ _ _ traced taken => traced.next taken) run

end Steps

/-- A backend is dialled after a check that it has passed. -/
theorem available_of_attempting {tables : UnicodeTables} {system after : Serving}
    {connection position : Nat} {now : Int} {trial : Trial} {backend : Pointer}
    (taken : system.next tables (.check connection now) = some after)
    (attempting : after.goroutines connection = .attempting trial position backend) :
    system.pool.available now backend = true := by
  unfold Serving.next at taken
  split at taken
  · cases taken
  · dsimp only at taken
    split at taken
    · unfold Serving.check at taken
      split at taken
      · split at taken
        · obtain rfl := Option.some.inj taken
          simp [Serving.advance] at attempting
        · dsimp only at taken
          split at taken
          · obtain rfl := Option.some.inj taken
            simp [Serving.advance] at attempting
          · rename_i available
            obtain rfl := Option.some.inj taken
            simp only [Serving.advance, Function.update_self, Goroutine.attempting.injEq]
              at attempting
            obtain ⟨-, -, rfl⟩ := attempting
            exact (Bool.not_eq_false _).mp available
      · cases taken
    · cases taken

/-- **Every connection is a run of `handleConnection`**, whatever the others do in between. In every
run of `serve`, the pool is what the calls of all goroutines make of it, in the order of the calls;
a connection that is over has done what `handleConnection` does in the environment that it has
observed, on its own connection to the client; and a backend is dialled only if at its check the
lease was live and the cooldown over, by the marks of all connections. -/
theorem connections_refine {tables : UnicodeTables} {environments : Nat → Environment}
    {addresses : List String} {events : List ServeEvent} {system : Serving}
    (run : runEvents (Serving.next tables) (.start environments addresses) events = some system) :
    (∃ handed, runEvents SharedPool.next (.start addresses) system.history =
        some ⟨system.pool, handed⟩) ∧
      (∀ connection result, system.goroutines connection = .closed result →
        (system.seen connection).incoming = (environments connection).incoming ∧
          (system.seen connection).writes = (environments connection).writes ∧
          result = handleConnection tables (system.seen connection)) ∧
      ∀ connection now after trial position backend,
        system.next tables (.check connection now) = some after →
        after.goroutines connection = .attempting trial position backend →
        (system.pool.heap backend).leased now = true ∧ Rested system.history backend now := by
  have traced := traced_of_run run
  obtain ⟨handed, shared, -⟩ := traced.shares
  refine ⟨⟨handed, shared⟩, fun connection result closed => ?_, ?_⟩
  · have follows := traced.follows connection
    rw [closed] at follows
    exact ⟨traced.incoming connection, traced.writes connection, follows⟩
  · intro connection now after trial position backend taken attempting
    have available := available_of_attempting taken attempting
    rw [BackendPool.available, Bool.and_eq_true] at available
    exact ⟨available.1, (rested_iff _ backend (retryAt_of_run shared backend)).mp available.2⟩

/-- One backend answers one client, while the registry lists the backends. -/
def servedEvents : List ServeEvent :=
  [.read 0, .registry 1 .snapshot, .snapshot 0 2, .claim 0, .check 0 3,
    .attempt 0 ⟨none, none, ⟨[ascii "HTTP/1.0 200 OK\r\n\r\n"], [], .eof⟩⟩,
    .registry 4 (.remove "127.0.0.1:8088"), .mark 0 5]

/-- What the clients of these events send. -/
def servedEnvironment : Environment :=
  plainEnvironment (fun _ => .done) fun _ => ⟨none, none, ⟨[], [], .eof⟩⟩

theorem connections_refine_served :
    ∃ system result, runEvents (Serving.next ⟨id, id⟩)
        (.start (fun _ => servedEnvironment) ["127.0.0.1:8088"]) servedEvents = some system ∧
      result.ending = .served ∧ result = handleConnection ⟨id, id⟩ (system.seen 0) := by
  have first : Serving.next ⟨id, id⟩ (.start (fun _ => servedEnvironment) ["127.0.0.1:8088"])
      (.read 0) =
      some (Serving.advance (.start (fun _ => servedEnvironment) ["127.0.0.1:8088"]) 0
        (.accepted plainRequest) servedEnvironment) := by
    simp only [Serving.next, Serving.start, servedEnvironment, plainEnvironment,
      acceptRequest_plain, Bool.false_eq_true, if_false]
  have whole : ∃ system result, runEvents (Serving.next ⟨id, id⟩)
      (.start (fun _ => servedEnvironment) ["127.0.0.1:8088"]) servedEvents = some system ∧
      system.goroutines 0 = .closed result ∧ result.ending = .served := by
    rw [servedEvents, runEvents_cons, first]
    exact ⟨_, _, rfl, rfl, rfl⟩
  obtain ⟨system, result, run, closed, served⟩ := whole
  exact ⟨system, result, run, served, ((connections_refine run).2.1 0 result closed).2.2⟩

end InfraFromScratch.LoadBalancer
