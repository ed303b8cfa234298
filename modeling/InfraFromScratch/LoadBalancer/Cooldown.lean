import InfraFromScratch.Foundations.Transitions
import InfraFromScratch.LoadBalancer.Pool

/-!
# Cooldowns and leases

A request keeps the pointers of its snapshot and marks the backends it has tried, whatever has
happened to the pool in between. `SharedPool` is the pool with all pointers that snapshots have
handed out; the calls come from any number of requests and registrations, in any order.

A renewal keeps the entry of its backend, so marks through earlier snapshots count for it. Hence
the cooldown of an entry is that of its latest marks, and its lease that of the latest
registration of its address, and neither depends on the other
(`available_iff_leased_and_rested`).
-/

set_option autoImplicit false

namespace InfraFromScratch.LoadBalancer

open Foundations

/-! ## Calls -/

/-- A call of a method of the pool. -/
inductive PoolCall where
  | register (address : String)
  | remove (address : String)
  | snapshot
  | available (backend : Pointer)
  | markFailure (backend : Pointer)
  | markSuccess (backend : Pointer)
  deriving DecidableEq

/-- The backend that the call marks. -/
def PoolCall.marked : PoolCall → Option Pointer
  | .markFailure backend | .markSuccess backend => some backend
  | _ => none

/-- The pool, and the backends that were in some snapshot. -/
structure SharedPool where
  pool : BackendPool
  handed : List Pointer

/-- The pool of `serve` before its first call. -/
def SharedPool.start (addresses : List String) : SharedPool := ⟨newBackendPool addresses, []⟩

/-- What a call at the given time does. Requests have no other backends than those of
snapshots. -/
def SharedPool.next (shared : SharedPool) : Int × PoolCall → Option SharedPool
  | (now, .register address) => some { shared with pool := (shared.pool.register now address).1 }
  | (_, .remove address) => some { shared with pool := (shared.pool.remove address).1 }
  | (now, .snapshot) =>
      some ⟨(shared.pool.snapshot now).1, shared.handed ++ (shared.pool.snapshot now).2⟩
  | (_, .available backend) => if backend ∈ shared.handed then some shared else none
  | (now, .markFailure backend) =>
      if backend ∈ shared.handed then
        some { shared with pool := shared.pool.markFailure now backend }
      else none
  | (_, .markSuccess backend) =>
      if backend ∈ shared.handed then
        some { shared with pool := shared.pool.markSuccess backend }
      else none

/-! ## What the calls say -/

/-- There was a failure since the latest success. -/
def failedSince (calls : List (Int × PoolCall)) (backend : Pointer) : Bool :=
  (eventsSince calls (.markSuccess backend)).any fun entry => entry.2 = .markFailure backend

/-- The end of the cooldown: one second after the latest failure, unless a success came
later. -/
def cooldownEnd (calls : List (Int × PoolCall)) (backend : Pointer) : Option Int :=
  if failedSince calls backend then
    (latestTime calls (.markFailure backend)).map (· + healthCooldown)
  else none

/-- The end of the lease: three seconds after the latest registration of the address. -/
def leaseEnd (calls : List (Int × PoolCall)) (address : String) : Option Int :=
  (latestTime calls (.register address)).map (· + backendLease)

/-- There was no failure since the latest success, or the latest failure was at least one second
before. -/
def Rested (calls : List (Int × PoolCall)) (backend : Pointer) (now : Int) : Prop :=
  (∀ entry ∈ eventsSince calls (.markSuccess backend), entry.2 ≠ .markFailure backend) ∨
    ∃ failure, latestTime calls (.markFailure backend) = some failure ∧
      failure + healthCooldown ≤ now

/-- The address was never registered, so that a backend with it is static, or the lease of the
latest registration is not over. -/
def Leased (calls : List (Int × PoolCall)) (address : String) (now : Int) : Prop :=
  latestTime calls (.register address) = none ∨
    ∃ registration, latestTime calls (.register address) = some registration ∧
      now < registration + backendLease

section Calls

variable {calls : List (Int × PoolCall)} {now : Int}

theorem failedSince_eq_false_iff {backend : Pointer} : failedSince calls backend = false ↔
    ∀ entry ∈ eventsSince calls (.markSuccess backend), entry.2 ≠ .markFailure backend := by
  simp [failedSince]

theorem failedSince_concat (call : PoolCall) (backend : Pointer) :
    failedSince (calls ++ [(now, call)]) backend =
      if call = .markFailure backend then true
      else if call = .markSuccess backend then false
      else failedSince calls backend := by
  rw [failedSince, eventsSince_concat]
  by_cases failure : call = .markFailure backend
  · simp [failure]
  · by_cases success : call = .markSuccess backend
    · simp [success]
    · rw [if_neg success, if_neg failure, if_neg success, List.any_cons]
      simp [failure, failedSince]

theorem cooldownEnd_concat (call : PoolCall) (backend : Pointer) :
    cooldownEnd (calls ++ [(now, call)]) backend =
      if call = .markFailure backend then some (now + healthCooldown)
      else if call = .markSuccess backend then none
      else cooldownEnd calls backend := by
  rw [cooldownEnd, failedSince_concat, latestTime_concat]
  by_cases failure : call = .markFailure backend
  · simp [failure]
  · by_cases success : call = .markSuccess backend
    · simp [success]
    · simp only [failure, success, if_false, cooldownEnd]

theorem leaseEnd_concat (call : PoolCall) (address : String) :
    leaseEnd (calls ++ [(now, call)]) address =
      if call = .register address then some (now + backendLease) else leaseEnd calls address := by
  rw [leaseEnd, latestTime_concat]
  split <;> rfl

/-- A backend rests until the end of its cooldown. -/
theorem rested_iff (state : BackendState) (backend : Pointer)
    (retry : state.retryAt = cooldownEnd calls backend) :
    state.rested now = true ↔ Rested calls backend now := by
  rw [BackendState.rested, retry, cooldownEnd, Rested, ← failedSince_eq_false_iff]
  cases failed : failedSince calls backend with
  | false => simp
  | true =>
      obtain ⟨entry, member, isFailure⟩ := List.any_eq_true.mp failed
      have happened : entry ∈ calls :=
        List.mem_reverse.mp ((List.takeWhile_prefix _).subset member)
      have known := latestTime_ne_none happened
      rw [of_decide_eq_true isFailure] at known
      obtain ⟨failure, latest⟩ := Option.ne_none_iff_exists'.mp known
      simp [latest]

theorem leased_iff (state : BackendState) (address : String)
    (expires : state.expiresAt = leaseEnd calls address) :
    state.leased now = true ↔ Leased calls address now := by
  rw [BackendState.leased, expires, leaseEnd, Leased]
  cases latestTime calls (.register address) with
  | none => simp
  | some registration => simp

end Calls

/-! ## What a call does -/

section Step

variable {shared after : SharedPool} {now : Int}

/-- What is kept: the pool is well formed, snapshots have handed out allocated pointers only, and
no pointer that is not allocated has a cooldown. -/
structure SharedPool.Sound (shared : SharedPool) : Prop where
  wellFormed : shared.pool.WellFormed
  handed : ∀ backend ∈ shared.handed, backend < shared.pool.next
  fresh : ∀ backend, shared.pool.next ≤ backend → (shared.pool.heap backend).retryAt = none

/-- **The cooldown of an entry** is changed by its marks only. -/
theorem retryAt_next (sound : shared.Sound) {call : PoolCall}
    (taken : shared.next (now, call) = some after) (backend : Pointer) :
    (after.pool.heap backend).retryAt =
      if call = .markFailure backend then some (now + healthCooldown)
      else if call = .markSuccess backend then none
      else (shared.pool.heap backend).retryAt := by
  cases call with
  | register address =>
      obtain rfl := Option.some.inj taken
      rcases shared.pool.register_cases now address with
        ⟨found, -, -, renewed⟩ | ⟨-, -, refused⟩ | ⟨-, -, appended⟩
      · by_cases here : backend = found
        · subst here
          simp [renewed, BackendPool.write]
        · simp [renewed, BackendPool.write, Function.update_of_ne here, BackendPool.pruneExpired]
      · simp [refused, BackendPool.pruneExpired]
      · by_cases here : backend = shared.pool.next
        · subst here
          simp [appended, BackendPool.allocate, BackendPool.pruneExpired,
            sound.fresh shared.pool.next le_rfl]
        · simp [appended, BackendPool.allocate, BackendPool.pruneExpired,
            Function.update_of_ne here]
  | remove address =>
      obtain rfl := Option.some.inj taken
      simp [BackendPool.heap_remove]
  | snapshot =>
      obtain rfl := Option.some.inj taken
      simp [BackendPool.snapshot, BackendPool.pruneExpired]
  | available other =>
      simp only [SharedPool.next] at taken
      split at taken
      · obtain rfl := Option.some.inj taken
        simp
      · cases taken
  | markFailure other =>
      simp only [SharedPool.next] at taken
      split at taken
      · obtain rfl := Option.some.inj taken
        by_cases here : backend = other
        · subst here
          simp [BackendPool.markFailure, BackendPool.write]
        · simp [BackendPool.markFailure, BackendPool.write, Function.update_of_ne here,
            Ne.symm here]
      · cases taken
  | markSuccess other =>
      simp only [SharedPool.next] at taken
      split at taken
      · obtain rfl := Option.some.inj taken
        by_cases here : backend = other
        · subst here
          simp [BackendPool.markSuccess, BackendPool.write]
        · simp [BackendPool.markSuccess, BackendPool.write, Function.update_of_ne here,
            Ne.symm here]
      · cases taken

/-- **A mark** changes neither a lease nor the membership. -/
theorem lease_next_of_mark {call : PoolCall} {marked : Pointer} (mark : call.marked = some marked)
    (taken : shared.next (now, call) = some after) :
    after.pool.backends = shared.pool.backends ∧ after.pool.next = shared.pool.next ∧
      after.handed = shared.handed ∧
      ∀ backend, (after.pool.heap backend).address = (shared.pool.heap backend).address ∧
        (after.pool.heap backend).expiresAt = (shared.pool.heap backend).expiresAt := by
  cases call with
  | register | remove | snapshot | available => cases mark
  | markFailure other | markSuccess other =>
      simp only [SharedPool.next] at taken
      split at taken
      · obtain rfl := Option.some.inj taken
        refine ⟨rfl, rfl, rfl, fun backend => ?_⟩
        by_cases here : backend = other
        · subst here
          simp [BackendPool.markFailure, BackendPool.markSuccess, BackendPool.write]
        · simp [BackendPool.markFailure, BackendPool.markSuccess, BackendPool.write,
            Function.update_of_ne here]
      · cases taken

/-- A request marks only what it holds. -/
theorem handed_of_mark {call : PoolCall} {marked : Pointer} (mark : call.marked = some marked)
    (taken : shared.next (now, call) = some after) : marked ∈ shared.handed := by
  cases call with
  | register | remove | snapshot | available => cases mark
  | markFailure other | markSuccess other =>
      obtain rfl := Option.some.inj mark
      simp only [SharedPool.next] at taken
      split at taken
      · assumption
      · cases taken

/-- The slice after a call that is no registration holds no new backends, and the leases of the
others are the same. -/
theorem lease_next {call : PoolCall} (other : ∀ address, call ≠ .register address)
    (taken : shared.next (now, call) = some after) :
    after.pool.backends.Sublist shared.pool.backends ∧ after.pool.next = shared.pool.next ∧
      ∀ backend, (after.pool.heap backend).address = (shared.pool.heap backend).address ∧
        (after.pool.heap backend).expiresAt = (shared.pool.heap backend).expiresAt := by
  cases call with
  | register address => exact absurd rfl (other address)
  | remove address =>
      obtain rfl := Option.some.inj taken
      rw [BackendPool.backends_remove, BackendPool.next_remove, BackendPool.heap_remove]
      exact ⟨List.eraseP_sublist, rfl, fun _ => ⟨rfl, rfl⟩⟩
  | snapshot =>
      obtain rfl := Option.some.inj taken
      exact ⟨List.filter_sublist, rfl, fun _ => ⟨rfl, rfl⟩⟩
  | available backend =>
      simp only [SharedPool.next] at taken
      split at taken
      · obtain rfl := Option.some.inj taken
        exact ⟨List.Sublist.refl _, rfl, fun _ => ⟨rfl, rfl⟩⟩
      · cases taken
  | markFailure backend | markSuccess backend =>
      obtain ⟨backends, next, -, kept⟩ := lease_next_of_mark rfl taken
      exact ⟨backends ▸ List.Sublist.refl _, next, kept⟩

/-- The backends that a call hands out are those of its snapshot. -/
theorem handed_next {call : PoolCall} (taken : shared.next (now, call) = some after) :
    ∀ backend ∈ after.handed, backend ∈ shared.handed ∨ backend ∈ shared.pool.backends := by
  cases call with
  | register | remove =>
      obtain rfl := Option.some.inj taken
      exact fun _ member => .inl member
  | snapshot =>
      obtain rfl := Option.some.inj taken
      intro backend member
      exact (List.mem_append.mp member).imp_right fun listed => (List.mem_filter.mp listed).1
  | available | markFailure | markSuccess =>
      simp only [SharedPool.next] at taken
      split at taken
      · obtain rfl := Option.some.inj taken
        exact fun _ member => .inl member
      · cases taken

theorem next_le_next {call : PoolCall} (taken : shared.next (now, call) = some after) :
    shared.pool.next ≤ after.pool.next := by
  by_cases registers : ∃ address, call = .register address
  · obtain ⟨address, rfl⟩ := registers
    obtain rfl := Option.some.inj taken
    rcases shared.pool.register_cases now address with
      ⟨found, -, -, renewed⟩ | ⟨-, -, refused⟩ | ⟨-, -, appended⟩
    · rw [renewed]
      exact le_rfl
    · rw [refused]
      exact le_rfl
    · rw [appended]
      exact Nat.le_succ _
  · have other : ∀ address, call ≠ .register address := not_exists.mp registers
    exact (lease_next other taken).2.1.ge

theorem SharedPool.Sound.next (sound : shared.Sound) {call : PoolCall}
    (taken : shared.next (now, call) = some after) : after.Sound where
  wellFormed := by
    by_cases registers : ∃ address, call = .register address
    · obtain ⟨address, rfl⟩ := registers
      obtain rfl := Option.some.inj taken
      exact sound.wellFormed.register now address
    · obtain ⟨sublist, next, -⟩ := lease_next (not_exists.mp registers) taken
      refine ⟨sublist.nodup sound.wellFormed.nodup, fun backend member => ?_⟩
      rw [next]
      exact sound.wellFormed.allocated backend (sublist.subset member)
  handed := by
    intro backend member
    refine lt_of_lt_of_le ?_ (next_le_next taken)
    rcases handed_next taken backend member with held | listed
    · exact sound.handed backend held
    · exact sound.wellFormed.allocated backend listed
  fresh := by
    intro backend beyond
    have unallocated := (next_le_next taken).trans beyond
    have unheld : backend ∉ shared.handed := fun held =>
      (sound.handed backend held).not_ge unallocated
    have unmarked : call.marked ≠ some backend := fun mark => unheld (handed_of_mark mark taken)
    rw [retryAt_next sound taken, if_neg (by rintro rfl; exact unmarked rfl),
      if_neg (by rintro rfl; exact unmarked rfl)]
    exact sound.fresh backend unallocated

end Step

/-! ## Leases of a run -/

section Lease

variable {shared after : SharedPool} {calls : List (Int × PoolCall)} {now : Int}

/-- **Every entry** of the slice has the lease of the latest registration of its address. -/
structure SharedPool.Ledger (calls : List (Int × PoolCall)) (shared : SharedPool) : Prop where
  distinct : shared.pool.addresses.Nodup
  expiry : ∀ backend ∈ shared.pool.backends,
    (shared.pool.heap backend).expiresAt = leaseEnd calls (shared.pool.heap backend).address

/-- A call that is no registration keeps the expiries. -/
theorem expiry_next
    (expiry : ∀ backend ∈ shared.pool.backends,
      (shared.pool.heap backend).expiresAt = leaseEnd calls (shared.pool.heap backend).address)
    {call : PoolCall} (other : ∀ address, call ≠ .register address)
    (taken : shared.next (now, call) = some after) :
    ∀ backend ∈ after.pool.backends, (after.pool.heap backend).expiresAt =
      leaseEnd (calls ++ [(now, call)]) (after.pool.heap backend).address := by
  obtain ⟨sublist, -, kept⟩ := lease_next other taken
  intro backend member
  rw [leaseEnd_concat, if_neg (other _), (kept backend).1, (kept backend).2]
  exact expiry backend (sublist.subset member)

theorem SharedPool.Ledger.register (ledger : shared.Ledger calls) (sound : shared.Sound)
    (address : String) :
    SharedPool.Ledger (calls ++ [(now, .register address)])
      { shared with pool := (shared.pool.register now address).1 } where
  distinct := BackendPool.nodup_addresses_register sound.wellFormed ledger.distinct now address
  expiry := by
    have pruned := BackendPool.nodup_addresses_pruneExpired ledger.distinct now
    have kept : ∀ backend ∈ (shared.pool.pruneExpired now).backends,
        (shared.pool.heap backend).address ≠ address →
        (shared.pool.heap backend).expiresAt =
          leaseEnd (calls ++ [(now, .register address)]) (shared.pool.heap backend).address := by
      intro backend member differs
      have elsewhere : PoolCall.register address ≠ .register (shared.pool.heap backend).address :=
        fun same => differs (PoolCall.register.inj same).symm
      rw [leaseEnd_concat, if_neg elsewhere]
      exact ledger.expiry backend (List.mem_filter.mp member).1
    have differs_of_absent (absent : address ∉ (shared.pool.pruneExpired now).addresses) :
        ∀ backend ∈ (shared.pool.pruneExpired now).backends,
          (shared.pool.heap backend).address ≠ address := by
      rintro backend member rfl
      exact absent (List.mem_map_of_mem member)
    rcases shared.pool.register_cases now address with
      ⟨found, foundMember, same, renewed⟩ | ⟨absent, -, refused⟩ | ⟨absent, -, appended⟩
    · rw [renewed]
      intro backend member
      by_cases here : backend = found
      · subst here
        simp [BackendPool.write, leaseEnd_concat, same]
      · have differs : (shared.pool.heap backend).address ≠ address := by
          intro equal
          exact here (List.inj_on_of_nodup_map pruned member foundMember (equal.trans same.symm))
        simpa [BackendPool.write, Function.update_of_ne here, BackendPool.pruneExpired] using
          kept backend member differs
    · rw [refused]
      exact fun backend member => kept backend member (differs_of_absent absent backend member)
    · rw [appended]
      intro backend member
      rcases List.mem_append.mp member with old | new
      · have here : backend ≠ shared.pool.next :=
          ((sound.wellFormed.pruneExpired now).allocated backend old).ne
        simpa [BackendPool.allocate, BackendPool.pruneExpired, Function.update_of_ne here] using
          kept backend old (differs_of_absent absent backend old)
      · obtain rfl := List.mem_singleton.mp new
        simp [BackendPool.allocate, leaseEnd_concat]

end Lease

/-! ## Runs -/

/-- Static backends have neither a lease nor a cooldown. -/
theorem newBackendPool_spec (addresses : List String) :
    (newBackendPool addresses).WellFormed ∧ (newBackendPool addresses).addresses = addresses ∧
      ∀ backend, ((newBackendPool addresses).heap backend).retryAt = none ∧
        ((newBackendPool addresses).heap backend).expiresAt = none := by
  induction addresses using List.reverseRecOn with
  | nil => exact ⟨⟨List.nodup_nil, nofun⟩, rfl, fun _ => ⟨rfl, rfl⟩⟩
  | append_singleton addresses address ih =>
      obtain ⟨wellFormed, same, blank⟩ := ih
      have appended : newBackendPool (addresses ++ [address]) =
          (newBackendPool addresses).allocate ⟨address, none, none⟩ := by
        rw [newBackendPool, List.foldl_append]
        rfl
      rw [appended]
      refine ⟨wellFormed.allocate _, ?_, ?_⟩
      · rw [BackendPool.addresses_allocate wellFormed, same]
      · intro backend
        by_cases here : backend = (newBackendPool addresses).next
        · subst here
          simp [BackendPool.allocate]
        · simpa [BackendPool.allocate, Function.update_of_ne here] using blank backend

section Runs

variable {addresses : List String} {calls : List (Int × PoolCall)} {shared : SharedPool}

theorem sound_start (addresses : List String) : (SharedPool.start addresses).Sound :=
  ⟨(newBackendPool_spec addresses).1, nofun,
    fun backend _ => ((newBackendPool_spec addresses).2.2 backend).1⟩

theorem sound_of_run
    (run : runEvents SharedPool.next (.start addresses) calls = some shared) : shared.Sound :=
  runEvents_invariant (sound_start addresses)
    (fun _ (_, _) _ sound taken => sound.next taken) run

/-- **Every cooldown** is that of the latest marks. -/
theorem retryAt_of_run
    (run : runEvents SharedPool.next (.start addresses) calls = some shared) (backend : Pointer) :
    (shared.pool.heap backend).retryAt = cooldownEnd calls backend := by
  refine @runEvents_induction _ _ SharedPool.next (.start addresses)
    (fun calls shared => (shared.pool.heap backend).retryAt = cooldownEnd calls backend)
    ?_ ?_ calls shared run
  · exact ((newBackendPool_spec addresses).2.2 backend).1
  · rintro calls before ⟨now, call⟩ after earlier holds taken
    rw [retryAt_next (sound_of_run earlier) taken, cooldownEnd_concat, holds]

theorem expiresAt_start (addresses : List String) (backend : Pointer) :
    ((SharedPool.start addresses).pool.heap backend).expiresAt =
      leaseEnd [] ((SharedPool.start addresses).pool.heap backend).address :=
  ((newBackendPool_spec addresses).2.2 backend).2

theorem ledger_of_run (distinct : addresses.Nodup)
    (run : runEvents SharedPool.next (.start addresses) calls = some shared) :
    shared.Ledger calls := by
  refine @runEvents_induction _ _ SharedPool.next (.start addresses)
    (fun calls shared => shared.Ledger calls) ?_ ?_ calls shared run
  · refine ⟨?_, fun backend _ => expiresAt_start addresses backend⟩
    exact (newBackendPool_spec addresses).2.1.symm ▸ distinct
  · rintro calls before ⟨now, call⟩ after earlier ledger taken
    by_cases registers : ∃ address, call = .register address
    · obtain ⟨address, rfl⟩ := registers
      obtain rfl := Option.some.inj taken
      exact ledger.register (sound_of_run earlier) address
    · have other : ∀ address, call ≠ .register address := not_exists.mp registers
      obtain ⟨sublist, -, kept⟩ := lease_next other taken
      exact ⟨BackendPool.nodup_addresses_of_sublist ledger.distinct sublist
        fun backend => (kept backend).1,
        expiry_next ledger.expiry other taken⟩

/-- Without registrations the backends stay static. -/
theorem expiry_of_run_without_register
    (run : runEvents SharedPool.next (.start addresses) calls = some shared)
    (noRegister : ∀ now address, (now, .register address) ∉ calls) :
    ∀ backend ∈ shared.pool.backends, (shared.pool.heap backend).expiresAt =
      leaseEnd calls (shared.pool.heap backend).address := by
  revert noRegister
  refine @runEvents_induction _ _ SharedPool.next (.start addresses)
    (fun calls shared => (∀ now address, (now, .register address) ∉ calls) →
      ∀ backend ∈ shared.pool.backends, (shared.pool.heap backend).expiresAt =
        leaseEnd calls (shared.pool.heap backend).address) ?_ ?_ calls shared run
  · exact fun _ backend _ => expiresAt_start addresses backend
  · rintro calls before ⟨now, call⟩ after - holds taken noRegister
    have earlier : ∀ now address, (now, .register address) ∉ calls :=
      fun now address member => noRegister now address (List.mem_append_left _ member)
    have other : ∀ address, call ≠ .register address := by
      rintro address rfl
      exact noRegister now address (List.mem_append_right _ (List.mem_singleton.mpr rfl))
    exact expiry_next (holds earlier) other taken

/-- **Cooldowns and leases are independent.** After any calls, at any times and through any
entries of earlier snapshots, a backend of the pool is available iff its lease is live or it is
static, and it had no failure since its latest success or its latest failure is one second ago.
The lease is that of the latest registration of the address, where the static addresses differ or
nothing is registered, as `main` has it. Its cooldown is changed by its own marks only, and marks
change no lease and no membership. -/
theorem available_iff_leased_and_rested
    (run : runEvents SharedPool.next (.start addresses) calls = some shared) {backend : Pointer}
    (member : backend ∈ shared.pool.backends) (now : Int) :
    (shared.pool.available now backend = true ↔
      (shared.pool.heap backend).leased now = true ∧ Rested calls backend now) ∧
    ((addresses.Nodup ∨ ∀ time address, (time, .register address) ∉ calls) →
      ((shared.pool.heap backend).leased now = true ↔
        Leased calls (shared.pool.heap backend).address now)) ∧
    ∀ call after, shared.next (now, call) = some after →
      (call.marked ≠ some backend →
        (after.pool.heap backend).retryAt = (shared.pool.heap backend).retryAt) ∧
      (call.marked ≠ none → after.pool.backends = shared.pool.backends ∧
        ∀ other, (after.pool.heap other).lease = (shared.pool.heap other).lease) := by
  refine ⟨?_, ?_, ?_⟩
  · rw [BackendPool.available, Bool.and_eq_true, rested_iff _ backend (retryAt_of_run run backend)]
  · intro single
    refine leased_iff _ _ ?_
    rcases single with distinct | noRegister
    · exact (ledger_of_run distinct run).expiry backend member
    · exact expiry_of_run_without_register run noRegister backend member
  · intro call after taken
    refine ⟨fun unmarked => ?_, fun mark => ?_⟩
    · rw [retryAt_next (sound_of_run run) taken, if_neg (by rintro rfl; exact unmarked rfl),
        if_neg (by rintro rfl; exact unmarked rfl)]
    · obtain ⟨marked, isMark⟩ := Option.ne_none_iff_exists'.mp mark
      obtain ⟨backends, -, -, kept⟩ := lease_next_of_mark isMark taken
      refine ⟨backends, fun other => ?_⟩
      rw [BackendState.lease, BackendState.lease, (kept other).1, (kept other).2]

end Runs

/-- A backend registers, fails a request and renews its lease. -/
def renewedCalls : List (Int × PoolCall) :=
  [(0, .register "127.0.0.1:8088"), (100, .snapshot), (200, .markFailure 0),
    (1000000000, .register "127.0.0.1:8088")]

theorem available_iff_leased_and_rested_renewed :
    ∃ shared, runEvents SharedPool.next (.start []) renewedCalls = some shared ∧
      shared.pool.available 1000000199 0 = false ∧ shared.pool.available 1000000200 0 = true := by
  refine ⟨_, rfl, by decide, ?_⟩
  exact (@available_iff_leased_and_rested [] renewedCalls _ rfl 0 (by decide) 1000000200).1.mpr
    ⟨by decide, .inr ⟨200, by decide, by decide⟩⟩

end InfraFromScratch.LoadBalancer
