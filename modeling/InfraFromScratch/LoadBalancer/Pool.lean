import InfraFromScratch.Foundations.LeaseList

/-!
# The backend pool of the load balancer

`backendPool` in `load-balancer/server.go` is a slice of pointers to backend states,
guarded by a mutex. A request keeps the pointers of its snapshot, so the states live
on after they left the slice; the pool is therefore modelled with a heap. Every method
below is what runs while the mutex is held, at the time read there, in nanoseconds.

The lemmas of this module forget the pointers: what the methods do to the leases of
the pool (`BackendPool.leases`) are the operations of lease lists. They need that no
pointer stands twice in the slice and that the heap has room (`WellFormed`).
-/

set_option autoImplicit false

namespace InfraFromScratch.LoadBalancer

open Foundations

/-- `healthCooldown`. -/
def healthCooldown : Int := 1000000000

/-- `backendLease`. -/
def backendLease : Int := 3000000000

/-- `maxBackends`. -/
def maxBackends : Nat := 32

/-- `backendState`. The zero time is `none`. -/
structure BackendState where
  address : String
  retryAt : Option Int
  expiresAt : Option Int
  deriving DecidableEq, Repr

/-- A pointer to a backend state. -/
abbrev Pointer := Nat

/-- `backendPool`, with the states its pointers refer to. Pointers from `next` on are
not allocated yet. -/
structure BackendPool where
  heap : Pointer → BackendState
  next : Pointer
  backends : List Pointer

/-- `&backendState{...}`. -/
def BackendPool.allocate (pool : BackendPool) (state : BackendState) : BackendPool where
  heap := Function.update pool.heap pool.next state
  next := pool.next + 1
  backends := pool.backends ++ [pool.next]

/-- Assign to the state behind a pointer. -/
def BackendPool.write (pool : BackendPool) (backend : Pointer) (state : BackendState) :
    BackendPool :=
  { pool with heap := Function.update pool.heap backend state }

/-- `newBackendPool`. -/
def newBackendPool (addresses : List String) : BackendPool :=
  addresses.foldl (fun pool address => pool.allocate ⟨address, none, none⟩)
    ⟨fun _ => ⟨"", none, none⟩, 0, []⟩

/-- `expiresAt.IsZero() || now.Before(expiresAt)`. -/
def BackendState.leased (state : BackendState) (now : Int) : Bool :=
  match state.expiresAt with
  | none => true
  | some expiresAt => decide (now < expiresAt)

/-- `retryAt.IsZero() || !now.Before(retryAt)`. -/
def BackendState.rested (state : BackendState) (now : Int) : Bool :=
  match state.retryAt with
  | none => true
  | some retryAt => decide (¬ now < retryAt)

namespace BackendPool

variable (pool : BackendPool)

/-- `pruneExpired`. -/
def pruneExpired (now : Int) : BackendPool :=
  { pool with backends := pool.backends.filter fun backend => (pool.heap backend).leased now }

/-- `snapshot`. -/
def snapshot (now : Int) : BackendPool × List Pointer :=
  (pool.pruneExpired now, (pool.pruneExpired now).backends)

/-- `backend.address == address`. -/
def hasAddress (address : String) (backend : Pointer) : Bool :=
  (pool.heap backend).address == address

/-- `register`, with the text of its error. -/
def register (now : Int) (address : String) : BackendPool × Option String :=
  let pruned := pool.pruneExpired now
  match pruned.backends.find? (pruned.hasAddress address) with
  | some backend =>
      (pruned.write backend
        { pruned.heap backend with expiresAt := some (now + backendLease) }, none)
  | none =>
      if maxBackends ≤ pruned.backends.length then (pruned, some "backend limit reached")
      else (pruned.allocate ⟨address, none, some (now + backendLease)⟩, none)

/-- `remove`. It does not prune. -/
def remove (address : String) : BackendPool × Bool :=
  match pool.backends.findIdx? (pool.hasAddress address) with
  | some index => ({ pool with backends := pool.backends.eraseIdx index }, true)
  | none => (pool, false)

/-- `available`. -/
def available (now : Int) (backend : Pointer) : Bool :=
  (pool.heap backend).leased now && (pool.heap backend).rested now

/-- `markFailure`. -/
def markFailure (now : Int) (backend : Pointer) : BackendPool :=
  pool.write backend { pool.heap backend with retryAt := some (now + healthCooldown) }

/-- `markSuccess`. -/
def markSuccess (backend : Pointer) : BackendPool :=
  pool.write backend { pool.heap backend with retryAt := none }

/-- `markSuccess` takes no backend out of rotation. -/
theorem available_markSuccess {backend other : Pointer} {time : Int}
    (available : pool.available time other = true) :
    (pool.markSuccess backend).available time other = true := by
  by_cases here : other = backend
  · subst here
    rw [BackendPool.available, Bool.and_eq_true] at available
    simp only [BackendPool.available, markSuccess, write, Function.update_self, Bool.and_eq_true]
    exact ⟨available.1, rfl⟩
  · rw [BackendPool.available, markSuccess, write]
    dsimp only
    rw [Function.update_of_ne here]
    exact available

end BackendPool

/-! ## Leases -/

/-- The end of the lease. A static backend has one that does not end. -/
def BackendState.lease (state : BackendState) : String × WithTop Int :=
  (state.address, match state.expiresAt with
    | none => ⊤
    | some expiresAt => (expiresAt : WithTop Int))

theorem BackendState.leased_eq (state : BackendState) (now : Int) :
    state.leased now = decide ((now : WithTop Int) < state.lease.2) := by
  unfold BackendState.leased BackendState.lease
  cases state.expiresAt with
  | none => simp
  | some expiresAt => simp [WithTop.coe_lt_coe]

namespace BackendPool

/-- The leases of the slice, in its order. -/
def leases (pool : BackendPool) : LeaseList String Int :=
  pool.backends.map fun backend => (pool.heap backend).lease

/-- The addresses of the slice, in its order. -/
def addresses (pool : BackendPool) : List String :=
  pool.backends.map fun backend => (pool.heap backend).address

/-- No pointer stands twice, and every one is allocated. -/
structure WellFormed (pool : BackendPool) : Prop where
  nodup : pool.backends.Nodup
  allocated : ∀ backend ∈ pool.backends, backend < pool.next

variable {pool : BackendPool}

theorem keys_leases : pool.leases.keys = pool.addresses := by
  rw [LeaseList.keys, leases, addresses, List.map_map]
  rfl

theorem leases_length : pool.leases.length = pool.backends.length := by
  rw [leases, List.length_map]

/-! ### Pruning -/

theorem leases_pruneExpired (now : Int) : (pool.pruneExpired now).leases = pool.leases.prune now := by
  rw [leases, leases, LeaseList.prune, pruneExpired, List.filter_map]
  refine congrArg _ (List.filter_congr fun backend _ => ?_)
  exact BackendState.leased_eq _ now

theorem WellFormed.pruneExpired (wellFormed : WellFormed pool) (now : Int) :
    WellFormed (pool.pruneExpired now) :=
  ⟨wellFormed.nodup.filter _, fun backend member =>
    wellFormed.allocated backend (List.mem_filter.mp member).1⟩

/-! ### Allocation -/

theorem leases_allocate (wellFormed : WellFormed pool) (state : BackendState) :
    (pool.allocate state).leases = pool.leases ++ [state.lease] := by
  have kept : ∀ backend ∈ pool.backends,
      (Function.update pool.heap pool.next state backend).lease = (pool.heap backend).lease := by
    intro backend member
    rw [Function.update_of_ne (wellFormed.allocated backend member).ne]
  simp only [leases, allocate, List.map_append, List.map_singleton, Function.update_self]
  rw [List.map_congr_left kept]

theorem WellFormed.allocate (wellFormed : WellFormed pool) (state : BackendState) :
    WellFormed (pool.allocate state) := by
  refine ⟨?_, ?_⟩
  · refine List.nodup_append'.mpr ⟨wellFormed.nodup, List.nodup_singleton _, ?_⟩
    exact List.disjoint_singleton.mpr fun member => (wellFormed.allocated _ member).false
  · intro backend member
    rcases List.mem_append.mp member with old | new
    · exact (wellFormed.allocated backend old).trans (Nat.lt_succ_self _)
    · rw [List.mem_singleton.mp new]
      exact Nat.lt_succ_self _

/-! ### Writing one state -/

/-- Writing a new expiry through a pointer renews the lease of its address, since no
other pointer of the slice has the address. -/
theorem leases_write {backend : Pointer} (member : backend ∈ pool.backends)
    (distinct : pool.addresses.Nodup) (expiresAt : Int) :
    (pool.write backend { pool.heap backend with expiresAt := some expiresAt }).leases =
      pool.leases.renew (pool.heap backend).address expiresAt := by
  rw [leases, leases, LeaseList.renew, List.map_map, write]
  refine List.map_congr_left fun other otherMember => ?_
  by_cases here : other = backend
  · subst here
    simp [BackendState.lease]
  · have elsewhere : (pool.heap other).address ≠ (pool.heap backend).address := fun same =>
      here (List.inj_on_of_nodup_map distinct otherMember member same)
    simp [Function.update_of_ne here, BackendState.lease, elsewhere]

theorem WellFormed.write (wellFormed : WellFormed pool) (backend : Pointer)
    (state : BackendState) : WellFormed (pool.write backend state) :=
  ⟨wellFormed.nodup, wellFormed.allocated⟩

/-! ### Registration -/

/-- **What `register` can do**: renew a lease that has not ended, refuse, or append. -/
theorem register_cases (pool : BackendPool) (now : Int) (address : String) :
    (∃ backend ∈ (pool.pruneExpired now).backends, (pool.heap backend).address = address ∧
      pool.register now address = ((pool.pruneExpired now).write backend
        { pool.heap backend with expiresAt := some (now + backendLease) }, none)) ∨
    (address ∉ (pool.pruneExpired now).addresses ∧
      maxBackends ≤ (pool.pruneExpired now).backends.length ∧
      pool.register now address = (pool.pruneExpired now, some "backend limit reached")) ∨
    (address ∉ (pool.pruneExpired now).addresses ∧
      (pool.pruneExpired now).backends.length < maxBackends ∧
      pool.register now address = ((pool.pruneExpired now).allocate
        ⟨address, none, some (now + backendLease)⟩, none)) := by
  cases found : (pool.pruneExpired now).backends.find?
      ((pool.pruneExpired now).hasAddress address) with
  | some backend =>
      have matching : (pool.pruneExpired now).hasAddress address backend = true :=
        List.find?_some found
      refine .inl ⟨backend, List.mem_of_find?_eq_some found, beq_iff_eq.mp matching, ?_⟩
      simp only [register, found]
      rfl
  | none =>
      have absent : address ∉ (pool.pruneExpired now).addresses := by
        intro member
        obtain ⟨backend, listed, same⟩ := List.mem_map.mp member
        exact List.find?_eq_none.mp found backend listed (beq_iff_eq.mpr same)
      by_cases full : maxBackends ≤ (pool.pruneExpired now).backends.length
      · exact .inr (.inl ⟨absent, full, by simp only [register, found, if_pos full]⟩)
      · exact .inr (.inr ⟨absent, not_le.mp full, by
          simp only [register, found, if_neg full]⟩)

/-! ### Removal -/

/-- `remove` takes out the first backend with the address, if there is one. -/
theorem backends_remove (address : String) :
    (pool.remove address).1.backends = pool.backends.eraseP (pool.hasAddress address) := by
  rw [List.eraseP_eq_eraseIdx, remove]
  split
  · rename_i found
    rw [found]
  · rename_i found
    rw [found]

theorem heap_remove (address : String) : (pool.remove address).1.heap = pool.heap := by
  rw [remove]
  split <;> rfl

theorem next_remove (address : String) : (pool.remove address).1.next = pool.next := by
  rw [remove]
  split <;> rfl

theorem leases_remove (distinct : pool.addresses.Nodup) (address : String) :
    (pool.remove address).1.leases = pool.leases.drop address := by
  rw [← LeaseList.eraseP_eq_drop (keys_leases ▸ distinct), leases, leases, List.eraseP_map,
    backends_remove, heap_remove]
  rfl

theorem WellFormed.remove (wellFormed : WellFormed pool) (address : String) :
    WellFormed (pool.remove address).1 := by
  refine ⟨?_, ?_⟩
  · rw [backends_remove]
    exact List.eraseP_sublist.nodup wellFormed.nodup
  · intro backend member
    rw [backends_remove] at member
    rw [next_remove]
    exact wellFormed.allocated backend (List.mem_of_mem_eraseP member)

/-! ### Addresses -/

theorem nodup_addresses_of_sublist {other : BackendPool} (distinct : pool.addresses.Nodup)
    (sublist : other.backends.Sublist pool.backends)
    (same : ∀ backend, (other.heap backend).address = (pool.heap backend).address) :
    other.addresses.Nodup := by
  have kept : other.addresses = other.backends.map fun backend => (pool.heap backend).address :=
    List.map_congr_left fun backend _ => same backend
  rw [kept]
  exact (sublist.map _).nodup distinct

theorem nodup_addresses_pruneExpired (distinct : pool.addresses.Nodup) (now : Int) :
    (pool.pruneExpired now).addresses.Nodup :=
  nodup_addresses_of_sublist distinct List.filter_sublist fun _ => rfl

theorem addresses_pruneExpired_sublist (pool : BackendPool) (now : Int) :
    (pool.pruneExpired now).addresses.Sublist pool.addresses :=
  List.filter_sublist.map _

/-- Writing an expiry changes no address. -/
theorem addresses_write (backend : Pointer) (expiresAt : Option Int) :
    (pool.write backend { pool.heap backend with expiresAt := expiresAt }).addresses =
      pool.addresses := by
  refine List.map_congr_left fun other _ => ?_
  by_cases here : other = backend
  · subst here
    simp [write]
  · simp [write, Function.update_of_ne here]

theorem addresses_allocate (wellFormed : WellFormed pool) (state : BackendState) :
    (pool.allocate state).addresses = pool.addresses ++ [state.address] := by
  rw [← keys_leases, leases_allocate wellFormed, LeaseList.keys, List.map_append,
    ← LeaseList.keys, keys_leases]
  rfl

/-- `register` leaves the addresses that are left, or appends its own. -/
theorem addresses_register (wellFormed : WellFormed pool) (now : Int) (address : String) :
    (pool.register now address).1.addresses = (pool.pruneExpired now).addresses ∨
      address ∉ (pool.pruneExpired now).addresses ∧
        (pool.register now address).1.addresses = (pool.pruneExpired now).addresses ++ [address] := by
  rcases pool.register_cases now address with
    ⟨backend, -, -, renewed⟩ | ⟨-, -, refused⟩ | ⟨absent, -, appended⟩
  · rw [renewed]
    exact .inl (addresses_write backend _)
  · rw [refused]
    exact .inl rfl
  · rw [appended]
    exact .inr ⟨absent, addresses_allocate (wellFormed.pruneExpired now) _⟩

theorem WellFormed.register (wellFormed : WellFormed pool) (now : Int) (address : String) :
    WellFormed (pool.register now address).1 := by
  have pruned := wellFormed.pruneExpired now
  rcases pool.register_cases now address with
    ⟨backend, -, -, renewed⟩ | ⟨-, -, refused⟩ | ⟨-, -, appended⟩
  · rw [renewed]
    exact pruned.write backend _
  · rw [refused]
    exact pruned
  · rw [appended]
    exact pruned.allocate _

theorem nodup_addresses_register (wellFormed : WellFormed pool) (distinct : pool.addresses.Nodup)
    (now : Int) (address : String) : (pool.register now address).1.addresses.Nodup := by
  have pruned := nodup_addresses_pruneExpired distinct now
  rcases addresses_register wellFormed now address with same | ⟨absent, appended⟩
  · rw [same]
    exact pruned
  · rw [appended]
    exact List.nodup_append'.mpr ⟨pruned, List.nodup_singleton _,
      List.disjoint_singleton.mpr absent⟩

theorem nodup_addresses_remove (distinct : pool.addresses.Nodup) (address : String) :
    (pool.remove address).1.addresses.Nodup := by
  refine nodup_addresses_of_sublist distinct ?_ fun backend => by rw [heap_remove]
  rw [backends_remove]
  exact List.eraseP_sublist

end BackendPool

end InfraFromScratch.LoadBalancer
