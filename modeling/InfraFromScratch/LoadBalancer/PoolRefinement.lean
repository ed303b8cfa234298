import InfraFromScratch.LoadBalancer.Pool

/-!
# The backend pool is a registry of leases

Seen from outside, the pool is a map from addresses to the ends of their leases. A
registration of a live address prolongs its lease; any other registration begins a new
membership, unless `maxBackends` addresses are live. Which stale entries are still in
the slice, and when they are pruned, makes no difference to any lease.

The registry below is this map. It also numbers the calls, so that each membership
remembers with which call it began. The pool simulates it under every sequence of calls
at nondecreasing times (`Reaches.simulates`), and the law of the pool
(`pool_simulates_registry`) is read off the simulation.
-/

set_option autoImplicit false

namespace InfraFromScratch.LoadBalancer

open Foundations

/-- A call of the pool by the registry handler or by a request. -/
inductive Call where
  | register (address : String)
  | remove (address : String)
  | snapshot
  deriving DecidableEq, Repr

/-- The pool after a call at the given time. -/
def BackendPool.perform (pool : BackendPool) (now : Int) : Call → BackendPool
  | .register address => (pool.register now address).1
  | .remove address => (pool.remove address).1
  | .snapshot => (pool.snapshot now).1

/-- The addresses of a snapshot. -/
def BackendPool.listed (pool : BackendPool) (now : Int) : List String :=
  (pool.snapshot now).2.map fun backend => (pool.heap backend).address

/-! ## The registry -/

/-- For every member the number of the call with which its membership began, and the end
of its lease. -/
structure Registry where
  members : ExpiringMap String Nat Int
  calls : Nat

namespace Registry

/-- Nobody has registered. -/
def empty : Registry := ⟨fun _ => none, 0⟩

/-- The lease of the address is running. -/
def Live (registry : Registry) (now : Int) (address : String) : Prop :=
  address ∈ registry.members.liveKeys now

open Classical in
/-- What a registration does: a live member keeps its beginning, another address begins a
membership with this call, unless the limit is reached. -/
noncomputable def register (registry : Registry) (now : Int) (address : String) :
    ExpiringMap String Nat Int :=
  match registry.members.read now address with
  | some began =>
      Function.update registry.members address
        (some (began, ((now + backendLease : Int) : WithTop Int)))
  | none =>
      if (maxBackends : ℕ∞) ≤ (registry.members.liveKeys now).encard then registry.members
      else Function.update registry.members address
        (some (registry.calls, ((now + backendLease : Int) : WithTop Int)))

theorem register_of_live {registry : Registry} {now : Int} {address : String} {began : Nat}
    (read : registry.members.read now address = some began) :
    registry.register now address = Function.update registry.members address
      (some (began, ((now + backendLease : Int) : WithTop Int))) := by
  rw [register, read]

theorem register_of_full {registry : Registry} {now : Int} {address : String}
    (read : registry.members.read now address = none)
    (full : (maxBackends : ℕ∞) ≤ (registry.members.liveKeys now).encard) :
    registry.register now address = registry.members := by
  rw [register, read]
  exact if_pos full

theorem register_of_room {registry : Registry} {now : Int} {address : String}
    (read : registry.members.read now address = none)
    (room : ¬ (maxBackends : ℕ∞) ≤ (registry.members.liveKeys now).encard) :
    registry.register now address = Function.update registry.members address
      (some (registry.calls, ((now + backendLease : Int) : WithTop Int))) := by
  rw [register, read]
  exact if_neg room

/-- The registry after a call at the given time. -/
noncomputable def perform (registry : Registry) (now : Int) : Call → Registry
  | .register address => ⟨registry.register now address, registry.calls + 1⟩
  | .remove address => ⟨Function.update registry.members address none, registry.calls + 1⟩
  | .snapshot => ⟨registry.members, registry.calls + 1⟩

end Registry

/-- The pools and registries that the same calls, at nondecreasing times up to the given
one, lead to from an empty pool. -/
inductive Reaches : Int → BackendPool → Registry → Prop
  | start (now : Int) : Reaches now (newBackendPool []) Registry.empty
  | call {early now : Int} {pool : BackendPool} {registry : Registry}
      (before : Reaches early pool registry) (order : early ≤ now) (call : Call) :
      Reaches now (pool.perform now call) (registry.perform now call)

/-! ## The simulation -/

/-- What relates the pool and the registry. -/
structure Simulates (now : Int) (pool : BackendPool) (registry : Registry) : Prop where
  wellFormed : pool.WellFormed
  bounded : pool.backends.length ≤ maxBackends
  represents : pool.leases.Represents registry.members now
  stamped : ∀ address began, registry.members.Shows now address began → began < registry.calls

theorem Simulates.mono {early late : Int} {pool : BackendPool} {registry : Registry}
    (order : early ≤ late) (related : Simulates early pool registry) :
    Simulates late pool registry where
  wellFormed := related.wellFormed
  bounded := related.bounded
  represents := related.represents.mono order
  stamped address began shown :=
    related.stamped address began (LeaseList.shows_of_later order shown)

section Steps

variable {now : Int} {pool : BackendPool} {registry : Registry}

theorem simulates_empty (now : Int) : Simulates now (newBackendPool []) Registry.empty where
  wellFormed := ⟨List.nodup_nil, by simp [newBackendPool]⟩
  bounded := Nat.zero_le _
  represents := LeaseList.represents_nil now
  stamped address began shown := by
    obtain ⟨_, entry, -⟩ := shown
    cases entry

/-- Pruning is not observed. -/
theorem Simulates.pruneExpired (related : Simulates now pool registry) :
    Simulates now (pool.pruneExpired now) registry where
  wellFormed := related.wellFormed.pruneExpired now
  bounded := (List.length_filter_le _ _).trans related.bounded
  represents := by
    rw [BackendPool.leases_pruneExpired]
    exact related.represents.prune
  stamped := related.stamped

/-- **What `register` can do**: renew the lease of a live address, refuse, or append. -/
theorem Simulates.register_cases (related : Simulates now pool registry) (address : String) :
    (∃ began, registry.members.read now address = some began ∧
      (pool.register now address).2 = none ∧
      (pool.register now address).1.WellFormed ∧
      (pool.register now address).1.backends = (pool.pruneExpired now).backends ∧
      (pool.register now address).1.leases =
        (pool.leases.prune now).renew address ((now + backendLease : Int) : WithTop Int)) ∨
    (registry.members.read now address = none ∧ maxBackends ≤ (pool.leases.prune now).length ∧
      pool.register now address = (pool.pruneExpired now, some "backend limit reached")) ∨
    (registry.members.read now address = none ∧ (pool.leases.prune now).length < maxBackends ∧
      address ∉ (pool.leases.prune now).keys ∧
      pool.register now address = ((pool.pruneExpired now).allocate
        ⟨address, none, some (now + backendLease)⟩, none)) := by
  have pruned := related.pruneExpired
  have sameLeases : (pool.pruneExpired now).leases = pool.leases.prune now :=
    BackendPool.leases_pruneExpired now
  have distinct : (pool.pruneExpired now).addresses.Nodup := by
    rw [← BackendPool.keys_leases]
    exact pruned.represents.distinct
  have live_iff : address ∈ (pool.pruneExpired now).addresses ↔
      (registry.members.read now address).isSome := by
    rw [← BackendPool.keys_leases, sameLeases, related.represents.mem_keys_prune_iff,
      ExpiringMap.mem_liveKeys_iff]
  have sameLength : (pool.pruneExpired now).backends.length = (pool.leases.prune now).length := by
    rw [← sameLeases, BackendPool.leases_length]
  have dead_of_absent (absent : address ∉ (pool.pruneExpired now).addresses) :
      registry.members.read now address = none := by
    rw [← Option.not_isSome_iff_eq_none, ← live_iff]
    exact absent
  rcases pool.register_cases now address with
    ⟨backend, member, same, renewed⟩ | ⟨absent, full, refused⟩ | ⟨absent, room, appended⟩
  · have live := live_iff.mp (same ▸ List.mem_map_of_mem member)
    obtain ⟨began, read⟩ := Option.isSome_iff_exists.mp live
    refine .inl ⟨began, read, ?_⟩
    rw [renewed]
    refine ⟨rfl, pruned.wellFormed.write backend _, rfl, ?_⟩
    refine (BackendPool.leases_write member distinct _).trans ?_
    rw [sameLeases, ← same]
    rfl
  · exact .inr (.inl ⟨dead_of_absent absent, sameLength ▸ full, refused⟩)
  · refine .inr (.inr ⟨dead_of_absent absent, sameLength ▸ room, ?_, appended⟩)
    rw [← sameLeases, BackendPool.keys_leases]
    exact absent

/-- The registry is full exactly when the pruned slice is. -/
theorem Simulates.full_iff (related : Simulates now pool registry) :
    (maxBackends : ℕ∞) ≤ (registry.members.liveKeys now).encard ↔
      maxBackends ≤ (pool.leases.prune now).length := by
  rw [related.represents.encard_liveKeys]
  exact Nat.cast_le

theorem Simulates.register (related : Simulates now pool registry) (address : String) :
    Simulates now (pool.perform now (.register address))
      (registry.perform now (.register address)) := by
  have pruned := related.pruneExpired
  rcases related.register_cases address with
    ⟨began, read, -, wellFormed, sameBackends, leases⟩ | ⟨read, full, refused⟩ |
    ⟨read, room, absent, appended⟩
  · have members := Registry.register_of_live read
    have shown := ExpiringMap.read_eq_some_iff.mp read
    refine ⟨wellFormed, ?_, ?_, ?_⟩
    · rw [BackendPool.perform, sameBackends]
      exact pruned.bounded
    · rw [BackendPool.perform, leases, Registry.perform, members]
      exact related.represents.prune.renew shown
    · intro other first shownLater
      rw [Registry.perform, members] at shownLater
      refine Nat.lt_succ_of_lt ?_
      by_cases here : other = address
      · subst here
        rw [LeaseList.shows_update_self shownLater]
        exact related.stamped other began shown
      · exact related.stamped other first ((LeaseList.shows_update_of_ne here).mp shownLater)
  · have members := Registry.register_of_full read (related.full_iff.mpr full)
    rw [BackendPool.perform, refused, Registry.perform, members]
    exact ⟨pruned.wellFormed, pruned.bounded, pruned.represents, fun other first shown =>
      Nat.lt_succ_of_lt (related.stamped other first shown)⟩
  · have members := Registry.register_of_room read
      fun full => room.not_ge (related.full_iff.mp full)
    rw [BackendPool.perform, appended, Registry.perform, members]
    refine ⟨pruned.wellFormed.allocate _, ?_, ?_, ?_⟩
    · rw [← BackendPool.leases_length, BackendPool.leases_allocate pruned.wellFormed,
        BackendPool.leases_pruneExpired, List.length_append]
      exact room
    · rw [BackendPool.leases_allocate pruned.wellFormed, BackendPool.leases_pruneExpired]
      exact related.represents.prune.append absent related.stamped
    · intro other first shownLater
      by_cases here : other = address
      · subst here
        rw [LeaseList.shows_update_self shownLater]
        exact Nat.lt_succ_self _
      · exact Nat.lt_succ_of_lt
          (related.stamped other first ((LeaseList.shows_update_of_ne here).mp shownLater))

theorem Simulates.addresses_nodup (related : Simulates now pool registry) :
    pool.addresses.Nodup := by
  rw [← BackendPool.keys_leases]
  exact related.represents.distinct

theorem Simulates.remove (related : Simulates now pool registry) (address : String) :
    Simulates now (pool.perform now (.remove address))
      (registry.perform now (.remove address)) := by
  have leases := BackendPool.leases_remove related.addresses_nodup address
  refine ⟨related.wellFormed.remove address, ?_, ?_, ?_⟩
  · rw [BackendPool.perform, BackendPool.backends_remove]
    exact List.eraseP_sublist.length_le.trans related.bounded
  · rw [BackendPool.perform, leases]
    exact related.represents.drop address
  · intro other first shown
    refine Nat.lt_succ_of_lt (related.stamped other first ?_)
    by_cases here : other = address
    · subst here
      exact absurd shown LeaseList.not_shows_update_none
    · exact (LeaseList.shows_update_of_ne here).mp shown

/-- **One call** keeps the pool and the registry related. -/
theorem Simulates.perform (related : Simulates now pool registry) (call : Call) :
    Simulates now (pool.perform now call) (registry.perform now call) := by
  cases call with
  | register address => exact related.register address
  | remove address => exact related.remove address
  | snapshot =>
      obtain ⟨wellFormed, bounded, represents, stamped⟩ := related.pruneExpired
      exact ⟨wellFormed, bounded, represents, fun address began shown =>
        Nat.lt_succ_of_lt (stamped address began shown)⟩

/-- **Every run** keeps them related. -/
theorem Reaches.simulates (reached : Reaches now pool registry) :
    Simulates now pool registry := by
  induction reached with
  | start now => exact simulates_empty now
  | call before order call ih => exact (ih.mono order).perform call

end Steps

/-! ## The law of the pool -/

/-- An entry of the slice has the address, and its lease ends at the deadline, which is
ahead. -/
def BackendPool.Leases (pool : BackendPool) (now : Int) (address : String)
    (deadline : WithTop Int) : Prop :=
  (address, deadline) ∈ pool.leases ∧ (now : WithTop Int) < deadline

section Law

variable {now : Int} {pool : BackendPool} {registry : Registry}

/-- The running leases of the pool are those of the registry. -/
theorem Simulates.leases_iff (related : Simulates now pool registry) (address : String)
    (deadline : WithTop Int) :
    pool.Leases now address deadline ↔
      (∃ began, registry.members address = some (began, deadline)) ∧
        (now : WithTop Int) < deadline := by
  rw [BackendPool.Leases]
  exact and_congr_left fun ahead => related.represents.entries address deadline ahead

/-- A snapshot lists the live addresses once each, in the order in which their
memberships began. -/
theorem Simulates.listed (related : Simulates now pool registry) :
    (pool.listed now).Nodup ∧ (∀ address, address ∈ pool.listed now ↔ registry.Live now address) ∧
      (pool.listed now).Pairwise fun earlier later => ∀ first second,
        registry.members.Shows now earlier first → registry.members.Shows now later second →
          first < second := by
  have same : pool.listed now = (pool.leases.prune now).keys := by
    rw [← BackendPool.leases_pruneExpired, BackendPool.keys_leases]
    rfl
  rw [same]
  exact related.represents.pruned

/-- The address is not live and as many others are as the pool can hold. -/
def Registry.Refuses (registry : Registry) (now : Int) (address : String) : Prop :=
  ¬ registry.Live now address ∧ 32 ≤ ({other | registry.Live now other} \ {address}).encard

theorem Registry.refuses_iff {registry : Registry} {now : Int} {address : String}
    (read : registry.members.read now address = none) :
    registry.Refuses now address ↔
      (maxBackends : ℕ∞) ≤ (registry.members.liveKeys now).encard := by
  have dead : address ∉ {other | registry.Live now other} := by
    rw [Set.mem_ofPred_eq, Registry.Live, ExpiringMap.mem_liveKeys_iff, read]
    simp
  rw [Registry.Refuses, Set.sdiff_singleton_eq_self dead]
  exact and_iff_right dead

/-- **When `register` refuses**, and what it does to the registry. -/
theorem Simulates.register_outcome (related : Simulates now pool registry) (address : String) :
    (registry.Refuses now address ∧
      (pool.register now address).2 = some "backend limit reached" ∧
      registry.register now address = registry.members) ∨
    (¬ registry.Refuses now address ∧ (pool.register now address).2 = none ∧
      ∃ began, registry.register now address = Function.update registry.members address
        (some (began, ((now + backendLease : Int) : WithTop Int)))) := by
  rcases related.register_cases address with
    ⟨began, read, accepted, -⟩ | ⟨read, full, refused⟩ | ⟨read, room, -, appended⟩
  · refine .inr ⟨?_, accepted, began, Registry.register_of_live read⟩
    intro refuses
    refine refuses.1 (ExpiringMap.mem_liveKeys_iff.mpr ?_)
    rw [read]
    rfl
  · have fullRegistry := related.full_iff.mpr full
    refine .inl ⟨(Registry.refuses_iff read).mpr fullRegistry, by rw [refused], ?_⟩
    exact Registry.register_of_full read fullRegistry
  · have roomInRegistry : ¬ (maxBackends : ℕ∞) ≤ (registry.members.liveKeys now).encard :=
      fun full => room.not_ge (related.full_iff.mp full)
    refine .inr ⟨?_, by rw [appended], _, Registry.register_of_room read roomInRegistry⟩
    rw [Registry.refuses_iff read]
    exact roomInRegistry

theorem Simulates.leases_register_refused (related : Simulates now pool registry)
    {address : String} (refused : (pool.register now address).2 ≠ none) (other : String)
    (deadline : WithTop Int) :
    (pool.register now address).1.Leases now other deadline ↔
      pool.Leases now other deadline := by
  rcases related.register_outcome address with ⟨-, -, unchanged⟩ | ⟨-, accepted, -⟩
  · have after := (related.register address).leases_iff other deadline
    rw [Registry.perform, unchanged] at after
    exact after.trans (related.leases_iff other deadline).symm
  · exact absurd accepted refused

theorem Simulates.leases_register_accepted (related : Simulates now pool registry)
    {address : String} (accepted : (pool.register now address).2 = none) (other : String)
    (deadline : WithTop Int) :
    (pool.register now address).1.Leases now other deadline ↔
      (other = address ∧ deadline = ((now + backendLease : Int) : WithTop Int)) ∨
        (other ≠ address ∧ pool.Leases now other deadline) := by
  rcases related.register_outcome address with ⟨-, refused, -⟩ | ⟨-, -, began, updated⟩
  · rw [refused] at accepted
    cases accepted
  · have after := (related.register address).leases_iff other deadline
    simp only [Registry.perform, updated] at after
    refine after.trans ?_
    by_cases here : other = address
    · subst here
      have running : (now : WithTop Int) < ((now + backendLease : Int) : WithTop Int) :=
        WithTop.coe_lt_coe.mpr (by unfold backendLease; omega)
      simp only [Function.update_self, Option.some.injEq, Prod.mk.injEq, true_and, ne_eq,
        not_true_eq_false, false_and, or_false]
      constructor
      · intro found
        obtain ⟨⟨_, -, same⟩, -⟩ := found
        exact same.symm
      · intro same
        subst same
        exact ⟨⟨began, rfl, rfl⟩, running⟩
    · rw [Function.update_of_ne here, ← related.leases_iff]
      simp [here]

theorem Simulates.leases_remove (related : Simulates now pool registry) (address other : String)
    (deadline : WithTop Int) :
    (pool.remove address).1.Leases now other deadline ↔
      other ≠ address ∧ pool.Leases now other deadline := by
  rw [BackendPool.Leases, BackendPool.leases_remove related.addresses_nodup, LeaseList.drop,
    List.mem_filter, decide_eq_true_iff, BackendPool.Leases]
  constructor
  · intro kept
    exact ⟨kept.1.2, kept.1.1, kept.2⟩
  · intro kept
    exact ⟨⟨kept.2.1, kept.1⟩, kept.2.2⟩

/-- **The law of the pool.** After any calls at nondecreasing times, from an empty pool:

* the slice has at most 32 entries and no address twice, pruned or not;
* its running leases are those of the registry;
* a snapshot lists the live addresses, each once, by the beginning of their membership;
* `register` is refused exactly when the address is not live and 32 others are, and then
  no running lease changes; else it gives the address a lease of three seconds and changes
  no other;
* `remove` ends the lease of its address and changes no other. -/
theorem pool_simulates_registry {early : Int} (reached : Reaches early pool registry)
    (order : early ≤ now) :
    (pool.backends.length ≤ 32 ∧ pool.addresses.Nodup) ∧
    (∀ address deadline, pool.Leases now address deadline ↔
      (∃ began, registry.members address = some (began, deadline)) ∧
        (now : WithTop Int) < deadline) ∧
    ((pool.listed now).Nodup ∧
      (∀ address, address ∈ pool.listed now ↔ registry.Live now address) ∧
      (pool.listed now).Pairwise fun earlier later => ∀ first second,
        registry.members.Shows now earlier first → registry.members.Shows now later second →
          first < second) ∧
    (∀ address,
      ((pool.register now address).2 ≠ none ↔
        ¬ registry.Live now address ∧
          32 ≤ ({other | registry.Live now other} \ {address}).encard) ∧
      ((pool.register now address).2 ≠ none → ∀ other deadline,
        (pool.register now address).1.Leases now other deadline ↔
          pool.Leases now other deadline) ∧
      ((pool.register now address).2 = none → ∀ other deadline,
        (pool.register now address).1.Leases now other deadline ↔
          (other = address ∧ deadline = ((now + 3000000000 : Int) : WithTop Int)) ∨
            (other ≠ address ∧ pool.Leases now other deadline))) ∧
    (∀ address other deadline, (pool.remove address).1.Leases now other deadline ↔
      other ≠ address ∧ pool.Leases now other deadline) := by
  have related : Simulates now pool registry := reached.simulates.mono order
  refine ⟨⟨related.bounded, related.addresses_nodup⟩, related.leases_iff, related.listed,
    fun address => ⟨?_, ?_, ?_⟩, related.leases_remove⟩
  · rcases related.register_outcome address with ⟨refuses, refused, -⟩ | ⟨accepts, accepted, -⟩
    · refine iff_of_true ?_ refuses
      rw [refused]
      exact Option.some_ne_none _
    · exact iff_of_false (not_not.mpr accepted) accepts
  · intro refused
    exact related.leases_register_refused refused
  · intro accepted
    exact related.leases_register_accepted accepted

/-- The first backend renews its lease, the lease of the second one ends, and the third one is
removed. -/
def sampleCalls : List (Int × Call) :=
  [(0, .register "127.0.0.1:8001"), (1000000000, .register "127.0.0.1:8002"),
    (2000000000, .register "127.0.0.1:8001"), (3000000000, .register "127.0.0.1:8003"),
    (4200000000, .remove "127.0.0.1:8003")]

/-- The pool after these calls. The lease that has ended is not pruned yet. -/
def samplePool : BackendPool :=
  sampleCalls.foldl (fun pool timed => pool.perform timed.1 timed.2) (newBackendPool [])

theorem pool_simulates_registry_sample :
    ∃ registry, Reaches 4200000000 samplePool registry ∧
      samplePool.addresses = ["127.0.0.1:8001", "127.0.0.1:8002"] ∧
      samplePool.listed 4500000000 = ["127.0.0.1:8001"] ∧
      registry.Live 4500000000 "127.0.0.1:8001" ∧
      ¬ registry.Live 4500000000 "127.0.0.1:8002" ∧
      ¬ registry.Live 4500000000 "127.0.0.1:8003" := by
  obtain ⟨registry, reached⟩ : ∃ registry, Reaches 4200000000 samplePool registry := by
    simp only [samplePool, sampleCalls, List.foldl_cons, List.foldl_nil]
    exact ⟨_, .call (.call (.call (.call (.call (.start 0) (by decide) _) (by decide) _)
      (by decide) _) (by decide) _) (by decide) _⟩
  have listed : samplePool.listed 4500000000 = ["127.0.0.1:8001"] := by decide
  obtain ⟨-, -, ⟨-, member, -⟩, -⟩ :=
    pool_simulates_registry reached (show (4200000000 : Int) ≤ 4500000000 by decide)
  refine ⟨registry, reached, by decide, listed, ?_, ?_, ?_⟩
  · rw [← member, listed]
    exact List.mem_singleton.mpr rfl
  · rw [← member, listed]
    decide
  · rw [← member, listed]
    decide

end Law

end InfraFromScratch.LoadBalancer
