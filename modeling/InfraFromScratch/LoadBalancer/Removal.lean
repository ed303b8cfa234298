import InfraFromScratch.Foundations.ReplyMachine
import InfraFromScratch.LoadBalancer.PoolRefinement

/-!
# Removing a backend

`register` and `snapshot` prune the pool before they look at it, and `remove` does not. So a
removal can find a backend whose lease has ended, if no other call has pruned the pool since
then; a snapshot at the same time does not list it. With a snapshot inserted before the
removal, the reply is another.

Where no removal finds such a backend, removals see what snapshots list, and snapshots
inserted anywhere change no reply (`sees_membership_iff`). Two runs of the same calls, one of
them with snapshots inserted, have pools that differ in leases that have ended
(`Shadows`), and the replies to all calls but removals are those of the running leases.
-/

set_option autoImplicit false

namespace InfraFromScratch.LoadBalancer

open Foundations

/-! ## Calls and replies -/

/-- What a call returns. -/
inductive CallReply where
  | registered (error : Option String)
  | removed (found : Bool)
  | listed (addresses : List String)
  deriving DecidableEq, Repr

namespace BackendPool

/-- The reply to a call at the given time. -/
def reply (pool : BackendPool) (now : Int) : Call → CallReply
  | .register address => .registered (pool.register now address).2
  | .remove address => .removed (pool.remove address).2
  | .snapshot => .listed (pool.listed now)

/-- One call, with the pool after it. -/
def answer (pool : BackendPool) (timed : Int × Call) : BackendPool × CallReply :=
  (pool.perform timed.1 timed.2, pool.reply timed.1 timed.2)

end BackendPool

/-- The pool after some calls, from the empty one. -/
def poolAfter (calls : List (Int × Call)) : BackendPool :=
  (runReplies BackendPool.answer (newBackendPool []) calls).1

/-- The calls among calls and inserted snapshots, which are written `none`. -/
def given (more : List (Int × Option Call)) : List (Int × Call) :=
  more.filterMap fun timed => timed.2.map fun call => (timed.1, call)

/-- The replies to the given calls, where the inserted snapshots are made too. -/
def givenReplies : BackendPool → List (Int × Option Call) → List CallReply
  | _, [] => []
  | pool, (now, none) :: rest => givenReplies (pool.snapshot now).1 rest
  | pool, (now, some call) :: rest =>
      pool.reply now call :: givenReplies (pool.perform now call) rest

/-- A removal finds its address iff a snapshot at the same time lists it, and snapshots inserted
anywhere, at nondecreasing times, change no reply. -/
structure SeesMembership (calls : List (Int × Call)) : Prop where
  removes : ∀ before now address after, calls = before ++ (now, .remove address) :: after →
    (((poolAfter before).remove address).2 = true ↔ address ∈ (poolAfter before).listed now)
  undisturbed : ∀ more, given more = calls → Ordered Prod.fst more →
    givenReplies (newBackendPool []) more =
      (runReplies BackendPool.answer (newBackendPool []) calls).2

/-! ## Leases -/

namespace BackendPool

/-- The lease of every entry with the address is running. -/
def Fresh (pool : BackendPool) (now : Int) (address : String) : Prop :=
  ∀ backend ∈ pool.backends, (pool.heap backend).address = address →
    (pool.heap backend).leased now = true

/-- No pointer and no address stands twice. -/
structure Sound (pool : BackendPool) : Prop where
  wellFormed : pool.WellFormed
  distinct : pool.addresses.Nodup

variable {pool : BackendPool} {now : Int} {address : String}

theorem sound_empty : (newBackendPool []).Sound :=
  ⟨⟨List.nodup_nil, by simp [newBackendPool]⟩, List.nodup_nil⟩

theorem Sound.perform (sound : pool.Sound) (now : Int) (call : Call) :
    (pool.perform now call).Sound := by
  cases call with
  | register address =>
      exact ⟨sound.wellFormed.register now address,
        nodup_addresses_register sound.wellFormed sound.distinct now address⟩
  | remove address =>
      exact ⟨sound.wellFormed.remove address, nodup_addresses_remove sound.distinct address⟩
  | snapshot =>
      exact ⟨sound.wellFormed.pruneExpired now, nodup_addresses_pruneExpired sound.distinct now⟩

theorem remove_eq_true_iff (address : String) :
    (pool.remove address).2 = true ↔ address ∈ pool.leases.keys := by
  rw [keys_leases, addresses, List.mem_map, remove]
  cases found : pool.backends.findIdx? (pool.hasAddress address) with
  | none =>
      refine iff_of_false Bool.false_ne_true ?_
      rintro ⟨backend, member, same⟩
      have missed := List.findIdx?_eq_none_iff.mp found backend member
      rw [hasAddress, same, beq_self_eq_true] at missed
      cases missed
  | some index =>
      refine iff_of_true rfl ?_
      obtain ⟨within, matching, -⟩ := List.findIdx?_eq_some_iff_getElem.mp found
      exact ⟨_, List.getElem_mem within, beq_iff_eq.mp matching⟩

theorem listed_eq (pool : BackendPool) (now : Int) :
    pool.listed now = (pool.leases.prune now).keys := by
  rw [← leases_pruneExpired, keys_leases]
  rfl

theorem fresh_iff :
    pool.Fresh now address ↔
      ∀ deadline, (address, deadline) ∈ pool.leases → (now : WithTop Int) < deadline := by
  constructor
  · intro fresh deadline listed
    obtain ⟨backend, member, same⟩ := List.mem_map.mp listed
    have leased := fresh backend member (congrArg Prod.fst same)
    rw [BackendState.leased_eq, same] at leased
    exact of_decide_eq_true leased
  · intro running backend member same
    rw [BackendState.leased_eq]
    refine decide_eq_true (running _ ?_)
    rw [← same]
    exact List.mem_map_of_mem member

/-- **What a removal finds** is what a snapshot lists iff no entry with the address has ended. -/
theorem Sound.remove_iff_listed (sound : pool.Sound) :
    ((pool.remove address).2 = true ↔ address ∈ pool.listed now) ↔ pool.Fresh now address := by
  rw [remove_eq_true_iff, listed_eq, fresh_iff]
  have distinct : pool.leases.keys.Nodup := by
    rw [keys_leases]
    exact sound.distinct
  constructor
  · intro same deadline listed
    obtain ⟨⟨other, later⟩, running, isKey⟩ :=
      List.mem_map.mp (same.mp (List.mem_map_of_mem listed))
    obtain ⟨alsoListed, ahead⟩ := List.mem_filter.mp running
    have one := List.inj_on_of_nodup_map distinct alsoListed listed isKey
    rw [one] at ahead
    exact of_decide_eq_true ahead
  · intro running
    constructor
    · intro member
      obtain ⟨⟨_, deadline⟩, listed, rfl⟩ := List.mem_map.mp member
      exact List.mem_map.mpr ⟨_, List.mem_filter.mpr ⟨listed, decide_eq_true (running _ listed)⟩,
        rfl⟩
    · intro member
      exact (List.filter_sublist.map Prod.fst).subset member

end BackendPool

/-- What `register` makes of the running leases. -/
def registerLeases (live : LeaseList String Int) (now : Int) (address : String) :
    LeaseList String Int × Option String :=
  if address ∈ live.keys then (live.renew address ((now + backendLease : Int) : WithTop Int), none)
  else if maxBackends ≤ live.length then (live, some "backend limit reached")
  else (live ++ [(address, ((now + backendLease : Int) : WithTop Int))], none)

/-- `register` sees the running leases only. -/
theorem BackendPool.Sound.leases_register {pool : BackendPool} (sound : pool.Sound) (now : Int)
    (address : String) :
    ((pool.register now address).1.leases, (pool.register now address).2) =
      registerLeases (pool.leases.prune now) now address := by
  have live : (pool.pruneExpired now).leases = pool.leases.prune now :=
    BackendPool.leases_pruneExpired now
  have keys : (pool.leases.prune now).keys = (pool.pruneExpired now).addresses := by
    rw [← live, BackendPool.keys_leases]
  have size : (pool.leases.prune now).length = (pool.pruneExpired now).backends.length := by
    rw [← live, BackendPool.leases_length]
  rw [registerLeases, keys, size]
  rcases pool.register_cases now address with
    ⟨backend, member, same, renewed⟩ | ⟨absent, full, refused⟩ | ⟨absent, room, appended⟩
  · have listed : address ∈ (pool.pruneExpired now).addresses := by
      rw [← same]
      exact List.mem_map_of_mem member
    have distinct := BackendPool.nodup_addresses_pruneExpired sound.distinct now
    have written := BackendPool.leases_write member distinct (now + backendLease)
    rw [renewed, if_pos listed, ← live, ← same]
    exact congrArg (fun leases => (leases, none)) written
  · rw [refused, if_neg absent, if_pos full, live]
  · rw [appended, if_neg absent, if_neg (not_le.mpr room),
      BackendPool.leases_allocate (sound.wellFormed.pruneExpired now), live]
    rfl

/-! ## Two runs -/

/-- The first pool has lost some entries whose leases have ended, and nothing else. -/
structure Shadows (now : Int) (pruned pool : BackendPool) : Prop where
  first : pruned.Sound
  second : pool.Sound
  trims : LeaseList.Trims pruned.leases pool.leases now

section Steps

variable {now : Int} {pruned pool : BackendPool}

theorem Shadows.mono {late : Int} (order : now ≤ late) (shadows : Shadows now pruned pool) :
    Shadows late pruned pool :=
  ⟨shadows.first, shadows.second, shadows.trims.mono order⟩

/-- **A snapshot of the first pool alone** is not noticed. -/
theorem Shadows.snapshot (shadows : Shadows now pruned pool) :
    Shadows now (pruned.snapshot now).1 pool := by
  refine ⟨shadows.first.perform now .snapshot, shadows.second, ?_⟩
  have live : (pruned.snapshot now).1.leases = pruned.leases.prune now :=
    BackendPool.leases_pruneExpired now
  rw [live]
  exact shadows.trims.prune

/-- **One call** of both gets the same reply, if a removal finds no lease that has ended. -/
theorem Shadows.perform (shadows : Shadows now pruned pool) (call : Call)
    (fresh : ∀ address, call = .remove address → pool.Fresh now address) :
    pruned.reply now call = pool.reply now call ∧
      Shadows now (pruned.perform now call) (pool.perform now call) := by
  have running := shadows.trims.running
  have first := shadows.first.perform now call
  have second := shadows.second.perform now call
  cases call with
  | register address =>
      have here := shadows.first.leases_register now address
      have there := shadows.second.leases_register now address
      rw [running, ← there] at here
      obtain ⟨leases, error⟩ := Prod.mk.inj here
      refine ⟨congrArg CallReply.registered error, first, second, ?_⟩
      rw [BackendPool.perform, leases]
      exact ⟨List.Sublist.refl _, rfl⟩
  | remove address =>
      refine ⟨congrArg CallReply.removed (Bool.eq_iff_iff.mpr ?_), first, second, ?_⟩
      · rw [BackendPool.remove_eq_true_iff, BackendPool.remove_eq_true_iff]
        exact shadows.trims.mem_keys_iff (BackendPool.fresh_iff.mp (fresh address rfl))
      · rw [BackendPool.perform, BackendPool.perform,
          BackendPool.leases_remove shadows.first.distinct,
          BackendPool.leases_remove shadows.second.distinct]
        exact shadows.trims.drop address
  | snapshot =>
      refine ⟨?_, first, second, ?_⟩
      · rw [BackendPool.reply, BackendPool.reply, BackendPool.listed_eq, BackendPool.listed_eq,
          running]
      · have live : (pruned.perform now .snapshot).leases = (pool.perform now .snapshot).leases :=
          (BackendPool.leases_pruneExpired now).trans
            (running.trans (BackendPool.leases_pruneExpired now).symm)
        rw [live]
        exact ⟨List.Sublist.refl _, rfl⟩

/-- **Every run** of both gets the same replies. -/
theorem Shadows.givenReplies_eq {more : List (Int × Option Call)} {early : Int}
    (shadows : Shadows early pruned pool) (later : ∀ timed ∈ more, early ≤ timed.1)
    (ordered : Ordered Prod.fst more)
    (fresh : ∀ before now address after, given more = before ++ (now, .remove address) :: after →
      (runReplies BackendPool.answer pool before).1.Fresh now address) :
    givenReplies pruned more = (runReplies BackendPool.answer pool (given more)).2 := by
  induction more generalizing early pruned pool with
  | nil => rfl
  | cons timed rest ih =>
      obtain ⟨now, call⟩ := timed
      have current := shadows.mono (later _ List.mem_cons_self)
      have ahead : ∀ other ∈ rest, now ≤ other.1 := fun other member => ordered.head_le member
      cases call with
      | none => exact ih current.snapshot ahead ordered.tail fresh
      | some call =>
          obtain ⟨same, next⟩ := current.perform call (by
            rintro address rfl
            exact fresh [] now address (given rest) rfl)
          have tail := ih next ahead ordered.tail fun before late address after split =>
            fresh ((now, call) :: before) late address after
              (congrArg (List.cons (now, call)) split)
          rw [givenReplies, same, tail]
          rfl

end Steps

theorem sound_poolAfter (calls : List (Int × Call)) : (poolAfter calls).Sound :=
  runReplies_invariant BackendPool.Sound (fun timed _ _ sound => sound.perform timed.1 timed.2)
    BackendPool.sound_empty

/-- **When removals see the membership.** For every sequence of calls, from an empty pool: each
removal finds its address iff a snapshot would list it, and inserted snapshots change no reply,
iff no removal meets an entry with its address whose lease has ended. -/
theorem sees_membership_iff (calls : List (Int × Call)) :
    SeesMembership calls ↔
      ∀ before now address after, calls = before ++ (now, .remove address) :: after →
        (poolAfter before).Fresh now address := by
  constructor
  · intro sees before now address after split
    exact (sound_poolAfter before).remove_iff_listed.mp
      (sees.removes before now address after split)
  · intro fresh
    refine ⟨?_, ?_⟩
    · intro before now address after split
      exact (sound_poolAfter before).remove_iff_listed.mpr (fresh before now address after split)
    · rintro more rfl ordered
      cases more with
      | nil => rfl
      | cons timed rest =>
          have start : Shadows timed.1 (newBackendPool []) (newBackendPool []) :=
            ⟨BackendPool.sound_empty, BackendPool.sound_empty, List.Sublist.refl _, rfl⟩
          refine start.givenReplies_eq ?_ ordered fresh
          intro other member
          rcases List.mem_cons.mp member with rfl | later
          · exact le_rfl
          · exact ordered.head_le later

/-- A backend registers and is removed four seconds later. -/
def staleRemoval : List (Int × Call) :=
  [(0, .register "127.0.0.1:8088"), (4000000000, .remove "127.0.0.1:8088")]

/-- **A removal finds a backend that is gone**, which no snapshot lists, and which it does not find
after a snapshot. -/
theorem stale_backend_removed :
    (poolAfter [(0, .register "127.0.0.1:8088")]).listed 4000000000 = [] ∧
      (runReplies BackendPool.answer (newBackendPool []) staleRemoval).2 =
        [.registered none, .removed true] ∧
      givenReplies (newBackendPool [])
          [(0, some (.register "127.0.0.1:8088")), (4000000000, none),
            (4000000000, some (.remove "127.0.0.1:8088"))] =
        [.registered none, .removed false] ∧
      ¬ SeesMembership staleRemoval := by
  refine ⟨by decide, by decide, by decide, fun sees => ?_⟩
  have found := (sees.removes [(0, .register "127.0.0.1:8088")] 4000000000 _ [] rfl).mp (by decide)
  exact absurd found (by decide)

end InfraFromScratch.LoadBalancer
