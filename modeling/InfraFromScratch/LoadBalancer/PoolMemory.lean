import InfraFromScratch.Foundations.GoSlices
import InfraFromScratch.LoadBalancer.Cooldown

/-!
# The pool in memory

`backendPool` keeps its backends in a slice and changes it in place: `pruneExpired` appends the
live backends to the empty front of the slice it ranges over, `remove` appends what follows a
backend to what precedes it, and `register` appends to the slice, which moves to a new array when
the old one is full. `snapshot` copies the slice, and requests walk through their copies while
other calls go on changing the pool.

The calls leave the backends that `BackendPool` says, none of them panics, and a snapshot reads
what it read when it was taken, whatever is called later (`pool_memory_refines`).
-/

set_option autoImplicit false

namespace InfraFromScratch.LoadBalancer

open Foundations

/-- `backendPool`, with its slice and the states that the pointers refer to. -/
structure PoolMemory where
  heap : Pointer → BackendState
  next : Pointer
  arrays : Arrays Pointer
  backends : Slice

namespace PoolMemory

variable (growth : Growth)

/-- `pool.backends = append(pool.backends, &backendState{...})`. -/
def allocate (memory : PoolMemory) (state : BackendState) : PoolMemory :=
  let (arrays, backends) := memory.arrays.append growth memory.backends [memory.next]
  { heap := Function.update memory.heap memory.next state
    next := memory.next + 1
    arrays := arrays
    backends := backends }

/-- Assign to the state behind a pointer. -/
def write (memory : PoolMemory) (backend : Pointer) (state : BackendState) : PoolMemory :=
  { memory with heap := Function.update memory.heap backend state }

/-- `newBackendPool`. -/
def newBackendPool (addresses : List String) : PoolMemory :=
  addresses.foldl (fun memory address => memory.allocate growth ⟨address, none, none⟩)
    ⟨fun _ => ⟨"", none, none⟩, 0, ⟨fun _ => [], 0⟩, .none⟩

/-- `pruneExpired`. -/
def pruneExpired (memory : PoolMemory) (now : Int) : Option PoolMemory := do
  let (arrays, backends) ← memory.arrays.filterInPlace growth
    (fun backend => (memory.heap backend).leased now) memory.backends
  return { memory with arrays := arrays, backends := backends }

/-- `snapshot`. -/
def snapshot (memory : PoolMemory) (now : Int) : Option (PoolMemory × Slice) := do
  let pruned ← memory.pruneExpired growth now
  let (arrays, copy) := pruned.arrays.append growth .none (pruned.arrays.read pruned.backends)
  return ({ pruned with arrays := arrays }, copy)

/-- `backend.address == address`. -/
def hasAddress (memory : PoolMemory) (address : String) (backend : Pointer) : Bool :=
  (memory.heap backend).address == address

/-- `register`, with the text of its error. -/
def register (memory : PoolMemory) (now : Int) (address : String) :
    Option (PoolMemory × Option String) := do
  let pruned ← memory.pruneExpired growth now
  match (pruned.arrays.read pruned.backends).find? (pruned.hasAddress address) with
  | some backend =>
      return (pruned.write backend
        { pruned.heap backend with expiresAt := some (now + backendLease) }, none)
  | none =>
      if maxBackends ≤ pruned.backends.length then return (pruned, some "backend limit reached")
      else return (pruned.allocate growth ⟨address, none, some (now + backendLease)⟩, none)

/-- `remove`. -/
def remove (memory : PoolMemory) (address : String) : Option (PoolMemory × Bool) :=
  match (memory.arrays.read memory.backends).findIdx? (memory.hasAddress address) with
  | some index => do
      let (arrays, backends) ← memory.arrays.deleteAt growth memory.backends index
      return ({ memory with arrays := arrays, backends := backends }, true)
  | none => some (memory, false)

/-- `available`. -/
def available (memory : PoolMemory) (now : Int) (backend : Pointer) : Bool :=
  (memory.heap backend).leased now && (memory.heap backend).rested now

/-- `markFailure`. -/
def markFailure (memory : PoolMemory) (now : Int) (backend : Pointer) : PoolMemory :=
  memory.write backend { memory.heap backend with retryAt := some (now + healthCooldown) }

/-- `markSuccess`. -/
def markSuccess (memory : PoolMemory) (backend : Pointer) : PoolMemory :=
  memory.write backend { memory.heap backend with retryAt := none }

end PoolMemory

/-! ## Calls with their results -/

/-- What a call returns. A snapshot is returned as it can be read at that moment. -/
inductive PoolResult where
  | registered (error : Option String)
  | removed (found : Bool)
  | listed (backends : List Pointer)
  | availability (available : Bool)
  | marked
  deriving DecidableEq

/-- The pool with the snapshots that were handed out and the results so far. -/
structure SharedMemory where
  memory : PoolMemory
  snapshots : List Slice
  results : List PoolResult

/-- The pool of lists with the snapshots that were handed out and the results so far. -/
structure ListedPool where
  pool : BackendPool
  snapshots : List (List Pointer)
  results : List PoolResult

/-- What a call does, or nothing where it panics. -/
def SharedMemory.next (growth : Growth) (shared : SharedMemory) :
    Int × PoolCall → Option SharedMemory
  | (now, .register address) => do
      let (memory, error) ← shared.memory.register growth now address
      return ⟨memory, shared.snapshots, shared.results ++ [.registered error]⟩
  | (_, .remove address) => do
      let (memory, found) ← shared.memory.remove growth address
      return ⟨memory, shared.snapshots, shared.results ++ [.removed found]⟩
  | (now, .snapshot) => do
      let (memory, copy) ← shared.memory.snapshot growth now
      return ⟨memory, shared.snapshots ++ [copy],
        shared.results ++ [.listed (memory.arrays.read copy)]⟩
  | (now, .available backend) =>
      some { shared with
        results := shared.results ++ [.availability (shared.memory.available now backend)] }
  | (now, .markFailure backend) =>
      some { shared with
        memory := shared.memory.markFailure now backend
        results := shared.results ++ [.marked] }
  | (_, .markSuccess backend) =>
      some { shared with
        memory := shared.memory.markSuccess backend
        results := shared.results ++ [.marked] }

/-- What a call does to the pool of lists. -/
def ListedPool.next (listed : ListedPool) : Int × PoolCall → ListedPool
  | (now, .register address) =>
      let (pool, error) := listed.pool.register now address
      ⟨pool, listed.snapshots, listed.results ++ [.registered error]⟩
  | (_, .remove address) =>
      let (pool, found) := listed.pool.remove address
      ⟨pool, listed.snapshots, listed.results ++ [.removed found]⟩
  | (now, .snapshot) =>
      let (pool, backends) := listed.pool.snapshot now
      ⟨pool, listed.snapshots ++ [backends], listed.results ++ [.listed backends]⟩
  | (now, .available backend) =>
      { listed with
        results := listed.results ++ [.availability (listed.pool.available now backend)] }
  | (now, .markFailure backend) =>
      { listed with
        pool := listed.pool.markFailure now backend
        results := listed.results ++ [.marked] }
  | (_, .markSuccess backend) =>
      { listed with
        pool := listed.pool.markSuccess backend
        results := listed.results ++ [.marked] }

/-! ## Refinement -/

namespace PoolMemory

variable {growth : Growth} {memory after : PoolMemory} {pool : BackendPool} {now : Int}

/-- The slice of the pool reads as the list of backends. -/
structure Refines (memory : PoolMemory) (pool : BackendPool) : Prop where
  heap : memory.heap = pool.heap
  next : memory.next = pool.next
  backends : memory.arrays.read memory.backends = pool.backends
  valid : memory.backends.Valid memory.arrays

/-- A slice that has no array in common with the pool. -/
structure Aside (memory : PoolMemory) (slice : Slice) : Prop where
  valid : slice.Valid memory.arrays
  apart : memory.backends.Apart slice

/-- The slices beside the pool read what they read before, and are still beside it. -/
def Spares (memory after : PoolMemory) : Prop :=
  ∀ slice, memory.Aside slice →
    after.Aside slice ∧ after.arrays.read slice = memory.arrays.read slice

theorem Spares.refl (memory : PoolMemory) : memory.Spares memory := fun _ aside => ⟨aside, rfl⟩

theorem Spares.trans {last : PoolMemory} (first : memory.Spares after) (second : after.Spares last) :
    memory.Spares last := by
  intro slice aside
  obtain ⟨still, reads⟩ := first slice aside
  obtain ⟨last, same⟩ := second slice still
  exact ⟨last, same.trans reads⟩

/-- Writes to the pool's array spare the other slices, also where the pool moves to a new array. -/
theorem spares_of_writes (writes : memory.arrays.Writes after.arrays memory.backends)
    (place : (after.backends.array = memory.backends.array ∧
        after.backends.capacity = memory.backends.capacity) ∨
      memory.arrays.next ≤ after.backends.array) : memory.Spares after := by
  intro slice aside
  refine ⟨⟨writes.valid aside.valid, fun writable room => ?_⟩,
    writes.read_of_apart aside.valid aside.apart⟩
  rcases place with ⟨array, capacity⟩ | fresh
  · rw [array]
    exact aside.apart (capacity ▸ writable) room
  · have allocated := (aside.valid.inside room).1
    omega

theorem spares_write (backend : Pointer) (state : BackendState) :
    memory.Spares (memory.write backend state) :=
  fun _ aside => ⟨⟨aside.valid, aside.apart⟩, rfl⟩

theorem Refines.write (refines : memory.Refines pool) (backend : Pointer) (state : BackendState) :
    (memory.write backend state).Refines (pool.write backend state) where
  heap := by rw [PoolMemory.write, BackendPool.write, refines.heap]
  next := refines.next
  backends := refines.backends
  valid := refines.valid

/-- A new backend behind the others. -/
theorem Refines.allocate (refines : memory.Refines pool) (state : BackendState) :
    (memory.allocate growth state).Refines (pool.allocate state) ∧
      memory.Spares (memory.allocate growth state) := by
  obtain ⟨arrays, backends, appended, reads, valid, writes, place⟩ :=
    @Arrays.append_spec _ _ growth _ _ refines.valid [memory.next]
  have result : memory.allocate growth state =
      ⟨Function.update memory.heap memory.next state, memory.next + 1, arrays, backends⟩ := by
    rw [PoolMemory.allocate, appended]
  rw [result]
  refine ⟨⟨?_, ?_, ?_, valid⟩, spares_of_writes writes place⟩
  · rw [refines.heap, refines.next, BackendPool.allocate]
  · rw [refines.next, BackendPool.allocate]
  · rw [reads, refines.backends, refines.next, BackendPool.allocate]

/-- **The pool at the start.** -/
theorem refines_newBackendPool (addresses : List String) :
    (newBackendPool growth addresses).Refines (LoadBalancer.newBackendPool addresses) := by
  rw [newBackendPool, LoadBalancer.newBackendPool]
  have empty : Refines ⟨fun _ => ⟨"", none, none⟩, 0, ⟨fun _ => [], 0⟩, .none⟩
      ⟨fun _ => ⟨"", none, none⟩, 0, []⟩ :=
    ⟨rfl, rfl, rfl, ⟨Nat.le_refl _, fun room => absurd rfl room⟩⟩
  revert empty
  generalize (⟨fun _ => ⟨"", none, none⟩, 0, ⟨fun _ => [], 0⟩, .none⟩ : PoolMemory) = memory
  generalize (⟨fun _ => ⟨"", none, none⟩, 0, []⟩ : BackendPool) = pool
  intro refines
  induction addresses generalizing memory pool with
  | nil => exact refines
  | cons address addresses ih => exact ih _ _ (refines.allocate _).1

theorem Refines.pruneExpired (refines : memory.Refines pool) (now : Int) :
    ∃ pruned, memory.pruneExpired growth now = some pruned ∧
      pruned.Refines (pool.pruneExpired now) ∧ memory.Spares pruned := by
  obtain ⟨arrays, backends, filtered, reads, valid, place, writes⟩ :=
    @Arrays.filterInPlace_spec _ _ growth _ _
      (fun backend => (memory.heap backend).leased now) refines.valid
  refine ⟨{ memory with arrays := arrays, backends := backends }, ?_, ⟨refines.heap, refines.next,
    ?_, valid⟩, spares_of_writes writes (.inl place)⟩
  · rw [PoolMemory.pruneExpired, filtered]
    rfl
  · rw [reads, refines.backends, refines.heap, BackendPool.pruneExpired]

/-- **A snapshot** is a copy of the pruned slice, beside the pool. -/
theorem Refines.snapshot (refines : memory.Refines pool) (now : Int) :
    ∃ after copy, memory.snapshot growth now = some (after, copy) ∧
      after.Refines (pool.snapshot now).1 ∧ memory.Spares after ∧
      after.arrays.read copy = (pool.snapshot now).2 ∧ after.Aside copy := by
  obtain ⟨pruned, taken, prunes, spares⟩ := @Refines.pruneExpired growth _ _ refines now
  have nothing : Slice.none.Valid pruned.arrays := ⟨Nat.le_refl _, fun room => absurd rfl room⟩
  obtain ⟨arrays, copy, appended, reads, valid, writes, place⟩ :=
    @Arrays.append_spec _ _ growth _ _ nothing (pruned.arrays.read pruned.backends)
  have kept : ∀ slice : Slice, slice.Valid pruned.arrays →
      slice.Valid arrays ∧ arrays.read slice = pruned.arrays.read slice := fun slice inside =>
    ⟨writes.valid inside, writes.read_of_apart inside fun room => absurd rfl room⟩
  obtain ⟨stays, same⟩ := kept _ prunes.valid
  refine ⟨{ pruned with arrays := arrays }, copy, ?_,
    ⟨prunes.heap, prunes.next, same.trans prunes.backends, stays⟩,
    spares.trans fun slice aside => ?_, ?_, ⟨valid, fun writable room => ?_⟩⟩
  · rw [PoolMemory.snapshot, taken]
    simp only [Option.bind_eq_bind, Option.bind_some, appended, Option.pure_def]
  · obtain ⟨still, unchanged⟩ := kept slice aside.valid
    exact ⟨⟨still, aside.apart⟩, unchanged⟩
  · rw [reads, Arrays.read_of_empty rfl, List.nil_append, prunes.backends]
    rfl
  · rcases place with ⟨-, capacity⟩ | fresh
    · exact absurd capacity room
    · have allocated := (prunes.valid.inside writable).1
      exact fun same => absurd (same ▸ fresh : pruned.arrays.next ≤ pruned.backends.array)
        (Nat.not_le.mpr allocated)

theorem Refines.hasAddress (refines : memory.Refines pool) (address : String) :
    memory.hasAddress address = pool.hasAddress address := by
  funext backend
  rw [PoolMemory.hasAddress, BackendPool.hasAddress, refines.heap]

theorem Refines.register (refines : memory.Refines pool) (now : Int) (address : String) :
    ∃ after, memory.register growth now address = some (after, (pool.register now address).2) ∧
      after.Refines (pool.register now address).1 ∧ memory.Spares after := by
  obtain ⟨pruned, taken, prunes, spares⟩ := @Refines.pruneExpired growth _ _ refines now
  have size : pruned.backends.length = (pool.pruneExpired now).backends.length := by
    rw [← prunes.backends, Arrays.length_read prunes.valid]
  simp only [PoolMemory.register, taken, Option.bind_eq_bind, Option.bind_some, Option.pure_def,
    BackendPool.register, prunes.backends, prunes.hasAddress, prunes.heap, size]
  cases found : (pool.pruneExpired now).backends.find?
      ((pool.pruneExpired now).hasAddress address) with
  | some backend =>
      exact ⟨_, rfl, prunes.write _ _, spares.trans (spares_write _ _)⟩
  | none =>
      dsimp only
      split
      · exact ⟨_, rfl, prunes, spares⟩
      · obtain ⟨allocates, kept⟩ :=
          @Refines.allocate growth _ _ prunes ⟨address, none, some (now + backendLease)⟩
        exact ⟨_, rfl, allocates, spares.trans kept⟩

theorem Refines.remove (refines : memory.Refines pool) (address : String) :
    ∃ after, memory.remove growth address = some (after, (pool.remove address).2) ∧
      after.Refines (pool.remove address).1 ∧ memory.Spares after := by
  rw [PoolMemory.remove, BackendPool.remove, refines.backends, refines.hasAddress]
  cases found : pool.backends.findIdx? (pool.hasAddress address) with
  | none => exact ⟨memory, rfl, refines, .refl _⟩
  | some index =>
      have inside : index < memory.backends.length := by
        rw [← Arrays.length_read refines.valid, refines.backends]
        exact (List.findIdx?_eq_some_iff_findIdx_eq.mp found).1
      obtain ⟨arrays, backends, deleted, reads, valid, place, writes⟩ :=
        @Arrays.deleteAt_spec _ _ growth _ _ refines.valid _ inside
      refine ⟨{ memory with arrays := arrays, backends := backends }, ?_,
        ⟨refines.heap, refines.next, ?_, valid⟩, spares_of_writes writes (.inl place)⟩
      · simp only [deleted, Option.bind_eq_bind, Option.bind_some, Option.pure_def]
      · rw [reads, refines.backends]

end PoolMemory

/-! ## Every run -/

/-- The calls so far left the same backends, results and snapshots in memory and in lists. -/
structure SharedMemory.Isolated (shared : SharedMemory) (listed : ListedPool) : Prop where
  refines : shared.memory.Refines listed.pool
  results : shared.results = listed.results
  snapshots : shared.snapshots.map shared.memory.arrays.read = listed.snapshots
  aside : ∀ copy ∈ shared.snapshots, shared.memory.Aside copy

section Runs

variable {growth : Growth} {shared : SharedMemory} {listed : ListedPool}

/-- What spares the slices beside the pool keeps the snapshots. -/
theorem SharedMemory.Isolated.spared (isolated : shared.Isolated listed) {after : PoolMemory}
    (spares : shared.memory.Spares after) :
    shared.snapshots.map after.arrays.read = listed.snapshots ∧
      ∀ copy ∈ shared.snapshots, after.Aside copy := by
  refine ⟨?_, fun copy member => (spares copy (isolated.aside copy member)).1⟩
  rw [← isolated.snapshots]
  exact List.map_congr_left fun copy member => (spares copy (isolated.aside copy member)).2

/-- **One call.** It does not panic, it returns what the call on lists returns, and the snapshots
handed out before it read what they read before. -/
theorem SharedMemory.Isolated.next (isolated : shared.Isolated listed) (call : Int × PoolCall) :
    ∃ after, shared.next growth call = some after ∧ after.Isolated (listed.next call) := by
  obtain ⟨now, call⟩ := call
  cases call with
  | register address =>
      obtain ⟨memory, registered, refines, spares⟩ :=
        @PoolMemory.Refines.register growth _ _ isolated.refines now address
      obtain ⟨snapshots, aside⟩ := isolated.spared spares
      refine ⟨_, by rw [SharedMemory.next, registered]; rfl, refines, ?_, snapshots, aside⟩
      rw [isolated.results]
      rfl
  | remove address =>
      obtain ⟨memory, removed, refines, spares⟩ :=
        @PoolMemory.Refines.remove growth _ _ isolated.refines address
      obtain ⟨snapshots, aside⟩ := isolated.spared spares
      refine ⟨_, by rw [SharedMemory.next, removed]; rfl, refines, ?_, snapshots, aside⟩
      rw [isolated.results]
      rfl
  | snapshot =>
      obtain ⟨memory, copy, taken, refines, spares, reads, beside⟩ :=
        @PoolMemory.Refines.snapshot growth _ _ isolated.refines now
      obtain ⟨snapshots, aside⟩ := isolated.spared spares
      refine ⟨_, by rw [SharedMemory.next, taken]; rfl, refines, ?_, ?_, ?_⟩
      · rw [isolated.results, reads]
        rfl
      · rw [List.map_append, snapshots, List.map_singleton, reads]
        rfl
      · intro other member
        rcases List.mem_append.mp member with earlier | last
        · exact aside other earlier
        · exact List.mem_singleton.mp last ▸ beside
  | available backend =>
      refine ⟨_, rfl, isolated.refines, ?_, isolated.snapshots, isolated.aside⟩
      rw [isolated.results, PoolMemory.available, isolated.refines.heap]
      rfl
  | markFailure backend =>
      obtain ⟨snapshots, aside⟩ := isolated.spared (PoolMemory.spares_write backend
        { shared.memory.heap backend with retryAt := some (now + healthCooldown) })
      refine ⟨_, rfl, ?_, ?_, snapshots, aside⟩
      · rw [PoolMemory.markFailure, isolated.refines.heap]
        exact isolated.refines.write _ _
      · rw [isolated.results]
        rfl
  | markSuccess backend =>
      obtain ⟨snapshots, aside⟩ := isolated.spared (PoolMemory.spares_write backend
        { shared.memory.heap backend with retryAt := none })
      refine ⟨_, rfl, ?_, ?_, snapshots, aside⟩
      · rw [PoolMemory.markSuccess, isolated.refines.heap]
        exact isolated.refines.write _ _
      · rw [isolated.results]
        rfl

theorem SharedMemory.Isolated.run (isolated : shared.Isolated listed)
    (calls : List (Int × PoolCall)) :
    ∃ after, runEvents (SharedMemory.next growth) shared calls = some after ∧
      after.Isolated (calls.foldl ListedPool.next listed) := by
  induction calls generalizing shared listed with
  | nil => exact ⟨shared, rfl, isolated⟩
  | cons call calls ih =>
      obtain ⟨reached, taken, still⟩ := @SharedMemory.Isolated.next growth _ _ isolated call
      obtain ⟨after, rest, holds⟩ := ih still
      exact ⟨after, by rw [runEvents_cons, taken]; exact rest, holds⟩

/-- **The pool in memory.** Whatever is called and in whichever order, no call panics, the slice
holds the backends of the pool of lists, the calls return what they return there, and every
snapshot that was handed out reads now as it read when it was taken. -/
theorem pool_memory_refines (growth : Growth) (addresses : List String)
    (calls : List (Int × PoolCall)) :
    ∃ shared, runEvents (SharedMemory.next growth)
        ⟨.newBackendPool growth addresses, [], []⟩ calls = some shared ∧
      shared.memory.arrays.read shared.memory.backends =
        (calls.foldl ListedPool.next ⟨newBackendPool addresses, [], []⟩).pool.backends ∧
      shared.memory.heap =
        (calls.foldl ListedPool.next ⟨newBackendPool addresses, [], []⟩).pool.heap ∧
      shared.results = (calls.foldl ListedPool.next ⟨newBackendPool addresses, [], []⟩).results ∧
      shared.snapshots.map shared.memory.arrays.read =
        (calls.foldl ListedPool.next ⟨newBackendPool addresses, [], []⟩).snapshots := by
  have start : SharedMemory.Isolated ⟨.newBackendPool growth addresses, [], []⟩
      ⟨newBackendPool addresses, [], []⟩ :=
    ⟨PoolMemory.refines_newBackendPool addresses, rfl, rfl, fun _ member => absurd member nofun⟩
  obtain ⟨shared, run, isolated⟩ := @SharedMemory.Isolated.run growth _ _ start calls
  exact ⟨shared, run, isolated.refines.backends, isolated.refines.heap, isolated.results,
    isolated.snapshots⟩

end Runs

end InfraFromScratch.LoadBalancer
