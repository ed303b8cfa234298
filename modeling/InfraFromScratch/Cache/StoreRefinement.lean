import InfraFromScratch.Cache.Store
import InfraFromScratch.Foundations.ReplyMachine

/-!
# The slot array refines a finite map

Abstractly the cache is a map from keys to a value and an optional deadline.
`GET` reads it, `DELETE` removes a live key, and `SET` updates it when the key is
live or fewer than `storeCap` keys are. Slots, reuse and lazy expiry do not
appear.

The slot array simulates this map (`execute_simulates`): as long as no key
occupies two slots and the array shows from now on what the map shows, every
command gets the same reply from both and the two stay related. The count in the
rule for `SET` is the room lemma of slot tables.
-/

set_option autoImplicit false

namespace InfraFromScratch.Cache

open Foundations

/-- A command with its parsed arguments. -/
inductive Command where
  | get (key : Bytes)
  | delete (key : Bytes)
  | set (key : Bytes) (ttl : Nat) (value : Bytes)
  deriving DecidableEq, Repr

/-- Run the section of a command under the mutex, at the time read there. -/
def execute (store : Store) (now : Int) : Command → Store × Reply
  | .get key => getSection store key now
  | .delete key => deleteSection store key now
  | .set key ttl value => setSection store key value ttl now

/-! ## The abstract cache -/

/-- Keys with their values and optional deadlines. -/
abbrev AbstractCache := ExpiringMap Bytes Bytes Int

namespace AbstractCache

/-- The key is live, or fewer keys are live than the store has slots. -/
def Accepts (map : AbstractCache) (now : Int) (key : Bytes) : Prop :=
  key ∈ map.liveKeys now ∨ (map.liveKeys now).encard < storeCap

open Classical in
/-- The effect and the reply of a command on the abstract cache. -/
noncomputable def execute (map : AbstractCache) (now : Int) : Command → AbstractCache × Reply
  | .get key =>
      match map.read now key with
      | some value => (map, .value value)
      | none => (map, .notFound)
  | .delete key =>
      match map.read now key with
      | some _ => (Function.update map key none, .ok)
      | none => (map, .notFound)
  | .set key ttl value =>
      if map.Accepts now key then
        (Function.update map key (some (value, ttlDeadline ttl now)), .ok)
      else (map, .error)

end AbstractCache

/-! ## The simulation -/

/-- The array has one slot for each key and shows from now on what the map shows. -/
structure Simulates (now : Int) (store : Store) (map : AbstractCache) : Prop where
  distinct : SlotTable.Distinct (Store.table store)
  represents : SlotTable.Represents (Store.table store) map now

theorem Simulates.mono {early late : Int} {store : Store} {map : AbstractCache}
    (order : early ≤ late) (related : Simulates early store map) : Simulates late store map :=
  ⟨related.distinct, related.represents.mono order⟩

theorem simulates_empty (now : Int) : Simulates now emptyStore fun _ => none :=
  ⟨SlotTable.distinct_empty, SlotTable.represents_empty now⟩

/-- **`lookup` reads the map.** It finds the slot that shows the key, or the map
does not show the key and afterwards no slot has it. -/
theorem Simulates.lookup {now : Int} {store : Store} {map : AbstractCache}
    (related : Simulates now store map) (key : Bytes) :
    (∃ slot, Cache.lookup store key now = (store, some slot) ∧ (store slot).used = true ∧
      (store slot).key = key ∧ map.read now key = some (store slot).value) ∨
    (∃ freed, Cache.lookup store key now = (freed, none) ∧ Simulates now freed map ∧
      map.read now key = none ∧
        ∀ slot held, Store.table freed slot = some held → held.key ≠ key) := by
  rcases lookup_cases store key now with ⟨slot, equation, visible, used, same⟩ |
    ⟨slot, equation, stale, used, same⟩ | ⟨equation, absent⟩
  · refine .inl ⟨slot, equation, used, same, ?_⟩
    obtain ⟨dated, found, ahead⟩ := visible
    obtain ⟨-, rfl⟩ := Entry.dated_eq_some_iff.mp found
    rw [ExpiringMap.read_eq_some_iff, ← related.represents now le_rfl]
    exact ⟨slot, _, by rw [found, same], ahead⟩
  · have occupied : Store.table store slot =
        some ⟨(store slot).key, (store slot).value, (store slot).deadline⟩ :=
      Entry.dated_eq_some_iff.mpr ⟨used, rfl⟩
    have stillRelated : Simulates now (release store slot) map := by
      refine ⟨?_, ?_⟩
      · rw [table_release]
        exact related.distinct.release slot
      · rw [table_release]
        exact related.represents.release_stale stale
    refine .inr ⟨release store slot, equation, stillRelated, ?_, ?_⟩
    · rw [Option.eq_none_iff_forall_ne_some]
      intro value shown
      rw [ExpiringMap.read_eq_some_iff, ← related.represents now le_rfl] at shown
      obtain ⟨other, deadline, found, ahead⟩ := shown
      have here : other = slot := related.distinct found occupied same.symm
      subst here
      exact stale ⟨_, found, ahead⟩
    · intro other held found
      rw [table_release] at found
      have kept : other ≠ slot := by
        rintro rfl
        simp at found
      rw [Function.update_of_ne kept] at found
      intro sameKey
      exact kept (related.distinct found occupied (sameKey.trans same.symm))
  · have absentTable : ∀ slot held, Store.table store slot = some held → held.key ≠ key := by
      intro slot held found
      obtain ⟨used, rfl⟩ := Entry.dated_eq_some_iff.mp found
      exact absent slot used
    refine .inr ⟨store, equation, related, ?_, absentTable⟩
    rw [Option.eq_none_iff_forall_ne_some]
    intro value shown
    rw [ExpiringMap.read_eq_some_iff, ← related.represents now le_rfl] at shown
    obtain ⟨other, deadline, found, _⟩ := shown
    exact absentTable other _ found rfl

/-- Writing into a slot keeps the simulation when no other slot has the key and
nothing else is visible in the slot. -/
theorem Simulates.write {now : Int} {store : Store} {map : AbstractCache}
    (related : Simulates now store map) {slot : Slot} {key value : Bytes} {ttl : Nat}
    (nowhereElse : ∀ other held, other ≠ slot → Store.table store other = some held →
      held.key ≠ key)
    (replaced : ∀ held, Store.table store slot = some held →
      (now : WithTop Int) < held.deadline → held.key = key) :
    Simulates now (writeSlot store slot key value ttl now)
      (Function.update map key (some (value, ttlDeadline ttl now))) := by
  refine ⟨?_, ?_⟩
  · rw [table_writeSlot]
    exact related.distinct.write nowhereElse
  · rw [table_writeSlot]
    exact related.represents.write nowhereElse replaced

/-- Writing over a slot that `free_slot` just freed is writing the slot. -/
theorem table_writeSlot_release (store : Store) (slot : Slot) (key value : Bytes) (ttl : Nat)
    (now : Int) :
    Store.table (writeSlot (release store slot) slot key value ttl now) =
      Store.table (writeSlot store slot key value ttl now) := by
  rw [table_writeSlot, table_writeSlot, table_release, Function.update_idem]

theorem getSection_simulates {now : Int} {store : Store} {map : AbstractCache}
    (related : Simulates now store map) (key : Bytes) :
    (getSection store key now).2 = (map.execute now (.get key)).2 ∧
      Simulates now (getSection store key now).1 (map.execute now (.get key)).1 := by
  rcases related.lookup key with ⟨slot, equation, _, _, read⟩ | ⟨freed, equation, still, read, _⟩
  · rw [getSection_of_some equation, AbstractCache.execute, read]
    exact ⟨rfl, related⟩
  · rw [getSection_of_none equation, AbstractCache.execute, read]
    exact ⟨rfl, still⟩

theorem deleteSection_simulates {now : Int} {store : Store} {map : AbstractCache}
    (related : Simulates now store map) (key : Bytes) :
    (deleteSection store key now).2 = (map.execute now (.delete key)).2 ∧
      Simulates now (deleteSection store key now).1 (map.execute now (.delete key)).1 := by
  rcases related.lookup key with ⟨slot, equation, used, same, read⟩ | ⟨freed, equation, still, read, _⟩
  · rw [deleteSection_of_some equation, AbstractCache.execute, read]
    have occupied : Store.table store slot =
        some ⟨(store slot).key, (store slot).value, (store slot).deadline⟩ :=
      Entry.dated_eq_some_iff.mpr ⟨used, rfl⟩
    refine ⟨rfl, ?_, ?_⟩
    · rw [table_release]
      exact related.distinct.release slot
    · rw [table_release, ← same]
      exact related.represents.release related.distinct occupied
  · rw [deleteSection_of_none equation, AbstractCache.execute, read]
    exact ⟨rfl, still⟩

/-- The map accepts the key when it shows it. -/
theorem AbstractCache.accepts_of_read {map : AbstractCache} {now : Int} {key value : Bytes}
    (read : map.read now key = some value) : map.Accepts now key :=
  .inl (ExpiringMap.mem_liveKeys_iff.mpr (by rw [read]; rfl))

/-- A key the map does not show is accepted exactly when some slot shows
nothing. -/
theorem Simulates.accepts_iff_room {now : Int} {store : Store} {map : AbstractCache}
    (related : Simulates now store map) {key : Bytes} (read : map.read now key = none) :
    map.Accepts now key ↔ ∃ slot, ¬ SlotTable.Visible (Store.table store) now slot := by
  have dead : key ∉ map.liveKeys now := by
    rw [ExpiringMap.mem_liveKeys_iff, read]
    simp
  rw [SlotTable.exists_room_iff related.represents related.distinct, Fintype.card_fin,
    AbstractCache.Accepts]
  exact or_iff_right dead

theorem setSection_simulates {now : Int} {store : Store} {map : AbstractCache}
    (related : Simulates now store map) (key value : Bytes) (ttl : Nat) :
    (setSection store key value ttl now).2 = (map.execute now (.set key ttl value)).2 ∧
      Simulates now (setSection store key value ttl now).1
        (map.execute now (.set key ttl value)).1 := by
  rcases related.lookup key with ⟨slot, equation, used, same, read⟩ |
    ⟨freed, equation, still, read, absent⟩
  · have accepted : map.Accepts now key := AbstractCache.accepts_of_read read
    have occupied : Store.table store slot =
        some ⟨(store slot).key, (store slot).value, (store slot).deadline⟩ :=
      Entry.dated_eq_some_iff.mpr ⟨used, rfl⟩
    rw [setSection_of_some equation, AbstractCache.execute, if_pos accepted]
    refine ⟨rfl, related.write ?_ ?_⟩
    · intro other held elsewhere found sameKey
      exact elsewhere (related.distinct found occupied (sameKey.trans same.symm))
    · intro held found _
      rw [occupied] at found
      rw [← Option.some.inj found, same]
  · rcases freeSlot_cases freed now with ⟨slot, taken, stale⟩ | ⟨full, visible⟩
    · have accepted : map.Accepts now key := (still.accepts_iff_room read).mpr ⟨slot, stale⟩
      rw [setSection_of_free equation taken, AbstractCache.execute, if_pos accepted]
      have written : Simulates now (writeSlot freed slot key value ttl now)
          (Function.update map key (some (value, ttlDeadline ttl now))) :=
        still.write (fun other held _ found => absent other held found)
          (fun held found ahead => absurd ⟨held, found, ahead⟩ stale)
      refine ⟨rfl, ?_, ?_⟩
      · rw [table_writeSlot_release]
        exact written.distinct
      · rw [table_writeSlot_release]
        exact written.represents
    · have refused : ¬ map.Accepts now key := by
        rw [still.accepts_iff_room read]
        rintro ⟨slot, stale⟩
        exact stale (visible slot)
      rw [setSection_of_full equation full, AbstractCache.execute, if_neg refused]
      exact ⟨rfl, still⟩

/-- **One command.** Related states give the same reply and stay related. -/
theorem execute_simulates {now : Int} {store : Store} {map : AbstractCache}
    (related : Simulates now store map) (command : Command) :
    (execute store now command).2 = (map.execute now command).2 ∧
      Simulates now (execute store now command).1 (map.execute now command).1 := by
  cases command with
  | get key => exact getSection_simulates related key
  | delete key => exact deleteSection_simulates related key
  | set key ttl value => exact setSection_simulates related key value ttl

end InfraFromScratch.Cache
