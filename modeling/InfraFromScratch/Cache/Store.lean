import InfraFromScratch.Foundations.Bytes
import InfraFromScratch.Foundations.ExpiringMap

/-!
# The slot array of the cache

`in-mem-cache/server.c` keeps its entries in a fixed array of slots. Expiry is
lazy: an entry past its deadline stays in its slot until `lookup` finds it under
its key or `free_slot` reuses it. The three sections below are what `handle_line`
does between locking and unlocking `store_mutex`.

The array is read as a slot table with deadlines (`Store.table`). The lemmas
`lookup_cases` and `freeSlot_cases` say all that one search can do; everything
later is derived from them.
-/

set_option autoImplicit false

namespace InfraFromScratch.Cache

open Foundations

/-- `STORE_CAP`. -/
def storeCap : Nat := 1024

/-- One slot of the array. `value` has length `vlen`, and neither `key` nor `value`
contains its terminating NUL. -/
structure Entry where
  used : Bool
  key : Bytes
  value : Bytes
  expiresAtMs : Int
  hasExpiry : Bool
  deriving DecidableEq, Repr

abbrev Slot := Fin storeCap

/-- `static struct entry store[STORE_CAP]`. -/
abbrev Store := Slot → Entry

/-- The array before the first command: static storage, all zero. -/
def emptyStore : Store := fun _ => ⟨false, [], [], 0, false⟩

/-- `has_expiry && now >= expires_at_ms`. -/
def Entry.stale (entry : Entry) (now : Int) : Bool :=
  entry.hasExpiry && decide (entry.expiresAtMs ≤ now)

/-- `store[i].used = 0`. -/
def release (store : Store) (slot : Slot) : Store :=
  Function.update store slot { store slot with used := false }

/-- `lookup`: the first used slot with the key, freed when its entry is stale. -/
def lookup (store : Store) (key : Bytes) (now : Int) : Store × Option Slot :=
  match (List.finRange storeCap).find? fun slot => (store slot).used && (store slot).key == key with
  | none => (store, none)
  | some slot =>
      if (store slot).stale now then (release store slot, none) else (store, some slot)

/-- `free_slot`: the first slot that is unused or stale. -/
def freeSlot (store : Store) (now : Int) : Store × Option Slot :=
  match (List.finRange storeCap).find? fun slot => !(store slot).used || (store slot).stale now with
  | none => (store, none)
  | some slot => (release store slot, some slot)

/-- What a command answers, before it is formatted. -/
inductive Reply where
  | value (value : Bytes)
  | notFound
  | ok
  | error
  deriving DecidableEq, Repr

/-! ## The sections under the mutex -/

/-- The section of `GET`: the value is copied while the mutex is held. -/
def getSection (store : Store) (key : Bytes) (now : Int) : Store × Reply :=
  match lookup store key now with
  | (store, none) => (store, .notFound)
  | (store, some slot) => (store, .value (store slot).value)

/-- The section of `DELETE`. -/
def deleteSection (store : Store) (key : Bytes) (now : Int) : Store × Reply :=
  match lookup store key now with
  | (store, none) => (store, .notFound)
  | (store, some slot) => (release store slot, .ok)

/-- The entry that `SET` leaves in its slot. `expires_at_ms` keeps its old content
when the entry does not expire. -/
def writtenEntry (old : Entry) (key value : Bytes) (ttl : Nat) (now : Int) : Entry where
  used := true
  key := key
  value := value
  expiresAtMs := if ttl = 0 then old.expiresAtMs else now + ttl * 1000
  hasExpiry := ttl != 0

/-- `SET` stores its entry in the slot it settled on. -/
def writeSlot (store : Store) (slot : Slot) (key value : Bytes) (ttl : Nat) (now : Int) : Store :=
  Function.update store slot (writtenEntry (store slot) key value ttl now)

/-- The section of `SET`: the slot of the key, else a free one, else nothing. -/
def setSection (store : Store) (key value : Bytes) (ttl : Nat) (now : Int) : Store × Reply :=
  match lookup store key now with
  | (store, some slot) => (writeSlot store slot key value ttl now, .ok)
  | (store, none) =>
      match freeSlot store now with
      | (store, some slot) => (writeSlot store slot key value ttl now, .ok)
      | (store, none) => (store, .error)

section Outcomes

variable {store after : Store} {key : Bytes} {now : Int} {slot : Slot}

theorem getSection_of_some (found : lookup store key now = (after, some slot)) :
    getSection store key now = (after, .value (after slot).value) := by
  unfold getSection
  rw [found]

theorem getSection_of_none (missing : lookup store key now = (after, none)) :
    getSection store key now = (after, .notFound) := by
  unfold getSection
  rw [missing]

theorem deleteSection_of_some (found : lookup store key now = (after, some slot)) :
    deleteSection store key now = (release after slot, .ok) := by
  unfold deleteSection
  rw [found]

theorem deleteSection_of_none (missing : lookup store key now = (after, none)) :
    deleteSection store key now = (after, .notFound) := by
  unfold deleteSection
  rw [missing]

theorem setSection_of_some (found : lookup store key now = (after, some slot)) (value : Bytes)
    (ttl : Nat) :
    setSection store key value ttl now = (writeSlot after slot key value ttl now, .ok) := by
  unfold setSection
  rw [found]

theorem setSection_of_free {freed : Store} (missing : lookup store key now = (after, none))
    (taken : freeSlot after now = (freed, some slot)) (value : Bytes) (ttl : Nat) :
    setSection store key value ttl now = (writeSlot freed slot key value ttl now, .ok) := by
  unfold setSection
  rw [missing]
  dsimp only
  rw [taken]

theorem setSection_of_full {freed : Store} (missing : lookup store key now = (after, none))
    (full : freeSlot after now = (freed, none)) (value : Bytes) (ttl : Nat) :
    setSection store key value ttl now = (freed, .error) := by
  unfold setSection
  rw [missing]
  dsimp only
  rw [full]

end Outcomes

/-! ## The array as a slot table -/

/-- The deadline of a used slot. -/
def Entry.deadline (entry : Entry) : WithTop Int :=
  if entry.hasExpiry then (entry.expiresAtMs : WithTop Int) else ⊤

/-- What a slot holds, if it is used. -/
def Entry.dated (entry : Entry) : Option (Dated Bytes Bytes Int) :=
  if entry.used then some ⟨entry.key, entry.value, entry.deadline⟩ else none

/-- The used slots with their keys, values and deadlines. -/
def Store.table (store : Store) : SlotTable Slot Bytes Bytes Int := fun slot => (store slot).dated

theorem Entry.stale_iff (entry : Entry) (now : Int) :
    entry.stale now = true ↔ ¬ (now : WithTop Int) < entry.deadline := by
  cases hasExpiry : entry.hasExpiry with
  | false => simp [Entry.stale, Entry.deadline, hasExpiry]
  | true => simp [Entry.stale, Entry.deadline, hasExpiry, WithTop.coe_lt_coe]

theorem Entry.dated_eq_some_iff {entry : Entry} {dated : Dated Bytes Bytes Int} :
    entry.dated = some dated ↔
      entry.used = true ∧ dated = ⟨entry.key, entry.value, entry.deadline⟩ := by
  cases used : entry.used with
  | false => simp [Entry.dated, used]
  | true => simp [Entry.dated, used, eq_comm]

@[simp] theorem table_release (store : Store) (slot : Slot) :
    Store.table (release store slot) = Function.update (Store.table store) slot none := by
  funext other
  by_cases here : other = slot
  · subst here
    simp [Store.table, release, Entry.dated]
  · simp [Store.table, release, Function.update_of_ne here]

/-- The deadline `SET` gives its entry. -/
def ttlDeadline (ttl : Nat) (now : Int) : WithTop Int :=
  if ttl = 0 then ⊤ else ((now + ttl * 1000 : Int) : WithTop Int)

@[simp] theorem table_writeSlot (store : Store) (slot : Slot) (key value : Bytes) (ttl : Nat)
    (now : Int) :
    Store.table (writeSlot store slot key value ttl now) =
      Function.update (Store.table store) slot (some ⟨key, value, ttlDeadline ttl now⟩) := by
  funext other
  by_cases here : other = slot
  · subst here
    by_cases endless : ttl = 0
    · simp [Store.table, writeSlot, writtenEntry, Entry.dated, Entry.deadline, ttlDeadline, endless]
    · simp [Store.table, writeSlot, writtenEntry, Entry.dated, Entry.deadline, ttlDeadline, endless]
  · simp [Store.table, writeSlot, Function.update_of_ne here]

/-! ## What a search can do -/

/-- A slot is visible exactly when it is used and its entry is not stale. -/
theorem visible_iff (store : Store) (now : Int) (slot : Slot) :
    SlotTable.Visible (Store.table store) now slot ↔
      (store slot).used = true ∧ (store slot).stale now = false := by
  rw [← Bool.not_eq_true, Entry.stale_iff, not_not]
  constructor
  · rintro ⟨dated, found, ahead⟩
    obtain ⟨used, rfl⟩ := Entry.dated_eq_some_iff.mp found
    exact ⟨used, ahead⟩
  · rintro ⟨used, ahead⟩
    exact ⟨_, Entry.dated_eq_some_iff.mpr ⟨used, rfl⟩, ahead⟩

/-- **All that `lookup` can do.** It returns the visible slot of the key and
changes nothing; or it frees the slot of the key because its entry is stale; or
no slot has the key and it changes nothing. -/
theorem lookup_cases (store : Store) (key : Bytes) (now : Int) :
    (∃ slot, lookup store key now = (store, some slot) ∧
      SlotTable.Visible (Store.table store) now slot ∧ (store slot).used = true ∧
        (store slot).key = key) ∨
    (∃ slot, lookup store key now = (release store slot, none) ∧
      ¬ SlotTable.Visible (Store.table store) now slot ∧ (store slot).used = true ∧
        (store slot).key = key) ∨
    (lookup store key now = (store, none) ∧
      ∀ slot, (store slot).used = true → (store slot).key ≠ key) := by
  unfold lookup
  cases found : (List.finRange storeCap).find?
      fun slot => (store slot).used && (store slot).key == key with
  | none =>
      refine .inr (.inr ⟨rfl, fun slot used same => ?_⟩)
      have missed := List.find?_eq_none.mp found slot (List.mem_finRange slot)
      simp [used, same] at missed
  | some slot =>
      have matched := List.find?_some found
      simp only [Bool.and_eq_true, beq_iff_eq] at matched
      cases stale : (store slot).stale now with
      | true =>
          refine .inr (.inl ⟨slot, by simp [stale], ?_, matched⟩)
          simp [visible_iff, stale]
      | false =>
          refine .inl ⟨slot, by simp [stale], ?_, matched⟩
          simp [visible_iff, stale, matched.1]

/-- **All that `free_slot` can do.** It frees and returns a slot with nothing
visible, or every slot is visible and it changes nothing. -/
theorem freeSlot_cases (store : Store) (now : Int) :
    (∃ slot, freeSlot store now = (release store slot, some slot) ∧
      ¬ SlotTable.Visible (Store.table store) now slot) ∨
    (freeSlot store now = (store, none) ∧
      ∀ slot, SlotTable.Visible (Store.table store) now slot) := by
  unfold freeSlot
  cases found : (List.finRange storeCap).find?
      fun slot => !(store slot).used || (store slot).stale now with
  | none =>
      refine .inr ⟨rfl, fun slot => ?_⟩
      have missed := List.find?_eq_none.mp found slot (List.mem_finRange slot)
      simpa [visible_iff] using missed
  | some slot =>
      have matched := List.find?_some found
      refine .inl ⟨slot, rfl, ?_⟩
      rw [visible_iff]
      rintro ⟨used, fresh⟩
      simp [used, fresh] at matched

-- The case lemmas above are the interface; unfolding a search over all slots never pays.
attribute [irreducible] lookup freeSlot

end InfraFromScratch.Cache
