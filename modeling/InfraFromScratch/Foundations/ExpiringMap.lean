import Mathlib

/-!
# Maps whose entries expire, and the slot tables that hold them

An expiring map gives each key at most one value together with a deadline; a
deadline `⊤` never passes. Reading the map at a time sees only the entries whose
deadline is still ahead.

A slot table stores such a map in finitely many slots. It may hold entries whose
deadline has passed, since nothing removes them when they expire. What a table
shows at a time is again only what is still ahead (`Holds`), so it represents a
map when both show the same at every time from now on (`Represents`).

Three facts carry every implementation by slots.

* Emptying a slot whose entry has expired changes nothing that is visible
  (`Represents.release_stale`).
* Emptying the slot of a visible key removes that key and no other
  (`Represents.release`).
* Writing a key into the slot it already occupies, or into a slot with nothing
  visible when the key occupies none, is an update of the map
  (`Represents.write`).

When no key occupies two slots, a table without room shows exactly as many keys
as it has slots (`exists_room_iff`).
-/

set_option autoImplicit false

namespace InfraFromScratch.Foundations

/-- A key with its value and the time at which the value stops being visible. -/
structure Dated (Key Value Time : Type*) where
  key : Key
  value : Value
  deadline : WithTop Time

/-- A map whose entries expire. -/
abbrev ExpiringMap (Key Value Time : Type*) := Key → Option (Value × WithTop Time)

/-- Slots, each empty or holding one dated entry. -/
abbrev SlotTable (Index Key Value Time : Type*) := Index → Option (Dated Key Value Time)

variable {Index Key Value Time : Type*}

/-! ## Tables in which every key has one slot -/

namespace SlotTable

/-- No key occupies two slots, visible or not. -/
def Distinct (table : SlotTable Index Key Value Time) : Prop :=
  ∀ ⦃first second : Index⦄ ⦃one other : Dated Key Value Time⦄,
    table first = some one → table second = some other → one.key = other.key → first = second

theorem distinct_empty : Distinct (fun _ : Index => (none : Option (Dated Key Value Time))) := by
  intro first second one other here
  exact absurd here (by simp)

variable [DecidableEq Index]

theorem Distinct.release {table : SlotTable Index Key Value Time} (distinct : Distinct table)
    (slot : Index) : Distinct (Function.update table slot none) := by
  intro first second one other here there same
  have firstKept : first ≠ slot := by
    rintro rfl
    simp at here
  have secondKept : second ≠ slot := by
    rintro rfl
    simp at there
  rw [Function.update_of_ne firstKept] at here
  rw [Function.update_of_ne secondKept] at there
  exact distinct here there same

/-- A slot may take a key when no other slot has it. -/
theorem Distinct.write {table : SlotTable Index Key Value Time} (distinct : Distinct table)
    {slot : Index} {entry : Dated Key Value Time}
    (nowhereElse : ∀ other held, other ≠ slot → table other = some held → held.key ≠ entry.key) :
    Distinct (Function.update table slot (some entry)) := by
  intro first second one other here there same
  by_cases firstHere : first = slot
  · by_cases secondHere : second = slot
    · rw [firstHere, secondHere]
    · rw [firstHere, Function.update_self] at here
      rw [Function.update_of_ne secondHere] at there
      have equal : entry = one := Option.some.inj here
      exact absurd (equal ▸ same).symm (nowhereElse second other secondHere there)
  · rw [Function.update_of_ne firstHere] at here
    by_cases secondHere : second = slot
    · rw [secondHere, Function.update_self] at there
      have equal : entry = other := Option.some.inj there
      exact absurd (equal ▸ same) (nowhereElse first one firstHere here)
    · rw [Function.update_of_ne secondHere] at there
      exact distinct here there same

end SlotTable

/-! ## What is visible -/

variable [LinearOrder Time]

/-- The map shows the value for the key at the given time. -/
def ExpiringMap.Shows (map : ExpiringMap Key Value Time) (now : Time) (key : Key)
    (value : Value) : Prop :=
  ∃ deadline, map key = some (value, deadline) ∧ (now : WithTop Time) < deadline

/-- The keys the map shows at the given time. -/
def ExpiringMap.liveKeys (map : ExpiringMap Key Value Time) (now : Time) : Set Key :=
  {key | ∃ value, map.Shows now key value}

/-- Reading a key at a time. -/
def ExpiringMap.read (map : ExpiringMap Key Value Time) (now : Time) (key : Key) :
    Option Value :=
  match map key with
  | none => none
  | some (value, deadline) => if (now : WithTop Time) < deadline then some value else none

theorem ExpiringMap.read_eq_some_iff {map : ExpiringMap Key Value Time} {now : Time} {key : Key}
    {value : Value} : map.read now key = some value ↔ map.Shows now key value := by
  unfold ExpiringMap.read ExpiringMap.Shows
  cases map key with
  | none => simp
  | some held =>
      obtain ⟨stored, deadline⟩ := held
      by_cases ahead : (now : WithTop Time) < deadline
      · simp [ahead, eq_comm]
      · simp [ahead]

theorem ExpiringMap.mem_liveKeys_iff {map : ExpiringMap Key Value Time} {now : Time} {key : Key} :
    key ∈ map.liveKeys now ↔ (map.read now key).isSome := by
  rw [Option.isSome_iff_exists]
  exact exists_congr fun value => ExpiringMap.read_eq_some_iff.symm

namespace SlotTable

/-- The slot has an entry, and its deadline is ahead. -/
def Visible (table : SlotTable Index Key Value Time) (now : Time) (slot : Index) : Prop :=
  ∃ entry, table slot = some entry ∧ (now : WithTop Time) < entry.deadline

/-- Some slot shows the value for the key at the given time. -/
def Holds (table : SlotTable Index Key Value Time) (now : Time) (key : Key)
    (value : Value) : Prop :=
  ∃ slot deadline, table slot = some ⟨key, value, deadline⟩ ∧ (now : WithTop Time) < deadline

/-- From now on the table shows what the map shows. -/
def Represents (table : SlotTable Index Key Value Time) (map : ExpiringMap Key Value Time)
    (now : Time) : Prop :=
  ∀ later, now ≤ later → ∀ key value, Holds table later key value ↔ map.Shows later key value

theorem Represents.mono {table : SlotTable Index Key Value Time}
    {map : ExpiringMap Key Value Time} {early late : Time} (order : early ≤ late)
    (represents : Represents table map early) : Represents table map late :=
  fun later past => represents later (order.trans past)

theorem represents_empty (now : Time) :
    Represents (fun _ : Index => (none : Option (Dated Key Value Time))) (fun _ => none) now := by
  intro later _ key value
  simp [Holds, ExpiringMap.Shows]

variable [DecidableEq Index]

/-! ## Emptying a slot -/

/-- What the table shows after a slot was emptied is what the other slots show. -/
theorem holds_release_iff {table : SlotTable Index Key Value Time} {slot : Index} {now : Time}
    {key : Key} {value : Value} :
    Holds (Function.update table slot none) now key value ↔
      ∃ other deadline, other ≠ slot ∧ table other = some ⟨key, value, deadline⟩ ∧
        (now : WithTop Time) < deadline := by
  constructor
  · rintro ⟨other, deadline, found, ahead⟩
    have kept : other ≠ slot := by
      rintro rfl
      simp at found
    rw [Function.update_of_ne kept] at found
    exact ⟨other, deadline, kept, found, ahead⟩
  · rintro ⟨other, deadline, kept, found, ahead⟩
    exact ⟨other, deadline, by rwa [Function.update_of_ne kept], ahead⟩

/-- Emptying a slot with nothing visible changes nothing from then on. -/
theorem Represents.release_stale {table : SlotTable Index Key Value Time}
    {map : ExpiringMap Key Value Time} {now : Time} {slot : Index}
    (represents : Represents table map now) (stale : ¬ Visible table now slot) :
    Represents (Function.update table slot none) map now := by
  intro later past key value
  rw [← represents later past key value, holds_release_iff]
  constructor
  · rintro ⟨other, deadline, _, found, ahead⟩
    exact ⟨other, deadline, found, ahead⟩
  · rintro ⟨other, deadline, found, ahead⟩
    refine ⟨other, deadline, ?_, found, ahead⟩
    rintro rfl
    exact stale ⟨_, found, (WithTop.coe_le_coe.mpr past).trans_lt ahead⟩

variable [DecidableEq Key]

/-- Emptying the slot of a key removes the key and keeps every other. -/
theorem Represents.release {table : SlotTable Index Key Value Time}
    {map : ExpiringMap Key Value Time} {now : Time} {slot : Index}
    {entry : Dated Key Value Time} (represents : Represents table map now)
    (distinct : Distinct table) (occupied : table slot = some entry) :
    Represents (Function.update table slot none) (Function.update map entry.key none) now := by
  intro later past key value
  rw [holds_release_iff]
  by_cases same : key = entry.key
  · subst same
    simp only [ExpiringMap.Shows, Function.update_self, reduceCtorEq, false_and, exists_false,
      iff_false]
    rintro ⟨other, deadline, kept, found, _⟩
    exact kept (distinct found occupied rfl)
  · simp only [ExpiringMap.Shows, Function.update_of_ne same]
    rw [← ExpiringMap.Shows, ← represents later past key value]
    constructor
    · rintro ⟨other, deadline, _, found, ahead⟩
      exact ⟨other, deadline, found, ahead⟩
    · rintro ⟨other, deadline, found, ahead⟩
      refine ⟨other, deadline, ?_, found, ahead⟩
      rintro rfl
      rw [occupied] at found
      exact same (congrArg Dated.key (Option.some.inj found)).symm

/-! ## Writing a slot -/

/-- Writing a slot is an update of the map, provided no other slot has the key
and nothing else was visible in the slot. -/
theorem Represents.write {table : SlotTable Index Key Value Time}
    {map : ExpiringMap Key Value Time} {now : Time} {slot : Index}
    {entry : Dated Key Value Time} (represents : Represents table map now)
    (nowhereElse : ∀ other held, other ≠ slot → table other = some held → held.key ≠ entry.key)
    (replaced : ∀ held, table slot = some held → (now : WithTop Time) < held.deadline →
      held.key = entry.key) :
    Represents (Function.update table slot (some entry))
      (Function.update map entry.key (some (entry.value, entry.deadline))) now := by
  intro later past key value
  by_cases same : key = entry.key
  · subst same
    simp only [ExpiringMap.Shows, Function.update_self, Option.some.injEq, Prod.mk.injEq]
    constructor
    · rintro ⟨other, deadline, found, ahead⟩
      by_cases here : other = slot
      · rw [here, Function.update_self] at found
        rw [Option.some.inj found]
        exact ⟨deadline, ⟨rfl, rfl⟩, ahead⟩
      · rw [Function.update_of_ne here] at found
        exact absurd rfl (nowhereElse other ⟨entry.key, value, deadline⟩ here found)
    · rintro ⟨deadline, ⟨sameValue, sameDeadline⟩, ahead⟩
      subst sameValue sameDeadline
      exact ⟨slot, entry.deadline, Function.update_self .., ahead⟩
  · simp only [ExpiringMap.Shows, Function.update_of_ne same]
    rw [← ExpiringMap.Shows, ← represents later past key value]
    constructor
    · rintro ⟨other, deadline, found, ahead⟩
      by_cases here : other = slot
      · rw [here, Function.update_self] at found
        exact absurd (congrArg Dated.key (Option.some.inj found)).symm same
      · rw [Function.update_of_ne here] at found
        exact ⟨other, deadline, found, ahead⟩
    · rintro ⟨other, deadline, found, ahead⟩
      refine ⟨other, deadline, ?_, ahead⟩
      have kept : other ≠ slot := by
        rintro rfl
        exact same (replaced _ found ((WithTop.coe_le_coe.mpr past).trans_lt ahead))
      rwa [Function.update_of_ne kept]

omit [DecidableEq Index] [DecidableEq Key]

/-! ## Room -/

/-- The keys the table shows are those of its visible slots. -/
theorem Represents.mem_liveKeys_iff {table : SlotTable Index Key Value Time}
    {map : ExpiringMap Key Value Time} {now : Time} (represents : Represents table map now)
    {key : Key} :
    key ∈ map.liveKeys now ↔
      ∃ slot entry, table slot = some entry ∧ (now : WithTop Time) < entry.deadline ∧
        entry.key = key := by
  simp only [ExpiringMap.liveKeys, Set.mem_ofPred_eq, ← represents now le_rfl key]
  constructor
  · rintro ⟨value, slot, deadline, found, ahead⟩
    exact ⟨slot, _, found, ahead, rfl⟩
  · rintro ⟨slot, entry, found, ahead, rfl⟩
    exact ⟨entry.value, slot, entry.deadline, found, ahead⟩

/-- **Room.** A table in which no key occupies two slots has a slot with nothing
visible exactly when fewer keys are visible than there are slots. -/
theorem exists_room_iff [Fintype Index] {table : SlotTable Index Key Value Time}
    {map : ExpiringMap Key Value Time} {now : Time} (represents : Represents table map now)
    (distinct : Distinct table) :
    (∃ slot, ¬ Visible table now slot) ↔
      (map.liveKeys now).encard < (Fintype.card Index : ℕ∞) := by
  -- The live keys and the visible slots are in bijection through the key of a slot.
  set visible : Set Index := {slot | Visible table now slot} with visibleDef
  have image : some '' map.liveKeys now = (fun slot => (table slot).map Dated.key) '' visible := by
    ext key
    simp only [Set.mem_image, represents.mem_liveKeys_iff]
    constructor
    · rintro ⟨_, ⟨slot, entry, found, ahead, rfl⟩, rfl⟩
      exact ⟨slot, ⟨entry, found, ahead⟩, by simp [found]⟩
    · rintro ⟨slot, ⟨entry, found, ahead⟩, rfl⟩
      exact ⟨entry.key, ⟨slot, entry, found, ahead, rfl⟩, by simp [found]⟩
  have injective : Set.InjOn (fun slot => (table slot).map Dated.key) visible := by
    rintro first ⟨one, here, _⟩ second ⟨other, there, _⟩ same
    exact distinct here there (by simpa [here, there] using same)
  have counted : (map.liveKeys now).encard = visible.encard := by
    rw [← (Option.some_injective Key).encard_image, image, injective.encard_image]
  have roomIff : (∃ slot, ¬ Visible table now slot) ↔ visible ≠ Set.univ := by
    rw [visibleDef, Set.ne_univ_iff_exists_notMem]
    rfl
  rw [counted, roomIff, ← ENat.card_eq_coe_fintype_card]
  constructor
  · exact (Set.toFinite visible).encard_lt_card
  · rintro fewer everything
    rw [everything, Set.encard_univ] at fewer
    exact lt_irrefl _ fewer

end SlotTable

end InfraFromScratch.Foundations
