import Mathlib

/-!
# Slices over shared arrays

A slice in Go is a window on an array that other slices may share. `append` writes behind the
window where the array has room, and otherwise moves to a new array. Two idioms work in place:
a filter that appends to the empty front of the slice it ranges over, and a deletion that appends
what follows an element to what precedes it. Both leave what the list functions of these names
give (`filterInPlace_spec`, `deleteAt_spec`).

What a slice reads changes only by writes to its own array, so a slice with an array of its own
keeps its elements (`Writes.read_of_apart`).
-/

set_option autoImplicit false

namespace InfraFromScratch.Foundations

variable {Element : Type}

/-- Arrays by number. Those from `next` on are not allocated yet. -/
structure Arrays (Element : Type) where
  cells : Nat → List Element
  next : Nat

/-- A window on an array: where it starts, how long it is, and how far it may grow. -/
structure Slice where
  array : Nat
  offset : Nat
  length : Nat
  capacity : Nat
  deriving DecidableEq, Repr

/-- `nil`. -/
def Slice.none : Slice := ⟨0, 0, 0, 0⟩

/-- The capacity that `append` chooses for a new array is at least what it needs. -/
structure Growth where
  capacity : Nat → Nat → Nat
  enough : ∀ old needed, needed ≤ capacity old needed

/-- The slice is inside an array that was allocated, unless it has no room at all. -/
structure Slice.Valid (memory : Arrays Element) (slice : Slice) : Prop where
  short : slice.length ≤ slice.capacity
  inside : slice.capacity ≠ 0 → slice.array < memory.next ∧
    slice.offset + slice.capacity ≤ (memory.cells slice.array).length

/-- The slices have no array in common. -/
def Slice.Apart (one other : Slice) : Prop :=
  one.capacity ≠ 0 → other.capacity ≠ 0 → other.array ≠ one.array

/-- `slice[low:high]`, or nothing where it panics. -/
def Slice.reslice (slice : Slice) (low high : Nat) : Option Slice :=
  if low ≤ high ∧ high ≤ slice.capacity then
    some ⟨slice.array, slice.offset + low, high - low, slice.capacity - low⟩
  else Option.none

namespace Arrays

/-- The elements of a slice. -/
def read (memory : Arrays Element) (slice : Slice) : List Element :=
  ((memory.cells slice.array).drop slice.offset).take slice.length

/-- `slice[index]`, or nothing where it panics. -/
def get (memory : Arrays Element) (slice : Slice) (index : Nat) : Option Element :=
  if index < slice.length then (memory.cells slice.array)[slice.offset + index]? else Option.none

/-- Cells with some of them overwritten. -/
def overwrite (cells : List Element) (index : Nat) (elements : List Element) : List Element :=
  cells.take index ++ elements ++ cells.drop (index + elements.length)

/-- Write elements into an array. -/
def store (memory : Arrays Element) (array index : Nat) (elements : List Element) :
    Arrays Element :=
  { memory with
    cells := Function.update memory.cells array
      (overwrite (memory.cells array) index elements) }

/-- A new array with the given cells. -/
def allocate (memory : Arrays Element) (cells : List Element) : Arrays Element where
  cells := Function.update memory.cells memory.next cells
  next := memory.next + 1

/-! ## Overwriting cells -/

section Overwrite

variable {cells elements : List Element} {index : Nat}

@[simp] theorem overwrite_nil (cells : List Element) (index : Nat) :
    overwrite cells index [] = cells := by
  simp [overwrite]

theorem length_overwrite (fits : index + elements.length ≤ cells.length) :
    (overwrite cells index elements).length = cells.length := by
  simp only [overwrite, List.length_append, List.length_take, List.length_drop]
  omega

/-- Writing on behind what was written. -/
theorem overwrite_overwrite (fits : index + elements.length ≤ cells.length)
    (more : List Element) :
    overwrite (overwrite cells index elements) (index + elements.length) more =
      overwrite cells index (elements ++ more) := by
  have front : (cells.take index ++ elements).length = index + elements.length := by
    rw [List.length_append, List.length_take]
    omega
  have early : (overwrite cells index elements).take (index + elements.length) =
      cells.take index ++ elements := by
    rw [overwrite, ← front, List.take_left]
  have late : (overwrite cells index elements).drop (index + elements.length + more.length) =
      cells.drop (index + (elements ++ more).length) := by
    rw [← List.drop_drop, overwrite, ← front, List.drop_left, List.drop_drop, front,
      List.length_append, Nat.add_assoc]
  rw [overwrite, early, late, overwrite]
  simp only [List.append_assoc]

/-- What stands behind the written cells is still there. -/
theorem getElem?_overwrite_of_ge {place : Nat} (fits : index ≤ cells.length)
    (behind : index + elements.length ≤ place) :
    (overwrite cells index elements)[place]? = cells[place]? := by
  have front : (cells.take index ++ elements).length = index + elements.length := by
    rw [List.length_append, List.length_take]
    omega
  rw [overwrite, List.getElem?_append_right (by omega), front, List.getElem?_drop]
  congr 1
  omega

/-- A window that ends with the written cells. -/
theorem window_overwrite {start count : Nat}
    (fits : start + count + elements.length ≤ cells.length) :
    ((overwrite cells (start + count) elements).drop start).take (count + elements.length) =
      (cells.drop start).take count ++ elements := by
  have front : (cells.take (start + count)).length = start + count := by
    rw [List.length_take]
    omega
  have window : (cells.take (start + count)).drop start = (cells.drop start).take count := by
    rw [List.drop_take, Nat.add_sub_cancel_left]
  have size : ((cells.drop start).take count ++ elements).length = count + elements.length := by
    rw [List.length_append, List.length_take, List.length_drop]
    omega
  rw [overwrite, List.append_assoc, List.drop_append_of_le_length (by omega), window,
    ← List.append_assoc, ← size, List.take_left]

end Overwrite

/-! ## What a write leaves -/

/-- The later memory differs from the earlier one in the array of the slice only, apart from new
arrays. -/
structure Writes (memory after : Arrays Element) (slice : Slice) : Prop where
  later : memory.next ≤ after.next
  length : ∀ array < memory.next, (after.cells array).length = (memory.cells array).length
  kept : ∀ array < memory.next, (slice.capacity ≠ 0 → array ≠ slice.array) →
    after.cells array = memory.cells array

theorem Writes.refl (memory : Arrays Element) (slice : Slice) : Writes memory memory slice :=
  ⟨Nat.le_refl _, fun _ _ => rfl, fun _ _ _ => rfl⟩

section Writes

variable {memory after : Arrays Element} {slice other : Slice}

theorem length_read (valid : slice.Valid memory) : (memory.read slice).length = slice.length := by
  have short := valid.short
  by_cases room : slice.capacity = 0
  · rw [read, List.length_take]
    omega
  · have inside := (valid.inside room).2
    rw [read, List.length_take, List.length_drop]
    omega

theorem read_of_empty (empty : slice.length = 0) : memory.read slice = [] := by
  rw [read, empty, List.take_zero]

theorem Writes.valid (writes : Writes memory after slice) (valid : other.Valid memory) :
    other.Valid after := by
  refine ⟨valid.short, fun room => ?_⟩
  obtain ⟨allocated, inside⟩ := valid.inside room
  rw [writes.length other.array allocated]
  exact ⟨allocated.trans_le writes.later, inside⟩

/-- **A slice on another array** reads what it read before. -/
theorem Writes.read_of_apart (writes : Writes memory after slice) (valid : other.Valid memory)
    (apart : slice.Apart other) : after.read other = memory.read other := by
  by_cases room : other.capacity = 0
  · have empty : other.length = 0 := Nat.le_zero.mp (room ▸ valid.short)
    rw [read_of_empty empty, read_of_empty empty]
  · rw [read, writes.kept other.array (valid.inside room).1 fun writable => apart writable room,
      read]

theorem writes_store {index : Nat} {elements : List Element} (room : slice.capacity ≠ 0)
    (fits : index + elements.length ≤ (memory.cells slice.array).length) :
    Writes memory (memory.store slice.array index elements) slice := by
  refine ⟨Nat.le_refl _, fun array _ => ?_, fun array _ differs => ?_⟩
  · by_cases here : array = slice.array
    · subst here
      simp only [store, Function.update_self]
      exact length_overwrite fits
    · simp only [store, Function.update_of_ne here]
  · simp only [store, Function.update_of_ne (differs room)]

theorem writes_allocate (cells : List Element) (slice : Slice) :
    Writes memory (memory.allocate cells) slice := by
  have old : ∀ array < memory.next, (memory.allocate cells).cells array = memory.cells array :=
    fun array before => Function.update_of_ne before.ne _ _
  exact ⟨Nat.le_succ _, fun array before => by rw [old array before],
    fun array before _ => old array before⟩

@[simp] theorem store_nil (memory : Arrays Element) (array index : Nat) :
    memory.store array index [] = memory := by
  simp [store]

/-- Writing behind the first elements of a slice. -/
theorem read_store {count : Nat} {elements : List Element} (valid : slice.Valid memory)
    (fits : count + elements.length ≤ slice.capacity) (room : slice.capacity ≠ 0) :
    (memory.store slice.array (slice.offset + count) elements).read
        { slice with length := count + elements.length } =
      memory.read { slice with length := count } ++ elements := by
  have inside := (valid.inside room).2
  rw [read, store]
  dsimp only
  rw [Function.update_self]
  exact window_overwrite (by omega)

/-- Writing within the capacity keeps slices valid and the other arrays as they are. -/
theorem store_spec {count : Nat} {elements : List Element} (valid : slice.Valid memory)
    (fits : count + elements.length ≤ slice.capacity) :
    Slice.Valid (memory.store slice.array (slice.offset + count) elements)
        { slice with length := count + elements.length } ∧
      Writes memory (memory.store slice.array (slice.offset + count) elements) slice := by
  by_cases room : slice.capacity = 0
  · have nothing : elements = [] := List.length_eq_zero_iff.mp (by omega)
    subst nothing
    rw [store_nil]
    exact ⟨⟨fits, valid.inside⟩, .refl _ _⟩
  · have inside := (valid.inside room).2
    have writes : Writes memory (memory.store slice.array (slice.offset + count) elements) slice :=
      writes_store room (by omega)
    exact ⟨⟨fits, (writes.valid valid).inside⟩, writes⟩

end Writes

/-! ## Operations on slices -/

variable [Inhabited Element] (growth : Growth)

/-- `append(slice, elements...)`. The rest of a new array is zero. -/
def append (memory : Arrays Element) (slice : Slice) (elements : List Element) :
    Arrays Element × Slice :=
  let needed := slice.length + elements.length
  if needed ≤ slice.capacity then
    (memory.store slice.array (slice.offset + slice.length) elements,
      { slice with length := needed })
  else
    let capacity := growth.capacity slice.capacity needed
    (memory.allocate (memory.read slice ++ elements ++
        List.replicate (capacity - needed) default),
      ⟨memory.next, 0, needed, capacity⟩)

/-- One turn of a loop over `source` that keeps some of its elements in `active`. -/
def keepAt (keep : Element → Bool) (source : Slice) (state : Arrays Element × Slice)
    (index : Nat) : Option (Arrays Element × Slice) :=
  (state.1.get source index).map fun element =>
    if keep element then state.1.append growth state.2 [element] else state

/-- `active := slice[:0]; for _, e := range slice { if keep(e) { active = append(active, e) } }`. -/
def filterInPlace (keep : Element → Bool) (memory : Arrays Element) (slice : Slice) :
    Option (Arrays Element × Slice) := do
  let active ← slice.reslice 0 0
  (List.range slice.length).foldlM (keepAt growth keep slice) (memory, active)

/-- `append(slice[:index], slice[index+1:]...)`. -/
def deleteAt (memory : Arrays Element) (slice : Slice) (index : Nat) :
    Option (Arrays Element × Slice) := do
  let front ← slice.reslice 0 index
  let back ← slice.reslice (index + 1) slice.length
  return memory.append growth front (memory.read back)

/-! ## What the operations leave -/

section Operations

variable {growth} {memory : Arrays Element} {slice : Slice}

/-- **Appending.** The result has the elements of the slice and the new ones. It stays in the
array of the slice or has a new one. -/
theorem append_spec (valid : slice.Valid memory) (elements : List Element) :
    ∃ after result, memory.append growth slice elements = (after, result) ∧
      after.read result = memory.read slice ++ elements ∧ result.Valid after ∧
      Writes memory after slice ∧
      ((result.array = slice.array ∧ result.capacity = slice.capacity) ∨
        memory.next ≤ result.array) := by
  unfold append
  dsimp only
  split
  · rename_i fits
    obtain ⟨stays, writes⟩ := store_spec valid fits
    refine ⟨_, _, rfl, ?_, stays, writes, .inl ⟨rfl, rfl⟩⟩
    by_cases room : slice.capacity = 0
    · have nothing : elements = [] := List.length_eq_zero_iff.mp (by omega)
      subst nothing
      rw [store_nil, List.append_nil]
      rfl
    · exact read_store valid fits room
  · have enough := growth.enough slice.capacity (slice.length + elements.length)
    have size := length_read valid
    refine ⟨_, _, rfl, ?_, ⟨enough, fun _ => ⟨Nat.lt_succ_self _, ?_⟩⟩, writes_allocate _ _,
      .inr (Nat.le_refl _)⟩
    · have whole : (memory.read slice ++ elements).length = slice.length + elements.length := by
        rw [List.length_append, size]
      simp only [read, allocate, Function.update_self, List.drop_zero]
      rw [← read, ← whole, List.take_left]
    · simp only [allocate, Function.update_self, List.length_append, List.length_replicate, size]
      omega

/-- The state of the loop after some turns: what was kept of the elements so far stands in front
of the slice. -/
theorem foldlM_keepAt (keep : Element → Bool) (valid : slice.Valid memory) {count : Nat}
    (turns : count ≤ slice.length) :
    (List.range count).foldlM (keepAt growth keep slice) (memory, { slice with length := 0 }) =
      some (memory.store slice.array slice.offset (((memory.read slice).take count).filter keep),
        { slice with length := (((memory.read slice).take count).filter keep).length }) := by
  induction count with
  | zero => simp
  | succ count ih =>
      have inside := (valid.inside (by have := valid.short; omega)).2
      have short := valid.short
      have kept := ih (by omega)
      generalize done : ((memory.read slice).take count).filter keep = front at kept
      have size : front.length ≤ count := by
        rw [← done]
        exact (List.length_filter_le _ _).trans (List.length_take_le _ _)
      have here : count < (memory.read slice).length := by
        rw [length_read valid]
        omega
      have element : (memory.cells slice.array)[slice.offset + count]? =
          some (memory.read slice)[count] := by
        rw [← List.getElem?_eq_getElem here, read, List.getElem?_take_of_lt (by omega),
          List.getElem?_drop]
      have unchanged : (memory.store slice.array slice.offset front).get slice count =
          some (memory.read slice)[count] := by
        rw [get, if_pos (by omega), store]
        dsimp only
        rw [Function.update_self, getElem?_overwrite_of_ge (by omega) (by omega), element]
      rw [List.range_succ, List.foldlM_append, kept, List.take_succ_eq_append_getElem here,
        List.filter_append, done]
      simp only [Option.bind_eq_bind, Option.bind_some, List.foldlM_cons, List.foldlM_nil, keepAt,
        unchanged, Option.map_some, Option.pure_def, Option.some.injEq]
      cases keeps : keep (memory.read slice)[count] with
      | false => simp [keeps]
      | true =>
          have fits : front.length + [(memory.read slice)[count]].length ≤ slice.capacity := by
            rw [List.length_singleton]
            omega
          have behind : memory.store slice.array slice.offset (front ++ [(memory.read slice)[count]]) =
              (memory.store slice.array slice.offset front).store slice.array
                (slice.offset + front.length) [(memory.read slice)[count]] := by
            simp only [store, Function.update_self, Function.update_idem]
            rw [overwrite_overwrite (by omega)]
          rw [List.filter_singleton, keeps, cond_true, if_pos rfl, append, if_pos fits, behind,
            List.length_append]

/-- **Filtering in place** leaves the elements that were to be kept. -/
theorem filterInPlace_spec (keep : Element → Bool) (valid : slice.Valid memory) :
    ∃ after result, memory.filterInPlace growth keep slice = some (after, result) ∧
      after.read result = (memory.read slice).filter keep ∧ result.Valid after ∧
      (result.array = slice.array ∧ result.capacity = slice.capacity) ∧
      Writes memory after slice := by
  have size := length_read valid
  have all : (memory.read slice).take slice.length = memory.read slice := by
    rw [← size, List.take_length]
  have loop := @foldlM_keepAt Element _ growth memory slice keep valid _ (Nat.le_refl slice.length)
  rw [all] at loop
  have fits : 0 + ((memory.read slice).filter keep).length ≤ slice.capacity := by
    have fewer := List.length_filter_le keep (memory.read slice)
    have short := valid.short
    omega
  obtain ⟨stays, writes⟩ := store_spec valid fits
  rw [Nat.add_zero, Nat.zero_add] at stays
  rw [Nat.add_zero] at writes
  refine ⟨_, _, ?_, ?_, stays, ⟨rfl, rfl⟩, writes⟩
  · rw [filterInPlace, Slice.reslice, if_pos ⟨Nat.le_refl 0, Nat.zero_le _⟩]
    exact loop
  · by_cases room : slice.capacity = 0
    · have empty : slice.length = 0 := Nat.le_zero.mp (room ▸ valid.short)
      have nothing : (memory.read slice).filter keep = [] := by
        rw [read_of_empty empty, List.filter_nil]
      rw [nothing]
      exact read_of_empty rfl
    · have reads := read_store valid fits room
      have front : memory.read { slice with length := 0 } = [] := read_of_empty rfl
      rw [Nat.add_zero, Nat.zero_add, front, List.nil_append] at reads
      exact reads

/-- **Deleting an element in place.** -/
theorem deleteAt_spec (valid : slice.Valid memory) {index : Nat} (inside : index < slice.length) :
    ∃ after result, memory.deleteAt growth slice index = some (after, result) ∧
      after.read result = (memory.read slice).eraseIdx index ∧ result.Valid after ∧
      (result.array = slice.array ∧ result.capacity = slice.capacity) ∧
      Writes memory after slice := by
  have short := valid.short
  have room : slice.capacity ≠ 0 := by omega
  have back : memory.read ⟨slice.array, slice.offset + (index + 1), slice.length - (index + 1),
      slice.capacity - (index + 1)⟩ = (memory.read slice).drop (index + 1) := by
    rw [read, read, List.drop_take, List.drop_drop]
  have size : ((memory.read slice).drop (index + 1)).length = slice.length - (index + 1) := by
    rw [List.length_drop, length_read valid]
  have fits : index + ((memory.read slice).drop (index + 1)).length ≤ slice.capacity := by omega
  obtain ⟨stays, writes⟩ := store_spec valid fits
  refine ⟨_, _, ?_, ?_, stays, ⟨rfl, rfl⟩, writes⟩
  · rw [deleteAt, Slice.reslice, if_pos ⟨Nat.zero_le _, by omega⟩, Slice.reslice,
      if_pos ⟨by omega, short⟩]
    simp only [Option.bind_eq_bind, Option.bind_some, Option.pure_def, Option.some.injEq, back,
      append, Nat.add_zero, Nat.sub_zero]
    rw [if_pos fits]
  · rw [read_store valid fits room, List.eraseIdx_eq_take_drop_succ]
    congr 1
    rw [read, read, List.take_take, Nat.min_eq_left inside.le]

end Operations

end Arrays

end InfraFromScratch.Foundations
