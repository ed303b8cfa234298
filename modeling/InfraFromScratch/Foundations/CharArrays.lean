import InfraFromScratch.Foundations.Bytes
import InfraFromScratch.Foundations.Lines

/-!
# Character arrays of C

A C program keeps its texts in arrays of fixed sizes, and nothing stops it from reading or writing
past their ends, or from reading what it has not written yet. Here every access is checked: an
operation on an array gives nothing where C leaves its behaviour undefined.

A pointer is given by the cells from it to the end of its array. What is known of such cells is
that they start with some bytes (`Starts`), or that they hold a text with its NUL (`Holds`). The
functions of `<string.h>` are described by these two.
-/

set_option autoImplicit false

namespace InfraFromScratch.Foundations

/-- The cells that a pointer reaches. A cell is empty until it is written. -/
abbrev Cells := List (Option UInt8)

namespace Cells

/-- The cells start with the bytes. -/
def Starts (cells : Cells) (bytes : Bytes) : Prop := bytes.map some <+: cells

/-- The cells hold the text as a string: its bytes and a NUL behind them. -/
structure Holds (cells : Cells) (text : Bytes) : Prop where
  noNul : 0 ∉ text
  starts : Starts cells (text ++ [0])

/-! ## Reading -/

/-- The first bytes of the cells, or nothing where they are not all there. -/
def read : Nat → Cells → Option Bytes
  | 0, _ => some []
  | count + 1, some byte :: cells => (read count cells).map (byte :: ·)
  | _ + 1, _ => none

/-- `cells[index]`. -/
def load (cells : Cells) (index : Nat) : Option UInt8 := cells[index]?.join

/-- The string that starts at the cells, or nothing where no NUL ends it. -/
def string : Cells → Option Bytes
  | some byte :: cells => if byte = 0 then some [] else (string cells).map (byte :: ·)
  | _ => none

/-- `strlen`. -/
def strlen (cells : Cells) : Option Nat := cells.string.map List.length

/-- Byte strings in the order of `strcmp`, which compares their bytes as unsigned numbers. -/
def order : Bytes → Bytes → Ordering
  | [], [] => .eq
  | [], _ :: _ => .lt
  | _ :: _, [] => .gt
  | byte :: bytes, other :: others => (compare byte.toNat other.toNat).then (order bytes others)

/-- `strcmp`. -/
def strcmp (cells other : Cells) : Option Ordering := do
  return order (← cells.string) (← other.string)

/-- `strncmp` with a literal. -/
def strncmp (cells : Cells) (literal : Bytes) (count : Nat) : Option Ordering := do
  return order ((← cells.string).take count) (literal.take count)

/-- `strchr`, with the distance of the byte it finds. -/
def strchr (cells : Cells) (byte : UInt8) : Option (Option Nat) :=
  cells.string.map (·.idxOf? byte)

/-- `memchr`, with the distance of the byte it finds. -/
def memchr (cells : Cells) (byte : UInt8) (count : Nat) : Option (Option Nat) :=
  (cells.read count).map (·.idxOf? byte)

/-- `cells + count`, which has to point into the array or right behind it. -/
def advance (cells : Cells) (count : Nat) : Option Cells :=
  if count ≤ cells.length then some (cells.drop count) else none

/-! ## What is read -/

section Reading

variable {cells : Cells} {bytes more text : Bytes}

theorem starts_nil (cells : Cells) : Starts cells [] := List.nil_prefix

theorem Starts.of_append (starts : Starts cells (bytes ++ more)) : Starts cells bytes := by
  rw [Starts, List.map_append] at starts
  exact (List.prefix_append _ _).trans starts

theorem Starts.length_le (starts : Starts cells bytes) : bytes.length ≤ cells.length := by
  simpa using List.IsPrefix.length_le starts

/-- Behind its first bytes the pointer reaches the others. -/
theorem Starts.drop (starts : Starts cells (bytes ++ more)) :
    Starts (cells.drop bytes.length) more := by
  obtain ⟨rest, rfl⟩ := starts
  refine ⟨rest, ?_⟩
  rw [List.map_append, List.append_assoc, List.drop_left' (List.length_map some)]

theorem Starts.advance (starts : Starts cells bytes) :
    cells.advance bytes.length = some (cells.drop bytes.length) :=
  if_pos starts.length_le

theorem Starts.read (starts : Starts cells bytes) : cells.read bytes.length = some bytes := by
  induction bytes generalizing cells with
  | nil => rfl
  | cons byte bytes ih =>
      obtain ⟨rest, rfl⟩ := starts
      rw [List.map_cons, List.cons_append, List.length_cons, Cells.read, ih ⟨rest, rfl⟩,
        Option.map_some]

theorem Starts.load {byte : UInt8} (starts : Starts cells (bytes ++ [byte])) :
    cells.load bytes.length = some byte := by
  obtain ⟨rest, rfl⟩ := starts
  rw [Cells.load, List.map_append, List.append_assoc,
    List.getElem?_append_right (by rw [List.length_map]), List.length_map, Nat.sub_self]
  rfl

theorem Holds.string (holds : Holds cells text) : cells.string = some text := by
  induction text generalizing cells with
  | nil =>
      obtain ⟨rest, rfl⟩ := holds.starts
      rfl
  | cons byte text ih =>
      obtain ⟨other, clean⟩ := not_or.mp (List.mem_cons.not.mp holds.noNul)
      obtain ⟨rest, rfl⟩ := holds.starts
      rw [List.cons_append, List.map_cons, List.cons_append, Cells.string, if_neg (Ne.symm other),
        ih ⟨clean, rest, rfl⟩, Option.map_some]

/-- Behind the front of a string stands the rest of it. -/
theorem Holds.drop {front : Bytes} (holds : Holds cells (front ++ text)) :
    Holds (cells.drop front.length) text := by
  refine ⟨fun member => holds.noNul (List.mem_append_right _ member), ?_⟩
  have starts := holds.starts
  rw [List.append_assoc] at starts
  exact starts.drop

theorem order_eq_iff (first second : Bytes) : order first second = .eq ↔ first = second := by
  induction first generalizing second with
  | nil => cases second <;> simp [order]
  | cons byte bytes ih =>
      cases second with
      | nil => simp [order]
      | cons other others =>
          simp only [order, Ordering.then_eq_eq, Nat.compare_eq_eq, UInt8.toNat_inj, ih,
            List.cons.injEq]

/-- Two strings are compared by their texts. -/
theorem Holds.strcmp {other : Cells} {second : Bytes} (holds : Holds cells text)
    (also : Holds other second) : cells.strcmp other = some (order text second) := by
  rw [Cells.strcmp, holds.string, also.string]
  rfl

/-- **Looking for a byte** is cutting at it. -/
theorem idxOf?_eq_cutAt (byte : UInt8) (text : Bytes) :
    text.idxOf? byte = (cutAt byte text).map fun parts => parts.1.length := by
  induction text with
  | nil => rfl
  | cons first text ih =>
      rw [List.idxOf?_cons, cutAt, ih]
      by_cases here : first = byte
      · simp [here]
      · simp [here, Function.comp_def]

theorem Holds.strchr (holds : Holds cells text) (byte : UInt8) :
    cells.strchr byte = some ((cutAt byte text).map fun parts => parts.1.length) := by
  rw [Cells.strchr, holds.string, Option.map_some, idxOf?_eq_cutAt]

theorem Starts.memchr (starts : Starts cells bytes) (byte : UInt8) :
    cells.memchr byte bytes.length = some ((cutAt byte bytes).map fun parts => parts.1.length) := by
  rw [Cells.memchr, starts.read, Option.map_some, idxOf?_eq_cutAt]

theorem Holds.strlen (holds : Holds cells text) : cells.strlen = some text.length := by
  rw [Cells.strlen, holds.string, Option.map_some]

/-- A string is compared with a literal as long as the comparison. -/
theorem Holds.strncmp (holds : Holds cells text) (literal : Bytes) :
    cells.strncmp literal literal.length = some (order (text.take literal.length) literal) := by
  rw [Cells.strncmp, holds.string, List.take_length]
  rfl

end Reading

end Cells

/-! ## Arrays -/

/-- `char array[size]`. -/
structure CharArray (size : Nat) where
  cells : Cells
  length_cells : cells.length = size

namespace CharArray

variable {size : Nat}

/-- An array on the stack, before it is written. -/
def uninitialised (size : Nat) : CharArray size := ⟨List.replicate size none, List.length_replicate⟩

/-- An array in static storage, before it is written. -/
def zeroed (size : Nat) : CharArray size := ⟨List.replicate size (some 0), List.length_replicate⟩

/-- Write bytes from an offset on, or nothing where they do not fit. -/
def write (array : CharArray size) (offset : Nat) (bytes : Bytes) : Option (CharArray size) :=
  if fits : offset + bytes.length ≤ size then
    some ⟨array.cells.take offset ++ bytes.map some ++ array.cells.drop (offset + bytes.length), by
      rw [List.length_append, List.length_append, List.length_take, List.length_map,
        List.length_drop, array.length_cells]
      omega⟩
  else none

/-- `array[index] = byte`. -/
def assign (array : CharArray size) (index : Nat) (byte : UInt8) : Option (CharArray size) :=
  array.write index [byte]

/-- `memcpy(array + offset, source, count)`. -/
def memcpy (array : CharArray size) (offset : Nat) (source : Cells) (count : Nat) :
    Option (CharArray size) := do
  array.write offset (← source.read count)

/-- `memmove(array, array + offset, count)`. -/
def memmove (array : CharArray size) (offset count : Nat) : Option (CharArray size) := do
  array.memcpy 0 (← array.cells.advance offset) count

/-- `vsnprintf(array, size, ...)` of a formatted text, with the length it returns. -/
def vsnprintf (array : CharArray size) (text : Bytes) : Option (CharArray size × Nat) :=
  if size = 0 then some (array, text.length)
  else (array.write 0 (text.take (size - 1) ++ [0])).map fun written => (written, text.length)

variable {array : CharArray size} {bytes before : Bytes}

/-- **Writing behind what is there.** -/
theorem write_spec (starts : array.cells.Starts before) (fits : before.length + bytes.length ≤ size) :
    ∃ after, array.write before.length bytes = some after ∧
      after.cells.Starts (before ++ bytes) := by
  rw [write, dif_pos fits]
  refine ⟨_, rfl, array.cells.drop (before.length + bytes.length), ?_⟩
  obtain ⟨rest, split⟩ := starts
  have front : array.cells.take before.length = before.map some := by
    rw [← split, List.take_left' (List.length_map some)]
  dsimp only
  rw [front, List.map_append]

theorem assign_spec {byte : UInt8} (starts : array.cells.Starts before)
    (fits : before.length < size) :
    ∃ after, array.assign before.length byte = some after ∧
      after.cells.Starts (before ++ [byte]) :=
  write_spec starts (by rw [List.length_singleton]; omega)

theorem memcpy_spec {source : Cells} (starts : array.cells.Starts before)
    (reads : source.Starts bytes) (fits : before.length + bytes.length ≤ size) :
    ∃ after, array.memcpy before.length source bytes.length = some after ∧
      after.cells.Starts (before ++ bytes) := by
  rw [memcpy, reads.read]
  exact write_spec starts fits

/-- **Moving to the front** what stands behind the first bytes. -/
theorem memmove_spec (starts : array.cells.Starts (before ++ bytes)) :
    ∃ after, array.memmove before.length bytes.length = some after ∧
      after.cells.Starts bytes := by
  have inside := starts.length_le
  rw [List.length_append, array.length_cells] at inside
  rw [memmove, starts.of_append.advance]
  exact memcpy_spec (Cells.starts_nil _) starts.drop (by rw [List.length_nil]; omega)

/-- **Formatting** stays inside the array, and a text that fits with its NUL is written whole. -/
theorem vsnprintf_spec (array : CharArray size) (text : Bytes) :
    ∃ after, array.vsnprintf text = some (after, text.length) ∧
      (text.length < size → after.cells.Starts text) := by
  by_cases nothing : size = 0
  · exact ⟨array, if_pos nothing, fun fits => by omega⟩
  · have cut := List.length_take_le (size - 1) text
    obtain ⟨after, written, starts⟩ := @write_spec _ array (text.take (size - 1) ++ [0]) []
      (Cells.starts_nil _)
      (by rw [List.length_append, List.length_singleton, List.length_nil]; omega)
    rw [List.length_nil] at written
    refine ⟨after, by rw [vsnprintf, if_neg nothing, written, Option.map_some], fun fits => ?_⟩
    rw [List.nil_append, List.take_of_length_le (by omega)] at starts
    exact starts.of_append

end CharArray

end InfraFromScratch.Foundations
