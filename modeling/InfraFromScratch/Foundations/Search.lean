import Mathlib.Data.List.Infix

/-!
# The first occurrence of a pattern

Readers that receive a stream in pieces look for a terminator in what they have so far.
The place at which it first occurs does not depend on how much of the stream is there,
once all of it has arrived (`indexOf_append`), and it is not found earlier
(`indexOf_of_append`).

Pieces are joined by a pattern and split around it. They come back as they were when none of
them contains the first element of the pattern (`splitAround_intercalate`).
-/

set_option autoImplicit false

namespace InfraFromScratch.Foundations

variable {Element : Type*} [DecidableEq Element]

/-- The index at which the pattern first occurs. -/
def indexOf (pattern : List Element) : List Element → Option Nat
  | [] => if pattern = [] then some 0 else none
  | first :: rest =>
      if pattern <+: first :: rest then some 0 else (indexOf pattern rest).map (· + 1)

/-- What stands before the first occurrence of the pattern, and what stands after it. -/
def cutAround (pattern text : List Element) : List Element × List Element :=
  match indexOf pattern text with
  | some index => (text.take index, text.drop (index + pattern.length))
  | none => (text, [])

/-- The pieces of the text between the occurrences of a nonempty pattern. -/
def splitAround (pattern text : List Element) : List (List Element) :=
  match indexOf pattern text with
  | none => [text]
  | some index =>
      if _shorter : (text.drop (index + pattern.length)).length < text.length then
        text.take index :: splitAround pattern (text.drop (index + pattern.length))
      else [text]
termination_by text.length
decreasing_by assumption

variable {pattern text rest : List Element} {index : Nat}

/-- **The first occurrence**: the pattern stands there and nowhere before. -/
theorem indexOf_eq_some_iff :
    indexOf pattern text = some index ↔
      pattern <+: text.drop index ∧ ∀ earlier < index, ¬ pattern <+: text.drop earlier := by
  induction text generalizing index with
  | nil =>
      simp only [indexOf, List.drop_nil, List.prefix_nil]
      by_cases empty : pattern = []
      · simp only [empty, if_true, Option.some.injEq, true_and, not_true_eq_false, imp_false,
          Nat.not_lt]
        constructor
        · intro zero earlier
          omega
        · intro nothing
          exact (Nat.le_zero.mp (nothing 0)).symm
      · simp [empty]
  | cons first rest ih =>
      rw [indexOf]
      by_cases here : pattern <+: first :: rest
      · rw [if_pos here, Option.some.injEq]
        constructor
        · intro zero
          subst zero
          exact ⟨here, by simp⟩
        · intro found
          by_contra positive
          exact found.2 0 (Nat.pos_of_ne_zero (Ne.symm positive)) here
      · rw [if_neg here, Option.map_eq_some_iff]
        constructor
        · intro found
          obtain ⟨smaller, foundThere, rfl⟩ := found
          obtain ⟨stands, nowhere⟩ := ih.mp foundThere
          refine ⟨stands, ?_⟩
          intro earlier before
          cases earlier with
          | zero => exact here
          | succ earlier => exact nowhere earlier (Nat.lt_of_succ_lt_succ before)
        · intro found
          cases index with
          | zero => exact absurd found.1 here
          | succ index =>
              refine ⟨index, ih.mpr ⟨found.1, ?_⟩, rfl⟩
              intro earlier before
              exact found.2 (earlier + 1) (Nat.succ_lt_succ before)

/-- A pattern is missing where it occurs nowhere. -/
theorem indexOf_eq_none_iff : indexOf pattern text = none ↔ ¬ pattern <:+: text := by
  induction text with
  | nil =>
      rw [indexOf, List.infix_nil]
      split
      · rename_i empty
        simp [empty]
      · rename_i nonempty
        simp [nonempty]
  | cons first rest ih =>
      rw [indexOf, List.infix_cons_iff]
      split
      · rename_i here
        simp [here]
      · rename_i elsewhere
        rw [Option.map_eq_none_iff, ih, not_or, and_iff_right elsewhere]

theorem indexOf_prefix (pattern rest : List Element) :
    indexOf pattern (pattern ++ rest) = some 0 := by
  refine indexOf_eq_some_iff.mpr ⟨List.prefix_append _ _, ?_⟩
  intro earlier before
  omega

/-- A nonempty pattern that occurs has room in the text. -/
theorem indexOf_add_length_le (nonempty : pattern ≠ [])
    (found : indexOf pattern text = some index) :
    index + pattern.length ≤ text.length := by
  have size := (indexOf_eq_some_iff.mp found).1.length_le
  have positive := List.length_pos_of_ne_nil nonempty
  rw [List.length_drop] at size
  omega

/-- More text does not move the first occurrence. -/
theorem indexOf_append (nonempty : pattern ≠ []) (found : indexOf pattern text = some index)
    (rest : List Element) : indexOf pattern (text ++ rest) = some index := by
  have room := indexOf_add_length_le nonempty found
  obtain ⟨stands, nowhere⟩ := indexOf_eq_some_iff.mp found
  refine indexOf_eq_some_iff.mpr ⟨?_, ?_⟩
  · rw [List.drop_append_of_le_length (by omega)]
    exact stands.trans (List.prefix_append _ _)
  · intro earlier before there
    refine nowhere earlier before ?_
    rw [List.drop_append_of_le_length (by omega)] at there
    refine List.prefix_of_prefix_length_le there (List.prefix_append _ _) ?_
    rw [List.length_drop]
    omega

/-- What occurs within the text was there before more text came. -/
theorem indexOf_of_append (found : indexOf pattern (text ++ rest) = some index)
    (room : index + pattern.length ≤ text.length) : indexOf pattern text = some index := by
  obtain ⟨stands, nowhere⟩ := indexOf_eq_some_iff.mp found
  refine indexOf_eq_some_iff.mpr ⟨?_, ?_⟩
  · rw [List.drop_append_of_le_length (by omega)] at stands
    refine List.prefix_of_prefix_length_le stands (List.prefix_append _ _) ?_
    rw [List.length_drop]
    omega
  · intro earlier before there
    refine nowhere earlier before ?_
    rw [List.drop_append_of_le_length (by omega)]
    exact there.trans (List.prefix_append _ _)

/-- As long as the pattern has not occurred, what is there is shorter than its end. -/
theorem length_lt_of_indexOf (found : indexOf pattern (text ++ rest) = some index)
    (missing : indexOf pattern text = none) : text.length < index + pattern.length := by
  by_contra room
  rw [indexOf_of_append found (not_lt.mp room)] at missing
  cases missing

/-- Before its end has come, the pattern is missing. -/
theorem indexOf_of_early (nonempty : pattern ≠ [])
    (found : indexOf pattern (text ++ rest) = some index)
    (early : text.length < index + pattern.length) : indexOf pattern text = none := by
  cases here : indexOf pattern text with
  | none => rfl
  | some place =>
      have room := indexOf_add_length_le nonempty here
      have same : place = index :=
        Option.some.inj ((indexOf_append nonempty here rest).symm.trans found)
      omega

/-- The text through the first occurrence has it at the same place. -/
theorem indexOf_take (nonempty : pattern ≠ []) (found : indexOf pattern text = some index) :
    indexOf pattern (text.take (index + pattern.length)) = some index := by
  have room := indexOf_add_length_le nonempty found
  have split : text.take (index + pattern.length) ++ text.drop (index + pattern.length) = text :=
    List.take_append_drop _ _
  rw [← split] at found
  refine indexOf_of_append found ?_
  rw [List.length_take]
  omega

/-! ## All pieces -/

theorem splitAround_of_missing (missing : indexOf pattern text = none) :
    splitAround pattern text = [text] := by
  rw [splitAround, missing]

theorem splitAround_of_found (nonempty : pattern ≠ []) (found : indexOf pattern text = some index) :
    splitAround pattern text =
      text.take index :: splitAround pattern (text.drop (index + pattern.length)) := by
  have room := indexOf_add_length_le nonempty found
  have positive := List.length_pos_of_ne_nil nonempty
  have shorter : (text.drop (index + pattern.length)).length < text.length := by
    rw [List.length_drop]
    omega
  rw [splitAround, found]
  exact dif_pos shorter

/-- What stands before the first occurrence, the pattern and what follows are the text. -/
theorem take_append_drop_of_found (found : indexOf pattern text = some index) :
    text.take index ++ pattern ++ text.drop (index + pattern.length) = text := by
  obtain ⟨rest, stands⟩ := (indexOf_eq_some_iff.mp found).1
  have after : text.drop (index + pattern.length) = rest := by
    rw [← List.drop_drop, ← stands, List.drop_left]
  rw [after, List.append_assoc, stands, List.take_append_drop]

theorem splitAround_ne_nil (pattern text : List Element) : splitAround pattern text ≠ [] := by
  rw [splitAround]
  split
  · exact List.cons_ne_nil _ _
  · split <;> exact List.cons_ne_nil _ _

/-- The pieces with the pattern between them are the text. -/
theorem intercalate_splitAround (nonempty : pattern ≠ []) (text : List Element) :
    pattern.intercalate (splitAround pattern text) = text := by
  induction length : text.length using Nat.strongRecOn generalizing text with
  | ind size ih =>
      cases found : indexOf pattern text with
      | none => rw [splitAround_of_missing found, List.intercalate_singleton]
      | some index =>
          have room := indexOf_add_length_le nonempty found
          have positive := List.length_pos_of_ne_nil nonempty
          have shorter : (text.drop (index + pattern.length)).length < size := by
            rw [List.length_drop]
            omega
          rw [splitAround_of_found nonempty found,
            List.intercalate_cons_of_ne_nil (splitAround_ne_nil _ _), ih _ shorter _ rfl]
          exact take_append_drop_of_found found

/-- The pieces after the first one are the pieces of what they make together. -/
theorem splitAround_intercalate_tail (nonempty : pattern ≠ [])
    (more : (splitAround pattern text).tail ≠ []) :
    splitAround pattern (pattern.intercalate (splitAround pattern text).tail) =
      (splitAround pattern text).tail := by
  cases found : indexOf pattern text with
  | none =>
      rw [splitAround_of_missing found] at more
      exact absurd rfl more
  | some index =>
      rw [splitAround_of_found nonempty found, List.tail_cons, intercalate_splitAround nonempty]

/-- The text before the first occurrence does not contain the pattern. -/
theorem not_infix_take (nonempty : pattern ≠ []) (found : indexOf pattern text = some index) :
    ¬ pattern <:+: text.take index := by
  rintro ⟨before, after, inside⟩
  have earlier : before.length < index := by
    have size := congrArg List.length inside
    have positive := List.length_pos_of_ne_nil nonempty
    simp only [List.length_append, List.length_take] at size
    omega
  refine (indexOf_eq_some_iff.mp found).2 before.length earlier ?_
  refine ⟨after ++ text.drop index, ?_⟩
  have whole : text = before ++ (pattern ++ (after ++ text.drop index)) := by
    rw [← List.append_assoc, ← List.append_assoc, inside, List.take_append_drop]
  conv_rhs => rw [whole, List.drop_left]

/-- No piece contains the pattern. -/
theorem not_infix_of_mem_splitAround (nonempty : pattern ≠ []) {piece : List Element}
    (member : piece ∈ splitAround pattern text) : ¬ pattern <:+: piece := by
  induction length : text.length using Nat.strongRecOn generalizing text with
  | ind size ih =>
      cases found : indexOf pattern text with
      | none =>
          rw [splitAround_of_missing found, List.mem_singleton] at member
          rw [member]
          exact indexOf_eq_none_iff.mp found
      | some index =>
          rw [splitAround_of_found nonempty found, List.mem_cons] at member
          rcases member with rfl | later
          · exact not_infix_take nonempty found
          · have room := indexOf_add_length_le nonempty found
            have positive := List.length_pos_of_ne_nil nonempty
            have shorter : (text.drop (index + pattern.length)).length < size := by
              rw [List.length_drop]
              omega
            exact ih _ shorter later rfl

theorem notMem_of_mem_splitAround {element : Element} {piece : List Element}
    (member : piece ∈ splitAround [element] text) : element ∉ piece := by
  intro inside
  obtain ⟨before, after, split⟩ := List.append_of_mem inside
  refine not_infix_of_mem_splitAround (List.cons_ne_nil element []) member ⟨before, after, ?_⟩
  rw [split, List.append_assoc, List.singleton_append]

/-! ## A pattern of two different elements -/

section Pair

variable {one two : Element}

omit [DecidableEq Element] in
/-- Such a pattern occurs in one of two texts, or where they meet. -/
theorem pair_infix_append_iff {front back : List Element} :
    [one, two] <:+: front ++ back ↔
      [one, two] <:+: front ∨ [one, two] <:+: back ∨ ([one] <:+ front ∧ [two] <+: back) := by
  rw [List.infix_append_iff_ne_nil]
  refine or_congr_right (or_congr_right ⟨?_, ?_⟩)
  · rintro ⟨first, second, nonempty, nonemptyToo, whole, ends, starts⟩
    obtain ⟨element, others, rfl⟩ := List.exists_cons_of_ne_nil nonempty
    obtain ⟨rfl, rest⟩ := List.cons.inj whole
    have alone : others = [] ∧ second = [two] := by
      cases others with
      | nil => exact ⟨rfl, rest.symm⟩
      | cons other others =>
          have empty := List.append_eq_nil_iff.mp (List.cons.inj rest).2.symm
          exact absurd empty.2 nonemptyToo
    obtain ⟨rfl, rfl⟩ := alone
    exact ⟨ends, starts⟩
  · rintro ⟨ends, starts⟩
    exact ⟨[one], [two], List.cons_ne_nil _ _, List.cons_ne_nil _ _, rfl, ends, starts⟩

omit [DecidableEq Element] in
/-- No such pattern stands where two texts meet that do not have the elements for it. -/
theorem not_pair_infix_append {front back : List Element} (missing : ¬ [one, two] <:+: front)
    (missingToo : ¬ [one, two] <:+: back) (apart : one ∉ front ∨ two ∉ back) :
    ¬ [one, two] <:+: front ++ back := by
  rw [pair_infix_append_iff]
  rintro (inFront | inBack | ⟨ends, starts⟩)
  · exact missing inFront
  · exact missingToo inBack
  · rcases apart with noOne | noTwo
    · exact noOne (ends.mem List.mem_cons_self)
    · exact noTwo (starts.mem List.mem_cons_self)

variable (differ : one ≠ two)

include differ

/-- Such a pattern does not overlap itself: after text without it, it is found where it stands. -/
theorem indexOf_pair {before : List Element} (missing : ¬ [one, two] <:+: before)
    (rest : List Element) :
    indexOf [one, two] (before ++ one :: two :: rest) = some before.length := by
  induction before with
  | nil => exact indexOf_prefix [one, two] rest
  | cons element before ih =>
      obtain ⟨notHere, later⟩ := not_or.mp (mt List.infix_cons_iff.mpr missing)
      have notPrefix : ¬ [one, two] <+: element :: (before ++ one :: two :: rest) := by
        rw [List.cons_prefix_cons]
        rintro ⟨rfl, next⟩
        cases before with
        | nil =>
            rw [List.nil_append, List.cons_prefix_cons] at next
            exact differ next.1.symm
        | cons second others =>
            rw [List.cons_append, List.cons_prefix_cons] at next
            exact notHere ⟨others, by rw [next.1]; rfl⟩
      rw [List.cons_append, indexOf, if_neg notPrefix, ih later]
      rfl

/-- Text is cut in one way at the first occurrence. -/
theorem append_pair_inj {before otherBefore after otherAfter : List Element}
    (missing : ¬ [one, two] <:+: before) (otherMissing : ¬ [one, two] <:+: otherBefore)
    (same : before ++ one :: two :: after = otherBefore ++ one :: two :: otherAfter) :
    before = otherBefore ∧ after = otherAfter := by
  have found := indexOf_pair differ missing after
  rw [same, indexOf_pair differ otherMissing, Option.some.injEq] at found
  obtain ⟨first, rest⟩ := List.append_inj same found.symm
  exact ⟨first, (List.cons.inj (List.cons.inj rest).2).2⟩

end Pair

/-! ## Text without the first element of the pattern -/

/-- No occurrence starts in such text, so it only moves the first one. -/
theorem indexOf_clean_append {first : Element} {before : List Element} (clean : first ∉ before)
    (others text : List Element) :
    indexOf (first :: others) (before ++ text) =
      (indexOf (first :: others) text).map (· + before.length) := by
  induction before with
  | nil => simp
  | cons element before ih =>
      obtain ⟨differs, cleanRest⟩ := not_or.mp (mt List.mem_cons.mpr clean)
      have notHere : ¬ first :: others <+: element :: (before ++ text) := by
        rw [List.cons_prefix_cons]
        exact fun same => differs same.1
      rw [List.cons_append, indexOf, if_neg notHere, ih cleanRest, Option.map_map]
      rfl

/-- After such text, a pattern is found where it stands. -/
theorem indexOf_of_clean {first : Element} {before : List Element} (clean : first ∉ before)
    (others rest : List Element) :
    indexOf (first :: others) (before ++ (first :: others ++ rest)) = some before.length := by
  rw [indexOf_clean_append clean, indexOf_prefix, Option.map_some, Nat.zero_add]

theorem indexOf_missing_of_clean {first : Element} (clean : first ∉ text) (others : List Element) :
    indexOf (first :: others) text = none := by
  simpa [indexOf] using indexOf_clean_append clean others []

/-- **Joined pieces are split again.** -/
theorem splitAround_intercalate {first : Element} {others : List Element}
    {pieces : List (List Element)} (nonempty : pieces ≠ [])
    (clean : ∀ piece ∈ pieces, first ∉ piece) :
    splitAround (first :: others) ((first :: others).intercalate pieces) = pieces := by
  induction pieces with
  | nil => exact absurd rfl nonempty
  | cons piece pieces ih =>
      have cleanPiece := clean piece List.mem_cons_self
      by_cases last : pieces = []
      · rw [last, List.intercalate_singleton,
          splitAround_of_missing (indexOf_missing_of_clean cleanPiece others)]
      · have again := ih last fun later member => clean later (List.mem_cons_of_mem _ member)
        rw [List.intercalate_cons_of_ne_nil last, List.append_assoc,
          splitAround_of_found (List.cons_ne_nil _ _) (indexOf_of_clean cleanPiece others _),
          List.take_left, ← List.drop_drop, List.drop_left, List.drop_left, again]

/-- Cutting around one element finds the first of them. -/
theorem cutAround_singleton {element : Element} {before : List Element}
    (clean : element ∉ before) (after : List Element) :
    cutAround [element] (before ++ element :: after) = (before, after) := by
  have found : indexOf [element] (before ++ element :: after) = some before.length :=
    indexOf_of_clean clean [] after
  rw [cutAround, found]
  simp

end InfraFromScratch.Foundations
