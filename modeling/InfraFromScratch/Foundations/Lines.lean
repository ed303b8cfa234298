import Mathlib.Data.List.Basic

/-!
# Cutting a stream at a delimiter

A stream protocol sends its messages one after another, each ended by a
delimiter, and the receiver gets the stream in pieces of arbitrary sizes. This
module cuts lists at a delimiter (`cutAt`, the first piece) and reads all complete
pieces and the unfinished rest (`splitLines`).

The law that makes a receiver independent of the pieces is
`splitLines_append`: reading a stream is reading its first part, and then the
unfinished rest of that part followed by the second.
-/

set_option autoImplicit false

namespace InfraFromScratch.Foundations

variable {α : Type*} [DecidableEq α]

/-! ## The first delimiter -/

/-- What stands before and after the first delimiter, if there is one. -/
def cutAt (delimiter : α) : List α → Option (List α × List α)
  | [] => none
  | x :: xs =>
      if x = delimiter then some ([], xs)
      else (cutAt delimiter xs).map fun parts => (x :: parts.1, parts.2)

theorem cutAt_eq_none_iff {delimiter : α} {xs : List α} :
    cutAt delimiter xs = none ↔ delimiter ∉ xs := by
  induction xs with
  | nil => simp [cutAt]
  | cons x xs ih =>
      by_cases here : x = delimiter
      · simp [cutAt, here]
      · simp [cutAt, here, ih, Ne.symm here]

theorem cutAt_eq_some_iff {delimiter : α} {xs before after : List α} :
    cutAt delimiter xs = some (before, after) ↔
      xs = before ++ delimiter :: after ∧ delimiter ∉ before := by
  induction xs generalizing before with
  | nil => simp [cutAt]
  | cons x xs ih =>
      by_cases here : x = delimiter
      · subst here
        cases before with
        | nil => simp [cutAt]
        | cons y ys => simp +contextual [cutAt, eq_comm]
      · cases before with
        | nil => simp [cutAt, here]
        | cons y ys =>
            simp only [cutAt, here, if_false, Option.map_eq_some_iff, Prod.mk.injEq,
              List.cons.injEq, List.cons_append, List.mem_cons, not_or]
            constructor
            · rintro ⟨⟨front, back⟩, found, ⟨rfl, rfl⟩, rfl⟩
              obtain ⟨rfl, clean⟩ := ih.mp found
              exact ⟨⟨rfl, rfl⟩, Ne.symm here, clean⟩
            · rintro ⟨⟨rfl, rfl⟩, -, clean⟩
              exact ⟨(ys, after), ih.mpr ⟨rfl, clean⟩, ⟨rfl, rfl⟩, rfl⟩

/-- Cutting after a delimiter-free part finds the delimiter that follows it. -/
theorem cutAt_append {delimiter : α} {before : List α} (clean : delimiter ∉ before)
    (after : List α) : cutAt delimiter (before ++ delimiter :: after) = some (before, after) :=
  cutAt_eq_some_iff.mpr ⟨rfl, clean⟩

/-- Text is cut in one way at the first delimiter. -/
theorem append_delimiter_inj {delimiter : α} {before otherBefore after otherAfter : List α}
    (clean : delimiter ∉ before) (otherClean : delimiter ∉ otherBefore)
    (same : before ++ delimiter :: after = otherBefore ++ delimiter :: otherAfter) :
    before = otherBefore ∧ after = otherAfter := by
  have cut := cutAt_append clean after
  rw [same, cutAt_append otherClean, Option.some.injEq, Prod.mk.injEq] at cut
  exact ⟨cut.1.symm, cut.2.symm⟩

theorem cutAt_length_lt {delimiter : α} {xs before after : List α}
    (found : cutAt delimiter xs = some (before, after)) : after.length < xs.length := by
  obtain ⟨rfl, _⟩ := cutAt_eq_some_iff.mp found
  simp only [List.length_append, List.length_cons]
  omega

/-- Cutting commutes with an injective change of the elements. -/
theorem cutAt_map {β : Type*} [DecidableEq β] {f : α → β} (injective : Function.Injective f)
    (delimiter : α) (xs : List α) :
    cutAt (f delimiter) (xs.map f) =
      (cutAt delimiter xs).map fun parts => (parts.1.map f, parts.2.map f) := by
  induction xs with
  | nil => rfl
  | cons x xs ih =>
      by_cases here : x = delimiter
      · simp [cutAt, here]
      · simp [cutAt, here, injective.eq_iff, ih, Function.comp_def]

/-! ## The last delimiter -/

/-- What stands before and after the last delimiter, if there is one. -/
def cutAtLast (delimiter : α) (xs : List α) : Option (List α × List α) :=
  (cutAt delimiter xs.reverse).map fun parts => (parts.2.reverse, parts.1.reverse)

theorem cutAtLast_append {delimiter : α} {after : List α} (clean : delimiter ∉ after)
    (before : List α) :
    cutAtLast delimiter (before ++ delimiter :: after) = some (before, after) := by
  have reversed : (before ++ delimiter :: after).reverse =
      after.reverse ++ delimiter :: before.reverse := by
    rw [List.reverse_append, List.reverse_cons, List.append_assoc, List.singleton_append]
  rw [cutAtLast, reversed, cutAt_append (by rwa [List.mem_reverse]), Option.map_some,
    List.reverse_reverse, List.reverse_reverse]

/-- Text is cut in one way at the last delimiter. -/
theorem append_lastDelimiter_inj {delimiter : α} {before otherBefore after otherAfter : List α}
    (clean : delimiter ∉ after) (otherClean : delimiter ∉ otherAfter)
    (same : before ++ delimiter :: after = otherBefore ++ delimiter :: otherAfter) :
    before = otherBefore ∧ after = otherAfter := by
  have cut := cutAtLast_append clean before
  rw [same, cutAtLast_append otherClean, Option.some.injEq, Prod.mk.injEq] at cut
  exact ⟨cut.1.symm, cut.2.symm⟩

theorem cutAtLast_eq_none_iff {delimiter : α} {xs : List α} :
    cutAtLast delimiter xs = none ↔ delimiter ∉ xs := by
  rw [cutAtLast, Option.map_eq_none_iff, cutAt_eq_none_iff, List.mem_reverse]

/-! ## All complete pieces -/

/-- The pieces that a delimiter ends, in order and without their delimiters, and
the rest after the last delimiter. -/
def splitLines (delimiter : α) : List α → List (List α) × List α
  | [] => ([], [])
  | x :: xs =>
      if x = delimiter then ([] :: (splitLines delimiter xs).1, (splitLines delimiter xs).2)
      else
        match splitLines delimiter xs with
        | ([], rest) => ([], x :: rest)
        | (line :: lines, rest) => ((x :: line) :: lines, rest)

theorem splitLines_of_notMem {delimiter : α} {xs : List α} (clean : delimiter ∉ xs) :
    splitLines delimiter xs = ([], xs) := by
  induction xs with
  | nil => rfl
  | cons x xs ih =>
      simp only [List.mem_cons, not_or] at clean
      simp [splitLines, Ne.symm clean.1, ih clean.2]

/-- A stream that starts with a complete piece. -/
theorem splitLines_cons_piece {delimiter : α} {line : List α} (clean : delimiter ∉ line)
    (rest : List α) :
    splitLines delimiter (line ++ delimiter :: rest) =
      (line :: (splitLines delimiter rest).1, (splitLines delimiter rest).2) := by
  induction line with
  | nil => simp [splitLines]
  | cons x xs ih =>
      simp only [List.mem_cons, not_or] at clean
      simp [splitLines, Ne.symm clean.1, ih clean.2]

/-- Reading by pieces: either nothing is complete, or the stream starts with a
complete piece. -/
theorem splitLines_cases (delimiter : α) (xs : List α) :
    (delimiter ∉ xs ∧ splitLines delimiter xs = ([], xs)) ∨
      ∃ line rest, delimiter ∉ line ∧ xs = line ++ delimiter :: rest ∧
        splitLines delimiter xs =
          (line :: (splitLines delimiter rest).1, (splitLines delimiter rest).2) := by
  cases found : cutAt delimiter xs with
  | none =>
      have clean := cutAt_eq_none_iff.mp found
      exact .inl ⟨clean, splitLines_of_notMem clean⟩
  | some parts =>
      obtain ⟨line, rest⟩ := parts
      obtain ⟨rfl, clean⟩ := cutAt_eq_some_iff.mp found
      exact .inr ⟨line, rest, clean, rfl, splitLines_cons_piece clean rest⟩

/-- **Streams can be read in parts.** The complete pieces of a stream are those of
its first part, followed by those of the unfinished rest and the second part. -/
theorem splitLines_append (delimiter : α) (xs ys : List α) :
    splitLines delimiter (xs ++ ys) =
      ((splitLines delimiter xs).1 ++
          (splitLines delimiter ((splitLines delimiter xs).2 ++ ys)).1,
        (splitLines delimiter ((splitLines delimiter xs).2 ++ ys)).2) := by
  -- The induction is on the length of the first part, one complete piece at a time.
  induction length : xs.length using Nat.strongRecOn generalizing xs with
  | ind n ih =>
      rcases splitLines_cases delimiter xs with ⟨_, equation⟩ | ⟨line, rest, clean, rfl, equation⟩
      · simp [equation]
      · have shorter : rest.length < n := by
          rw [← length]
          simp only [List.length_append, List.length_cons]
          omega
        have tail := ih rest.length shorter rest rfl
        rw [equation, List.append_assoc, List.cons_append, splitLines_cons_piece clean, tail,
          List.cons_append]

/-- The unfinished rest does not contain the delimiter. -/
theorem notMem_rest (delimiter : α) (xs : List α) : delimiter ∉ (splitLines delimiter xs).2 := by
  induction length : xs.length using Nat.strongRecOn generalizing xs with
  | ind n ih =>
      rcases splitLines_cases delimiter xs with ⟨clean, equation⟩ | ⟨first, rest, _, rfl, equation⟩
      · rw [equation]
        exact clean
      · rw [equation]
        refine ih rest.length ?_ rest rfl
        rw [← length]
        simp only [List.length_append, List.length_cons]
        omega

/-- The unfinished rest is no longer than the stream. -/
theorem length_rest_le (delimiter : α) (xs : List α) :
    (splitLines delimiter xs).2.length ≤ xs.length := by
  induction length : xs.length using Nat.strongRecOn generalizing xs with
  | ind n ih =>
      rcases splitLines_cases delimiter xs with ⟨_, equation⟩ | ⟨first, rest, _, rfl, equation⟩
      · rw [equation]
        exact Nat.le_of_eq length
      · rw [equation]
        simp only [List.length_append, List.length_cons] at length
        exact Nat.le_trans (ih rest.length (by omega) rest rfl) (by omega)

/-! ## Streams of lines -/

/-- The stream of the pieces, each followed by its delimiter. -/
def joinLines (delimiter : α) (lines : List (List α)) : List α :=
  (lines.map fun line => line ++ [delimiter]).flatten

omit [DecidableEq α] in
@[simp] theorem joinLines_nil (delimiter : α) : joinLines delimiter [] = [] := rfl

omit [DecidableEq α] in
@[simp] theorem joinLines_cons (delimiter : α) (line : List α) (lines : List (List α)) :
    joinLines delimiter (line :: lines) = line ++ delimiter :: joinLines delimiter lines := by
  simp [joinLines]

/-- Reading the stream of some pieces and an unfinished rest gives them back. -/
theorem splitLines_joinLines {delimiter : α} {lines : List (List α)} {rest : List α}
    (clean : ∀ line ∈ lines, delimiter ∉ line) (unfinished : delimiter ∉ rest) :
    splitLines delimiter (joinLines delimiter lines ++ rest) = (lines, rest) := by
  induction lines with
  | nil => exact splitLines_of_notMem unfinished
  | cons line lines ih =>
      rw [joinLines_cons, List.append_assoc, List.cons_append,
        splitLines_cons_piece (clean line List.mem_cons_self),
        ih fun other member => clean other (List.mem_cons_of_mem _ member)]

/-- A delimiter-free front of a stream is no longer than the longest piece or
rest. -/
theorem length_le_of_front {delimiter : α} {front back : List α} {bound : Nat}
    (clean : delimiter ∉ front)
    (lines : ∀ line ∈ (splitLines delimiter (front ++ back)).1, line.length ≤ bound)
    (rest : (splitLines delimiter (front ++ back)).2.length ≤ bound) :
    front.length ≤ bound := by
  rcases splitLines_cases delimiter (front ++ back) with
    ⟨_, equation⟩ | ⟨line, after, _, split, equation⟩
  · rw [equation, List.length_append] at rest
    omega
  · rw [equation] at lines
    have first := lines line List.mem_cons_self
    by_contra longer
    -- A front longer than the first piece would contain the delimiter that ends it.
    have inFront : (front ++ back)[line.length]? = front[line.length]? :=
      List.getElem?_append_left (by omega)
    have found : front[line.length]? = some delimiter := by
      rw [← inFront, split, List.getElem?_append_right (Nat.le_refl _)]
      simp
    exact clean (List.mem_of_getElem? found)

end InfraFromScratch.Foundations
