import Mathlib

/-!
# Visiting positions in turn

Starting from any number and going on by one, the remainders by `size` run through all
positions below `size`, and come back to none of them before all were seen. Of successive
numbers, two positions get as many, up to one (`countP_turnAt_le`).

Where some positions are closed, each number goes on to the first open one. Then the numbers
are divided evenly only in two cases: all positions are open, or no more than one is
(`fair_iff`).
-/

set_option autoImplicit false

namespace InfraFromScratch.Foundations

variable {size start offset other position : Nat}

/-- The position `offset` steps after the one of `start`. -/
def turnAt (size start offset : Nat) : Nat := (start + offset) % size

theorem turnAt_lt (inside : offset < size) (start : Nat) : turnAt size start offset < size :=
  Nat.mod_lt _ (Nat.zero_lt_of_lt inside)

/-- Only the remainder of the start matters. -/
theorem turnAt_mod (size start offset : Nat) :
    turnAt size (start % size) offset = turnAt size start offset :=
  Nat.mod_add_mod start size offset

/-- **No position is met twice.** -/
theorem turnAt_injective (inside : offset < size) (otherInside : other < size)
    (same : turnAt size start offset = turnAt size start other) : offset = other := by
  have congruent : offset ≡ other [MOD size] := Nat.ModEq.add_left_cancel' start same
  exact congruent.eq_of_lt_of_lt inside otherInside

/-- **Every position is met.** -/
theorem exists_turnAt_eq (inside : position < size) (start : Nat) :
    ∃ offset < size, turnAt size start offset = position := by
  have positive : 0 < size := Nat.zero_lt_of_lt inside
  have below : start % size < size := Nat.mod_lt _ positive
  refine ⟨(position + (size - start % size)) % size, Nat.mod_lt _ positive, ?_⟩
  calc turnAt size start ((position + (size - start % size)) % size)
      = (start % size + (position + (size - start % size))) % size := by
        rw [← turnAt_mod, turnAt, Nat.add_mod_mod]
    _ = (position + size) % size := by
        congr 1
        omega
    _ = position := by
        rw [Nat.add_mod_right, Nat.mod_eq_of_lt inside]

/-- The turns of a position are the numbers of one residue. -/
theorem turnAt_eq_iff (inside : position < size) :
    turnAt size start offset = position ↔ offset ≡ position + (size - start % size) [MOD size] := by
  have below : start % size < size := Nat.mod_lt _ (Nat.zero_lt_of_lt inside)
  have residue : start % size + offset ≡ start + offset [MOD size] :=
    (Nat.mod_modEq start size).add_right offset
  constructor
  · intro here
    have reached : position ≡ start % size + offset [MOD size] := by
      rw [← here]
      exact (Nat.mod_modEq _ _).trans residue.symm
    have shifted := (reached.add_right (size - start % size)).symm
    have whole : start % size + offset + (size - start % size) = offset + size := by omega
    rw [whole] at shifted
    exact (Nat.add_modEq_right).symm.trans shifted
  · intro congruent
    have shifted := congruent.add_left (start % size)
    have whole : start % size + (position + (size - start % size)) = position + size := by omega
    rw [whole] at shifted
    have reached : start + offset ≡ position [MOD size] :=
      residue.symm.trans (shifted.trans Nat.add_modEq_right)
    rw [turnAt, reached, Nat.mod_eq_of_lt inside]

/-- **Turns are even.** Of successive numbers, two positions get as many, up to one. -/
theorem countP_turnAt_le (inside : position < size) (otherInside : other < size)
    (first count : Nat) :
    (List.range count).countP (fun turn => turnAt size first turn = position) ≤
      (List.range count).countP (fun turn => turnAt size first turn = other) + 1 := by
  have positive : 0 < size := Nat.zero_lt_of_lt inside
  have counted : ∀ place < size,
      (List.range count).countP (fun turn => turnAt size first turn = place) =
        count.count (· ≡ place + (size - first % size) [MOD size]) := by
    intro place placeInside
    apply List.countP_congr
    intro turn _
    rw [decide_eq_true_eq, decide_eq_true_eq]
    exact turnAt_eq_iff placeInside
  rw [counted position inside, counted other otherInside, Nat.count_modEq_card count positive,
    Nat.count_modEq_card count positive]
  split <;> split <;> omega

/-! ## Passing over closed positions -/

section Closed

variable {opens : Nat → Prop}

/-- The first open position from the start on. -/
def FirstOpen (size : Nat) (opens : Nat → Prop) (start position : Nat) : Prop :=
  ∃ offset < size, turnAt size start offset = position ∧ opens position ∧
    ∀ earlier < offset, ¬ opens (turnAt size start earlier)

theorem FirstOpen.unique (first : FirstOpen size opens start position)
    (second : FirstOpen size opens start other) : position = other := by
  obtain ⟨offset, -, rfl, isOpen, closed⟩ := first
  obtain ⟨offset', -, rfl, isOpen', closed'⟩ := second
  rcases Nat.lt_trichotomy offset offset' with before | same | after
  · exact absurd isOpen (closed' offset before)
  · rw [same]
  · exact absurd isOpen' (closed offset' after)

/-- Only the remainder of the start matters. -/
theorem firstOpen_mod : FirstOpen size opens (start % size) position ↔
    FirstOpen size opens start position := by
  simp only [FirstOpen, turnAt_mod]

/-- From everywhere an open position is met. -/
theorem exists_firstOpen (inside : position < size) (isOpen : opens position) (start : Nat) :
    ∃ first, FirstOpen size opens start first := by
  classical
  obtain ⟨offset, offsetInside, reached⟩ := exists_turnAt_eq inside start
  have reachable : ∃ offset, opens (turnAt size start offset) := ⟨offset, reached ▸ isOpen⟩
  have before : Nat.find reachable ≤ offset := Nat.find_min' reachable (reached ▸ isOpen)
  exact ⟨_, Nat.find reachable, before.trans_lt offsetInside, rfl, Nat.find_spec reachable,
    fun _ earlier => Nat.find_min reachable earlier⟩

/-- A start at an open position stays there. -/
theorem firstOpen_of_open (positive : 0 < size) (isOpen : opens (start % size)) :
    FirstOpen size opens start (start % size) :=
  ⟨0, positive, rfl, isOpen, fun _ before => absurd before (Nat.not_lt_zero _)⟩

/-- Where some positions are open and some are not, an open one follows a closed one. -/
theorem exists_gap (inside : position < size) (isOpen : opens position)
    (otherInside : other < size) (isClosed : ¬ opens other) :
    ∃ gap < size, ¬ opens gap ∧ opens ((gap + 1) % size) := by
  classical
  obtain ⟨offset, _, reached⟩ := exists_turnAt_eq inside other
  have reachable : ∃ offset, opens (turnAt size other offset) := ⟨offset, reached ▸ isOpen⟩
  have zero : Nat.find reachable ≠ 0 := by
    intro zero
    have here := Nat.find_spec reachable
    rw [zero, turnAt, Nat.add_zero, Nat.mod_eq_of_lt otherInside] at here
    exact isClosed here
  obtain ⟨before, next⟩ := Nat.exists_eq_succ_of_ne_zero zero
  refine ⟨turnAt size other before, Nat.mod_lt _ (Nat.zero_lt_of_lt inside), ?_, ?_⟩
  · exact Nat.find_min reachable (by omega)
  · have here := Nat.find_spec reachable
    rw [next] at here
    rw [turnAt, Nat.mod_add_mod]
    exact here

/-- A start at a closed position goes on to an open one behind it. -/
theorem firstOpen_behind_gap (inside : start < size) (isClosed : ¬ opens start)
    (behind : opens ((start + 1) % size)) : FirstOpen size opens start ((start + 1) % size) := by
  have larger : 1 < size := by
    by_contra single
    have one : size = 1 := by omega
    have zero : start = 0 := by omega
    subst one zero
    exact isClosed behind
  refine ⟨1, larger, rfl, behind, ?_⟩
  intro earlier before
  obtain rfl : earlier = 0 := by omega
  rw [turnAt, Nat.add_zero, Nat.mod_eq_of_lt inside]
  exact isClosed

/-- How many of successive starts are served at a position. -/
def servedAt (serve : Nat → Nat) (first count position : Nat) : Nat :=
  (List.range count).countP fun turn => serve (first + turn) = position

/-- **When passing over is fair.** Let every start be served at the first open position. Two
open positions always serve as many of successive starts, up to one, iff there is no more than
one open position or no closed one. -/
theorem fair_iff {serve : Nat → Nat} {limit : Nat} (room : size < limit)
    (serves : ∀ start < limit, FirstOpen size opens start (serve start)) :
    (∀ first count, first + count ≤ limit → ∀ position other, position < size → opens position →
        other < size → opens other →
        servedAt serve first count position ≤ servedAt serve first count other + 1) ↔
      (∀ position other, position < size → opens position → other < size → opens other →
        position = other) ∨ ∀ position < size, opens position := by
  constructor
  · intro fair
    by_contra neither
    push Not at neither
    obtain ⟨⟨position, other, inside, isOpen, otherInside, otherOpen, differ⟩, closed, closedInside,
      isClosed⟩ := neither
    -- The start at the gap and the next one are both served behind the gap.
    obtain ⟨gap, gapInside, gapClosed, behind⟩ := exists_gap inside isOpen closedInside isClosed
    have positive : 0 < size := Nat.zero_lt_of_lt inside
    have atGap : serve gap = (gap + 1) % size :=
      (serves gap (by omega)).unique (firstOpen_behind_gap gapInside gapClosed behind)
    have afterGap : serve (gap + 1) = (gap + 1) % size :=
      (serves (gap + 1) (by omega)).unique (firstOpen_of_open positive behind)
    have served : ∀ place, servedAt serve gap 2 place =
        if (gap + 1) % size = place then 2 else 0 := by
      intro place
      have both : List.range 2 = [0, 1] := rfl
      by_cases here : (gap + 1) % size = place
      · simp [servedAt, both, atGap, afterGap, here]
      · simp [servedAt, both, atGap, afterGap, here]
    have starved : ∀ place < size, opens place → place = (gap + 1) % size := by
      intro place placeInside placeOpen
      by_contra elsewhere
      have uneven := fair gap 2 (by omega) _ place (Nat.mod_lt _ positive) behind placeInside placeOpen
      rw [served, served, if_pos rfl, if_neg (Ne.symm elsewhere)] at uneven
      omega
    exact differ ((starved position inside isOpen).trans (starved other otherInside otherOpen).symm)
  · rintro (alone | all)
    · intro first count _ position other inside isOpen otherInside otherOpen
      rw [alone position other inside isOpen otherInside otherOpen]
      omega
    · intro first count within position other inside _ otherInside _
      have positive : 0 < size := Nat.zero_lt_of_lt inside
      have turns : ∀ place, servedAt serve first count place =
          (List.range count).countP fun turn => turnAt size first turn = place := by
        intro place
        apply List.countP_congr
        intro turn member
        have before := List.mem_range.mp member
        have here := (serves (first + turn) (by omega)).unique
          (firstOpen_of_open positive (all _ (Nat.mod_lt _ positive)))
        rw [here]
        rfl
      rw [turns, turns]
      exact countP_turnAt_le inside otherInside first count

end Closed

end InfraFromScratch.Foundations
