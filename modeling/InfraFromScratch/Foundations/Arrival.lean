import InfraFromScratch.Foundations.Search

/-!
# Receiving until a pattern is there

A reader that waits for a terminator takes one piece of the stream after another until the
terminator is in what it has. What it has then depends on how the stream was cut
(`arrive`), and it may have more than it waited for. The place of the terminator does not
depend on it (`indexOf_arrive`), and neither does the side of the stream on which the
last piece begins (`exists_last_piece`).
-/

set_option autoImplicit false

namespace InfraFromScratch.Foundations

variable {Element : Type*} [DecidableEq Element]

/-- What was received when the pattern was first there, or at the end of the pieces. -/
def arrive (pattern received : List Element) : List (List Element) → List Element
  | [] => received
  | piece :: rest =>
      if indexOf pattern received ≠ none then received else arrive pattern (received ++ piece) rest

variable {pattern received : List Element} {pieces : List (List Element)} {index : Nat}

theorem arrive_of_found (found : indexOf pattern received ≠ none) (pieces : List (List Element)) :
    arrive pattern received pieces = received := by
  cases pieces with
  | nil => rfl
  | cons piece rest => rw [arrive, if_pos found]

theorem arrive_cons_of_missing (missing : indexOf pattern received = none) (piece : List Element)
    (rest : List (List Element)) :
    arrive pattern received (piece :: rest) = arrive pattern (received ++ piece) rest := by
  rw [arrive, if_neg (not_not.mpr missing)]

theorem prefix_arrive (pattern received : List Element) (pieces : List (List Element)) :
    received <+: arrive pattern received pieces := by
  induction pieces generalizing received with
  | nil => exact List.prefix_rfl
  | cons piece rest ih =>
      rw [arrive]
      split
      · exact List.prefix_rfl
      · exact (List.prefix_append _ _).trans (ih _)

theorem arrive_prefix (pattern received : List Element) (pieces : List (List Element)) :
    arrive pattern received pieces <+: received ++ pieces.flatten := by
  induction pieces generalizing received with
  | nil => exact List.prefix_append _ _
  | cons piece rest ih =>
      rw [arrive]
      split
      · exact List.prefix_append _ _
      · rw [List.flatten_cons, ← List.append_assoc]
        exact ih _

/-- **The pattern is found** in what was received where it is in the stream. -/
theorem indexOf_arrive (nonempty : pattern ≠ []) (received : List Element)
    (pieces : List (List Element)) :
    indexOf pattern (arrive pattern received pieces) =
      indexOf pattern (received ++ pieces.flatten) := by
  induction pieces generalizing received with
  | nil => rw [arrive, List.flatten_nil, List.append_nil]
  | cons piece rest ih =>
      cases here : indexOf pattern received with
      | some place =>
          rw [arrive_of_found (by rw [here]; exact Option.some_ne_none _), here,
            indexOf_append nonempty here]
      | none =>
          rw [arrive_cons_of_missing here, ih, List.flatten_cons, List.append_assoc]

/-- **The last piece** that was received is the one in which the pattern ends. -/
theorem exists_last_piece (missing : indexOf pattern received = none)
    (found : indexOf pattern (received ++ pieces.flatten) = some index) :
    ∃ before piece after, pieces = before ++ piece :: after ∧
      arrive pattern received pieces = received ++ before.flatten ++ piece ∧
      (received ++ before.flatten).length < index + pattern.length := by
  induction pieces generalizing received with
  | nil =>
      rw [List.flatten_nil, List.append_nil, missing] at found
      cases found
  | cons piece rest ih =>
      rw [List.flatten_cons, ← List.append_assoc] at found
      rw [arrive_cons_of_missing missing]
      cases here : indexOf pattern (received ++ piece) with
      | some place =>
          refine ⟨[], piece, rest, rfl, ?_, ?_⟩
          · rw [arrive_of_found (by rw [here]; exact Option.some_ne_none _)]
            simp
          · rw [List.append_assoc] at found
            rw [List.flatten_nil, List.append_nil]
            exact length_lt_of_indexOf found missing
      | none =>
          obtain ⟨before, last, after, rfl, arrived, early⟩ := ih here found
          exact ⟨piece :: before, last, after, rfl, by simpa using arrived, by simpa using early⟩

/-- A piece that begins before the end of the pattern is received. -/
theorem piece_prefix_arrive (nonempty : pattern ≠ []) (received : List Element)
    {before after : List (List Element)} {piece : List Element}
    (found : indexOf pattern (received ++ (before ++ piece :: after).flatten) = some index)
    (early : (received ++ before.flatten).length < index + pattern.length) :
    received ++ before.flatten ++ piece <+: arrive pattern received (before ++ piece :: after) := by
  induction before generalizing received with
  | nil =>
      rw [List.flatten_nil, List.append_nil] at early
      rw [List.nil_append, arrive_cons_of_missing (indexOf_of_early nonempty found early),
        List.flatten_nil, List.append_nil]
      exact prefix_arrive _ _ _
  | cons first before ih =>
      have missing : indexOf pattern received = none := by
        rw [List.length_append] at early
        exact indexOf_of_early nonempty found (by omega)
      rw [List.cons_append, List.flatten_cons, ← List.append_assoc] at found
      rw [List.flatten_cons, ← List.append_assoc] at early
      rw [List.cons_append, arrive_cons_of_missing missing, List.flatten_cons, ← List.append_assoc]
      exact ih _ found early

/-- What was received fits exactly when no piece that begins before the end of the pattern
reaches beyond the bound. -/
theorem length_arrive_le_iff (nonempty : pattern ≠ [])
    (found : indexOf pattern pieces.flatten = some index) (bound : Nat) :
    (arrive pattern [] pieces).length ≤ bound ↔
      ∀ before piece after, pieces = before ++ piece :: after →
        before.flatten.length < index + pattern.length →
        before.flatten.length + piece.length ≤ bound := by
  constructor
  · rintro fits before piece after rfl early
    have received := (piece_prefix_arrive nonempty [] found early).length_le
    rw [List.nil_append, List.length_append] at received
    exact received.trans fits
  · intro fits
    have missing : indexOf pattern ([] : List Element) = none := by
      rw [indexOf, if_neg nonempty]
    obtain ⟨before, last, after, cut, arrived, early⟩ := exists_last_piece missing found
    rw [arrived, List.nil_append, List.length_append]
    exact fits before last after cut early

end InfraFromScratch.Foundations
