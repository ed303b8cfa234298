import InfraFromScratch.LoadBalancer.Connection

/-!
# Whom passive health blames

`relay` returns one error for the failures of the backend and for those of the client,
and `handleConnection` marks the backend and goes on to the next one from that error
alone. A client that is gone before the first byte of an answer therefore costs a backend
its turn and has the request sent again.

This is the only way in which a run blames the wrong side: `handleConnection_blameless_iff`
says for which inputs it happens.
-/

set_option autoImplicit false

namespace InfraFromScratch.LoadBalancer

open Foundations Gateway

/-- A write of the attempt to the client failed. -/
def Visit.ClientFailed (visit : Visit) : Prop :=
  ∃ relayed, visit.attempt = some relayed ∧ relayed.ClientFailed

/-- Only backends are blamed. -/
structure Blameless (run : Run) : Prop where
  /-- A backend that is marked has failed by itself. -/
  backend : ∀ visit ∈ run.visits, visit.mark = some .failure →
    ∃ relayed, visit.attempt = some relayed ∧ relayed.BackendFailed
  /-- A failure of the client marks no backend and is not followed by another attempt. -/
  client : ∀ before visit after, run.visits = before ++ visit :: after → visit.ClientFailed →
    visit.mark ≠ some .failure ∧ ∀ later ∈ after, later.attempt = none
  /-- Nor does it put any backend into cooldown. -/
  cooldown : ∀ visit ∈ run.visits, visit.ClientFailed →
    ∀ (now : Int) (pool : BackendPool) (time : Int) (backend : Pointer),
      pool.available time backend = true → (visit.tell now pool).available time backend = true

theorem Visit.PassedOver.not_clientFailed {visit : Visit} (passedOver : visit.PassedOver) :
    ¬ visit.ClientFailed := by
  intro failed
  obtain ⟨relayed, isAttempt, clientFailed⟩ := failed
  rcases passedOver with ⟨skipped, -⟩ | ⟨same, isSame, -, -, -, clientFine⟩
  · rw [skipped] at isAttempt
    cases isAttempt
  · cases isAttempt.symm.trans isSame
    exact clientFine clientFailed

theorem Visit.PassedOver.backendFailed {visit : Visit} (passedOver : visit.PassedOver)
    (marked : visit.mark = some .failure) :
    ∃ relayed, visit.attempt = some relayed ∧ relayed.BackendFailed := by
  rcases passedOver with ⟨-, unmarked⟩ | ⟨relayed, isAttempt, -, -, failed, -⟩
  · rw [unmarked] at marked
    cases marked
  · exact ⟨relayed, isAttempt, failed⟩

/-- Without a mark of failure no backend is put into cooldown. -/
theorem Visit.available_tell {visit : Visit} (unmarked : visit.mark ≠ some .failure) (now : Int)
    {pool : BackendPool} {time : Int} {backend : Pointer}
    (available : pool.available time backend = true) :
    (visit.tell now pool).available time backend = true := by
  unfold Visit.tell
  split
  · rename_i marked
    exact absurd marked unmarked
  · exact pool.available_markSuccess available
  · exact available

/-- A run that passes over backends is blameless. -/
theorem blameless_of_passedOver {run : Run}
    (passedOver : ∀ visit ∈ run.visits, visit.PassedOver) : Blameless run where
  backend := fun visit member => (passedOver visit member).backendFailed
  client := by
    intro before visit after visits failed
    refine absurd failed (passedOver visit ?_).not_clientFailed
    rw [visits]
    exact List.mem_append_right _ List.mem_cons_self
  cooldown := fun visit member failed =>
    absurd failed (passedOver visit member).not_clientFailed

/-- So is one that ends with a visit that marks no failure. -/
theorem blameless_of_last {run : Run} {passed : List Visit} {last : Visit}
    (visits : run.visits = passed ++ [last])
    (passedOver : ∀ visit ∈ passed, visit.PassedOver) (unmarked : last.mark ≠ some .failure) :
    Blameless run where
  backend := by
    intro visit member marked
    rw [visits] at member
    rcases List.mem_append.mp member with early | isLast
    · exact (passedOver visit early).backendFailed marked
    · rw [List.mem_singleton.mp isLast] at marked
      exact absurd marked unmarked
  client := by
    intro before visit after split failed
    rw [visits] at split
    rcases List.eq_nil_or_concat after with last | ⟨middle, final, isAfter⟩
    · subst last
      obtain ⟨-, same⟩ := List.append_inj' split rfl
      cases same
      exact ⟨unmarked, by simp⟩
    · -- The visit stands before the last one, so it was passed over.
      rw [isAfter, List.concat_eq_append, ← List.cons_append, ← List.append_assoc] at split
      obtain ⟨early, -⟩ := List.append_inj' split rfl
      refine absurd failed (passedOver visit ?_).not_clientFailed
      rw [early]
      exact List.mem_append_right _ List.mem_cons_self
  cooldown := by
    intro visit member failed now pool time backend
    rw [visits] at member
    rcases List.mem_append.mp member with early | isLast
    · exact absurd failed (passedOver visit early).not_clientFailed
    · rw [List.mem_singleton.mp isLast]
      exact Visit.available_tell unmarked now

theorem blameless_of_no_visits {run : Run} (nowhere : run.visits = []) : Blameless run := by
  apply blameless_of_passedOver
  rw [nowhere]
  simp

/-! ## The decisive attempt -/

section Decisive

variable {environment : Environment} (request : Bytes) {offset position : Nat}
  {backend : Pointer} (rest : List Nat)
  (found : selected environment.selection environment.backends offset = some (position, backend))
  (available : environment.available offset backend = true)

include found available

/-- A backend that closes without a byte, or a client that takes the first one, ends the
run without a mark against the backend. -/
theorem exists_last_of_fine (sound : ¬ (environment.exchangeAt offset).Fails)
    (fine : (environment.exchangeAt offset).Silent ∨
      environment.writes Outgoing.start.calls = .done) :
    ∃ last : Visit, last.mark ≠ some .failure ∧
      (tryBackends environment request .start (offset :: rest)).visits = [last] := by
  obtain ⟨relayed, attempted⟩ : ∃ relayed,
      attempt environment.writes .start (environment.exchangeAt offset) request = relayed :=
    ⟨_, rfl⟩
  by_cases error : relayed.error = none
  · refine ⟨_, ?_, congrArg Run.visits (tryBackends_of_served found available attempted error)⟩
    simp
  · have started : relayed.started = true := by
      rcases Exchange.silent_or_answers sound with silent | answers
      · rw [← attempted] at error
        exact absurd (attempt_of_silent environment.writes .start request silent).2.1 error
      · rcases fine with silent | taken
        · exact absurd silent.2.2.1 answers.2.2
        · rw [← attempted]
          exact (attempt_of_taken environment.writes .start request answers taken).1
    refine ⟨_, ?_,
      congrArg Run.visits (tryBackends_of_broken found available attempted error started)⟩
    simp

/-- A client that refuses the first byte of an answer has the backend marked. -/
theorem exists_blamed_of_refused (answers : (environment.exchangeAt offset).Answers)
    (refused : environment.writes Outgoing.start.calls ≠ .done) :
    ∃ (blamed : Visit) (after : List Visit), blamed.ClientFailed ∧
      blamed.mark = some .failure ∧
      (tryBackends environment request .start (offset :: rest)).visits = blamed :: after := by
  cases first : environment.writes Outgoing.start.calls with
  | done => exact absurd first refused
  | failed count reason =>
      obtain ⟨started, error, failed, -⟩ :=
        attempt_of_refused environment.writes .start request answers first
      exact ⟨⟨offset, position, backend, some _, some .failure⟩, _, ⟨_, rfl, failed⟩, rfl,
        congrArg Run.visits (tryBackends_of_failed found available rfl error started)⟩

end Decisive

/-! ## When only backends are blamed -/

theorem tryBackends_blameless_iff {environment : Environment} (request : Bytes)
    (nonneg : 0 ≤ initialIndex environment.selection environment.backends.length) :
    Blameless
        (tryBackends environment request .start (List.range environment.backends.length)) ↔
      ∀ offset, environment.FirstSound offset →
        (environment.exchangeAt offset).Silent ∨ environment.writes 0 = .done := by
  obtain ⟨passed, passedOver, ⟨passes, equation⟩ | ⟨offset, position, backend, rest, first, found,
    available, equation⟩⟩ := tryBackends_split request .start nonneg
  · refine iff_of_true ?_ fun offset first => ?_
    · apply blameless_of_passedOver
      rw [equation, Run.after_visits, failWith, List.append_nil]
      exact passedOver
    · exact absurd (passes offset first.inside first.available) first.sound
  · constructor
    · intro blameless other otherFirst
      cases first.unique otherFirst
      by_contra bad
      obtain ⟨loud, refused⟩ := not_or.mp bad
      have answers := (Exchange.silent_or_answers first.sound).resolve_left loud
      obtain ⟨blamed, after, failed, marked, visits⟩ :=
        exists_blamed_of_refused request rest found available answers refused
      refine (blameless.client passed blamed after ?_ failed).1 marked
      rw [equation, Run.after_visits, visits]
    · intro condition
      obtain ⟨last, unmarked, visits⟩ := exists_last_of_fine request rest found available
        first.sound (condition offset first)
      refine blameless_of_last ?_ passedOver unmarked
      rw [equation, Run.after_visits, visits]

/-- **Whom a run blames**: only backends, if and only if the first available backend that
does not fail by itself closes without a byte, or the first write to the client succeeds,
or there is no such backend. -/
theorem handleConnection_blameless_iff (tables : UnicodeTables) (environment : Environment) :
    Blameless (handleConnection tables environment) ↔
      ∀ request offset, acceptRequest tables environment.incoming = some request →
        0 ≤ initialIndex environment.selection environment.backends.length →
        environment.FirstSound offset →
        (environment.exchangeAt offset).Silent ∨ environment.writes 0 = .done := by
  cases accepted : acceptRequest tables environment.incoming with
  | none =>
      refine iff_of_true (blameless_of_no_visits ?_) (by simp)
      rw [handleConnection, accepted]
      rfl
  | some request =>
      by_cases empty : environment.backends = []
      · refine iff_of_true (blameless_of_no_visits ?_) fun _ offset _ _ first => ?_
        · rw [handleConnection_of_empty accepted empty, failWith]
        · have inside := first.inside
          rw [empty] at inside
          exact absurd inside (Nat.not_lt_zero _)
      · rw [handleConnection_eq accepted empty]
        by_cases nonneg : 0 ≤ initialIndex environment.selection environment.backends.length
        · rw [tryBackends_blameless_iff request nonneg]
          exact ⟨fun condition _ offset _ _ => condition offset,
            fun condition offset => condition request offset rfl nonneg⟩
        · refine iff_of_true (blameless_of_no_visits ?_)
            fun _ _ _ inRange => absurd inRange nonneg
          rw [tryBackends_of_neg request .start empty (not_le.mp nonneg)]

/-- A client that is gone before the first byte has its backend blamed. -/
theorem gone_client_blames_backend :
    ¬ Blameless (handleConnection ⟨id, id⟩
      (plainEnvironment (fun _ => .failed 0 .other) fun _ =>
        ⟨none, none, ⟨[ascii "HTTP/1.0 200 OK\r\n\r\n"], [], .eof⟩⟩)) := by
  rw [handleConnection_eq (acceptRequest_plain _) (by decide),
    tryBackends_blameless_iff _ (by decide)]
  intro condition
  have bytes : (Incoming.mk [ascii "HTTP/1.0 200 OK\r\n\r\n"] [] .eof).bytes ≠ [] := by decide
  rcases condition 0 ⟨by decide, ⟨0, 0, by decide, by decide⟩,
    by simp [plainEnvironment, Exchange.Fails], by simp⟩ with silent | taken
  · exact bytes silent.2.2.1
  · cases taken

end InfraFromScratch.LoadBalancer
