import InfraFromScratch.LoadBalancer.Connection

/-!
# Failover

A request that was accepted goes round the snapshot. Every available backend that is
reached is dialled; the first attempt that ends without error or has started the response
is the last. The client receives a part of one response, or of the one error page.

The route of the loop (`Walk`) does not depend on the client and is proved by induction
over the offsets. What is delivered needs that a client that failed once stays dead: the
code goes on to another backend when the first write of a response fails.
-/

set_option autoImplicit false

namespace InfraFromScratch.LoadBalancer

open Foundations Gateway

/-- The page that is sent when no backend served the request. -/
def badGateway : Ending := .errorPage "502 Bad Gateway" "Bad Gateway\n"

namespace Visit

/-- The backend was dialled. -/
def Dials (visit : Visit) : Prop :=
  ∃ relayed error, visit.attempt = some relayed ∧ Event.dial error ∈ relayed.events

/-- The attempt ended without error, or has started the response. -/
def Settles (visit : Visit) : Prop :=
  ∃ relayed, visit.attempt = some relayed ∧ (relayed.error = none ∨ relayed.started = true)

/-- The attempt failed with no response started. -/
def FailsUnstarted (visit : Visit) : Prop :=
  ∃ relayed, visit.attempt = some relayed ∧ relayed.error ≠ none ∧ relayed.started = false

theorem not_settles_of_failsUnstarted {visit : Visit} (fails : visit.FailsUnstarted) :
    ¬ visit.Settles := by
  intro settles
  obtain ⟨relayed, isAttempt, error, started⟩ := fails
  obtain ⟨same, isSame, settled⟩ := settles
  cases isAttempt.symm.trans isSame
  rcases settled with noError | hasStarted
  · exact error noError
  · rw [started] at hasStarted
    cases hasStarted

/-- An attempt settles the request or fails. -/
theorem failsUnstarted_of_not_settles {visit : Visit} {relayed : Relayed}
    (isAttempt : visit.attempt = some relayed) (unsettled : ¬ visit.Settles) :
    visit.FailsUnstarted := by
  refine ⟨relayed, isAttempt, fun noError => unsettled ⟨relayed, isAttempt, .inl noError⟩, ?_⟩
  cases started : relayed.started with
  | false => rfl
  | true => exact absurd ⟨relayed, isAttempt, .inr started⟩ unsettled

end Visit

/-! ## The route -/

/-- How a run of the loop over the offsets goes. -/
structure Walk (environment : Environment) (offsets : List Nat) (run : Run) : Prop where
  inTurn : run.visits.map Visit.offset <+: offsets
  found : ∀ visit ∈ run.visits,
    selected environment.selection environment.backends visit.offset =
      some (visit.position, visit.backend)
  skips : ∀ visit ∈ run.visits,
    visit.attempt = none ↔ environment.available visit.offset visit.backend = false
  dials : ∀ visit ∈ run.visits, visit.attempt ≠ none → visit.Dials
  stops :
    (run.ending = badGateway ∧ run.visits.map Visit.offset = offsets ∧
        ∀ visit ∈ run.visits, ¬ visit.Settles) ∨
      (run.ending ≠ badGateway ∧ ∃ passed last, run.visits = passed ++ [last] ∧
        (∀ visit ∈ passed, ¬ visit.Settles) ∧ last.Settles)
  /-- The page is the last write to the client, or the writes of the last attempt are. -/
  writes :
    (run.ending = badGateway ∧ ∃ client,
        run.client = sendError environment.writes client "502 Bad Gateway" "Bad Gateway\n") ∨
      (run.ending ≠ badGateway ∧ ∃ visit ∈ run.visits, ∃ relayed,
        visit.attempt = some relayed ∧ visit.Settles ∧ run.client = relayed.client)

namespace Walk

variable {environment : Environment} {rest : List Nat} (visit : Visit)

/-- A visit that does not settle the request goes before the rest of the walk. -/
theorem cons {run : Run} (walk : Walk environment rest run)
    (found : selected environment.selection environment.backends visit.offset =
      some (visit.position, visit.backend))
    (skips : visit.attempt = none ↔ environment.available visit.offset visit.backend = false)
    (dials : visit.attempt ≠ none → visit.Dials)
    (unsettled : ¬ visit.Settles) :
    Walk environment (visit.offset :: rest) (run.after [visit]) where
  inTurn := List.cons_prefix_cons.mpr ⟨rfl, walk.inTurn⟩
  found := List.forall_mem_cons.mpr ⟨found, walk.found⟩
  skips := List.forall_mem_cons.mpr ⟨skips, walk.skips⟩
  dials := List.forall_mem_cons.mpr ⟨dials, walk.dials⟩
  stops := by
    rcases walk.stops with
      ⟨page, complete, unsettledAll⟩ | ⟨noPage, passed, last, visits, unsettledPassed, ends⟩
    · refine .inl ⟨page, ?_, List.forall_mem_cons.mpr ⟨unsettled, unsettledAll⟩⟩
      exact congrArg (visit.offset :: ·) complete
    · refine .inr ⟨noPage, visit :: passed, last, ?_,
        List.forall_mem_cons.mpr ⟨unsettled, unsettledPassed⟩, ends⟩
      exact congrArg (visit :: ·) visits
  writes := by
    refine walk.writes.imp_right fun relays => ?_
    obtain ⟨noPage, last, member, others⟩ := relays
    exact ⟨noPage, last, List.mem_cons_of_mem _ member, others⟩

/-- A visit that settles the request ends the walk. -/
theorem single {ending : Ending} {relayed : Relayed} (isAttempt : visit.attempt = some relayed)
    (found : selected environment.selection environment.backends visit.offset =
      some (visit.position, visit.backend))
    (skips : visit.attempt = none ↔ environment.available visit.offset visit.backend = false)
    (dials : visit.attempt ≠ none → visit.Dials)
    (settles : visit.Settles) (noPage : ending ≠ badGateway) :
    Walk environment (visit.offset :: rest) ⟨[visit], ending, relayed.client⟩ where
  inTurn := List.cons_prefix_cons.mpr ⟨rfl, List.nil_prefix⟩
  found := List.forall_mem_singleton.mpr found
  skips := List.forall_mem_singleton.mpr skips
  dials := List.forall_mem_singleton.mpr dials
  stops := .inr ⟨noPage, [], visit, rfl, by simp, settles⟩
  writes := .inr ⟨noPage, visit, List.mem_cons_self, relayed, isAttempt, settles, rfl⟩

end Walk

/-- **The route of the loop.** -/
theorem tryBackends_walk (environment : Environment) (request : Bytes) (client : Outgoing)
    (offsets : List Nat)
    (inRange : ∀ offset ∈ offsets, ∃ position backend,
      selected environment.selection environment.backends offset = some (position, backend)) :
    Walk environment offsets (tryBackends environment request client offsets) := by
  induction offsets generalizing client with
  | nil =>
      have nowhere : (tryBackends environment request client []).visits = [] := rfl
      exact ⟨List.prefix_rfl, by simp [nowhere], by simp [nowhere], by simp [nowhere],
        .inl ⟨rfl, rfl, by simp [nowhere]⟩, .inl ⟨rfl, client, rfl⟩⟩
  | cons offset rest ih =>
      have restInRange := fun later member => inRange later (List.mem_cons_of_mem _ member)
      obtain ⟨position, backend, found⟩ := inRange offset List.mem_cons_self
      cases available : environment.available offset backend with
      | false =>
          rw [tryBackends_of_unavailable found available]
          refine (ih client restInRange).cons ⟨offset, position, backend, none, none⟩ found
            (iff_of_true rfl available) (absurd rfl) ?_
          simp [Visit.Settles]
      | true =>
          obtain ⟨relayed, attempted⟩ : ∃ relayed,
              attempt environment.writes client (environment.exchangeAt offset) request =
                relayed := ⟨_, rfl⟩
          obtain ⟨reason, member⟩ := exists_dial_mem_attempt environment.writes client request
            (environment.exchangeAt offset)
          rw [attempted] at member
          have skips : some relayed = none ↔ environment.available offset backend = false := by
            simp [available]
          by_cases error : relayed.error = none
          · rw [tryBackends_of_served found available attempted error]
            exact Walk.single ⟨offset, position, backend, some relayed, some .success⟩
              rfl found skips (fun _ => ⟨relayed, reason, rfl, member⟩)
              ⟨relayed, rfl, .inl error⟩ (by simp [badGateway])
          · cases started : relayed.started with
            | true =>
                rw [tryBackends_of_broken found available attempted error started]
                exact Walk.single ⟨offset, position, backend, some relayed, none⟩
                  rfl found skips (fun _ => ⟨relayed, reason, rfl, member⟩)
                  ⟨relayed, rfl, .inr started⟩ (by simp [badGateway])
            | false =>
                rw [tryBackends_of_failed found available attempted error started]
                refine (ih relayed.client restInRange).cons
                  ⟨offset, position, backend, some relayed, some .failure⟩ found skips
                  (fun _ => ⟨relayed, reason, rfl, member⟩) ?_
                exact Visit.not_settles_of_failsUnstarted ⟨relayed, rfl, error, started⟩

/-! ## What is delivered -/

/-- After a write that failed, no write delivers anything. -/
def StaysDead (results : Nat → WriteResult) : Prop :=
  ∀ early late, early < late → results early ≠ .done → ∃ error, results late = .failed 0 error

/-- A dead client receives nothing more, whatever the loop does. -/
theorem tryBackends_of_dead {environment : Environment} (request : Bytes) (offsets : List Nat)
    {client : Outgoing}
    (dead : ∀ late, client.calls ≤ late → ∃ error, environment.writes late = .failed 0 error) :
    (tryBackends environment request client offsets).client.delivered = client.delivered := by
  induction offsets generalizing client with
  | nil =>
      obtain ⟨error, refused⟩ := dead client.calls le_rfl
      rw [tryBackends, failWith, sendError, write_of_failed refused, List.take_zero,
        List.append_nil]
  | cons offset rest ih =>
      obtain ⟨same, later⟩ := attempt_of_dead environment.writes client request dead
        (environment.exchangeAt offset)
      rw [tryBackends]
      split
      · rfl
      · split
        · exact ih dead
        · dsimp only
          split
          · exact same
          · split
            · exact same
            · rw [Run.after_client, ih fun late after => dead late (later.trans after), same]

/-- An attempt that failed without a fault of the backend has met a dead client. -/
theorem dead_of_attempt_failed {results : Nat → WriteResult} (stays : StaysDead results)
    {exchange : Exchange} (sound : ¬ exchange.Fails) {request : Bytes} {relayed : Relayed}
    (attempted : attempt results .start exchange request = relayed)
    (error : relayed.error ≠ none) (started : relayed.started = false) :
    ∀ late, relayed.client.calls ≤ late → ∃ reason, results late = .failed 0 reason := by
  subst attempted
  rcases Exchange.silent_or_answers sound with silent | answers
  · exact absurd (attempt_of_silent results .start request silent).2.1 error
  · cases first : results Outgoing.start.calls with
    | done =>
        rw [(attempt_of_taken results .start request answers first).1] at started
        cases started
    | failed count reason =>
        obtain ⟨-, -, -, data, -, after⟩ := attempt_of_refused results .start request answers first
        intro late later
        rw [after] at later
        exact stays Outgoing.start.calls late later (by rw [first]; simp)

section Decisive

variable {environment : Environment} (request : Bytes) {offset position : Nat}
  {backend : Pointer} (rest : List Nat)
  (found : selected environment.selection environment.backends offset = some (position, backend))
  (available : environment.available offset backend = true) {relayed : Relayed}

include found available

theorem exists_visit_of_available {client : Outgoing}
    (attempted :
      attempt environment.writes client (environment.exchangeAt offset) request = relayed) :
    ∃ mark, (⟨offset, position, backend, some relayed, mark⟩ : Visit) ∈
      (tryBackends environment request client (offset :: rest)).visits := by
  by_cases error : relayed.error = none
  · rw [tryBackends_of_served found available attempted error]
    exact ⟨_, List.mem_cons_self⟩
  · cases started : relayed.started with
    | true =>
        rw [tryBackends_of_broken found available attempted error started]
        exact ⟨_, List.mem_cons_self⟩
    | false =>
        rw [tryBackends_of_failed found available attempted error started]
        exact ⟨_, List.mem_cons_self⟩

/-- Nothing is delivered after the attempt at a backend that does not fail by itself. -/
theorem tryBackends_delivered_of_sound (stays : StaysDead environment.writes)
    (sound : ¬ (environment.exchangeAt offset).Fails)
    (attempted :
      attempt environment.writes .start (environment.exchangeAt offset) request = relayed) :
    (tryBackends environment request .start (offset :: rest)).client.delivered =
      relayed.client.delivered := by
  by_cases error : relayed.error = none
  · rw [tryBackends_of_served found available attempted error]
  · cases started : relayed.started with
    | true => rw [tryBackends_of_broken found available attempted error started]
    | false =>
        -- The client refused the first byte, so what follows does not reach it.
        have dead := dead_of_attempt_failed stays sound attempted error started
        rw [tryBackends_of_failed found available attempted error started, Run.after_client,
          tryBackends_of_dead request rest dead]

end Decisive

/-- **A backend that is reached is attempted**: it is available, and all before it pass. -/
theorem exists_visit_of_passes_before {environment : Environment} (request : Bytes)
    (client : Outgoing)
    (nonneg : 0 ≤ initialIndex environment.selection environment.backends.length) {offset : Nat}
    (inside : offset < environment.backends.length) (available : environment.Available offset)
    (passes : ∀ earlier < offset, environment.Passes earlier) :
    ∃ visit ∈ (tryBackends environment request client
        (List.range environment.backends.length)).visits, visit.offset = offset ∧
      visit.attempt =
        some (attempt environment.writes client (environment.exchangeAt offset) request) := by
  obtain ⟨position, backend, found, isAvailable⟩ := available
  obtain ⟨passed, -, equation⟩ :=
    tryBackends_of_passes_before request client nonneg inside passes
  obtain ⟨mark, member⟩ := exists_visit_of_available request
    ((List.range environment.backends.length).drop (offset + 1)) found isAvailable
    (rfl : attempt environment.writes client (environment.exchangeAt offset) request = _)
  refine ⟨⟨offset, position, backend, some _, mark⟩, ?_, rfl, rfl⟩
  rw [equation]
  exact List.mem_append_right _ member

/-- **What the loop delivers**: a part of the response of one backend it attempted, which
is all of it when the attempt ended without error, or a part of the page. -/
theorem tryBackends_delivered {environment : Environment} (request : Bytes)
    (nonneg : 0 ≤ initialIndex environment.selection environment.backends.length)
    (stays : StaysDead environment.writes) {run : Run}
    (isRun : tryBackends environment request .start
      (List.range environment.backends.length) = run) :
    (∃ visit ∈ run.visits, ∃ relayed, visit.attempt = some relayed ∧
        run.client.delivered <+: (environment.exchangeAt visit.offset).answer.bytes ∧
        (relayed.error = none →
          run.client.delivered = (environment.exchangeAt visit.offset).answer.bytes)) ∨
      (run.ending = badGateway ∧
        run.client.delivered <+: errorPage "502 Bad Gateway" "Bad Gateway\n") := by
  obtain ⟨passed, -, ⟨-, equation⟩ | ⟨offset, position, backend, rest, first, found, available,
    equation⟩⟩ := tryBackends_split request .start nonneg
  · rw [isRun] at equation
    subst equation
    exact .inr ⟨rfl, sendError_delivered environment.writes rfl _ _⟩
  · rw [isRun] at equation
    subst equation
    obtain ⟨mark, member⟩ := exists_visit_of_available request rest found available
      (rfl : attempt environment.writes .start (environment.exchangeAt offset) request = _)
    obtain ⟨part, isPrefix, delivered, complete⟩ :=
      attempt_delivered environment.writes .start request (environment.exchangeAt offset)
    have final : (tryBackends environment request .start (offset :: rest)).client.delivered =
        part :=
      (tryBackends_delivered_of_sound request rest found available stays first.sound rfl).trans
        delivered
    refine .inl ⟨_, List.mem_append_right _ member, _, rfl, ?_, ?_⟩
    · rw [Run.after_client, final]
      exact isPrefix
    · intro noError
      rw [Run.after_client, final, complete noError]

/-- A client whose first write fails refuses all writes. -/
theorem refuses_of_refused {results : Nat → WriteResult} (stays : StaysDead results)
    (refused : results 0 ≠ .done) (call : Nat) : results call ≠ .done := by
  rcases Nat.eq_zero_or_pos call with rfl | later
  · exact refused
  · obtain ⟨error, failed⟩ := stays 0 call later refused
    rw [failed]
    nofun

/-- Where the client refuses all writes, an attempt without error got no byte of a response. -/
theorem bytes_eq_nil_of_refused {results : Nat → WriteResult}
    (refuses : ∀ call, results call ≠ .done) {client : Outgoing} {exchange : Exchange}
    {request : Bytes} (noError : (attempt results client exchange request).error = none) :
    exchange.answer.bytes = [] := by
  rcases exchange.cases with fails | silent | answers
  · exact absurd noError (attempt_of_fails results client request fails).2.2.1
  · exact silent.2.2.1
  · cases first : results client.calls with
    | done => exact absurd first (refuses client.calls)
    | failed count reason =>
        exact absurd noError (attempt_of_refused results client request answers first).2.1

/-- An attempt that ended without error is marked as a success. -/
theorem mark_eq_success {environment : Environment} {request : Bytes} {client : Outgoing}
    {offsets : List Nat} {visit : Visit}
    (member : visit ∈ (tryBackends environment request client offsets).visits)
    {relayed : Relayed} (isAttempt : visit.attempt = some relayed)
    (noError : relayed.error = none) : visit.mark = some .success := by
  induction offsets generalizing client with
  | nil => cases member
  | cons offset rest ih =>
      rw [tryBackends] at member
      split at member
      · cases member
      · split at member
        · rcases List.mem_cons.mp member with here | later
          · rw [here] at isAttempt
            cases isAttempt
          · exact ih later
        · dsimp only at member
          split at member
          · rw [List.mem_singleton.mp member]
          · rename_i error
            split at member
            · rw [List.mem_singleton.mp member] at isAttempt
              exact absurd (Option.some.inj isAttempt ▸ noError) error
            · rcases List.mem_cons.mp member with here | later
              · rw [here] at isAttempt
                exact absurd (Option.some.inj isAttempt ▸ noError) error
              · exact ih later

/-- A visit that was passed over is not marked as a success. -/
theorem Visit.PassedOver.mark_ne_success {visit : Visit} (passedOver : visit.PassedOver) :
    visit.mark ≠ some .success := by
  rcases passedOver with ⟨-, unmarked⟩ | ⟨relayed, -, failed, -⟩
  · simp [unmarked]
  · simp [failed]

/-- With a client that takes the first byte, an attempt at a backend that does not fail by itself
ends without error or has started the response. -/
theorem started_of_taken {results : Nat → WriteResult} {exchange : Exchange} {request : Bytes}
    {relayed : Relayed} (sound : ¬ exchange.Fails) (taken : results 0 = .done)
    (attempted : attempt results .start exchange request = relayed)
    (error : relayed.error ≠ none) : relayed.started = true := by
  subst attempted
  rcases Exchange.silent_or_answers sound with silent | answers
  · exact absurd (attempt_of_silent results .start request silent).2.1 error
  · exact (attempt_of_taken results .start request answers taken).1

/-- **A client whose first write succeeds** has the whole page where it is sent, and the whole
response of a backend whose attempt ended without error. -/
theorem tryBackends_delivered_of_taken {environment : Environment} (request : Bytes)
    (nonneg : 0 ≤ initialIndex environment.selection environment.backends.length)
    (taken : environment.writes 0 = .done) {run : Run}
    (isRun : tryBackends environment request .start
      (List.range environment.backends.length) = run) :
    (run.ending = badGateway →
        run.client.delivered = errorPage "502 Bad Gateway" "Bad Gateway\n") ∧
      ∀ visit ∈ run.visits, ∀ relayed, visit.attempt = some relayed → relayed.error = none →
        run.client.delivered = (environment.exchangeAt visit.offset).answer.bytes := by
  have unmarked : ∀ visit ∈ run.visits, ∀ relayed, visit.attempt = some relayed →
      relayed.error = none → ¬ visit.PassedOver := by
    subst isRun
    intro visit member relayed isAttempt noError passedOver
    exact passedOver.mark_ne_success (mark_eq_success member isAttempt noError)
  obtain ⟨passed, passedOver, ⟨-, equation⟩ | ⟨offset, position, backend, rest, first, found,
    available, equation⟩⟩ := tryBackends_split request .start nonneg
  · rw [isRun] at equation
    subst equation
    refine ⟨fun _ => ?_, fun visit member relayed isAttempt noError => ?_⟩
    · rw [Run.after_client, failWith, sendError, write_of_done taken]
      rfl
    · refine absurd (passedOver visit ?_) (unmarked visit member relayed isAttempt noError)
      rwa [Run.after_visits, failWith, List.append_nil] at member
  · rw [isRun] at equation
    generalize attempted :
      attempt environment.writes .start (environment.exchangeAt offset) request = relayed
        at equation
    by_cases error : relayed.error = none
    · obtain ⟨part, -, delivered, complete⟩ :=
        attempt_delivered environment.writes .start request (environment.exchangeAt offset)
      rw [attempted] at delivered complete
      rw [tryBackends_of_served found available attempted error] at equation
      subst equation
      refine ⟨(by intro page; cases page), fun visit member other isAttempt noError => ?_⟩
      rcases List.mem_append.mp member with earlier | last
      · exact absurd (passedOver visit earlier) (unmarked visit member other isAttempt noError)
      · rw [List.mem_singleton.mp last, Run.after_client, delivered, complete error]
        rfl
    · have started := started_of_taken first.sound taken attempted error
      rw [tryBackends_of_broken found available attempted error started] at equation
      subst equation
      refine ⟨(by intro page; cases page), fun visit member other isAttempt noError => ?_⟩
      rcases List.mem_append.mp member with earlier | last
      · exact absurd (passedOver visit earlier) (unmarked visit member other isAttempt noError)
      · rw [List.mem_singleton.mp last] at isAttempt
        exact absurd (Option.some.inj isAttempt ▸ noError) error

/-- **The response of a backend whose attempt ended without error** is delivered whole, unless the
client has refused its first write and the backend has sent nothing. -/
theorem tryBackends_complete {environment : Environment} (request : Bytes)
    (nonneg : 0 ≤ initialIndex environment.selection environment.backends.length)
    (stays : StaysDead environment.writes) {run : Run}
    (isRun : tryBackends environment request .start
      (List.range environment.backends.length) = run) :
    ∀ visit ∈ run.visits, ∀ relayed, visit.attempt = some relayed → relayed.error = none →
      run.client.delivered = (environment.exchangeAt visit.offset).answer.bytes ∨
        (environment.writes 0 ≠ .done ∧
          (environment.exchangeAt visit.offset).answer.bytes = []) := by
  intro visit member relayed isAttempt noError
  by_cases taken : environment.writes 0 = .done
  · exact .inl ((tryBackends_delivered_of_taken request nonneg taken isRun).2 visit member relayed
      isAttempt noError)
  · subst isRun
    obtain ⟨earlier, rfl⟩ := exists_attempt_eq member isAttempt
    exact .inr ⟨taken, bytes_eq_nil_of_refused (refuses_of_refused stays taken) noError⟩

/-! ## The theorem -/

section Route

variable {environment : Environment} {run : Run} {size start : Nat}
  (walk : Walk environment (List.range size) run)

include walk

theorem Walk.length_visits_le : run.visits.length ≤ size := by
  have length := walk.inTurn.length_le
  rwa [List.length_map, List.length_range] at length

theorem Walk.offsets : run.visits.map Visit.offset = List.range run.visits.length := by
  rw [List.prefix_iff_eq_take.mp walk.inTurn, List.take_range, List.length_map,
    min_eq_left walk.length_visits_le]

theorem Walk.dials_iff {visit : Visit} (member : visit ∈ run.visits) :
    visit.Dials ↔ environment.available visit.offset visit.backend = true := by
  constructor
  · intro dials
    obtain ⟨relayed, -, isAttempt, -⟩ := dials
    rw [← Bool.not_eq_false, ← walk.skips visit member, isAttempt]
    exact Option.some_ne_none _
  · intro available
    apply walk.dials visit member
    rw [Ne, walk.skips visit member, available]
    exact Bool.noConfusion

variable (placed : ∀ visit ∈ run.visits, visit.position = turnAt size start visit.offset)

include placed

/-- Offsets visited in turn are met at the positions that follow the start. -/
theorem Walk.positions :
    run.visits.map Visit.position = (List.range run.visits.length).map (turnAt size start) := by
  rw [← walk.offsets, List.map_map]
  exact List.map_congr_left placed

theorem Walk.nodup_positions : (run.visits.map Visit.position).Nodup := by
  rw [walk.positions placed]
  refine List.Nodup.map_on ?_ List.nodup_range
  intro offset member other otherMember same
  have bound := walk.length_visits_le
  exact turnAt_injective ((List.mem_range.mp member).trans_le bound)
    ((List.mem_range.mp otherMember).trans_le bound) same

/-- **When the page is sent**: every position was unavailable or failed with no response
started. -/
theorem Walk.badGateway_iff :
    run.ending = badGateway ↔ ∀ position < size, ∃ visit ∈ run.visits, visit.position = position ∧
      (environment.available visit.offset visit.backend = false ∨ visit.FailsUnstarted) := by
  rcases walk.stops with ⟨page, complete, unsettled⟩ | ⟨noPage, passed, last, visits, -, settles⟩
  · refine iff_of_true page ?_
    intro position inside
    obtain ⟨offset, offsetInside, isPosition⟩ := exists_turnAt_eq inside start
    obtain ⟨visit, member, isOffset⟩ : ∃ visit ∈ run.visits, visit.offset = offset := by
      rw [← List.mem_range, ← complete] at offsetInside
      exact List.mem_map.mp offsetInside
    refine ⟨visit, member, by rw [placed visit member, isOffset, isPosition], ?_⟩
    cases isAttempt : visit.attempt with
    | none => exact .inl ((walk.skips visit member).mp isAttempt)
    | some relayed =>
        exact .inr (Visit.failsUnstarted_of_not_settles isAttempt (unsettled visit member))
  · refine iff_of_false noPage ?_
    intro everywhere
    have lastMember : last ∈ run.visits := by
      rw [visits]
      exact List.mem_append_right _ List.mem_cons_self
    have lastOffset : last.offset < size :=
      List.mem_range.mp (walk.inTurn.subset (List.mem_map.mpr ⟨last, lastMember, rfl⟩))
    obtain ⟨visit, member, samePosition, failed⟩ := everywhere last.position
      (by rw [placed last lastMember]; exact turnAt_lt lastOffset start)
    rw [List.inj_on_of_nodup_map (walk.nodup_positions placed) member lastMember samePosition]
      at failed
    rcases failed with unavailable | fails
    · obtain ⟨relayed, isAttempt, -⟩ := settles
      rw [(walk.skips last lastMember).mpr unavailable] at isAttempt
      cases isAttempt
    · exact Visit.not_settles_of_failsUnstarted fails settles

end Route

/-- What failover promises of a run. -/
structure Failover (environment : Environment) (run : Run) : Prop where
  /-- The positions follow the one of the counter, in turn. -/
  offsets : run.visits.map Visit.offset = List.range run.visits.length
  positions : run.visits.map Visit.position = (List.range run.visits.length).map
    (turnAt environment.backends.length environment.selection.toNat)
  once : (run.visits.map Visit.position).Nodup
  backends : ∀ visit ∈ run.visits, environment.backends[visit.position]? = some visit.backend
  /-- Of the backends that are reached, the available ones are dialled. -/
  dials : ∀ visit ∈ run.visits,
    visit.Dials ↔ environment.available visit.offset visit.backend = true
  /-- The first attempt that settles the request is the last visit. -/
  stops : ∃ passed : List Visit, (∀ visit ∈ passed, ¬ visit.Settles) ∧
    ((run.visits = passed ∧ passed.length = environment.backends.length) ∨
      ∃ last : Visit, run.visits = passed ++ [last] ∧ last.Settles)
  /-- The client has a part of one response, or of the page. -/
  delivered :
    (∃ visit ∈ run.visits, ∃ relayed, visit.attempt = some relayed ∧
        run.client.delivered <+: (environment.exchangeAt visit.offset).answer.bytes ∧
        (relayed.error = none →
          run.client.delivered = (environment.exchangeAt visit.offset).answer.bytes)) ∨
      (run.ending = badGateway ∧
        run.client.delivered <+: errorPage "502 Bad Gateway" "Bad Gateway\n")
  /-- It has the whole response of a backend whose `relay` returned `nil`. Only a client whose first
  write has failed may have a part of an earlier response, and then this backend has sent nothing. -/
  complete : ∀ visit ∈ run.visits, ∀ relayed, visit.attempt = some relayed → relayed.error = none →
    run.client.delivered = (environment.exchangeAt visit.offset).answer.bytes ∨
      (environment.writes 0 ≠ .done ∧ (environment.exchangeAt visit.offset).answer.bytes = [])
  /-- When the page is sent. -/
  page : run.ending = badGateway ↔
    ∀ position < environment.backends.length, ∃ visit ∈ run.visits, visit.position = position ∧
      (environment.available visit.offset visit.backend = false ∨ visit.FailsUnstarted)
  /-- The page is written after all attempts, and is all that the client has unless its first write
  has failed. -/
  paged : run.ending = badGateway →
    (∃ client,
      run.client = sendError environment.writes client "502 Bad Gateway" "Bad Gateway\n") ∧
    (environment.writes 0 = .done →
      run.client.delivered = errorPage "502 Bad Gateway" "Bad Gateway\n")
  /-- Else nothing is written after the attempt that settles the request. -/
  unpaged : run.ending ≠ badGateway → ∃ visit ∈ run.visits, ∃ relayed,
    visit.attempt = some relayed ∧ visit.Settles ∧ run.client = relayed.client

/-- **Failover**: every accepted request goes round the snapshot from the position of its
turn, and the client receives a part of one response or of one error page. -/
theorem handleConnection_failover (tables : UnicodeTables) (environment : Environment)
    {request : Bytes} (accepted : acceptRequest tables environment.incoming = some request)
    (nonempty : environment.backends ≠ []) (small : environment.selection.toNat < 2 ^ 63)
    (stays : StaysDead environment.writes) :
    Failover environment (handleConnection tables environment) := by
  have index := initialIndex_of_small small environment.backends.length
  have nonneg : 0 ≤ initialIndex environment.selection environment.backends.length := by
    rw [index]
    exact Int.natCast_nonneg _
  have isLoop := handleConnection_eq accepted nonempty
  have walk := tryBackends_walk environment request .start
    (List.range environment.backends.length)
    fun offset member => ⟨_, selected_of_nonneg nonneg (List.mem_range.mp member)⟩
  rw [← isLoop] at walk
  have placed : ∀ visit ∈ (handleConnection tables environment).visits, visit.position =
      turnAt environment.backends.length environment.selection.toNat visit.offset := by
    intro visit member
    have inside : visit.offset < environment.backends.length :=
      List.mem_range.mp (walk.inTurn.subset (List.mem_map.mpr ⟨visit, member, rfl⟩))
    obtain ⟨backend, found⟩ := selected_of_nonneg nonneg inside
    rw [walk.found visit member, index, Int.toNat_natCast, turnAt_mod] at found
    exact congrArg Prod.fst (Option.some.inj found)
  exact {
    offsets := walk.offsets
    positions := walk.positions placed
    once := walk.nodup_positions placed
    backends := fun visit member => selected_eq_some (walk.found visit member)
    dials := fun visit member => walk.dials_iff member
    stops := by
      rcases walk.stops with
        ⟨-, complete, unsettled⟩ | ⟨-, passed, last, visits, unsettled, settles⟩
      · refine ⟨_, unsettled, .inl ⟨rfl, ?_⟩⟩
        have length := congrArg List.length complete
        rwa [List.length_map, List.length_range] at length
      · exact ⟨passed, unsettled, .inr ⟨last, visits, settles⟩⟩
    delivered := tryBackends_delivered request nonneg stays isLoop.symm
    complete := tryBackends_complete request nonneg stays isLoop.symm
    page := walk.badGateway_iff placed
    paged := fun isPage => ⟨(walk.writes.resolve_right fun relays => relays.1 isPage).2,
      fun taken => (tryBackends_delivered_of_taken request nonneg taken isLoop.symm).1 isPage⟩
    unpaged := fun noPage => (walk.writes.resolve_left fun page => noPage page.1).2 }

/-- The first backend refuses, the second one answers. -/
theorem handleConnection_failover_sample :
    acceptRequest ⟨id, id⟩ ⟨[plainRequest], [], .eof⟩ = some plainRequest ∧
      Failover
        (plainEnvironment (fun _ => .done) fun offset =>
          ⟨if offset = 0 then some .other else none, none, ⟨[ascii "Hello"], [], .eof⟩⟩)
        (handleConnection ⟨id, id⟩
          (plainEnvironment (fun _ => .done) fun offset =>
            ⟨if offset = 0 then some .other else none, none, ⟨[ascii "Hello"], [], .eof⟩⟩)) :=
  ⟨acceptRequest_plain _, handleConnection_failover _ _ (acceptRequest_plain _) (by decide)
    (by decide) fun early late before failed => absurd rfl failed⟩

-- Why `complete` has an exception: the client takes two bytes of the first response and then no
-- more, and the second backend closes without a byte, so that its `relay` returns `nil`.
example :
    let run := handleConnection ⟨id, id⟩ (plainEnvironment
      (fun call => .failed (if call = 0 then 2 else 0) .other)
      fun offset => ⟨none, none, ⟨if offset = 0 then [ascii "Hello"] else [], [], .eof⟩⟩)
    run.visits.map (·.mark) = [some .failure, some .success] ∧
      run.client.delivered = ascii "He" := by
  decide +kernel

end InfraFromScratch.LoadBalancer
