import InfraFromScratch.LoadBalancer.Connection
import InfraFromScratch.ReverseProxy.Connection

/-!
# Answers without a byte

A client whose request is accepted should receive something: bytes of a response, or an
error page when there are none. `relay` returns `nil` at the end of the data whatever was
read before it, so a backend that closes without a byte counts as a success, in the load
balancer and in the reverse proxy, and the client receives nothing.

`gateways_answer_iff` says that this is the only way: with a client that takes every write,
the answer is missing if and only if the decisive backend closes without a byte, or the
load balancer panics.
-/

set_option autoImplicit false

namespace InfraFromScratch

open Foundations Gateway

theorem errorPage_ne_nil (status body : String) : errorPage status body ≠ [] := by
  have start : ascii "HTTP/1.0 " ≠ [] := by decide
  intro empty
  simp only [errorPage, List.append_eq_nil_iff] at empty
  exact start empty.1.1.1.1.1

/-! ## The load balancer -/

namespace LoadBalancer

/-- The client has all that was read of a response, which is something; or it has the
error page, and nothing was read of any response. -/
def Run.Answered (run : Run) : Prop :=
  (run.client.delivered ≠ [] ∧
      ∃ visit ∈ run.visits, ∃ relayed, visit.attempt = some relayed ∧
        run.client.delivered = relayed.received) ∨
    (run.client.delivered = errorPage "502 Bad Gateway" "Bad Gateway\n" ∧
      ∀ visit ∈ run.visits, ∀ relayed, visit.attempt = some relayed → relayed.received = [])

theorem Run.Answered.delivered_ne_nil {run : Run} (answered : run.Answered) :
    run.client.delivered ≠ [] := by
  rcases answered with ⟨something, -⟩ | ⟨page, -⟩
  · exact something
  · rw [page]
    exact errorPage_ne_nil _ _

theorem Visit.PassedOver.received {visit : Visit} (passedOver : visit.PassedOver)
    {relayed : Relayed} (isAttempt : visit.attempt = some relayed) : relayed.received = [] := by
  rcases passedOver with ⟨skipped, -⟩ | ⟨same, isSame, -, received, -⟩
  · rw [skipped] at isAttempt
    cases isAttempt
  · cases isAttempt.symm.trans isSame
    exact received

/-- The error page is an answer when nothing was read. -/
theorem failWith_answered {environment : Environment}
    (done : ∀ call, environment.writes call = .done) {passed : List Visit}
    (passedOver : ∀ visit ∈ passed, visit.PassedOver) :
    ((failWith environment .start "502 Bad Gateway" "Bad Gateway\n").after passed).Answered := by
  refine .inr ⟨?_, ?_⟩
  · rw [Run.after_client, failWith, sendError, write_of_done (done _)]
    rfl
  · intro visit member relayed isAttempt
    rw [Run.after_visits, failWith, List.append_nil] at member
    exact (passedOver visit member).received isAttempt

/-- A backend that answers is relayed to the client. -/
theorem tryBackends_answered {environment : Environment} (request : Bytes) (rest : List Nat)
    {offset position : Nat} {backend : Pointer}
    (found : selected environment.selection environment.backends offset = some (position, backend))
    (available : environment.available offset backend = true)
    (done : ∀ call, environment.writes call = .done)
    (answers : (environment.exchangeAt offset).Answers) (passed : List Visit) :
    ((tryBackends environment request .start (offset :: rest)).after passed).Answered := by
  obtain ⟨started, something⟩ :=
    attempt_of_taken environment.writes .start request answers (done _)
  have received := attempt_received environment.writes .start request done answers
  generalize attempted :
    attempt environment.writes .start (environment.exchangeAt offset) request = relayed
      at started something received
  rw [Outgoing.start, List.nil_append] at received
  left
  by_cases error : relayed.error = none
  · rw [tryBackends_of_served found available attempted error]
    exact ⟨something, _, List.mem_append_right _ List.mem_cons_self, relayed, rfl, received⟩
  · rw [tryBackends_of_broken found available attempted error started]
    exact ⟨something, _, List.mem_append_right _ List.mem_cons_self, relayed, rfl, received⟩

/-- A backend that closes without a byte ends the run with nothing delivered. -/
theorem tryBackends_of_silent {environment : Environment} (request : Bytes) (rest : List Nat)
    {offset position : Nat} {backend : Pointer}
    (found : selected environment.selection environment.backends offset = some (position, backend))
    (available : environment.available offset backend = true)
    (silent : (environment.exchangeAt offset).Silent) :
    (tryBackends environment request .start (offset :: rest)).client.delivered = [] := by
  obtain ⟨sameClient, error, -⟩ := attempt_of_silent environment.writes .start request silent
  rw [tryBackends_of_served found available rfl error, sameClient]
  rfl

theorem tryBackends_answered_iff {environment : Environment} (request : Bytes)
    (nonneg : 0 ≤ initialIndex environment.selection environment.backends.length)
    (done : ∀ call, environment.writes call = .done) :
    (tryBackends environment request .start
        (List.range environment.backends.length)).Answered ↔
      ∀ offset, environment.FirstSound offset → ¬ (environment.exchangeAt offset).Silent := by
  obtain ⟨passed, passedOver, ⟨passes, equation⟩ | ⟨offset, position, backend, rest, first, found,
    available, equation⟩⟩ := tryBackends_split request .start nonneg
  · rw [equation]
    refine iff_of_true (failWith_answered done passedOver) fun offset first => ?_
    exact absurd (passes offset first.inside first.available) first.sound
  · rw [equation]
    constructor
    · intro answered other otherFirst silent
      cases first.unique otherFirst
      apply answered.delivered_ne_nil
      rw [Run.after_client, tryBackends_of_silent request rest found available silent]
    · intro loud
      have answers := (Exchange.silent_or_answers first.sound).resolve_left (loud offset first)
      exact tryBackends_answered request rest found available done answers passed

/-- When the load balancer answers a request it accepted. -/
theorem handleConnection_answered_iff {tables : UnicodeTables} {environment : Environment}
    {request : Bytes} (accepted : acceptRequest tables environment.incoming = some request)
    (done : ∀ call, environment.writes call = .done) :
    (handleConnection tables environment).Answered ↔
      (environment.backends = [] ∨
          0 ≤ initialIndex environment.selection environment.backends.length) ∧
        ∀ offset, environment.FirstSound offset → ¬ (environment.exchangeAt offset).Silent := by
  by_cases empty : environment.backends = []
  · refine iff_of_true ?_ ⟨.inl empty, fun offset first => ?_⟩
    · rw [handleConnection_of_empty accepted empty]
      exact failWith_answered done (List.forall_mem_nil _)
    · have inside := first.inside
      rw [empty] at inside
      exact absurd inside (Nat.not_lt_zero _)
  · rw [handleConnection_eq accepted empty]
    by_cases nonneg : 0 ≤ initialIndex environment.selection environment.backends.length
    · rw [tryBackends_answered_iff request nonneg done]
      exact ⟨fun loud => ⟨.inr nonneg, loud⟩, fun both => both.2⟩
    · refine iff_of_false ?_ fun both => both.1.elim empty nonneg
      intro answered
      apply answered.delivered_ne_nil
      rw [tryBackends_of_neg request .start empty (not_le.mp nonneg)]
      rfl

end LoadBalancer

/-! ## The reverse proxy -/

namespace ReverseProxy

/-- As for the load balancer, with two error pages. -/
def Run.Answered (run : Run) : Prop :=
  (run.client.delivered ≠ [] ∧
      ∃ relayed, run.attempt = some relayed ∧ run.client.delivered = relayed.received) ∨
    ((run.client.delivered = errorPage "502 Bad Gateway" "Bad Gateway\n" ∨
        run.client.delivered = errorPage "504 Gateway Timeout" "Gateway Timeout\n") ∧
      ∀ relayed, run.attempt = some relayed → relayed.received = [])

theorem Run.Answered.delivered_ne_nil {run : Run} (answered : run.Answered) :
    run.client.delivered ≠ [] := by
  rcases answered with ⟨something, -⟩ | ⟨page | page, -⟩
  · exact something
  · rw [page]
    exact errorPage_ne_nil _ _
  · rw [page]
    exact errorPage_ne_nil _ _

/-- When the reverse proxy answers a request it accepted. -/
theorem handleConnection_answered_iff {tables : UnicodeTables} {environment : Environment}
    {request : Bytes} (accepted : acceptRequest tables environment.incoming = some request)
    (done : ∀ call, environment.writes call = .done) :
    (handleConnection tables environment).Answered ↔ ¬ environment.exchange.Silent := by
  obtain ⟨relayed, attempted⟩ : ∃ relayed,
      attempt environment.writes .start environment.exchange request = relayed := ⟨_, rfl⟩
  rcases environment.exchange.cases with fails | silent | answers
  · -- The page for the error is sent.
    have outcome := attempt_of_fails environment.writes .start request fails
    rw [attempted] at outcome
    obtain ⟨sameClient, started, failed, received, -, -⟩ := outcome
    obtain ⟨error, isError⟩ := Option.ne_none_iff_exists'.mp failed
    refine iff_of_true (.inr ?_) fails.not_silent
    rw [handleConnection_of_failed accepted attempted isError started, sendError,
      write_of_done (done _), sameClient]
    refine ⟨?_, ?_⟩
    · cases error with
      | timeout => exact .inr rfl
      | other => exact .inl rfl
    · intro same isSame
      cases isSame
      exact received
  · obtain ⟨sameClient, noError, -⟩ :=
      attempt_of_silent environment.writes .start request silent
    rw [attempted] at sameClient noError
    refine iff_of_false (fun answered => answered.delivered_ne_nil ?_) (not_not_intro silent)
    rw [handleConnection_of_relayed accepted attempted (.inl noError), sameClient]
    rfl
  · have outcome := attempt_of_taken environment.writes .start request answers (done _)
    have received := attempt_received environment.writes .start request done answers
    rw [attempted] at outcome received
    rw [Outgoing.start, List.nil_append] at received
    refine iff_of_true (.inl ?_) fun silent => answers.2.2 silent.2.2.1
    rw [handleConnection_of_relayed accepted attempted (.inr outcome.1)]
    exact ⟨outcome.2, relayed, rfl, received⟩

end ReverseProxy

/-! ## Both -/

/-- **When an accepted request is answered**, with a client that takes every write. -/
theorem gateways_answer_iff (tables : UnicodeTables) (balancer : LoadBalancer.Environment)
    (proxy : ReverseProxy.Environment) :
    (∀ request, LoadBalancer.acceptRequest tables balancer.incoming = some request →
        (∀ call, balancer.writes call = .done) →
        ((LoadBalancer.handleConnection tables balancer).Answered ↔
          (balancer.backends = [] ∨
              0 ≤ LoadBalancer.initialIndex balancer.selection balancer.backends.length) ∧
            ∀ offset, balancer.FirstSound offset → ¬ (balancer.exchangeAt offset).Silent)) ∧
      ∀ request, ReverseProxy.acceptRequest tables proxy.incoming = some request →
        (∀ call, proxy.writes call = .done) →
        ((ReverseProxy.handleConnection tables proxy).Answered ↔ ¬ proxy.exchange.Silent) :=
  ⟨fun _ accepted done => LoadBalancer.handleConnection_answered_iff accepted done,
    fun _ accepted done => ReverseProxy.handleConnection_answered_iff accepted done⟩

/-- Backends that refuse to be dialled are answered for by the load balancer, and one that
sends a status line is relayed by the reverse proxy. -/
theorem gateways_answer_iff_sample :
    (LoadBalancer.handleConnection ⟨id, id⟩
        (LoadBalancer.plainEnvironment (fun _ => .done) fun _ =>
          ⟨some .other, none, ⟨[], [], .eof⟩⟩)).Answered ∧
      (ReverseProxy.handleConnection ⟨id, id⟩ ⟨⟨[plainRequest], [], .eof⟩, fun _ => .done,
        ⟨none, none, ⟨[ascii "HTTP/1.0 200 OK\r\n\r\n"], [], .eof⟩⟩⟩).Answered := by
  obtain ⟨balancer, proxy⟩ := gateways_answer_iff ⟨id, id⟩
    (LoadBalancer.plainEnvironment (fun _ => .done) fun _ =>
      ⟨some .other, none, ⟨[], [], .eof⟩⟩)
    ⟨⟨[plainRequest], [], .eof⟩, fun _ => .done,
      ⟨none, none, ⟨[ascii "HTTP/1.0 200 OK\r\n\r\n"], [], .eof⟩⟩⟩
  constructor
  · rw [balancer _ (LoadBalancer.acceptRequest_plain _) fun _ => rfl]
    refine ⟨.inr (by decide), fun offset first => absurd (.inl ?_) first.sound⟩
    simp [LoadBalancer.plainEnvironment]
  · rw [proxy _ (ReverseProxy.acceptRequest_plain _) fun _ => rfl]
    intro silent
    have something : (Incoming.mk [ascii "HTTP/1.0 200 OK\r\n\r\n"] [] .eof).bytes ≠ [] := by
      decide
    exact something silent.2.2.1

/-- A backend that takes the request and closes leaves the client without an answer. -/
theorem silent_backend_is_not_answered :
    ¬ (LoadBalancer.handleConnection ⟨id, id⟩
        (LoadBalancer.plainEnvironment (fun _ => .done) fun _ =>
          ⟨none, none, ⟨[], [], .eof⟩⟩)).Answered ∧
      ¬ (ReverseProxy.handleConnection ⟨id, id⟩ ⟨⟨[plainRequest], [], .eof⟩, fun _ => .done,
        ⟨none, none, ⟨[], [], .eof⟩⟩⟩).Answered := by
  have silent : (Exchange.mk none none ⟨[], [], .eof⟩).Silent := ⟨rfl, rfl, rfl, rfl⟩
  constructor
  · rw [LoadBalancer.handleConnection_answered_iff (LoadBalancer.acceptRequest_plain _)
      fun _ => rfl]
    intro both
    refine both.2 0 ⟨by decide, ⟨0, 0, by decide, by decide⟩, ?_, by simp⟩ silent
    exact fun fails => fails.not_silent silent
  · rw [ReverseProxy.handleConnection_answered_iff (ReverseProxy.acceptRequest_plain _)
      fun _ => rfl]
    exact not_not_intro silent

end InfraFromScratch
