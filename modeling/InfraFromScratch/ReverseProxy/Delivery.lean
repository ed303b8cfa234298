import InfraFromScratch.ReverseProxy.Connection

/-!
# What the client of the reverse proxy receives

A client is to receive bytes of the response or an error page, and never an error page after
bytes of the response. `relay` notes that the response has started after a write that
succeeded. A write that fails may have delivered a part of its data, so a first write that
fails this way leaves the mark unset, and the error page follows the part. In every other
case the outputs do not mix (`unmixed_iff`).
-/

set_option autoImplicit false

namespace InfraFromScratch.ReverseProxy

open Foundations Gateway

/-- The client received a part of the response or of one error page, and an error page is
written only where no byte of the response was delivered. -/
structure Unmixed (exchange : Exchange) (run : Run) : Prop where
  delivered : run.client.delivered <+: exchange.answer.bytes ∨
    ∃ page, run.page = some page ∧ run.client.delivered <+: errorPage page.1 page.2
  alone : ∀ relayed page, run.attempt = some relayed → run.page = some page →
    relayed.client.delivered = []

section Outputs

variable {tables : UnicodeTables} {environment : Environment} {request : Bytes}
  (accepted : acceptRequest tables environment.incoming = some request)

include accepted

/-- Without an error page, the client received a part of the response. -/
theorem unmixed_of_settled
    (settled : (attempt environment.writes .start environment.exchange request).error = none ∨
      (attempt environment.writes .start environment.exchange request).started = true) :
    Unmixed environment.exchange (handleConnection tables environment) := by
  rw [handleConnection_of_relayed accepted rfl settled]
  obtain ⟨part, isPrefix, delivered, -⟩ :=
    attempt_delivered environment.writes .start request environment.exchange
  refine ⟨.inl ?_, nofun⟩
  rw [delivered]
  exact isPrefix

/-- An error page after nothing is alone. -/
theorem unmixed_of_fresh
    (error : (attempt environment.writes .start environment.exchange request).error ≠ none)
    (started : (attempt environment.writes .start environment.exchange request).started = false)
    (fresh : (attempt environment.writes .start environment.exchange request).client.delivered =
      []) :
    Unmixed environment.exchange (handleConnection tables environment) := by
  obtain ⟨reason, isError⟩ := Option.ne_none_iff_exists'.mp error
  rw [handleConnection_of_failed accepted rfl isError started]
  refine ⟨.inr ⟨_, rfl, sendError_delivered environment.writes fresh _ _⟩, ?_⟩
  rintro relayed page same -
  rw [← Option.some.inj same]
  exact fresh

/-- **When the outputs do not mix.** For every valid request, all that the backend may answer
and all results of the writes to the client, the client receives a part of the response or
one error page alone, iff it is not the case that the backend answers and the first write to
the client fails with a part of its data delivered. -/
theorem unmixed_iff :
    Unmixed environment.exchange (handleConnection tables environment) ↔
      ¬ (environment.exchange.Answers ∧
        ∃ count error, environment.writes 0 = .failed count error ∧ 0 < count) := by
  constructor
  · rintro unmixed ⟨answers, count, error, refused, positive⟩
    obtain ⟨started, failed, -, data, nonempty, client⟩ :=
      attempt_of_refused environment.writes .start request answers refused
    obtain ⟨reason, isError⟩ := Option.ne_none_iff_exists'.mp failed
    rw [handleConnection_of_failed accepted rfl isError started] at unmixed
    have nothing := unmixed.alone _ _ rfl rfl
    rw [client] at nothing
    rcases List.take_eq_nil_iff.mp (List.append_eq_nil_iff.mp nothing).2 with zero | empty
    · exact positive.ne' zero
    · exact nonempty empty
  · intro whole
    rcases environment.exchange.cases with fails | silent | answers
    · obtain ⟨sameClient, started, failed, -⟩ :=
        attempt_of_fails environment.writes .start request fails
      exact unmixed_of_fresh accepted failed started (by rw [sameClient]; rfl)
    · exact unmixed_of_settled accepted
        (.inl (attempt_of_silent environment.writes .start request silent).2.1)
    · cases first : environment.writes 0 with
      | done =>
          exact unmixed_of_settled accepted
            (.inr (attempt_of_taken environment.writes .start request answers first).1)
      | failed count error =>
          obtain ⟨started, failed, -, data, -, client⟩ :=
            attempt_of_refused environment.writes .start request answers first
          have zero : count = 0 := by
            by_contra positive
            exact whole ⟨answers, count, error, first, Nat.pos_of_ne_zero positive⟩
          refine unmixed_of_fresh accepted failed started ?_
          rw [client, zero]
          rfl

end Outputs

/-- A backend that answers. -/
def answering : Exchange := ⟨none, none, ⟨[ascii "HTTP/1.0 200 OK\r\n\r\n"], [], .eof⟩⟩

/-- The write of the response times out after five bytes, and later writes succeed. -/
def stalledEnvironment : Environment where
  incoming := ⟨[plainRequest], [], .eof⟩
  writes := fun call => if call = 0 then .failed 5 .timeout else .done
  exchange := answering

theorem unmixed_iff_answering :
    Unmixed answering (handleConnection ⟨id, id⟩
      ⟨⟨[plainRequest], [], .eof⟩, fun _ => .done, answering⟩) :=
  (@unmixed_iff ⟨id, id⟩ ⟨⟨[plainRequest], [], .eof⟩, fun _ => .done, answering⟩ plainRequest
    (acceptRequest_plain _)).mpr (by rintro ⟨-, count, error, failed, -⟩; cases failed)

/-- **An error page after a part of the response.** -/
theorem page_after_response :
    (handleConnection ⟨id, id⟩ stalledEnvironment).client.delivered =
        ascii "HTTP/" ++ errorPage "504 Gateway Timeout" "Gateway Timeout\n" ∧
      ¬ Unmixed answering (handleConnection ⟨id, id⟩ stalledEnvironment) := by
  have run := @handleConnection_of_failed ⟨id, id⟩ stalledEnvironment plainRequest
    (acceptRequest_plain _) _ rfl .timeout (by decide) (by decide)
  rw [run]
  refine ⟨by decide, fun unmixed => ?_⟩
  exact absurd (unmixed.alone _ _ rfl rfl) (by decide)

end InfraFromScratch.ReverseProxy
