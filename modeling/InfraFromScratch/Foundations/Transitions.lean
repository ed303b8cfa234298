import Mathlib

/-!
# Runs of a transition system

A transition system is given by the state after an event, or nothing where the event cannot
happen. A run is a list of events. What holds at the start and is kept by every event holds
after every run (`runEvents_invariant`); `runEvents_induction` is the same for statements
that also speak about the events so far.

Where the events carry times, `latestTime` is the time of the latest event of a kind, and
`eventsSince` are the events after it.
-/

set_option autoImplicit false

namespace InfraFromScratch.Foundations

variable {State Event : Type*} {next : State → Event → Option State}

/-- The state after some events, or nothing where one of them cannot happen. -/
def runEvents (next : State → Event → Option State) (state : State) (events : List Event) :
    Option State :=
  events.foldlM next state

@[simp] theorem runEvents_nil (state : State) : runEvents next state [] = some state := rfl

theorem runEvents_cons (state : State) (event : Event) (events : List Event) :
    runEvents next state (event :: events) =
      (next state event).bind fun reached => runEvents next reached events := rfl

theorem runEvents_append (state : State) (events later : List Event) :
    runEvents next state (events ++ later) =
      (runEvents next state events).bind fun reached => runEvents next reached later :=
  List.foldlM_append

theorem runEvents_concat_eq_some_iff {state reached : State} {events : List Event} {event : Event} :
    runEvents next state (events ++ [event]) = some reached ↔
      ∃ before, runEvents next state events = some before ∧ next before event = some reached := by
  rw [runEvents_append, Option.bind_eq_some_iff]
  simp [runEvents_cons]

/-- **Induction over a run**, with the events so far. -/
theorem runEvents_induction {start : State} {motive : List Event → State → Prop}
    (initial : motive [] start)
    (step : ∀ events before event after, runEvents next start events = some before →
      motive events before → next before event = some after → motive (events ++ [event]) after)
    {events : List Event} {reached : State} (run : runEvents next start events = some reached) :
    motive events reached := by
  induction events using List.reverseRecOn generalizing reached with
  | nil =>
      obtain rfl := Option.some.inj run
      exact initial
  | append_singleton events event ih =>
      obtain ⟨before, earlier, last⟩ := runEvents_concat_eq_some_iff.mp run
      exact step events before event reached earlier (ih earlier) last

/-- **Invariants.** What every event keeps holds after every run. -/
theorem runEvents_invariant {start : State} {invariant : State → Prop} (initial : invariant start)
    (step : ∀ before event after, invariant before → next before event = some after →
      invariant after)
    {events : List Event} {reached : State} (run : runEvents next start events = some reached) :
    invariant reached :=
  @runEvents_induction _ _ _ start (fun _ state => invariant state) initial
    (fun _ before event after _ holds taken => step before event after holds taken) _ _ run

/-- **Runs end.** Where every allowed event lowers a rank, a run of allowed events is no longer
than the rank at its start. -/
theorem runEvents_length_le {invariant : State → Prop} {allowed : Event → Prop}
    {rank : State → Nat}
    (step : ∀ before event after, invariant before → allowed event →
      next before event = some after → invariant after ∧ rank after < rank before)
    {start reached : State} (initial : invariant start) {events : List Event}
    (all : ∀ event ∈ events, allowed event)
    (run : runEvents next start events = some reached) : events.length ≤ rank start := by
  induction events generalizing start with
  | nil => exact Nat.zero_le _
  | cons event events ih =>
      rw [runEvents_cons, Option.bind_eq_some_iff] at run
      obtain ⟨state, taken, rest⟩ := run
      obtain ⟨kept, lower⟩ := step start event state initial (all event List.mem_cons_self) taken
      have later := ih kept (fun other member => all other (List.mem_cons_of_mem _ member)) rest
      rw [List.length_cons]
      omega

/-! ## Runs that meet a condition -/

/-- Every step of the run meets a condition on the state before it. -/
def AlongRun (next : State → Event → Option State) (condition : State → Event → Prop)
    (start : State) (events : List Event) : Prop :=
  ∀ before event later, events = before ++ event :: later →
    ∀ state, runEvents next start before = some state → condition state event

theorem alongRun_nil {condition : State → Event → Prop} (start : State) :
    AlongRun next condition start [] := by
  intro before event later split
  simp at split

/-- A run is checked step by step. -/
theorem AlongRun.cons {condition : State → Event → Prop} {start : State} {event : Event}
    {events : List Event} (first : condition start event)
    (rest : ∀ state, next start event = some state → AlongRun next condition state events) :
    AlongRun next condition start (event :: events) := by
  intro before other later split state run
  cases before with
  | nil =>
      obtain ⟨rfl, rfl⟩ := List.cons.inj split
      obtain rfl := Option.some.inj run
      exact first
  | cons head before =>
      obtain ⟨rfl, rfl⟩ := List.cons.inj split
      rw [runEvents_cons, Option.bind_eq_some_iff] at run
      obtain ⟨reached, taken, ran⟩ := run
      exact rest reached taken before other later rfl state ran

theorem alongRun_cons_iff {condition : State → Event → Prop} {start : State} {event : Event}
    {events : List Event} :
    AlongRun next condition start (event :: events) ↔
      condition start event ∧ ∀ state ∈ next start event, AlongRun next condition state events := by
  refine ⟨fun along => ⟨along [] event events rfl start rfl, ?_⟩, fun both => ?_⟩
  · intro state taken before other later split reached run
    refine along (event :: before) other later (by rw [split, List.cons_append]) reached ?_
    rw [runEvents_cons, Option.mem_def.mp taken, Option.bind_some, run]
  · exact .cons both.1 fun state taken => both.2 state (Option.mem_def.mpr taken)

instance decidableAlongRun {condition : State → Event → Prop}
    [∀ state event, Decidable (condition state event)] :
    ∀ start events, Decidable (AlongRun next condition start events)
  | start, [] => isTrue (alongRun_nil start)
  | start, event :: events =>
      have : ∀ state, Decidable (AlongRun next condition state events) :=
        fun state => decidableAlongRun state events
      decidable_of_iff _ (@alongRun_cons_iff _ _ next condition start event events).symm

theorem AlongRun.of_append {condition : State → Event → Prop} {start : State}
    {events later : List Event} (along : AlongRun next condition start (events ++ later)) :
    AlongRun next condition start events := by
  intro before event rest split state run
  exact along before event (rest ++ later) (by rw [split, List.append_assoc, List.cons_append])
    state run

/-- **Induction over a run whose steps meet a condition.** -/
theorem runEvents_induction_along {condition : State → Event → Prop} {start : State}
    {motive : List Event → State → Prop} (initial : motive [] start)
    (step : ∀ events before event after, condition before event → motive events before →
      next before event = some after → motive (events ++ [event]) after)
    {events : List Event} {reached : State} (run : runEvents next start events = some reached)
    (along : AlongRun next condition start events) : motive events reached := by
  revert along
  refine @runEvents_induction _ _ next start
    (fun events state => AlongRun next condition start events → motive events state)
    (fun _ => initial) ?_ events reached run
  intro events before event after earlier holds taken along
  exact step events before event after (along events event [] rfl before earlier)
    (holds along.of_append) taken

/-- An event in a longer run is the last one or was there before. -/
theorem concat_eq_append_cons_iff {events before later : List Event} {last event : Event} :
    events ++ [last] = before ++ event :: later ↔
      (before = events ∧ event = last ∧ later = []) ∨
        ∃ rest, later = rest ++ [last] ∧ events = before ++ event :: rest := by
  constructor
  · intro split
    rcases List.eq_nil_or_concat later with rfl | ⟨rest, final, rfl⟩
    · obtain ⟨rfl, same⟩ := List.append_inj' split rfl
      exact .inl ⟨rfl, (List.singleton_inj.mp same).symm, rfl⟩
    · rw [List.concat_eq_append, ← List.cons_append, ← List.append_assoc] at split
      obtain ⟨rfl, same⟩ := List.append_inj' split rfl
      obtain rfl := List.singleton_inj.mp same
      exact .inr ⟨rest, List.concat_eq_append, rfl⟩
  · rintro (⟨rfl, rfl, rfl⟩ | ⟨rest, rfl, rfl⟩)
    · rfl
    · simp

/-! ## The latest event -/

section Latest

variable {Time : Type*} [DecidableEq Event] (history : List (Time × Event))

/-- When the event happened last. -/
def latestTime (event : Event) : Option Time :=
  (history.reverse.find? fun entry => entry.2 = event).map Prod.fst

/-- What happened since the event happened last, or at all if it never did, the last first. -/
def eventsSince (event : Event) : List (Time × Event) :=
  history.reverse.takeWhile fun entry => entry.2 ≠ event

variable {history}

theorem latestTime_concat (entry : Time × Event) (event : Event) :
    latestTime (history ++ [entry]) event =
      if entry.2 = event then some entry.1 else latestTime history event := by
  by_cases same : entry.2 = event
  · simp [latestTime, same]
  · simp [latestTime, same]

theorem eventsSince_concat (entry : Time × Event) (event : Event) :
    eventsSince (history ++ [entry]) event =
      if entry.2 = event then [] else entry :: eventsSince history event := by
  by_cases same : entry.2 = event
  · simp [eventsSince, same]
  · simp [eventsSince, same]

/-- An event that happened has a latest time. -/
theorem latestTime_ne_none {entry : Time × Event} (member : entry ∈ history) :
    latestTime history entry.2 ≠ none := by
  rw [latestTime, Ne, Option.map_eq_none_iff, List.find?_eq_none]
  intro never
  exact never entry (List.mem_reverse.mpr member) (decide_eq_true rfl)

end Latest

end InfraFromScratch.Foundations
