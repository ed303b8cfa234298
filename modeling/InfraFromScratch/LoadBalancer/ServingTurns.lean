import InfraFromScratch.LoadBalancer.Goroutines
import InfraFromScratch.LoadBalancer.Turns

/-!
# The turns of the goroutines

The model of the turns takes what a connection meets for given and keeps only the counter; the model
of the goroutines has the pool and the counter and records what each connection has observed. Every
run of the goroutines is a run of the turns among connections that meet what was observed, in which
the turns are claimed in the same order (`turns_of_serving`). So the counter of `serve` is the number
of turns that were claimed, and the connection of each turn has its number (`inTurn_of_serving`).
-/

set_option autoImplicit false

namespace InfraFromScratch.LoadBalancer

open Foundations Gateway

/-! ## The projection -/

/-- The connection that claims a turn. -/
def ServeEvent.claimant? : ServeEvent → Option Nat
  | .claim connection => some connection
  | _ => none

/-- Where a connection is in the model of the turns, by what it has observed. -/
def Goroutine.phase (tables : UnicodeTables) (seen : Environment) : Goroutine → Phase
  | .idle => .idle
  | .accepted _ => .accepted
  | .ready _ _ => .ready
  | .trying _ | .attempting _ _ _ | .succeeding _ _ | .failing _ _ => .claimed seen.selection
  | .closed _ =>
      if acceptRequest tables seen.incoming = none then .rejected
      else if seen.backends = [] then .stranded
      else .closed seen.selection

/-- The connection has its snapshot, or needs none. -/
def Goroutine.hasLooked : Goroutine → Bool
  | .idle | .accepted _ => false
  | _ => true

namespace Serving

/-- The system in the model of the turns. -/
def balancer (tables : UnicodeTables) (system : Serving) (turns : List Nat) : Balancer where
  selection := system.selection
  phases := fun connection =>
    (system.goroutines connection).phase tables (system.seen connection)
  turns := turns

/-- The connections are to meet what they have observed so far. -/
structure Foreseen (system : Serving) (environments : Nat → Environment) : Prop where
  incoming : ∀ connection,
    (environments connection).incoming = (system.seen connection).incoming
  backends : ∀ connection, (system.goroutines connection).hasLooked = true →
    (environments connection).backends = (system.seen connection).backends

end Serving

/-! ## One step -/

section Step

variable {tables : UnicodeTables} {environments : Nat → Environment} {system called : Serving}
  {connection : Nat} {goroutine : Goroutine} {seen : Environment}

/-- In the model of the turns, too, one connection goes on. -/
theorem balancer_advance (goroutines : called.goroutines = system.goroutines)
    (observed : called.seen = system.seen) (turns : List Nat) :
    (called.advance connection goroutine seen).balancer tables turns =
      { (system.balancer tables turns).setPhase connection (goroutine.phase tables seen) with
        selection := called.selection } := by
  simp only [Serving.balancer, Serving.advance, Balancer.setPhase, Balancer.mk.injEq, and_true,
    true_and]
  funext other
  by_cases here : other = connection
  · subst here
    simp
  · simp [Function.update_of_ne here, goroutines, observed]

/-- What is to be met after the step was to be met before. -/
theorem Serving.Foreseen.of_advance
    (foreseen : (called.advance connection goroutine seen).Foreseen environments)
    (goroutines : called.goroutines = system.goroutines) (observed : called.seen = system.seen)
    (incoming : seen.incoming = (system.seen connection).incoming)
    (looked : (system.goroutines connection).hasLooked = true →
      goroutine.hasLooked = true ∧ seen.backends = (system.seen connection).backends) :
    system.Foreseen environments where
  incoming := by
    intro other
    have met := foreseen.incoming other
    by_cases here : other = connection
    · subst here
      simpa [Serving.advance, incoming] using met
    · simpa [Serving.advance, Function.update_of_ne here, observed] using met
  backends := by
    intro other hasLooked
    have met := foreseen.backends other
    by_cases here : other = connection
    · subst here
      obtain ⟨still, same⟩ := looked hasLooked
      rw [← same]
      simpa [Serving.advance] using met (by simpa [Serving.advance] using still)
    · simpa [Serving.advance, Function.update_of_ne here, observed] using
        met (by simpa [Serving.advance, Function.update_of_ne here, goroutines] using hasLooked)

/-- The step is made by these events of the model of the turns. -/
def Matches (tables : UnicodeTables) (environments : Nat → Environment) (system after : Serving)
    (claimed : List Nat) : Prop :=
  ∀ turns, InTurn tables environments (system.balancer tables turns) →
    ∃ projected, runEvents (Balancer.next tables environments) (system.balancer tables turns)
      projected = some (after.balancer tables (turns ++ claimed))

/-- A step that the model of the turns does not see. -/
theorem projected_of_same
    (foreseen : (called.advance connection goroutine seen).Foreseen environments)
    (goroutines : called.goroutines = system.goroutines) (observed : called.seen = system.seen)
    (selection : called.selection = system.selection)
    (incoming : seen.incoming = (system.seen connection).incoming)
    (looked : (system.goroutines connection).hasLooked = true →
      goroutine.hasLooked = true ∧ seen.backends = (system.seen connection).backends)
    (same : goroutine.phase tables seen =
      (system.goroutines connection).phase tables (system.seen connection)) :
    system.Foreseen environments ∧
      Matches tables environments system (called.advance connection goroutine seen) [] := by
  refine ⟨foreseen.of_advance goroutines observed incoming looked, fun turns _ => ⟨[], ?_⟩⟩
  refine congrArg some ?_
  rw [balancer_advance goroutines observed, List.append_nil, same, selection]
  simp only [Serving.balancer, Balancer.setPhase, Function.update_eq_self]

/-- The loop of a connection ends. -/
theorem projected_of_close {result : Run}
    (foreseen : (called.advance connection (.closed result) seen).Foreseen environments)
    (goroutines : called.goroutines = system.goroutines) (observed : called.seen = system.seen)
    (selection : called.selection = system.selection)
    (incoming : seen.incoming = (system.seen connection).incoming)
    (backends : seen.backends = (system.seen connection).backends)
    (number : seen.selection = (system.seen connection).selection)
    (claimed : (system.goroutines connection).phase tables (system.seen connection) =
      .claimed (system.seen connection).selection)
    (looked : (system.goroutines connection).hasLooked = true) :
    system.Foreseen environments ∧
      Matches tables environments system (called.advance connection (.closed result) seen) [] := by
  have before : system.Foreseen environments :=
    foreseen.of_advance goroutines observed incoming fun _ => ⟨rfl, backends⟩
  refine ⟨before, fun turns inTurn => ⟨[.close connection], ?_⟩⟩
  have sound := inTurn.sound connection
  have phase : (system.balancer tables turns).phases connection = _ := claimed
  rw [phase] at sound
  obtain ⟨accepted, nonempty⟩ := sound
  rw [before.incoming, ← incoming] at accepted
  rw [before.backends connection looked, ← backends] at nonempty
  rw [balancer_advance goroutines observed, List.append_nil, runEvents_cons, Balancer.next, phase,
    Goroutine.phase, if_neg accepted, if_neg nonempty, number, selection]
  rfl

/-- The request is read. -/
theorem matches_of_read (foreseen : system.Foreseen environments)
    (idle : system.goroutines connection = .idle)
    (phase : goroutine.phase tables (system.seen connection) =
      if acceptRequest tables (system.seen connection).incoming = none then .rejected
      else .accepted) :
    Matches tables environments system
      (system.advance connection goroutine (system.seen connection)) [] := by
  intro turns _
  refine ⟨[.read connection], ?_⟩
  have isIdle : (system.balancer tables turns).phases connection = .idle :=
    congrArg (Goroutine.phase tables (system.seen connection)) idle
  rw [balancer_advance rfl rfl, List.append_nil, runEvents_cons, Balancer.next, isIdle, phase,
    foreseen.incoming]
  cases accepted : acceptRequest tables (system.seen connection).incoming with
  | none => rfl
  | some request => rfl

/-- The snapshot is taken. -/
theorem matches_of_snapshot
    (foreseen : (called.advance connection goroutine seen).Foreseen environments)
    (goroutines : called.goroutines = system.goroutines) (observed : called.seen = system.seen)
    (selection : called.selection = system.selection) {request : Bytes}
    (accepted : system.goroutines connection = .accepted request)
    (looked : goroutine.hasLooked = true)
    (phase : acceptRequest tables seen.incoming ≠ none →
      goroutine.phase tables seen = if seen.backends = [] then .stranded else .ready) :
    Matches tables environments system (called.advance connection goroutine seen) [] := by
  intro turns inTurn
  refine ⟨[.snapshot connection], ?_⟩
  have isAccepted : (system.balancer tables turns).phases connection = .accepted :=
    congrArg (Goroutine.phase tables (system.seen connection)) accepted
  have sound := inTurn.sound connection
  rw [isAccepted] at sound
  have met := foreseen.incoming connection
  have backends := foreseen.backends connection (by simpa [Serving.advance] using looked)
  simp only [Serving.advance, Function.update_self] at met backends
  rw [balancer_advance goroutines observed, List.append_nil, runEvents_cons, Balancer.next,
    isAccepted, phase (by rw [← met]; exact sound), backends, selection]
  by_cases empty : seen.backends = []
  · simp only [empty, if_true]
    rfl
  · simp only [empty, if_false]
    rfl

/-- A turn is claimed. -/
theorem matches_of_claim {request : Bytes} {backends : List Pointer}
    (ready : system.goroutines connection = .ready request backends) (trial : Trial) :
    Matches tables environments system
      (Serving.advance { system with selection := system.selection + 1 } connection (.trying trial)
        { system.seen connection with selection := system.selection }) [connection] := by
  intro turns _
  refine ⟨[.claim connection], ?_⟩
  have isReady : (system.balancer tables turns).phases connection = .ready :=
    congrArg (Goroutine.phase tables (system.seen connection)) ready
  rw [balancer_advance rfl rfl, runEvents_cons, Balancer.next, isReady]
  rfl

end Step

section Run

variable {tables : UnicodeTables} {system after : Serving} {environments : Nat → Environment}

/-- The check of the next backend is not seen, unless it panics. -/
theorem projected_check {connection : Nat} {now : Int} {trial : Trial}
    (trying : system.goroutines connection = .trying trial)
    (taken : system.check connection now trial = some after)
    (foreseen : after.Foreseen environments) :
    system.Foreseen environments ∧ Matches tables environments system after [] := by
  unfold Serving.check at taken
  split at taken
  · split at taken
    · obtain rfl := Option.some.inj taken
      exact projected_of_close foreseen rfl rfl rfl rfl rfl rfl (by rw [trying]; rfl)
        (by rw [trying]; rfl)
    · dsimp only at taken
      split at taken
      · obtain rfl := Option.some.inj taken
        exact projected_of_same foreseen rfl rfl rfl rfl (fun _ => ⟨rfl, rfl⟩) (by rw [trying]; rfl)
      · obtain rfl := Option.some.inj taken
        exact projected_of_same foreseen rfl rfl rfl rfl (fun _ => ⟨rfl, rfl⟩) (by rw [trying]; rfl)
  · cases taken

/-- The attempt is not seen, unless it breaks the response off. -/
theorem projected_relay {connection position : Nat} {trial : Trial} {backend : Pointer}
    (attempting : system.goroutines connection = .attempting trial position backend)
    (exchange : Exchange)
    (foreseen :
      (system.relay connection trial position backend exchange).Foreseen environments) :
    system.Foreseen environments ∧ Matches tables environments system
      (system.relay connection trial position backend exchange) [] := by
  unfold Serving.relay at foreseen ⊢
  dsimp only at foreseen ⊢
  split at foreseen
  · rename_i noError
    rw [if_pos noError]
    exact projected_of_same foreseen rfl rfl rfl rfl (fun _ => ⟨rfl, rfl⟩) (by rw [attempting]; rfl)
  · rename_i error
    rw [if_neg error]
    split at foreseen
    · rename_i started
      rw [if_pos started]
      exact projected_of_close foreseen rfl rfl rfl rfl rfl rfl (by rw [attempting]; rfl)
        (by rw [attempting]; rfl)
    · rename_i started
      rw [if_neg started]
      exact projected_of_same foreseen rfl rfl rfl rfl (fun _ => ⟨rfl, rfl⟩) (by rw [attempting]; rfl)

/-- **One step of the goroutines** is made by events of the turns. -/
theorem projected_next {event : ServeEvent} (taken : system.next tables event = some after)
    (foreseen : after.Foreseen environments) :
    system.Foreseen environments ∧
      Matches tables environments system after event.claimant?.toList := by
  unfold Serving.next at taken
  split at taken
  · cases taken
  · cases event with
    | read connection =>
        dsimp only at taken
        split at taken
        · rename_i idle
          have unlooked : (system.goroutines connection).hasLooked = false := by rw [idle]; rfl
          split at taken
          · rename_i refused
            obtain rfl := Option.some.inj taken
            have before : system.Foreseen environments :=
              foreseen.of_advance rfl rfl rfl (by simp [unlooked])
            exact ⟨before, matches_of_read before idle (by simp [Goroutine.phase, refused])⟩
          · rename_i request accepted
            obtain rfl := Option.some.inj taken
            have before : system.Foreseen environments :=
              foreseen.of_advance rfl rfl rfl (by simp [unlooked])
            exact ⟨before, matches_of_read before idle (by simp [Goroutine.phase, accepted])⟩
        · cases taken
    | snapshot connection now =>
        dsimp only at taken
        split at taken
        · rename_i request accepted
          have unlooked : (system.goroutines connection).hasLooked = false := by rw [accepted]; rfl
          split at taken
          · rename_i empty
            obtain rfl := Option.some.inj taken
            refine ⟨foreseen.of_advance rfl rfl rfl (by simp [unlooked]),
              matches_of_snapshot foreseen rfl rfl rfl accepted rfl fun admitted => ?_⟩
            exact (if_neg admitted).trans ((if_pos empty).trans (if_pos empty).symm)
          · rename_i nonempty
            obtain rfl := Option.some.inj taken
            refine ⟨foreseen.of_advance rfl rfl rfl (by simp [unlooked]),
              matches_of_snapshot foreseen rfl rfl rfl accepted rfl fun _ => ?_⟩
            exact (if_neg nonempty).symm
        · cases taken
    | claim connection =>
        dsimp only at taken
        split at taken
        · rename_i request backends ready
          obtain rfl := Option.some.inj taken
          exact ⟨foreseen.of_advance rfl rfl rfl fun _ => ⟨rfl, rfl⟩, matches_of_claim ready _⟩
        · cases taken
    | check connection now =>
        dsimp only at taken
        split at taken
        · rename_i trial trying
          exact projected_check trying taken foreseen
        · cases taken
    | attempt connection exchange =>
        dsimp only at taken
        split at taken
        · rename_i trial position backend attempting
          obtain rfl := Option.some.inj taken
          exact projected_relay attempting exchange foreseen
        · cases taken
    | mark connection now =>
        dsimp only at taken
        split at taken
        · rename_i result backend succeeding
          obtain rfl := Option.some.inj taken
          exact projected_of_close foreseen rfl rfl rfl rfl rfl rfl (by rw [succeeding]; rfl)
            (by rw [succeeding]; rfl)
        · rename_i trial backend failing
          obtain rfl := Option.some.inj taken
          exact projected_of_same foreseen rfl rfl rfl rfl (fun _ => ⟨rfl, rfl⟩) (by rw [failing]; rfl)
        · cases taken
    | giveUp connection =>
        dsimp only at taken
        split at taken
        · rename_i trial trying
          split at taken
          · cases taken
          · obtain rfl := Option.some.inj taken
            exact projected_of_close foreseen rfl rfl rfl rfl rfl rfl (by rw [trying]; rfl)
              (by rw [trying]; rfl)
        · cases taken
    | registry now call =>
        obtain rfl := Option.some.inj taken
        refine ⟨⟨foreseen.incoming, foreseen.backends⟩, fun turns _ => ⟨[], ?_⟩⟩
        exact congrArg (fun order => some (system.balancer tables order)) (List.append_nil turns).symm

/-! ## Runs -/

/-- **The turns of `serve`.** A run of the goroutines is a run of the model of the turns, among
connections that meet what the goroutines have observed, and the turns are claimed in the same
order. -/
theorem turns_of_serving {start : Nat → Environment} {addresses : List String}
    {events : List ServeEvent}
    (run : runEvents (Serving.next tables) (.start start addresses) events = some system) :
    ∃ projected, runEvents (Balancer.next tables system.seen) .start projected =
      some (system.balancer tables (events.filterMap ServeEvent.claimant?)) := by
  have whole : ∀ environments, system.Foreseen environments →
      ∃ projected, runEvents (Balancer.next tables environments) .start projected =
        some (system.balancer tables (events.filterMap ServeEvent.claimant?)) := by
    refine @runEvents_induction _ _ (Serving.next tables) (.start start addresses)
      (fun events system => ∀ environments, system.Foreseen environments →
        ∃ projected, runEvents (Balancer.next tables environments) .start projected =
          some (system.balancer tables (events.filterMap ServeEvent.claimant?))) ?_ ?_ _ _ run
    · exact fun environments _ => ⟨[], rfl⟩
    · intro events before event after _ earlier taken environments foreseen
      obtain ⟨foreseenBefore, step⟩ := projected_next taken foreseen
      obtain ⟨projected, ran⟩ := earlier environments foreseenBefore
      have inTurn := runEvents_invariant inTurn_start
        (fun _ _ _ holds taken => InTurn.next holds taken) ran
      obtain ⟨more, matched⟩ := step _ inTurn
      refine ⟨projected ++ more, ?_⟩
      rw [runEvents_append, ran, Option.bind_some, matched, List.filterMap_append]
      congr 3
  exact whole system.seen ⟨fun _ => rfl, fun _ _ => rfl⟩

/-- **The order of turns** holds of the goroutines: the counter is the number of turns that were
claimed, and the connection of each turn got its number. -/
theorem inTurn_of_serving {start : Nat → Environment} {addresses : List String}
    {events : List ServeEvent}
    (run : runEvents (Serving.next tables) (.start start addresses) events = some system) :
    InTurn tables system.seen
      (system.balancer tables (events.filterMap ServeEvent.claimant?)) := by
  obtain ⟨projected, ran⟩ := turns_of_serving run
  exact runEvents_invariant inTurn_start (fun _ _ _ holds taken => InTurn.next holds taken) ran

end Run

end InfraFromScratch.LoadBalancer
