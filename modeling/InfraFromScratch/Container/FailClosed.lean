import InfraFromScratch.Container.Startup

/-!
# A startup that fails

Where something of the startup fails, the init exits with 125 and the launcher, which supervises
it, too; where the launcher cannot map the user, it kills the init, waits for it and exits with
125. A run has boundedly many steps (`length_le_rank_start`), so it remains to see where a run can
stop.

There is one place where it stops too early. The launcher ignores whether `kill` has succeeded, and
waits for the init with its end of the pipe still open. If the init was not killed, it waits for
the byte forever, and the launcher for the init. Everywhere else the startup fails closed
(`failsClosed_iff`).
-/

set_option autoImplicit false

namespace InfraFromScratch.Container

open Foundations

/-! ## What is to hold -/

/-- `execv` is reached only when everything was set up, also if the launcher dies. Where something
was not and the launcher is not killed, a run goes on until the launcher has exited, after boundedly
many steps, and it exits with 125. -/
structure Outcomes.FailsClosed (outcomes : Outcomes) : Prop where
  executes : ∀ events state, runEvents (Startup.next outcomes) .start events = some state →
    state.Executes → outcomes.Prepared
  ends : ∃ bound, ∀ events state, runEvents (Startup.next outcomes) .start events = some state →
    events.length ≤ bound
  exits : ¬ outcomes.Prepared → ∀ events state,
    runEvents (Startup.next outcomes) .start events = some state → .launcherDies ∉ events →
    (∀ code, state.launcher = .exited code → code = runtimeError.toNat) ∧
      ((∀ event ≠ .launcherDies, state.next outcomes event = none) →
        state.launcher = .exited runtimeError.toNat)

/-- The launcher does not get so far as to clone, or it maps everything, or its `kill` succeeds or
its `waitpid` fails, or the init gives up by itself before it has the byte. -/
def Outcomes.Recovers (outcomes : Outcomes) : Prop :=
  (∃ call ∈ preparation ++ [LauncherCall.clone], outcomes.grants call = false) ∨
    (∀ call ∈ mapping, outcomes.launcher call = .success) ∨
    outcomes.kill = .success ∨ outcomes.reap ≠ .success ∨
    ∃ call ∈ [.setDeathSignal, .pollParent, .readReady], outcomes.init call ≠ .success

/-! ## The stages -/

/-- The control of the launcher from the clone to its end. -/
def Launcher.cloned : Launcher → Bool
  | .mapping _ | .killing | .reaping | .supervising => true
  | _ => false

/-- How the processes are ordered, in every state. -/
structure Startup.Staged (outcomes : Outcomes) (state : Startup) : Prop where
  preparing : ∀ calls, state.launcher = .preparing calls → state.init = .unborn ∧
    ∃ done, done ++ calls = preparation ∧ ∀ call ∈ done, outcomes.grants call = true
  cloned : state.launcher.cloned = true → state.init ≠ .unborn ∧
    ∀ call ∈ preparation ++ [LauncherCall.clone], outcomes.grants call = true
  unmapped : state.launcher = .killing ∨ state.launcher = .reaping →
    ∃ call ∈ mapping, outcomes.launcher call ≠ .success
  unforked : (state.init = .unborn ∨ ∃ calls, state.init = .running calls ∧ .fork ∈ calls) →
    state.command = .unborn
  killed : state.launcher = .reaping → outcomes.kill = .success → state.doomed = true
  doomed : state.doomed = true → state.launcher = .reaping ∨ state.launcher.gone = true
  ended : ¬ outcomes.Prepared → ∀ death, state.init = .ended death →
    death = failed ∨ state.doomed = true ∨ state.launcher.gone = true
  code : ¬ outcomes.Prepared → ∀ code, state.launcher = .exited code → code = runtimeError.toNat

section Stages

variable {outcomes : Outcomes} {state after : Startup}

theorem staged_start (outcomes : Outcomes) : Startup.start.Staged outcomes where
  preparing := by
    rintro calls ⟨⟩
    exact ⟨rfl, [], rfl, nofun⟩
  cloned := nofun
  unmapped := by rintro (killing | reaping) <;> contradiction
  unforked := fun _ => rfl
  killed := nofun
  doomed := nofun
  ended := fun _ => nofun
  code := fun _ => nofun

/-- The launcher exits or dies. -/
theorem Startup.Staged.leave (staged : state.Staged outcomes) {launcher : Launcher}
    (gone : launcher.gone = true)
    (code : ¬ outcomes.Prepared → ∀ code, launcher = .exited code → code = runtimeError.toNat) :
    Startup.Staged outcomes { state with launcher := launcher } := by
  cases launcher with
  | preparing | mapping | killing | reaping | supervising => cases gone
  | exited | dead =>
      exact ⟨nofun, nofun, by rintro (killing | reaping) <;> contradiction, staged.unforked, nofun,
        fun _ => .inr rfl, fun _ _ _ => .inr (.inr rfl), code⟩

theorem Startup.Staged.fail (staged : state.Staged outcomes) :
    Startup.Staged outcomes { state with launcher := .exited runtimeError.toNat } :=
  staged.leave rfl fun _ _ same => (Launcher.exited.inj same).symm

/-- The launcher goes on, with the init as it is. -/
theorem Startup.Staged.advance (staged : state.Staged outcomes)
    (present : state.launcher.gone = false) {launcher : Launcher} {ready doomed : Bool}
    (preparing : ∀ calls, launcher = .preparing calls → state.init = .unborn ∧
      ∃ done, done ++ calls = preparation ∧ ∀ call ∈ done, outcomes.grants call = true)
    (cloned : launcher.cloned = true → state.launcher.cloned = true)
    (unmapped : launcher = .killing ∨ launcher = .reaping →
      ∃ call ∈ mapping, outcomes.launcher call ≠ .success)
    (killed : launcher = .reaping → outcomes.kill = .success → doomed = true)
    (doom : doomed = true → launcher = .reaping) (more : state.doomed = true → doomed = true)
    (running : launcher.gone = false) :
    Startup.Staged outcomes
      { state with launcher := launcher, ready := ready, doomed := doomed } := by
  refine ⟨preparing, fun now => staged.cloned (cloned now), unmapped, staged.unforked, killed,
    fun isDoomed => .inl (doom isDoomed), ?_, ?_⟩
  · intro unprepared death ended
    rcases staged.ended unprepared death ended with failed | isDoomed | gone
    · exact .inl failed
    · exact .inr (.inl (more isDoomed))
    · rw [present] at gone
      cases gone
  · intro _ code exited
    rw [show launcher = _ from exited] at running
    cases running

/-- Only a launcher that waits after `kill` has doomed the init. -/
theorem Startup.Staged.undoomed (staged : state.Staged outcomes)
    (present : state.launcher.gone = false) (elsewhere : state.launcher ≠ .reaping) :
    ¬ state.doomed = true := by
  intro doomed
  rcases staged.doomed doomed with reaping | gone
  · exact elsewhere reaping
  · rw [present] at gone
    cases gone

/-- **One step of the launcher.** -/
theorem Startup.Staged.launcherStep (staged : state.Staged outcomes)
    (steady : state.Steady outcomes)
    (taken : state.launcherStep outcomes = some after) : after.Staged outcomes := by
  unfold Startup.launcherStep at taken
  split at taken
  · rename_i call calls preparing
    obtain ⟨unborn, done, whole, succeeded⟩ := staged.preparing _ preparing
    have present : state.launcher.gone = false := by rw [preparing]; rfl
    have undoomed := staged.undoomed present (by rw [preparing]; nofun)
    split at taken
    · rename_i success
      obtain rfl := Option.some.inj taken
      refine staged.advance present ?_ nofun (by rintro (same | same) <;> cases same) nofun
        (fun doomed => absurd doomed undoomed) id rfl
      rintro _ ⟨⟩
      refine ⟨unborn, done ++ [call], by rw [← whole]; simp, ?_⟩
      exact List.forall_mem_append.mpr ⟨succeeded, List.forall_mem_singleton.mpr success⟩
    · obtain rfl := Option.some.inj taken
      exact staged.fail
  · rename_i preparing
    obtain ⟨unborn, done, whole, succeeded⟩ := staged.preparing _ preparing
    have present : state.launcher.gone = false := by rw [preparing]; rfl
    have undoomed := staged.undoomed present (by rw [preparing]; nofun)
    split at taken
    · rename_i success
      obtain rfl := Option.some.inj taken
      refine ⟨nofun, fun _ => ⟨nofun, ?_⟩, (by rintro (same | same) <;> cases same),
        fun _ => staged.unforked (.inl unborn), nofun, fun doomed => absurd doomed undoomed,
        fun _ => nofun, fun _ => nofun⟩
      rw [List.append_nil] at whole
      exact List.forall_mem_append.mpr ⟨whole ▸ succeeded, List.forall_mem_singleton.mpr success⟩
    · obtain rfl := Option.some.inj taken
      exact staged.fail
  · rename_i call calls isMapping
    have present : state.launcher.gone = false := by rw [isMapping]; rfl
    have undoomed := staged.undoomed present (by rw [isMapping]; nofun)
    split at taken
    · obtain rfl := Option.some.inj taken
      exact staged.advance present nofun (fun _ => by rw [isMapping]; rfl)
        (by rintro (same | same) <;> cases same) nofun (fun doomed => absurd doomed undoomed) id rfl
    · rename_i failure
      obtain rfl := Option.some.inj taken
      refine staged.advance present nofun (fun _ => by rw [isMapping]; rfl) (fun _ => ?_) nofun
        (fun doomed => absurd doomed undoomed) id rfl
      obtain ⟨done, whole, -⟩ := steady.mapping _ isMapping
      exact ⟨call, by rw [← whole]; simp, failure⟩
  · rename_i isMapping
    have present : state.launcher.gone = false := by rw [isMapping]; rfl
    have undoomed := staged.undoomed present (by rw [isMapping]; nofun)
    obtain rfl := Option.some.inj taken
    exact staged.advance present nofun (fun _ => by rw [isMapping]; rfl)
      (by rintro (same | same) <;> cases same) nofun (fun doomed => absurd doomed undoomed) id rfl
  · rename_i killing
    have present : state.launcher.gone = false := by rw [killing]; rfl
    obtain rfl := Option.some.inj taken
    exact staged.advance present nofun (fun _ => by rw [killing]; rfl)
      (fun _ => staged.unmapped (.inl killing))
      (fun _ success => by rw [success, decide_eq_true rfl, Bool.or_true]) (fun _ => rfl)
      (fun doomed => by rw [doomed, Bool.true_or]) rfl
  · split at taken
    · obtain rfl := Option.some.inj taken
      exact staged.fail
    · split at taken
      · obtain rfl := Option.some.inj taken
        exact staged.fail
      · cases taken
  · rename_i supervising
    split at taken
    · obtain rfl := Option.some.inj taken
      exact staged.fail
    · split at taken
      · rename_i death ended
        obtain rfl := Option.some.inj taken
        refine staged.leave rfl fun unprepared code exited => ?_
        have present : state.launcher.gone = false := by rw [supervising]; rfl
        have undoomed := staged.undoomed present (by rw [supervising]; nofun)
        rcases staged.ended unprepared death ended with rfl | doomed | gone
        · exact (Launcher.exited.inj exited).symm
        · exact absurd doomed undoomed
        · rw [present] at gone
          cases gone
      · cases taken
  · cases taken
  · cases taken

/-- A step of the init, after which it was born, and which changes no other process. -/
theorem Startup.Staged.setInit (staged : state.Staged outcomes) (born : state.init ≠ .unborn)
    {init : Init} {deathSignal : Bool} (still : init ≠ .unborn)
    (unforked : ∀ calls, init = .running calls → .fork ∈ calls → state.command = .unborn)
    (ended : ¬ outcomes.Prepared → ∀ death, init = .ended death →
      death = failed ∨ state.doomed = true ∨ state.launcher.gone = true) :
    Startup.Staged outcomes { state with init := init, deathSignal := deathSignal } := by
  refine ⟨?_, fun cloned => ⟨still, (staged.cloned cloned).2⟩, staged.unmapped, ?_, staged.killed,
    staged.doomed, ended, staged.code⟩
  · intro calls preparing
    exact absurd (staged.preparing calls preparing).1 born
  · rintro (unborn | ⟨calls, running, member⟩)
    · exact absurd unborn still
    · exact unforked calls running member

theorem notMem_of_fork {capabilities : Nat} {done calls : List InitCall}
    (whole : done ++ .fork :: calls = initCalls capabilities) : .fork ∉ calls := by
  rw [done_of_fork whole, initCalls] at whole
  obtain ⟨-, rfl⟩ := List.cons.inj (List.append_cancel_left whole)
  decide

/-- **One step of the init.** -/
theorem Startup.Staged.initStep (staged : state.Staged outcomes) (steady : state.Steady outcomes)
    (taken : state.initStep outcomes = some after) : after.Staged outcomes := by
  unfold Startup.initStep at taken
  split at taken
  · rename_i call calls running
    have born : state.init ≠ .unborn := by rw [running]; nofun
    obtain ⟨passed, passes, rfl⟩ := Option.map_eq_some_iff.mp taken
    cases passed with
    | false => exact staged.setInit born nofun nofun fun _ _ same => .inl (Init.ended.inj same).symm
    | true =>
        obtain ⟨done, whole, -⟩ := steady.init _ running
        have forks : .fork ∈ calls → state.command = .unborn :=
          fun member => staged.unforked (.inr ⟨_, running, List.mem_cons_of_mem _ member⟩)
        cases call with
        | fork =>
            have gone := notMem_of_fork whole
            refine ⟨?_, fun cloned => ⟨nofun, (staged.cloned cloned).2⟩, staged.unmapped, ?_,
              staged.killed, staged.doomed, fun _ => nofun, staged.code⟩
            · intro calls preparing
              exact absurd (staged.preparing calls preparing).1 born
            · rintro (unborn | ⟨_, ⟨⟩, member⟩)
              · cases unborn
              · exact absurd member gone
        | _ =>
            exact staged.setInit born nofun (fun _ same => Init.running.inj same ▸ forks)
              fun _ => nofun
  · rename_i running
    obtain rfl := Option.some.inj taken
    exact staged.setInit (by rw [running]; nofun) nofun nofun fun _ => nofun
  · rename_i supervising
    have born : state.init ≠ .unborn := by rw [supervising]; nofun
    have prepared := steady.forked (.inr supervising)
    split at taken
    · obtain rfl := Option.some.inj taken
      exact staged.setInit born nofun nofun fun unprepared => absurd prepared unprepared
    · split at taken
      · obtain rfl := Option.some.inj taken
        exact staged.setInit born nofun nofun fun unprepared => absurd prepared unprepared
      · cases taken
  · cases taken
  · cases taken

theorem Startup.Staged.commandStep (staged : state.Staged outcomes)
    (taken : state.commandStep outcomes = some after) : after.Staged outcomes := by
  obtain ⟨born, command, rfl⟩ := commandStep_eq_some taken
  exact ⟨staged.preparing, staged.cloned, staged.unmapped,
    fun unforked => absurd (staged.unforked unforked) born, staged.killed, staged.doomed,
    staged.ended, staged.code⟩

/-- **One event.** -/
theorem Startup.Staged.next (staged : state.Staged outcomes) (steady : state.Steady outcomes)
    {event : StartupEvent} (taken : state.next outcomes event = some after) :
    after.Staged outcomes := by
  cases event with
  | launcher => exact staged.launcherStep steady taken
  | init => exact staged.initStep steady taken
  | command => exact staged.commandStep taken
  | initDies =>
      simp only [Startup.next] at taken
      split at taken
      · rename_i dies
        obtain rfl := Option.some.inj taken
        have born : state.init ≠ .unborn := by
          intro unborn
          rw [unborn] at dies
          cases dies.1
        exact staged.setInit born (by simp) (by simp)
          fun _ _ _ => .inr (dies.2.imp_right And.left)
      · cases taken
  | launcherDies =>
      simp only [Startup.next] at taken
      split at taken
      · cases taken
      · obtain rfl := Option.some.inj taken
        exact staged.leave rfl (by simp)

theorem staged_of_run {events : List StartupEvent}
    (run : runEvents (Startup.next outcomes) .start events = some state) :
    state.Staged outcomes := by
  refine @runEvents_induction _ _ (Startup.next outcomes) .start
    (fun _ state => state.Staged outcomes) (staged_start outcomes) ?_ events state run
  intro events before event after earlier staged taken
  exact staged.next (steady_of_run earlier) taken

end Stages

/-! ## Runs are bounded -/

/-- How many steps the launcher can still take. -/
def Launcher.rank : Launcher → Nat
  | .preparing calls => calls.length + Container.mapping.length + 5
  | .mapping calls => calls.length + 4
  | .killing => 3
  | .reaping | .supervising => 2
  | .exited _ | .dead => 0

/-- How many steps the init can still take. -/
def Init.rank (capabilities : Nat) : Init → Nat
  | .unborn => (initCalls capabilities).length + 3
  | .running calls => calls.length + 2
  | .supervising => 1
  | .ended _ => 0

/-- How many steps the command can still take. -/
def Command.rank : Command → Nat
  | .unborn => commandSetup.length + 3
  | .running calls => calls.length + 2
  | .ready => 1
  | .executing | .ended _ => 0

def Startup.rank (outcomes : Outcomes) (state : Startup) : Nat :=
  state.launcher.rank + state.init.rank outcomes.capabilities + state.command.rank

section Rank

variable {outcomes : Outcomes} {state after : Startup}

theorem rank_lt_of_launcherStep (staged : state.Staged outcomes)
    (taken : state.launcherStep outcomes = some after) :
    after.rank outcomes < state.rank outcomes := by
  unfold Startup.launcherStep at taken
  split at taken
  · rename_i preparing
    split at taken <;>
    · obtain rfl := Option.some.inj taken
      simp [Startup.rank, Launcher.rank, preparing]
  · rename_i preparing
    have unborn := (staged.preparing _ preparing).1
    split at taken
    · obtain rfl := Option.some.inj taken
      simp only [Startup.rank, Launcher.rank, Init.rank, preparing, unborn]
      omega
    · obtain rfl := Option.some.inj taken
      simp [Startup.rank, Launcher.rank, preparing]
  · rename_i isMapping
    split at taken <;>
    · obtain rfl := Option.some.inj taken
      simp [Startup.rank, Launcher.rank, isMapping]
  · rename_i isMapping
    obtain rfl := Option.some.inj taken
    simp [Startup.rank, Launcher.rank, isMapping]
  · rename_i killing
    obtain rfl := Option.some.inj taken
    simp [Startup.rank, Launcher.rank, killing]
  · rename_i reaping
    split at taken
    · obtain rfl := Option.some.inj taken
      simp [Startup.rank, Launcher.rank, reaping]
    · split at taken
      · obtain rfl := Option.some.inj taken
        simp [Startup.rank, Launcher.rank, reaping]
      · cases taken
  · rename_i supervising
    split at taken
    · obtain rfl := Option.some.inj taken
      simp [Startup.rank, Launcher.rank, supervising]
    · split at taken
      · obtain rfl := Option.some.inj taken
        simp [Startup.rank, Launcher.rank, supervising]
      · cases taken
  · cases taken
  · cases taken

theorem rank_lt_of_initStep (staged : state.Staged outcomes)
    (taken : state.initStep outcomes = some after) : after.rank outcomes < state.rank outcomes := by
  unfold Startup.initStep at taken
  split at taken
  · rename_i call calls running
    obtain ⟨passed, -, rfl⟩ := Option.map_eq_some_iff.mp taken
    cases passed with
    | false => simp [Startup.rank, Init.rank, running]
    | true =>
        cases call with
        | fork =>
            have unborn := staged.unforked (.inr ⟨_, running, List.mem_cons_self⟩)
            simp only [Startup.rank, Startup.enter, Init.rank, Command.rank, running, unborn,
              List.length_cons, if_true]
            omega
        | _ => simp [Startup.rank, Startup.enter, Init.rank, running]
  · rename_i running
    obtain rfl := Option.some.inj taken
    simp [Startup.rank, Init.rank, running]
  · rename_i supervising
    split at taken
    · obtain rfl := Option.some.inj taken
      simp [Startup.rank, Init.rank, supervising]
    · split at taken
      · obtain rfl := Option.some.inj taken
        simp [Startup.rank, Init.rank, supervising]
      · cases taken
  · cases taken
  · cases taken

theorem rank_lt_of_commandStep (taken : state.commandStep outcomes = some after) :
    after.rank outcomes < state.rank outcomes := by
  unfold Startup.commandStep at taken
  split at taken
  · split at taken
    · rename_i running
      split at taken <;>
      · obtain rfl := Option.some.inj taken
        simp [Startup.rank, Command.rank, running]
    · rename_i running
      obtain rfl := Option.some.inj taken
      simp [Startup.rank, Command.rank, running]
    · rename_i ready
      split at taken <;>
      · obtain rfl := Option.some.inj taken
        simp [Startup.rank, Command.rank, ready]
    · cases taken
  · cases taken

/-- **Every event** lowers the rank. -/
theorem rank_lt_of_next (staged : state.Staged outcomes) {event : StartupEvent}
    (taken : state.next outcomes event = some after) :
    after.rank outcomes < state.rank outcomes := by
  cases event with
  | launcher => exact rank_lt_of_launcherStep staged taken
  | init => exact rank_lt_of_initStep staged taken
  | command => exact rank_lt_of_commandStep taken
  | initDies =>
      simp only [Startup.next] at taken
      split at taken
      · rename_i dies
        obtain rfl := Option.some.inj taken
        cases init : state.init with
        | running | supervising => simp [Startup.rank, Init.rank, init]
        | unborn | ended =>
            rw [init] at dies
            cases dies.1
      · cases taken
  | launcherDies =>
      simp only [Startup.next] at taken
      split at taken
      · cases taken
      · rename_i present
        obtain rfl := Option.some.inj taken
        cases launcher : state.launcher with
        | preparing | mapping | killing | reaping | supervising =>
            simp [Startup.rank, Launcher.rank, launcher]
        | exited | dead =>
            rw [launcher] at present
            exact absurd rfl present

/-- **Every run has boundedly many steps.** -/
theorem length_le_rank_start {events : List StartupEvent}
    (run : runEvents (Startup.next outcomes) .start events = some state) :
    events.length ≤ Startup.start.rank outcomes :=
  @runEvents_length_le _ _ _ (fun state => state.Staged outcomes ∧ state.Steady outcomes)
    (fun _ => True) (Startup.rank outcomes)
    (fun _ _ _ holds _ taken => ⟨⟨holds.1.next holds.2 taken, holds.2.next taken⟩,
      rank_lt_of_next holds.1 taken⟩)
    _ _ ⟨staged_start outcomes, steady_start outcomes⟩ _ (fun _ _ => trivial) run

end Rank

/-! ## Where a run ends -/

section Stuck

variable {outcomes : Outcomes} {state : Startup}

theorem initStep_launcher {after : Startup} (taken : state.initStep outcomes = some after) :
    after.launcher = state.launcher := by
  unfold Startup.initStep at taken
  split at taken
  · rename_i call calls _
    obtain ⟨passed, -, rfl⟩ := Option.map_eq_some_iff.mp taken
    cases passed with
    | false => rfl
    | true => cases call <;> rfl
  · obtain rfl := Option.some.inj taken
    rfl
  · split at taken
    · obtain rfl := Option.some.inj taken
      rfl
    · split at taken
      · obtain rfl := Option.some.inj taken
        rfl
      · cases taken
  · cases taken
  · cases taken

theorem launcherStep_ne_dead {after : Startup} (taken : state.launcherStep outcomes = some after) :
    after.launcher ≠ .dead := by
  intro dead
  unfold Startup.launcherStep at taken
  repeat' split at taken
  all_goals first
    | (obtain rfl := Option.some.inj taken; cases dead)
    | cases taken

/-- A launcher that is not killed does not die. -/
theorem alive_of_run {events : List StartupEvent}
    (run : runEvents (Startup.next outcomes) .start events = some state)
    (lives : .launcherDies ∉ events) : state.launcher ≠ .dead := by
  revert lives
  refine @runEvents_induction _ _ (Startup.next outcomes) .start
    (fun events state => .launcherDies ∉ events → state.launcher ≠ .dead) nofun ?_ events state run
  intro events before event after _ holds taken lives
  have earlier := holds fun member => lives (List.mem_append_left _ member)
  cases event with
  | launcher => exact launcherStep_ne_dead taken
  | init => exact (initStep_launcher taken).symm ▸ earlier
  | command =>
      obtain ⟨-, command, rfl⟩ := commandStep_eq_some taken
      exact earlier
  | initDies =>
      simp only [Startup.next] at taken
      split at taken
      · obtain rfl := Option.some.inj taken
        exact earlier
      · cases taken
  | launcherDies => exact absurd (List.mem_append_right _ (List.mem_singleton.mpr rfl)) lives

/-- A launcher that can take no step has exited or waits for the init. -/
theorem waits_of_stuck (stuck : state.launcherStep outcomes = none)
    (alive : state.launcher ≠ .dead) :
    (∃ code, state.launcher = .exited code) ∨
      (state.launcher = .reaping ∧ outcomes.reap = .success ∨ state.launcher = .supervising) ∧
        ∀ death, state.init ≠ .ended death := by
  cases launcher : state.launcher with
  | preparing calls =>
      cases calls with
      | nil => simp only [Startup.launcherStep, launcher] at stuck; split at stuck <;> cases stuck
      | cons => simp only [Startup.launcherStep, launcher] at stuck; split at stuck <;> cases stuck
  | mapping calls =>
      cases calls with
      | nil => simp only [Startup.launcherStep, launcher] at stuck; cases stuck
      | cons => simp only [Startup.launcherStep, launcher] at stuck; split at stuck <;> cases stuck
  | killing => simp only [Startup.launcherStep, launcher] at stuck; cases stuck
  | reaping =>
      simp only [Startup.launcherStep, launcher] at stuck
      split at stuck
      · cases stuck
      · rename_i reap
        refine .inr ⟨.inl ⟨rfl, not_not.mp reap⟩, fun death ended => ?_⟩
        rw [ended] at stuck
        cases stuck
  | supervising =>
      simp only [Startup.launcherStep, launcher] at stuck
      split at stuck
      · cases stuck
      · refine .inr ⟨.inr rfl, fun death ended => ?_⟩
        rw [ended] at stuck
        cases stuck
  | exited code => exact .inl ⟨code, rfl⟩
  | dead => exact absurd launcher alive

/-- Only the read of the byte blocks. -/
theorem reads_of_blocked {call : InitCall} (blocked : state.passes outcomes call = none) :
    call = .readReady ∧ outcomes.accepts .readReady = true ∧ state.ready = false ∧
      state.launcher.holdsPipe = true := by
  unfold Startup.passes at blocked
  split at blocked
  · cases blocked
  · split at blocked
    · cases blocked
    · rename_i accepted
      split at blocked
      · cases blocked
      · rename_i empty
        split at blocked
        · rename_i holds
          exact ⟨rfl, Bool.eq_true_of_not_eq_false accepted, Bool.eq_false_iff.mpr empty, holds⟩
        · cases blocked
  · cases blocked

/-- An init that can take no step, with something not set up, waits for the byte. -/
theorem reads_of_stuck (steady : state.Steady outcomes) (unprepared : ¬ outcomes.Prepared)
    (stuck : state.initStep outcomes = none) (born : state.init ≠ .unborn)
    (lives : ∀ death, state.init ≠ .ended death) :
    ∃ calls, state.init = .running (.readReady :: calls) ∧ outcomes.accepts .readReady = true ∧
      state.ready = false ∧ state.launcher.holdsPipe = true := by
  cases init : state.init with
  | unborn => exact absurd init born
  | ended death => exact absurd init (lives death)
  | supervising => exact absurd (steady.forked (.inr init)) unprepared
  | running calls =>
      cases calls with
      | nil => simp only [Startup.initStep, init] at stuck; cases stuck
      | cons call calls =>
          simp only [Startup.initStep, init] at stuck
          obtain ⟨rfl, blocked⟩ := reads_of_blocked (Option.map_eq_none_iff.mp stuck)
          exact ⟨calls, rfl, blocked⟩

/-- Before the read the init has asked for the death signal and has seen the launcher. -/
theorem done_of_read {capabilities : Nat} {done calls : List InitCall}
    (whole : done ++ .readReady :: calls = initCalls capabilities) :
    .setDeathSignal ∈ done ∧ .pollParent ∈ done := by
  match done with
  | [] => cases whole
  | [first] => cases whole
  | first :: second :: rest =>
      obtain ⟨rfl, later⟩ := List.cons.inj whole
      obtain ⟨rfl, -⟩ := List.cons.inj later
      exact ⟨List.mem_cons_self, List.mem_cons_of_mem _ List.mem_cons_self⟩

/-- **A launcher that waits forever** waits after a `kill` that failed. -/
theorem exited_of_stuck (recovers : outcomes.Recovers) (unprepared : ¬ outcomes.Prepared)
    (staged : state.Staged outcomes) (steady : state.Steady outcomes)
    (alive : state.launcher ≠ .dead)
    (stuck : ∀ event ≠ .launcherDies, state.next outcomes event = none) :
    state.launcher = .exited runtimeError.toNat := by
  rcases waits_of_stuck (stuck .launcher nofun) alive with ⟨code, exited⟩ | ⟨waits, lives⟩
  · rw [exited, staged.code unprepared code exited]
  have cloned : state.launcher.cloned = true := by
    rcases waits with ⟨reaping, -⟩ | supervising
    · rw [reaping]
      rfl
    · rw [supervising]
      rfl
  obtain ⟨born, succeeded⟩ := staged.cloned cloned
  obtain ⟨calls, running, accepted, -, holds⟩ :=
    reads_of_stuck steady unprepared (stuck .init nofun) born lives
  rcases waits with ⟨reaping, reap⟩ | supervising
  · exfalso
    rcases recovers with ⟨call, member, failure⟩ | mapped | kill | failure | ⟨call, member, failure⟩
    · rw [succeeded call member] at failure
      cases failure
    · obtain ⟨call, member, failure⟩ := staged.unmapped (.inr reaping)
      exact failure (mapped call member)
    · have dies := stuck .initDies nofun
      rw [Startup.next, if_pos ⟨by rw [running]; rfl, .inl (staged.killed reaping kill)⟩] at dies
      cases dies
    · exact failure reap
    · obtain ⟨done, whole, passed⟩ := steady.init _ running
      obtain ⟨signal, poll⟩ := done_of_read whole
      have accepts : outcomes.accepts call = true := by
        simp only [List.mem_cons, List.not_mem_nil, or_false] at member
        rcases member with rfl | rfl | rfl
        · exact (passed _ signal).1
        · exact (passed _ poll).1
        · exact accepted
      exact failure (of_decide_eq_true (Bool.and_eq_true_iff.mp accepts).1)
  · rw [supervising] at holds
    cases holds

end Stuck

/-! ## The deadlock -/

section Deadlock

variable {outcomes : Outcomes}

theorem mapping_of_prepared (prepared : outcomes.Prepared) :
    ∀ call ∈ mapping, outcomes.launcher call = .success := by
  intro call member
  simp only [mapping, List.mem_append, List.mem_singleton] at member
  rcases member with ((setgroups | uidMap) | gidMap) | rfl
  · exact prepared.mapped .setgroups call setgroups
  · exact prepared.mapped .uidMap call uidMap
  · exact prepared.mapped .gidMap call gidMap
  · exact prepared.announced

/-- The launcher gets to the clone. -/
theorem runEvents_prepare (calls : List LauncherCall)
    (success : ∀ call ∈ calls, outcomes.grants call = true) (state : Startup)
    (preparing : state.launcher = .preparing calls) :
    runEvents (Startup.next outcomes) state (List.replicate calls.length .launcher) =
      some { state with launcher := .preparing [] } := by
  induction calls generalizing state with
  | nil =>
      rw [← preparing]
      rfl
  | cons call calls ih =>
      obtain ⟨first, rest⟩ := List.forall_mem_cons.mp success
      have taken : state.next outcomes .launcher =
          some { state with launcher := .preparing calls } := by
        simp only [Startup.next, Startup.launcherStep, preparing, first, if_true]
      rw [List.length_cons, List.replicate_succ, runEvents_cons, taken, Option.bind_some,
        ih rest _ rfl]

/-- A launcher that fails to map something gets to `kill`. -/
theorem runEvents_map (front : List LauncherCall) (elsewhere : .writeReady ∉ front)
    (failure : ∃ call ∈ front ++ [LauncherCall.writeReady], outcomes.launcher call ≠ .success)
    (state : Startup) (isMapping : state.launcher = .mapping (front ++ [LauncherCall.writeReady])) :
    ∃ steps, runEvents (Startup.next outcomes) state (List.replicate steps .launcher) =
      some { state with launcher := .killing } := by
  induction front generalizing state with
  | nil =>
      obtain ⟨call, member, failure⟩ := failure
      obtain rfl := List.mem_singleton.mp member
      refine ⟨1, ?_⟩
      simp only [List.replicate, runEvents_cons, Startup.next, Startup.launcherStep, isMapping,
        List.nil_append, failure, if_false, Option.bind_some, runEvents_nil]
  | cons call front ih =>
      by_cases success : outcomes.launcher call = .success
      · have other : call ≠ .writeReady := fun same => elsewhere (same ▸ List.mem_cons_self)
        have taken : state.next outcomes .launcher =
            some { state with launcher := .mapping (front ++ [LauncherCall.writeReady]) } := by
          simp only [Startup.next, Startup.launcherStep, isMapping, List.cons_append, success,
            if_true, other, decide_false, Bool.or_false]
        have later : ∃ call ∈ front ++ [LauncherCall.writeReady],
            outcomes.launcher call ≠ .success := by
          obtain ⟨failed, member, failure⟩ := failure
          rcases List.mem_cons.mp member with rfl | rest
          · exact absurd success failure
          · exact ⟨failed, rest, failure⟩
        obtain ⟨steps, run⟩ :=
          ih (fun member => elsewhere (List.mem_cons_of_mem _ member)) later
            { state with launcher := .mapping (front ++ [LauncherCall.writeReady]) } rfl
        refine ⟨steps + 1, ?_⟩
        rw [List.replicate_succ, runEvents_cons, taken, Option.bind_some, run]
      · refine ⟨1, ?_⟩
        simp only [List.replicate, runEvents_cons, Startup.next, Startup.launcherStep, isMapping,
          List.cons_append, success, if_false, Option.bind_some, runEvents_nil]

/-- The init waits for the byte, and the launcher for the init. -/
def deadlock (outcomes : Outcomes) : Startup :=
  ⟨.reaping, .running ((initCalls outcomes.capabilities).drop 2), .unborn, false, false, true⟩

/-- **Where the launcher does not recover**, it comes to the deadlock. -/
theorem runEvents_deadlock (hangs : ¬ outcomes.Recovers) :
    ∃ events, .launcherDies ∉ events ∧
      runEvents (Startup.next outcomes) .start events = some (deadlock outcomes) := by
  simp only [Outcomes.Recovers, not_or, not_exists, not_and, not_not, not_forall,
    Bool.not_eq_false] at hangs
  obtain ⟨prepared, ⟨call, member, failure⟩, kill, reap, reads⟩ := hangs
  have clone : outcomes.grants .clone = true := prepared .clone (by simp)
  -- The launcher alone gets to `kill`, which fails; then the init gets to its read.
  have preparing := runEvents_prepare preparation
    (fun call member => prepared call (List.mem_append_left _ member)) .start rfl
  have cloning : runEvents (Startup.next outcomes)
      { Startup.start with launcher := .preparing [] } [.launcher] =
      some ⟨.mapping mapping, .running (initCalls outcomes.capabilities), .unborn, false, false,
        false⟩ := by
    simp only [runEvents_cons, Startup.next, Startup.launcherStep, clone, if_true,
      Option.bind_some, runEvents_nil]
    rfl
  obtain ⟨steps, killing⟩ := runEvents_map
    (mapCalls .setgroups ++ mapCalls .uidMap ++ mapCalls .gidMap) (by decide)
    ⟨call, member, failure⟩
    ⟨.mapping mapping, .running (initCalls outcomes.capabilities), .unborn, false, false, false⟩ rfl
  have waiting : runEvents (Startup.next outcomes)
      ⟨.killing, .running (initCalls outcomes.capabilities), .unborn, false, false, false⟩
      [.launcher, .init, .init] = some (deadlock outcomes) := by
    have signal : outcomes.accepts .setDeathSignal = true := by
      simp [Outcomes.accepts, reads .setDeathSignal (by simp)]
    have poll : outcomes.accepts .pollParent = true := by
      simp [Outcomes.accepts, reads .pollParent (by simp)]
    simp [runEvents_cons, Startup.next, Startup.launcherStep, kill, Startup.initStep, initCalls,
      setup, mountCalls, Startup.passes, signal, poll, Startup.enter, Launcher.gone, deadlock]
  refine ⟨List.replicate preparation.length StartupEvent.launcher ++ ([StartupEvent.launcher] ++
    (List.replicate steps StartupEvent.launcher ++
      [StartupEvent.launcher, StartupEvent.init, StartupEvent.init])), by simp, ?_⟩
  rw [runEvents_append, preparing, Option.bind_some, runEvents_append, cloning, Option.bind_some,
    runEvents_append, killing, Option.bind_some, waiting]

/-- Nobody takes a step there, if `waitpid` waits and `read` does. -/
theorem stuck_deadlock (reap : outcomes.reap = .success)
    (read : outcomes.init .readReady = .success) :
    ∀ event ≠ .launcherDies, (deadlock outcomes).next outcomes event = none := by
  have accepted : outcomes.accepts .readReady = true := by simp [Outcomes.accepts, read]
  intro event lives
  cases event with
  | launcher => simp [Startup.next, Startup.launcherStep, deadlock, reap]
  | init =>
      simp [Startup.next, Startup.initStep, deadlock, initCalls, setup, mountCalls, Startup.passes,
        accepted, Launcher.holdsPipe]
  | command => simp [Startup.next, Startup.commandStep, deadlock, Init.alive]
  | initDies => simp [Startup.next, deadlock, Launcher.gone]
  | launcherDies => exact absurd rfl lives

end Deadlock

/-- **Fail-closed startup.** The command is executed only when everything was set up, and a launcher
that lives exits with 125 when something was not, iff the launcher does not get to clone, or maps
everything, or its `kill` succeeds, or its `waitpid` fails, or the init gives up before it has the
byte. -/
theorem failsClosed_iff (outcomes : Outcomes) : outcomes.FailsClosed ↔ outcomes.Recovers := by
  constructor
  · intro closed
    by_contra hangs
    obtain ⟨events, lives, run⟩ := runEvents_deadlock hangs
    have parts := hangs
    simp only [Outcomes.Recovers, not_or, not_exists, not_and, not_not, not_forall,
      Bool.not_eq_false] at parts
    obtain ⟨-, ⟨call, member, failure⟩, -, reap, reads⟩ := parts
    have unprepared : ¬ outcomes.Prepared := fun prepared =>
      failure (mapping_of_prepared prepared call member)
    have exited := (closed.exits unprepared events _ run lives).2
      (stuck_deadlock reap (reads .readReady (by simp)))
    cases exited
  · intro recovers
    refine ⟨fun events state run executes => prepared_of_executes run executes,
      ⟨_, fun events state run => length_le_rank_start run⟩, ?_⟩
    intro unprepared events state run lives
    have staged := staged_of_run run
    exact ⟨staged.code unprepared, exited_of_stuck recovers unprepared staged (steady_of_run run)
      (alive_of_run run lives)⟩

/-- All calls succeed, on a kernel with 41 capabilities. -/
def granted : Outcomes where
  launcher := fun _ => .success
  kill := .success
  reap := .success
  supervise := .success
  init := fun _ => .success
  capabilities := 41
  hostRoot := ⟨1, 1⟩
  expected := ⟨1, 2⟩
  reopened := ⟨1, 2⟩
  bound := ⟨1, 2⟩
  superviseCommand := .success
  command := fun _ => .success
  missing := false

example : (runEvents (Startup.next granted) .start
    (List.replicate 26 StartupEvent.launcher ++ List.replicate 103 StartupEvent.init ++
      List.replicate 8 StartupEvent.command)).map Startup.command = some .ready := by
  decide +kernel

/-- `uid_map` is not written in full, and the launcher is not permitted to kill the init. -/
def hanging : Outcomes :=
  { granted with
    launcher := fun call => if call = .writeMap .uidMap then .short else .success
    kill := .failure }

/-- The init waits for the byte and the launcher for the init. -/
theorem hanging_never_exits :
    ¬ hanging.Prepared ∧
      (∃ events, .launcherDies ∉ events ∧
        runEvents (Startup.next hanging) .start events = some (deadlock hanging)) ∧
      (∀ event ≠ .launcherDies, (deadlock hanging).next hanging event = none) ∧
      ¬ hanging.FailsClosed := by
  have unprepared : ¬ hanging.Prepared := by
    intro prepared
    exact absurd (prepared.mapped .uidMap (.writeMap .uidMap) (by decide)) (by decide)
  have run : runEvents (Startup.next hanging) .start
      (List.replicate 24 StartupEvent.launcher ++ [StartupEvent.init, StartupEvent.init]) =
        some (deadlock hanging) := by
    decide +kernel
  have stuck := @stuck_deadlock hanging rfl rfl
  refine ⟨unprepared, ⟨_, by decide, run⟩, stuck, fun closed => ?_⟩
  have exited := (closed.exits unprepared _ _ run (by decide)).2 stuck
  cases exited

end InfraFromScratch.Container
