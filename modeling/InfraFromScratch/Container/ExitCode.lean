import InfraFromScratch.Container.FailClosed

/-!
# The exit code

The README of `container-runtime` promises the exit code of the launcher: that of the command, or
128 plus the signal that has killed it; 127 where the command or its interpreter is missing, and 126
where it cannot be invoked; 125 where the setup fails. The code comes from `_exit` of one of three
processes through two calls of `supervise`, and every process exits with 125 when a call of its own
fails.

Here the command runs on after `execv` and ends at any time, or never; what it does until then is
no step of a run. Every run has boundedly many steps; in every run the launcher exits with the
promised code, which is the only one that the run permits; and a launcher that neither dies nor
comes to the deadlock of the startup does exit once the command has ended (`exits_as_promised`).
-/

set_option autoImplicit false

namespace InfraFromScratch.Container

open Foundations

/-! ## The life of a container -/

inductive SessionEvent where
  | startup (event : StartupEvent)
  /-- The command that was executed ends. -/
  | commandEnds (death : Death)
  deriving DecidableEq

def Startup.sessionNext (outcomes : Outcomes) (state : Startup) : SessionEvent → Option Startup
  | .startup event => state.next outcomes event
  | .commandEnds death =>
      if state.init.alive ∧ state.command = .executing then
        some { state with command := .ended death }
      else none

/-- Every call but `execv` succeeds, and what the calls of `stat` find passes the checks. `kill`
and `waitpid` after it are made only when something has failed. -/
structure Outcomes.Sound (outcomes : Outcomes) : Prop where
  launched : ∀ call ∈ preparation ++ [LauncherCall.clone], outcomes.grants call = true
  mapped : ∀ call ∈ mapping, outcomes.launcher call = .success
  supervised : outcomes.supervise = .success
  entered : ∀ call ∈ initCalls outcomes.capabilities, outcomes.accepts call = true
  commandSupervised : outcomes.superviseCommand = .success
  commandSet : ∀ call ∈ commandSetup, outcomes.command call = .success

/-- The exit codes that the README promises for a run. -/
inductive ExitCode (outcomes : Outcomes) (events : List SessionEvent) : Nat → Prop
  | setup (unsound : ¬ outcomes.Sound) : ExitCode outcomes events 125
  | notInvoked (sound : outcomes.Sound) (refused : outcomes.command .execv ≠ .success)
      (present : outcomes.missing = false) : ExitCode outcomes events 126
  | missing (sound : outcomes.Sound) (refused : outcomes.command .execv ≠ .success)
      (missing : outcomes.missing = true) : ExitCode outcomes events 127
  | command {death : Death} (sound : outcomes.Sound) (executed : outcomes.command .execv = .success)
      (ends : .commandEnds death ∈ events) : ExitCode outcomes events death.code

/-! ## How the processes end -/

/-- How the process of the command ends. -/
inductive CommandEnds (outcomes : Outcomes) (events : List SessionEvent) : Death → Prop
  | failed (unset : ∃ call ∈ commandSetup, outcomes.command call ≠ .success) :
      CommandEnds outcomes events failed
  | refused (set : ∀ call ∈ commandSetup, outcomes.command call = .success)
      (refused : outcomes.command .execv ≠ .success) :
      CommandEnds outcomes events (.exited (if outcomes.missing then 127 else 126))
  | executed {death : Death} (set : ∀ call ∈ commandSetup, outcomes.command call = .success)
      (executed : outcomes.command .execv = .success) (ends : .commandEnds death ∈ events) :
      CommandEnds outcomes events death

/-- How the init ends, unless it is killed or has lost the launcher. -/
inductive InitEnds (outcomes : Outcomes) (events : List SessionEvent) : Death → Prop
  | failed (unsound : ¬ outcomes.Sound) : InitEnds outcomes events failed
  | reported {death : Death}
      (entered : ∀ call ∈ initCalls outcomes.capabilities, outcomes.accepts call = true)
      (supervised : outcomes.superviseCommand = .success)
      (ends : CommandEnds outcomes events death) :
      InitEnds outcomes events (.exited (UInt8.ofNat death.code))

/-- What is known of the ends after every run. -/
structure Accounted (outcomes : Outcomes) (events : List SessionEvent) (state : Startup) :
    Prop where
  writes : ∀ calls, state.launcher = .mapping calls →
    .writeReady ∈ calls ∨ state.ready = true
  announced : state.launcher = .supervising → state.ready = true
  entered : state.init = .supervising →
    ∀ call ∈ initCalls outcomes.capabilities, outcomes.accepts call = true
  forks : (∃ calls, state.init = .running calls ∧ .fork ∉ calls) ∨ state.init = .supervising →
    state.command ≠ .unborn
  setting : ∀ calls, state.command = .running calls → ∃ done, done ++ calls = commandSetup ∧
    ∀ call ∈ done, outcomes.command call = .success
  set : state.Executes → ∀ call ∈ commandSetup, outcomes.command call = .success
  executes : state.command = .executing → outcomes.command .execv = .success
  commandEnded : ∀ death, state.command = .ended death → CommandEnds outcomes events death
  initEnded : ∀ death, state.init = .ended death →
    state.launcher.gone = true ∨ state.doomed = true ∨ InitEnds outcomes events death
  code : ∀ code, state.launcher = .exited code → ExitCode outcomes events code

section Accounted

variable {outcomes : Outcomes} {events later : List SessionEvent} {state after : Startup}

theorem ExitCode.mono (more : events ⊆ later) {code : Nat} (exits : ExitCode outcomes events code) :
    ExitCode outcomes later code := by
  cases exits with
  | setup unsound => exact .setup unsound
  | notInvoked sound refused present => exact .notInvoked sound refused present
  | missing sound refused missing => exact .missing sound refused missing
  | command sound executed ends => exact .command sound executed (more ends)

theorem CommandEnds.mono (more : events ⊆ later) {death : Death}
    (ends : CommandEnds outcomes events death) : CommandEnds outcomes later death := by
  cases ends with
  | failed unset => exact .failed unset
  | refused set refused => exact .refused set refused
  | executed set executed ends => exact .executed set executed (more ends)

theorem InitEnds.mono (more : events ⊆ later) {death : Death}
    (ends : InitEnds outcomes events death) : InitEnds outcomes later death := by
  cases ends with
  | failed unsound => exact .failed unsound
  | reported entered supervised ends => exact .reported entered supervised (ends.mono more)

theorem Accounted.mono (more : events ⊆ later) (accounted : Accounted outcomes events state) :
    Accounted outcomes later state where
  writes := accounted.writes
  announced := accounted.announced
  entered := accounted.entered
  forks := accounted.forks
  setting := accounted.setting
  set := accounted.set
  executes := accounted.executes
  commandEnded := fun death ended => (accounted.commandEnded death ended).mono more
  initEnded := fun death ended =>
    (accounted.initEnded death ended).imp_right (Or.imp_right (InitEnds.mono more))
  code := fun code exited => (accounted.code code exited).mono more

theorem accounted_start (outcomes : Outcomes) : Accounted outcomes [] .start where
  writes := by simp [Startup.start]
  announced := by simp [Startup.start]
  entered := by simp [Startup.start]
  forks := by rintro (⟨calls, running, -⟩ | supervising) <;> contradiction
  setting := by simp [Startup.start]
  set := by rintro (ready | executing) <;> contradiction
  executes := by simp [Startup.start]
  commandEnded := by simp [Startup.start]
  initEnded := by simp [Startup.start]
  code := by simp [Startup.start]

/-- The code of the launcher, which is alive and supervises, when the init has ended. -/
theorem InitEnds.exitCode (launched : ∀ call ∈ preparation ++ [LauncherCall.clone],
      outcomes.grants call = true)
    (mapped : ∀ call ∈ mapping, outcomes.launcher call = .success)
    (supervised : outcomes.supervise = .success) {death : Death}
    (ends : InitEnds outcomes events death) : ExitCode outcomes events death.code := by
  cases ends with
  | failed unsound => exact .setup unsound
  | @reported command entered commandSupervised ends =>
      have kept : (Death.exited (UInt8.ofNat command.code)).code = command.code :=
        Nat.mod_eq_of_lt command.code_lt
      rw [kept]
      cases ends with
      | failed unset =>
          obtain ⟨call, member, failure⟩ := unset
          exact .setup fun sound => failure (sound.commandSet call member)
      | refused set refused =>
          have sound : outcomes.Sound :=
            ⟨launched, mapped, supervised, entered, commandSupervised, set⟩
          cases missing : outcomes.missing with
          | false => exact .notInvoked sound refused missing
          | true => exact .missing sound refused missing
      | executed set executed ends =>
          exact .command ⟨launched, mapped, supervised, entered, commandSupervised, set⟩ executed
            ends

/-! ## One step -/

/-- A step of the launcher, with the other processes as they are. -/
theorem Accounted.setLauncher (accounted : Accounted outcomes events state)
    (present : state.launcher.gone = false) {launcher : Launcher} {ready doomed : Bool}
    (writes : ∀ calls, launcher = .mapping calls → .writeReady ∈ calls ∨ ready = true)
    (announced : launcher = .supervising → ready = true)
    (more : state.doomed = true → doomed = true)
    (code : ∀ code, launcher = .exited code → ExitCode outcomes events code) :
    Accounted outcomes events
      { state with launcher := launcher, ready := ready, doomed := doomed } where
  writes := writes
  announced := announced
  entered := accounted.entered
  forks := accounted.forks
  setting := accounted.setting
  set := accounted.set
  executes := accounted.executes
  commandEnded := accounted.commandEnded
  initEnded := by
    intro death ended
    rcases accounted.initEnded death ended with gone | doomed | ends
    · rw [present] at gone
      cases gone
    · exact .inr (.inl (more doomed))
    · exact .inr (.inr ends)
  code := code

/-- The launcher gives up. -/
theorem Accounted.fail (accounted : Accounted outcomes events state)
    (present : state.launcher.gone = false) (unsound : ¬ outcomes.Sound) :
    Accounted outcomes events { state with launcher := .exited runtimeError.toNat } := by
  refine accounted.setLauncher present (by simp) (by simp) id ?_
  rintro _ ⟨⟩
  exact .setup unsound

/-- **One step of the launcher.** -/
theorem Accounted.launcherStep (accounted : Accounted outcomes events state)
    (staged : state.Staged outcomes) (steady : state.Steady outcomes)
    (taken : state.launcherStep outcomes = some after) : Accounted outcomes events after := by
  unfold Startup.launcherStep at taken
  split at taken
  · rename_i call calls preparing
    have present : state.launcher.gone = false := by rw [preparing]; rfl
    split at taken
    · obtain rfl := Option.some.inj taken
      exact accounted.setLauncher present (by simp) (by simp) id (by simp)
    · rename_i failure
      obtain rfl := Option.some.inj taken
      refine accounted.fail present fun sound => failure (sound.launched call ?_)
      obtain ⟨-, done, whole, -⟩ := staged.preparing _ preparing
      rw [← whole]
      simp
  · rename_i preparing
    have present : state.launcher.gone = false := by rw [preparing]; rfl
    split at taken
    · obtain rfl := Option.some.inj taken
      refine ⟨?_, (by simp), (by simp), ?_, accounted.setting, accounted.set, accounted.executes,
        accounted.commandEnded, (by simp), (by simp)⟩
      · rintro _ ⟨⟩
        exact .inl (by simp [mapping])
      · rintro (⟨_, ⟨⟩, forked⟩ | supervising)
        · exact absurd (by simp [initCalls]) forked
        · cases supervising
    · rename_i failure
      obtain rfl := Option.some.inj taken
      exact accounted.fail present fun sound => failure (sound.launched .clone (by simp))
  · rename_i call calls isMapping
    have present : state.launcher.gone = false := by rw [isMapping]; rfl
    split at taken
    · obtain rfl := Option.some.inj taken
      refine accounted.setLauncher present ?_ (by simp) id (by simp)
      rintro _ ⟨⟩
      rcases accounted.writes _ isMapping with member | ready
      · rcases List.mem_cons.mp member with rfl | member
        · exact .inr (by simp)
        · exact .inl member
      · exact .inr (by rw [ready, Bool.true_or])
    · obtain rfl := Option.some.inj taken
      exact accounted.setLauncher present (by simp) (by simp) id (by simp)
  · rename_i isMapping
    have present : state.launcher.gone = false := by rw [isMapping]; rfl
    obtain rfl := Option.some.inj taken
    refine accounted.setLauncher present (by simp) (fun _ => ?_) id (by simp)
    exact (accounted.writes _ isMapping).resolve_left List.not_mem_nil
  · rename_i killing
    have present : state.launcher.gone = false := by rw [killing]; rfl
    obtain rfl := Option.some.inj taken
    exact accounted.setLauncher present (by simp) (by simp)
      (fun doomed => by rw [doomed, Bool.true_or]) (by simp)
  · rename_i reaping
    have present : state.launcher.gone = false := by rw [reaping]; rfl
    have unsound : ¬ outcomes.Sound := by
      intro sound
      obtain ⟨call, member, failure⟩ := staged.unmapped (.inr reaping)
      exact failure (sound.mapped call member)
    split at taken
    · obtain rfl := Option.some.inj taken
      exact accounted.fail present unsound
    · split at taken
      · obtain rfl := Option.some.inj taken
        exact accounted.fail present unsound
      · cases taken
  · rename_i supervising
    have present : state.launcher.gone = false := by rw [supervising]; rfl
    split at taken
    · rename_i failure
      obtain rfl := Option.some.inj taken
      exact accounted.fail present fun sound => failure sound.supervised
    · rename_i supervised
      split at taken
      · rename_i death ended
        obtain rfl := Option.some.inj taken
        refine accounted.setLauncher present (by simp) (by simp) id ?_
        rintro _ ⟨⟩
        have launched := (staged.cloned (by rw [supervising]; rfl)).2
        have mapped := steady.written (accounted.announced supervising)
        rcases accounted.initEnded death ended with gone | doomed | ends
        · rw [present] at gone
          cases gone
        · exact absurd doomed (staged.undoomed present (by simp [supervising]))
        · exact ends.exitCode launched mapped (not_not.mp supervised)
      · cases taken
  · cases taken
  · cases taken

/-- The init gives up, or is killed. -/
theorem Accounted.endInit (accounted : Accounted outcomes events state) {death : Death}
    (ends : state.launcher.gone = true ∨ state.doomed = true ∨ InitEnds outcomes events death) :
    Accounted outcomes events { state with init := .ended death } where
  writes := accounted.writes
  announced := accounted.announced
  entered := by simp
  forks := by rintro (⟨calls, running, -⟩ | supervising) <;> contradiction
  setting := accounted.setting
  set := accounted.set
  executes := accounted.executes
  commandEnded := accounted.commandEnded
  initEnded := by
    rintro _ ⟨⟩
    exact ends
  code := accounted.code

/-- A call of the init that is not passed fails, or the launcher is gone. -/
theorem gone_or_refused (accounted : Accounted outcomes events state) {call : InitCall}
    (refused : state.passes outcomes call = some false) :
    state.launcher.gone = true ∨ outcomes.accepts call = false := by
  unfold Startup.passes at refused
  split at refused
  · rw [Option.some.injEq, Bool.and_eq_false_iff, Bool.not_eq_false'] at refused
    exact refused
  · split at refused
    · rename_i failure
      exact .inr failure
    · split at refused
      · cases refused
      · rename_i unready
        -- The pipe is empty, and the launcher has closed it.
        split at refused
        · cases refused
        · rename_i closed
          cases launcher : state.launcher with
          | exited | dead => exact .inl rfl
          | supervising => exact absurd (accounted.announced launcher) unready
          | preparing | mapping | killing | reaping =>
              rw [launcher] at closed
              exact absurd rfl closed
  · exact .inr (Option.some.inj refused)

/-- A call of the init that is passed. -/
theorem Accounted.entering (accounted : Accounted outcomes events state)
    (staged : state.Staged outcomes) {call : InitCall} {calls : List InitCall}
    (running : state.init = .running (call :: calls)) :
    Accounted outcomes events { state.enter call with init := .running calls } := by
  by_cases isFork : call = .fork
  · subst isFork
    have unborn := staged.unforked (.inr ⟨_, running, List.mem_cons_self⟩)
    refine ⟨accounted.writes, accounted.announced, by simp, by simp [Startup.enter], ?_, ?_,
      by simp [Startup.enter], by simp [Startup.enter], by simp, accounted.code⟩
    · rintro _ ⟨⟩
      exact ⟨[], rfl, (by simp)⟩
    · rintro (ready | executing) <;> contradiction
  · have same : (state.enter call).launcher = state.launcher ∧
        (state.enter call).ready = state.ready ∧ (state.enter call).command = state.command := by
      cases call with
      | fork => exact absurd rfl isFork
      | _ => exact ⟨rfl, rfl, rfl⟩
    obtain ⟨launcher, ready, command⟩ := same
    refine ⟨launcher ▸ ready ▸ accounted.writes, launcher ▸ ready ▸ accounted.announced, by simp, ?_,
      command ▸ accounted.setting, ?_, command ▸ accounted.executes,
      command ▸ accounted.commandEnded, (by simp), launcher ▸ accounted.code⟩
    · rintro (⟨_, ⟨⟩, forked⟩ | supervising)
      · have born := accounted.forks (.inl ⟨_, running, fun member =>
          (List.mem_cons.mp member).elim (fun same => isFork same.symm) forked⟩)
        exact command ▸ born
      · cases supervising
    · intro executes
      refine accounted.set ?_
      rw [Startup.Executes, ← command]
      exact executes

/-- **One step of the init.** -/
theorem Accounted.initStep (accounted : Accounted outcomes events state)
    (staged : state.Staged outcomes) (steady : state.Steady outcomes)
    (taken : state.initStep outcomes = some after) : Accounted outcomes events after := by
  unfold Startup.initStep at taken
  split at taken
  · rename_i call calls running
    obtain ⟨passed, passes, rfl⟩ := Option.map_eq_some_iff.mp taken
    cases passed with
    | true => exact accounted.entering staged running
    | false =>
        refine accounted.endInit ?_
        rcases gone_or_refused accounted passes with gone | failure
        · exact .inl gone
        · refine .inr (.inr (.failed fun sound => ?_))
          obtain ⟨done, whole, -⟩ := steady.init _ running
          have member : call ∈ initCalls outcomes.capabilities := by
            rw [← whole]
            simp
          rw [sound.entered call member] at failure
          cases failure
  · rename_i running
    obtain rfl := Option.some.inj taken
    obtain ⟨done, whole, accepted⟩ := steady.init _ running
    rw [List.append_nil] at whole
    exact ⟨accounted.writes, accounted.announced,
      fun _ call member => (accepted call (whole ▸ member)).1,
      fun _ => accounted.forks (.inl ⟨[], running, List.not_mem_nil⟩), accounted.setting,
      accounted.set, accounted.executes, accounted.commandEnded, (by simp), accounted.code⟩
  · rename_i supervising
    split at taken
    · rename_i failure
      obtain rfl := Option.some.inj taken
      exact accounted.endInit (.inr (.inr (.failed fun sound => failure sound.commandSupervised)))
    · rename_i supervised
      split at taken
      · rename_i death ended
        obtain rfl := Option.some.inj taken
        exact accounted.endInit (.inr (.inr (.reported (accounted.entered supervising)
          (not_not.mp supervised) (accounted.commandEnded death ended))))
      · cases taken
  · cases taken
  · cases taken

/-- A step of the process of the command, with the others as they are. -/
theorem Accounted.setCommand (accounted : Accounted outcomes events state) {command : Command}
    (born : command ≠ .unborn)
    (setting : ∀ calls, command = .running calls → ∃ done, done ++ calls = commandSetup ∧
      ∀ call ∈ done, outcomes.command call = .success)
    (set : command = .ready ∨ command = .executing →
      ∀ call ∈ commandSetup, outcomes.command call = .success)
    (executes : command = .executing → outcomes.command .execv = .success)
    (ended : ∀ death, command = .ended death → CommandEnds outcomes events death) :
    Accounted outcomes events { state with command := command } where
  writes := accounted.writes
  announced := accounted.announced
  entered := accounted.entered
  forks := fun _ => born
  setting := setting
  set := set
  executes := executes
  commandEnded := ended
  initEnded := accounted.initEnded
  code := accounted.code

/-- **One step of the process of the command.** -/
theorem Accounted.commandStep (accounted : Accounted outcomes events state)
    (taken : state.commandStep outcomes = some after) : Accounted outcomes events after := by
  unfold Startup.commandStep at taken
  split at taken
  · split at taken
    · rename_i call calls running
      obtain ⟨done, whole, succeeded⟩ := accounted.setting _ running
      split at taken
      · rename_i success
        obtain rfl := Option.some.inj taken
        refine accounted.setCommand (by simp) ?_ (by simp) (by simp) (by simp)
        rintro _ ⟨⟩
        refine ⟨done ++ [call], by rw [← whole]; simp, ?_⟩
        exact List.forall_mem_append.mpr ⟨succeeded, List.forall_mem_singleton.mpr success⟩
      · rename_i failure
        obtain rfl := Option.some.inj taken
        refine accounted.setCommand (by simp) (by simp) (by simp) (by simp) ?_
        rintro _ ⟨⟩
        exact .failed ⟨call, by rw [← whole]; simp, failure⟩
    · rename_i running
      obtain rfl := Option.some.inj taken
      obtain ⟨done, whole, succeeded⟩ := accounted.setting _ running
      rw [List.append_nil] at whole
      exact accounted.setCommand (by simp) (by simp) (fun _ => whole ▸ succeeded) (by simp)
        (by simp)
    · rename_i ready
      have set := accounted.set (.inl ready)
      split at taken
      · rename_i success
        obtain rfl := Option.some.inj taken
        exact accounted.setCommand (by simp) (by simp) (fun _ => set) (fun _ => success) (by simp)
      · rename_i failure
        obtain rfl := Option.some.inj taken
        refine accounted.setCommand (by simp) (by simp) (by simp) (by simp) ?_
        rintro _ ⟨⟩
        exact .refused set failure
    · cases taken
  · cases taken

/-- The command ends. -/
theorem Accounted.commandEnd (accounted : Accounted outcomes events state)
    (executing : state.command = .executing) {death : Death} (ends : .commandEnds death ∈ events) :
    Accounted outcomes events { state with command := .ended death } := by
  refine accounted.setCommand (by simp) (by simp) (by simp) (by simp) ?_
  rintro _ ⟨⟩
  exact .executed (accounted.set (.inr executing)) (accounted.executes executing) ends

/-- **One event of the startup.** -/
theorem Accounted.next (accounted : Accounted outcomes events state)
    (staged : state.Staged outcomes) (steady : state.Steady outcomes) {event : StartupEvent}
    (taken : state.next outcomes event = some after) : Accounted outcomes events after := by
  cases event with
  | launcher => exact accounted.launcherStep staged steady taken
  | init => exact accounted.initStep staged steady taken
  | command => exact accounted.commandStep taken
  | initDies =>
      simp only [Startup.next] at taken
      split at taken
      · rename_i dies
        obtain rfl := Option.some.inj taken
        exact accounted.endInit (dies.2.elim (fun doomed => .inr (.inl doomed))
          fun gone => .inl gone.1)
      · cases taken
  | launcherDies =>
      simp only [Startup.next] at taken
      split at taken
      · cases taken
      · rename_i present
        obtain rfl := Option.some.inj taken
        exact accounted.setLauncher (Bool.eq_false_iff.mpr present) (by simp) (by simp) id (by simp)

end Accounted

/-! ## Whole runs -/

section Runs

variable {outcomes : Outcomes} {events : List SessionEvent} {state after : Startup}

theorem commandEnds_eq_some {death : Death}
    (taken : state.sessionNext outcomes (.commandEnds death) = some after) :
    state.command = .executing ∧ after = { state with command := .ended death } := by
  rw [Startup.sessionNext] at taken
  split at taken
  · rename_i executing
    exact ⟨executing.2, (Option.some.inj taken).symm⟩
  · cases taken

/-- What is known after a run of a container. -/
structure Session (outcomes : Outcomes) (events : List SessionEvent) (state : Startup) : Prop where
  steady : state.Steady outcomes
  staged : state.Staged outcomes
  accounted : Accounted outcomes events state

/-- **One event.** -/
theorem Session.next (session : Session outcomes events state) {event : SessionEvent}
    (taken : state.sessionNext outcomes event = some after) :
    Session outcomes (events ++ [event]) after := by
  obtain ⟨steady, staged, accounted⟩ := session
  have known := accounted.mono (List.subset_append_left events [event])
  cases event with
  | startup event =>
      exact ⟨steady.next taken, staged.next steady taken, known.next staged steady taken⟩
  | commandEnds death =>
      obtain ⟨executing, rfl⟩ := commandEnds_eq_some taken
      have born : state.command ≠ .unborn := by
        simp [executing]
      refine ⟨⟨steady.mapping, steady.written, steady.init, fun _ => steady.forked (.inl born)⟩,
        ⟨staged.preparing, staged.cloned, staged.unmapped,
          fun unforked => absurd (staged.unforked unforked) born, staged.killed, staged.doomed,
          staged.ended, staged.code⟩, ?_⟩
      exact known.commandEnd executing (List.mem_append_right _ (List.mem_singleton.mpr rfl))

theorem session_of_run
    (run : runEvents (Startup.sessionNext outcomes) .start events = some state) :
    Session outcomes events state :=
  runEvents_induction ⟨steady_start outcomes, staged_start outcomes, accounted_start outcomes⟩
    (fun _ _ _ _ _ session taken => session.next taken) run

/-- A command that has ended stays so. -/
theorem command_kept (staged : state.Staged outcomes) {event : StartupEvent}
    (taken : state.next outcomes event = some after) {death : Death}
    (ended : state.command = .ended death) : after.command = .ended death := by
  cases event with
  | launcher =>
      have same : after.command = state.command := by
        simp only [Startup.next, Startup.launcherStep] at taken
        repeat' split at taken
        all_goals first
          | (obtain rfl := Option.some.inj taken; rfl)
          | cases taken
      rw [same, ended]
  | init =>
      simp only [Startup.next, Startup.initStep] at taken
      split at taken
      · rename_i call calls running
        obtain ⟨passed, -, rfl⟩ := Option.map_eq_some_iff.mp taken
        cases passed with
        | false => exact ended
        | true =>
            cases call with
            | fork =>
                have unborn := staged.unforked (.inr ⟨_, running, List.mem_cons_self⟩)
                rw [unborn] at ended
                cases ended
            | _ => exact ended
      · obtain rfl := Option.some.inj taken
        exact ended
      · split at taken
        · obtain rfl := Option.some.inj taken
          exact ended
        · split at taken
          · obtain rfl := Option.some.inj taken
            exact ended
          · cases taken
      · cases taken
      · cases taken
  | command =>
      simp only [Startup.next, Startup.commandStep, ended, ite_self] at taken
      cases taken
  | initDies =>
      simp only [Startup.next] at taken
      split at taken
      · obtain rfl := Option.some.inj taken
        exact ended
      · cases taken
  | launcherDies =>
      simp only [Startup.next] at taken
      split at taken
      · cases taken
      · obtain rfl := Option.some.inj taken
        exact ended

/-- The command ends once. -/
theorem ended_of_commandEnds
    (run : runEvents (Startup.sessionNext outcomes) .start events = some state) {death : Death}
    (member : .commandEnds death ∈ events) : state.command = .ended death := by
  revert death
  refine @runEvents_induction _ _ (Startup.sessionNext outcomes) .start
    (fun events state => ∀ {death}, .commandEnds death ∈ events → state.command = .ended death)
    (by simp) ?_ events state run
  intro events before event after earlier holds taken death member
  rcases List.mem_append.mp member with member | last
  · have ended := holds member
    cases event with
    | startup event => exact command_kept (session_of_run earlier).staged taken ended
    | commandEnds other =>
        rw [(commandEnds_eq_some taken).1] at ended
        cases ended
  · obtain rfl := List.mem_singleton.mp last
    rw [(commandEnds_eq_some taken).2]

/-- A run permits one exit code. -/
theorem ExitCode.unique
    (run : runEvents (Startup.sessionNext outcomes) .start events = some state) {code other : Nat}
    (exits : ExitCode outcomes events code) (same : ExitCode outcomes events other) :
    code = other := by
  cases exits with
  | setup unsound =>
      cases same with
      | setup => rfl
      | notInvoked sound | missing sound | command sound => exact absurd sound unsound
  | notInvoked sound refused present =>
      cases same with
      | setup unsound => exact absurd sound unsound
      | notInvoked => rfl
      | missing _ _ missing => exact absurd (present.symm.trans missing) Bool.false_ne_true
      | command _ executed => exact absurd executed refused
  | missing sound refused missing =>
      cases same with
      | setup unsound => exact absurd sound unsound
      | notInvoked _ _ present => exact absurd (present.symm.trans missing) Bool.false_ne_true
      | missing => rfl
      | command _ executed => exact absurd executed refused
  | command sound executed ends =>
      cases same with
      | setup unsound => exact absurd sound unsound
      | notInvoked _ refused | missing _ refused => exact absurd executed refused
      | command _ _ ends' =>
          have ended := ended_of_commandEnds run ends
          rw [ended_of_commandEnds run ends'] at ended
          rw [Command.ended.inj ended]

/-! ## Runs are bounded -/

/-- How many steps are left, with that of a command that has not ended. -/
def Startup.sessionRank (outcomes : Outcomes) (state : Startup) : Nat :=
  state.rank outcomes +
    match state.command with
    | .ended _ => 0
    | _ => 1

/-- **Every event** lowers the rank. -/
theorem sessionRank_lt (session : Session outcomes events state) {event : SessionEvent}
    (taken : state.sessionNext outcomes event = some after) :
    after.sessionRank outcomes < state.sessionRank outcomes := by
  cases event with
  | startup event =>
      have lower := rank_lt_of_next session.staged taken
      cases command : state.command with
      | ended death =>
          simp only [Startup.sessionRank, command, command_kept session.staged taken command]
          omega
      | unborn | running | ready | executing =>
          simp only [Startup.sessionRank, command]
          split <;> omega
  | commandEnds death =>
      obtain ⟨executing, rfl⟩ := commandEnds_eq_some taken
      simp only [Startup.sessionRank, Startup.rank, Command.rank, executing]
      omega

theorem length_le_sessionRank
    (run : runEvents (Startup.sessionNext outcomes) .start events = some state) :
    events.length ≤ Startup.start.sessionRank outcomes := by
  have counted : events.length + state.sessionRank outcomes ≤
      Startup.start.sessionRank outcomes := by
    refine @runEvents_induction _ _ (Startup.sessionNext outcomes) .start
      (fun events state => events.length + state.sessionRank outcomes ≤
        Startup.start.sessionRank outcomes) (by simp) ?_ events state run
    intro events before event after earlier holds taken
    have lower := sessionRank_lt (session_of_run earlier) taken
    rw [List.length_append, List.length_singleton]
    omega
  omega

/-- A launcher that is not killed does not die. -/
theorem launcher_ne_dead
    (run : runEvents (Startup.sessionNext outcomes) .start events = some state)
    (lives : .startup .launcherDies ∉ events) : state.launcher ≠ .dead := by
  revert lives
  refine @runEvents_induction _ _ (Startup.sessionNext outcomes) .start
    (fun events state => .startup .launcherDies ∉ events → state.launcher ≠ .dead)
    (by simp [Startup.start]) ?_ events state run
  intro events before event after _ holds taken lives
  have earlier := holds fun member => lives (List.mem_append_left _ member)
  cases event with
  | commandEnds death =>
      obtain ⟨-, rfl⟩ := commandEnds_eq_some taken
      exact earlier
  | startup event =>
      cases event with
      | launcher => exact launcherStep_ne_dead taken
      | init => exact (initStep_launcher taken).symm ▸ earlier
      | command =>
          obtain ⟨-, command, rfl⟩ := commandStep_eq_some taken
          exact earlier
      | initDies =>
          simp only [Startup.sessionNext, Startup.next] at taken
          split at taken
          · obtain rfl := Option.some.inj taken
            exact earlier
          · cases taken
      | launcherDies => exact absurd (List.mem_append_right _ (List.mem_singleton.mpr rfl)) lives

/-- An init that lives under a launcher that supervises can go on, or its command can. -/
theorem exists_next_of_supervising (session : Session outcomes events state)
    (supervising : state.launcher = .supervising) (lives : ∀ death, state.init ≠ .ended death) :
    ∃ event ≠ .startup .launcherDies, state.sessionNext outcomes event ≠ none := by
  have present : state.launcher.cloned = true := by rw [supervising]; rfl
  cases init : state.init with
  | unborn => exact absurd init (session.staged.cloned present).1
  | ended death => exact absurd init (lives death)
  | running calls =>
      refine ⟨.startup .init, (by simp), fun stuck => ?_⟩
      cases calls with
      | nil =>
          simp only [Startup.sessionNext, Startup.next, Startup.initStep, init] at stuck
          cases stuck
      | cons call calls =>
          simp only [Startup.sessionNext, Startup.next, Startup.initStep, init] at stuck
          obtain ⟨-, -, unready, -⟩ := reads_of_blocked (Option.map_eq_none_iff.mp stuck)
          rw [session.accounted.announced supervising] at unready
          cases unready
  | supervising =>
      have alive : state.init.alive = true := by rw [init]; rfl
      cases command : state.command with
      | unborn => exact absurd command (session.accounted.forks (.inr init))
      | executing =>
          refine ⟨.commandEnds failed, (by simp), ?_⟩
          rw [Startup.sessionNext, if_pos ⟨alive, command⟩]
          simp
      | ended death =>
          refine ⟨.startup .init, (by simp), ?_⟩
          simp only [Startup.sessionNext, Startup.next, Startup.initStep, init, command]
          split <;> simp
      | ready =>
          refine ⟨.startup .command, (by simp), ?_⟩
          simp only [Startup.sessionNext, Startup.next, Startup.commandStep, alive, if_true,
            command]
          split <;> simp
      | running calls =>
          refine ⟨.startup .command, (by simp), ?_⟩
          cases calls with
          | nil =>
              simp only [Startup.sessionNext, Startup.next, Startup.commandStep, alive, if_true,
                command]
              simp
          | cons call calls =>
              simp only [Startup.sessionNext, Startup.next, Startup.commandStep, alive, if_true,
                command]
              split <;> simp

/-- **Where a run stops**, the launcher has exited. -/
theorem exists_code_of_stuck (recovers : outcomes.Recovers)
    (session : Session outcomes events state) (alive : state.launcher ≠ .dead)
    (stuck : ∀ event ≠ .startup .launcherDies, state.sessionNext outcomes event = none) :
    ∃ code, state.launcher = .exited code := by
  have quiet : ∀ event ≠ .launcherDies, state.next outcomes event = none := by
    intro event other
    refine stuck (.startup event) fun same => other ?_
    exact SessionEvent.startup.inj same
  by_cases prepared : outcomes.Prepared
  · rcases waits_of_stuck (quiet .launcher (by simp)) alive with exited | ⟨waits, lives⟩
    · exact exited
    · rcases waits with ⟨reaping, -⟩ | supervising
      · obtain ⟨call, member, failure⟩ := session.staged.unmapped (.inr reaping)
        exact absurd (mapping_of_prepared prepared call member) failure
      · obtain ⟨event, other, moves⟩ := exists_next_of_supervising session supervising lives
        exact absurd (stuck event other) moves
  · exact ⟨_, exited_of_stuck recovers prepared session.staged session.steady alive quiet⟩

end Runs

/-- **The exit code is as promised.** Every run of a container takes boundedly many steps, of which
the command's own running is none. Whenever the launcher has exited, in whatever order the processes
have taken their steps, its code is the promised one, and the run permits no other. A launcher that
is not killed has exited when nothing can happen any more, unless it hangs in the startup. -/
theorem exits_as_promised (outcomes : Outcomes) {events : List SessionEvent} {state : Startup}
    (run : runEvents (Startup.sessionNext outcomes) .start events = some state) :
    events.length ≤ Startup.start.sessionRank outcomes ∧
      (∀ code, state.launcher = .exited code →
        ExitCode outcomes events code ∧ ∀ other, ExitCode outcomes events other → other = code) ∧
      (outcomes.Recovers → .startup .launcherDies ∉ events →
        (∀ event ≠ .startup .launcherDies, state.sessionNext outcomes event = none) →
        ∃ code, state.launcher = .exited code) := by
  have session := session_of_run run
  refine ⟨length_le_sessionRank run, fun code exited => ?_, fun recovers lives stuck => ?_⟩
  · have exits := session.accounted.code code exited
    exact ⟨exits, fun other same => same.unique run exits⟩
  · exact exists_code_of_stuck recovers session (launcher_ne_dead run lives) stuck

theorem signal_fifteen_valid : 1 ≤ 15 ∧ 15 ≤ 64 := by decide

/-- All calls succeed, and SIGTERM kills the command. -/
def terminatedEvents : List SessionEvent :=
  (List.replicate 27 StartupEvent.launcher ++ List.replicate 105 StartupEvent.init ++
      List.replicate 9 StartupEvent.command).map SessionEvent.startup ++
    [.commandEnds (.killed 15 signal_fifteen_valid false)] ++
    ([.init, .launcher].map SessionEvent.startup)

theorem exits_as_promised_terminated :
    ∃ state, runEvents (Startup.sessionNext granted) .start terminatedEvents = some state ∧
      state.launcher = .exited 143 ∧ ExitCode granted terminatedEvents 143 := by
  have run : (runEvents (Startup.sessionNext granted) .start terminatedEvents).map
      Startup.launcher = some (.exited 143) := by
    decide +kernel
  obtain ⟨state, ran, exited⟩ := Option.map_eq_some_iff.mp run
  exact ⟨state, ran, exited, ((exits_as_promised granted ran).2.1 143 exited).1⟩

end InfraFromScratch.Container
