import InfraFromScratch.Container.Supervisor

/-!
# The startup of a container

`main` in `container-runtime/runtime.c` clones the namespace init, writes its user and group maps
and then one byte into a pipe. `run_container`, the init, waits for the byte, sets up its mounts,
drops its privileges and forks the command. Each of the processes makes its system calls in a fixed
order and gives up at the first one that fails. Here the result of every call is given
(`Outcomes`), also which device and inode the calls of `stat` find and how many capabilities the
kernel knows; the processes take their steps in any order, and the launcher may die at any time.

A process that is killed may take further steps until it dies. A call that was interrupted is made
again. What the two calls of `supervise` return is known from the module of the supervisor.

The command is executed only if all that was to be set up was set up (`prepared_of_executes`).
-/

set_option autoImplicit false

namespace InfraFromScratch.Container

open Foundations

/-! ## System calls -/

/-- What a system call does. Only a write can be short. -/
inductive Outcome where
  | success
  | failure
  | short
  deriving DecidableEq

/-- `forwarded_signals`. -/
def forwardedSignals : List Signal := [.sigint, .sigterm, .sighup, .sigquit]

/-- The files under `/proc` of the child that `write_map` writes. -/
inductive MapFile where
  | setgroups
  | uidMap
  | gidMap
  deriving DecidableEq

/-- The calls of `main`, after it has checked its arguments and its user. -/
inductive LauncherCall where
  | checkDescriptor (descriptor : Nat)
  | resolveRootfs
  | openRootfs
  | statRootfs
  | statHostRoot
  | openProc
  | blockSignals
  | handleSignal (signal : Signal)
  | resetSigchld
  | ignoreSigpipe
  | openPidfd
  | openPipe
  | allocateStack
  | clone
  | openMap (file : MapFile)
  | writeMap (file : MapFile)
  | writeReady
  deriving DecidableEq

/-- Before `clone`. -/
def preparation : List LauncherCall :=
  (List.range 3).map LauncherCall.checkDescriptor ++
    [LauncherCall.resolveRootfs, .openRootfs, .statRootfs, .statHostRoot, .openProc,
      .blockSignals] ++
    forwardedSignals.map LauncherCall.handleSignal ++
    [LauncherCall.resetSigchld, .ignoreSigpipe, .openPidfd, .openPipe, .allocateStack]

/-- `write_map`. -/
def mapCalls (file : MapFile) : List LauncherCall := [.openMap file, .writeMap file]

/-- After `clone`. -/
def mapping : List LauncherCall :=
  mapCalls .setgroups ++ mapCalls .uidMap ++ mapCalls .gidMap ++ [LauncherCall.writeReady]

/-- The calls of `run_container` and `drop_capabilities`. -/
inductive InitCall where
  | setDeathSignal
  | pollParent
  | readReady
  | setsid
  | makePrivate
  | openRoot
  | statRoot
  | statExpected
  | enterRoot
  | bindRoot
  | enterMount
  | statMount
  | mountProc
  | pivotRoot
  | detachRoot
  | enterTop
  | closeRange
  | readCapability (capability : Nat)
  | dropCapability (capability : Nat)
  | setCapabilities
  | setNoNewPrivs
  | fork
  | setCommandGroup
  deriving DecidableEq

/-- The loop of `drop_capabilities`, from a capability on, with the number of those that the
kernel still knows. `PR_CAPBSET_READ` of the next one fails with EINVAL, which ends the loop. -/
def capabilityLoop : Nat → Nat → List InitCall
  | 0, capability => [.readCapability capability]
  | left + 1, capability =>
      .readCapability capability :: .dropCapability capability ::
        capabilityLoop left (capability + 1)

/-- The calls of `run_container` before `drop_capabilities`. -/
def mountCalls : List InitCall :=
  [.setDeathSignal, .pollParent, .readReady, .setsid, .makePrivate, .openRoot, .statRoot,
    .statExpected, .enterRoot, .bindRoot, .enterMount, .statMount, .mountProc, .pivotRoot,
    .detachRoot, .enterTop, .closeRange]

/-- What the init does before it forks. -/
def setup (capabilities : Nat) : List InitCall :=
  mountCalls ++ capabilityLoop capabilities 0 ++ [InitCall.setCapabilities, InitCall.setNoNewPrivs]

/-- The calls of the process that becomes the command. -/
inductive CommandCall where
  | setGroup
  | resetSignal (signal : Signal)
  | resetSigpipe
  | unblockSignals
  | execv
  deriving DecidableEq

/-- Before `execv`. -/
def commandSetup : List CommandCall :=
  CommandCall.setGroup :: forwardedSignals.map CommandCall.resetSignal ++
    [CommandCall.resetSigpipe, CommandCall.unblockSignals]

/-- A device and an inode. -/
structure FileId where
  device : Nat
  inode : Nat
  deriving DecidableEq

/-- The results of all calls. -/
structure Outcomes where
  launcher : LauncherCall → Outcome
  /-- `kill(child, SIGKILL)`. -/
  kill : Outcome
  /-- `waitpid(child, NULL, 0)` after it. -/
  reap : Outcome
  /-- The calls that `supervise` makes for the launcher. -/
  supervise : Outcome
  /-- `PR_CAPBSET_READ` of the first capability that the kernel does not know succeeds by
  failing with EINVAL. -/
  init : InitCall → Outcome
  /-- The number of capabilities that the kernel knows. -/
  capabilities : Nat
  /-- What `/` is to the launcher. -/
  hostRoot : FileId
  /-- What the launcher has opened, and what the init finds at the path, before and after the
  bind mount. -/
  expected : FileId
  reopened : FileId
  bound : FileId
  /-- The calls that `supervise` makes for the init. -/
  superviseCommand : Outcome
  command : CommandCall → Outcome
  /-- `execv` fails with ENOENT. -/
  missing : Bool

/-- A call of the launcher before the clone succeeds, and its result passes the check. -/
def Outcomes.grants (outcomes : Outcomes) (call : LauncherCall) : Bool :=
  decide (outcomes.launcher call = .success) &&
    match call with
    | .statHostRoot => outcomes.expected ≠ outcomes.hostRoot
    | _ => true

/-- The call succeeds, and its result passes the check. -/
def Outcomes.accepts (outcomes : Outcomes) (call : InitCall) : Bool :=
  decide (outcomes.init call = .success) &&
    match call with
    | .statExpected => outcomes.reopened = outcomes.expected
    | .statMount => outcomes.bound = outcomes.expected
    | _ => true

/-! ## The processes -/

inductive Launcher where
  /-- Before the first of these calls; with none left, before `clone`. -/
  | preparing (calls : List LauncherCall)
  /-- Before the first of these calls; with none left, before it closes the pipe. -/
  | mapping (calls : List LauncherCall)
  /-- Something could not be mapped: before `kill`. -/
  | killing
  /-- In `waitpid` after `kill`, with the pipe open. -/
  | reaping
  | supervising
  | exited (code : Nat)
  | dead
  deriving DecidableEq

def Launcher.gone : Launcher → Bool
  | .exited _ | .dead => true
  | _ => false

/-- The launcher holds the end of the pipe to which the byte is written. -/
def Launcher.holdsPipe : Launcher → Bool
  | .preparing _ | .mapping _ | .killing | .reaping => true
  | _ => false

inductive Init where
  | unborn
  | running (calls : List InitCall)
  | supervising
  | ended (death : Death)
  deriving DecidableEq

def Init.alive : Init → Bool
  | .running _ | .supervising => true
  | _ => false

inductive Command where
  | unborn
  | running (calls : List CommandCall)
  /-- At `execv`. -/
  | ready
  | executing
  | ended (death : Death)
  deriving DecidableEq

structure Startup where
  launcher : Launcher
  init : Init
  command : Command
  /-- The byte is in the pipe, or was read. -/
  ready : Bool
  /-- SIGKILL is pending for the init. -/
  doomed : Bool
  /-- The init gets SIGKILL when the launcher is gone. -/
  deathSignal : Bool
  deriving DecidableEq

/-- The launcher, before its first call. -/
def Startup.start : Startup :=
  ⟨.preparing preparation, .unborn, .unborn, false, false, false⟩

/-- `_exit(RUNTIME_ERROR)`. -/
def failed : Death := .exited runtimeError

/-- The calls of the init. -/
def initCalls (capabilities : Nat) : List InitCall :=
  setup capabilities ++ [InitCall.fork, InitCall.setCommandGroup]

/-- The next step of the launcher. -/
def Startup.launcherStep (outcomes : Outcomes) (state : Startup) : Option Startup :=
  match state.launcher with
  | .preparing (call :: calls) =>
      if outcomes.grants call then some { state with launcher := .preparing calls }
      else some { state with launcher := .exited runtimeError.toNat }
  | .preparing [] =>
      if outcomes.grants .clone then
        some { state with
          launcher := .mapping mapping, init := .running (initCalls outcomes.capabilities) }
      else some { state with launcher := .exited runtimeError.toNat }
  | .mapping (call :: calls) =>
      if outcomes.launcher call = .success then
        some { state with
          launcher := .mapping calls, ready := state.ready || decide (call = .writeReady) }
      else some { state with launcher := .killing }
  | .mapping [] => some { state with launcher := .supervising }
  | .killing =>
      some { state with
        launcher := .reaping, doomed := state.doomed || decide (outcomes.kill = .success) }
  | .reaping =>
      if outcomes.reap ≠ .success then some { state with launcher := .exited runtimeError.toNat }
      else
        match state.init with
        | .ended _ => some { state with launcher := .exited runtimeError.toNat }
        | _ => none
  | .supervising =>
      if outcomes.supervise ≠ .success then
        some { state with launcher := .exited runtimeError.toNat }
      else
        match state.init with
        | .ended death => some { state with launcher := .exited death.code }
        | _ => none
  | .exited _ | .dead => none

/-- Whether the init passes a call, or nothing while it blocks. `poll` sees a launcher that is
gone. `read` blocks while the pipe is empty and somebody can still write to it. -/
def Startup.passes (outcomes : Outcomes) (state : Startup) (call : InitCall) : Option Bool :=
  match call with
  | .pollParent => some (!state.launcher.gone && outcomes.accepts .pollParent)
  | .readReady =>
      if outcomes.accepts .readReady = false then some false
      else if state.ready then some true
      else if state.launcher.holdsPipe then none
      else some false
  | call => some (outcomes.accepts call)

/-- What a call of the init does if it is passed. -/
def Startup.enter (state : Startup) : InitCall → Startup
  | .setDeathSignal => { state with deathSignal := true }
  | .fork => { state with command := .running commandSetup }
  | _ => state

/-- The next step of the init. -/
def Startup.initStep (outcomes : Outcomes) (state : Startup) : Option Startup :=
  match state.init with
  | .running (call :: calls) =>
      (state.passes outcomes call).map fun passed =>
        if passed then { state.enter call with init := .running calls }
        else { state with init := .ended failed }
  | .running [] => some { state with init := .supervising }
  | .supervising =>
      if outcomes.superviseCommand ≠ .success then some { state with init := .ended failed }
      else
        match state.command with
        | .ended death => some { state with init := .ended (.exited (UInt8.ofNat death.code)) }
        | _ => none
  | .unborn | .ended _ => none

/-- The next step of the process of the command, up to `execv`. It lives no longer than the
init. -/
def Startup.commandStep (outcomes : Outcomes) (state : Startup) : Option Startup :=
  if state.init.alive then
    match state.command with
    | .running (call :: calls) =>
        if outcomes.command call = .success then some { state with command := .running calls }
        else some { state with command := .ended failed }
    | .running [] => some { state with command := .ready }
    | .ready =>
        if outcomes.command .execv = .success then some { state with command := .executing }
        else some { state with command := .ended (.exited (if outcomes.missing then 127 else 126)) }
    | _ => none
  else none

inductive StartupEvent where
  | launcher
  | init
  | command
  /-- SIGKILL ends the init. -/
  | initDies
  | launcherDies
  deriving DecidableEq

theorem signal_nine_valid : 1 ≤ 9 ∧ 9 ≤ 64 := by decide

def Startup.next (outcomes : Outcomes) (state : Startup) : StartupEvent → Option Startup
  | .launcher => state.launcherStep outcomes
  | .init => state.initStep outcomes
  | .command => state.commandStep outcomes
  | .initDies =>
      if state.init.alive ∧ (state.doomed ∨ state.launcher.gone ∧ state.deathSignal) then
        some { state with init := .ended (.killed 9 signal_nine_valid false) }
      else none
  | .launcherDies =>
      if state.launcher.gone then none else some { state with launcher := .dead }

/-! ## What is to hold -/

/-- Everything was set up: `setgroups`, `uid_map` and `gid_map` were written in full, the byte was
written, the root was the one that the launcher has opened, before and after the bind mount, and
all other calls of the init before the fork succeeded. -/
structure Outcomes.Prepared (outcomes : Outcomes) : Prop where
  mapped : ∀ file, ∀ call ∈ mapCalls file, outcomes.launcher call = .success
  announced : outcomes.launcher .writeReady = .success
  reopened : outcomes.reopened = outcomes.expected
  bound : outcomes.bound = outcomes.expected
  setup : ∀ call ∈ setup outcomes.capabilities, outcomes.init call = .success

/-- `execv` of the command is reached. -/
def Startup.Executes (state : Startup) : Prop := state.command = .ready ∨ state.command = .executing

/-! ## Safety -/

/-- What holds in every state, whether the launcher dies or not. -/
structure Startup.Steady (outcomes : Outcomes) (state : Startup) : Prop where
  mapping : ∀ calls, state.launcher = .mapping calls → ∃ done, done ++ calls = Container.mapping ∧
    ∀ call ∈ done, outcomes.launcher call = .success
  written : state.ready = true → ∀ call ∈ Container.mapping, outcomes.launcher call = .success
  init : ∀ calls, state.init = .running calls →
    ∃ done, done ++ calls = initCalls outcomes.capabilities ∧
      ∀ call ∈ done, outcomes.accepts call = true ∧ (call = .readReady → state.ready = true)
  forked : state.command ≠ .unborn ∨ state.init = .supervising → outcomes.Prepared

section Safety

variable {outcomes : Outcomes} {state after : Startup}

theorem fork_notMem_setup (capabilities : Nat) : .fork ∉ setup capabilities := by
  have loop : ∀ left capability, .fork ∉ capabilityLoop left capability := by
    intro left
    induction left with
    | zero => intro capability; simp [capabilityLoop]
    | succ left ih => intro capability; simp [capabilityLoop, ih]
  simp [setup, mountCalls, loop]

/-- An init that has made all calls of the setup is prepared. -/
theorem prepared_of_accepts
    (accepted : ∀ call ∈ setup outcomes.capabilities, outcomes.accepts call = true)
    (written : ∀ call ∈ mapping, outcomes.launcher call = .success) : outcomes.Prepared where
  mapped := by
    intro file call member
    refine written call ?_
    cases file <;> simp [mapping, member]
  announced := written .writeReady (by simp [mapping])
  reopened := by
    have checked := accepted .statExpected (by simp [setup, mountCalls])
    simpa [Outcomes.accepts] using (Bool.and_eq_true_iff.mp checked).2
  bound := by
    have checked := accepted .statMount (by simp [setup, mountCalls])
    simpa [Outcomes.accepts] using (Bool.and_eq_true_iff.mp checked).2
  setup := by
    intro call member
    exact of_decide_eq_true (Bool.and_eq_true_iff.mp (accepted call member)).1

theorem steady_start (outcomes : Outcomes) : Startup.start.Steady outcomes :=
  ⟨nofun, nofun, nofun, by simp [Startup.start]⟩

/-- A step of the launcher to a control in which it maps nothing. -/
theorem Startup.Steady.setLauncher (steady : state.Steady outcomes) {launcher : Launcher}
    (elsewhere : ∀ calls, launcher ≠ .mapping calls) {doomed : Bool} :
    Startup.Steady outcomes { state with launcher := launcher, doomed := doomed } :=
  ⟨fun calls isMapping => absurd isMapping (elsewhere calls), steady.written, steady.init,
    steady.forked⟩

/-- A call of the launcher that succeeds while it maps. -/
theorem Startup.Steady.mapped (steady : state.Steady outcomes) {call : LauncherCall}
    {calls : List LauncherCall} (isMapping : state.launcher = .mapping (call :: calls))
    (success : outcomes.launcher call = .success) :
    Startup.Steady outcomes { state with
      launcher := .mapping calls, ready := state.ready || decide (call = .writeReady) } := by
  obtain ⟨done, whole, succeeded⟩ := steady.mapping _ isMapping
  have more : ∀ earlier ∈ done ++ [call], outcomes.launcher earlier = .success := by
    intro earlier member
    rcases List.mem_append.mp member with before | here
    · exact succeeded earlier before
    · rw [List.mem_singleton.mp here]
      exact success
  refine ⟨?_, ?_, ?_, steady.forked⟩
  · rintro _ ⟨⟩
    exact ⟨done ++ [call], by rw [← whole]; simp, more⟩
  · intro written
    rcases Bool.or_eq_true_iff.mp written with before | here
    · exact steady.written before
    · -- The byte is written by the last call.
      obtain rfl := of_decide_eq_true here
      rcases concat_eq_append_cons_iff.mp whole.symm with ⟨rfl, -, -⟩ | ⟨rest, -, earlier⟩
      · exact more
      · have member : LauncherCall.writeReady ∈ done ++ .writeReady :: rest := by simp
        rw [← earlier] at member
        exact absurd member (by decide)
  · intro calls running
    obtain ⟨done, whole, accepted⟩ := steady.init calls running
    refine ⟨done, whole, fun call member => ⟨(accepted call member).1, fun isRead => ?_⟩⟩
    exact Bool.or_eq_true_iff.mpr (.inl ((accepted call member).2 isRead))

/-- **One step of the launcher.** -/
theorem Startup.Steady.launcherStep (steady : state.Steady outcomes)
    (taken : state.launcherStep outcomes = some after) : after.Steady outcomes := by
  unfold Startup.launcherStep at taken
  split at taken
  · split at taken <;>
    · obtain rfl := Option.some.inj taken
      exact steady.setLauncher (by nofun)
  · split at taken
    · rename_i preparing _
      obtain rfl := Option.some.inj taken
      refine ⟨?_, steady.written, ?_, ?_⟩
      · rintro _ ⟨⟩
        exact ⟨[], rfl, nofun⟩
      · rintro _ ⟨⟩
        exact ⟨[], rfl, nofun⟩
      · rintro (forked | supervising)
        · exact steady.forked (.inl forked)
        · cases supervising
    · obtain rfl := Option.some.inj taken
      exact steady.setLauncher (by nofun)
  · rename_i call calls isMapping
    split at taken
    · rename_i success
      obtain rfl := Option.some.inj taken
      exact steady.mapped isMapping success
    · obtain rfl := Option.some.inj taken
      exact steady.setLauncher (by nofun)
  · obtain rfl := Option.some.inj taken
    exact steady.setLauncher (by nofun)
  · obtain rfl := Option.some.inj taken
    exact steady.setLauncher (by nofun)
  · split at taken
    · obtain rfl := Option.some.inj taken
      exact steady.setLauncher (by nofun)
    · split at taken
      · obtain rfl := Option.some.inj taken
        exact steady.setLauncher (by nofun)
      · cases taken
  · split at taken
    · obtain rfl := Option.some.inj taken
      exact steady.setLauncher (by nofun)
    · split at taken
      · obtain rfl := Option.some.inj taken
        exact steady.setLauncher (by nofun)
      · cases taken
  · cases taken
  · cases taken

/-- A call that is passed has succeeded, and only a byte in the pipe is read. -/
theorem accepts_of_passes {call : InitCall} (passed : state.passes outcomes call = some true) :
    outcomes.accepts call = true ∧ (call = .readReady → state.ready = true) := by
  unfold Startup.passes at passed
  split at passed
  · exact ⟨(Bool.and_eq_true_iff.mp (Option.some.inj passed)).2, nofun⟩
  · split at passed
    · cases passed
    · rename_i accepted
      split at passed
      · rename_i ready
        exact ⟨Bool.eq_true_of_not_eq_false accepted, fun _ => ready⟩
      · split at passed
        · cases passed
        · cases passed
  · rename_i other
    exact ⟨Option.some.inj passed, fun isRead => absurd isRead other⟩

/-- An init that has passed all calls of the setup is prepared. -/
theorem Startup.Steady.prepared (steady : state.Steady outcomes) {done : List InitCall}
    (accepted : ∀ call ∈ done, outcomes.accepts call = true ∧
      (call = .readReady → state.ready = true))
    (whole : ∀ call ∈ setup outcomes.capabilities, call ∈ done) : outcomes.Prepared := by
  have ready := (accepted .readReady (whole _ (by simp [setup, mountCalls]))).2 rfl
  exact prepared_of_accepts (fun call member => (accepted call (whole call member)).1)
    (steady.written ready)

/-- What was done before the fork is the setup. -/
theorem done_of_fork {capabilities : Nat} {done calls : List InitCall}
    (whole : done ++ .fork :: calls = initCalls capabilities) : done = setup capabilities := by
  have shape : initCalls capabilities = (setup capabilities ++ [.fork]) ++ [.setCommandGroup] := by
    simp [initCalls]
  rw [shape, eq_comm] at whole
  rcases concat_eq_append_cons_iff.mp whole with ⟨-, other, -⟩ | ⟨rest, -, earlier⟩
  · cases other
  · rcases concat_eq_append_cons_iff.mp earlier with ⟨same, -, -⟩ | ⟨again, -, inside⟩
    · exact same
    · have member : InitCall.fork ∈ done ++ .fork :: again := by simp
      rw [← inside] at member
      exact absurd member (fork_notMem_setup capabilities)

/-- A call of the init that is passed. -/
theorem Startup.Steady.entered (steady : state.Steady outcomes) {call : InitCall}
    {calls : List InitCall} (running : state.init = .running (call :: calls))
    (passed : state.passes outcomes call = some true) :
    Startup.Steady outcomes { state.enter call with init := .running calls } := by
  obtain ⟨done, whole, accepted⟩ := steady.init _ running
  have more : ∀ earlier ∈ done ++ [call], outcomes.accepts earlier = true ∧
      (earlier = .readReady → state.ready = true) := by
    intro earlier member
    rcases List.mem_append.mp member with before | here
    · exact accepted earlier before
    · rw [List.mem_singleton.mp here]
      exact accepts_of_passes passed
  have longer : (done ++ [call]) ++ calls = initCalls outcomes.capabilities := by
    rw [← whole]
    simp
  by_cases isFork : call = .fork
  · subst isFork
    refine ⟨steady.mapping, steady.written, ?_, fun _ => ?_⟩
    · rintro _ ⟨⟩
      exact ⟨done ++ [.fork], longer, more⟩
    · rw [done_of_fork whole] at accepted
      exact steady.prepared accepted fun _ member => member
  · have same : (state.enter call).launcher = state.launcher ∧
        (state.enter call).ready = state.ready ∧ (state.enter call).command = state.command := by
      cases call with
      | fork => exact absurd rfl isFork
      | _ => exact ⟨rfl, rfl, rfl⟩
    obtain ⟨launcher, ready, command⟩ := same
    refine ⟨?_, ?_, ?_, ?_⟩
    · exact launcher ▸ steady.mapping
    · exact ready ▸ steady.written
    · rintro _ ⟨⟩
      exact ⟨done ++ [call], longer, ready ▸ more⟩
    · rintro (forked | supervising)
      · exact steady.forked (.inl (command ▸ forked))
      · cases supervising

/-- The init ends. -/
theorem Startup.Steady.endInit (steady : state.Steady outcomes) (death : Death) :
    Startup.Steady outcomes { state with init := .ended death } := by
  refine ⟨steady.mapping, steady.written, nofun, ?_⟩
  rintro (forked | supervising)
  · exact steady.forked (.inl forked)
  · cases supervising

/-- **One step of the init.** -/
theorem Startup.Steady.initStep (steady : state.Steady outcomes)
    (taken : state.initStep outcomes = some after) : after.Steady outcomes := by
  unfold Startup.initStep at taken
  split at taken
  · rename_i call calls running
    obtain ⟨passed, passes, rfl⟩ := Option.map_eq_some_iff.mp taken
    cases passed with
    | true => exact steady.entered running passes
    | false => exact steady.endInit failed
  · rename_i running
    obtain rfl := Option.some.inj taken
    refine ⟨steady.mapping, steady.written, nofun, fun _ => ?_⟩
    obtain ⟨done, whole, accepted⟩ := steady.init [] running
    refine steady.prepared accepted fun call member => ?_
    rw [← List.append_nil done, whole]
    exact List.mem_append_left _ member
  · split at taken
    · obtain rfl := Option.some.inj taken
      exact steady.endInit failed
    · split at taken
      · obtain rfl := Option.some.inj taken
        exact steady.endInit _
      · cases taken
  · cases taken
  · cases taken

/-- A step of the command is made after the fork, and changes no other process. -/
theorem commandStep_eq_some (taken : state.commandStep outcomes = some after) :
    state.command ≠ .unborn ∧ ∃ command, after = { state with command := command } := by
  unfold Startup.commandStep at taken
  split at taken
  · split at taken
    · rename_i call calls running
      refine ⟨by rw [running]; nofun, ?_⟩
      split at taken <;> exact ⟨_, (Option.some.inj taken).symm⟩
    · rename_i running
      exact ⟨by rw [running]; nofun, _, (Option.some.inj taken).symm⟩
    · rename_i ready
      refine ⟨by rw [ready]; nofun, ?_⟩
      split at taken <;> exact ⟨_, (Option.some.inj taken).symm⟩
    · cases taken
  · cases taken

theorem Startup.Steady.commandStep (steady : state.Steady outcomes)
    (taken : state.commandStep outcomes = some after) : after.Steady outcomes := by
  obtain ⟨born, command, rfl⟩ := commandStep_eq_some taken
  exact ⟨steady.mapping, steady.written, steady.init, fun _ => steady.forked (.inl born)⟩

/-- **One event.** -/
theorem Startup.Steady.next (steady : state.Steady outcomes) {event : StartupEvent}
    (taken : state.next outcomes event = some after) : after.Steady outcomes := by
  cases event with
  | launcher => exact steady.launcherStep taken
  | init => exact steady.initStep taken
  | command => exact steady.commandStep taken
  | initDies =>
      simp only [Startup.next] at taken
      split at taken
      · obtain rfl := Option.some.inj taken
        exact steady.endInit _
      · cases taken
  | launcherDies =>
      simp only [Startup.next] at taken
      split at taken
      · cases taken
      · obtain rfl := Option.some.inj taken
        exact steady.setLauncher (by simp)

theorem steady_of_run {events : List StartupEvent}
    (run : runEvents (Startup.next outcomes) .start events = some state) :
    state.Steady outcomes :=
  runEvents_invariant (steady_start outcomes) (fun _ _ _ steady taken => steady.next taken) run

/-- **Nothing is executed unprepared.** -/
theorem prepared_of_executes {events : List StartupEvent}
    (run : runEvents (Startup.next outcomes) .start events = some state)
    (executes : state.Executes) : outcomes.Prepared := by
  refine (steady_of_run run).forked (.inl ?_)
  rcases executes with ready | executing
  · rw [ready]
    nofun
  · rw [executing]
    nofun

end Safety

end InfraFromScratch.Container
