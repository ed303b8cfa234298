import InfraFromScratch.Container.Attributes

/-!
# What the command may do

Here the processes of the runtime have their attributes beside their controls. In every run both
supervisors wait with their signals blocked and SIGCHLD not ignored, and the command is executed
with the three standard descriptors, without any capability, present or to be gained, and with the
signals as the caller of the runtime had them, but for those that the runtime sets to their defaults
(`command_confined`).
-/

set_option autoImplicit false

namespace InfraFromScratch.Container

open Foundations

/-! ## The processes with their attributes -/

/-- The attributes of the processes. -/
structure Holdings where
  launcher : Attributes
  init : Attributes
  command : Attributes
  /-- The process of the command leads a process group of its own. -/
  leads : Bool

/-- `fcntl(fd, F_GETFD)` succeeds on the descriptors that were inherited. -/
def Outcomes.seeing (outcomes : Outcomes) (inherited : Attributes) : Outcomes :=
  { outcomes with
    launcher := fun call =>
      match call with
      | .checkDescriptor descriptor =>
          if descriptor ∈ inherited.descriptors then .success else .failure
      | call => outcomes.launcher call }

/-- What the step of the launcher does to the attributes. -/
def Holdings.launcherStep (outcomes : Outcomes) (state : Startup) (holdings : Holdings) :
    Holdings :=
  match state.launcher with
  | .preparing (call :: _) =>
      if outcomes.grants call then
        { holdings with launcher := holdings.launcher.afterLauncher call }
      else holdings
  | .preparing [] =>
      if outcomes.grants .clone then
        { holdings with
          launcher := ((holdings.launcher.closes .readyRead).closes .parent).closes .root
          init := holdings.launcher.cloned outcomes.capabilities }
      else holdings
  | .mapping (call :: _) =>
      if outcomes.launcher call = .success then
        { holdings with launcher := holdings.launcher.afterLauncher call }
      else holdings
  | .mapping [] => { holdings with launcher := holdings.launcher.closes .readyWrite }
  | _ => holdings

/-- What a call that the init passes does to the attributes. A parent cannot set the process group
of a child that has called `execv`. -/
def Holdings.enter (state : Startup) (holdings : Holdings) : InitCall → Holdings
  | .fork => { holdings with command := holdings.init, leads := false }
  | .setCommandGroup =>
      { holdings with leads := holdings.leads || decide (state.command ≠ .executing) }
  | call => { holdings with init := holdings.init.afterInit call }

/-- What the step of the init does to the attributes. -/
def Holdings.initStep (outcomes : Outcomes) (state : Startup) (holdings : Holdings) : Holdings :=
  match state.init with
  | .running (call :: _) =>
      if state.passes outcomes call = some true then holdings.enter state call else holdings
  | _ => holdings

/-- What the step of the process of the command does to the attributes. -/
def Holdings.commandStep (outcomes : Outcomes) (state : Startup) (holdings : Holdings) : Holdings :=
  match state.command with
  | .running (call :: _) =>
      if outcomes.command call = .success then
        { holdings with
          command := holdings.command.afterCommand call
          leads := holdings.leads || decide (call = .setGroup) }
      else holdings
  | .ready =>
      if outcomes.command .execv = .success then
        { holdings with command := holdings.command.afterCommand .execv }
      else holdings
  | _ => holdings

/-- What a step does to the attributes. -/
def Holdings.step (outcomes : Outcomes) (state : Startup) (holdings : Holdings) :
    StartupEvent → Holdings
  | .launcher => holdings.launcherStep outcomes state
  | .init => holdings.initStep outcomes state
  | .command => holdings.commandStep outcomes state
  | .initDies | .launcherDies => holdings

/-- The processes with their attributes. -/
structure Processes where
  startup : Startup
  holdings : Holdings

/-- The launcher, with what it has inherited. -/
def Processes.start (inherited : Attributes) : Processes :=
  ⟨.start, inherited.unnamed, inherited.unnamed, inherited.unnamed, false⟩

def Processes.next (outcomes : Outcomes) (state : Processes) (event : StartupEvent) :
    Option Processes :=
  (state.startup.next outcomes event).map fun after =>
    ⟨after, state.holdings.step outcomes state.startup event⟩

/-! ## Runs -/

/-- The attributes of every process are those that its calls so far have given it. -/
structure Traced (outcomes : Outcomes) (inherited : Attributes) (state : Startup)
    (holdings : Holdings) : Prop where
  preparing : ∀ calls, state.launcher = .preparing calls → ∃ done, done ++ calls = preparation ∧
    holdings.launcher = done.foldl Attributes.afterLauncher inherited.unnamed
  supervises : state.launcher.cloned = true → holdings.launcher.Supervises
  launched : state.init ≠ .unborn →
    ∀ call ∈ preparation ++ [LauncherCall.clone], outcomes.grants call = true
  running : ∀ calls, state.init = .running calls →
    ∃ done, done ++ calls = initCalls outcomes.capabilities ∧
      holdings.init = done.foldl Attributes.afterInit (inherited.born outcomes.capabilities)
  supervising : state.init = .supervising →
    holdings.init = inherited.settled outcomes.capabilities
  setting : ∀ calls, state.command = .running calls →
    ∃ done, done ++ calls = commandSetup ∧
      holdings.command =
        done.foldl Attributes.afterCommand (inherited.settled outcomes.capabilities) ∧
      (.setGroup ∈ done → holdings.leads = true)
  ready : state.command = .ready →
    holdings.command = inherited.reset outcomes.capabilities ∧ holdings.leads = true
  executing : state.command = .executing →
    holdings.command = (inherited.reset outcomes.capabilities).afterCommand .execv ∧
      holdings.leads = true

section Runs

variable {outcomes : Outcomes} {inherited : Attributes} {state : Startup} {holdings : Holdings}

theorem traced_start (outcomes : Outcomes) (inherited : Attributes) :
    Traced outcomes inherited .start (Processes.start inherited).holdings where
  preparing := by
    rintro _ ⟨⟩
    exact ⟨[], rfl, rfl⟩
  supervises := by simp [Startup.start, Launcher.cloned]
  launched := fun born => absurd rfl born
  running := by simp [Startup.start]
  supervising := by simp [Startup.start]
  setting := by simp [Startup.start]
  ready := by simp [Startup.start]
  executing := by simp [Startup.start]

/-- The launcher changes, and the other processes do not. -/
theorem Traced.setLauncher (traced : Traced outcomes inherited state holdings)
    {launcher : Launcher} {ready doomed : Bool} {attributes : Attributes}
    (preparing : ∀ calls, launcher = .preparing calls → ∃ done, done ++ calls = preparation ∧
      attributes = done.foldl Attributes.afterLauncher inherited.unnamed)
    (supervises : launcher.cloned = true → attributes.Supervises) :
    Traced outcomes inherited { state with launcher := launcher, ready := ready, doomed := doomed }
      { holdings with launcher := attributes } where
  preparing := preparing
  supervises := supervises
  launched := traced.launched
  running := traced.running
  supervising := traced.supervising
  setting := traced.setting
  ready := traced.ready
  executing := traced.executing

/-- The calls of the mapping leave the signals as they are. -/
theorem afterLauncher_supervises {attributes : Attributes} (supervises : attributes.Supervises)
    {call : LauncherCall} (member : call ∈ mapping) :
    (attributes.afterLauncher call).Supervises := by
  have same : (attributes.afterLauncher call).blocked = attributes.blocked ∧
      (attributes.afterLauncher call).disposition = attributes.disposition := by
    simp only [mapping, mapCalls, List.cons_append, List.nil_append, List.mem_cons,
      List.not_mem_nil, or_false] at member
    rcases member with rfl | rfl | rfl | rfl | rfl | rfl | rfl <;>
    simp [Attributes.afterLauncher]
  obtain ⟨blocked, disposition⟩ := same
  exact ⟨blocked ▸ supervises.blocked, disposition ▸ supervises.sigchld,
    disposition ▸ supervises.forwarded, disposition ▸ supervises.sigpipe⟩

/-- **The clone.** -/
theorem Traced.cloned (traced : Traced outcomes inherited state holdings)
    (staged : state.Staged outcomes) (preparing : state.launcher = .preparing [])
    (success : outcomes.grants .clone = true) :
    Traced outcomes inherited
      { state with
        launcher := .mapping mapping, init := .running (initCalls outcomes.capabilities) }
      { holdings with
        launcher := ((holdings.launcher.closes .readyRead).closes .parent).closes .root
        init := holdings.launcher.cloned outcomes.capabilities } := by
  have prepared : holdings.launcher = inherited.prepared := by
    obtain ⟨done, whole, attributes⟩ := traced.preparing _ preparing
    rw [List.append_nil] at whole
    rw [Attributes.prepared, attributes, whole]
  have unborn : state.command = .unborn :=
    staged.unforked (.inl (staged.preparing _ preparing).1)
  have supervises : (((holdings.launcher.closes .readyRead).closes .parent).closes
      .root).Supervises := by
    rw [prepared]
    exact closes_supervises _ _ (closes_supervises _ _ (closes_supervises _ _
      (prepared_supervises inherited)))
  refine ⟨(by simp), fun _ => supervises, fun _ => ?_, ?_, (by simp), ?_, ?_, ?_⟩
  · obtain ⟨-, done, whole, succeeded⟩ := staged.preparing _ preparing
    rw [List.append_nil] at whole
    exact List.forall_mem_append.mpr ⟨whole ▸ succeeded, List.forall_mem_singleton.mpr success⟩
  · intro calls running
    refine ⟨[], Init.running.inj running.symm, ?_⟩
    rw [prepared, List.foldl_nil, Attributes.born]
  · intro calls running
    cases unborn.symm.trans running
  · intro ready
    cases unborn.symm.trans ready
  · intro executing
    cases unborn.symm.trans executing

/-- **One step of the launcher.** -/
theorem Traced.launcherStep (traced : Traced outcomes inherited state holdings)
    (staged : state.Staged outcomes) (steady : state.Steady outcomes) {after : Startup}
    (taken : state.launcherStep outcomes = some after) :
    Traced outcomes inherited after (holdings.launcherStep outcomes state) := by
  unfold Startup.launcherStep at taken
  split at taken
  · rename_i call calls preparing
    split at taken
    · rename_i success
      obtain rfl := Option.some.inj taken
      simp only [Holdings.launcherStep, preparing, success, if_true]
      refine traced.setLauncher ?_ (by simp [Launcher.cloned])
      rintro _ ⟨⟩
      obtain ⟨done, whole, attributes⟩ := traced.preparing _ preparing
      refine ⟨done ++ [call], by rw [← whole]; simp, ?_⟩
      rw [List.foldl_append, ← attributes, List.foldl_cons, List.foldl_nil]
    · rename_i failure
      obtain rfl := Option.some.inj taken
      simp only [Holdings.launcherStep, preparing, failure]
      exact traced.setLauncher (by simp) (by simp [Launcher.cloned])
  · rename_i preparing
    split at taken
    · rename_i success
      obtain rfl := Option.some.inj taken
      simp only [Holdings.launcherStep, preparing, success, if_true]
      exact traced.cloned staged preparing success
    · rename_i failure
      obtain rfl := Option.some.inj taken
      simp only [Holdings.launcherStep, preparing, failure]
      exact traced.setLauncher (by simp) (by simp [Launcher.cloned])
  · rename_i call calls isMapping
    have supervises := traced.supervises (by rw [isMapping]; rfl)
    split at taken
    · rename_i success
      obtain rfl := Option.some.inj taken
      simp only [Holdings.launcherStep, isMapping, success, if_true]
      obtain ⟨done, whole, -⟩ := steady.mapping _ isMapping
      exact traced.setLauncher (by simp) fun _ =>
        afterLauncher_supervises supervises (by rw [← whole]; simp)
    · rename_i failure
      obtain rfl := Option.some.inj taken
      simp only [Holdings.launcherStep, isMapping, failure, if_false]
      exact traced.setLauncher (by simp) fun _ => supervises
  · rename_i isMapping
    have supervises := traced.supervises (by rw [isMapping]; rfl)
    obtain rfl := Option.some.inj taken
    simp only [Holdings.launcherStep, isMapping]
    exact traced.setLauncher (by simp) fun _ => closes_supervises _ _ supervises
  · rename_i killing
    have supervises := traced.supervises (by rw [killing]; rfl)
    obtain rfl := Option.some.inj taken
    simp only [Holdings.launcherStep, killing]
    exact traced.setLauncher (by simp) fun _ => supervises
  · rename_i reaping
    have exits : Traced outcomes inherited
        { state with launcher := .exited runtimeError.toNat }
        (holdings.launcherStep outcomes state) := by
      simp only [Holdings.launcherStep, reaping]
      exact traced.setLauncher (by simp) (by simp [Launcher.cloned])
    split at taken
    · obtain rfl := Option.some.inj taken
      exact exits
    · split at taken
      · obtain rfl := Option.some.inj taken
        exact exits
      · cases taken
  · rename_i supervising
    have exits : ∀ code, Traced outcomes inherited { state with launcher := .exited code }
        (holdings.launcherStep outcomes state) := by
      intro code
      simp only [Holdings.launcherStep, supervising]
      exact traced.setLauncher (by simp) (by simp [Launcher.cloned])
    split at taken
    · obtain rfl := Option.some.inj taken
      exact exits _
    · split at taken
      · obtain rfl := Option.some.inj taken
        exact exits _
      · cases taken
  · cases taken
  · cases taken

/-- The init changes, and the other processes do not. -/
theorem Traced.setInit (traced : Traced outcomes inherited state holdings)
    (born : state.init ≠ .unborn) {init : Init} {deathSignal : Bool} {attributes : Attributes}
    (running : ∀ calls, init = .running calls →
      ∃ done, done ++ calls = initCalls outcomes.capabilities ∧
        attributes = done.foldl Attributes.afterInit (inherited.born outcomes.capabilities))
    (supervising : init = .supervising → attributes = inherited.settled outcomes.capabilities) :
    Traced outcomes inherited { state with init := init, deathSignal := deathSignal }
      { holdings with init := attributes } where
  preparing := traced.preparing
  supervises := traced.supervises
  launched := fun _ => traced.launched born
  running := running
  supervising := supervising
  setting := traced.setting
  ready := traced.ready
  executing := traced.executing

theorem foldl_initCalls (inherited : Attributes) (capabilities : Nat) :
    (initCalls capabilities).foldl Attributes.afterInit (inherited.born capabilities) =
      inherited.settled capabilities := by
  rw [initCalls, List.foldl_append, ← Attributes.settled]
  simp only [List.foldl_cons, List.foldl_nil, Attributes.afterInit]

/-- The calls of the init after one more. -/
theorem foldl_afterInit_concat {done calls : List InitCall} {call : InitCall}
    {attributes : Attributes}
    (whole : done ++ call :: calls = initCalls outcomes.capabilities)
    (folded : attributes =
      done.foldl Attributes.afterInit (inherited.born outcomes.capabilities)) :
    (done ++ [call]) ++ calls = initCalls outcomes.capabilities ∧
      attributes.afterInit call =
        (done ++ [call]).foldl Attributes.afterInit (inherited.born outcomes.capabilities) := by
  refine ⟨by rw [← whole]; simp, ?_⟩
  rw [List.foldl_append, ← folded, List.foldl_cons, List.foldl_nil]

/-- **The fork.** -/
theorem Traced.forked (traced : Traced outcomes inherited state holdings) {calls : List InitCall}
    (isFork : state.init = .running (.fork :: calls)) :
    Traced outcomes inherited
      { state with command := .running commandSetup, init := .running calls }
      { holdings with command := holdings.init, leads := false } := by
  obtain ⟨done, whole, attributes⟩ := traced.running _ isFork
  obtain ⟨longer, after⟩ := foldl_afterInit_concat whole attributes
  have born : state.init ≠ .unborn := by simp [isFork]
  refine ⟨traced.preparing, traced.supervises, fun _ => traced.launched born, ?_, by simp, ?_,
    by simp, by simp⟩
  · intro rest running
    obtain rfl := Init.running.inj running
    exact ⟨_, longer, after⟩
  · intro rest setting
    refine ⟨[], Command.running.inj setting.symm, ?_, List.not_mem_nil.elim⟩
    rw [List.foldl_nil, Attributes.settled, ← done_of_fork whole, attributes]

/-- The init sets the process group of the command. -/
theorem Traced.grouped (traced : Traced outcomes inherited state holdings)
    {calls : List InitCall} (isGroup : state.init = .running (.setCommandGroup :: calls)) :
    Traced outcomes inherited { state with init := .running calls }
      { holdings with leads := holdings.leads || decide (state.command ≠ .executing) } := by
  obtain ⟨done, whole, attributes⟩ := traced.running _ isGroup
  obtain ⟨longer, after⟩ := foldl_afterInit_concat whole attributes
  have born : state.init ≠ .unborn := by simp [isGroup]
  refine ⟨traced.preparing, traced.supervises, fun _ => traced.launched born, ?_, by simp, ?_, ?_, ?_⟩
  · intro rest running
    obtain rfl := Init.running.inj running
    exact ⟨_, longer, after⟩
  · intro rest setting
    obtain ⟨done, whole, folded, leads⟩ := traced.setting rest setting
    exact ⟨done, whole, folded, fun member => by rw [leads member, Bool.true_or]⟩
  · intro ready
    obtain ⟨folded, leads⟩ := traced.ready ready
    exact ⟨folded, by rw [leads, Bool.true_or]⟩
  · intro executing
    obtain ⟨folded, leads⟩ := traced.executing executing
    exact ⟨folded, by rw [leads, Bool.true_or]⟩

/-- A call of the init that is passed. -/
theorem Traced.entered (traced : Traced outcomes inherited state holdings) {call : InitCall}
    {calls : List InitCall} (isNext : state.init = .running (call :: calls)) :
    Traced outcomes inherited { state.enter call with init := .running calls }
      (holdings.enter state call) := by
  obtain ⟨done, whole, attributes⟩ := traced.running _ isNext
  obtain ⟨longer, after⟩ := foldl_afterInit_concat whole attributes
  have running : ∀ rest, Init.running calls = .running rest →
      ∃ done, done ++ rest = initCalls outcomes.capabilities ∧
        holdings.init.afterInit call =
          done.foldl Attributes.afterInit (inherited.born outcomes.capabilities) := by
    intro rest same
    obtain rfl := Init.running.inj same
    exact ⟨_, longer, after⟩
  cases call with
  | fork => exact traced.forked isNext
  | setCommandGroup => exact traced.grouped isNext
  | _ => exact traced.setInit (by simp [isNext]) running (by simp)

/-- **One step of the init.** -/
theorem Traced.initStep (traced : Traced outcomes inherited state holdings) {after : Startup}
    (taken : state.initStep outcomes = some after) :
    Traced outcomes inherited after (holdings.initStep outcomes state) := by
  unfold Startup.initStep at taken
  split at taken
  · rename_i call calls running
    have born : state.init ≠ .unborn := by simp [running]
    obtain ⟨passed, passes, rfl⟩ := Option.map_eq_some_iff.mp taken
    cases passed with
    | true =>
        simp only [Holdings.initStep, running, passes, if_true]
        exact traced.entered running
    | false =>
        simp only [Holdings.initStep, running, passes, Option.some.injEq, Bool.false_eq_true,
          if_false]
        exact traced.setInit born (by simp) (by simp)
  · rename_i running
    have born : state.init ≠ .unborn := by simp [running]
    obtain rfl := Option.some.inj taken
    simp only [Holdings.initStep, running]
    obtain ⟨done, whole, attributes⟩ := traced.running _ running
    rw [List.append_nil] at whole
    refine traced.setInit born (by simp) fun _ => ?_
    rw [attributes, whole, foldl_initCalls]
  · rename_i supervising
    have born : state.init ≠ .unborn := by simp [supervising]
    have ends : ∀ death, Traced outcomes inherited { state with init := .ended death }
        (holdings.initStep outcomes state) := by
      intro death
      simp only [Holdings.initStep, supervising]
      exact traced.setInit born (by simp) (by simp)
    split at taken
    · obtain rfl := Option.some.inj taken
      exact ends _
    · split at taken
      · obtain rfl := Option.some.inj taken
        exact ends _
      · cases taken
  · cases taken
  · cases taken

/-- The process of the command changes, and the others do not. -/
theorem Traced.setCommand (traced : Traced outcomes inherited state holdings) {command : Command}
    {attributes : Attributes} {leads : Bool}
    (setting : ∀ calls, command = .running calls → ∃ done, done ++ calls = commandSetup ∧
      attributes = done.foldl Attributes.afterCommand (inherited.settled outcomes.capabilities) ∧
      (.setGroup ∈ done → leads = true))
    (ready : command = .ready →
      attributes = inherited.reset outcomes.capabilities ∧ leads = true)
    (executing : command = .executing →
      attributes = (inherited.reset outcomes.capabilities).afterCommand .execv ∧ leads = true) :
    Traced outcomes inherited { state with command := command }
      { holdings with command := attributes, leads := leads } where
  preparing := traced.preparing
  supervises := traced.supervises
  launched := traced.launched
  running := traced.running
  supervising := traced.supervising
  setting := setting
  ready := ready
  executing := executing

/-- **One step of the process of the command.** -/
theorem Traced.commandStep (traced : Traced outcomes inherited state holdings) {after : Startup}
    (taken : state.commandStep outcomes = some after) :
    Traced outcomes inherited after (holdings.commandStep outcomes state) := by
  unfold Startup.commandStep at taken
  split at taken
  · split at taken
    · rename_i call calls running
      obtain ⟨done, whole, folded, leads⟩ := traced.setting _ running
      split at taken
      · rename_i success
        obtain rfl := Option.some.inj taken
        simp only [Holdings.commandStep, running, success, if_true]
        refine traced.setCommand ?_ (by simp) (by simp)
        intro rest same
        obtain rfl := Command.running.inj same
        refine ⟨done ++ [call], by rw [← whole]; simp, ?_, fun member => ?_⟩
        · rw [List.foldl_append, ← folded, List.foldl_cons, List.foldl_nil]
        · rcases List.mem_append.mp member with earlier | last
          · rw [leads earlier, Bool.true_or]
          · rw [List.mem_singleton.mp last, decide_eq_true rfl, Bool.or_true]
      · rename_i failure
        obtain rfl := Option.some.inj taken
        simp only [Holdings.commandStep, running, failure, if_false]
        exact traced.setCommand (by simp) (by simp) (by simp)
    · rename_i running
      obtain rfl := Option.some.inj taken
      obtain ⟨done, whole, folded, leads⟩ := traced.setting _ running
      rw [List.append_nil] at whole
      simp only [Holdings.commandStep, running]
      refine traced.setCommand (by simp) (fun _ => ⟨?_, leads (by rw [whole]; decide)⟩) (by simp)
      rw [Attributes.reset, folded, whole]
    · rename_i isReady
      obtain ⟨folded, leads⟩ := traced.ready isReady
      split at taken
      · rename_i success
        obtain rfl := Option.some.inj taken
        simp only [Holdings.commandStep, isReady, success, if_true]
        exact traced.setCommand (by simp) (by simp) fun _ => ⟨by rw [folded], leads⟩
      · rename_i failure
        obtain rfl := Option.some.inj taken
        simp only [Holdings.commandStep, isReady, failure, if_false]
        exact traced.setCommand (by simp) (by simp) (by simp)
    · cases taken
  · cases taken

/-- **One event.** -/
theorem Traced.next (traced : Traced outcomes inherited state holdings)
    (staged : state.Staged outcomes) (steady : state.Steady outcomes) {event : StartupEvent}
    {after : Startup} (taken : state.next outcomes event = some after) :
    Traced outcomes inherited after (holdings.step outcomes state event) := by
  cases event with
  | launcher => exact traced.launcherStep staged steady taken
  | init => exact traced.initStep taken
  | command => exact traced.commandStep taken
  | initDies =>
      simp only [Startup.next] at taken
      split at taken
      · rename_i dies
        obtain rfl := Option.some.inj taken
        refine traced.setInit (fun unborn => ?_) (by simp) (by simp)
        rw [unborn] at dies
        cases dies.1
      · cases taken
  | launcherDies =>
      simp only [Startup.next] at taken
      split at taken
      · cases taken
      · obtain rfl := Option.some.inj taken
        exact traced.setLauncher (by simp) (by simp [Launcher.cloned])

/-- The processes run as their controls do. -/
theorem traced_of_run {events : List StartupEvent} {reached : Processes}
    (run : runEvents (Processes.next outcomes) (.start inherited) events = some reached) :
    runEvents (Startup.next outcomes) .start events = some reached.startup ∧
      Traced outcomes inherited reached.startup reached.holdings := by
  refine @runEvents_induction _ _ (Processes.next outcomes) (.start inherited)
    (fun events state => runEvents (Startup.next outcomes) .start events = some state.startup ∧
      Traced outcomes inherited state.startup state.holdings)
    ⟨rfl, traced_start outcomes inherited⟩ ?_ events reached run
  intro events before event after _ holds taken
  obtain ⟨earlier, traced⟩ := holds
  obtain ⟨startup, moved, rfl⟩ := Option.map_eq_some_iff.mp taken
  exact ⟨runEvents_concat_eq_some_iff.mpr ⟨before.startup, earlier, moved⟩,
    traced.next (staged_of_run earlier) (steady_of_run earlier) moved⟩

end Runs

/-! ## Confinement -/

section Confinement

variable {outcomes : Outcomes} {inherited : Attributes}

/-- The runtime does not get to the clone without its standard descriptors. -/
theorem present_of_granted
    (granted : ∀ call ∈ preparation ++ [LauncherCall.clone],
      (outcomes.seeing inherited).grants call = true) :
    ∀ descriptor < 3, descriptor ∈ inherited.descriptors := by
  intro descriptor small
  have member : LauncherCall.checkDescriptor descriptor ∈ preparation := by
    simpa [preparation] using small
  have checked := granted _ (List.mem_append_left _ member)
  by_contra absent
  simp [Outcomes.grants, Outcomes.seeing, absent] at checked

/-- **The command after `execv`.** -/
theorem executed_confined (present : ∀ descriptor < 3, descriptor ∈ inherited.descriptors)
    (capabilities : Nat) :
    inherited.Confined ((inherited.reset capabilities).afterCommand .execv) := by
  have supervises := settled_supervises inherited capabilities
  have powerless := settled_powerless inherited capabilities
  obtain ⟨sigpipe, others⟩ := settled_others inherited capabilities
  have descriptors := settled_descriptors inherited present capabilities
  rw [Attributes.reset, foldl_commandSetup]
  refine ⟨descriptors, afterCommand_powerless ⟨powerless.permitted, powerless.effective,
    powerless.inheritable, powerless.ambient, powerless.bounding, powerless.noNewPrivs⟩, ?_,
    ⟨sigpipe, rfl⟩, ?_⟩
  · intro signal
    refine ⟨rfl, ?_⟩
    cases signal with
    | sigchld =>
        simp only [Attributes.afterCommand, supervises.sigchld]
    | _ => rfl
  · intro number
    obtain ⟨blocked, disposition⟩ := others number
    refine ⟨blocked, ?_, ?_⟩
    · simp only [Attributes.afterCommand, disposition]
      cases inherited.disposition (.other number) <;> simp
    · simp only [Attributes.afterCommand, disposition]
      cases inherited.disposition (.other number) <;> simp

end Confinement

/-- **The command is confined.** In every run, whatever the caller of the runtime has opened,
blocked, ignored and is permitted, however many capabilities the kernel knows, and in whatever order
the processes take their steps: a launcher that has cloned and an init that supervises get their
signals; an init that supervises has no capabilities and only the standard descriptors; and so has
the command when it is executed, which leads a process group of its own, can gain no capability, and
has its signals unblocked and at their defaults as far as the runtime has touched them. -/
theorem command_confined (outcomes : Outcomes) (inherited : Attributes)
    {events : List StartupEvent} {state : Processes}
    (run : runEvents (Processes.next (outcomes.seeing inherited)) (.start inherited) events =
      some state) :
    (state.startup.launcher.cloned = true → state.holdings.launcher.Supervises) ∧
      (state.startup.init = .supervising → state.holdings.init.Supervises ∧
        state.holdings.init.Powerless ∧ state.holdings.init.descriptors = {0, 1, 2}) ∧
      (state.startup.command = .executing →
        inherited.Confined state.holdings.command ∧ state.holdings.leads = true) := by
  obtain ⟨control, traced⟩ := traced_of_run run
  have present : state.startup.init ≠ .unborn →
      ∀ descriptor < 3, descriptor ∈ inherited.descriptors :=
    fun born => present_of_granted (traced.launched born)
  refine ⟨traced.supervises, fun supervising => ?_, fun executing => ?_⟩
  · have born : state.startup.init ≠ .unborn := by simp [supervising]
    rw [traced.supervising supervising]
    exact ⟨settled_supervises inherited _, settled_powerless inherited _,
      settled_descriptors inherited (present born) _⟩
  · have born : state.startup.init ≠ .unborn := by
      intro unborn
      cases executing.symm.trans ((staged_of_run control).unforked (.inl unborn))
    obtain ⟨attributes, leads⟩ := traced.executing executing
    rw [attributes]
    exact ⟨executed_confined (present born) _, leads⟩

/-- The caller has a fourth descriptor open, blocks SIGTERM and ignores SIGHUP, SIGPIPE and another
signal. -/
def caller : Attributes where
  blocked := fun signal => signal = .waited .sigterm
  disposition := fun signal =>
    match signal with
    | .waited .sighup | .sigpipe | .other 20 => .ignored
    | _ => .default
  descriptors := {0, 1, 2, 7}
  names := fun _ => none
  permitted := ∅
  effective := ∅
  inheritable := ∅
  ambient := ∅
  bounding := Finset.range 41
  noNewPrivs := false

theorem command_confined_caller :
    ∃ state : Processes, state.startup.command = .executing ∧
      caller.Confined state.holdings.command := by
  have run : (runEvents (Processes.next (granted.seeing caller)) (.start caller)
      (List.replicate 26 StartupEvent.launcher ++ List.replicate 103 StartupEvent.init ++
        List.replicate 9 StartupEvent.command)).map (fun state => state.startup.command) =
          some .executing := by
    decide +kernel
  obtain ⟨state, ran, executing⟩ := Option.map_eq_some_iff.mp run
  exact ⟨state, executing, ((command_confined granted caller ran).2.2 executing).1⟩

end InfraFromScratch.Container
