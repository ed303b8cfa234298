import InfraFromScratch.Foundations.Transitions
import InfraFromScratch.Foundations.Words

/-!
# The supervisor of the container runtime

`supervise` in `container-runtime/runtime.c` runs twice: the launcher supervises the namespace
init, and the init, which is PID 1 in its namespace, supervises the command. Both have blocked
SIGCHLD and the four forwarded signals, which therefore stay pending until `sigwaitinfo` takes
them; equal pending signals are one. A child that exits becomes a zombie, and SIGCHLD pending.
`waitpid(-1, &status, WNOHANG)` reaps some zombie, and is not interrupted.

The supervisor and its environment take steps in any order: children exit, orphans are adopted
and signals arrive between any two calls of the supervisor. A pid is free again when its process
was reaped. An orphan that is a zombie already is adopted and exits at once.

A supervisor that waits for a signal while there is a zombie has SIGCHLD pending; it returns
when it has reaped its child, with the status of that child; it always has a child to wait
for, and signals its child only before it has reaped it. With both levels together, the exit
code of the launcher is that of the command (`supervise_preserves_status`). A supervisor whose
child is dead returns after finitely many steps of its own (`supervise_returns`).
-/

set_option autoImplicit false

namespace InfraFromScratch.Container

open Foundations

/-! ## What the kernel tells a parent -/

/-- The signals in `wait_signals`. -/
inductive Signal where
  | sigchld
  | sigint
  | sigterm
  | sighup
  | sigquit
  deriving DecidableEq

/-- How a process ends: it exits with a code, or a signal kills it. -/
inductive Death where
  | exited (code : UInt8)
  /-- The numbers of signals are 1 to 64. -/
  | killed (number : Nat) (valid : 1 ≤ number ∧ number ≤ 64) (coreDumped : Bool)
  deriving DecidableEq

/-- The status that `waitpid` stores. -/
def Death.waitStatus : Death → Nat
  | .exited code => code.toNat <<< 8
  | .killed number _ coreDumped => number ||| if coreDumped then 0x80 else 0

/-- The exit code, or 128 plus the signal. -/
def Death.code : Death → Nat
  | .exited code => code.toNat
  | .killed number _ _ => 128 + number

theorem Death.code_lt (death : Death) : death.code < 256 := by
  cases death with
  | exited code => exact code.toNat_lt
  | killed number valid coreDumped =>
      rw [code]
      omega

/-- `WTERMSIG`. -/
def wtermsig (status : Nat) : Nat := status &&& 0x7f

/-- `WIFEXITED`. -/
def wifexited (status : Nat) : Bool := wtermsig status == 0

/-- `WEXITSTATUS`. -/
def wexitstatus (status : Nat) : Nat := (status &&& 0xff00) >>> 8

/-- `exit_status`. -/
def exitStatus (status : Nat) : Nat :=
  if wifexited status then wexitstatus status else 128 + wtermsig status

/-- **`exit_status`** of the status of a dead child. -/
theorem exitStatus_waitStatus (death : Death) : exitStatus death.waitStatus = death.code := by
  cases death with
  | exited code =>
      revert code
      exact forall_byte (by decide +kernel)
  | killed number valid coreDumped =>
      have checked : ∀ number ≤ 64, 1 ≤ number → ∀ coreDumped : Bool,
          exitStatus (number ||| if coreDumped then 0x80 else 0) = 128 + number := by
        decide +kernel
      exact checked number valid.2 valid.1 coreDumped

/-- A child that was not reaped. -/
inductive Process where
  | running
  | zombie (death : Death)
  deriving DecidableEq

def Process.isZombie : Process → Bool
  | .running => false
  | .zombie _ => true

/-- The children of a process that were not reaped, by pid. -/
abbrev Children := AList fun _ : Nat => Process

def hasZombie (children : Children) : Bool := children.entries.any fun child => child.2.isZombie

theorem hasZombie_iff {children : Children} :
    hasZombie children = true ↔ ∃ pid death, children.lookup pid = some (.zombie death) := by
  rw [hasZombie, List.any_eq_true]
  constructor
  · rintro ⟨⟨pid, process⟩, member, isZombie⟩
    cases process with
    | running => cases isZombie
    | zombie death => exact ⟨pid, death, AList.mem_lookup_iff.mpr member⟩
  · rintro ⟨pid, death, found⟩
    exact ⟨⟨pid, .zombie death⟩, AList.mem_lookup_iff.mp found, rfl⟩

inductive Errno where
  | echild
  | eintr
  | esrch
  | eperm
  deriving DecidableEq

/-- The result of `waitpid(-1, &status, WNOHANG)`. -/
inductive WaitResult where
  | reaped (pid status : Nat)
  /-- No child has ended: `waitpid` returns 0. -/
  | nothing
  | failed (errno : Errno)
  deriving DecidableEq

/-- What `waitpid` does. It reaps the zombie that the kernel chooses; without a zombie there is
no choice. -/
def waitpid (children : Children) : Option Nat → Option (WaitResult × Children)
  | some pid =>
      match children.lookup pid with
      | some (.zombie death) => some (.reaped pid death.waitStatus, children.erase pid)
      | _ => none
  | none =>
      if hasZombie children then none
      else if children.entries = [] then some (.failed .echild, children)
      else some (.nothing, children)

/-! ## The loop -/

/-- Where the supervisor is: before a call of `waitpid`, of `sigwaitinfo` or of `kill`, or at
its end. -/
inductive Control where
  | reaping
  | waiting
  | forwarding (signal : Signal)
  | returned (code : Nat)
  /-- `fail(operation)`. -/
  | failed (operation : String)
  deriving DecidableEq

def Control.ended : Control → Bool
  | .returned _ | .failed _ => true
  | _ => false

/-- `RUNTIME_ERROR`. -/
def runtimeError : UInt8 := 125

/-- The exit code of a process that ends after `supervise`: the kernel keeps the low byte. -/
def Control.exitCode? : Control → Option UInt8
  | .returned code => some (UInt8.ofNat code)
  | .failed _ => some runtimeError
  | _ => none

/-- `supervise`, after `waitpid`. -/
def afterWaitpid (child : Nat) : WaitResult → Control
  | .reaped pid status => if pid = child then .returned (exitStatus status) else .reaping
  | .nothing => .waiting
  | .failed errno => if errno ≠ .eintr then .failed "waitpid" else .waiting

/-- `supervise`, after `sigwaitinfo`. -/
def afterSigwaitinfo : Except Errno Signal → Control
  | .ok received => if received ≠ .sigchld then .forwarding received else .reaping
  | .error errno => if errno = .eintr then .reaping else .failed "sigwaitinfo"

/-- `supervise`, after `kill`. -/
def afterKill : Except Errno Unit → Control
  | .ok () => .reaping
  | .error errno => if errno ≠ .esrch then .failed "forward signal" else .reaping

/-- The first argument of `kill`. -/
def killTarget (child : Nat) (processGroup : Bool) : Int := if processGroup then -child else child

/-- A supervisor with its pending signals and its children. -/
structure Supervision where
  control : Control
  pending : Finset Signal
  children : Children

inductive SuperviseEvent where
  /-- A child exits. -/
  | exit (pid : Nat) (death : Death)
  /-- An orphan becomes a child. -/
  | adopt (pid : Nat)
  | signal (signal : Signal)
  /-- `waitpid` reaps the given child, or finds no zombie. -/
  | waitpid (choice : Option Nat)
  /-- `sigwaitinfo` takes a pending signal, or is interrupted. -/
  | sigwaitinfo (received : Option Signal)
  /-- `kill` finds its target or not. Both processes run as the same user, so that it is
  permitted. -/
  | kill (target : Int) (found : Bool)
  deriving DecidableEq

/-- The steps of the supervisor itself. -/
def SuperviseEvent.own : SuperviseEvent → Bool
  | .waitpid _ | .sigwaitinfo (some _) | .kill _ _ => true
  | _ => false

/-- What an event does. A supervisor that has ended takes part in nothing. -/
def Supervision.next (child : Nat) (processGroup : Bool) (state : Supervision)
    (event : SuperviseEvent) : Option Supervision :=
  if state.control.ended then none
  else
    match event with
    | .exit pid death =>
        if state.children.lookup pid = some .running then
          some { state with
            children := state.children.insert pid (.zombie death)
            pending := insert .sigchld state.pending }
        else none
    | .adopt pid =>
        if state.children.lookup pid = none then
          some { state with children := state.children.insert pid .running }
        else none
    | .signal signal => some { state with pending := insert signal state.pending }
    | .waitpid choice =>
        if state.control = .reaping then
          (Container.waitpid state.children choice).map fun waited =>
            { state with control := afterWaitpid child waited.1, children := waited.2 }
        else none
    | .sigwaitinfo received =>
        if state.control = .waiting then
          match received with
          | some signal =>
              if signal ∈ state.pending then
                some { state with
                  control := afterSigwaitinfo (.ok signal), pending := state.pending.erase signal }
              else none
          | none => some { state with control := afterSigwaitinfo (.error .eintr) }
        else none
    | .kill target found =>
        match state.control with
        | .forwarding _ =>
            if target = killTarget child processGroup then
              some { state with
                control := afterKill (if found then .ok () else .error .esrch) }
            else none
        | _ => none

/-- A supervisor at the start of `supervise`. The child was created; what happened to it before
the first call counts as happening now. -/
structure Supervision.Starts (child : Nat) (state : Supervision) : Prop where
  control : state.control = .reaping
  child : state.children.lookup child = some .running

/-! ## The invariant -/

/-- The child was not reaped: it runs and has not exited, or it is a zombie and its exit is
among the events. -/
def Fate (child : Nat) (events : List SuperviseEvent) (children : Children) : Prop :=
  .waitpid (some child) ∉ events ∧
    ((children.lookup child = some .running ∧ ∀ death, .exit child death ∉ events) ∨
      ∃ death, children.lookup child = some (.zombie death) ∧
        ∀ other, .exit child other ∈ events ↔ other = death)

/-- The last event reaped the child, and the code is that of its exit. -/
structure Returns (child : Nat) (events : List SuperviseEvent) (code : Nat) (death : Death) :
    Prop where
  reaped : ∃ before, events = before ++ [.waitpid (some child)]
  exits : ∀ other, .exit child other ∈ events ↔ other = death
  code : code = death.code

/-- What holds after every run of a supervisor. -/
structure Guards (child : Nat) (events : List SuperviseEvent) (state : Supervision) : Prop where
  wakeup : state.control = .waiting → hasZombie state.children = true → .sigchld ∈ state.pending
  fate : state.control.ended = false → Fate child events state.children
  returns : ∀ code, state.control = .returned code → ∃ death, Returns child events code death
  neverFails : ∀ operation, state.control ≠ .failed operation

section Fate

variable {child pid : Nat} {events : List SuperviseEvent} {children : Children}

theorem Fate.lookup_ne_none (fate : Fate child events children) : children.lookup child ≠ none := by
  obtain ⟨-, ⟨running, -⟩ | ⟨death, zombie, -⟩⟩ := fate
  · rw [running]
    exact Option.some_ne_none _
  · rw [zombie]
    exact Option.some_ne_none _

/-- An event that neither is an exit of the child nor reaps it, and leaves it as it is. -/
theorem Fate.keep {event : SuperviseEvent} {after : Children} (fate : Fate child events children)
    (notReaped : event ≠ .waitpid (some child)) (other : ∀ death, event ≠ .exit child death)
    (same : after.lookup child = children.lookup child) :
    Fate child (events ++ [event]) after := by
  have unreaped : .waitpid (some child) ∉ events ++ [event] := by
    rw [List.mem_append, List.mem_singleton]
    rintro (earlier | here)
    · exact fate.1 earlier
    · exact notReaped here.symm
  have sameExits : ∀ death, .exit child death ∈ events ++ [event] ↔ .exit child death ∈ events := by
    intro death
    rw [List.mem_append, List.mem_singleton]
    exact ⟨fun member => member.resolve_right fun equal => other death equal.symm, .inl⟩
  refine ⟨unreaped, ?_⟩
  simpa only [same, sameExits] using fate.2

/-- The child exits. -/
theorem Fate.exit (fate : Fate child events children)
    (running : children.lookup child = some .running) (death : Death) :
    Fate child (events ++ [.exit child death]) (children.insert child (.zombie death)) := by
  obtain ⟨unreaped, ⟨-, unseen⟩ | ⟨_, zombie, -⟩⟩ := fate
  · refine ⟨by simpa using unreaped, .inr ⟨death, AList.lookup_insert _, ?_⟩⟩
    intro other
    rw [List.mem_append, List.mem_singleton]
    constructor
    · rintro (seen | equal)
      · exact absurd seen (unseen other)
      · exact (SuperviseEvent.exit.inj equal).2
    · rintro rfl
      exact .inr rfl
  · rw [running] at zombie
    cases zombie

end Fate

section Waitpid

variable {children after : Children} {result : WaitResult}

theorem waitpid_some {pid : Nat} (waited : waitpid children (some pid) = some (result, after)) :
    ∃ death, children.lookup pid = some (.zombie death) ∧
      result = .reaped pid death.waitStatus ∧ after = children.erase pid := by
  simp only [waitpid] at waited
  split at waited
  · rename_i death zombie
    obtain ⟨rfl, rfl⟩ := Prod.mk.inj (Option.some.inj waited)
    exact ⟨death, zombie, rfl, rfl⟩
  · cases waited

theorem waitpid_none {child : Nat} (present : children.lookup child ≠ none)
    (waited : waitpid children none = some (result, after)) :
    hasZombie children = false ∧ result = .nothing ∧ after = children := by
  simp only [waitpid] at waited
  split at waited
  · cases waited
  · rename_i noZombie
    split at waited
    · rename_i empty
      refine absurd ?_ present
      rw [AList.lookup_eq_none]
      intro member
      obtain ⟨process, entry⟩ := List.mem_keys.mp (AList.mem_keys.mp member)
      rw [empty] at entry
      cases entry
    · obtain ⟨rfl, rfl⟩ := Prod.mk.inj (Option.some.inj waited)
      exact ⟨Bool.eq_false_iff.mpr noZombie, rfl, rfl⟩

end Waitpid

section Step

variable {child : Nat} {processGroup : Bool} {events : List SuperviseEvent}
  {state after : Supervision}

theorem guards_start (starts : state.Starts child) : Guards child [] state where
  wakeup := by
    intro waiting
    rw [starts.control] at waiting
    cases waiting
  fate := fun _ => ⟨List.not_mem_nil, .inl ⟨starts.child, fun _ => List.not_mem_nil⟩⟩
  returns := by
    intro code returned
    rw [starts.control] at returned
    cases returned
  neverFails := by
    intro operation failed
    rw [starts.control] at failed
    cases failed

/-- A step into a state that goes on. -/
theorem guards_of_running {event : SuperviseEvent} (running : after.control.ended = false)
    (wakeup : after.control = .waiting → hasZombie after.children = true →
      .sigchld ∈ after.pending)
    (fate : Fate child (events ++ [event]) after.children) :
    Guards child (events ++ [event]) after where
  wakeup := wakeup
  fate := fun _ => fate
  returns := by
    intro code returned
    rw [returned] at running
    cases running
  neverFails := by
    intro operation failed
    rw [failed] at running
    cases running

/-- `waitpid`. -/
theorem guards_waitpid {choice : Option Nat} {result : WaitResult} {children : Children}
    (fate : Fate child events state.children)
    (waited : waitpid state.children choice = some (result, children)) :
    Guards child (events ++ [.waitpid choice])
      { state with control := afterWaitpid child result, children := children } := by
  cases choice with
  | none =>
      obtain ⟨noZombie, rfl, rfl⟩ := waitpid_none fate.lookup_ne_none waited
      refine guards_of_running rfl ?_ (fate.keep nofun (fun _ => nofun) rfl)
      intro _ zombie
      rw [noZombie] at zombie
      cases zombie
  | some pid =>
      obtain ⟨death, zombie, rfl, rfl⟩ := waitpid_some waited
      by_cases isChild : pid = child
      · subst isChild
        have control : afterWaitpid pid (.reaped pid death.waitStatus) = .returned death.code := by
          rw [afterWaitpid, if_pos rfl, exitStatus_waitStatus]
        obtain ⟨-, ⟨running, -⟩ | ⟨other, same, exits⟩⟩ := fate
        · rw [zombie] at running
          cases running
        · obtain rfl : death = other := by
            rw [zombie] at same
            exact Process.zombie.inj (Option.some.inj same)
          rw [control]
          refine ⟨nofun, nofun, ?_, fun _ => nofun⟩
          rintro code ⟨⟩
          refine ⟨death, ⟨events, rfl⟩, ?_, rfl⟩
          intro other
          rw [← exits other]
          simp
      · have control : afterWaitpid child (.reaped pid death.waitStatus) = .reaping := by
          rw [afterWaitpid, if_neg isChild]
        rw [control]
        have other : SuperviseEvent.waitpid (some pid) ≠ .waitpid (some child) := by
          intro same
          exact isChild (Option.some.inj (SuperviseEvent.waitpid.inj same))
        refine guards_of_running rfl nofun (fate.keep other (fun _ => nofun) ?_)
        exact AList.lookup_erase_ne (Ne.symm isChild)

/-- **One event** keeps the guards. -/
theorem Guards.next (guards : Guards child events state) {event : SuperviseEvent}
    (taken : state.next child processGroup event = some after) :
    Guards child (events ++ [event]) after := by
  unfold Supervision.next at taken
  split at taken
  · cases taken
  rename_i goesOn
  have running : state.control.ended = false := Bool.eq_false_iff.mpr goesOn
  have fate := guards.fate running
  cases event with
  | exit pid death =>
      dsimp only at taken
      split at taken
      · rename_i alive
        obtain rfl := Option.some.inj taken
        refine guards_of_running running (fun _ _ => Finset.mem_insert_self _ _) ?_
        by_cases isChild : pid = child
        · subst isChild
          exact fate.exit alive death
        · refine fate.keep nofun (fun _ equal => isChild (SuperviseEvent.exit.inj equal).1) ?_
          exact AList.lookup_insert_ne (Ne.symm isChild)
      · cases taken
  | adopt pid =>
      dsimp only at taken
      split at taken
      · rename_i free
        obtain rfl := Option.some.inj taken
        have differs : child ≠ pid := by
          rintro rfl
          exact fate.lookup_ne_none free
        refine guards_of_running running ?_
          (fate.keep nofun (fun _ => nofun) (AList.lookup_insert_ne differs))
        intro waiting zombie
        obtain ⟨other, death, found⟩ := hasZombie_iff.mp zombie
        refine guards.wakeup waiting (hasZombie_iff.mpr ⟨other, death, ?_⟩)
        by_cases same : other = pid
        · subst same
          rw [AList.lookup_insert] at found
          cases found
        · rwa [AList.lookup_insert_ne same] at found
      · cases taken
  | signal signal =>
      obtain rfl := Option.some.inj taken
      refine guards_of_running running ?_ (fate.keep nofun (fun _ => nofun) rfl)
      intro waiting zombie
      exact Finset.mem_insert_of_mem (guards.wakeup waiting zombie)
  | waitpid choice =>
      dsimp only at taken
      split at taken
      · obtain ⟨⟨result, children⟩, waited, rfl⟩ := Option.map_eq_some_iff.mp taken
        exact guards_waitpid fate waited
      · cases taken
  | sigwaitinfo received =>
      dsimp only at taken
      split at taken
      · cases received with
        | none =>
            obtain rfl := Option.some.inj taken
            exact guards_of_running rfl nofun (fate.keep nofun (fun _ => nofun) rfl)
        | some signal =>
            dsimp only at taken
            split at taken
            · obtain rfl := Option.some.inj taken
              -- Whatever the signal is, the supervisor does not wait again before it has reaped.
              cases signal <;>
                exact guards_of_running rfl nofun (fate.keep nofun (fun _ => nofun) rfl)
            · cases taken
      · cases taken
  | kill target found =>
      dsimp only at taken
      split at taken
      · split at taken
        · obtain rfl := Option.some.inj taken
          cases found <;> exact guards_of_running rfl nofun (fate.keep nofun (fun _ => nofun) rfl)
        · cases taken
      · cases taken

/-- **A run** keeps the guards. -/
theorem guards_of_run {start : Supervision} (starts : start.Starts child)
    (run : runEvents (Supervision.next child processGroup) start events = some state) :
    Guards child events state :=
  runEvents_induction (guards_start starts) (fun _ _ _ _ _ guards taken => guards.next taken) run

/-- A signal is sent only to the child or its group, and before the child was reaped. -/
theorem unreaped_of_kill {start : Supervision} (starts : start.Starts child)
    (run : runEvents (Supervision.next child processGroup) start events = some state)
    {before later : List SuperviseEvent} {target : Int} {found : Bool}
    (split : events = before ++ .kill target found :: later) :
    target = killTarget child processGroup ∧ .waitpid (some child) ∉ before ∧
      ∃ moment, runEvents (Supervision.next child processGroup) start before = some moment ∧
        moment.children.lookup child ≠ none := by
  rw [split, runEvents_append, Option.bind_eq_some_iff] at run
  obtain ⟨moment, earlier, rest⟩ := run
  rw [runEvents_cons, Option.bind_eq_some_iff] at rest
  obtain ⟨next, taken, -⟩ := rest
  unfold Supervision.next at taken
  split at taken
  · cases taken
  · rename_i goesOn
    have fate := (guards_of_run starts earlier).fate (Bool.eq_false_iff.mpr goesOn)
    dsimp only at taken
    split at taken
    · split at taken
      · rename_i aimed
        exact ⟨aimed, fate.1, moment, earlier, fate.lookup_ne_none⟩
      · cases taken
    · cases taken

end Step

/-! ## The supervisor returns -/

/-- How many steps the supervisor still takes by itself. -/
def Supervision.rank (state : Supervision) : Nat :=
  3 * state.pending.card + state.children.keys.length +
    match state.control with
    | .reaping => 1
    | .forwarding _ => 2
    | _ => 0

section Progress

variable {child : Nat} {processGroup : Bool} {events : List SuperviseEvent}
  {state after : Supervision}

theorem rank_lt_of_reaped {pid : Nat} {result : WaitResult} {children : Children}
    (reaping : state.control = .reaping)
    (waited : waitpid state.children (some pid) = some (result, children)) :
    Supervision.rank { state with control := afterWaitpid child result, children := children } <
      state.rank := by
  obtain ⟨death, zombie, rfl, rfl⟩ := waitpid_some waited
  have member : pid ∈ state.children.keys :=
    AList.mem_keys.mp (AList.lookup_isSome.mp (by rw [zombie]; rfl))
  have fewer : (state.children.erase pid).keys.length + 1 = state.children.keys.length := by
    rw [AList.keys_erase, List.length_erase_add_one member]
  by_cases isChild : pid = child
  · simp only [Supervision.rank, afterWaitpid, isChild, if_true, reaping] at fewer ⊢
    omega
  · simp only [Supervision.rank, afterWaitpid, isChild, if_false, reaping]
    omega

theorem rank_lt_of_nothing {result : WaitResult} {children : Children}
    (reaping : state.control = .reaping)
    (waited : waitpid state.children none = some (result, children)) :
    Supervision.rank { state with control := afterWaitpid child result, children := children } <
      state.rank := by
  simp only [waitpid] at waited
  split at waited
  · cases waited
  · split at waited <;>
    · obtain ⟨rfl, rfl⟩ := Prod.mk.inj (Option.some.inj waited)
      simp [Supervision.rank, afterWaitpid, reaping]

/-- **Every step** of the supervisor lowers its rank. -/
theorem rank_lt_of_own {event : SuperviseEvent} (own : event.own = true)
    (taken : state.next child processGroup event = some after) : after.rank < state.rank := by
  unfold Supervision.next at taken
  split at taken
  · cases taken
  cases event with
  | exit | adopt | signal => cases own
  | waitpid choice =>
      dsimp only at taken
      split at taken
      · rename_i reaping
        obtain ⟨⟨result, children⟩, waited, rfl⟩ := Option.map_eq_some_iff.mp taken
        cases choice with
        | none => exact rank_lt_of_nothing reaping waited
        | some pid => exact rank_lt_of_reaped reaping waited
      · cases taken
  | sigwaitinfo received =>
      cases received with
      | none => cases own
      | some signal =>
          dsimp only at taken
          split at taken
          · rename_i waiting
            split at taken
            · rename_i pending
              obtain rfl := Option.some.inj taken
              have fewer := Finset.card_erase_lt_of_mem pending
              cases signal <;> simp [Supervision.rank, afterSigwaitinfo, waiting] <;> omega
            · cases taken
          · cases taken
  | kill target found =>
      dsimp only at taken
      split at taken
      · rename_i signal forwarding
        split at taken
        · obtain rfl := Option.some.inj taken
          cases found <;> simp [Supervision.rank, afterKill, forwarding]
        · cases taken
      · cases taken

/-- **No lost wakeup.** With a dead child there is a next step of the supervisor. -/
theorem exists_own_step {death : Death} (guards : Guards child events state)
    (running : state.control.ended = false)
    (dead : state.children.lookup child = some (.zombie death)) :
    ∃ event after, event.own = true ∧ state.next child processGroup event = some after := by
  have zombie : hasZombie state.children = true := hasZombie_iff.mpr ⟨child, death, dead⟩
  cases control : state.control with
  | reaping =>
      exact ⟨.waitpid (some child), _, rfl, by
        simp only [Supervision.next, control, Control.ended, waitpid, dead]; rfl⟩
  | waiting =>
      have pending := guards.wakeup control zombie
      exact ⟨.sigwaitinfo (some .sigchld), _, rfl, by
        simp only [Supervision.next, control, Control.ended, pending]; rfl⟩
  | forwarding signal =>
      exact ⟨.kill (killTarget child processGroup) true, _, rfl, by
        simp only [Supervision.next, control, Control.ended]; rfl⟩
  | returned code =>
      rw [control] at running
      cases running
  | failed operation =>
      rw [control] at running
      cases running

/-- **The supervisor of a dead child returns.** It takes no more steps of its own than its rank
says, and when it can take no more it has returned the status of the child. -/
theorem supervise_returns {start : Supervision} (starts : start.Starts child)
    (run : runEvents (Supervision.next child processGroup) start events = some state)
    (running : state.control.ended = false) {death : Death}
    (dead : state.children.lookup child = some (.zombie death))
    {steps : List SuperviseEvent} (own : ∀ event ∈ steps, event.own = true)
    (ran : runEvents (Supervision.next child processGroup) state steps = some after) :
    steps.length ≤ state.rank ∧
      ((∀ event, event.own = true → after.next child processGroup event = none) →
        after.control = .returned death.code) := by
  have bound : steps.length ≤ state.rank :=
    @runEvents_length_le _ _ _ (fun _ => True) (fun event => event.own = true) Supervision.rank
      (fun _ _ _ _ own taken => ⟨trivial, rank_lt_of_own own taken⟩) _ _ trivial _ own ran
  refine ⟨bound, fun stuck => ?_⟩
  have guards : Guards child (events ++ steps) after :=
    guards_of_run starts (by rw [runEvents_append, run, Option.bind_some, ran])
  have exited : .exit child death ∈ events ++ steps := by
    obtain ⟨-, ⟨alive, -⟩ | ⟨other, zombie, exits⟩⟩ := (guards_of_run starts run).fate running
    · rw [dead] at alive
      cases alive
    · rw [dead] at zombie
      exact List.mem_append_left _ ((exits death).mpr (Process.zombie.inj (Option.some.inj zombie)))
  cases ended : after.control.ended with
  | false =>
      obtain ⟨-, ⟨-, unseen⟩ | ⟨other, zombie, -⟩⟩ := guards.fate ended
      · exact absurd exited (unseen death)
      · obtain ⟨event, next, own, taken⟩ := exists_own_step guards ended zombie
        rw [stuck event own] at taken
        cases taken
  | true =>
      cases control : after.control with
      | returned code =>
          obtain ⟨other, returns⟩ := guards.returns code control
          rw [returns.code, (returns.exits death).mp exited]
      | failed operation => exact absurd control (guards.neverFails operation)
      | reaping | waiting | forwarding =>
          rw [control] at ended
          cases ended

end Progress

/-! ## Two levels -/

/-- The launcher, which supervises the namespace init, and the init, which supervises the
command. -/
structure Levels where
  launcher : Supervision
  init : Supervision

inductive LevelEvent where
  /-- An event that the launcher does not share with the init. -/
  | launcher (event : SuperviseEvent)
  | init (event : SuperviseEvent)
  /-- `kill` of the launcher makes its signal pending for the init. -/
  | forward
  /-- The init exits with what its `supervise` gave. Nobody outside kills it. -/
  | initExits
  deriving DecidableEq

/-- The event is neither the exit of the child nor a signal to it. -/
def SuperviseEvent.unshared (child : Nat) : SuperviseEvent → Bool
  | .exit pid _ => pid != child
  | .kill _ found => !found
  | _ => true

/-- What an event does, with the pid of the init for the launcher and that of the command for
the init. -/
def Levels.next (initPid commandPid : Nat) (levels : Levels) : LevelEvent → Option Levels
  | .launcher event =>
      if event.unshared initPid then
        (levels.launcher.next initPid false event).map fun launcher => { levels with launcher }
      else none
  | .init event => (levels.init.next commandPid true event).map fun init => { levels with init }
  | .forward =>
      match levels.launcher.control with
      | .forwarding signal =>
          (levels.launcher.next initPid false (.kill (killTarget initPid false) true)).map
            fun launcher =>
              ⟨launcher, (levels.init.next commandPid true (.signal signal)).getD levels.init⟩
      | _ => none
  | .initExits =>
      levels.init.control.exitCode?.bind fun code =>
        (levels.launcher.next initPid false (.exit initPid (.exited code))).map
          fun launcher => { levels with launcher }

/-- Each level made a run of `supervise`; the exit of the init is that of its run, and the exit
of the command is among the events of both levels. -/
structure LevelRuns (initPid commandPid : Nat) (start : Levels) (events : List LevelEvent)
    (levels : Levels) : Prop where
  launcher : ∃ own, runEvents (Supervision.next initPid false) start.launcher own =
      some levels.launcher ∧
    ∀ death, .exit initPid death ∈ own →
      ∃ code, levels.init.control.exitCode? = some code ∧ death = .exited code
  init : ∃ own, runEvents (Supervision.next commandPid true) start.init own = some levels.init ∧
    ∀ death, .exit commandPid death ∈ own ↔ .init (.exit commandPid death) ∈ events

section Levels

variable {initPid commandPid : Nat} {start levels after : Levels} {events : List LevelEvent}

/-- A supervisor that has ended stays as it is. -/
theorem Supervision.next_of_ended {child : Nat} {processGroup : Bool} {state : Supervision}
    {code : UInt8} (ended : state.control.exitCode? = some code) (event : SuperviseEvent) :
    state.next child processGroup event = none := by
  cases control : state.control with
  | returned | failed => simp only [Supervision.next, control, Control.ended, if_true]
  | reaping | waiting | forwarding =>
      rw [control] at ended
      cases ended

/-- **One event** of the two levels. -/
theorem LevelRuns.next (runs : LevelRuns initPid commandPid start events levels)
    {event : LevelEvent} (taken : levels.next initPid commandPid event = some after) :
    LevelRuns initPid commandPid start (events ++ [event]) after := by
  obtain ⟨⟨launcherEvents, launcherRun, launcherExit⟩, initEvents, initRun, initExit⟩ := runs
  have keepsInit : (∀ initEvent, event ≠ .init initEvent) → ∀ death,
      .exit commandPid death ∈ initEvents ↔ .init (.exit commandPid death) ∈ events ++ [event] := by
    intro other death
    rw [initExit, List.mem_append, List.mem_singleton]
    exact ⟨.inl, fun member => member.resolve_right fun same => other _ same.symm⟩
  cases event with
  | launcher event =>
      simp only [Levels.next] at taken
      split at taken
      · rename_i unshared
        obtain ⟨launcher, step, rfl⟩ := Option.map_eq_some_iff.mp taken
        refine ⟨⟨launcherEvents ++ [event],
          runEvents_concat_eq_some_iff.mpr ⟨_, launcherRun, step⟩, ?_⟩,
          initEvents, initRun, keepsInit (fun _ => nofun)⟩
        intro death member
        rcases List.mem_append.mp member with earlier | here
        · exact launcherExit death earlier
        · rw [← List.mem_singleton.mp here] at unshared
          simp [SuperviseEvent.unshared] at unshared
      · cases taken
  | init event =>
      simp only [Levels.next] at taken
      obtain ⟨init, step, rfl⟩ := Option.map_eq_some_iff.mp taken
      refine ⟨⟨launcherEvents, launcherRun, ?_⟩, initEvents ++ [event],
        runEvents_concat_eq_some_iff.mpr ⟨_, initRun, step⟩, ?_⟩
      · intro death member
        obtain ⟨code, ended, _⟩ := launcherExit death member
        rw [Supervision.next_of_ended ended] at step
        cases step
      · intro death
        rw [List.mem_append, List.mem_append, initExit, List.mem_singleton, List.mem_singleton,
          LevelEvent.init.injEq]
  | forward =>
      simp only [Levels.next] at taken
      split at taken
      · rename_i signal forwarding
        obtain ⟨launcher, step, rfl⟩ := Option.map_eq_some_iff.mp taken
        have launcherRun' := runEvents_concat_eq_some_iff.mpr ⟨_, launcherRun, step⟩
        have sameExits : ∀ death, .exit initPid death ∈ launcherEvents ++
            [.kill (killTarget initPid false) true] → .exit initPid death ∈ launcherEvents := by
          intro death member
          simpa using member
        cases arrived : levels.init.next commandPid true (.signal signal) with
        | none =>
            exact ⟨⟨_, launcherRun', fun death member =>
              launcherExit death (sameExits death member)⟩, initEvents, initRun,
              keepsInit (fun _ => nofun)⟩
        | some init =>
            refine ⟨⟨_, launcherRun', ?_⟩, initEvents ++ [.signal signal],
              runEvents_concat_eq_some_iff.mpr ⟨_, initRun, arrived⟩, ?_⟩
            · intro death member
              obtain ⟨code, ended, _⟩ := launcherExit death (sameExits death member)
              rw [Supervision.next_of_ended ended] at arrived
              cases arrived
            · intro death
              rw [← keepsInit (fun _ => nofun)]
              simp
      · cases taken
  | initExits =>
      simp only [Levels.next] at taken
      obtain ⟨code, ended, exited⟩ := Option.bind_eq_some_iff.mp taken
      obtain ⟨launcher, step, rfl⟩ := Option.map_eq_some_iff.mp exited
      refine ⟨⟨launcherEvents ++ [.exit initPid (.exited code)],
        runEvents_concat_eq_some_iff.mpr ⟨_, launcherRun, step⟩, ?_⟩,
        initEvents, initRun, keepsInit (fun _ => nofun)⟩
      intro death member
      rcases List.mem_append.mp member with earlier | here
      · exact launcherExit death earlier
      · exact ⟨code, ended, (SuperviseEvent.exit.inj (List.mem_singleton.mp here)).2⟩

/-- **A run** of the two levels is a run of `supervise` on each. -/
theorem levelRuns_of_run
    (run : runEvents (Levels.next initPid commandPid) start events = some levels) :
    LevelRuns initPid commandPid start events levels :=
  runEvents_induction ⟨⟨[], rfl, fun _ => nofun⟩, [], rfl, by simp⟩
    (fun _ _ _ _ _ runs taken => runs.next taken) run

/-- The exit code of a supervisor is the status of its child. -/
theorem exitCode_eq {child : Nat} {events : List SuperviseEvent} {state : Supervision}
    {code : UInt8} (guards : Guards child events state)
    (ended : state.control.exitCode? = some code) :
    ∃ death, (∀ other, .exit child other ∈ events ↔ other = death) ∧
      code.toNat = death.code := by
  cases control : state.control with
  | returned number =>
      obtain ⟨death, returns⟩ := guards.returns number control
      rw [control] at ended
      obtain rfl := Option.some.inj ended
      refine ⟨death, returns.exits, ?_⟩
      rw [returns.code]
      exact Nat.mod_eq_of_lt death.code_lt
  | failed operation => exact absurd control (guards.neverFails operation)
  | reaping | waiting | forwarding =>
      rw [control] at ended
      cases ended

end Levels

/-- What the supervisor of a child does in a run. -/
structure Supervises (child : Nat) (processGroup : Bool) (start : Supervision)
    (events : List SuperviseEvent) (state : Supervision) : Prop where
  wakeup : state.control = .waiting → hasZombie state.children = true → .sigchld ∈ state.pending
  returns : ∀ code, state.control = .returned code → ∃ death, Returns child events code death
  neverFails : ∀ operation, state.control ≠ .failed operation
  kills : ∀ before target found later, events = before ++ .kill target found :: later →
    target = killTarget child processGroup ∧ .waitpid (some child) ∉ before ∧
      ∃ moment, runEvents (Supervision.next child processGroup) start before = some moment ∧
        moment.children.lookup child ≠ none

/-- **The supervisor.** In every order of its steps with exits, adoptions and signals, it loses
no wakeup, returns only the status of the child it has reaped, never fails, and signals only a
child that was not reaped. With both levels, the exit code of the launcher is the exit code of
the command, or 128 plus the signal that killed it. -/
theorem supervise_preserves_status :
    (∀ (child : Nat) (processGroup : Bool) (start : Supervision) (events : List SuperviseEvent)
        (state : Supervision), start.Starts child →
      runEvents (Supervision.next child processGroup) start events = some state →
      Supervises child processGroup start events state) ∧
    ∀ (initPid commandPid : Nat) (start : Levels) (events : List LevelEvent) (levels : Levels)
        (code : UInt8), start.launcher.Starts initPid → start.init.Starts commandPid →
      runEvents (Levels.next initPid commandPid) start events = some levels →
      levels.launcher.control.exitCode? = some code →
      ∃ death, (∀ other, .init (.exit commandPid other) ∈ events ↔ other = death) ∧
        code.toNat = death.code := by
  constructor
  · intro child processGroup start events state starts run
    have guards := guards_of_run starts run
    exact ⟨guards.wakeup, guards.returns, guards.neverFails,
      fun _ _ _ _ split => unreaped_of_kill starts run split⟩
  · intro initPid commandPid start events levels code launcherStarts initStarts run ended
    obtain ⟨⟨launcherEvents, launcherRun, launcherExit⟩, initEvents, initRun, initExit⟩ :=
      levelRuns_of_run run
    obtain ⟨initDeath, initExits, launcherCode⟩ :=
      exitCode_eq (guards_of_run launcherStarts launcherRun) ended
    obtain ⟨initCode, initEnded, rfl⟩ := launcherExit initDeath ((initExits initDeath).mpr rfl)
    obtain ⟨death, exits, commandCode⟩ := exitCode_eq (guards_of_run initStarts initRun) initEnded
    refine ⟨death, fun other => (initExit other).symm.trans (exits other), ?_⟩
    rw [launcherCode, ← commandCode]
    rfl

/-- A supervisor of the given child alone. -/
def Supervision.of (child : Nat) : Supervision :=
  ⟨.reaping, ∅, AList.singleton child .running⟩

theorem Supervision.starts_of (child : Nat) : (Supervision.of child).Starts child where
  control := rfl
  child := by simp [Supervision.of, AList.singleton, AList.lookup]

/-- The launcher passes SIGTERM on, an orphan dies before the command, and SIGTERM kills the
command. -/
def terminatedRun : List LevelEvent :=
  [.launcher (.waitpid none), .launcher (.signal .sigterm), .init (.waitpid none),
    .launcher (.sigwaitinfo (some .sigterm)), .forward, .init (.adopt 7),
    .init (.exit 7 (.exited 3)), .init (.sigwaitinfo (some .sigterm)), .init (.kill (-2) true),
    .init (.exit 2 (.killed 15 (by decide) false)), .init (.waitpid (some 7)),
    .init (.waitpid (some 2)), .initExits, .launcher (.waitpid (some 40))]

theorem supervise_preserves_status_terminated :
    ∃ levels death, runEvents (Levels.next 40 2) ⟨.of 40, .of 2⟩ terminatedRun = some levels ∧
      levels.launcher.control = .returned 143 ∧
      (∀ other, .init (.exit 2 other) ∈ terminatedRun ↔ other = death) ∧ death.code = 143 := by
  have returned : (runEvents (Levels.next 40 2) ⟨.of 40, .of 2⟩ terminatedRun).map
      (fun levels => levels.launcher.control) = some (.returned 143) := by decide +kernel
  obtain ⟨levels, run, control⟩ := Option.map_eq_some_iff.mp returned
  obtain ⟨death, exits, code⟩ := supervise_preserves_status.2 40 2 ⟨.of 40, .of 2⟩ terminatedRun
    levels 143 (Supervision.starts_of 40) (Supervision.starts_of 2) run (by rw [control]; rfl)
  exact ⟨levels, death, run, control, exits, code.symm⟩

end InfraFromScratch.Container
