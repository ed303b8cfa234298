import InfraFromScratch.Container.FailClosed

/-!
# The attributes of a process

A process inherits from its parent which signals it blocks, ignores or handles, which descriptors it
has open, its capabilities and whether `execve` can give it new privileges. The three processes of
the runtime change all of these, one system call at a time: the launcher blocks and handles the
signals that it waits for and ignores SIGPIPE; the clone enters a new user namespace, in which it
has all capabilities; the init closes its descriptors and drops its capabilities; the command undoes
what the launcher has done to the signals.

Here is what each call does, and what the calls of each process come to when all are made. The loop
of `drop_capabilities` empties the bounding set, however many capabilities the kernel knows
(`foldl_capabilityLoop`). Sessions and mounts are left out.
-/

set_option autoImplicit false

namespace InfraFromScratch.Container

/-! ## The attributes of a process -/

/-- The signals that the runtime waits for, SIGPIPE, and all others. -/
inductive ProcessSignal where
  | waited (signal : Signal)
  | sigpipe
  | other (number : Nat)
  deriving DecidableEq

inductive Disposition where
  | default
  | ignored
  | handled
  deriving DecidableEq

/-- What the descriptors that the runtime opens are called in the source. -/
inductive DescriptorName where
  | root
  | proc
  | parent
  | readyRead
  | readyWrite
  | map
  | reopened
  deriving DecidableEq

/-- The attributes of a process. Capabilities are the numbers below that of the kernel's first
unknown one. -/
structure Attributes where
  blocked : ProcessSignal → Bool
  disposition : ProcessSignal → Disposition
  descriptors : Finset Nat
  names : DescriptorName → Option Nat
  permitted : Finset Nat
  effective : Finset Nat
  inheritable : Finset Nat
  ambient : Finset Nat
  bounding : Finset Nat
  noNewPrivs : Bool

/-- The lowest number that is not an open descriptor. -/
def lowestFree (descriptors : Finset Nat) : Nat :=
  Nat.find (Infinite.exists_notMem_finset descriptors)

theorem lowestFree_notMem (descriptors : Finset Nat) : lowestFree descriptors ∉ descriptors :=
  Nat.find_spec (Infinite.exists_notMem_finset descriptors)

namespace Attributes

def opens (attributes : Attributes) (name : DescriptorName) : Attributes :=
  { attributes with
    descriptors := insert (lowestFree attributes.descriptors) attributes.descriptors
    names := Function.update attributes.names name (some (lowestFree attributes.descriptors)) }

def closes (attributes : Attributes) (name : DescriptorName) : Attributes :=
  match attributes.names name with
  | some descriptor => { attributes with descriptors := attributes.descriptors.erase descriptor }
  | none => attributes

def setBlocked (attributes : Attributes) (blocked : Bool) : Attributes :=
  { attributes with
    blocked := fun signal =>
      match signal with
      | .waited _ => blocked
      | signal => attributes.blocked signal }

def sigaction (attributes : Attributes) (signal : ProcessSignal) (disposition : Disposition) :
    Attributes :=
  { attributes with disposition := Function.update attributes.disposition signal disposition }

/-- What a call of the launcher does if it succeeds. -/
def afterLauncher (attributes : Attributes) : LauncherCall → Attributes
  | .openRootfs => attributes.opens .root
  | .openProc => (attributes.opens .proc).closes .proc
  | .blockSignals => attributes.setBlocked true
  | .handleSignal signal => attributes.sigaction (.waited signal) .handled
  | .resetSigchld => attributes.sigaction (.waited .sigchld) .default
  | .ignoreSigpipe => attributes.sigaction .sigpipe .ignored
  | .openPidfd => attributes.opens .parent
  | .openPipe => (attributes.opens .readyRead).opens .readyWrite
  | .openMap _ => attributes.opens .map
  | .writeMap _ => attributes.closes .map
  | _ => attributes

/-- What `clone` with a new user namespace makes of the attributes of the launcher, up to the first
`close` of `run_container`. -/
def cloned (attributes : Attributes) (capabilities : Nat) : Attributes :=
  closes
    { attributes with
      permitted := Finset.range capabilities
      effective := Finset.range capabilities
      inheritable := ∅
      ambient := ∅
      bounding := Finset.range capabilities }
    .readyWrite

/-- What a call of the init does if it is passed, up to the `close` that follows it. -/
def afterInit (attributes : Attributes) : InitCall → Attributes
  | .pollParent => attributes.closes .parent
  | .readReady => attributes.closes .readyRead
  | .openRoot => attributes.opens .reopened
  | .closeRange => { attributes with descriptors := attributes.descriptors.filter (· < 3) }
  | .dropCapability capability =>
      { attributes with bounding := attributes.bounding.erase capability }
  | .setCapabilities =>
      { attributes with permitted := ∅, effective := ∅, inheritable := ∅, ambient := ∅ }
  | .setNoNewPrivs => { attributes with noNewPrivs := true }
  | _ => attributes

/-- What a call of the process of the command does if it succeeds. `execv` makes handled signals
default ones, and gives user 0 the capabilities that are inheritable or in the bounding set, but
after `PR_SET_NO_NEW_PRIVS` only those that it has. -/
def afterCommand (attributes : Attributes) : CommandCall → Attributes
  | .setGroup => attributes
  | .resetSignal signal => attributes.sigaction (.waited signal) .default
  | .resetSigpipe => attributes.sigaction .sigpipe .default
  | .unblockSignals => attributes.setBlocked false
  | .execv =>
      let gained := attributes.inheritable ∪ attributes.bounding
      let granted := if attributes.noNewPrivs then gained ∩ attributes.permitted else gained
      { attributes with
        disposition := fun signal =>
          match attributes.disposition signal with
          | .handled => .default
          | disposition => disposition
        permitted := granted
        effective := granted }

/-- The runtime has opened nothing yet. -/
def unnamed (inherited : Attributes) : Attributes :=
  { inherited with names := fun _ => none }

end Attributes

/-! ## What is to hold -/

/-- A supervisor gets the signals that it waits for: they are blocked, and neither are children
that end nor those signals ignored. A broken pipe does not kill it. -/
structure Attributes.Supervises (attributes : Attributes) : Prop where
  blocked : ∀ signal, attributes.blocked (.waited signal) = true
  sigchld : attributes.disposition (.waited .sigchld) = .default
  forwarded : ∀ signal ∈ forwardedSignals, attributes.disposition (.waited signal) = .handled
  sigpipe : attributes.disposition .sigpipe = .ignored

/-- No capability is left, and none can be gained. -/
structure Attributes.Powerless (attributes : Attributes) : Prop where
  permitted : attributes.permitted = ∅
  effective : attributes.effective = ∅
  inheritable : attributes.inheritable = ∅
  ambient : attributes.ambient = ∅
  bounding : attributes.bounding = ∅
  noNewPrivs : attributes.noNewPrivs = true

/-- The attributes of the command, of those that the launcher has inherited. -/
structure Attributes.Confined (inherited attributes : Attributes) : Prop where
  descriptors : attributes.descriptors = {0, 1, 2}
  powerless : attributes.Powerless
  waited : ∀ signal, attributes.blocked (.waited signal) = false ∧
    attributes.disposition (.waited signal) = .default
  sigpipe : attributes.blocked .sigpipe = inherited.blocked .sigpipe ∧
    attributes.disposition .sigpipe = .default
  others : ∀ number, attributes.blocked (.other number) = inherited.blocked (.other number) ∧
    (attributes.disposition (.other number) = .ignored ↔
      inherited.disposition (.other number) = .ignored) ∧
    attributes.disposition (.other number) ≠ .handled

/-! ## The standard descriptors -/

/-- The standard descriptors are open, and the runtime has not opened them. -/
structure Attributes.Standard (attributes : Attributes) : Prop where
  present : ∀ descriptor < 3, descriptor ∈ attributes.descriptors
  named : ∀ name descriptor, attributes.names name = some descriptor → 3 ≤ descriptor

section Standard

variable {attributes : Attributes}

theorem Attributes.Standard.opens (standard : attributes.Standard) (name : DescriptorName) :
    (attributes.opens name).Standard where
  present := fun descriptor small =>
    Finset.mem_insert_of_mem (standard.present descriptor small)
  named := by
    intro other descriptor known
    simp only [Attributes.opens, Function.update_apply] at known
    split at known
    · obtain rfl := Option.some.inj known
      by_contra small
      exact lowestFree_notMem _ (standard.present _ (not_le.mp small))
    · exact standard.named other descriptor known

theorem Attributes.Standard.closes (standard : attributes.Standard) (name : DescriptorName) :
    (attributes.closes name).Standard := by
  rw [Attributes.closes]
  split
  · rename_i descriptor known
    refine ⟨fun other small => ?_, standard.named⟩
    have large := standard.named name descriptor known
    exact Finset.mem_erase_of_ne_of_mem (by omega) (standard.present other small)
  · exact standard

theorem Attributes.Standard.afterLauncher (standard : attributes.Standard) (call : LauncherCall) :
    (attributes.afterLauncher call).Standard := by
  cases call with
  | openRootfs => exact standard.opens .root
  | openProc => exact (standard.opens .proc).closes .proc
  | openPidfd => exact standard.opens .parent
  | openPipe => exact (standard.opens .readyRead).opens .readyWrite
  | openMap => exact standard.opens .map
  | writeMap => exact standard.closes .map
  | _ => exact ⟨standard.present, standard.named⟩

theorem Attributes.Standard.cloned (standard : attributes.Standard) (capabilities : Nat) :
    (attributes.cloned capabilities).Standard := by
  have granted : Attributes.Standard
      { attributes with
        permitted := Finset.range capabilities
        effective := Finset.range capabilities
        inheritable := ∅
        ambient := ∅
        bounding := Finset.range capabilities } :=
    ⟨standard.present, standard.named⟩
  exact granted.closes .readyWrite

theorem Attributes.Standard.afterInit (standard : attributes.Standard) (call : InitCall) :
    (attributes.afterInit call).Standard := by
  cases call with
  | pollParent => exact standard.closes .parent
  | readReady => exact standard.closes .readyRead
  | openRoot => exact standard.opens .reopened
  | closeRange =>
      exact ⟨fun descriptor small =>
        Finset.mem_filter.mpr ⟨standard.present descriptor small, small⟩, standard.named⟩
  | _ => exact ⟨standard.present, standard.named⟩

/-- What is left by `close_range`. -/
theorem Attributes.Standard.filter_eq (standard : attributes.Standard) :
    attributes.descriptors.filter (· < 3) = {0, 1, 2} := by
  ext descriptor
  rw [Finset.mem_filter]
  constructor
  · rintro ⟨-, small⟩
    interval_cases descriptor <;> decide
  · intro member
    have small : descriptor < 3 := by
      simp only [Finset.mem_insert, Finset.mem_singleton] at member
      omega
    exact ⟨standard.present descriptor small, small⟩

end Standard

/-! ## What the calls come to -/

section Traces

variable (attributes : Attributes) (name : DescriptorName)

@[simp] theorem opens_blocked : (attributes.opens name).blocked = attributes.blocked := rfl

@[simp] theorem opens_disposition :
    (attributes.opens name).disposition = attributes.disposition := rfl

@[simp] theorem closes_blocked : (attributes.closes name).blocked = attributes.blocked := by
  rw [Attributes.closes]
  split <;> rfl

@[simp] theorem closes_disposition :
    (attributes.closes name).disposition = attributes.disposition := by
  rw [Attributes.closes]
  split <;> rfl

/-- The attributes of the launcher before `clone`. -/
def Attributes.prepared (inherited : Attributes) : Attributes :=
  preparation.foldl Attributes.afterLauncher inherited.unnamed

/-- The attributes of the init before its first call. -/
def Attributes.born (inherited : Attributes) (capabilities : Nat) : Attributes :=
  inherited.prepared.cloned capabilities

/-- The attributes of the init at the fork. -/
def Attributes.settled (inherited : Attributes) (capabilities : Nat) : Attributes :=
  (setup capabilities).foldl Attributes.afterInit (inherited.born capabilities)

/-- The attributes of the command at `execv`. -/
def Attributes.reset (inherited : Attributes) (capabilities : Nat) : Attributes :=
  commandSetup.foldl Attributes.afterCommand (inherited.settled capabilities)

theorem closes_supervises (supervises : attributes.Supervises) :
    (attributes.closes name).Supervises where
  blocked := by simpa using supervises.blocked
  sigchld := by simpa using supervises.sigchld
  forwarded := by simpa using supervises.forwarded
  sigpipe := by simpa using supervises.sigpipe

theorem prepared_supervises : attributes.prepared.Supervises where
  blocked := by
    intro signal
    simp [Attributes.prepared, preparation, List.range_succ, forwardedSignals,
      Attributes.afterLauncher, Attributes.sigaction, Attributes.setBlocked]
  sigchld := by
    simp [Attributes.prepared, preparation, List.range_succ, forwardedSignals,
      Attributes.afterLauncher, Attributes.sigaction, Attributes.setBlocked]
  forwarded := by
    intro signal member
    simp only [forwardedSignals, List.mem_cons, List.not_mem_nil, or_false] at member
    rcases member with rfl | rfl | rfl | rfl <;>
    simp [Attributes.prepared, preparation, List.range_succ, forwardedSignals,
      Attributes.afterLauncher, Attributes.sigaction, Attributes.setBlocked]
  sigpipe := by
    simp [Attributes.prepared, preparation, List.range_succ, forwardedSignals,
      Attributes.afterLauncher, Attributes.sigaction, Attributes.setBlocked]

theorem prepared_others :
    attributes.prepared.blocked .sigpipe = attributes.blocked .sigpipe ∧
      ∀ number, attributes.prepared.blocked (.other number) = attributes.blocked (.other number) ∧
        attributes.prepared.disposition (.other number) =
          attributes.disposition (.other number) := by
  refine ⟨?_, fun number => ⟨?_, ?_⟩⟩ <;>
  simp [Attributes.prepared, preparation, List.range_succ, forwardedSignals,
    Attributes.afterLauncher, Attributes.sigaction, Attributes.setBlocked, Attributes.unnamed]

/-- The init leaves its signals as they are. -/
theorem foldl_afterInit_signals (calls : List InitCall) :
    (calls.foldl Attributes.afterInit attributes).blocked = attributes.blocked ∧
      (calls.foldl Attributes.afterInit attributes).disposition = attributes.disposition := by
  induction calls generalizing attributes with
  | nil => exact ⟨rfl, rfl⟩
  | cons call calls ih =>
      rw [List.foldl_cons, (ih _).1, (ih _).2]
      cases call with
      | pollParent | readReady => exact ⟨closes_blocked _ _, closes_disposition _ _⟩
      | _ => exact ⟨rfl, rfl⟩

/-- **The loop of `drop_capabilities`** drops every capability that it reads. -/
theorem foldl_capabilityLoop (left capability : Nat) :
    (capabilityLoop left capability).foldl Attributes.afterInit attributes =
      { attributes with
        bounding := attributes.bounding \ Finset.Ico capability (capability + left) } := by
  induction left generalizing attributes capability with
  | zero => simp [capabilityLoop, Attributes.afterInit]
  | succ left ih =>
      have rest : attributes.bounding.erase capability \
            Finset.Ico (capability + 1) (capability + 1 + left) =
          attributes.bounding \ Finset.Ico capability (capability + (left + 1)) := by
        ext other
        simp only [Finset.mem_sdiff, Finset.mem_erase, Finset.mem_Ico]
        grind
      rw [capabilityLoop, List.foldl_cons, List.foldl_cons, ih]
      simp only [Attributes.afterInit, rest]

theorem prepared_standard (present : ∀ descriptor < 3, descriptor ∈ attributes.descriptors) :
    attributes.prepared.Standard :=
  List.foldlRecOn preparation Attributes.afterLauncher ⟨present, nofun⟩
    fun _ standard call _ => standard.afterLauncher call

/-- The attributes with which the init supervises and the command is born. -/
theorem settled_powerless (capabilities : Nat) : (attributes.settled capabilities).Powerless := by
  have shape : attributes.settled capabilities =
      [InitCall.setCapabilities, .setNoNewPrivs].foldl Attributes.afterInit
        ((capabilityLoop capabilities 0).foldl Attributes.afterInit
          (mountCalls.foldl Attributes.afterInit (attributes.born capabilities))) := by
    rw [Attributes.settled, setup, List.foldl_append, List.foldl_append]
  have bounding : (mountCalls.foldl Attributes.afterInit
      (attributes.born capabilities)).bounding = Finset.range capabilities := by
    have closes : ∀ (other : Attributes) (name : DescriptorName),
        (other.closes name).bounding = other.bounding := by
      intro other name
      rw [Attributes.closes]
      split <;> rfl
    simp [mountCalls, Attributes.afterInit, Attributes.opens, closes, Attributes.born,
      Attributes.cloned]
  rw [shape, foldl_capabilityLoop, bounding]
  refine ⟨rfl, rfl, rfl, rfl, ?_, rfl⟩
  show Finset.range capabilities \ Finset.Ico 0 (0 + capabilities) = ∅
  rw [zero_add, Finset.range_eq_Ico, sdiff_self, Finset.bot_eq_empty]

theorem settled_descriptors (present : ∀ descriptor < 3, descriptor ∈ attributes.descriptors)
    (capabilities : Nat) : (attributes.settled capabilities).descriptors = {0, 1, 2} := by
  have shape : setup capabilities = mountCalls.dropLast ++ [InitCall.closeRange] ++
      capabilityLoop capabilities 0 ++ [InitCall.setCapabilities, .setNoNewPrivs] := rfl
  have standard : (mountCalls.dropLast.foldl Attributes.afterInit
      (attributes.born capabilities)).Standard :=
    List.foldlRecOn mountCalls.dropLast Attributes.afterInit
      ((prepared_standard attributes present).cloned capabilities)
      fun _ standard call _ => standard.afterInit call
  rw [Attributes.settled, shape, List.foldl_append, List.foldl_append, List.foldl_append,
    foldl_capabilityLoop]
  exact standard.filter_eq

/-- The init, when it supervises, and the process of the command at its birth. -/
theorem settled_supervises (inherited : Attributes) (capabilities : Nat) :
    (inherited.settled capabilities).Supervises := by
  obtain ⟨blocked, disposition⟩ :=
    foldl_afterInit_signals (inherited.born capabilities) (setup capabilities)
  have born : (inherited.born capabilities).Supervises := by
    obtain ⟨blocked, sigchld, forwarded, sigpipe⟩ := prepared_supervises inherited
    refine ⟨?_, ?_, ?_, ?_⟩ <;> simpa [Attributes.born, Attributes.cloned]
  exact ⟨blocked ▸ born.blocked, disposition ▸ born.sigchld, disposition ▸ born.forwarded,
    disposition ▸ born.sigpipe⟩

theorem settled_others (inherited : Attributes) (capabilities : Nat) :
    (inherited.settled capabilities).blocked .sigpipe = inherited.blocked .sigpipe ∧
      ∀ number, (inherited.settled capabilities).blocked (.other number) =
          inherited.blocked (.other number) ∧
        (inherited.settled capabilities).disposition (.other number) =
          inherited.disposition (.other number) := by
  obtain ⟨blocked, disposition⟩ :=
    foldl_afterInit_signals (inherited.born capabilities) (setup capabilities)
  rw [Attributes.settled, blocked, disposition]
  simpa [Attributes.born, Attributes.cloned] using prepared_others inherited

/-- What the process of the command does before `execv`. -/
theorem foldl_commandSetup (attributes : Attributes) :
    commandSetup.foldl Attributes.afterCommand attributes =
      { attributes.setBlocked false with
        disposition := fun signal =>
          match signal with
          | .waited .sigchld => attributes.disposition (.waited .sigchld)
          | .other number => attributes.disposition (.other number)
          | _ => .default } := by
  simp only [commandSetup, forwardedSignals, List.map_cons, List.map_nil, List.cons_append,
    List.nil_append, List.foldl_cons, List.foldl_nil, Attributes.afterCommand,
    Attributes.sigaction, Attributes.setBlocked, Attributes.mk.injEq, true_and, and_true]
  funext signal
  rcases signal with signal | _ | number
  · cases signal <;> simp
  · simp
  · simp

/-- `execv` gives nothing to a process without capabilities. -/
theorem afterCommand_powerless {attributes : Attributes} (powerless : attributes.Powerless) :
    (attributes.afterCommand .execv).Powerless where
  permitted := by
    simp [Attributes.afterCommand, powerless.permitted, powerless.noNewPrivs]
  effective := by
    simp [Attributes.afterCommand, powerless.permitted, powerless.noNewPrivs]
  inheritable := powerless.inheritable
  ambient := powerless.ambient
  bounding := powerless.bounding
  noNewPrivs := powerless.noNewPrivs

end Traces

end InfraFromScratch.Container
