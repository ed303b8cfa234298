import Mathlib.Data.List.Basic
import Mathlib.Order.Basic

/-!
# Machines that answer every input

A service that handles one request at a time is a function from a state and an
input to a new state and a reply. This module runs such a function over a list
of inputs and gives the two rules every later development uses.

* The invariant rule: a property kept by one step is kept by every run
  (`runReplies_invariant`).
* The simulation rule: two machines whose steps agree on related states give
  the same replies to every list of inputs (`runReplies_simulation`). The
  relation may depend on the time, provided it survives the passing of time;
  the inputs then have to arrive at nondecreasing times.
-/

set_option autoImplicit false

namespace InfraFromScratch.Foundations

variable {State Abstract Input Output Time : Type*}

/-- Feed the inputs to the machine one after another and collect the replies. -/
def runReplies (step : State → Input → State × Output) :
    State → List Input → State × List Output
  | state, [] => (state, [])
  | state, input :: rest =>
      let answered := step state input
      let finished := runReplies step answered.1 rest
      (finished.1, answered.2 :: finished.2)

section Runs

variable (step : State → Input → State × Output)

@[simp] theorem runReplies_nil (state : State) : runReplies step state [] = (state, []) := rfl

@[simp] theorem runReplies_cons (state : State) (input : Input) (rest : List Input) :
    runReplies step state (input :: rest) =
      ((runReplies step (step state input).1 rest).1,
        (step state input).2 :: (runReplies step (step state input).1 rest).2) := rfl

theorem runReplies_append (state : State) (first second : List Input) :
    runReplies step state (first ++ second) =
      ((runReplies step (runReplies step state first).1 second).1,
        (runReplies step state first).2 ++
          (runReplies step (runReplies step state first).1 second).2) := by
  induction first generalizing state with
  | nil => rfl
  | cons input rest ih =>
      simp only [List.cons_append, runReplies_cons, ih]

/-- Every input gets exactly one reply. -/
@[simp] theorem runReplies_length (state : State) (inputs : List Input) :
    (runReplies step state inputs).2.length = inputs.length := by
  induction inputs generalizing state with
  | nil => rfl
  | cons input rest ih => simp only [runReplies_cons, List.length_cons, ih]

variable {step}

/-- **The invariant rule.** What one step keeps, for the inputs at hand, a run
keeps. -/
theorem runReplies_invariant (invariant : State → Prop) {inputs : List Input}
    (preserved : ∀ input ∈ inputs, ∀ state, invariant state → invariant (step state input).1)
    {state : State} (initially : invariant state) :
    invariant (runReplies step state inputs).1 := by
  induction inputs generalizing state with
  | nil => exact initially
  | cons input rest ih =>
      rw [runReplies_cons]
      exact ih (fun later member => preserved later (List.mem_cons_of_mem _ member))
        (preserved input List.mem_cons_self state initially)

end Runs

/-! ## Timed simulation -/

section Simulation

variable [Preorder Time]

/-- The inputs arrive at nondecreasing times. -/
def Ordered (time : Input → Time) (inputs : List Input) : Prop :=
  inputs.Pairwise fun earlier later => time earlier ≤ time later

variable {time : Input → Time}

theorem Ordered.tail {input : Input} {rest : List Input} (ordered : Ordered time (input :: rest)) :
    Ordered time rest :=
  (List.pairwise_cons.mp ordered).2

theorem Ordered.head_le {input later : Input} {rest : List Input}
    (ordered : Ordered time (input :: rest)) (member : later ∈ rest) :
    time input ≤ time later :=
  (List.pairwise_cons.mp ordered).1 later member

/-- Inputs before a later one arrive no later than it. -/
theorem Ordered.before_le {before : List Input} {last input : Input}
    (ordered : Ordered time (before ++ [last])) (member : input ∈ before) :
    time input ≤ time last :=
  (List.pairwise_append.mp ordered).2.2 input member last List.mem_cons_self

theorem Ordered.left {first second : List Input} (ordered : Ordered time (first ++ second)) :
    Ordered time first :=
  (List.pairwise_append.mp ordered).1

variable {concrete : State → Input → State × Output}
  {abstract : Abstract → Input → Abstract × Output}
  (related : Time → State → Abstract → Prop)

/-- **The simulation rule.** Related states give the same reply and stay
related, and a relation that survives the passing of time carries this through
every list of inputs at nondecreasing times. -/
theorem runReplies_simulation
    (later : ∀ {early late : Time} {s : State} {a : Abstract}, early ≤ late →
      related early s a → related late s a)
    {inputs : List Input}
    (oneStep : ∀ input ∈ inputs, ∀ s a, related (time input) s a →
      (concrete s input).2 = (abstract a input).2 ∧
        related (time input) (concrete s input).1 (abstract a input).1)
    (ordered : Ordered time inputs) {s : State} {a : Abstract}
    (start : ∀ input ∈ inputs, related (time input) s a) :
    (runReplies concrete s inputs).2 = (runReplies abstract a inputs).2 ∧
      ∀ now, (∀ input ∈ inputs, time input ≤ now) → related now s a →
        related now (runReplies concrete s inputs).1 (runReplies abstract a inputs).1 := by
  induction inputs generalizing s a with
  | nil => exact ⟨rfl, fun _ _ here => here⟩
  | cons input rest ih =>
      obtain ⟨sameReply, stepRelated⟩ :=
        oneStep input List.mem_cons_self s a (start input List.mem_cons_self)
      obtain ⟨sameReplies, finallyRelated⟩ :=
        ih (fun other member => oneStep other (List.mem_cons_of_mem _ member)) ordered.tail
          (s := (concrete s input).1) (a := (abstract a input).1)
          (fun other member => later (ordered.head_le member) stepRelated)
      refine ⟨?_, ?_⟩
      · simp only [runReplies_cons, sameReply, sameReplies]
      · intro now past _
        exact finallyRelated now (fun other member => past other (List.mem_cons_of_mem _ member))
          (later (past input List.mem_cons_self) stepRelated)

end Simulation

/-! ## Inputs of several clients -/

section Clients

variable {Client : Type*} [DecidableEq Client]

/-- What a client said, in a history of inputs from several clients. -/
def inputsOf (history : List (Client × Input)) (client : Client) : List Input :=
  history.filterMap fun entry => if entry.1 = client then some entry.2 else none

/-- What a client was answered, where all inputs go to one machine. -/
def repliesOf (step : State → Input → State × Output) (state : State)
    (history : List (Client × Input)) (client : Client) : List Output :=
  ((history.map Prod.fst).zip (runReplies step state (history.map Prod.snd)).2).filterMap
    fun entry => if entry.1 = client then some entry.2 else none

theorem inputsOf_concat (history : List (Client × Input)) (sender client : Client)
    (input : Input) :
    inputsOf (history ++ [(sender, input)]) client =
      inputsOf history client ++ if sender = client then [input] else [] := by
  rw [inputsOf, List.filterMap_append]
  by_cases same : sender = client <;> simp [inputsOf, same]

theorem repliesOf_concat (step : State → Input → State × Output) (state : State)
    (history : List (Client × Input)) (sender client : Client) (input : Input) :
    repliesOf step state (history ++ [(sender, input)]) client =
      repliesOf step state history client ++
        if sender = client then
          [(step (runReplies step state (history.map Prod.snd)).1 input).2]
        else [] := by
  rw [repliesOf, List.map_append, List.map_append, runReplies_append,
    List.zip_append (by rw [runReplies_length, List.length_map, List.length_map]),
    List.filterMap_append]
  by_cases same : sender = client <;> simp [repliesOf, same]

end Clients

end InfraFromScratch.Foundations
