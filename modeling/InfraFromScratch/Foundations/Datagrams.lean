import InfraFromScratch.Foundations.Transitions

/-!
# Asking a server over datagrams

Askers send one query each, from a port that is free, to a server that handles one datagram after
another and keeps a state. A datagram that is under way may arrive at any later time, any number of
times and in any order, until it is lost. Others may send to the server whatever they like, from
ports that no asker holds. A reply goes to the port that the query came from, and whoever holds that
port when it arrives takes it. An asker takes the first reply that reaches it, or gives up; then its
port is free.

A reply may thus reach an asker that came to the port later. Where every asker binds a port that no
datagram is under way from or to (`FreshPort`), and what the server replies does not depend on its
state, what an asker takes is the reply to its own query (`faithful_of_run`), and an asker whose
query is under way can always be answered (`exists_answer`).
-/

set_option autoImplicit false

namespace InfraFromScratch.Foundations

/-- What the askers and the server do. -/
structure DatagramProtocol (State Query Reply Result : Type*) where
  /-- What the asker sends, or its result where it does not ask. -/
  query : Nat → Except Result Query
  /-- The state and the reply after a datagram, or nothing where the server fails. -/
  handle : State → Query → Option (State × Option Reply)
  /-- What the asker makes of a reply. -/
  read : Nat → Reply → Result
  /-- The result of an asker that gives up. -/
  gaveUp : Result

inductive Asker (Port Result : Type*) where
  | idle
  | waiting (port : Port)
  | finished (result : Result)

def Asker.result? {Port Result : Type*} : Asker Port Result → Option Result
  | .finished result => some result
  | _ => none

theorem Asker.result?_eq_some_iff {Port Result : Type*} {asker : Asker Port Result}
    {result : Result} : asker.result? = some result ↔ asker = .finished result := by
  cases asker with
  | idle | waiting => simp [Asker.result?]
  | finished other => simp [Asker.result?]

/-- The server, unless it has failed, the datagrams under way to it and from it, with the ports they
come from and go to, the askers that hold the ports, and the askers. -/
structure Datagrams (Port State Query Reply Result : Type*) where
  server : Option State
  queries : List (Port × Query)
  replies : List (Port × Reply)
  holders : Port → Option Nat
  askers : Nat → Asker Port Result

inductive DatagramEvent (Port Query : Type*) where
  /-- An asker binds a port and sends its query from there. -/
  | ask (asker : Nat) (port : Port)
  /-- Somebody else sends to the server. -/
  | stray (port : Port) (query : Query)
  /-- One of the datagrams reaches the server. -/
  | serve (index : Nat)
  /-- One of the replies reaches its port. -/
  | deliver (index : Nat)
  /-- A datagram reaches the server no more. -/
  | loseQuery (index : Nat)
  /-- A reply reaches its port no more. -/
  | loseReply (index : Nat)
  | giveUp (asker : Nat)

/-- The port that an asker binds. -/
def DatagramEvent.bound? {Port Query : Type*} : DatagramEvent Port Query → Option Port
  | .ask _ port => some port
  | _ => none

namespace Datagrams

variable {Port State Query Reply Result : Type*} [DecidableEq Port]

/-- The server before its first datagram. -/
def start (state : State) : Datagrams Port State Query Reply Result :=
  ⟨some state, [], [], fun _ => none, fun _ => .idle⟩

/-- An asker binds the port and sends. -/
def bind (system : Datagrams Port State Query Reply Result) (asker : Nat) (port : Port)
    (query : Query) : Datagrams Port State Query Reply Result :=
  { system with
    queries := system.queries ++ [(port, query)]
    holders := Function.update system.holders port (some asker)
    askers := Function.update system.askers asker (.waiting port) }

/-- An asker has its result, and leaves its port. -/
def finish (system : Datagrams Port State Query Reply Result) (asker : Nat) (port : Port)
    (result : Result) : Datagrams Port State Query Reply Result :=
  { system with
    holders := Function.update system.holders port none
    askers := Function.update system.askers asker (.finished result) }

/-- What an event does. -/
def next (protocol : DatagramProtocol State Query Reply Result)
    (system : Datagrams Port State Query Reply Result) :
    DatagramEvent Port Query → Option (Datagrams Port State Query Reply Result)
  | .ask asker port =>
      match system.askers asker with
      | .idle =>
          match protocol.query asker with
          | .error result =>
              some { system with
                askers := Function.update system.askers asker (.finished result) }
          | .ok query =>
              match system.holders port with
              | none => some (system.bind asker port query)
              | some _ => none
      | _ => none
  | .stray port query =>
      match system.holders port with
      | none => some { system with queries := system.queries ++ [(port, query)] }
      | some _ => none
  | .serve index =>
      match system.server, system.queries[index]? with
      | some state, some (port, query) =>
          match protocol.handle state query with
          | none => some { system with server := none }
          | some (state, none) => some { system with server := some state }
          | some (state, some reply) =>
              some { system with
                server := some state, replies := system.replies ++ [(port, reply)] }
      | _, _ => none
  | .deliver index =>
      match system.replies[index]? with
      | some (port, reply) =>
          match system.holders port with
          | some asker => some (system.finish asker port (protocol.read asker reply))
          | none => some system
      | none => none
  | .loseQuery index => some { system with queries := system.queries.eraseIdx index }
  | .loseReply index => some { system with replies := system.replies.eraseIdx index }
  | .giveUp asker =>
      match system.askers asker with
      | .waiting port => some (system.finish asker port protocol.gaveUp)
      | _ => none

/-- No datagram is under way from or to the port that is bound. -/
def FreshPort (system : Datagrams Port State Query Reply Result)
    (event : DatagramEvent Port Query) : Prop :=
  ∀ port ∈ event.bound?,
    port ∉ system.queries.map Prod.fst ∧ port ∉ system.replies.map Prod.fst

instance (system : Datagrams Port State Query Reply Result) (event : DatagramEvent Port Query) :
    Decidable (system.FreshPort event) :=
  inferInstanceAs (Decidable (∀ port ∈ event.bound?, _))

end Datagrams

/-! ## Servers that forget -/

/-- In every state that the server comes to it does not fail, and its reply is this one. -/
structure Forgets {State Query Reply Result : Type*}
    (protocol : DatagramProtocol State Query Reply Result) (invariant : State → Prop)
    (answer : Query → Option Reply) : Prop where
  handles : ∀ state query, invariant state →
    ∃ after, protocol.handle state query = some (after, answer query) ∧ invariant after

/-- How an asker can have finished. -/
inductive Finishes {State Query Reply Result : Type*}
    (protocol : DatagramProtocol State Query Reply Result) (answer : Query → Option Reply)
    (asker : Nat) : Result → Prop
  | unasked {result : Result} (refuses : protocol.query asker = .error result) :
      Finishes protocol answer asker result
  | answered {query : Query} {reply : Reply} (asked : protocol.query asker = .ok query)
      (replied : answer query = some reply) :
      Finishes protocol answer asker (protocol.read asker reply)
  | gaveUp {query : Query} (asked : protocol.query asker = .ok query) :
      Finishes protocol answer asker protocol.gaveUp

section Runs

variable {Port State Query Reply Result : Type*}
  {protocol : DatagramProtocol State Query Reply Result} {invariant : State → Prop}
  {answer : Query → Option Reply}
  {system after : Datagrams Port State Query Reply Result}

/-- What holds in every state: the server runs, an asker that waits holds its port, and what is
under way from and to the port of an asker is its query and the reply to it. -/
structure Datagrams.Faithful (protocol : DatagramProtocol State Query Reply Result)
    (invariant : State → Prop) (answer : Query → Option Reply)
    (system : Datagrams Port State Query Reply Result) : Prop where
  server : ∃ state, system.server = some state ∧ invariant state
  holders : ∀ port asker, system.holders port = some asker ↔ system.askers asker = .waiting port
  asked : ∀ asker port, system.askers asker = .waiting port →
    ∃ query, protocol.query asker = .ok query
  queries : ∀ asker port query, system.askers asker = .waiting port →
    (port, query) ∈ system.queries → protocol.query asker = .ok query
  replies : ∀ asker port reply, system.askers asker = .waiting port →
    (port, reply) ∈ system.replies →
    ∃ query, protocol.query asker = .ok query ∧ answer query = some reply
  finished : ∀ asker result, system.askers asker = .finished result →
    Finishes protocol answer asker result

theorem faithful_start {state : State} (holds : invariant state) :
    (Datagrams.start state : Datagrams Port State Query Reply Result).Faithful protocol invariant
      answer where
  server := ⟨state, rfl, holds⟩
  holders := by simp [Datagrams.start]
  asked := by simp [Datagrams.start]
  queries := by simp [Datagrams.start]
  replies := by simp [Datagrams.start]
  finished := by simp [Datagrams.start]

/-- An asker that does not ask finishes. -/
theorem Datagrams.Faithful.unasked (faithful : system.Faithful protocol invariant answer)
    {asker : Nat} {result : Result} (idle : system.askers asker = .idle)
    (refuses : protocol.query asker = .error result) :
    Datagrams.Faithful protocol invariant answer
      { system with askers := Function.update system.askers asker (.finished result) } where
  server := faithful.server
  holders := by
    intro port other
    by_cases here : other = asker
    · subst here
      simp [faithful.holders port other, idle]
    · simpa [here] using faithful.holders port other
  asked := by
    intro other port waits
    by_cases here : other = asker
    · subst here
      simp at waits
    · exact faithful.asked other port (by simpa [here] using waits)
  queries := by
    intro other port query waits
    by_cases here : other = asker
    · subst here
      simp at waits
    · exact faithful.queries other port query (by simpa [here] using waits)
  replies := by
    intro other port reply waits
    by_cases here : other = asker
    · subst here
      simp at waits
    · exact faithful.replies other port reply (by simpa [here] using waits)
  finished := by
    intro other outcome isOutcome
    by_cases here : other = asker
    · subst here
      simp only [Function.update_self, Asker.finished.injEq] at isOutcome
      exact isOutcome ▸ .unasked refuses
    · exact faithful.finished other outcome (by simpa [here] using isOutcome)

/-- Somebody else sends, from a port that no asker holds. -/
theorem Datagrams.Faithful.stray (faithful : system.Faithful protocol invariant answer)
    {port : Port} (free : system.holders port = none) (query : Query) :
    Datagrams.Faithful protocol invariant answer
      { system with queries := system.queries ++ [(port, query)] } where
  server := faithful.server
  holders := faithful.holders
  asked := faithful.asked
  queries := by
    intro asker place sent waits member
    rcases List.mem_append.mp member with earlier | last
    · exact faithful.queries asker place sent waits earlier
    · obtain rfl : place = port := (Prod.mk.inj (List.mem_singleton.mp last)).1
      rw [(faithful.holders place asker).mpr waits] at free
      cases free
  replies := faithful.replies
  finished := faithful.finished

/-- The server handles a datagram. -/
theorem Datagrams.Faithful.serve (faithful : system.Faithful protocol invariant answer)
    {state : State} (holds : invariant state) {port : Port} {query : Query}
    (sent : (port, query) ∈ system.queries) :
    Datagrams.Faithful protocol invariant answer { system with
      server := some state
      replies := system.replies ++ (answer query).toList.map fun reply => (port, reply) } where
  server := ⟨state, rfl, holds⟩
  holders := faithful.holders
  asked := faithful.asked
  queries := faithful.queries
  replies := by
    intro asker place reply waits member
    rcases List.mem_append.mp member with earlier | last
    · exact faithful.replies asker place reply waits earlier
    · obtain ⟨given, isGiven, same⟩ := List.mem_map.mp last
      obtain ⟨rfl, rfl⟩ := Prod.mk.inj same
      exact ⟨query, faithful.queries asker port query waits sent, Option.mem_toList.mp isGiven⟩
  finished := faithful.finished

/-- Datagrams are lost. -/
theorem Datagrams.Faithful.lose (faithful : system.Faithful protocol invariant answer)
    {queries : List (Port × Query)} {replies : List (Port × Reply)}
    (fewerQueries : queries ⊆ system.queries) (fewerReplies : replies ⊆ system.replies) :
    Datagrams.Faithful protocol invariant answer
      { system with queries := queries, replies := replies } where
  server := faithful.server
  holders := faithful.holders
  asked := faithful.asked
  queries := fun asker port query waits member =>
    faithful.queries asker port query waits (fewerQueries member)
  replies := fun asker port reply waits member =>
    faithful.replies asker port reply waits (fewerReplies member)
  finished := faithful.finished

variable [DecidableEq Port]

/-- An asker binds a fresh port and sends. -/
theorem Datagrams.Faithful.bind (faithful : system.Faithful protocol invariant answer)
    {asker : Nat} {port : Port} {query : Query} (idle : system.askers asker = .idle)
    (asked : protocol.query asker = .ok query) (free : system.holders port = none)
    (noQuery : port ∉ system.queries.map Prod.fst)
    (noReply : port ∉ system.replies.map Prod.fst) :
    (system.bind asker port query).Faithful protocol invariant answer where
  server := faithful.server
  holders := by
    intro place other
    by_cases here : other = asker
    · subst here
      by_cases same : place = port
      · subst same
        simp [Datagrams.bind]
      · simp [Datagrams.bind, same, Ne.symm same, faithful.holders place other, idle]
    · by_cases same : place = port
      · subst same
        have elsewhere := (faithful.holders place other).not.mp (by simp [free])
        simp [Datagrams.bind, here, Ne.symm here, elsewhere]
      · simpa [Datagrams.bind, here, same] using faithful.holders place other
  asked := by
    intro other place waits
    by_cases here : other = asker
    · subst here
      exact ⟨query, asked⟩
    · exact faithful.asked other place (by simpa [Datagrams.bind, here] using waits)
  queries := by
    intro other place sent waits member
    by_cases here : other = asker
    · subst here
      obtain rfl : port = place := by simpa [Datagrams.bind] using waits
      rcases List.mem_append.mp member with earlier | last
      · exact absurd (List.mem_map_of_mem earlier) noQuery
      · rw [asked, (Prod.mk.inj (List.mem_singleton.mp last)).2]
    · have waited : system.askers other = .waiting place := by
        simpa [Datagrams.bind, here] using waits
      rcases List.mem_append.mp member with earlier | last
      · exact faithful.queries other place sent waited earlier
      · -- The port of the asker is free, so nobody else waits there.
        obtain rfl : place = port := (Prod.mk.inj (List.mem_singleton.mp last)).1
        rw [(faithful.holders place other).mpr waited] at free
        cases free
  replies := by
    intro other place reply waits member
    by_cases here : other = asker
    · subst here
      obtain rfl : port = place := by simpa [Datagrams.bind] using waits
      exact absurd (List.mem_map_of_mem member) noReply
    · exact faithful.replies other place reply (by simpa [Datagrams.bind, here] using waits) member
  finished := by
    intro other outcome isOutcome
    by_cases here : other = asker
    · subst here
      simp [Datagrams.bind] at isOutcome
    · exact faithful.finished other outcome (by simpa [Datagrams.bind, here] using isOutcome)

/-- An asker that waits finishes. -/
theorem Datagrams.Faithful.finish (faithful : system.Faithful protocol invariant answer)
    {asker : Nat} {port : Port} {result : Result} (waited : system.askers asker = .waiting port)
    (finishes : Finishes protocol answer asker result) :
    (system.finish asker port result).Faithful protocol invariant answer where
  server := faithful.server
  holders := by
    intro place other
    have holder := (faithful.holders port asker).mpr waited
    by_cases here : other = asker
    · subst here
      by_cases same : place = port
      · subst same
        simp [Datagrams.finish]
      · simp [Datagrams.finish, same, faithful.holders place other, waited, Ne.symm same]
    · by_cases same : place = port
      · subst same
        have elsewhere := (faithful.holders place other).not.mp (by simp [holder, Ne.symm here])
        simp [Datagrams.finish, here, elsewhere]
      · simpa [Datagrams.finish, here, same] using faithful.holders place other
  asked := by
    intro other place waits
    by_cases here : other = asker
    · subst here
      simp [Datagrams.finish] at waits
    · exact faithful.asked other place (by simpa [Datagrams.finish, here] using waits)
  queries := by
    intro other place query waits
    by_cases here : other = asker
    · subst here
      simp [Datagrams.finish] at waits
    · exact faithful.queries other place query (by simpa [Datagrams.finish, here] using waits)
  replies := by
    intro other place reply waits
    by_cases here : other = asker
    · subst here
      simp [Datagrams.finish] at waits
    · exact faithful.replies other place reply (by simpa [Datagrams.finish, here] using waits)
  finished := by
    intro other outcome isOutcome
    by_cases here : other = asker
    · subst here
      simp only [Datagrams.finish, Function.update_self, Asker.finished.injEq] at isOutcome
      exact isOutcome ▸ finishes
    · exact faithful.finished other outcome (by simpa [Datagrams.finish, here] using isOutcome)

/-- The asker that holds the port takes the reply that reaches it. -/
theorem next_deliver {index asker : Nat} {port : Port} {reply : Reply}
    (arrives : system.replies[index]? = some (port, reply))
    (holder : system.holders port = some asker) :
    system.next protocol (.deliver index) =
      some (system.finish asker port (protocol.read asker reply)) := by
  unfold Datagrams.next
  simp only [arrives, holder]

variable (forgets : Forgets protocol invariant answer)

include forgets

/-- What the server does with a datagram, when it forgets. -/
theorem next_serve {state : State} (serves : system.server = some state)
    (holds : invariant state) {index : Nat} {port : Port} {query : Query}
    (sent : system.queries[index]? = some (port, query)) :
    ∃ later, invariant later ∧ system.next protocol (.serve index) = some { system with
      server := some later
      replies := system.replies ++ (answer query).toList.map fun reply => (port, reply) } := by
  obtain ⟨later, handled, kept⟩ := forgets.handles state query holds
  refine ⟨later, kept, ?_⟩
  unfold Datagrams.next
  simp only [serves, sent, handled]
  cases answer query with
  | none => simp
  | some reply => simp

/-- **One event** that binds no port but a fresh one. -/
theorem Datagrams.Faithful.next (faithful : system.Faithful protocol invariant answer)
    {event : DatagramEvent Port Query} (fresh : system.FreshPort event)
    (taken : system.next protocol event = some after) :
    after.Faithful protocol invariant answer := by
  cases event with
  | ask asker port =>
      unfold Datagrams.next at taken
      dsimp only at taken
      split at taken
      · rename_i idle
        split at taken
        · rename_i result refuses
          obtain rfl := Option.some.inj taken
          exact faithful.unasked idle refuses
        · rename_i query asked
          split at taken
          · rename_i free
            obtain rfl := Option.some.inj taken
            obtain ⟨noQuery, noReply⟩ := fresh port rfl
            exact faithful.bind idle asked free noQuery noReply
          · cases taken
      · cases taken
  | stray port query =>
      unfold Datagrams.next at taken
      dsimp only at taken
      split at taken
      · rename_i free
        obtain rfl := Option.some.inj taken
        exact faithful.stray free query
      · cases taken
  | serve index =>
      obtain ⟨state, serves, holds⟩ := faithful.server
      cases sent : system.queries[index]? with
      | none =>
          unfold Datagrams.next at taken
          simp only [serves, sent] at taken
          cases taken
      | some datagram =>
          obtain ⟨port, query⟩ := datagram
          obtain ⟨later, kept, same⟩ := next_serve forgets serves holds sent
          obtain rfl := Option.some.inj (same.symm.trans taken)
          exact faithful.serve kept (List.mem_of_getElem? sent)
  | deliver index =>
      unfold Datagrams.next at taken
      dsimp only at taken
      split at taken
      · rename_i port reply arrives
        split at taken
        · rename_i asker holder
          obtain rfl := Option.some.inj taken
          have waits := (faithful.holders port asker).mp holder
          obtain ⟨query, asked, replied⟩ :=
            faithful.replies asker port reply waits (List.mem_of_getElem? arrives)
          exact faithful.finish waits (.answered asked replied)
        · obtain rfl := Option.some.inj taken
          exact faithful
      · cases taken
  | loseQuery index =>
      obtain rfl := Option.some.inj taken
      exact faithful.lose (List.eraseIdx_sublist _ _).subset (List.Subset.refl _)
  | loseReply index =>
      obtain rfl := Option.some.inj taken
      exact faithful.lose (List.Subset.refl _) (List.eraseIdx_sublist _ _).subset
  | giveUp asker =>
      unfold Datagrams.next at taken
      dsimp only at taken
      split at taken
      · rename_i port waits
        obtain rfl := Option.some.inj taken
        obtain ⟨query, asked⟩ := faithful.asked asker port waits
        exact faithful.finish waits (.gaveUp asked)
      · cases taken

/-- **A run** in which every port that is bound is fresh. -/
theorem faithful_of_run {state : State} (holds : invariant state)
    {events : List (DatagramEvent Port Query)}
    (run : runEvents (Datagrams.next protocol) (.start state) events = some system)
    (fresh : AlongRun (Datagrams.next protocol) Datagrams.FreshPort (.start state) events) :
    system.Faithful protocol invariant answer :=
  @runEvents_induction_along _ _ (Datagrams.next protocol) Datagrams.FreshPort (.start state)
    (fun _ system => system.Faithful protocol invariant answer) (faithful_start holds)
    (fun _ _ _ _ fresh faithful taken => faithful.next forgets fresh taken) events system run fresh

/-- **An asker whose query is under way can be answered**: the query reaches the server, and the
reply reaches the asker. -/
theorem exists_answer (faithful : system.Faithful protocol invariant answer) {asker : Nat}
    {port : Port} (waits : system.askers asker = .waiting port) {query : Query} {reply : Reply}
    (sent : (port, query) ∈ system.queries) (isReply : answer query = some reply) :
    ∃ index, ∃ later, runEvents (Datagrams.next protocol) system
        [.serve index, .deliver system.replies.length] = some later ∧
      later.askers asker = .finished (protocol.read asker reply) := by
  obtain ⟨state, serves, holds⟩ := faithful.server
  have holder := (faithful.holders port asker).mpr waits
  obtain ⟨index, found⟩ := List.getElem?_of_mem sent
  obtain ⟨later, -, served⟩ := next_serve forgets serves holds found
  generalize answered : ({ system with
    server := some later
    replies := system.replies ++ (answer query).toList.map fun reply => (port, reply) } :
    Datagrams Port State Query Reply Result) = replied at served
  have delivered : replied.next protocol (.deliver system.replies.length) =
      some (replied.finish asker port (protocol.read asker reply)) := by
    subst answered
    exact next_deliver (by simp [isReply]) holder
  refine ⟨index, replied.finish asker port (protocol.read asker reply), ?_, ?_⟩
  · rw [runEvents_cons, served, Option.bind_some, runEvents_cons, delivered]
    rfl
  · simp [Datagrams.finish]

end Runs

end InfraFromScratch.Foundations
