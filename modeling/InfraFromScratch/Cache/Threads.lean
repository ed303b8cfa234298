import InfraFromScratch.Cache.Connection

/-!
# The client threads of the cache

Every connection has a thread that runs `handle_client` on buffers of its own. The threads share
the store, which they touch only while they hold `store_mutex`, and the system decides whose turn
it is, how much a `recv` returns and how much a `send` takes. A thread is modelled by where it is
in `handle_client`, and a run is any list of turns.

The cache is linearizable (`threads_linearizable`). There is one history of lines, in which the
lines of each client stand in the order in which it sent them, and every client is sent what one
expiring map answers to its lines in that history.
-/

set_option autoImplicit false

namespace InfraFromScratch.Cache

open Foundations

/-! ## Turns -/

/-- What `recv` returns. It returns no bytes when the peer has closed. -/
inductive Received where
  | interrupted
  | failed
  | data (bytes : Bytes) (short : bytes.length ≤ recvBuf)

/-- What `send` returns. It takes no more bytes than it is offered. -/
inductive Sent where
  | interrupted
  | failed
  | taken (count : Nat)

/-- A turn of a thread, with what the system calls return and the time when it makes them. -/
structure Turn where
  client : Nat
  received : Received
  sent : Sent
  now : Int

/-- Where a thread is in `handle_client`. -/
inductive Progress where
  /-- At `recv`. -/
  | receiving
  /-- At the head of the inner loop. -/
  | scanning
  /-- In `handle_line`, before it locks the mutex for this line. -/
  | locking (line : Bytes)
  /-- At the head of the loop of `send_all`, with what is left to send. The handler returns after
  its last reply. -/
  | sending (rest : Bytes) (last : Bool)
  | returned
  deriving DecidableEq

/-- A thread: the bytes it has not scanned yet and where it is. The stream that it received and
the stream that it sent are kept for the statements. -/
structure Handler where
  pending : Bytes
  progress : Progress
  received : Bytes
  sent : Bytes
  deriving DecidableEq

namespace Handler

/-- `recv`, and what the handler does before it scans. -/
def receive (handler : Handler) : Received → Handler
  | .interrupted => handler
  | .failed => { handler with progress := .returned }
  | .data bytes _ =>
      if bytes = [] then { handler with progress := .returned }
      else if lineMax < handler.pending.length + bytes.length then
        { handler with
          received := handler.received ++ bytes
          progress := .sending (ascii "ERROR\n") true }
      else
        { handler with
          pending := handler.pending ++ bytes
          received := handler.received ++ bytes
          progress := .scanning }

/-- One round of the inner loop up to the mutex, with the line that is answered without it. -/
def scan (handler : Handler) : Handler × Option Bytes :=
  match cutAt lf handler.pending with
  | none =>
      if lineMax < handler.pending.length then
        ({ handler with progress := .sending (ascii "ERROR\n") true }, none)
      else ({ handler with progress := .receiving }, none)
  | some (line, rest) =>
      if 0 ∈ line then
        ({ handler with pending := rest, progress := .sending (ascii "ERROR\n") false }, some line)
      else if stripCr line = [] then
        ({ handler with pending := rest, progress := .sending (ascii "ERROR\n") false }, some line)
      else
        match parseLine (stripCr line) with
        | none =>
            ({ handler with pending := rest, progress := .sending (sendReply .error) false },
              some line)
        | some _ => ({ handler with pending := rest, progress := .locking line }, none)

/-- One round of the loop of `send_all`. -/
def send (handler : Handler) (rest : Bytes) (last : Bool) (sent : Sent) : Handler :=
  if rest = [] then { handler with progress := if last then .returned else .scanning }
  else
    match sent with
    | .interrupted => handler
    | .failed => { handler with progress := .returned }
    | .taken count =>
        if count = 0 then { handler with progress := .returned }
        else
          { handler with
            sent := handler.sent ++ rest.take count
            progress := .sending (rest.drop count) last }

end Handler

/-- The store and the threads, with the lines that were answered so far, each with its client and
with the time at which it was answered. -/
structure Threads where
  store : Store
  handlers : Nat → Handler
  history : List (Nat × Int × Bytes)

/-- Every connection starts at its `recv`. -/
def Threads.start : Threads := ⟨emptyStore, fun _ => ⟨[], .receiving, [], []⟩, []⟩

/-- One turn. The section under the mutex is one step. -/
def Threads.turn (threads : Threads) (turn : Turn) : Threads :=
  let handler := threads.handlers turn.client
  match handler.progress with
  | .receiving =>
      { threads with
        handlers := Function.update threads.handlers turn.client (handler.receive turn.received) }
  | .scanning =>
      { threads with
        handlers := Function.update threads.handlers turn.client handler.scan.1
        history := threads.history ++
          handler.scan.2.toList.map fun line => (turn.client, turn.now, line) }
  | .locking line =>
      let answer := handleLine threads.store turn.now (stripCr line)
      { store := answer.1
        handlers := Function.update threads.handlers turn.client
          { handler with progress := .sending answer.2 false }
        history := threads.history ++ [(turn.client, turn.now, line)] }
  | .sending rest last =>
      { threads with
        handlers := Function.update threads.handlers turn.client
          (handler.send rest last turn.sent) }
  | .returned => threads

/-- The threads after some turns. -/
def Threads.after (turns : List Turn) : Threads := turns.foldl Threads.turn .start

/-! ## The invariant of a thread -/

namespace Progress

/-- The line that was taken out of the buffer and is not answered yet. -/
def taken : Progress → List Bytes
  | .locking line => [line]
  | _ => []

/-- What is left to send. -/
def unsent : Progress → Bytes
  | .sending rest _ => rest
  | _ => []

/-- The handler goes on with its loop. -/
def goesOn : Progress → Bool
  | .sending _ last => !last
  | .returned => false
  | _ => true

end Progress

/-- What a thread has received and sent, given the lines that were answered and the replies. -/
structure Handler.Serves (handler : Handler) (lines replies : List Bytes) : Prop where
  whole : ∀ line ∈ lines, lf ∉ line
  /-- The answered lines stand in front of the stream. -/
  front : joinLines lf lines <+: handler.received
  /-- No byte that was received is lost. -/
  stream : handler.progress.goesOn = true → handler.received =
    joinLines lf (lines ++ handler.progress.taken) ++ handler.pending
  /-- The replies are sent whole and in order. -/
  replied : handler.progress.goesOn = true →
    handler.sent ++ handler.progress.unsent = replies.flatten
  /-- A handler that gives up sends one more error, and one that fails stops anywhere. -/
  sent : handler.sent ++ handler.progress.unsent <+: replies.flatten ++ ascii "ERROR\n"
  idle : handler.progress = .receiving → lf ∉ handler.pending
  locks : ∀ line, handler.progress = .locking line →
    lf ∉ line ∧ 0 ∉ line ∧ stripCr line ≠ []

section Handlers

variable {handler : Handler} {lines replies : List Bytes}

theorem joinLines_concat (lines : List Bytes) (line : Bytes) :
    joinLines lf (lines ++ [line]) = joinLines lf lines ++ (line ++ [lf]) := by
  simp [joinLines]

theorem serves_start : Handler.Serves ⟨[], .receiving, [], []⟩ [] [] where
  whole := fun _ member => absurd member nofun
  front := List.nil_prefix
  stream := fun _ => rfl
  replied := fun _ => rfl
  sent := List.nil_prefix
  idle := fun _ => nofun
  locks := fun _ here => nomatch here

/-- A handler that returns keeps what it has received and sent. -/
theorem Handler.Serves.returned (serves : handler.Serves lines replies) :
    Handler.Serves { handler with progress := .returned } lines replies where
  whole := serves.whole
  front := serves.front
  stream := fun goesOn => nomatch goesOn
  replied := fun goesOn => nomatch goesOn
  sent := by
    dsimp only [Progress.unsent]
    rw [List.append_nil]
    exact (List.prefix_append _ _).trans serves.sent
  idle := nofun
  locks := nofun

theorem Handler.Serves.refuses (serves : handler.Serves lines replies)
    (goesOn : handler.progress.goesOn = true) (nothing : handler.progress.unsent = [])
    (more : Bytes) :
    Handler.Serves { handler with
      received := handler.received ++ more
      progress := .sending (ascii "ERROR\n") true } lines replies where
  whole := serves.whole
  front := serves.front.trans (List.prefix_append _ _)
  stream := fun goesOn => nomatch goesOn
  replied := fun goesOn => nomatch goesOn
  sent := by
    have replied := serves.replied goesOn
    rw [nothing, List.append_nil] at replied
    rw [replied]
    exact List.prefix_refl _
  idle := nofun
  locks := nofun

/-- **Receiving.** -/
theorem Handler.Serves.receive (serves : handler.Serves lines replies)
    (here : handler.progress = .receiving) (received : Received) :
    (handler.receive received).Serves lines replies := by
  have goesOn : handler.progress.goesOn = true := by rw [here]; rfl
  have nothing : handler.progress.unsent = [] := by rw [here]; rfl
  cases received with
  | interrupted => exact serves
  | failed => exact serves.returned
  | data bytes short =>
      rw [Handler.receive]
      split
      · exact serves.returned
      · split
        · exact serves.refuses goesOn nothing bytes
        · have stream := serves.stream goesOn
          have replied := serves.replied goesOn
          rw [here] at stream replied
          refine ⟨serves.whole, serves.front.trans (List.prefix_append _ _), fun _ => ?_,
            fun _ => replied, ?_, nofun, nofun⟩
          · dsimp only
            rw [stream, List.append_assoc]
            rfl
          · exact replied ▸ List.prefix_append _ _

/-- Taking a line out of the buffer. -/
theorem Handler.Serves.stream_cut (serves : handler.Serves lines replies)
    (here : handler.progress = .scanning) {line rest : Bytes}
    (cut : cutAt lf handler.pending = some (line, rest)) :
    lf ∉ line ∧ handler.received = joinLines lf (lines ++ [line]) ++ rest := by
  obtain ⟨split, clean⟩ := cutAt_eq_some_iff.mp cut
  have stream := serves.stream (by rw [here]; rfl)
  refine ⟨clean, ?_⟩
  rw [stream, here, split, joinLines_concat]
  simp [Progress.taken]

/-- A line that is answered, where its reply is about to be sent. -/
theorem Handler.Serves.answers (serves : handler.Serves lines replies)
    (goesOn : handler.progress.goesOn = true) (nothing : handler.progress.unsent = [])
    {line rest : Bytes} (clean : lf ∉ line)
    (stream : handler.received = joinLines lf (lines ++ [line]) ++ rest) (reply : Bytes) :
    Handler.Serves { handler with pending := rest, progress := .sending reply false }
      (lines ++ [line]) (replies ++ [reply]) := by
  have replied : handler.sent ++ reply = (replies ++ [reply]).flatten := by
    have before := serves.replied goesOn
    rw [nothing, List.append_nil] at before
    rw [before, List.flatten_append, List.flatten_singleton]
  refine ⟨fun other member => ?_, ?_, fun _ => ?_, fun _ => replied, ?_, nofun, nofun⟩
  · rcases List.mem_append.mp member with earlier | last
    · exact serves.whole other earlier
    · exact List.mem_singleton.mp last ▸ clean
  · exact stream ▸ List.prefix_append _ _
  · dsimp only [Progress.taken]
    rw [List.append_nil]
    exact stream
  · exact replied ▸ List.prefix_append _ _

/-- A line that no command is read from is answered with an error, whatever is stored. -/
theorem answerLine_of_rejected {line : Bytes}
    (rejected : 0 ∈ line ∨ stripCr line = [] ∨ parseLine (stripCr line) = none) (store : Store)
    (now : Int) : answerLine store (now, line) = (store, ascii "ERROR\n") := by
  rw [answerLine]
  split
  · rfl
  · rename_i accepted
    obtain ⟨noNul, nonempty⟩ := not_or.mp accepted
    have unread := (rejected.resolve_left noNul).resolve_left nonempty
    rw [handleLine, unread]
    rfl

/-- **Scanning.** The handler is left without a line, or it answers one with an error, or it goes
on to the mutex with one. -/
theorem Handler.Serves.scan (serves : handler.Serves lines replies)
    (here : handler.progress = .scanning) :
    (handler.scan.2 = none ∧ handler.scan.1.Serves lines replies) ∨
      ∃ line, handler.scan.2 = some line ∧
        handler.scan.1.Serves (lines ++ [line]) (replies ++ [ascii "ERROR\n"]) ∧
        ∀ store now, answerLine store (now, line) = (store, ascii "ERROR\n") := by
  have goesOn : handler.progress.goesOn = true := by rw [here]; rfl
  have nothing : handler.progress.unsent = [] := by rw [here]; rfl
  have stream := serves.stream goesOn
  have replied := serves.replied goesOn
  rw [here] at stream replied
  rw [Handler.scan]
  cases cut : cutAt lf handler.pending with
  | none =>
      refine .inl ?_
      dsimp only
      split
      · refine ⟨rfl, ?_⟩
        have refuses := serves.refuses goesOn nothing []
        rw [List.append_nil] at refuses
        exact refuses
      · refine ⟨rfl, serves.whole, serves.front, fun _ => stream, fun _ => replied, ?_,
          fun _ => cutAt_eq_none_iff.mp cut, nofun⟩
        exact replied ▸ List.prefix_append _ _
  | some parts =>
      obtain ⟨line, rest⟩ := parts
      obtain ⟨clean, taken⟩ := serves.stream_cut here cut
      have answers := serves.answers goesOn nothing clean taken (ascii "ERROR\n")
      dsimp only
      split
      · rename_i hasNul
        exact .inr ⟨line, rfl, answers, answerLine_of_rejected (.inl hasNul)⟩
      · rename_i noNul
        split
        · rename_i empty
          exact .inr ⟨line, rfl, answers, answerLine_of_rejected (.inr (.inl empty))⟩
        · rename_i nonempty
          cases parsed : parseLine (stripCr line) with
          | none => exact .inr ⟨line, rfl, answers, answerLine_of_rejected (.inr (.inr parsed))⟩
          | some command =>
              refine .inl ⟨rfl, serves.whole, serves.front, fun _ => taken, fun _ => replied, ?_,
                nofun, fun other same => ?_⟩
              · exact replied ▸ List.prefix_append _ _
              · obtain rfl := Progress.locking.inj same
                exact ⟨clean, noNul, nonempty⟩

/-- **Sending.** -/
theorem Handler.Serves.send (serves : handler.Serves lines replies) {rest : Bytes} {last : Bool}
    (here : handler.progress = .sending rest last) (sent : Sent) :
    (handler.send rest last sent).Serves lines replies := by
  have offered := serves.sent
  rw [here, Progress.unsent] at offered
  unfold Handler.send
  split
  · rename_i nothing
    cases last with
    | true => exact serves.returned
    | false =>
        have stream := serves.stream (by rw [here]; rfl)
        have replied := serves.replied (by rw [here]; rfl)
        rw [here] at stream replied
        rw [nothing] at offered
        refine ⟨serves.whole, serves.front, fun _ => stream, fun _ => ?_, offered, nofun, nofun⟩
        rw [Progress.unsent, nothing] at replied
        exact replied
  · cases sent with
    | interrupted => exact serves
    | failed => exact serves.returned
    | taken count =>
        dsimp only
        split
        · exact serves.returned
        · have same : handler.sent ++ rest.take count ++ rest.drop count = handler.sent ++ rest := by
            rw [List.append_assoc, List.take_append_drop]
          refine ⟨serves.whole, serves.front, fun goesOn => ?_, fun goesOn => ?_, ?_, nofun, nofun⟩
          · have stream := serves.stream (by rw [here]; exact goesOn)
            rw [here] at stream
            exact stream
          · have replied := serves.replied (by rw [here]; exact goesOn)
            rw [here, Progress.unsent] at replied
            exact same.trans replied
          · rw [Progress.unsent, same]
            exact offered

end Handlers

/-! ## One order for all clients -/

/-- The lines of a client that were answered. -/
def Threads.lines (threads : Threads) (client : Nat) : List Bytes :=
  (inputsOf threads.history client).map Prod.snd

/-- The store is what the history leaves, and every thread serves its client's part of it. -/
structure Threads.Linearized (threads : Threads) : Prop where
  store : threads.store = (runReplies answerLine emptyStore (threads.history.map Prod.snd)).1
  serves : ∀ client, (threads.handlers client).Serves (threads.lines client)
    (repliesOf answerLine emptyStore threads.history client)

section Turns

variable {threads : Threads}

/-- A turn that answers nothing. -/
theorem Threads.Linearized.quiet (linearized : threads.Linearized) {client : Nat}
    {handler : Handler}
    (serves : handler.Serves (threads.lines client)
      (repliesOf answerLine emptyStore threads.history client)) :
    Threads.Linearized { threads with
      handlers := Function.update threads.handlers client handler } := by
  refine ⟨linearized.store, fun other => ?_⟩
  by_cases same : other = client
  · subst same
    dsimp only
    rw [Function.update_self]
    exact serves
  · dsimp only
    rw [Function.update_of_ne same]
    exact linearized.serves other

/-- **A turn that answers a line**, which is put behind the lines answered before. -/
theorem Threads.Linearized.answers (linearized : threads.Linearized) {client : Nat} {now : Int}
    {line : Bytes} {handler : Handler}
    (serves : handler.Serves (threads.lines client ++ [line])
      (repliesOf answerLine emptyStore threads.history client ++
        [(answerLine threads.store (now, line)).2])) :
    Threads.Linearized
      ⟨(answerLine threads.store (now, line)).1,
        Function.update threads.handlers client handler,
        threads.history ++ [(client, now, line)]⟩ := by
  refine ⟨?_, fun other => ?_⟩
  · rw [List.map_append, runReplies_append, ← linearized.store]
    rfl
  · rw [Threads.lines, inputsOf_concat, repliesOf_concat, List.map_append, ← Threads.lines,
      ← linearized.store]
    by_cases same : client = other
    · subst same
      dsimp only
      rw [if_pos rfl, if_pos rfl, Function.update_self]
      exact serves
    · dsimp only
      rw [if_neg same, if_neg same, List.map_nil, List.append_nil, List.append_nil,
        Function.update_of_ne (Ne.symm same)]
      exact linearized.serves other

/-- **One turn.** -/
theorem Threads.Linearized.turn (linearized : threads.Linearized) (turn : Turn) :
    (threads.turn turn).Linearized := by
  have serves := linearized.serves turn.client
  rw [Threads.turn]
  dsimp only
  split
  · rename_i here
    exact linearized.quiet (serves.receive here turn.received)
  · rename_i here
    rcases serves.scan here with ⟨nothing, still⟩ | ⟨line, answered, still, reply⟩
    · rw [nothing, Option.toList_none, List.map_nil, List.append_nil]
      exact linearized.quiet still
    · have next := @Threads.Linearized.answers _ linearized turn.client turn.now line
        (threads.handlers turn.client).scan.1 (by rw [reply]; exact still)
      rw [reply] at next
      rw [answered]
      exact next
  · rename_i line here
    obtain ⟨clean, noNul, nonempty⟩ := serves.locks line here
    have goesOn : (threads.handlers turn.client).progress.goesOn = true := by rw [here]; rfl
    have critical : answerLine threads.store (turn.now, line) =
        handleLine threads.store turn.now (stripCr line) :=
      if_neg (not_or.mpr ⟨noNul, nonempty⟩)
    have stream := serves.stream goesOn
    rw [here, Progress.taken] at stream
    have next := @Threads.Linearized.answers _ linearized turn.client turn.now line _
      (serves.answers goesOn (by rw [here]; rfl) clean stream
        (answerLine threads.store (turn.now, line)).2)
    rw [critical] at next
    exact next
  · rename_i rest last here
    exact linearized.quiet (serves.send here turn.sent)
  · exact linearized

theorem linearized_after (turns : List Turn) : (Threads.after turns).Linearized := by
  have start : Threads.start.Linearized := ⟨rfl, fun _ => serves_start⟩
  rw [Threads.after]
  generalize Threads.start = threads at start
  induction turns generalizing threads with
  | nil => exact start
  | cons turn turns ih => exact ih (threads.turn turn) (start.turn turn)

/-- The history has the order of the turns. -/
theorem history_sublist (turns : List Turn) :
    List.Sublist ((Threads.after turns).history.map fun entry => (entry.1, entry.2.1))
      (turns.map fun turn => (turn.client, turn.now)) := by
  induction turns using List.reverseRecOn with
  | nil => exact List.Sublist.refl _
  | append_singleton turns turn ih =>
      have step : Threads.after (turns ++ [turn]) = (Threads.after turns).turn turn := by
        rw [Threads.after, List.foldl_append]
        rfl
      have before := ih.trans (List.sublist_append_left _ [(turn.client, turn.now)])
      have behind := ih.append (List.Sublist.refl [(turn.client, turn.now)])
      rw [step, List.map_append, List.map_singleton, Threads.turn]
      dsimp only
      split
      · exact before
      · cases (Handler.scan ((Threads.after turns).handlers turn.client)).2 with
        | none => simpa using before
        | some line => simpa using behind
      · simpa using behind
      · exact before
      · exact before

end Turns

/-! ## The abstract cache -/

/-- What the abstract cache answers to a line. -/
noncomputable def answerAbstract (map : AbstractCache) (stamped : Int × Bytes) :
    AbstractCache × Bytes :=
  if 0 ∈ stamped.2 ∨ stripCr stamped.2 = [] then (map, ascii "ERROR\n")
  else
    match parseLine (stripCr stamped.2) with
    | none => (map, Reply.format .error)
    | some command =>
        ((map.execute stamped.1 command).1, (map.execute stamped.1 command).2.format)

theorem answerLine_simulates {stamped : Int × Bytes} (clean : lf ∉ stamped.2) {store : Store}
    {map : AbstractCache} (related : Related stamped.1 store map) :
    (answerLine store stamped).2 = (answerAbstract map stamped).2 ∧
      Related stamped.1 (answerLine store stamped).1 (answerAbstract map stamped).1 := by
  rw [answerLine, answerAbstract]
  split
  · exact ⟨rfl, related⟩
  · rename_i accepted
    obtain ⟨noNul, -⟩ := not_or.mp accepted
    have isLine : IsLine (stripCr stamped.2) :=
      ⟨fun member => noNul (mem_stripCr member), fun member => clean (mem_stripCr member)⟩
    exact serve_simulates ⟨0, stamped.1, stripCr stamped.2, isLine⟩ store map related

/-- Lines at nondecreasing times are answered as by the abstract cache. -/
theorem replies_answerAbstract {inputs : List (Int × Bytes)} (ordered : Ordered Prod.fst inputs)
    (clean : ∀ input ∈ inputs, lf ∉ input.2) :
    (runReplies answerLine emptyStore inputs).2 =
      (runReplies answerAbstract (fun _ => none) inputs).2 :=
  (runReplies_simulation Related Related.mono
    (fun input member _ _ related => answerLine_simulates (clean input member) related) ordered
    fun input _ => related_empty input.1).1

/-- **The cache is linearizable.** Let the threads take turns in any order, with any cuts and
failures of their connections. Then the lines of a client that were answered are the first lines
of its stream, in one history of all clients that has the order of the turns. The client was sent
what one expiring map answers to its lines in that history, up to where its connection failed or
was given up with one more error. A client whose thread waits for more has all its complete lines
answered, and the replies sent whole. -/
theorem threads_linearizable {turns : List Turn}
    (ordered : turns.Pairwise fun earlier later => earlier.now ≤ later.now) (client : Nat) :
    List.Sublist ((Threads.after turns).history.map fun entry => (entry.1, entry.2.1))
        (turns.map fun turn => (turn.client, turn.now)) ∧
      joinLines lf ((Threads.after turns).lines client) <+:
        ((Threads.after turns).handlers client).received ∧
      ((Threads.after turns).handlers client).sent <+:
        (repliesOf answerAbstract (fun _ => none) (Threads.after turns).history client).flatten ++
          ascii "ERROR\n" ∧
      (((Threads.after turns).handlers client).progress = .receiving →
        (Threads.after turns).lines client =
            (splitLines lf ((Threads.after turns).handlers client).received).1 ∧
          ((Threads.after turns).handlers client).sent =
            (repliesOf answerAbstract (fun _ => none) (Threads.after turns).history
              client).flatten) := by
  have linearized := linearized_after turns
  have serves := linearized.serves client
  have times : Ordered Prod.fst ((Threads.after turns).history.map Prod.snd) := by
    rw [Ordered, List.pairwise_map]
    have sorted : (turns.map fun turn => (turn.client, turn.now)).Pairwise
        fun earlier later => earlier.2 ≤ later.2 := List.pairwise_map.mpr ordered
    have answered := sorted.sublist (history_sublist turns)
    rw [List.pairwise_map] at answered
    exact answered
  have clean : ∀ input ∈ (Threads.after turns).history.map Prod.snd, lf ∉ input.2 := by
    intro input member
    obtain ⟨⟨sender, stamped⟩, recorded, rfl⟩ := List.mem_map.mp member
    refine (linearized.serves sender).whole stamped.2 (List.mem_map.mpr ⟨stamped, ?_, rfl⟩)
    exact List.mem_filterMap.mpr ⟨_, recorded, if_pos rfl⟩
  have abstract : repliesOf answerLine emptyStore (Threads.after turns).history client =
      repliesOf answerAbstract (fun _ => none) (Threads.after turns).history client := by
    rw [repliesOf, replies_answerAbstract times clean, repliesOf]
  rw [abstract] at serves
  refine ⟨history_sublist turns, serves.front, (List.prefix_append _ _).trans serves.sent,
    fun waiting => ?_⟩
  have stream := serves.stream (by rw [waiting]; rfl)
  have replied := serves.replied (by rw [waiting]; rfl)
  rw [waiting] at stream replied
  dsimp only [Progress.taken, Progress.unsent] at stream replied
  rw [List.append_nil] at stream replied
  exact ⟨by rw [stream, splitLines_joinLines serves.whole (serves.idle waiting)], replied⟩

/-- Two clients whose commands arrive in pieces and whose threads take turns. -/
def sampleTurns : List Turn :=
  [⟨0, .data (ascii "SET a 0 b\nGE") (by decide), .failed, 0⟩, ⟨0, .failed, .failed, 1⟩,
    ⟨1, .data (ascii "GET a\n") (by decide), .failed, 2⟩, ⟨1, .failed, .failed, 3⟩,
    ⟨0, .failed, .failed, 4⟩, ⟨1, .failed, .failed, 5⟩, ⟨1, .failed, .taken 2, 6⟩]

theorem threads_linearizable_sample :
    ((Threads.after sampleTurns).handlers 1).sent <+:
      (repliesOf answerAbstract (fun _ => none) (Threads.after sampleTurns).history 1).flatten ++
        ascii "ERROR\n" :=
  (threads_linearizable (by decide) 1).2.2.1

end InfraFromScratch.Cache
