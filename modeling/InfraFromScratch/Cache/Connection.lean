import InfraFromScratch.Cache.Reachable

/-!
# One connection of the cache

`handle_client` receives chunks into a pending buffer, handles every complete line
in it, and keeps the unfinished rest for the next chunk. How TCP cuts the stream
into chunks must not matter.

It does not, as long as no line comes near the size of the buffer
(`handleClient_framing`): the store and the bytes sent are those of answering the
complete lines of the stream one after another, and an unfinished last line has no
effect. The limit is tested on the pending bytes together with the whole new chunk,
so the lines have to leave room for one chunk.
-/

set_option autoImplicit false

namespace InfraFromScratch.Cache

open Foundations

/-- `LINE_MAX`. -/
def lineMax : Nat := 64 * 1024

/-- `RECV_BUF`. -/
def recvBuf : Nat := 4096

/-- What the surroundings of a connection decide: the time at which the k-th line
holds the mutex, and whether the k-th reply is sent whole (`none`) or fails after
some of its bytes. -/
structure Session where
  clock : Nat → Int
  sends : Nat → Option Nat

/-- The store, the bytes sent so far, the number of replies, and whether the
handler has returned. -/
structure ClientState where
  store : Store
  sent : Bytes
  answered : Nat
  closed : Bool

variable (session : Session)

/-- `send_all` of one reply. A failed send makes the handler return. -/
def sendAll (state : ClientState) (reply : Bytes) : ClientState :=
  match session.sends state.answered with
  | none => { state with sent := state.sent ++ reply, answered := state.answered + 1 }
  | some size =>
      { state with
        sent := state.sent ++ reply.take size
        answered := state.answered + 1
        closed := true }

/-- One trailing carriage return is dropped. -/
def stripCr (line : Bytes) : Bytes := if line.getLast? = some cr then line.dropLast else line

/-- The body of the inner loop, for one line without its newline. -/
def serveLine (state : ClientState) (line : Bytes) : ClientState :=
  if 0 ∈ line then sendAll session state (ascii "ERROR\n")
  else if stripCr line = [] then sendAll session state (ascii "ERROR\n")
  else
    let answer := handleLine state.store (session.clock state.answered) (stripCr line)
    sendAll session { state with store := answer.1 } answer.2

/-- The inner loop: serve the complete lines of the pending bytes, and return what
is left of them. -/
def serveLines (state : ClientState) (pending : Bytes) : ClientState × Bytes :=
  match _found : cutAt lf pending with
  | none => (state, pending)
  | some (line, rest) =>
      let next := serveLine session state line
      if next.closed then (next, rest) else serveLines next rest
termination_by pending.length
decreasing_by exact cutAt_length_lt _found

/-- `handle_client`: one round for each received chunk, until the peer closes or the
handler gives up. -/
def handleClient (state : ClientState) (pending : Bytes) : List Bytes → ClientState
  | [] => state
  | chunk :: chunks =>
      if lineMax < pending.length + chunk.length then
        { sendAll session state (ascii "ERROR\n") with closed := true }
      else
        let served := serveLines session state (pending ++ chunk)
        if served.1.closed then served.1
        else if lineMax < served.2.length then
          { sendAll session served.1 (ascii "ERROR\n") with closed := true }
        else handleClient served.1 served.2 chunks

/-- A connection before its first chunk. -/
def ClientState.start (store : Store) : ClientState := ⟨store, [], 0, false⟩

/-! ## What a line is answered -/

/-- The answer to one line at the time given with it: an error when the line
contains a NUL or nothing is left of it without its carriage return, and otherwise
that of `handle_line`. -/
def answerLine (store : Store) (stamped : Int × Bytes) : Store × Bytes :=
  if 0 ∈ stamped.2 ∨ stripCr stamped.2 = [] then (store, ascii "ERROR\n")
  else handleLine store stamped.1 (stripCr stamped.2)

/-- Lines with the times of a clock, from the given index on. -/
def stampLines (clock : Nat → Int) : Nat → List Bytes → List (Int × Bytes)
  | _, [] => []
  | index, line :: lines => (clock index, line) :: stampLines clock (index + 1) lines

theorem stampLines_length (clock : Nat → Int) (index : Nat) (lines : List Bytes) :
    (stampLines clock index lines).length = lines.length := by
  induction lines generalizing index with
  | nil => rfl
  | cons line lines ih => simp [stampLines, ih]

theorem snd_mem_of_mem_stampLines {clock : Nat → Int} {index : Nat} {lines : List Bytes}
    {stamped : Int × Bytes} (member : stamped ∈ stampLines clock index lines) :
    stamped.2 ∈ lines := by
  induction lines generalizing index with
  | nil => cases member
  | cons line lines ih =>
      rcases List.mem_cons.mp member with rfl | later
      · exact List.mem_cons_self
      · exact List.mem_cons_of_mem _ (ih later)

theorem mem_stripCr {line : Bytes} {byte : UInt8} (member : byte ∈ stripCr line) : byte ∈ line := by
  unfold stripCr at member
  split at member
  · exact List.mem_of_mem_dropLast member
  · exact member

theorem answerLine_clean {store : Store} (clean : Clean store) {stamped : Int × Bytes}
    (noNewline : lf ∉ stamped.2) : Clean (answerLine store stamped).1 := by
  unfold answerLine
  split
  · exact clean
  · rename_i accepted
    obtain ⟨noNul, _⟩ := not_or.mp accepted
    exact handleLine_clean clean _
      ⟨fun member => noNul (mem_stripCr member), fun member => noNewline (mem_stripCr member)⟩

theorem answerLine_oneLine {store : Store} (clean : Clean store) (stamped : Int × Bytes) :
    ∃ text, (answerLine store stamped).2 = text ++ [lf] ∧ lf ∉ text := by
  unfold answerLine
  split
  · exact ⟨ascii "ERROR", rfl, by decide⟩
  · exact handleLine_oneLine clean _ _

/-- Every reply of a run over lines is one line. -/
theorem run_oneLine {inputs : List (Int × Bytes)} (noNewline : ∀ input ∈ inputs, lf ∉ input.2)
    {store : Store} (clean : Clean store) :
    ∀ reply ∈ (runReplies answerLine store inputs).2, ∃ text, reply = text ++ [lf] ∧ lf ∉ text := by
  induction inputs generalizing store with
  | nil => simp
  | cons input inputs ih =>
      intro reply member
      rw [runReplies_cons] at member
      rcases List.mem_cons.mp member with rfl | later
      · exact answerLine_oneLine clean input
      · exact ih (fun other here => noNewline other (List.mem_cons_of_mem _ here))
          (answerLine_clean clean (noNewline input List.mem_cons_self)) reply later

/-! ## Room for the next chunk -/

/-- Every chunk fits into the buffer together with the unfinished line that the pending
bytes and the chunks before it leave. -/
def Fits (pending : Bytes) (chunks : List Bytes) : Prop :=
  ∀ before chunk after, chunks = before ++ chunk :: after →
    (splitLines lf (pending ++ before.flatten)).2.length + chunk.length ≤ lineMax

theorem fits_nil (pending : Bytes) : Fits pending [] := by
  intro before chunk after split
  simp at split

/-- One chunk at a time: the first has to fit with the pending bytes, and the others
with what it leaves. -/
theorem fits_cons_iff {pending chunk : Bytes} {chunks : List Bytes} (unfinished : lf ∉ pending) :
    Fits pending (chunk :: chunks) ↔
      pending.length + chunk.length ≤ lineMax ∧
        Fits (splitLines lf (pending ++ chunk)).2 chunks := by
  have leaves : ∀ before : List Bytes,
      (splitLines lf (pending ++ (chunk :: before).flatten)).2 =
        (splitLines lf ((splitLines lf (pending ++ chunk)).2 ++ before.flatten)).2 := by
    intro before
    rw [List.flatten_cons, ← List.append_assoc, splitLines_append]
  constructor
  · intro fits
    refine ⟨?_, fun before other after split => ?_⟩
    · simpa [splitLines_of_notMem unfinished] using fits [] chunk chunks rfl
    · rw [← leaves]
      exact fits (chunk :: before) other after (by rw [split, List.cons_append])
  · rintro ⟨room, fits⟩ before other after split
    cases before with
    | nil =>
        obtain ⟨rfl, -⟩ := List.cons.inj split
        simpa [splitLines_of_notMem unfinished] using room
    | cons first before =>
        obtain ⟨rfl, later⟩ := List.cons.inj split
        rw [leaves]
        exact fits before other after later

/-- Chunks of at most `recvBuf` bytes fit when every line leaves room for one. -/
theorem fits_of_short {chunks : List Bytes} (sizes : ∀ chunk ∈ chunks, chunk.length ≤ recvBuf)
    {pending : Bytes}
    (lines : ∀ line ∈ (splitLines lf (pending ++ chunks.flatten)).1,
      line.length ≤ lineMax - recvBuf)
    (rest : (splitLines lf (pending ++ chunks.flatten)).2.length ≤ lineMax - recvBuf) :
    Fits pending chunks := by
  rintro before chunk after rfl
  have chunkFits : chunk.length ≤ recvBuf := sizes chunk (by simp)
  -- The unfinished line is the front of what the stream goes on with.
  have split := splitLines_append lf (pending ++ before.flatten) (chunk ++ after.flatten)
  rw [List.flatten_append, List.flatten_cons, ← List.append_assoc, split] at lines rest
  have short : (splitLines lf (pending ++ before.flatten)).2.length ≤ lineMax - recvBuf :=
    length_le_of_front (notMem_rest lf _)
      (fun line member => lines line (List.mem_append_right _ member)) rest
  unfold lineMax recvBuf at *
  omega

/-! ## Serving all complete lines -/

variable {session}

section Delivered

variable (delivered : ∀ index, session.sends index = none)
include delivered

theorem sendAll_delivered (state : ClientState) (reply : Bytes) :
    sendAll session state reply =
      { state with sent := state.sent ++ reply, answered := state.answered + 1 } := by
  simp [sendAll, delivered]

/-- One round of the inner loop is one answer. -/
theorem serveLine_eq (state : ClientState) (line : Bytes) :
    serveLine session state line =
      { state with
        store := (answerLine state.store (session.clock state.answered, line)).1
        sent := state.sent ++ (answerLine state.store (session.clock state.answered, line)).2
        answered := state.answered + 1 } := by
  unfold serveLine answerLine
  by_cases hasNul : 0 ∈ line
  · simp [hasNul, sendAll_delivered delivered]
  · by_cases empty : stripCr line = []
    · simp [hasNul, empty, sendAll_delivered delivered]
    · simp [hasNul, empty, sendAll_delivered delivered]

/-- Serving lines one after another is a run of answers. -/
theorem foldl_serveLine_eq (state : ClientState) (lines : List Bytes) :
    lines.foldl (serveLine session) state =
      { state with
        store := (runReplies answerLine state.store
          (stampLines session.clock state.answered lines)).1
        sent := state.sent ++ (runReplies answerLine state.store
          (stampLines session.clock state.answered lines)).2.flatten
        answered := state.answered + lines.length } := by
  induction lines generalizing state with
  | nil => simp [stampLines]
  | cons line lines ih =>
      rw [List.foldl_cons, ih, serveLine_eq delivered]
      simp only [stampLines, runReplies_cons, List.flatten_cons, List.append_assoc,
        List.length_cons, ClientState.mk.injEq, true_and]
      exact ⟨by omega, trivial⟩

/-- **The inner loop** serves exactly the complete lines, in order, and leaves the
unfinished rest. -/
theorem serveLines_eq (state : ClientState) (opened : state.closed = false) (pending : Bytes) :
    serveLines session state pending =
      ((splitLines lf pending).1.foldl (serveLine session) state, (splitLines lf pending).2) := by
  induction length : pending.length using Nat.strongRecOn generalizing pending state with
  | ind n ih =>
      rw [serveLines]
      split
      · rename_i found
        rw [splitLines_of_notMem (cutAt_eq_none_iff.mp found)]
        rfl
      · rename_i line rest found
        obtain ⟨rfl, clean⟩ := cutAt_eq_some_iff.mp found
        have stillOpen : (serveLine session state line).closed = false := by
          rw [serveLine_eq delivered]
          exact opened
        have shorter : rest.length < n := by
          rw [← length]
          exact cutAt_length_lt found
        simp only [stillOpen, Bool.false_eq_true, if_false]
        rw [ih rest.length shorter _ stillOpen rest rfl, splitLines_cons_piece clean,
          List.foldl_cons]

theorem foldl_serveLine_closed (state : ClientState) (opened : state.closed = false)
    (lines : List Bytes) : (lines.foldl (serveLine session) state).closed = false := by
  rw [foldl_serveLine_eq delivered]
  exact opened

/-- **The chunks do not matter** as long as they fit. With some unfinished bytes
pending, the rest of the stream is served as if it had come at once. -/
theorem handleClient_of_fits {chunks : List Bytes} {pending : Bytes} (unfinished : lf ∉ pending)
    (fits : Fits pending chunks) (state : ClientState) (opened : state.closed = false) :
    handleClient session state pending chunks =
      (splitLines lf (pending ++ chunks.flatten)).1.foldl (serveLine session) state := by
  induction chunks generalizing pending state with
  | nil =>
      rw [List.flatten_nil, List.append_nil, splitLines_of_notMem unfinished]
      rfl
  | cons chunk chunks ih =>
      obtain ⟨room, laterFit⟩ := (fits_cons_iff unfinished).mp fits
      have restRoom := length_rest_le lf (pending ++ chunk)
      rw [List.length_append] at restRoom
      have stillOpen := foldl_serveLine_closed delivered state opened
        (splitLines lf (pending ++ chunk)).1
      rw [handleClient, if_neg (by omega), serveLines_eq delivered state opened]
      simp only [stillOpen, Bool.false_eq_true, if_false]
      -- The stream splits into the lines this chunk completes and those of the rest.
      rw [if_neg (by omega), ih (notMem_rest lf _) laterFit _ stillOpen, List.flatten_cons,
        ← List.append_assoc, splitLines_append lf (pending ++ chunk), List.foldl_append]

end Delivered

/-! ## The law of framing -/

/-- A stream of complete lines and a tail is served line by line, however it is cut. -/
theorem handleClient_of_stream {lines : List Bytes} {tail : Bytes} {chunks : List Bytes}
    {session : Session} (delivered : ∀ index, session.sends index = none) (store : Store)
    (complete : ∀ line ∈ lines, lf ∉ line ∧ line.length ≤ lineMax - recvBuf)
    (unfinished : lf ∉ tail) (short : tail.length ≤ lineMax - recvBuf)
    (stream : chunks.flatten = joinLines lf lines ++ tail)
    (sizes : ∀ chunk ∈ chunks, 1 ≤ chunk.length ∧ chunk.length ≤ recvBuf) :
    (handleClient session (.start store) [] chunks).store =
        (runReplies answerLine store (stampLines session.clock 0 lines)).1 ∧
      (handleClient session (.start store) [] chunks).sent =
        (runReplies answerLine store (stampLines session.clock 0 lines)).2.flatten ∧
      (handleClient session (.start store) [] chunks).closed = false := by
  have split : splitLines lf ([] ++ chunks.flatten) = (lines, tail) := by
    rw [List.nil_append, stream]
    exact splitLines_joinLines (fun line member => (complete line member).1) unfinished
  have served : handleClient session (.start store) [] chunks =
      (splitLines lf ([] ++ chunks.flatten)).1.foldl (serveLine session) (.start store) := by
    refine handleClient_of_fits delivered (by simp)
      (fits_of_short (fun chunk member => (sizes chunk member).2) ?_ ?_) (.start store) rfl
    · rw [split]
      exact fun line member => (complete line member).2
    · rw [split]
      exact short
  rw [split, foldl_serveLine_eq delivered] at served
  exact ⟨by rw [served]; rfl, by rw [served]; rfl, by rw [served]; rfl⟩

/-- **Framing.** Let the stream consist of complete lines and an unfinished tail, none
longer than `lineMax - recvBuf`. However it is cut into chunks of 1 to `recvBuf` bytes,
every complete line gets one reply, in order, which is what `answerLine` says and
ends in its only newline; the store is that of answering the lines; the tail has no
effect. -/
theorem handleClient_framing (lines : List Bytes) (tail : Bytes) (chunks : List Bytes)
    {session : Session} (delivered : ∀ index, session.sends index = none)
    {now : Int} {store : Store} (reachable : Reachable now store)
    (complete : ∀ line ∈ lines, lf ∉ line ∧ line.length ≤ lineMax - recvBuf)
    (unfinished : lf ∉ tail) (short : tail.length ≤ lineMax - recvBuf)
    (stream : chunks.flatten = joinLines lf lines ++ tail)
    (sizes : ∀ chunk ∈ chunks, 1 ≤ chunk.length ∧ chunk.length ≤ recvBuf) :
    (handleClient session (.start store) [] chunks).store =
        (runReplies answerLine store (stampLines session.clock 0 lines)).1 ∧
      (handleClient session (.start store) [] chunks).sent =
        (runReplies answerLine store (stampLines session.clock 0 lines)).2.flatten ∧
      (handleClient session (.start store) [] chunks).closed = false ∧
      (runReplies answerLine store (stampLines session.clock 0 lines)).2.length = lines.length ∧
      ∀ reply ∈ (runReplies answerLine store (stampLines session.clock 0 lines)).2,
        ∃ text, reply = text ++ [lf] ∧ lf ∉ text := by
  obtain ⟨map, related⟩ := reachable.related
  obtain ⟨finalStore, sent, opened⟩ :=
    handleClient_of_stream delivered store complete unfinished short stream sizes
  refine ⟨finalStore, sent, opened, ?_, ?_⟩
  · rw [runReplies_length, stampLines_length]
  · exact run_oneLine
      (fun input member => (complete _ (snd_mem_of_mem_stampLines member)).1) related.clean

theorem reachable_empty (now : Int) : Reachable now emptyStore :=
  ⟨[], List.Pairwise.nil, by simp, rfl⟩

/-- A command that arrives in two chunks, the second with the start of another. -/
theorem handleClient_framing_sample :
    (handleClient ⟨fun _ => 0, fun _ => none⟩ (.start emptyStore) []
        [ascii "GE", ascii "T a\nSE"]).sent =
      (runReplies answerLine emptyStore (stampLines (fun _ => 0) 0 [ascii "GET a"])).2.flatten :=
  (handleClient_framing [ascii "GET a"] (ascii "SE") [ascii "GE", ascii "T a\nSE"] (fun _ => rfl)
    (reachable_empty 0) (by decide) (by decide) (by decide) (by decide) (by decide)).2.1

end InfraFromScratch.Cache
