import InfraFromScratch.Cache.Connection

/-!
# The limit on lines is a limit on what is buffered

The cache is to refuse lines longer than 64 KiB and to answer all others
(`LimitRespected`). The handler tests the pending bytes together with the whole
new chunk, before it takes the complete lines out of them. A chunk that ends a long
line may also carry the next commands, and then the handler gives up although every
line is within the limit (`pipelined_line_refused`).

The limit is respected exactly when every chunk fits into the buffer together with
the unfinished line before it, or the stream does have an excessive line
(`limitRespected_iff`).
-/

set_option autoImplicit false

namespace InfraFromScratch.Cache

open Foundations

/-! ## Giving up -/

section GivesUp

variable (session : Session)

/-- One of the two tests of `handle_client` finds more than `lineMax` bytes, so that the
handler sends `ERROR` and returns. -/
def givesUp (state : ClientState) (pending : Bytes) : List Bytes → Bool
  | [] => false
  | chunk :: chunks =>
      if lineMax < pending.length + chunk.length then true
      else
        let served := serveLines session state (pending ++ chunk)
        if served.1.closed then false
        else if lineMax < served.2.length then true
        else givesUp served.1 served.2 chunks

variable {session}

/-- Giving up is sending one more `ERROR` and closing. -/
theorem handleClient_of_givesUp {chunks : List Bytes} {pending : Bytes} {state : ClientState}
    (excess : givesUp session state pending chunks = true) :
    ∃ reached, handleClient session state pending chunks =
      { sendAll session reached (ascii "ERROR\n") with closed := true } := by
  induction chunks generalizing pending state with
  | nil => cases excess
  | cons chunk chunks ih =>
      unfold givesUp at excess
      unfold handleClient
      by_cases tooMuch : lineMax < pending.length + chunk.length
      · exact ⟨state, if_pos tooMuch⟩
      · rw [if_neg tooMuch] at excess ⊢
        dsimp only at excess ⊢
        cases closed : (serveLines session state (pending ++ chunk)).1.closed with
        | true => simp [closed] at excess
        | false =>
            simp only [closed, Bool.false_eq_true, if_false] at excess ⊢
            by_cases long : lineMax < (serveLines session state (pending ++ chunk)).2.length
            · exact ⟨_, if_pos long⟩
            · rw [if_neg long] at excess ⊢
              exact ih excess

/-- An inner loop that is left open has taken out all complete lines, whatever became
of the replies. -/
theorem serveLines_rest {state : ClientState} {pending : Bytes}
    (opened : (serveLines session state pending).1.closed = false) :
    (serveLines session state pending).2 = (splitLines lf pending).2 := by
  induction length : pending.length using Nat.strongRecOn generalizing pending state with
  | ind n ih =>
      rw [serveLines] at opened ⊢
      split at opened
      · rename_i found
        rw [splitLines_of_notMem (cutAt_eq_none_iff.mp found)]
      · rename_i line rest found
        obtain ⟨rfl, clean⟩ := cutAt_eq_some_iff.mp found
        have shorter : rest.length < n := by
          rw [← length]
          exact cutAt_length_lt found
        cases closed : (serveLine session state line).closed with
        | true => simp [closed] at opened
        | false =>
            simp only [closed, Bool.false_eq_true, if_false] at opened ⊢
            rw [splitLines_cons_piece clean]
            exact ih rest.length shorter opened rfl

/-- **Chunks that fit are never too much**, whatever becomes of the replies. -/
theorem givesUp_of_fits {chunks : List Bytes} {pending : Bytes} (unfinished : lf ∉ pending)
    (fits : Fits pending chunks) (state : ClientState) :
    givesUp session state pending chunks = false := by
  induction chunks generalizing pending state with
  | nil => rfl
  | cons chunk chunks ih =>
      obtain ⟨room, laterFit⟩ := (fits_cons_iff unfinished).mp fits
      unfold givesUp
      rw [if_neg (by omega)]
      dsimp only
      cases closed : (serveLines session state (pending ++ chunk)).1.closed with
      | true => rfl
      | false =>
          have restRoom := length_rest_le lf (pending ++ chunk)
          rw [List.length_append] at restRoom
          simp only [Bool.false_eq_true, if_false, serveLines_rest closed]
          rw [if_neg (by omega)]
          exact ih (notMem_rest lf _) laterFit _

/-- **A chunk that does not fit is too much**, as long as the replies are delivered. -/
theorem givesUp_of_not_fits (delivered : ∀ index, session.sends index = none)
    {chunks : List Bytes} {pending : Bytes} (unfinished : lf ∉ pending)
    (crowded : ¬ Fits pending chunks) (state : ClientState) (opened : state.closed = false) :
    givesUp session state pending chunks = true := by
  induction chunks generalizing pending state with
  | nil => exact absurd (fits_nil pending) crowded
  | cons chunk chunks ih =>
      rw [fits_cons_iff unfinished, not_and] at crowded
      unfold givesUp
      by_cases tooMuch : lineMax < pending.length + chunk.length
      · rw [if_pos tooMuch]
      · have stillOpen := foldl_serveLine_closed delivered state opened
          (splitLines lf (pending ++ chunk)).1
        rw [if_neg tooMuch, serveLines_eq delivered state opened]
        simp only [stillOpen, Bool.false_eq_true, if_false]
        split
        · rfl
        · exact ih (notMem_rest lf _) (crowded (by omega)) _ stillOpen

end GivesUp

/-! ## The limit -/

/-- Some line of the stream, with its newline, or the unterminated tail is longer than
`LINE_MAX`. -/
def Excessive (stream : Bytes) : Prop :=
  (∃ line ∈ (splitLines lf stream).1, lineMax < (line ++ [lf]).length) ∨
    lineMax < (splitLines lf stream).2.length

/-- The connection answers every complete line of the stream in order and stays open. -/
def AnswersAll (session : Session) (store : Store) (chunks : List Bytes) : Prop :=
  let lines := (splitLines lf chunks.flatten).1
  let answers := runReplies answerLine store (stampLines session.clock 0 lines)
  (handleClient session (.start store) [] chunks).store = answers.1 ∧
    (handleClient session (.start store) [] chunks).sent = answers.2.flatten ∧
    (handleClient session (.start store) [] chunks).answered = lines.length ∧
    (handleClient session (.start store) [] chunks).closed = false

/-- The handler gives up for excess only on excessive streams, and answers every line of
the others when the peer takes the replies. -/
def LimitRespected (chunks : List Bytes) : Prop :=
  (∀ session store, givesUp session (.start store) [] chunks = true →
    Excessive chunks.flatten) ∧
    (¬ Excessive chunks.flatten → ∀ session store, (∀ index, session.sends index = none) →
      AnswersAll session store chunks)

theorem answersAll_of_fits {chunks : List Bytes} (fits : Fits [] chunks) {session : Session}
    (delivered : ∀ index, session.sends index = none) (store : Store) :
    AnswersAll session store chunks := by
  have served := handleClient_of_fits delivered (by simp) fits (.start store) rfl
  rw [List.nil_append, foldl_serveLine_eq delivered] at served
  unfold AnswersAll
  rw [served]
  exact ⟨rfl, rfl, Nat.zero_add _, rfl⟩

/-- A chunk that does not fit breaks the limit, unless some line is excessive. -/
theorem not_limitRespected {chunks : List Bytes} (short : ¬ Excessive chunks.flatten)
    (crowded : ¬ Fits [] chunks) : ¬ LimitRespected chunks := by
  rintro ⟨onlyExcessive, -⟩
  have excess : givesUp ⟨fun _ => 0, fun _ => none⟩ (.start emptyStore) [] chunks = true :=
    givesUp_of_not_fits (fun _ => rfl) (by simp) crowded _ rfl
  exact short (onlyExcessive _ _ excess)

/-- A peer that takes the replies is disconnected only by giving up. -/
theorem closed_eq_givesUp {session : Session} (delivered : ∀ index, session.sends index = none)
    (store : Store) (chunks : List Bytes) :
    (handleClient session (.start store) [] chunks).closed =
      givesUp session (.start store) [] chunks := by
  cases excess : givesUp session (.start store) [] chunks with
  | true =>
      obtain ⟨reached, gaveUp⟩ := handleClient_of_givesUp excess
      rw [gaveUp]
  | false =>
      have fits : Fits [] chunks := by
        by_contra crowded
        rw [givesUp_of_not_fits delivered (by simp) crowded _ rfl] at excess
        cases excess
      exact (answersAll_of_fits fits delivered store).2.2.2

/-- **When the limit is respected**: every chunk fits into the buffer together with the
unfinished line that the chunks before it leave, or some line or the tail of the stream
is excessive. Giving up is sending one more `ERROR` and closing, and nothing else closes the
connection of a peer that takes the replies. -/
theorem limitRespected_iff (chunks : List Bytes) :
    (LimitRespected chunks ↔
      (∀ before chunk after, chunks = before ++ chunk :: after →
        (splitLines lf before.flatten).2.length + chunk.length ≤ lineMax) ∨
      Excessive chunks.flatten) ∧
    ∀ session store,
      (givesUp session (.start store) [] chunks = true →
        ∃ reached, handleClient session (.start store) [] chunks =
          { sendAll session reached (ascii "ERROR\n") with closed := true }) ∧
      ((∀ index, session.sends index = none) →
        (handleClient session (.start store) [] chunks).closed =
          givesUp session (.start store) [] chunks) := by
  refine ⟨⟨?_, ?_⟩, fun session store =>
    ⟨handleClient_of_givesUp, fun delivered => closed_eq_givesUp delivered store chunks⟩⟩
  · intro respected
    by_contra neither
    obtain ⟨crowded, short⟩ := not_or.mp neither
    exact not_limitRespected short crowded respected
  · rintro (fits | excessive)
    · have room : Fits [] chunks := fits
      refine ⟨fun session store excess => ?_, fun _ session store delivered => ?_⟩
      · rw [givesUp_of_fits (by simp) room] at excess
        cases excess
      · exact answersAll_of_fits room delivered store
    · exact ⟨fun _ _ _ => excessive, fun short => absurd excessive short⟩

/-- Full chunks of a line of `LINE_MAX` bytes, all but its newline. -/
def longLine : List Bytes :=
  List.replicate 15 (List.replicate 4096 97) ++ [List.replicate 4095 97]

/-- The newline of the long line comes with the next command. -/
def pipelinedChunks : List Bytes := longLine ++ [lf :: (ascii "GET a" ++ [lf])]

theorem flatten_longLine : longLine.flatten = List.replicate 65535 97 := by
  rw [longLine, List.flatten_append, List.flatten_replicate_replicate, List.flatten_singleton,
    List.replicate_append_replicate]

theorem lf_notMem_longLine : lf ∉ List.replicate 65535 (97 : UInt8) := by
  intro member
  exact absurd (List.eq_of_mem_replicate member) (by decide)

theorem splitLines_pipelinedChunks :
    splitLines lf pipelinedChunks.flatten = ([List.replicate 65535 97, ascii "GET a"], []) := by
  rw [pipelinedChunks, List.flatten_append, flatten_longLine, List.flatten_singleton,
    splitLines_cons_piece lf_notMem_longLine, splitLines_cons_piece (by decide)]
  rfl

theorem not_excessive_pipelinedChunks : ¬ Excessive pipelinedChunks.flatten := by
  rw [Excessive, splitLines_pipelinedChunks]
  rintro (⟨line, member, long⟩ | long)
  · rcases List.mem_cons.mp member with rfl | member
    · rw [List.length_append, List.length_replicate] at long
      exact absurd long (by decide)
    · obtain rfl := List.mem_singleton.mp member
      exact absurd long (by decide)
  · exact absurd long (by decide)

/-- Both lines are within the limit, and the handler answers neither: when the newline
arrives with the next command, 65535 bytes are pending and the chunk has 7. -/
theorem pipelined_line_refused :
    (∀ chunk ∈ pipelinedChunks, 1 ≤ chunk.length ∧ chunk.length ≤ recvBuf) ∧
      ¬ Excessive pipelinedChunks.flatten ∧ ¬ LimitRespected pipelinedChunks := by
  refine ⟨?_, not_excessive_pipelinedChunks,
    not_limitRespected not_excessive_pipelinedChunks fun fits => ?_⟩
  · intro chunk member
    rcases List.mem_append.mp member with early | last
    · rcases List.mem_append.mp early with full | almost
      · rw [List.eq_of_mem_replicate full, List.length_replicate]
        decide
      · rw [List.mem_singleton.mp almost, List.length_replicate]
        decide
    · rw [List.mem_singleton.mp last]
      decide
  · have pending : (splitLines lf ([] ++ longLine.flatten)).2.length = 65535 := by
      rw [List.nil_append, flatten_longLine, splitLines_of_notMem lf_notMem_longLine,
        List.length_replicate]
    have room := fits longLine (lf :: (ascii "GET a" ++ [lf])) [] rfl
    have crowded : lineMax < 65535 + (lf :: (ascii "GET a" ++ [lf])).length := by decide
    exact absurd room (not_le_of_gt (by simpa only [pending] using crowded))

end InfraFromScratch.Cache
