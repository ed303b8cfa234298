import InfraFromScratch.Cache.LastWrite

/-!
# Every line has at most one meaning, and the others have no effect

`handle_line` scans for the command word and for successive spaces, and checks
keys, times to live and values in separate loops. The grammar names the words of a
line instead: a `Reading` is a command word with its arguments, a line is the text
of a reading, and no line is the text of two valid readings
(`Reading.eq_of_line_eq`).

What a line does is taken from outside: it acts as a command when, on every store
and at every time, it has the effect and the reply of that command (`ActsAs`). No
two commands behave alike (`execute_separates`), so a line acts as a command
exactly when the command is what a valid reading of the line says
(`actsAs_iff`).

An answer `ERROR` leaves every slot as it was. For `SET` this needs an argument,
since `lookup` and `free_slot` run before it is refused: a slot that `lookup` frees
is one that `free_slot` then finds, so a refused `SET` freed none
(`setSection_cases`).
-/

set_option autoImplicit false

namespace InfraFromScratch.Cache

open Foundations

/-! ## Readings -/

/-- The words of a command line. -/
inductive Reading where
  | get (key : Bytes)
  | delete (key : Bytes)
  | set (key ttlText value : Bytes)
  deriving DecidableEq, Repr

namespace Reading

/-- The line with these words. -/
def line : Reading → Bytes
  | .get key => ascii "GET " ++ key
  | .delete key => ascii "DELETE " ++ key
  | .set key ttlText value => ascii "SET " ++ key ++ [space] ++ ttlText ++ [space] ++ value

/-- The key is 1 to 256 bytes without white space, the time to live 1 to 5 digits of
value at most 86400, and the value 1 to 4096 bytes. -/
def Valid : Reading → Prop
  | .get key => ValidKey key
  | .delete key => ValidKey key
  | .set key ttlText value =>
      ValidKey key ∧ TtlText ttlText (strtol ttlText) ∧ 1 ≤ value.length ∧ value.length ≤ 4096

/-- The command the words say. -/
def command : Reading → Command
  | .get key => .get key
  | .delete key => .delete key
  | .set key ttlText value => .set key (strtol ttlText) value

theorem Valid.denotes {reading : Reading} (valid : reading.Valid) :
    Denotes reading.line reading.command := by
  cases reading with
  | get key => exact .get valid
  | delete key => exact .delete valid
  | set key ttlText value => exact .set valid.1 valid.2.1 valid.2.2.1 valid.2.2.2

end Reading

/-- A line denotes what its valid readings say. -/
theorem denotes_iff_reading {line : Bytes} {command : Command} :
    Denotes line command ↔
      ∃ reading : Reading, reading.Valid ∧ reading.line = line ∧ reading.command = command := by
  constructor
  · intro denotes
    cases denotes with
    | @get key valid => exact ⟨.get key, valid, rfl, rfl⟩
    | @delete key valid => exact ⟨.delete key, valid, rfl, rfl⟩
    | @set key ttlText value ttl valid text nonempty bounded =>
        obtain rfl := text.value
        exact ⟨.set key ttlText value, ⟨valid, text, nonempty, bounded⟩, rfl, rfl⟩
  · rintro ⟨reading, valid, rfl, rfl⟩
    exact valid.denotes

theorem Denotes.unique {line : Bytes} {first second : Command} (one : Denotes line first)
    (other : Denotes line second) : first = second := by
  rw [← parseLine_eq_some_iff] at one other
  exact Option.some.inj (one.symm.trans other)

/-- **A line is read in one way only.** -/
theorem Reading.eq_of_line_eq {first second : Reading} (one : first.Valid) (other : second.Valid)
    (same : first.line = second.line) : first = second := by
  have commands : first.command = second.command := by
    have denotes := one.denotes
    rw [same] at denotes
    exact denotes.unique other.denotes
  cases first with
  | get key =>
      cases second with
      | get key' => rw [Command.get.inj commands]
      | delete key' => cases commands
      | set key' ttlText value => cases commands
  | delete key =>
      cases second with
      | get key' => cases commands
      | delete key' => rw [Command.delete.inj commands]
      | set key' ttlText value => cases commands
  | set key ttlText value =>
      cases second with
      | get key' => cases commands
      | delete key' => cases commands
      | set key' ttlText' value' =>
          -- The numbers agree; that their texts do too is read off the line.
          obtain ⟨rfl, -, rfl⟩ := Command.set.inj commands
          have texts : ttlText = ttlText' := by
            simpa [Reading.line, List.append_assoc] using same
          rw [texts]

/-! ## A refused `SET` -/

/-- No slot can take the key: every slot is in use, unexpired and has another key. -/
def FullFor (store : Store) (now : Int) (key : Bytes) : Prop :=
  ∀ slot, (store slot).used = true ∧ (store slot).stale now = false ∧ (store slot).key ≠ key

/-- **All that `SET` can do.** It is refused when no slot can take the key, and every
slot is then as it was; otherwise it writes its entry into some slot. -/
theorem setSection_cases (store : Store) (now : Int) (key value : Bytes) (ttl : Nat) :
    (FullFor store now key ∧ setSection store key value ttl now = (store, .error)) ∨
      (¬ FullFor store now key ∧ ∃ searched slot,
        setSection store key value ttl now = (writeSlot searched slot key value ttl now, .ok)) := by
  rcases lookup_cases store key now with ⟨slot, found, -, -, same⟩ |
    ⟨slot, freed, -, -, same⟩ | ⟨missing, absent⟩
  · exact .inr ⟨fun full => (full slot).2.2 same, store, slot, setSection_of_some found value ttl⟩
  · refine .inr ⟨fun full => (full slot).2.2 same, ?_⟩
    rcases freeSlot_cases (release store slot) now with ⟨other, taken, -⟩ | ⟨-, visible⟩
    · exact ⟨_, other, setSection_of_free freed taken value ttl⟩
    · -- The slot that `lookup` freed is not visible, so `free_slot` finds one.
      have freedUsed := ((visible_iff _ now slot).mp (visible slot)).1
      simp [release] at freedUsed
  · rcases freeSlot_cases store now with ⟨other, taken, hidden⟩ | ⟨full, visible⟩
    · refine .inr ⟨fun full => hidden ?_, _, other, setSection_of_free missing taken value ttl⟩
      exact (visible_iff store now other).mpr ⟨(full other).1, (full other).2.1⟩
    · refine .inl ⟨fun slot => ?_, setSection_of_full missing full value ttl⟩
      obtain ⟨used, fresh⟩ := (visible_iff store now slot).mp (visible slot)
      exact ⟨used, fresh, absent slot used⟩

/-! ## Commands are told apart by what they do -/

theorem lookup_empty (key : Bytes) (now : Int) :
    lookup emptyStore key now = (emptyStore, none) := by
  rcases lookup_cases emptyStore key now with ⟨slot, -, -, used, -⟩ | ⟨slot, -, -, used, -⟩ |
    ⟨missing, -⟩
  · cases used
  · cases used
  · exact missing

/-- `store[0]`. -/
def firstSlot : Slot := ⟨0, by decide⟩

/-- A store whose only entry has the given key and does not expire. -/
def holding (key : Bytes) : Store :=
  Function.update emptyStore firstSlot ⟨true, key, ascii "x", 0, false⟩

theorem holding_used_iff {key : Bytes} {slot : Slot} :
    (holding key slot).used = true ↔ slot = firstSlot := by
  unfold holding
  by_cases here : slot = firstSlot
  · simp [here]
  · simp [here, emptyStore]

theorem lookup_holding (key other : Bytes) (now : Int) :
    lookup (holding key) other now =
      (holding key, if key = other then some firstSlot else none) := by
  have entry : holding key firstSlot = ⟨true, key, ascii "x", 0, false⟩ := Function.update_self ..
  rcases lookup_cases (holding key) other now with ⟨slot, found, -, used, same⟩ |
    ⟨slot, -, stale, used, -⟩ | ⟨missing, absent⟩
  · obtain rfl := holding_used_iff.mp used
    rw [entry] at same
    rw [found, if_pos same]
  · obtain rfl := holding_used_iff.mp used
    refine absurd ((visible_iff _ now firstSlot).mpr ⟨used, ?_⟩) stale
    rw [entry]
    rfl
  · have differs := absent firstSlot (holding_used_iff.mpr rfl)
    rw [entry] at differs
    rw [missing, if_neg differs]

/-- What a command answers when only one key is stored. -/
theorem reply_holding_get (key other : Bytes) (now : Int) :
    (execute (holding key) now (.get other)).2 =
      if key = other then .value (ascii "x") else .notFound := by
  have found := lookup_holding key other now
  by_cases same : key = other
  · rw [if_pos same] at found ⊢
    rw [execute, getSection_of_some found]
    simp [holding]
  · rw [if_neg same] at found ⊢
    rw [execute, getSection_of_none found]

theorem reply_holding_delete (key other : Bytes) (now : Int) :
    (execute (holding key) now (.delete other)).2 = if key = other then .ok else .notFound := by
  have found := lookup_holding key other now
  by_cases same : key = other
  · rw [if_pos same] at found ⊢
    rw [execute, deleteSection_of_some found]
  · rw [if_neg same] at found ⊢
    rw [execute, deleteSection_of_none found]

theorem execute_empty_set (key value : Bytes) (ttl : Nat) (now : Int) :
    ∃ slot, execute emptyStore now (.set key ttl value) =
      (writeSlot (release emptyStore slot) slot key value ttl now, .ok) := by
  rcases freeSlot_cases emptyStore now with ⟨slot, taken, -⟩ | ⟨-, visible⟩
  · exact ⟨slot, setSection_of_free (lookup_empty key now) taken value ttl⟩
  · have used := ((visible_iff emptyStore now firstSlot).mp (visible firstSlot)).1
    cases used

/-- What a command answers when nothing is stored. -/
def Command.emptyReply : Command → Reply
  | .get _ => .notFound
  | .delete _ => .notFound
  | .set _ _ _ => .ok

theorem reply_empty (command : Command) (now : Int) :
    (execute emptyStore now command).2 = command.emptyReply := by
  cases command with
  | get key => rw [execute, getSection_of_none (lookup_empty key now), Command.emptyReply]
  | delete key => rw [execute, deleteSection_of_none (lookup_empty key now), Command.emptyReply]
  | set key ttl value =>
      obtain ⟨slot, stored⟩ := execute_empty_set key value ttl now
      rw [stored, Command.emptyReply]

/-- On an empty store no command is answered `ERROR`. -/
theorem sendReply_emptyReply_ne (command : Command) :
    sendReply command.emptyReply ≠ ascii "ERROR\n" := by
  have missing : sendReply .notFound ≠ ascii "ERROR\n" := by decide
  have stored : sendReply .ok ≠ ascii "ERROR\n" := by decide
  cases command with
  | get key => exact missing
  | delete key => exact missing
  | set key ttl value => exact stored

/-- The first command acts like the second on every store and at every time. -/
def Alike (first second : Command) : Prop :=
  ∀ store now, (execute store now first).1 = (execute store now second).1 ∧
    sendReply (execute store now first).2 = sendReply (execute store now second).2

/-- Two `SET`s that write the same entry into an empty store are the same. -/
theorem Alike.set_eq {key key' value value' : Bytes} {ttl ttl' : Nat}
    (alike : Alike (.set key ttl value) (.set key' ttl' value')) :
    key = key' ∧ ttl = ttl' ∧ value = value' := by
  obtain ⟨slot, stored⟩ := execute_empty_set key value ttl 0
  obtain ⟨slot', stored'⟩ := execute_empty_set key' value' ttl' 0
  have stores := (alike emptyStore 0).1
  rw [stored, stored'] at stores
  have entries := congrFun stores slot
  have sameSlot : slot = slot' := by
    by_contra differs
    have used := congrArg Entry.used entries
    simp [writeSlot, release, writtenEntry, Function.update_of_ne differs, emptyStore] at used
  subst sameSlot
  simp only [writeSlot, release, Function.update_self, writtenEntry, Entry.mk.injEq] at entries
  obtain ⟨-, sameKey, sameValue, deadlines, expiry⟩ := entries
  refine ⟨sameKey, ?_, sameValue⟩
  by_cases endless : ttl = 0
  · by_cases endless' : ttl' = 0
    · rw [endless, endless']
    · simp [endless, endless'] at expiry
  · by_cases endless' : ttl' = 0
    · simp [endless, endless'] at expiry
    · rw [if_neg endless, if_neg endless'] at deadlines
      omega

/-- Commands that behave alike answer alike on an empty store, which tells `SET` from the
others. -/
theorem Alike.emptyReply_eq {first second : Command} (alike : Alike first second) :
    first.emptyReply = second.emptyReply := by
  have onEmpty := (alike emptyStore 0).2
  have differ : sendReply .notFound ≠ sendReply .ok := by decide
  rw [reply_empty, reply_empty] at onEmpty
  cases first with
  | get key =>
      cases second with
      | get other => rfl
      | delete other => rfl
      | set other ttl value => exact absurd onEmpty differ
  | delete key =>
      cases second with
      | get other => rfl
      | delete other => rfl
      | set other ttl value => exact absurd onEmpty differ
  | set key ttl value =>
      cases second with
      | get other => exact absurd onEmpty.symm differ
      | delete other => exact absurd onEmpty.symm differ
      | set other ttl' value' => rfl

/-- **No two commands behave alike.** An empty store tells a `SET` from the others and
from other `SET`s, and a store that holds the one key tells the rest apart. -/
theorem execute_separates {first second : Command} (alike : Alike first second) :
    first = second := by
  have onEmpty := alike.emptyReply_eq
  cases first with
  | get key =>
      have onHeld := (alike (holding key) 0).2
      rw [reply_holding_get, if_pos rfl] at onHeld
      cases second with
      | get other =>
          by_cases same : key = other
          · rw [same]
          · rw [reply_holding_get, if_neg same] at onHeld
            exact absurd onHeld (by decide)
      | delete other =>
          rw [reply_holding_delete] at onHeld
          split at onHeld
          · exact absurd onHeld (by decide)
          · exact absurd onHeld (by decide)
      | set other ttl value => cases onEmpty
  | delete key =>
      have onHeld := (alike (holding key) 0).2
      rw [reply_holding_delete, if_pos rfl] at onHeld
      cases second with
      | get other =>
          rw [reply_holding_get] at onHeld
          split at onHeld
          · exact absurd onHeld (by decide)
          · exact absurd onHeld (by decide)
      | delete other =>
          by_cases same : key = other
          · rw [same]
          · rw [reply_holding_delete, if_neg same] at onHeld
            exact absurd onHeld (by decide)
      | set other ttl value => cases onEmpty
  | set key ttl value =>
      cases second with
      | get other => cases onEmpty
      | delete other => cases onEmpty
      | set other ttl' value' =>
          obtain ⟨rfl, rfl, rfl⟩ := alike.set_eq
          rfl

/-- The line has the effect and the reply of the command, on every store and at every
time. -/
def ActsAs (line : Bytes) (command : Command) : Prop :=
  ∀ store now, handleLine store now line =
    ((execute store now command).1, sendReply (execute store now command).2)

theorem handleLine_of_not_denotes {line : Bytes} (meaningless : ∀ command, ¬ Denotes line command)
    (store : Store) (now : Int) : handleLine store now line = (store, ascii "ERROR\n") := by
  cases parsed : parseLine line with
  | none =>
      unfold handleLine
      rw [parsed]
      rfl
  | some command => exact absurd (parseLine_eq_some_iff.mp parsed) (meaningless command)

/-- **A line acts as the command it denotes, and as no other.** -/
theorem actsAs_iff {line : Bytes} {command : Command} :
    ActsAs line command ↔ Denotes line command := by
  constructor
  · intro acts
    by_cases meaningless : ∀ other, ¬ Denotes line other
    · -- On an empty store an error is the reply of no command.
      have replies := congrArg Prod.snd (acts emptyStore 0)
      rw [handleLine_of_not_denotes meaningless, reply_empty] at replies
      exact absurd replies.symm (sendReply_emptyReply_ne command)
    · obtain ⟨other, denotes⟩ := not_forall_not.mp meaningless
      have alike : Alike other command := by
        intro store now
        have results := (handleLine_of_denotes denotes store now).symm.trans (acts store now)
        exact Prod.mk.inj results
      rw [← execute_separates alike]
      exact denotes
  · intro denotes store now
    exact handleLine_of_denotes denotes store now

/-! ## Values come back as they were stored -/

/-- The line is neither a `DELETE` nor a `SET` of the key. -/
def Leaves (key line : Bytes) : Prop :=
  ∀ command, Denotes line command →
    command ≠ .delete key ∧ ∀ ttl value, command ≠ .set key ttl value

theorem serveAbstract_leaves {key : Bytes} {request : Request} (leaves : Leaves key request.line)
    (map : AbstractCache) : (serveAbstract map request).1 key = map key := by
  unfold serveAbstract
  cases parsed : parseLine request.line with
  | none => rfl
  | some command =>
      obtain ⟨notDelete, notSet⟩ := leaves command (parseLine_eq_some_iff.mp parsed)
      rcases execute_entry map request.now command key with ⟨ttl, value, isSet, -⟩ |
        ⟨isDelete, -⟩ | ⟨-, kept⟩
      · exact absurd isSet (notSet ttl value)
      · exact absurd isDelete notDelete
      · exact kept

/-- A `SET` that is answered `OK` leaves its value and deadline in the abstract map. -/
theorem serveAbstract_set {request : Request} {key value : Bytes} {ttl : Nat}
    (denotes : Denotes request.line (.set key ttl value)) {map : AbstractCache}
    (accepted : (serveAbstract map request).2 = ascii "OK\n") :
    (serveAbstract map request).1 key = some (value, ttlDeadline ttl request.now) := by
  unfold serveAbstract at accepted ⊢
  rw [parseLine_eq_some_iff.mpr denotes] at accepted ⊢
  have answered : (map.execute request.now (.set key ttl value)).2 = .ok :=
    format_injective accepted
  rcases execute_entry map request.now (.set key ttl value) key with
    ⟨ttl', value', same, -, entry⟩ | ⟨isDelete, -⟩ | ⟨elsewhere, -⟩
  · obtain ⟨-, rfl, rfl⟩ := Command.set.inj same
    exact entry
  · cases isDelete
  · exact absurd rfl ((elsewhere answered).2 ttl value)

/-- The line of a `GET` of a key that stands in a line. -/
theorem isLine_get {key : Bytes} (noNul : 0 ∉ key) (noNewline : lf ∉ key) :
    IsLine (ascii "GET " ++ key) := by
  refine ⟨?_, ?_⟩
  · simp only [List.mem_append, not_or]
    exact ⟨by decide, noNul⟩
  · simp only [List.mem_append, not_or]
    exact ⟨by decide, noNewline⟩

/-- **What is stored is what comes back.** After a `SET` that was answered `OK`, a
`GET` of the key answers its value, byte for byte, as long as the time to live is
not over and nothing in between writes or deletes the key. -/
theorem get_after_set {now later : Int} {store : Store} (reachable : Reachable now store)
    {line key value : Bytes} {ttl : Nat} (isLine : IsLine line)
    (denotes : Denotes line (.set key ttl value))
    (accepted : (handleLine store now line).2 = ascii "OK\n") {between : List Request}
    (ordered : Ordered Request.now between)
    (during : ∀ request ∈ between, now ≤ request.now ∧ request.now ≤ later) (past : now ≤ later)
    (leaves : ∀ request ∈ between, Leaves key request.line)
    (unexpired : ttl = 0 ∨ later < now + 1000 * ttl) :
    (handleLine (runReplies serve (handleLine store now line).1 between).1 later
      (ascii "GET " ++ key)).2 = ascii "VALUE " ++ value ++ [lf] := by
  obtain ⟨map, related⟩ := reachable.related
  let request : Request := ⟨0, now, line, isLine⟩
  obtain ⟨sameReply, stored⟩ := serve_simulates request store map related
  have entry : (serveAbstract map request).1 key = some (value, ttlDeadline ttl now) :=
    serveAbstract_set denotes (sameReply.symm.trans accepted)
  -- Nothing in between changes the entry, and the store stays related to the map.
  have lastRelated : Related later (runReplies serve (handleLine store now line).1 between).1
      (runReplies serveAbstract (serveAbstract map request).1 between).1 := by
    refine (runReplies_simulation Related Related.mono
      (fun other _ someStore someMap here => serve_simulates other someStore someMap here) ordered
      (fun other member => stored.mono (during other member).1)).2 later
      (fun other member => (during other member).2) (stored.mono past)
  have kept : (runReplies serveAbstract (serveAbstract map request).1 between).1 key =
      some (value, ttlDeadline ttl now) :=
    runReplies_invariant (fun reached : AbstractCache =>
        reached key = some (value, ttlDeadline ttl now))
      (fun other member reached here =>
        (serveAbstract_leaves (leaves other member) reached).trans here)
      entry
  have read : (runReplies serveAbstract (serveAbstract map request).1 between).1.read later key =
      some value := by
    rw [ExpiringMap.read_eq_some_iff]
    exact ⟨_, kept, lt_ttlDeadline_iff.mpr unexpired⟩
  obtain ⟨valid, keyLine⟩ : ValidKey key ∧ IsLine (ascii "GET " ++ key) := by
    cases denotes with
    | set valid text nonempty bounded =>
        obtain ⟨noNul, noNewline⟩ := isLine
        simp only [List.mem_append, not_or] at noNul noNewline
        exact ⟨valid, isLine_get noNul.1.1.1.1.2 noNewline.1.1.1.1.2⟩
  have answered := (serve_simulates ⟨0, later, ascii "GET " ++ key, keyLine⟩ _ _ lastRelated).1
  rw [serveAbstract, parseLine_eq_some_iff.mpr (.get valid)] at answered
  dsimp only at answered
  rw [AbstractCache.execute, read] at answered
  exact answered

/-! ## The grammar -/

/-- **The grammar of command lines.** A nonempty line without NUL and newline acts as a
command exactly when the command is what its words say, and it has at most one
reading. A line without one is answered `ERROR`, and every slot is left as it was. A
`SET` is answered `ERROR`, and every slot left as it was, exactly when no slot can
take its key; otherwise it is answered `OK`, some slot holds the value under the key,
and a later `GET` answers that value byte for byte. -/
theorem handleLine_grammar (line : Bytes) (nonempty : line ≠ []) (isLine : IsLine line) :
    (∀ command, ActsAs line command ↔
      ∃ reading : Reading, reading.Valid ∧ reading.line = line ∧ reading.command = command) ∧
    (∀ first second : Reading, first.Valid → first.line = line → second.Valid →
      second.line = line → first = second) ∧
    ((¬ ∃ reading : Reading, reading.Valid ∧ reading.line = line) →
      ∀ store now, handleLine store now line = (store, ascii "ERROR\n")) ∧
    ∀ key ttlText value, (Reading.set key ttlText value).Valid →
      (Reading.set key ttlText value).line = line →
      ∀ store now,
        (FullFor store now key → handleLine store now line = (store, ascii "ERROR\n")) ∧
        (¬ FullFor store now key → (handleLine store now line).2 = ascii "OK\n" ∧
          (∃ slot, ((handleLine store now line).1 slot).used = true ∧
            ((handleLine store now line).1 slot).key = key ∧
            ((handleLine store now line).1 slot).value = value) ∧
          (Reachable now store → ∀ between : List Request, Ordered Request.now between →
            ∀ later, now ≤ later →
            (∀ request ∈ between, now ≤ request.now ∧ request.now ≤ later) →
            (∀ request ∈ between, Leaves key request.line) →
            (strtol ttlText = 0 ∨ later < now + 1000 * strtol ttlText) →
            (handleLine (runReplies serve (handleLine store now line).1 between).1 later
              (Reading.get key).line).2 = ascii "VALUE " ++ value ++ [lf])) := by
  refine ⟨fun command => actsAs_iff.trans denotes_iff_reading, ?_, ?_, ?_⟩
  · intro first second one firstLine other secondLine
    exact Reading.eq_of_line_eq one other (firstLine.trans secondLine.symm)
  · intro unreadable store now
    refine handleLine_of_not_denotes (fun command denotes => ?_) store now
    obtain ⟨reading, valid, here, -⟩ := denotes_iff_reading.mp denotes
    exact unreadable ⟨reading, valid, here⟩
  · rintro key ttlText value valid rfl store now
    have denotes : Denotes _ (.set key (strtol ttlText) value) := valid.denotes
    have handled := handleLine_of_denotes denotes store now
    rw [execute] at handled
    rcases setSection_cases store now key value (strtol ttlText) with
      ⟨full, refused⟩ | ⟨room, searched, slot, written⟩
    · rw [refused] at handled
      exact ⟨fun _ => handled, fun room => absurd full room⟩
    · rw [written] at handled
      have accepted := congrArg Prod.snd handled
      refine ⟨fun full => absurd full room, fun _ => ⟨accepted, ⟨slot, ?_⟩, ?_⟩⟩
      · rw [handled]
        simp [writeSlot, writtenEntry]
      · intro reachable between ordered later past during leaves unexpired
        exact get_after_set reachable isLine denotes accepted ordered during past leaves unexpired

/-- The value of a `SET` is all that follows the second space, with its own spaces. -/
theorem handleLine_grammar_spaces :
    ActsAs (ascii "SET a 07  x ") (.set (ascii "a") 7 (ascii " x ")) := by
  have isLine : IsLine (ascii "SET a 07  x ") := ⟨by decide, by decide⟩
  refine ((handleLine_grammar (ascii "SET a 07  x ") (by decide) isLine).1 _).mpr
    ⟨.set (ascii "a") (ascii "07") (ascii " x "), ?_, by decide, by decide⟩
  exact ⟨(validKey_iff _).mp (by decide), parseTtl_eq_some_iff.mp (by decide), by decide,
    by decide⟩

end InfraFromScratch.Cache
