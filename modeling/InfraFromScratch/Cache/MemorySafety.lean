import InfraFromScratch.Cache.Memory
import InfraFromScratch.Foundations.Transitions

/-!
# No access of the cache is undefined

The arrays of the cache stand for byte strings: a slot that is used holds its key and its value as
strings, a line holds a string, and the buffer of a thread starts with the bytes it has received.
Each function of `in-mem-cache/server.c`, called on arrays that stand for byte strings, makes no
undefined access and does to them what the function on byte strings does.
-/

set_option autoImplicit false

namespace InfraFromScratch.Cache.Memory

open Foundations

/-! ## What the arrays stand for -/

/-- The slot of the array stands for the slot of byte strings. What is left in a slot that is not
used does not matter. -/
structure Entry.Represents (entry : Entry) (abstract : Cache.Entry) : Prop where
  used : entry.used = abstract.used
  expiresAtMs : entry.expiresAtMs = abstract.expiresAtMs
  hasExpiry : entry.hasExpiry = abstract.hasExpiry
  key : abstract.used = true → entry.key.cells.Holds abstract.key
  value : abstract.used = true → entry.value.cells.Holds abstract.value
  vlen : abstract.used = true → entry.vlen = abstract.value.length

/-- Every slot stands for its slot of byte strings. -/
def Store.Represents (store : Store) (abstract : Cache.Store) : Prop :=
  ∀ slot, (store slot).Represents (abstract slot)

/-- The pointer reaches the bytes, and the length is theirs. -/
structure Text.Represents (text : Text) (bytes : Bytes) : Prop where
  starts : text.cells.Starts bytes
  length : text.length = bytes.length

/-- The arguments of the command are strings in memory. -/
inductive Request.Represents : Request → Command → Prop where
  | get {cells : Cells} {key : Bytes} (holds : cells.Holds key) :
      Represents (.get cells) (.get key)
  | delete {cells : Cells} {key : Bytes} (holds : cells.Holds key) :
      Represents (.delete cells) (.delete key)
  | set {array : CharArray (keyMax + 1)} {key : Bytes} {ttl : Nat} {cells : Cells} {value : Bytes}
      (holds : array.cells.Holds key) (valueHolds : cells.Holds value)
      (fits : value.length ≤ valueMax) :
      Represents (.set array key.length ttl cells value.length) (.set key ttl value)

/-- `handle_line` came to the mutex with the command, or to its error. -/
inductive Handled.Represents : Handled → Option Command → Prop where
  | reply {text : Text} (shown : text.Represents (ascii "ERROR\n")) : Represents (.reply text) none
  | lock {request : Request} {command : Command} (shown : request.Represents command) :
      Represents (.lock request) (some command)

/-! ## The store -/

section Store

variable {store : Store} {abstract : Cache.Store} {now : Int}

theorem Entry.Represents.stale {entry : Entry} {abstract : Cache.Entry}
    (represents : entry.Represents abstract) (now : Int) : entry.stale now = abstract.stale now := by
  rw [Entry.stale, Cache.Entry.stale, represents.hasExpiry, represents.expiresAtMs]

theorem represents_emptyStore : emptyStore.Represents Cache.emptyStore := fun _ =>
  ⟨rfl, rfl, rfl, nofun, nofun, nofun⟩

theorem Store.Represents.update (represents : store.Represents abstract) {slot : Slot}
    {entry : Entry} {other : Cache.Entry} (here : entry.Represents other) :
    Store.Represents (Function.update store slot entry) (Function.update abstract slot other) := by
  intro place
  by_cases same : place = slot
  · subst same
    rw [Function.update_self, Function.update_self]
    exact here
  · rw [Function.update_of_ne same, Function.update_of_ne same]
    exact represents place

theorem Store.Represents.release (represents : store.Represents abstract) (slot : Slot) :
    (release store slot).Represents (Cache.release abstract slot) :=
  represents.update ⟨rfl, (represents slot).expiresAtMs, (represents slot).hasExpiry, nofun, nofun,
    nofun⟩

/-- The loop of `lookup` compares strings, and stops at the first used slot with the key. -/
theorem Store.Represents.lookupFrom (represents : store.Represents abstract) {cells : Cells}
    {key : Bytes} (holds : cells.Holds key) (slots : List Slot) :
    lookupFrom store cells now slots =
      match slots.find? fun slot => (abstract slot).used && (abstract slot).key == key with
      | none => some (store, none)
      | some slot =>
          some (if (abstract slot).stale now then (Memory.release store slot, none)
            else (store, some slot)) := by
  induction slots with
  | nil => rfl
  | cons slot slots ih =>
      rw [Memory.lookupFrom, (represents slot).used, List.find?_cons, ih]
      cases used : (abstract slot).used with
      | false => simp
      | true =>
          rw [if_pos rfl, ((represents slot).key used).strcmp holds, (represents slot).stale]
          by_cases same : (abstract slot).key = key
          · have equal : Cells.order (abstract slot).key key = .eq :=
              (Cells.order_eq_iff _ _).mpr same
            simp only [Option.bind_eq_bind, Option.bind_some, if_pos equal, beq_iff_eq.mpr same,
              Bool.and_self, Option.pure_def]
            exact (apply_ite some _ _ _).symm
          · have differs : Cells.order (abstract slot).key key ≠ .eq := fun equal =>
              same ((Cells.order_eq_iff _ _).mp equal)
            simp only [Option.bind_eq_bind, Option.bind_some, if_neg differs,
              beq_eq_false_iff_ne.mpr same, Bool.and_false]

/-- **`lookup`.** -/
theorem Store.Represents.lookup (represents : store.Represents abstract) {cells : Cells}
    {key : Bytes} (holds : cells.Holds key) (now : Int) :
    ∃ after, lookup store cells now = some (after, (Cache.lookup abstract key now).2) ∧
      after.Represents (Cache.lookup abstract key now).1 := by
  rw [Memory.lookup, represents.lookupFrom holds]
  unfold Cache.lookup
  cases (List.finRange storeCap).find?
      fun slot => (abstract slot).used && (abstract slot).key == key with
  | none => exact ⟨store, rfl, represents⟩
  | some slot =>
      dsimp only
      split
      · exact ⟨_, rfl, represents.release slot⟩
      · exact ⟨_, rfl, represents⟩

/-- **`free_slot`.** -/
theorem Store.Represents.freeSlot (represents : store.Represents abstract) (now : Int) :
    (freeSlot store now).2 = (Cache.freeSlot abstract now).2 ∧
      (freeSlot store now).1.Represents (Cache.freeSlot abstract now).1 := by
  have same : (fun slot => !(store slot).used || (store slot).stale now) =
      fun slot => !(abstract slot).used || (abstract slot).stale now := by
    funext slot
    rw [(represents slot).used, (represents slot).stale]
  unfold Memory.freeSlot
  rw [same]
  unfold Cache.freeSlot
  generalize (List.finRange storeCap).find?
    (fun slot => !(abstract slot).used || (abstract slot).stale now) = found
  cases found with
  | none => exact ⟨rfl, represents⟩
  | some slot => exact ⟨rfl, represents.release slot⟩

end Store

/-! ## Replies -/

theorem represents_errorText : errorText.Represents (ascii "ERROR\n") :=
  ⟨⟨[some 0], by decide⟩, by decide⟩

/-- **`send_reply`** formats into its buffer, or sends the error in place of a text that is too
long. -/
theorem sendReply_spec (text : Bytes) :
    ∃ shown, sendReply text = some shown ∧
      shown.Represents (if valueMax + 32 ≤ text.length then ascii "ERROR\n" else text) := by
  obtain ⟨buf, formatted, starts⟩ :=
    CharArray.vsnprintf_spec (.uninitialised (valueMax + 32)) text
  rw [sendReply, formatted]
  simp only [Option.bind_eq_bind, Option.bind_some, Option.pure_def]
  split
  · exact ⟨_, rfl, represents_errorText⟩
  · rename_i short
    exact ⟨_, rfl, starts (Nat.not_le.mp short), rfl⟩

theorem sendReply_short {text : Bytes} (short : text.length < valueMax + 32) :
    ∃ shown, sendReply text = some shown ∧ shown.Represents text := by
  obtain ⟨shown, sent, represents⟩ := sendReply_spec text
  rw [if_neg (Nat.not_le.mpr short)] at represents
  exact ⟨shown, sent, represents⟩

theorem refuse_spec : ∃ handled, refuse = some handled ∧ handled.Represents none := by
  obtain ⟨shown, sent, represents⟩ := @sendReply_short (ascii "ERROR\n") (by decide)
  exact ⟨.reply shown, by rw [refuse, sent]; rfl, .reply represents⟩

/-! ## Arguments -/

theorem validKey_spec {cells : Cells} {key : Bytes} (starts : cells.Starts key) :
    validKey cells key.length = some (Cache.validKey key) := by
  rw [validKey, Cache.validKey]
  split
  · rfl
  · rw [starts.read, Option.map_some]

theorem isDigit_ne_zero {byte : UInt8} (digit : isDigit byte = true) : byte ≠ 0 := by
  rintro rfl
  cases digit

theorem strtol_lt_pow (digits : Bytes) (all : ∀ byte ∈ digits, isDigit byte = true) :
    Cache.strtol digits < 10 ^ digits.length := by
  rw [Cache.strtol]
  induction digits using List.reverseRecOn with
  | nil => simp
  | append_singleton digits digit ih =>
      have before := ih fun byte member => all byte (List.mem_append_left _ member)
      have last := all digit (List.mem_append_right _ List.mem_cons_self)
      simp only [isDigit, Bool.and_eq_true, decide_eq_true_eq, UInt8.le_iff_toNat_le] at last
      have small : digit.toNat ≤ 57 := last.2
      rw [List.foldl_append, List.foldl_cons, List.foldl_nil, List.length_append,
        List.length_singleton, Nat.pow_succ]
      omega

/-- `strtol` reads a short text of digits whole. -/
theorem strtol_of_digits {digits : Bytes} (nonempty : digits ≠ []) (short : digits.length ≤ 5)
    (all : ∀ byte ∈ digits, isDigit byte = true) :
    strtol digits = ((Cache.strtol digits : Int), digits.length) := by
  obtain ⟨first, rest, rfl⟩ := List.exists_cons_of_ne_nil nonempty
  have digit := all first List.mem_cons_self
  have blank : isSpace first = false := by
    simp only [isDigit, isSpace, Bool.and_eq_true, decide_eq_true_eq, Bool.or_eq_false_iff,
      Bool.and_eq_false_iff, decide_eq_false_iff_not, beq_eq_false_iff_ne] at digit ⊢
    grind
  have unsigned : (first == 43 || first == 45) = false := by
    simp only [isDigit, Bool.and_eq_true, decide_eq_true_eq, Bool.or_eq_false_iff,
      beq_eq_false_iff_ne] at digit ⊢
    grind
  have whole : (first :: rest).takeWhile isDigit = first :: rest :=
    List.takeWhile_eq_self_iff.mpr all
  have bound := strtol_lt_pow (first :: rest) all
  have power : 10 ^ (first :: rest).length ≤ 10 ^ 5 := Nat.pow_le_pow_right (by omega) short
  simp only [strtol, List.takeWhile_cons_of_neg (by rw [blank]; decide : ¬ isSpace first = true),
    List.length_nil, List.drop_zero, List.take_succ_cons, List.take_zero, List.filter_cons, unsigned,
    Bool.false_eq_true, if_false, List.filter_nil, whole, List.cons_ne_nil, Nat.zero_add,
    Nat.add_zero, Prod.mk.injEq, and_true, List.nil_eq]
  omega

/-- **`parse_ttl`** copies what it checked, with room for its NUL. -/
theorem parseTtl_spec {cells : Cells} {text : Bytes} (starts : cells.Starts text) :
    parseTtl cells text.length = some (Cache.parseTtl text) := by
  rw [parseTtl, Cache.parseTtl]
  split
  · rfl
  · rename_i sized
    rw [starts.read]
    simp only [Option.bind_eq_bind, Option.bind_some]
    split
    · rename_i digits
      have all := List.all_eq_true.mp digits
      have noNul : 0 ∉ text := fun member => isDigit_ne_zero (all 0 member) rfl
      obtain ⟨copied, copies, copiedStarts⟩ := @CharArray.memcpy_spec 8 (.uninitialised 8) text []
        cells (Cells.starts_nil _) starts (by rw [List.length_nil]; omega)
      obtain ⟨tmp, assigned, ended⟩ := @CharArray.assign_spec 8 copied text 0 copiedStarts (by omega)
      have holds : tmp.cells.Holds text := ⟨noNul, ended⟩
      have nonempty : text ≠ [] := fun empty => sized (.inl (by rw [empty]; rfl))
      rw [List.length_nil] at copies
      rw [copies]
      simp only [Option.bind_some, assigned, holds.string,
        strtol_of_digits nonempty (by omega) all, ended.load]
      by_cases above : ttlMax < Cache.strtol text
      · rw [if_pos (.inr (.inr (.inr (by exact_mod_cast above)))), if_pos above]
        rfl
      · have inRange : ¬ (text.length = 0 ∨ (0 : UInt8) ≠ 0 ∨ (Cache.strtol text : Int) < 0 ∨
            (ttlMax : Int) < Cache.strtol text) := by
          rintro (empty | other | negative | beyond)
          · exact sized (.inl empty)
          · exact other rfl
          · omega
          · exact above (by exact_mod_cast beyond)
        rw [if_neg inRange, if_neg above]
        rfl
    · rfl

/-! ## Lines -/

/-- What stands in front of the first space, and what follows it. -/
theorem strchr_cases {cells : Cells} {text : Bytes} (holds : cells.Holds text) :
    (cells.strchr space = some none ∧ cutAt space text = none) ∨
      ∃ word rest after, cutAt space text = some (word, rest) ∧
        cells.strchr space = some (some word.length) ∧ cells.Starts word ∧ space ∉ word ∧ 0 ∉ word ∧
        cells.advance (word.length + 1) = some after ∧ after.Holds rest := by
  rw [holds.strchr]
  cases cut : cutAt space text with
  | none => exact .inl ⟨rfl, rfl⟩
  | some parts =>
      obtain ⟨word, rest⟩ := parts
      obtain ⟨rfl, clean⟩ := cutAt_eq_some_iff.mp cut
      have shifted : word ++ space :: rest = (word ++ [space]) ++ rest := by simp
      have size : (word ++ [space]).length = word.length + 1 := by simp
      rw [shifted] at holds
      have front := holds.starts.of_append
      refine .inr ⟨word, rest, cells.drop (word.length + 1), rfl, rfl,
        (Cells.Starts.of_append (Cells.Starts.of_append front)), clean, fun member => ?_, ?_, ?_⟩
      · exact holds.noNul (by simp [member])
      · rw [← size]
        exact (Cells.Starts.of_append front).advance
      · rw [← size]
        exact holds.drop

/-- **The branch of `SET`.** -/
theorem handleSet_spec {cells : Cells} {arguments : Bytes} (holds : cells.Holds arguments) :
    ∃ handled, handleSet cells = some handled ∧ handled.Represents (parseSet arguments) := by
  obtain ⟨refused, refuses, unanswered⟩ := refuse_spec
  rw [handleSet, parseSet]
  rcases strchr_cases holds with ⟨missing, cut⟩ |
    ⟨key, afterKey, ts, cut, found, starts, clean, noNul, advanced, tsHolds⟩
  · rw [missing, cut]
    exact ⟨refused, refuses, unanswered⟩
  rw [found, cut]
  simp only [Option.bind_eq_bind, Option.bind_some, validKey_spec starts]
  cases valid : Cache.validKey key with
  | false => exact ⟨refused, refuses, unanswered⟩
  | true =>
      have bounded := ((validKey_iff key).mp valid).bounded
      obtain ⟨copied, copies, copiedStarts⟩ := @CharArray.memcpy_spec (keyMax + 1)
        (.uninitialised _) key [] cells (Cells.starts_nil _) starts
        (by rw [List.length_nil, keyMax]; omega)
      obtain ⟨array, assigned, ended⟩ :=
        @CharArray.assign_spec (keyMax + 1) copied key 0 copiedStarts (by rw [keyMax]; omega)
      rw [List.length_nil] at copies
      simp only [copies, assigned, advanced, Option.bind_some, if_true]
      rcases strchr_cases tsHolds with ⟨missing, second⟩ |
        ⟨ttlText, value, rest, second, found, ttlStarts, -, -, further, valueHolds⟩
      · rw [missing, second]
        exact ⟨refused, refuses, unanswered⟩
      rw [found, second]
      simp only [Option.bind_some, parseTtl_spec ttlStarts]
      cases Cache.parseTtl ttlText with
      | none => exact ⟨refused, refuses, unanswered⟩
      | some ttl =>
          simp only [further, Option.bind_some, valueHolds.strlen]
          by_cases sized : value.length = 0 ∨ valueMax < value.length
          · rw [if_pos sized, if_pos sized]
            exact ⟨refused, refuses, unanswered⟩
          · rw [if_neg sized, if_neg sized]
            exact ⟨_, rfl, .lock (.set ⟨noNul, ended⟩ valueHolds (by omega))⟩

/-- A line starts with a command word, and behind the word stands the rest of it. -/
theorem strncmp_spec {cells : Cells} {line : Bytes} (holds : cells.Holds line) (word : Bytes) :
    ∃ order, cells.strncmp word word.length = some order ∧
      (order = .eq ↔ word.isPrefixOf line = true) ∧
      (word.isPrefixOf line = true → cells.advance word.length = some (cells.drop word.length) ∧
        Cells.Holds (cells.drop word.length) (line.drop word.length)) := by
  refine ⟨_, holds.strncmp word, ?_, fun starts => ?_⟩
  · rw [Cells.order_eq_iff, List.isPrefixOf_iff_prefix, List.prefix_iff_eq_take]
    exact eq_comm
  · have split := isPrefixOf_append_iff.mp starts
    rw [split] at holds
    have front := Cells.Starts.of_append (List.append_assoc _ _ _ ▸ holds.starts)
    exact ⟨front.advance, holds.drop⟩

/-- **`handle_line`** up to the mutex. -/
theorem handleLine_spec {cells : Cells} {line : Bytes} (holds : cells.Holds line) :
    ∃ handled, handleLine cells = some handled ∧ handled.Represents (parseLine line) := by
  obtain ⟨refused, refuses, unanswered⟩ := refuse_spec
  obtain ⟨get, getCompared, getWord, getRest⟩ := strncmp_spec holds (ascii "GET ")
  obtain ⟨delete, deleteCompared, deleteWord, deleteRest⟩ := strncmp_spec holds (ascii "DELETE ")
  obtain ⟨set, setCompared, setWord, setRest⟩ := strncmp_spec holds (ascii "SET ")
  have getSize : (ascii "GET ").length = 4 := by decide
  have deleteSize : (ascii "DELETE ").length = 7 := by decide
  have setSize : (ascii "SET ").length = 4 := by decide
  rw [getSize] at getCompared getRest
  rw [deleteSize] at deleteCompared deleteRest
  rw [setSize] at setCompared setRest
  rw [handleLine, parseLine, getCompared]
  simp only [Option.bind_eq_bind, Option.bind_some, getWord]
  by_cases isGet : (ascii "GET ").isPrefixOf line = true
  · obtain ⟨advanced, rest⟩ := getRest isGet
    rw [if_pos isGet, if_pos isGet, advanced]
    simp only [Option.bind_some, rest.strlen, validKey_spec rest.starts.of_append]
    cases Cache.validKey (line.drop 4) with
    | false => exact ⟨refused, refuses, unanswered⟩
    | true => exact ⟨_, rfl, .lock (.get rest)⟩
  · rw [if_neg isGet, if_neg isGet, deleteCompared]
    simp only [Option.bind_some, deleteWord]
    by_cases isDelete : (ascii "DELETE ").isPrefixOf line = true
    · obtain ⟨advanced, rest⟩ := deleteRest isDelete
      rw [if_pos isDelete, if_pos isDelete, advanced]
      simp only [Option.bind_some, rest.strlen, validKey_spec rest.starts.of_append]
      cases Cache.validKey (line.drop 7) with
      | false => exact ⟨refused, refuses, unanswered⟩
      | true => exact ⟨_, rfl, .lock (.delete rest)⟩
    · rw [if_neg isDelete, if_neg isDelete, setCompared]
      simp only [Option.bind_some, setWord]
      by_cases isSet : (ascii "SET ").isPrefixOf line = true
      · obtain ⟨advanced, rest⟩ := setRest isSet
        rw [if_pos isSet, if_pos isSet, advanced]
        exact handleSet_spec rest
      · rw [if_neg isSet, if_neg isSet]
        exact ⟨refused, refuses, unanswered⟩

/-! ## Sections -/

section Sections

variable {store : Store} {abstract : Cache.Store} {now : Int}

/-- A string in an array leaves room for its NUL. -/
theorem length_le_of_holds {size : Nat} {array : CharArray (size + 1)} {text : Bytes}
    (holds : array.cells.Holds text) : text.length ≤ size := by
  have inside := holds.starts.length_le
  rw [List.length_append, List.length_singleton, array.length_cells] at inside
  omega

/-- Copying a string with its NUL into another array. -/
theorem copy_spec {size : Nat} (array : CharArray size) {cells : Cells} {text : Bytes}
    (holds : cells.Holds text) (fits : text.length < size) :
    ∃ after, array.memcpy 0 cells (text.length + 1) = some after ∧ after.cells.Holds text := by
  obtain ⟨after, copies, starts⟩ := @CharArray.memcpy_spec size array (text ++ [0]) [] cells
    (Cells.starts_nil _) holds.starts
    (by rw [List.length_append, List.length_singleton, List.length_nil]; omega)
  rw [List.length_append, List.length_singleton, List.length_nil] at copies
  exact ⟨after, copies, holds.noNul, starts⟩

/-- **`SET` writes** its key and its value into the arrays of the slot. -/
theorem Store.Represents.writeSlot (represents : store.Represents abstract) (slot : Slot)
    {array : CharArray (keyMax + 1)} {cells : Cells} {key value : Bytes}
    (holds : array.cells.Holds key) (valueHolds : cells.Holds value)
    (fits : value.length ≤ valueMax) (ttl : Nat) (now : Int) :
    ∃ after, writeSlot store slot array key.length ttl cells value.length now = some after ∧
      after.Represents (Cache.writeSlot abstract slot key value ttl now) := by
  obtain ⟨storedKey, copiesKey, keyStored⟩ :=
    copy_spec (store slot).key holds (Nat.lt_succ_of_le (length_le_of_holds holds))
  obtain ⟨storedValue, copiesValue, valueStored⟩ :=
    copy_spec (store slot).value valueHolds (Nat.lt_succ_of_le fits)
  rw [Memory.writeSlot, copiesKey, copiesValue]
  refine ⟨_, rfl, represents.update ⟨rfl, ?_, rfl, fun _ => keyStored, fun _ => valueStored,
    fun _ => rfl⟩⟩
  dsimp only [writtenEntry]
  rw [(represents slot).expiresAtMs]

/-- A reply is formatted and sent as the reply on byte strings is. -/
theorem format_spec (reply : Reply) :
    ∃ shown, sendReply reply.format = some shown ∧ shown.Represents (Cache.sendReply reply) :=
  sendReply_spec reply.format

theorem used_of_lookup {key : Bytes} {searched : Cache.Store} {slot : Slot}
    (found : Cache.lookup abstract key now = (searched, some slot)) :
    (searched slot).used = true := by
  rcases lookup_cases abstract key now with ⟨other, equation, -, used, -⟩ | ⟨other, equation, -⟩ |
    ⟨equation, -⟩
  · obtain ⟨rfl, same⟩ := Prod.mk.inj (equation.symm.trans found)
    obtain rfl := Option.some.inj same
    exact used
  · cases (Prod.mk.inj (equation.symm.trans found)).2
  · cases (Prod.mk.inj (equation.symm.trans found)).2

/-- **The section of a command.** -/
theorem execute_spec (represents : store.Represents abstract) {request : Request}
    {command : Command} (asked : request.Represents command) (now : Int) :
    ∃ after text, execute store now request = some (after, text) ∧
      after.Represents (Cache.execute abstract now command).1 ∧
      text.Represents (Cache.sendReply (Cache.execute abstract now command).2) := by
  cases asked with
  | @get cells key holds =>
      obtain ⟨searched, looked, shown⟩ := represents.lookup holds now
      rw [execute, looked, Cache.execute]
      rcases found : Cache.lookup abstract key now with ⟨after, _ | slot⟩
      · rw [found] at shown
        rw [getSection_of_none found]
        obtain ⟨text, sent, replied⟩ := format_spec .notFound
        exact ⟨searched, text, by rw [Reply.format] at sent; simp [sent], shown, replied⟩
      · rw [found] at shown
        have used := used_of_lookup found
        have holdsValue := (shown slot).value used
        obtain ⟨copy, copies, copied⟩ := copy_spec (.uninitialised (valueMax + 1)) holdsValue
          (Nat.lt_succ_of_le (length_le_of_holds holdsValue))
        rw [← (shown slot).vlen used] at copies
        rw [getSection_of_some found]
        obtain ⟨text, sent, replied⟩ := format_spec (.value (after slot).value)
        refine ⟨searched, text, ?_, shown, replied⟩
        rw [Reply.format, List.append_assoc] at sent
        simp [copies, copied.string, sent]
  | @delete cells key holds =>
      obtain ⟨searched, looked, shown⟩ := represents.lookup holds now
      rw [execute, looked, Cache.execute]
      rcases found : Cache.lookup abstract key now with ⟨after, _ | slot⟩
      · rw [found] at shown
        rw [deleteSection_of_none found]
        obtain ⟨text, sent, replied⟩ := format_spec .notFound
        exact ⟨searched, text, by rw [Reply.format] at sent; simp [sent], shown, replied⟩
      · rw [found] at shown
        rw [deleteSection_of_some found]
        obtain ⟨text, sent, replied⟩ := format_spec .ok
        exact ⟨_, text, by rw [Reply.format] at sent; simp [sent], shown.release slot, replied⟩
  | @set array key ttl cells value holds valueHolds fits =>
      obtain ⟨searched, looked, shown⟩ := represents.lookup holds now
      obtain ⟨text, sent, replied⟩ := format_spec .ok
      rw [Reply.format] at sent
      rw [execute, looked, Cache.execute]
      rcases found : Cache.lookup abstract key now with ⟨after, _ | slot⟩
      · rw [found] at shown
        obtain ⟨sameSlot, freed⟩ := shown.freeSlot now
        rcases taken : Cache.freeSlot after now with ⟨cleared, _ | slot⟩
        · rw [taken] at sameSlot freed
          rw [setSection_of_full found taken]
          obtain ⟨error, sentError, repliedError⟩ := format_spec .error
          rw [Reply.format] at sentError
          rcases result : Memory.freeSlot searched now with ⟨memory, taking⟩
          rw [result] at sameSlot freed
          obtain rfl := sameSlot
          exact ⟨memory, error, by simp [result, sentError], freed, repliedError⟩
        · rw [taken] at sameSlot freed
          rw [setSection_of_free found taken]
          rcases result : Memory.freeSlot searched now with ⟨memory, taking⟩
          rw [result] at sameSlot freed
          obtain rfl := sameSlot
          obtain ⟨written, writes, stored⟩ := freed.writeSlot slot holds valueHolds fits ttl now
          exact ⟨written, text, by simp [result, writes, sent], stored, replied⟩
      · rw [found] at shown
        rw [setSection_of_some found]
        obtain ⟨written, writes, stored⟩ := shown.writeSlot slot holds valueHolds fits ttl now
        exact ⟨written, text, by simp [writes, sent], stored, replied⟩

end Sections

/-! ## Threads -/

/-- The thread is at the same place. -/
inductive Progress.Represents : Progress → Cache.Progress → Prop where
  | receiving : Represents .receiving .receiving
  | scanning : Represents .scanning .scanning
  | locking {request : Request} {command : Command} {line : Bytes}
      (parsed : parseLine (stripCr line) = some command) (asked : request.Represents command) :
      Represents (.locking request) (.locking line)
  | sending {text : Text} {bytes : Bytes} (shown : text.Represents bytes) (sent : Nat)
      (last : Bool) : Represents (.sending text sent last) (.sending (bytes.drop sent) last)
  | returned : Represents .returned .returned

/-- The buffer starts with the bytes that were scanned since the last `recv`, and those that were
not follow. -/
structure Buffered (handler : Handler) (done rest : Bytes) : Prop where
  starts : handler.pending.cells.Starts (done ++ rest)
  pendingLen : handler.pendingLen = done.length + rest.length
  processed : handler.processed = done.length
  fits : done.length + rest.length ≤ lineMax

/-- The thread stands for the thread on byte strings. -/
structure Handler.Represents (handler : Handler) (abstract : Cache.Handler) : Prop where
  buffer : ∃ done, Buffered handler done abstract.pending ∧
    (abstract.progress = .receiving → done = [])
  progress : handler.progress.Represents abstract.progress
  sent : handler.sent = abstract.sent

/-- A thread that is not at its `recv`. -/
theorem Handler.Represents.busy {handler : Handler} {abstract : Cache.Handler} {done : Bytes}
    (buffered : Buffered handler done abstract.pending) (other : abstract.progress ≠ .receiving)
    (progress : handler.progress.Represents abstract.progress)
    (sent : handler.sent = abstract.sent) : handler.Represents abstract :=
  ⟨⟨done, buffered, fun waiting => absurd waiting other⟩, progress, sent⟩

/-- Where the thread on byte strings is after it took a line out of the buffer. -/
def progressAfter (line : Bytes) : Cache.Progress :=
  if 0 ∈ line then .sending (ascii "ERROR\n") false
  else if stripCr line = [] then .sending (ascii "ERROR\n") false
  else
    match parseLine (stripCr line) with
    | none => .sending (Cache.sendReply .error) false
    | some _ => .locking line

theorem scan_of_cut {abstract : Cache.Handler} {line rest : Bytes}
    (cut : cutAt lf abstract.pending = some (line, rest)) :
    abstract.scan.1 = { abstract with pending := rest, progress := progressAfter line } := by
  rw [Cache.Handler.scan, cut, progressAfter]
  dsimp only
  split
  · rfl
  · split
    · rfl
    · cases parseLine (stripCr line) <;> rfl

theorem represents_error (last : Bool) :
    (Progress.sending errorText 0 last).Represents (.sending (ascii "ERROR\n") last) :=
  .sending represents_errorText 0 last

section Handlers

variable {handler : Handler} {abstract : Cache.Handler}

/-- **Receiving.** The chunk is copied behind what is pending only where it fits. -/
theorem Handler.Represents.receive (represents : handler.Represents abstract)
    (here : abstract.progress = .receiving) (received : Received) :
    ∃ after, handler.receive received = some after ∧
      after.Represents (abstract.receive received) := by
  obtain ⟨done, buffered, fresh⟩ := represents.buffer
  obtain rfl := fresh here
  have pendingLen := buffered.pendingLen
  rw [List.length_nil, Nat.zero_add] at pendingLen
  cases received with
  | interrupted => exact ⟨handler, rfl, represents⟩
  | failed =>
      exact ⟨_, rfl, .busy ⟨buffered.starts, buffered.pendingLen, buffered.processed, buffered.fits⟩
        (by simp [Cache.Handler.receive]) .returned represents.sent⟩
  | data bytes short =>
      rw [Handler.receive, Cache.Handler.receive]
      by_cases empty : bytes = []
      · rw [if_pos empty, if_pos empty]
        exact ⟨_, rfl, .busy ⟨buffered.starts, buffered.pendingLen, buffered.processed,
          buffered.fits⟩ (by simp) .returned represents.sent⟩
      · rw [if_neg empty, if_neg empty]
        obtain ⟨chunk, filled, chunkStarts⟩ := @CharArray.write_spec recvBuf (.uninitialised _) bytes
          [] (Cells.starts_nil _) (by rw [List.length_nil]; omega)
        rw [List.length_nil] at filled
        simp only [filled, Option.bind_eq_bind, Option.bind_some, pendingLen]
        split
        · exact ⟨_, rfl, .busy ⟨buffered.starts, (Nat.zero_add _).symm, buffered.processed,
            buffered.fits⟩ (by simp) (represents_error true) represents.sent⟩
        · rename_i room
          obtain ⟨pending, copies, starts⟩ := @CharArray.memcpy_spec (lineMax + 1) handler.pending
            bytes abstract.pending chunk.cells buffered.starts chunkStarts (by omega)
          rw [copies]
          refine ⟨_, rfl, @Handler.Represents.busy _ _ [] ⟨starts, ?_, rfl, ?_⟩ (by simp) .scanning
            represents.sent⟩
          · simp
          · rw [List.length_nil, List.length_append]
            omega

/-- **Stripping.** The NUL is put behind the line, or in place of its carriage return. -/
theorem terminate_spec {array : CharArray (lineMax + 1)} {line : Bytes}
    (starts : array.cells.Starts line) (noNul : 0 ∉ line) (fits : line.length ≤ lineMax) :
    ∃ after, Handler.terminate array line.length = some after ∧
      after.cells.Holds (stripCr line) := by
  obtain ⟨ended, assigned, endedStarts⟩ :=
    @CharArray.assign_spec (lineMax + 1) array line 0 starts (by omega)
  rw [Handler.terminate, assigned]
  simp only [Option.bind_eq_bind, Option.bind_some]
  rcases List.eq_nil_or_concat' line with rfl | ⟨front, last, rfl⟩
  · exact ⟨ended, rfl, noNul, endedStarts⟩
  · have size : (front ++ [last]).length - 1 = front.length := by simp
    have nonempty : 0 < (front ++ [last]).length := by simp
    rw [if_pos nonempty, size, endedStarts.of_append.load]
    simp only [Option.bind_some]
    by_cases isCr : last = cr
    · subst isCr
      obtain ⟨stripped, overwritten, strippedStarts⟩ := @CharArray.assign_spec (lineMax + 1) ended
        front 0 endedStarts.of_append.of_append (by rw [List.length_append] at fits; omega)
      have text : stripCr (front ++ [cr]) = front := by simp [stripCr]
      rw [if_pos rfl, overwritten, text]
      exact ⟨stripped, rfl, fun member => noNul (List.mem_append_left _ member), strippedStarts⟩
    · have text : stripCr (front ++ [last]) = front ++ [last] := by simp [stripCr, isCr]
      rw [if_neg isCr, text]
      exact ⟨ended, rfl, noNul, endedStarts⟩

/-- The first byte of a string is its NUL where the string is empty. -/
theorem load_zero {cells : Cells} {text : Bytes} (holds : cells.Holds text) :
    ∃ byte, cells.load 0 = some byte ∧ (byte = 0 ↔ text = []) := by
  cases text with
  | nil => exact ⟨0, @Cells.Starts.load cells [] 0 holds.starts, by simp⟩
  | cons byte text =>
      have starts : cells.Starts ([] ++ [byte]) := by
        have whole := holds.starts
        rw [show byte :: text ++ [0] = ([] ++ [byte]) ++ (text ++ [0]) by simp] at whole
        exact whole.of_append
      refine ⟨byte, starts.load, fun zero => ?_, nofun⟩
      exact absurd (zero ▸ List.mem_cons_self) holds.noNul

/-- **A line that was copied** is answered with an error or taken to the mutex. -/
theorem afterLine_spec {array : CharArray (lineMax + 1)} {line : Bytes}
    (starts : array.cells.Starts line) (fits : line.length ≤ lineMax) :
    ∃ progress, Handler.afterLine array line.length = some progress ∧
      progress.Represents (progressAfter line) := by
  rw [Handler.afterLine, progressAfter, starts.memchr]
  simp only [Option.bind_eq_bind, Option.bind_some]
  cases nul : cutAt 0 line with
  | some parts =>
      have hasNul : 0 ∈ line := by
        by_contra noNul
        rw [cutAt_eq_none_iff.mpr noNul] at nul
        cases nul
      rw [if_pos hasNul]
      exact ⟨_, rfl, represents_error false⟩
  | none =>
      have noNul : 0 ∉ line := cutAt_eq_none_iff.mp nul
      obtain ⟨stripped, terminated, holds⟩ := terminate_spec starts noNul fits
      obtain ⟨byte, loaded, zero⟩ := load_zero holds
      rw [if_neg noNul]
      simp only [Option.map_none, terminated, Option.bind_some, loaded]
      by_cases empty : stripCr line = []
      · rw [if_pos (zero.mpr empty), if_pos empty]
        exact ⟨_, rfl, represents_error false⟩
      · rw [if_neg (mt zero.mp empty), if_neg empty]
        obtain ⟨handled, handles, shown⟩ := handleLine_spec holds
        rw [handles]
        cases parsed : parseLine (stripCr line) with
        | none =>
            rw [parsed] at shown
            cases shown with
            | reply text => exact ⟨_, rfl, .sending text 0 false⟩
        | some command =>
            rw [parsed] at shown
            cases shown with
            | lock asked => exact ⟨_, rfl, .locking parsed asked⟩

/-- **The end of the inner loop.** What is left is moved to the front. -/
theorem Handler.Represents.compact {done : Bytes}
    (buffered : Buffered handler done abstract.pending) (sent : handler.sent = abstract.sent)
    (cut : cutAt lf abstract.pending = none) :
    ∃ after, handler.compact = some after ∧ after.Represents abstract.scan.1 := by
  have left : handler.pendingLen - handler.processed = abstract.pending.length := by
    rw [buffered.pendingLen, buffered.processed]
    omega
  have inside : ¬ lineMax < abstract.pending.length := by
    have fits := buffered.fits
    omega
  have moved : ∃ array, handler.moveLeft = some array ∧
      array.cells.Starts abstract.pending := by
    rw [Handler.moveLeft]
    by_cases scanned : 0 < handler.processed
    · obtain ⟨array, moves, starts⟩ := CharArray.memmove_spec buffered.starts
      rw [if_pos scanned, left, buffered.processed]
      exact ⟨array, moves, starts⟩
    · have nothing : done = [] := by
        rw [buffered.processed] at scanned
        exact List.length_eq_zero_iff.mp (by omega)
      rw [if_neg scanned]
      refine ⟨_, rfl, ?_⟩
      have starts := buffered.starts
      rw [nothing, List.nil_append] at starts
      exact starts
  obtain ⟨array, moves, starts⟩ := moved
  have scanned : abstract.scan.1 = { abstract with progress := .receiving } := by
    rw [Cache.Handler.scan, cut]
    dsimp only
    rw [if_neg inside]
  rw [Handler.compact, moves, scanned]
  simp only [Option.bind_eq_bind, Option.bind_some, left, if_neg inside]
  refine ⟨_, rfl, ⟨[], ⟨starts, (Nat.zero_add _).symm, rfl, ?_⟩, fun _ => rfl⟩, .receiving, sent⟩
  rw [List.length_nil, Nat.zero_add]
  exact Nat.not_lt.mp inside

/-- **Scanning.** -/
theorem Handler.Represents.scan (represents : handler.Represents abstract) :
    ∃ after, handler.scan = some after ∧ after.Represents abstract.scan.1 := by
  obtain ⟨done, buffered, -⟩ := represents.buffer
  have ordered : handler.processed ≤ handler.pendingLen := by
    rw [buffered.pendingLen, buffered.processed]
    omega
  have left : handler.pendingLen - handler.processed = abstract.pending.length := by
    rw [buffered.pendingLen, buffered.processed]
    omega
  have advanced : handler.pending.cells.advance handler.processed =
      some (handler.pending.cells.drop done.length) := by
    rw [buffered.processed]
    exact buffered.starts.of_append.advance
  have rest := buffered.starts.drop
  rw [Handler.scan, if_pos ordered, advanced]
  simp only [Option.bind_eq_bind, Option.bind_some, left, rest.memchr]
  cases cut : cutAt lf abstract.pending with
  | none => exact Handler.Represents.compact buffered represents.sent cut
  | some parts =>
      obtain ⟨line, after⟩ := parts
      obtain ⟨split, -⟩ := cutAt_eq_some_iff.mp cut
      have fits := buffered.fits
      rw [split, List.length_append, List.length_cons] at fits
      rw [split] at rest
      obtain ⟨array, copies, starts⟩ := @CharArray.memcpy_spec (lineMax + 1) (.uninitialised _) line
        [] _ (Cells.starts_nil _) rest.of_append (by rw [List.length_nil]; omega)
      rw [List.nil_append] at starts
      obtain ⟨progress, follows, shown⟩ := afterLine_spec starts (by omega)
      rw [List.length_nil] at copies
      simp only [Option.map_some, copies, Option.bind_some, follows, scan_of_cut cut]
      refine ⟨_, rfl, @Handler.Represents.busy _ _ (done ++ (line ++ [lf])) ⟨?_, ?_, ?_, ?_⟩ ?_ shown
        represents.sent⟩
      · have starts := buffered.starts
        rw [split] at starts
        simpa using starts
      · rw [buffered.pendingLen, split]
        simp only [List.length_append, List.length_cons, List.length_nil]
        omega
      · rw [buffered.processed]
        simp
      · simp only [List.length_append, List.length_cons, List.length_nil]
        omega
      · dsimp only
        intro waiting
        rw [progressAfter] at waiting
        split at waiting
        · cases waiting
        · split at waiting
          · cases waiting
          · split at waiting <;> cases waiting

/-- **Sending.** -/
theorem Handler.Represents.send (represents : handler.Represents abstract) {text : Text}
    {bytes : Bytes} (shown : text.Represents bytes) (sent : Nat) (last : Bool)
    (here : abstract.progress = .sending (bytes.drop sent) last) (result : Sent) :
    ∃ after, handler.send text sent last result = some after ∧
      after.Represents (abstract.send (bytes.drop sent) last result) := by
  obtain ⟨done, buffered, -⟩ := represents.buffer
  have kept : ∀ (progress : Progress) (output : Bytes),
      Buffered { handler with progress := progress, sent := output } done abstract.pending :=
    fun _ _ => ⟨buffered.starts, buffered.pendingLen, buffered.processed, buffered.fits⟩
  have nothing_iff : bytes.drop sent = [] ↔ ¬ sent < text.length := by
    rw [List.drop_eq_nil_iff, shown.length]
    omega
  unfold Handler.send Cache.Handler.send
  by_cases finished : bytes.drop sent = []
  · rw [if_pos finished, if_neg (nothing_iff.mp finished)]
    cases last with
    | true => exact ⟨_, rfl, .busy (kept _ _) (by simp) .returned represents.sent⟩
    | false => exact ⟨_, rfl, .busy (kept _ _) (by simp) .scanning represents.sent⟩
  · have unsent : sent < text.length := not_not.mp (mt nothing_iff.mpr finished)
    rw [if_neg finished, if_pos unsent]
    cases result with
    | interrupted => exact ⟨handler, rfl, represents⟩
    | failed => exact ⟨_, rfl, .busy (kept _ _) (by simp) .returned represents.sent⟩
    | taken count =>
        dsimp only
        by_cases zero : count = 0
        · rw [if_pos zero, if_pos zero]
          exact ⟨_, rfl, .busy (kept _ _) (by simp) .returned represents.sent⟩
        · rw [if_neg zero, if_neg zero]
          -- The pointer reaches what is left, of which `send` takes the front.
          have size : (bytes.drop sent).length = text.length - sent := by
            rw [List.length_drop, shown.length]
          have split : bytes = bytes.take sent ++ ((bytes.drop sent).take count ++
              (bytes.drop sent).drop count) := by
            rw [List.take_append_drop, List.take_append_drop]
          have front : (bytes.take sent).length = sent := by
            rw [List.length_take, ← shown.length]
            omega
          have taken : ((bytes.drop sent).take count).length = min count (text.length - sent) := by
            rw [List.length_take, size]
          have starts := shown.starts
          rw [split] at starts
          have advanced := starts.of_append.advance
          rw [front] at advanced
          have read := starts.drop.of_append.read
          rw [front, taken] at read
          simp only [advanced, Option.bind_eq_bind, Option.bind_some, read]
          have remaining : (bytes.drop sent).drop count =
              bytes.drop (sent + min count (text.length - sent)) := by
            rw [List.drop_drop, ← size]
            by_cases few : count ≤ (bytes.drop sent).length
            · rw [Nat.min_eq_left few]
            · rw [Nat.min_eq_right (by omega), List.drop_eq_nil_iff.mpr, List.drop_eq_nil_iff.mpr]
              · rw [List.length_drop]
                omega
              · rw [List.length_drop] at few
                omega
          rw [remaining, represents.sent]
          exact ⟨_, rfl, .busy (kept _ _) (by simp) (.sending shown _ last) rfl⟩

end Handlers

/-! ## Every run -/

/-- The store and every thread stand for those on byte strings. -/
structure Threads.Represents (threads : Threads) (abstract : Cache.Threads) : Prop where
  store : threads.store.Represents abstract.store
  handlers : ∀ client, (threads.handlers client).Represents (abstract.handlers client)

section Runs

variable {threads : Threads} {abstract : Cache.Threads}

theorem represents_start : Threads.start.Represents .start := by
  refine ⟨represents_emptyStore, fun client => ⟨⟨[], ⟨Cells.starts_nil _, rfl, rfl, ?_⟩,
    fun _ => rfl⟩, .receiving, rfl⟩⟩
  exact Nat.zero_le _

/-- A thread moves on. -/
theorem Threads.Represents.moves (represents : threads.Represents abstract) {store : Store}
    {abstractStore : Cache.Store} (stored : store.Represents abstractStore) {client : Nat}
    {handler : Handler} {abstractHandler : Cache.Handler}
    (moved : handler.Represents abstractHandler) (history : List (Nat × Int × Bytes)) :
    Threads.Represents ⟨store, Function.update threads.handlers client handler⟩
      ⟨abstractStore, Function.update abstract.handlers client abstractHandler, history⟩ := by
  refine ⟨stored, fun other => ?_⟩
  dsimp only
  by_cases same : other = client
  · subst same
    rw [Function.update_self, Function.update_self]
    exact moved
  · rw [Function.update_of_ne same, Function.update_of_ne same]
    exact represents.handlers other

/-- **One turn** of any thread. -/
theorem Threads.Represents.turn (represents : threads.Represents abstract) (turn : Turn) :
    ∃ after, threads.turn turn = some after ∧ after.Represents (abstract.turn turn) := by
  have handler := represents.handlers turn.client
  have progress := handler.progress
  rw [Threads.turn, Cache.Threads.turn]
  dsimp only
  generalize place : (threads.handlers turn.client).progress = memoryPlace at progress
  generalize abstractPlace : (abstract.handlers turn.client).progress = place' at progress
  cases progress with
  | receiving =>
      obtain ⟨after, received, moved⟩ := handler.receive abstractPlace turn.received
      simp only [received, Option.bind_eq_bind, Option.bind_some]
      exact ⟨_, rfl, represents.moves represents.store moved _⟩
  | scanning =>
      obtain ⟨after, scanned, moved⟩ := handler.scan
      simp only [scanned, Option.bind_eq_bind, Option.bind_some]
      exact ⟨_, rfl, represents.moves represents.store moved _⟩
  | @locking request command line parsed asked =>
      obtain ⟨store, text, executed, stored, shown⟩ :=
        execute_spec represents.store asked turn.now
      obtain ⟨done, buffered, -⟩ := handler.buffer
      have handled : Cache.handleLine abstract.store turn.now (stripCr line) =
          ((Cache.execute abstract.store turn.now command).1,
            Cache.sendReply (Cache.execute abstract.store turn.now command).2) := by
        rw [Cache.handleLine, parsed]
      simp only [executed, handled, Option.bind_eq_bind, Option.bind_some]
      have moved : Handler.Represents
          { threads.handlers turn.client with progress := .sending text 0 false }
          { abstract.handlers turn.client with
            progress := .sending
              (Cache.sendReply (Cache.execute abstract.store turn.now command).2) false } :=
        .busy ⟨buffered.starts, buffered.pendingLen, buffered.processed, buffered.fits⟩ (by simp)
          (.sending shown 0 false) handler.sent
      exact ⟨_, rfl, represents.moves stored moved _⟩
  | @sending text bytes shown sent last =>
      obtain ⟨after, sends, moved⟩ := handler.send shown sent last abstractPlace turn.sent
      simp only [sends, Option.bind_eq_bind, Option.bind_some]
      exact ⟨_, rfl, represents.moves represents.store moved _⟩
  | returned => exact ⟨threads, rfl, represents⟩

/-- **Memory safety.** Whatever the clients send, however their streams are cut and in whichever
order their threads take turns, no access of the cache is undefined: every read and write stays
inside its array, and no cell is read before it was written. Every client is sent what the cache
of byte strings sends to it, and every used slot holds the key and the value of that cache as
strings. -/
theorem memory_refines (turns : List Turn) :
    ∃ threads, runEvents Threads.turn .start turns = some threads ∧
      (∀ client, (threads.handlers client).sent =
        ((Cache.Threads.after turns).handlers client).sent) ∧
      ∀ slot, (threads.store slot).used = ((Cache.Threads.after turns).store slot).used ∧
        (((Cache.Threads.after turns).store slot).used = true →
          (threads.store slot).key.cells.string =
              some ((Cache.Threads.after turns).store slot).key ∧
            (threads.store slot).value.cells.string =
              some ((Cache.Threads.after turns).store slot).value) := by
  have run : ∀ (turns : List Turn) (threads : Threads) (abstract : Cache.Threads),
      threads.Represents abstract → ∃ after, runEvents Threads.turn threads turns = some after ∧
        after.Represents (turns.foldl Cache.Threads.turn abstract) := by
    intro turns
    induction turns with
    | nil => exact fun threads abstract represents => ⟨threads, rfl, represents⟩
    | cons turn turns ih =>
        intro threads abstract represents
        obtain ⟨next, taken, still⟩ := represents.turn turn
        obtain ⟨after, rest, holds⟩ := ih next _ still
        exact ⟨after, by rw [runEvents_cons, taken]; exact rest, holds⟩
  obtain ⟨threads, reached, represents⟩ := run turns .start .start represents_start
  refine ⟨threads, reached, fun client => (represents.handlers client).sent, fun slot => ?_⟩
  have entry := represents.store slot
  exact ⟨entry.used, fun used => ⟨(entry.key used).string, (entry.value used).string⟩⟩

end Runs

end InfraFromScratch.Cache.Memory
