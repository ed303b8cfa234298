import InfraFromScratch.Cache.StoreRefinement
import InfraFromScratch.Foundations.Lines

/-!
# The command lines of the cache

`handle_line` recognises a command by its first word, cuts its arguments at
spaces, checks them, and runs the section of the command under the mutex. All
checks come before the lock, so a line is first read as a command (`parseLine`) and
the command is then executed.

The grammar of command lines is stated on its own (`Denotes`), and reading a line
decides it: `parseLine line = some command` exactly when the line denotes the
command (`parseLine_eq_some_iff`).
-/

set_option autoImplicit false

namespace InfraFromScratch.Cache

open Foundations

/-- `KEY_MAX`. -/
def keyMax : Nat := 256

/-- `VALUE_MAX`. -/
def valueMax : Nat := 4096

/-- `TTL_MAX`. -/
def ttlMax : Nat := 86400

/-- `' '`. -/
abbrev space : UInt8 := 32

/-! ## Arguments -/

/-- `isspace` in the C locale: tab, newline, vertical tab, form feed, carriage
return and space. -/
def isSpace (byte : UInt8) : Bool := (9 ≤ byte && byte ≤ 13) || byte == 32

/-- `isdigit`. -/
def isDigit (byte : UInt8) : Bool := 48 ≤ byte && byte ≤ 57

/-- `valid_key`. -/
def validKey (key : Bytes) : Bool :=
  if key.length = 0 ∨ keyMax < key.length then false else key.all fun byte => !isSpace byte

/-- `strtol` in base ten on a string of digits. -/
def strtol (digits : Bytes) : Nat :=
  digits.foldl (fun total digit => total * 10 + (digit.toNat - 48)) 0

/-- `parse_ttl`. At most five digits are read, so the result is never negative and
never overflows. -/
def parseTtl (text : Bytes) : Option Nat :=
  if text.length = 0 ∨ 5 < text.length then none
  else if text.all isDigit then
    if ttlMax < strtol text then none else some (strtol text)
  else none

/-! ## Replies -/

/-- The text of a reply: `"VALUE %s\n"` and the three constant lines. -/
def Reply.format : Reply → Bytes
  | .value text => ascii "VALUE " ++ text ++ [lf]
  | .notFound => ascii "NOT_FOUND\n"
  | .ok => ascii "OK\n"
  | .error => ascii "ERROR\n"

/-- `send_reply`: the text goes through a buffer of `VALUE_MAX + 32` bytes, and a
text that does not fit with its NUL is replaced by an error. -/
def sendReply (reply : Reply) : Bytes :=
  if valueMax + 32 ≤ reply.format.length then ascii "ERROR\n" else reply.format

/-! ## Lines -/

/-- The arguments of `SET`, cut at the first two spaces and checked in this order. -/
def parseSet (arguments : Bytes) : Option Command :=
  match cutAt space arguments with
  | none => none
  | some (key, afterKey) =>
      if validKey key then
        match cutAt space afterKey with
        | none => none
        | some (ttlText, value) =>
            match parseTtl ttlText with
            | none => none
            | some ttl =>
                if value.length = 0 ∨ valueMax < value.length then none
                else some (.set key ttl value)
      else none

/-- The checks of `handle_line`, in their order: the command word, the spaces, and
the arguments. `none` is an immediate `ERROR`. -/
def parseLine (line : Bytes) : Option Command :=
  if (ascii "GET ").isPrefixOf line then
    if validKey (line.drop 4) then some (.get (line.drop 4)) else none
  else if (ascii "DELETE ").isPrefixOf line then
    if validKey (line.drop 7) then some (.delete (line.drop 7)) else none
  else if (ascii "SET ").isPrefixOf line then
    parseSet (line.drop 4)
  else none

/-- `handle_line`: the new store and the bytes sent. -/
def handleLine (store : Store) (now : Int) (line : Bytes) : Store × Bytes :=
  match parseLine line with
  | none => (store, sendReply .error)
  | some command =>
      let answered := execute store now command
      (answered.1, sendReply answered.2)

/-! ## The grammar -/

/-- A key: 1 to 256 bytes without white space. -/
structure ValidKey (key : Bytes) : Prop where
  nonempty : 1 ≤ key.length
  bounded : key.length ≤ 256
  noSpace : ∀ byte ∈ key, isSpace byte = false

/-- A time to live: 1 to 5 decimal digits of value at most 86400. -/
structure TtlText (text : Bytes) (ttl : Nat) : Prop where
  nonempty : 1 ≤ text.length
  bounded : text.length ≤ 5
  digits : ∀ byte ∈ text, isDigit byte = true
  value : strtol text = ttl
  limit : ttl ≤ 86400

/-- The line is the text of the command. -/
inductive Denotes : Bytes → Command → Prop where
  | get {key : Bytes} (valid : ValidKey key) : Denotes (ascii "GET " ++ key) (.get key)
  | delete {key : Bytes} (valid : ValidKey key) : Denotes (ascii "DELETE " ++ key) (.delete key)
  | set {key ttlText value : Bytes} {ttl : Nat} (valid : ValidKey key) (text : TtlText ttlText ttl)
      (nonempty : 1 ≤ value.length) (bounded : value.length ≤ 4096) :
      Denotes (ascii "SET " ++ key ++ [space] ++ ttlText ++ [space] ++ value) (.set key ttl value)

theorem validKey_iff (key : Bytes) : validKey key = true ↔ ValidKey key := by
  unfold validKey keyMax
  constructor
  · intro accepted
    split at accepted
    · cases accepted
    · refine ⟨by omega, by omega, fun byte member => ?_⟩
      simpa using List.all_eq_true.mp accepted byte member
  · rintro ⟨nonempty, bounded, noSpace⟩
    rw [if_neg (by omega), List.all_eq_true]
    intro byte member
    simp [noSpace byte member]

theorem parseTtl_eq_some_iff {text : Bytes} {ttl : Nat} :
    parseTtl text = some ttl ↔ TtlText text ttl := by
  unfold parseTtl ttlMax
  constructor
  · intro parsed
    split at parsed
    · cases parsed
    · split at parsed
      · rename_i digits
        split at parsed
        · cases parsed
        · obtain rfl := Option.some.inj parsed
          exact ⟨by omega, by omega, List.all_eq_true.mp digits, rfl, by omega⟩
      · cases parsed
  · rintro ⟨nonempty, bounded, digits, rfl, limit⟩
    rw [if_neg (by omega), if_pos (List.all_eq_true.mpr digits), if_neg (by omega)]

theorem ValidKey.space_notMem {key : Bytes} (valid : ValidKey key) : space ∉ key := by
  intro member
  have := valid.noSpace space member
  exact absurd this (by decide)

theorem TtlText.space_notMem {text : Bytes} {ttl : Nat} (valid : TtlText text ttl) :
    space ∉ text := by
  intro member
  have := valid.digits space member
  exact absurd this (by decide)

/-- A word at the front of a line is read off, and the rest is what follows it. -/
theorem isPrefixOf_append_iff {word line : Bytes} :
    word.isPrefixOf line = true ↔ line = word ++ line.drop word.length := by
  rw [List.isPrefixOf_iff_prefix]
  constructor
  · rintro ⟨rest, rfl⟩
    simp
  · intro split
    exact ⟨_, split.symm⟩

theorem parseLine_get (key : Bytes) :
    parseLine (ascii "GET " ++ key) = if validKey key then some (.get key) else none := by
  simp [parseLine, ascii, List.isPrefixOf]

theorem parseLine_delete (key : Bytes) :
    parseLine (ascii "DELETE " ++ key) = if validKey key then some (.delete key) else none := by
  simp [parseLine, ascii, List.isPrefixOf]

theorem parseLine_set (arguments : Bytes) :
    parseLine (ascii "SET " ++ arguments) = parseSet arguments := by
  simp [parseLine, ascii, List.isPrefixOf]

theorem parseSet_eq_some_iff {arguments : Bytes} {command : Command} :
    parseSet arguments = some command ↔
      ∃ key ttlText value ttl, arguments = key ++ [space] ++ ttlText ++ [space] ++ value ∧
        ValidKey key ∧ TtlText ttlText ttl ∧ 1 ≤ value.length ∧ value.length ≤ 4096 ∧
          command = .set key ttl value := by
  constructor
  · intro parsed
    unfold parseSet at parsed
    split at parsed
    · cases parsed
    · rename_i key afterKey firstCut
      split at parsed
      · rename_i keyValid
        split at parsed
        · cases parsed
        · rename_i ttlText value secondCut
          split at parsed
          · cases parsed
          · rename_i ttl ttlParsed
            split at parsed
            · cases parsed
            · rename_i lengths
              obtain ⟨rfl, _⟩ := cutAt_eq_some_iff.mp firstCut
              obtain ⟨rfl, _⟩ := cutAt_eq_some_iff.mp secondCut
              unfold valueMax at lengths
              exact ⟨key, ttlText, value, ttl, by simp, (validKey_iff key).mp keyValid,
                parseTtl_eq_some_iff.mp ttlParsed, by omega, by omega, (Option.some.inj parsed).symm⟩
      · cases parsed
  · rintro ⟨key, ttlText, value, ttl, rfl, keyValid, text, nonempty, bounded, rfl⟩
    have firstCut : cutAt space (key ++ [space] ++ ttlText ++ [space] ++ value) =
        some (key, ttlText ++ [space] ++ value) := by
      simpa using cutAt_append keyValid.space_notMem (ttlText ++ [space] ++ value)
    have secondCut : cutAt space (ttlText ++ [space] ++ value) = some (ttlText, value) := by
      simpa using cutAt_append text.space_notMem value
    have lengths : ¬ (value.length = 0 ∨ valueMax < value.length) := by
      unfold valueMax
      omega
    simp only [parseSet, firstCut, secondCut, (validKey_iff key).mpr keyValid, if_true,
      parseTtl_eq_some_iff.mpr text, if_neg lengths]

/-- **Reading a line decides the grammar.** -/
theorem parseLine_eq_some_iff {line : Bytes} {command : Command} :
    parseLine line = some command ↔ Denotes line command := by
  constructor
  · intro parsed
    by_cases isGet : (ascii "GET ").isPrefixOf line = true
    · rw [isPrefixOf_append_iff.mp isGet, parseLine_get] at parsed
      rw [isPrefixOf_append_iff.mp isGet]
      split at parsed
      · rename_i valid
        obtain rfl := Option.some.inj parsed
        exact .get ((validKey_iff _).mp valid)
      · cases parsed
    · by_cases isDelete : (ascii "DELETE ").isPrefixOf line = true
      · rw [isPrefixOf_append_iff.mp isDelete, parseLine_delete] at parsed
        rw [isPrefixOf_append_iff.mp isDelete]
        split at parsed
        · rename_i valid
          obtain rfl := Option.some.inj parsed
          exact .delete ((validKey_iff _).mp valid)
        · cases parsed
      · by_cases isSet : (ascii "SET ").isPrefixOf line = true
        · rw [isPrefixOf_append_iff.mp isSet, parseLine_set, parseSet_eq_some_iff] at parsed
          obtain ⟨key, ttlText, value, ttl, split, valid, text, nonempty, bounded, rfl⟩ := parsed
          rw [isPrefixOf_append_iff.mp isSet, split]
          simpa using Denotes.set valid text nonempty bounded
        · simp [parseLine, isGet, isDelete, isSet] at parsed
  · intro denotes
    cases denotes with
    | get valid => rw [parseLine_get, if_pos ((validKey_iff _).mpr valid)]
    | delete valid => rw [parseLine_delete, if_pos ((validKey_iff _).mpr valid)]
    | @set key ttlText value ttl valid text nonempty bounded =>
        have split : ascii "SET " ++ key ++ [space] ++ ttlText ++ [space] ++ value =
            ascii "SET " ++ (key ++ [space] ++ ttlText ++ [space] ++ value) := by simp
        rw [split, parseLine_set, parseSet_eq_some_iff]
        exact ⟨key, ttlText, value, ttl, rfl, valid, text, nonempty, bounded, rfl⟩

/-- A line that denotes a command has that command executed. -/
theorem handleLine_of_denotes {line : Bytes} {command : Command} (denotes : Denotes line command)
    (store : Store) (now : Int) :
    handleLine store now line =
      ((execute store now command).1, sendReply (execute store now command).2) := by
  unfold handleLine
  rw [parseLine_eq_some_iff.mpr denotes]

end InfraFromScratch.Cache
