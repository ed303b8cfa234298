import InfraFromScratch.Foundations.Bytes
import InfraFromScratch.Foundations.Lines

/-!
# The cache client of the HTTP server

`http-server/cache_client.py` sends one command on a fresh connection and reads one
line of reply. Keys and values are checked before they are sent, and a value that
comes back is checked again by the same rules.

The peer is a function from the bytes of a command to the bytes it sends back, or
to nothing when connecting, sending or receiving fails.
-/

set_option autoImplicit false

namespace InfraFromScratch.Http

open Foundations

namespace CacheClient

/-- `KEY_MAX`. -/
def keyMax : Nat := 256

/-- `VALUE_MAX`. -/
def valueMax : Nat := 4096

/-- `TTL_MAX`. -/
def ttlMax : Int := 86400

/-- `MAX_REPLY_SIZE`. -/
def maxReplySize : Nat := valueMax + (ascii "VALUE ").length + 1

/-- The reasons for which a `CacheError` is raised. -/
inductive CacheError where
  | keyNotAscii
  | invalidKey
  | invalidValue
  | invalidTtl
  | requestFailed
  | malformedReply
  | unexpectedGetReply
  | unexpectedSetReply
  deriving DecidableEq, Repr

/-- `_encode_key`. -/
def encodeKey (key : String) : Except CacheError Bytes :=
  if key.toList.all fun character => character.toNat < 128 then
    if ¬ (0 < (ascii key).length ∧ (ascii key).length ≤ keyMax) ∨ (ascii key).any (· ≤ 32) then
      .error .invalidKey
    else .ok (ascii key)
  else .error .keyNotAscii

/-- `_encode_value`. -/
def encodeValue (value : Bytes) : Except CacheError Bytes :=
  if ¬ (0 < value.length ∧ value.length ≤ valueMax) then .error .invalidValue
  else if cr ∈ value ∨ lf ∈ value ∨ 0 ∈ value then .error .invalidValue
  else .ok value

/-- `readline(limit)` on a stream: through the first newline, but no more than
`limit` bytes. -/
def readline (limit : Nat) (stream : Bytes) : Bytes :=
  match cutAt lf stream with
  | some (line, _) => (line ++ [lf]).take limit
  | none => stream.take limit

/-- `CacheClient._command`. -/
def command (peer : Bytes → Option Bytes) (request : Bytes) : Except CacheError Bytes :=
  match peer request with
  | none => .error .requestFailed
  | some stream =>
      let reply := readline (maxReplySize + 1) stream
      if maxReplySize < reply.length ∨ reply.getLast? ≠ some lf then .error .malformedReply
      else .ok reply

/-- The bytes that `get` sends for an encoded key. -/
def getCommand (key : Bytes) : Bytes := ascii "GET " ++ key ++ [lf]

/-- The bytes that `set` sends for an encoded key and value. -/
def setCommand (key : Bytes) (ttl : Nat) (value : Bytes) : Bytes :=
  ascii "SET " ++ key ++ ascii " " ++ decimal ttl ++ ascii " " ++ value ++ [lf]

/-- What `get` makes of a reply. -/
def readGetReply (reply : Bytes) : Except CacheError (Option Bytes) :=
  if reply = ascii "NOT_FOUND\n" then .ok none
  else if (ascii "VALUE ").isPrefixOf reply ∧ reply.count lf = 1 then
    match encodeValue (reply.drop (ascii "VALUE ").length).dropLast with
    | .error reason => .error reason
    | .ok value => .ok (some value)
  else .error .unexpectedGetReply

/-- `CacheClient.get`. -/
def get (peer : Bytes → Option Bytes) (key : String) : Except CacheError (Option Bytes) :=
  match encodeKey key with
  | .error reason => .error reason
  | .ok encoded =>
      match command peer (getCommand encoded) with
      | .error reason => .error reason
      | .ok reply => readGetReply reply

/-- `CacheClient.set`. `str(ttl)` is the decimal number once its sign is checked. -/
def set (peer : Bytes → Option Bytes) (key : String) (value : Bytes) (ttl : Int) :
    Except CacheError Unit :=
  match encodeKey key with
  | .error reason => .error reason
  | .ok encodedKey =>
      match encodeValue value with
      | .error reason => .error reason
      | .ok encodedValue =>
          if ¬ (0 ≤ ttl ∧ ttl ≤ ttlMax) then .error .invalidTtl
          else
            match command peer (setCommand encodedKey ttl.toNat encodedValue) with
            | .error reason => .error reason
            | .ok reply => if reply ≠ ascii "OK\n" then .error .unexpectedSetReply else .ok ()

/-! ## What is accepted -/

/-- A key as it is sent: 1 to 256 ASCII bytes above the space. -/
structure SentKey (key : Bytes) : Prop where
  nonempty : 1 ≤ key.length
  bounded : key.length ≤ 256
  printable : ∀ byte ∈ key, 32 < byte.toNat

/-- A value as it is sent: 1 to 4096 bytes without CR, LF and NUL. -/
structure SentValue (value : Bytes) : Prop where
  nonempty : 1 ≤ value.length
  bounded : value.length ≤ 4096
  noCr : cr ∉ value
  noLf : lf ∉ value
  noNul : 0 ∉ value

theorem sentKey_of_encodeKey {key : String} {encoded : Bytes}
    (accepted : encodeKey key = .ok encoded) : SentKey encoded := by
  unfold encodeKey keyMax at accepted
  split at accepted
  · split at accepted
    · cases accepted
    · rename_i checks
      obtain rfl := Except.ok.inj accepted
      obtain ⟨sizes, noControl⟩ := not_or.mp checks
      obtain ⟨positive, bounded⟩ := not_not.mp sizes
      refine ⟨positive, bounded, fun byte member => ?_⟩
      have above : ¬ byte ≤ 32 := fun below =>
        noControl (List.any_eq_true.mpr ⟨byte, member, decide_eq_true below⟩)
      simpa [UInt8.le_iff_toNat_le] using above
  · cases accepted

theorem encodeValue_eq_ok_iff {value encoded : Bytes} :
    encodeValue value = .ok encoded ↔ encoded = value ∧ SentValue value := by
  unfold encodeValue valueMax
  constructor
  · intro accepted
    split at accepted
    · cases accepted
    · rename_i sizes
      split at accepted
      · cases accepted
      · rename_i clean
        obtain rfl := Except.ok.inj accepted
        simp only [not_or, not_not] at clean sizes
        exact ⟨rfl, sizes.1, sizes.2, clean.1, clean.2.1, clean.2.2⟩
  · rintro ⟨rfl, nonempty, bounded, noCr, noLf, noNul⟩
    rw [if_neg (by omega), if_neg (by simp [noCr, noLf, noNul])]

/-! ## One line of reply -/

/-- A reply of one line that is short enough is read as it is. -/
theorem command_of_line {peer : Bytes → Option Bytes} {request text : Bytes}
    (answers : peer request = some (text ++ [lf])) (oneLine : lf ∉ text)
    (short : text.length + 1 ≤ maxReplySize) :
    command peer request = .ok (text ++ [lf]) := by
  have read : readline (maxReplySize + 1) (text ++ [lf]) = text ++ [lf] := by
    have cut := cutAt_append oneLine []
    rw [readline, cut]
    exact List.take_of_length_le (by simp; omega)
  unfold command
  simp only [answers, read]
  rw [if_neg]
  simp only [List.getLast?_append, List.getLast?_singleton, List.length_append, List.length_singleton]
  simp
  omega

/-- What is accepted of a stream that has no newline but at its end is the whole stream. -/
theorem eq_of_command {peer : Bytes → Option Bytes} {request text reply stream : Bytes}
    (oneLine : lf ∉ text) (part : stream <+: text ++ [lf]) (answers : peer request = some stream)
    (accepted : command peer request = .ok reply) : stream = text ++ [lf] ∧ reply = stream := by
  unfold command at accepted
  simp only [answers] at accepted
  split at accepted
  · cases accepted
  · rename_i complete
    obtain ⟨short, ended⟩ := not_or.mp complete
    obtain rfl := Except.ok.inj accepted
    rcases List.prefix_concat_iff.mp part with whole | inside
    · refine ⟨whole, ?_⟩
      rw [readline, whole, cutAt_append oneLine []] at short ⊢
      refine List.take_of_length_le ?_
      by_contra longer
      rw [List.length_take] at short
      omega
    · -- A part without the newline cannot end with it.
      have clean : lf ∉ stream := fun member => oneLine (inside.subset member)
      rw [readline, cutAt_eq_none_iff.mpr clean, not_not] at ended
      exact absurd (List.mem_of_mem_take (List.mem_of_getLast? ended)) clean

/-- `get` checks the value of a line of reply. -/
theorem readGetReply_line {value : Bytes} (oneLine : lf ∉ value) :
    readGetReply (ascii "VALUE " ++ value ++ [lf]) =
      match encodeValue value with
      | .error reason => .error reason
      | .ok value => .ok (some value) := by
  have other : ascii "VALUE " ++ value ++ [lf] ≠ ascii "NOT_FOUND\n" := by simp [ascii]
  have found : (ascii "VALUE ").isPrefixOf (ascii "VALUE " ++ value ++ [lf]) = true := by
    simp [List.append_assoc]
  have once : (ascii "VALUE " ++ value ++ [lf]).count lf = 1 := by
    have word : (ascii "VALUE ").count lf = 0 := by decide
    rw [List.count_append, List.count_append, word, List.count_eq_zero.mpr oneLine]
    rfl
  have payload : ((ascii "VALUE " ++ value ++ [lf]).drop (ascii "VALUE ").length).dropLast =
      value := by
    rw [List.append_assoc, List.drop_left, List.dropLast_concat]
  unfold readGetReply
  rw [if_neg other, if_pos ⟨found, once⟩, payload]

/-- `get` on a line of reply with an accepted value returns the value. -/
theorem readGetReply_value {value : Bytes} (sent : SentValue value) :
    readGetReply (ascii "VALUE " ++ value ++ [lf]) = .ok (some value) := by
  rw [readGetReply_line sent.noLf, encodeValue_eq_ok_iff.mpr ⟨rfl, sent⟩]

/-- **`get` returns nothing exactly on `NOT_FOUND`.** The reply line decides, whatever
the peer is. -/
theorem get_eq_none_iff {peer : Bytes → Option Bytes} {key : String} :
    get peer key = .ok none ↔
      ∃ encoded, encodeKey key = .ok encoded ∧
        command peer (getCommand encoded) = .ok (ascii "NOT_FOUND\n") := by
  unfold get
  constructor
  · intro returned
    split at returned
    · cases returned
    · rename_i encoded accepted
      split at returned
      · cases returned
      · rename_i reply received
        refine ⟨encoded, accepted, ?_⟩
        rw [received]
        unfold readGetReply at returned
        split at returned
        · rename_i notFound
          rw [notFound]
        · split at returned
          · split at returned
            · cases returned
            · cases returned
          · cases returned
  · rintro ⟨encoded, accepted, received⟩
    rw [accepted]
    simp only [received]
    rfl

end CacheClient

end InfraFromScratch.Http
