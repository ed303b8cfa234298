import InfraFromScratch.Cache.Threads
import InfraFromScratch.Foundations.CharArrays

/-!
# The cache in memory

`in-mem-cache/server.c` keeps keys, values, lines and replies in character arrays of fixed sizes.
This module follows it array by array: what is copied where, which pointers are passed on, and
where a NUL is put. An access that C leaves undefined gives nothing: one outside of an array, or
one to a cell that was never written.

Whatever the clients send and in whichever order their threads take turns, no such access happens,
and the cache sends what the cache of byte strings sends (`memory_refines`).
-/

set_option autoImplicit false

namespace InfraFromScratch.Cache.Memory

open Foundations

/-! ## The store -/

/-- `struct entry`. -/
structure Entry where
  used : Bool
  key : CharArray (keyMax + 1)
  value : CharArray (valueMax + 1)
  vlen : Nat
  expiresAtMs : Int
  hasExpiry : Bool

/-- `static struct entry store[STORE_CAP]`. -/
abbrev Store := Slot → Entry

/-- Static storage is zero at the start. -/
def emptyStore : Store := fun _ => ⟨false, .zeroed _, .zeroed _, 0, 0, false⟩

/-- `has_expiry && now >= expires_at_ms`. -/
def Entry.stale (entry : Entry) (now : Int) : Bool :=
  entry.hasExpiry && decide (entry.expiresAtMs ≤ now)

/-- `store[i].used = 0`. -/
def release (store : Store) (slot : Slot) : Store :=
  Function.update store slot { store slot with used := false }

/-- The loop of `lookup` from some slot on. -/
def lookupFrom (store : Store) (key : Cells) (now : Int) :
    List Slot → Option (Store × Option Slot)
  | [] => some (store, none)
  | slot :: slots =>
      if (store slot).used then do
        if (← (store slot).key.cells.strcmp key) = .eq then
          if (store slot).stale now then return (release store slot, none)
          else return (store, some slot)
        else lookupFrom store key now slots
      else lookupFrom store key now slots

/-- `lookup`. -/
def lookup (store : Store) (key : Cells) (now : Int) : Option (Store × Option Slot) :=
  lookupFrom store key now (List.finRange storeCap)

/-- `free_slot`. -/
def freeSlot (store : Store) (now : Int) : Store × Option Slot :=
  match (List.finRange storeCap).find? fun slot => !(store slot).used || (store slot).stale now with
  | none => (store, none)
  | some slot => (release store slot, some slot)

/-! ## Replies -/

/-- What `send_all` is given: a pointer and a length. -/
structure Text where
  cells : Cells
  length : Nat

/-- `"ERROR\n", 6`. -/
def errorText : Text := ⟨(ascii "ERROR\n" ++ [0]).map some, 6⟩

/-- `send_reply` up to its call of `send_all`. The length is never negative. -/
def sendReply (text : Bytes) : Option Text := do
  let (buf, length) ← (CharArray.uninitialised (valueMax + 32)).vsnprintf text
  if valueMax + 32 ≤ length then return errorText
  else return ⟨buf.cells, length⟩

/-! ## Arguments -/

/-- `valid_key`. -/
def validKey (key : Cells) (len : Nat) : Option Bool :=
  if len = 0 ∨ keyMax < len then some false
  else (key.read len).map fun bytes => bytes.all fun byte => !isSpace byte

/-- `strtol` in base ten, with the number of bytes it reads. Without digits it reads nothing, and
a number that is no `long` is replaced by the nearest. -/
def strtol (text : Bytes) : Int × Nat :=
  let blanks := text.takeWhile isSpace
  let signed := text.drop blanks.length
  let sign := (signed.take 1).filter fun byte => byte == 43 || byte == 45
  let digits := (signed.drop sign.length).takeWhile isDigit
  let number : Int := Cache.strtol digits
  if digits = [] then (0, 0)
  else
    (max (-2 ^ 63) (min (2 ^ 63 - 1) (if sign = [45] then -number else number)),
      blanks.length + sign.length + digits.length)

/-- `parse_ttl`. -/
def parseTtl (s : Cells) (len : Nat) : Option (Option Nat) :=
  if len = 0 ∨ 5 < len then some none
  else do
    if (← s.read len).all isDigit then
      let copied ← (CharArray.uninitialised 8).memcpy 0 s len
      let tmp ← copied.assign len 0
      let (number, count) := strtol (← tmp.cells.string)
      if count = 0 ∨ (← tmp.cells.load count) ≠ 0 ∨ number < 0 ∨ ttlMax < number then return none
      else return some number.toNat
    else return none

/-! ## Lines -/

/-- What `handle_line` takes into the section of a command. -/
inductive Request where
  | get (key : Cells)
  | delete (key : Cells)
  | set (key : CharArray (keyMax + 1)) (klen ttl : Nat) (value : Cells) (vlen : Nat)

/-- `handle_line` up to the mutex: a reply, or a command for the store. -/
inductive Handled where
  | reply (text : Text)
  | lock (request : Request)

/-- `return send_reply(fd, "ERROR\n")`. -/
def refuse : Option Handled := return .reply (← sendReply (ascii "ERROR\n"))

/-- The branch of `SET`, with `p` behind the command word. -/
def handleSet (p : Cells) : Option Handled := do
  match ← p.strchr space with
  | none => refuse
  | some klen =>
      if ← validKey p klen then
        let copied ← (CharArray.uninitialised (keyMax + 1)).memcpy 0 p klen
        let key ← copied.assign klen 0
        let ts ← p.advance (klen + 1)
        match ← ts.strchr space with
        | none => refuse
        | some tlen =>
            match ← parseTtl ts tlen with
            | none => refuse
            | some ttl =>
                let value ← ts.advance (tlen + 1)
                let vlen ← value.strlen
                if vlen = 0 ∨ valueMax < vlen then refuse
                else return .lock (.set key klen ttl value vlen)
      else refuse

/-- `handle_line` up to the mutex. -/
def handleLine (line : Cells) : Option Handled := do
  if (← line.strncmp (ascii "GET ") 4) = .eq then
    let key ← line.advance 4
    if ← validKey key (← key.strlen) then return .lock (.get key) else refuse
  else if (← line.strncmp (ascii "DELETE ") 7) = .eq then
    let key ← line.advance 7
    if ← validKey key (← key.strlen) then return .lock (.delete key) else refuse
  else if (← line.strncmp (ascii "SET ") 4) = .eq then
    handleSet (← line.advance 4)
  else refuse

/-- `SET` writes its entry into the slot it settled on. -/
def writeSlot (store : Store) (slot : Slot) (key : CharArray (keyMax + 1)) (klen ttl : Nat)
    (value : Cells) (vlen : Nat) (now : Int) : Option Store := do
  let storedKey ← (store slot).key.memcpy 0 key.cells (klen + 1)
  let storedValue ← (store slot).value.memcpy 0 value (vlen + 1)
  return Function.update store slot
    { used := true
      key := storedKey
      value := storedValue
      vlen := vlen
      expiresAtMs := if ttl = 0 then (store slot).expiresAtMs else now + ttl * 1000
      hasExpiry := ttl != 0 }

/-- The section of a command under the mutex, and its reply. -/
def execute (store : Store) (now : Int) : Request → Option (Store × Text)
  | .get key => do
      match ← lookup store key now with
      | (store, none) => return (store, ← sendReply (ascii "NOT_FOUND\n"))
      | (store, some slot) =>
          let value ← (CharArray.uninitialised (valueMax + 1)).memcpy 0 (store slot).value.cells
            ((store slot).vlen + 1)
          return (store, ← sendReply (ascii "VALUE " ++ (← value.cells.string) ++ [lf]))
  | .delete key => do
      match ← lookup store key now with
      | (store, none) => return (store, ← sendReply (ascii "NOT_FOUND\n"))
      | (store, some slot) => return (release store slot, ← sendReply (ascii "OK\n"))
  | .set key klen ttl value vlen => do
      match ← lookup store key.cells now with
      | (store, some slot) =>
          return (← writeSlot store slot key klen ttl value vlen now, ← sendReply (ascii "OK\n"))
      | (store, none) =>
          match freeSlot store now with
          | (store, some slot) =>
              return (← writeSlot store slot key klen ttl value vlen now,
                ← sendReply (ascii "OK\n"))
          | (store, none) => return (store, ← sendReply (ascii "ERROR\n"))

/-! ## Threads -/

/-- Where a thread is in `handle_client`. -/
inductive Progress where
  | receiving
  | scanning
  | locking (request : Request)
  | sending (text : Text) (sent : Nat) (last : Bool)
  | returned

/-- The variables of `handle_client`, and what was sent. -/
structure Handler where
  pending : CharArray (lineMax + 1)
  pendingLen : Nat
  processed : Nat
  progress : Progress
  sent : Bytes

namespace Handler

/-- `recv`, and what the handler does before it scans. -/
def receive (handler : Handler) : Received → Option Handler
  | .interrupted => some handler
  | .failed => some { handler with progress := .returned }
  | .data bytes _ =>
      if bytes = [] then some { handler with progress := .returned }
      else do
        let chunk ← (CharArray.uninitialised recvBuf).write 0 bytes
        if lineMax < handler.pendingLen + bytes.length then
          return { handler with progress := .sending errorText 0 true }
        else
          let pending ← handler.pending.memcpy handler.pendingLen chunk.cells bytes.length
          return { handler with
            pending := pending
            pendingLen := handler.pendingLen + bytes.length
            processed := 0
            progress := .scanning }

/-- What was not scanned is moved to the front. -/
def moveLeft (handler : Handler) : Option (CharArray (lineMax + 1)) :=
  if 0 < handler.processed then
    handler.pending.memmove handler.processed (handler.pendingLen - handler.processed)
  else some handler.pending

/-- The end of the inner loop. -/
def compact (handler : Handler) : Option Handler := do
  let moved ← handler.moveLeft
  let left := handler.pendingLen - handler.processed
  return { handler with
    pending := moved
    pendingLen := left
    processed := 0
    progress := if lineMax < left then .sending errorText 0 true else .receiving }

/-- The array `line` with the stripped line, for a line without NUL. -/
def terminate (line : CharArray (lineMax + 1)) (linelen : Nat) :
    Option (CharArray (lineMax + 1)) := do
  let ended ← line.assign linelen 0
  if 0 < linelen then
    if (← ended.cells.load (linelen - 1)) = cr then ended.assign (linelen - 1) 0
    else return ended
  else return ended

/-- What follows after the line was copied. -/
def afterLine (line : CharArray (lineMax + 1)) (linelen : Nat) : Option Progress := do
  match ← line.cells.memchr 0 linelen with
  | some _ => return .sending errorText 0 false
  | none =>
      let stripped ← terminate line linelen
      if (← stripped.cells.load 0) = 0 then return .sending errorText 0 false
      else
        match ← handleLine stripped.cells with
        | .reply text => return .sending text 0 false
        | .lock request => return .locking request

/-- One round of the inner loop up to the mutex. A length below zero would wrap around and reach
far behind the array. -/
def scan (handler : Handler) : Option Handler := do
  if handler.processed ≤ handler.pendingLen then
    let start ← handler.pending.cells.advance handler.processed
    match ← start.memchr lf (handler.pendingLen - handler.processed) with
    | none => handler.compact
    | some linelen =>
        let line ← (CharArray.uninitialised (lineMax + 1)).memcpy 0 start linelen
        return { handler with
          processed := handler.processed + (linelen + 1)
          progress := ← afterLine line linelen }
  else none

/-- One round of the loop of `send_all`. -/
def send (handler : Handler) (text : Text) (sent : Nat) (last : Bool) (result : Sent) :
    Option Handler :=
  if sent < text.length then
    match result with
    | .interrupted => some handler
    | .failed => some { handler with progress := .returned }
    | .taken count =>
        if count = 0 then some { handler with progress := .returned }
        else do
          let bytes ← (← text.cells.advance sent).read (min count (text.length - sent))
          return { handler with
            sent := handler.sent ++ bytes
            progress := .sending text (sent + min count (text.length - sent)) last }
  else some { handler with progress := if last then .returned else .scanning }

end Handler

/-- The store and the threads. -/
structure Threads where
  store : Store
  handlers : Nat → Handler

/-- Every connection starts at its `recv`, with nothing in its buffers. -/
def Threads.start : Threads :=
  ⟨emptyStore, fun _ => ⟨.uninitialised _, 0, 0, .receiving, []⟩⟩

/-- One turn, or nothing where an access is undefined. -/
def Threads.turn (threads : Threads) (turn : Turn) : Option Threads := do
  let handler := threads.handlers turn.client
  match handler.progress with
  | .receiving =>
      let after ← handler.receive turn.received
      return { threads with handlers := Function.update threads.handlers turn.client after }
  | .scanning =>
      let after ← handler.scan
      return { threads with handlers := Function.update threads.handlers turn.client after }
  | .locking request =>
      let (store, text) ← execute threads.store turn.now request
      return ⟨store, Function.update threads.handlers turn.client
        { handler with progress := .sending text 0 false }⟩
  | .sending text sent last =>
      let after ← handler.send text sent last turn.sent
      return { threads with handlers := Function.update threads.handlers turn.client after }
  | .returned => return threads

end InfraFromScratch.Cache.Memory
