import InfraFromScratch.Cache.Connection
import InfraFromScratch.Cache.LastWrite
import InfraFromScratch.Http.CacheClient

/-!
# The cache client against the cache server

The client is written in Python and checks keys, values and times to live by its
own limits; the server is written in C and parses command lines by its own. This
module joins the two through a connection that may cut the bytes of a command
anywhere.

What the client accepts, the server reads as exactly that key, time to live and
value (`handleClient_set`). So a value that was stored is returned by a later `get`
before its deadline, unless the key was written or deleted in between
(`set_get_round_trip`).
-/

set_option autoImplicit false

namespace InfraFromScratch.Stack

open Foundations Cache Http

/-! ## The server as the peer of a client -/

/-- How a connection cuts the bytes of a command into received chunks. -/
structure Segmentation where
  cut : Bytes → List Bytes
  complete : ∀ stream, (cut stream).flatten = stream
  sizes : ∀ stream, ∀ chunk ∈ cut stream, 1 ≤ chunk.length ∧ chunk.length ≤ recvBuf

/-- A connection to the cache: the times and sends of the server, the store it finds,
and the way its input is cut. -/
structure CacheConnection where
  session : Session
  store : Store
  network : Segmentation
  delivered : ∀ index, session.sends index = none
  reachable : Reachable (session.clock 0) store

namespace CacheConnection

variable (connection : CacheConnection)

/-- The time at which the command of the connection holds the mutex. -/
def now : Int := connection.session.clock 0

/-- The server's side of the connection after it received a command. -/
def served (command : Bytes) : ClientState :=
  handleClient connection.session (.start connection.store) [] (connection.network.cut command)

/-- The server as the client sees it. -/
def peer (command : Bytes) : Option Bytes := some (connection.served command).sent

/-- A single command line is executed and its reply is sent as formatted. -/
theorem served_of_denotes {line : Bytes} {command : Command} (denotes : Denotes line command)
    (isLine : IsLine line) (noCr : line.getLast? ≠ some cr) (nonempty : line ≠ [])
    (short : line.length ≤ lineMax - recvBuf) :
    (connection.served (line ++ [lf])).store =
        (execute connection.store connection.now command).1 ∧
      connection.peer (line ++ [lf]) =
        some (execute connection.store connection.now command).2.format := by
  obtain ⟨map, related⟩ := connection.reachable.related
  have answered : answerLine connection.store (connection.now, line) =
      ((execute connection.store connection.now command).1,
        (execute connection.store connection.now command).2.format) := by
    have stripped : stripCr line = line := if_neg noCr
    rw [answerLine, stripped, if_neg (not_or.mpr ⟨isLine.noNul, nonempty⟩),
      handleLine_of_denotes denotes, sendReply_execute related.clean]
  have stream : (connection.network.cut (line ++ [lf])).flatten = joinLines lf [line] ++ [] := by
    rw [connection.network.complete]
    simp
  obtain ⟨finalStore, sent, -⟩ :=
    handleClient_of_stream connection.delivered connection.store
      (by simpa using ⟨isLine.noNewline, short⟩) (by simp) (by simp) stream
      (connection.network.sizes _)
  have run : runReplies answerLine connection.store
      (stampLines connection.session.clock 0 [line]) =
        ((execute connection.store connection.now command).1,
          [(execute connection.store connection.now command).2.format]) := by
    rw [stampLines, stampLines, runReplies_cons, runReplies_nil]
    rw [show connection.session.clock 0 = connection.now from rfl, answered]
  rw [run] at finalStore sent
  refine ⟨finalStore, ?_⟩
  rw [peer, served, sent]
  simp

end CacheConnection

/-! ## The command lines of the client -/

section Lines

variable {key value : Bytes} {ttl : Nat}

theorem validKey_of_sentKey (sent : CacheClient.SentKey key) : ValidKey key := by
  refine ⟨sent.nonempty, sent.bounded, fun byte member => ?_⟩
  have above := sent.printable byte member
  simp only [isSpace, Bool.or_eq_false_iff, Bool.and_eq_false_iff, decide_eq_false_iff_not,
    beq_eq_false_iff_ne, UInt8.le_iff_toNat_le, ne_eq, ← UInt8.toNat_inj]
  simp only [UInt8.reduceToNat]
  omega

theorem sentKey_ne (sent : CacheClient.SentKey key) {byte : UInt8} (member : byte ∈ key)
    {other : UInt8} (low : other.toNat ≤ 32) : byte ≠ other := by
  rintro rfl
  have := sent.printable byte member
  omega

theorem isLine_sentKey (sent : CacheClient.SentKey key) : IsLine key :=
  ⟨fun member => sentKey_ne sent member (by decide) rfl,
    fun member => sentKey_ne sent member (by decide) rfl⟩

theorem ttlText_decimal (limit : ttl ≤ 86400) : TtlText (decimal ttl) ttl where
  nonempty := List.length_pos_of_ne_nil (decimal_ne_nil ttl)
  bounded := decimal_length_le (by omega) (by omega)
  digits := by
    intro byte member
    have digit := mem_decimal member
    simp only [isDigit, Bool.and_eq_true, decide_eq_true_eq, UInt8.le_iff_toNat_le]
    exact digit
  value := foldl_decimal ttl
  limit := limit

/-- The line of `SET`, without its newline. -/
def setLine (key : Bytes) (ttl : Nat) (value : Bytes) : Bytes :=
  ascii "SET " ++ key ++ [space] ++ decimal ttl ++ [space] ++ value

theorem setCommand_eq : CacheClient.setCommand key ttl value = setLine key ttl value ++ [lf] := rfl

theorem denotes_setLine (sentKey : CacheClient.SentKey key)
    (sentValue : CacheClient.SentValue value) (limit : ttl ≤ 86400) :
    Denotes (setLine key ttl value) (.set key ttl value) :=
  .set (validKey_of_sentKey sentKey) (ttlText_decimal limit) sentValue.nonempty sentValue.bounded

theorem isLine_setLine (sentKey : CacheClient.SentKey key)
    (sentValue : CacheClient.SentValue value) : IsLine (setLine key ttl value) := by
  have digits : ∀ low : UInt8, low.toNat < 48 → low ∉ decimal ttl := by
    intro low bound member
    have := mem_decimal member
    omega
  have keyLine := isLine_sentKey sentKey
  constructor
  · simp only [setLine, List.mem_append, not_or]
    exact ⟨⟨⟨⟨⟨by decide, keyLine.noNul⟩, by decide⟩, digits 0 (by decide)⟩, by decide⟩,
      sentValue.noNul⟩
  · simp only [setLine, List.mem_append, not_or]
    exact ⟨⟨⟨⟨⟨by decide, keyLine.noNewline⟩, by decide⟩, digits lf (by decide)⟩, by decide⟩,
      sentValue.noLf⟩

/-- A line does not end in a carriage return when its nonempty last part has none. -/
theorem getLast?_append_ne {front back : Bytes} {byte : UInt8} (nonempty : 1 ≤ back.length)
    (absent : byte ∉ back) : (front ++ back).getLast? ≠ some byte := by
  intro last
  have some_last : back.getLast? = some (back.getLast (List.ne_nil_of_length_pos nonempty)) :=
    List.getLast?_eq_some_getLast _
  rw [List.getLast?_append, some_last, Option.some_or, Option.some.injEq] at last
  exact absent (last ▸ List.getLast_mem _)

theorem setLine_length (sentKey : CacheClient.SentKey key)
    (sentValue : CacheClient.SentValue value) (limit : ttl ≤ 86400) :
    (setLine key ttl value).length ≤ lineMax - recvBuf := by
  have keyBound := sentKey.bounded
  have valueBound := sentValue.bounded
  have ttlBound : (decimal ttl).length ≤ 5 := decimal_length_le (by omega) (by omega)
  have word : (ascii "SET ").length = 4 := by decide
  simp only [setLine, List.length_append, List.length_singleton, word]
  unfold lineMax recvBuf
  omega

end Lines

/-- **The server reads what the client sent.** The command bytes of `set` are executed
as exactly that key, time to live and value. -/
theorem handleClient_set (connection : CacheConnection) {key value : Bytes} {ttl : Nat}
    (sentKey : CacheClient.SentKey key) (sentValue : CacheClient.SentValue value)
    (limit : ttl ≤ 86400) :
    (connection.served (CacheClient.setCommand key ttl value)).store =
        (execute connection.store connection.now (.set key ttl value)).1 ∧
      connection.peer (CacheClient.setCommand key ttl value) =
        some (execute connection.store connection.now (.set key ttl value)).2.format := by
  rw [setCommand_eq]
  refine connection.served_of_denotes (denotes_setLine sentKey sentValue limit)
    (isLine_setLine sentKey sentValue) ?_ ?_ (setLine_length sentKey sentValue limit)
  · exact getLast?_append_ne sentValue.nonempty sentValue.noCr
  · simp [setLine, ascii]

/-- The command bytes of `get` are executed as a `GET` of exactly that key. -/
theorem handleClient_get (connection : CacheConnection) {key : Bytes}
    (sentKey : CacheClient.SentKey key) :
    connection.peer (CacheClient.getCommand key) =
      some (execute connection.store connection.now (.get key)).2.format := by
  have keyLine := isLine_sentKey sentKey
  have isLine : IsLine (ascii "GET " ++ key) := by
    constructor
    · exact fun member => (List.mem_append.mp member).elim (by decide) keyLine.noNul
    · exact fun member => (List.mem_append.mp member).elim (by decide) keyLine.noNewline
  have short : (ascii "GET " ++ key).length ≤ lineMax - recvBuf := by
    have keyBound := sentKey.bounded
    have word : (ascii "GET ").length = 4 := by decide
    rw [List.length_append, word]
    unfold lineMax recvBuf
    omega
  refine (connection.served_of_denotes (.get (validKey_of_sentKey sentKey)) isLine ?_ ?_ short).2
  · exact getLast?_append_ne sentKey.nonempty fun member => sentKey_ne sentKey member (by decide) rfl
  · simp [ascii]

/-! ## Keys that are live in a store -/

/-- A slot holds the key, and its entry is not stale. -/
def LiveIn (store : Store) (now : Int) (key : Bytes) : Prop :=
  ∃ slot, (store slot).used = true ∧ (store slot).key = key ∧ (store slot).stale now = false

/-- The live keys of a store are those of the map it simulates. -/
theorem liveIn_iff {now : Int} {store : Store} {map : AbstractCache}
    (related : Simulates now store map) {key : Bytes} :
    LiveIn store now key ↔ key ∈ map.liveKeys now := by
  constructor
  · intro live
    obtain ⟨slot, used, rfl, fresh⟩ := live
    refine ⟨(store slot).value, (related.represents now le_rfl _ _).mp ?_⟩
    refine ⟨slot, (store slot).deadline, Entry.dated_eq_some_iff.mpr ⟨used, rfl⟩, ?_⟩
    by_contra passed
    rw [← Entry.stale_iff, fresh] at passed
    cases passed
  · intro live
    obtain ⟨value, shown⟩ := live
    obtain ⟨slot, deadline, found, ahead⟩ := (related.represents now le_rfl _ _).mpr shown
    obtain ⟨used, same⟩ := Entry.dated_eq_some_iff.mp found
    obtain ⟨rfl, rfl, rfl⟩ := Dated.mk.inj same
    refine ⟨slot, used, rfl, ?_⟩
    rw [Bool.eq_false_iff, ne_eq, Entry.stale_iff]
    exact not_not.mpr ahead

/-- **When `SET` is accepted**, in terms of the slots: always, unless the key is not
live and `storeCap` others are. -/
theorem set_ok_iff {now : Int} {store : Store} {map : AbstractCache}
    (related : Simulates now store map) (key value : Bytes) (ttl : Nat) :
    (execute store now (.set key ttl value)).2 = .ok ↔
      ¬ (¬ LiveIn store now key ∧
        1024 ≤ {other | other ≠ key ∧ LiveIn store now other}.encard) := by
  have live : {other | LiveIn store now other} = map.liveKeys now :=
    Set.ext fun other => liveIn_iff related
  have accepts : map.Accepts now key ↔
      ¬ (¬ LiveIn store now key ∧
        1024 ≤ {other | other ≠ key ∧ LiveIn store now other}.encard) := by
    rw [AbstractCache.Accepts, ← liveIn_iff related, ← live]
    by_cases here : LiveIn store now key
    · simp [here]
    · have others : {other | other ≠ key ∧ LiveIn store now other} =
          {other | LiveIn store now other} := by
        ext other
        refine and_iff_right_of_imp fun there same => here ?_
        rwa [← same]
      rw [others]
      simp only [here, false_or, not_false_eq_true, true_and, not_le]
      rfl
  rw [(execute_simulates related (.set key ttl value)).1, AbstractCache.execute, ← accepts]
  by_cases accepted : map.Accepts now key
  · simp [accepted]
  · simp [accepted]

/-! ## The commands in between -/

/-- The request is neither a `SET` nor a `DELETE` of the key. -/
def Spares (key : Bytes) (request : Request) : Prop :=
  parseLine request.line ≠ some (.delete key) ∧
    ∀ ttl value, parseLine request.line ≠ some (.set key ttl value)

/-- Requests that spare a key keep its entry. -/
theorem runAbstract_entry {requests : List Request} {key : Bytes}
    (spared : ∀ request ∈ requests, Spares key request) (map : AbstractCache) :
    (runReplies serveAbstract map requests).1 key = map key := by
  refine runReplies_invariant (fun reached : AbstractCache => reached key = map key) ?_ rfl
  intro request member reached same
  obtain ⟨noDelete, noSet⟩ := spared request member
  rw [serveAbstract]
  cases parsed : parseLine request.line with
  | none => exact same
  | some command =>
      rw [parsed] at noDelete noSet
      rcases execute_entry reached request.now command key with
        ⟨ttl, value, isSet, -⟩ | ⟨isDelete, -⟩ | ⟨-, kept⟩
      · exact absurd (congrArg some isSet) (noSet ttl value)
      · exact absurd (congrArg some isDelete) noDelete
      · exact kept.trans same

/-- **A stored value is found again** by every `GET` before its deadline, as long as the
key was spared. -/
theorem get_after_set {time now : Int} {store : Store} {map : AbstractCache}
    (related : Related time store map) {key value : Bytes} {ttl : Nat} (clean : CleanValue value)
    (stored : (execute store time (.set key ttl value)).2 = .ok) {between : List Request}
    (ordered : Ordered Request.now between)
    (during : ∀ request ∈ between, time ≤ request.now ∧ request.now ≤ now)
    (spared : ∀ request ∈ between, Spares key request) (later : time ≤ now)
    (ahead : ttl = 0 ∨ now < time + 1000 * ttl) :
    (execute (runReplies serve (execute store time (.set key ttl value)).1 between).1 now
      (.get key)).2 = .value value := by
  obtain ⟨sameReply, simulates⟩ := execute_simulates related.simulates (.set key ttl value)
  have written : Related time (execute store time (.set key ttl value)).1
      (map.execute time (.set key ttl value)).1 :=
    ⟨simulates, execute_clean related.clean time clean⟩
  have entry : (map.execute time (.set key ttl value)).1 key =
      some (value, ttlDeadline ttl time) := by
    rw [stored, AbstractCache.execute] at sameReply
    rw [AbstractCache.execute]
    split at sameReply
    · rename_i accepted
      rw [if_pos accepted]
      exact Function.update_self ..
    · cases sameReply
  obtain ⟨-, afterwards⟩ :=
    runReplies_simulation Related Related.mono
      (fun request _ reached image related => serve_simulates request reached image related)
      ordered (fun request member => written.mono (during request member).1)
  have final := afterwards now (fun request member => (during request member).2)
    (written.mono later)
  have read : (runReplies serveAbstract (map.execute time (.set key ttl value)).1 between).1.read
      now key = some value := by
    rw [ExpiringMap.read_eq_some_iff]
    exact ⟨_, by rw [runAbstract_entry spared, entry], lt_ttlDeadline_iff.mpr ahead⟩
  rw [(execute_simulates final.simulates (.get key)).1, AbstractCache.execute, read]

/-! ## The client and the server together -/

section Together

variable {key : String} {encoded value : Bytes}

/-- A reply of the server is one line that the client can read. -/
theorem format_readable {reply : Reply} (clean : ∀ value, reply = .value value → CleanValue value) :
    ∃ text, reply.format = text ++ [lf] ∧ lf ∉ text ∧
      text.length + 1 ≤ CacheClient.maxReplySize := by
  have size : CacheClient.maxReplySize = 4103 := by decide
  rw [size]
  cases reply with
  | value value =>
      have cleanValue := clean value rfl
      have bounded := cleanValue.bounded
      have word : (ascii "VALUE ").length = 6 := by decide
      refine ⟨ascii "VALUE " ++ value, rfl, ?_, ?_⟩
      · rw [List.mem_append, not_or]
        exact ⟨by decide, cleanValue.noNewline⟩
      · rw [List.length_append, word]
        unfold valueMax at bounded
        omega
  | notFound => exact ⟨ascii "NOT_FOUND", by decide, by decide, by decide⟩
  | ok => exact ⟨ascii "OK", by decide, by decide, by decide⟩
  | error => exact ⟨ascii "ERROR", by decide, by decide, by decide⟩

/-- The client receives the reply as the server formats it. -/
theorem command_of_format {peer : Bytes → Option Bytes} {request : Bytes} {reply : Reply}
    (clean : ∀ value, reply = .value value → CleanValue value)
    (answers : peer request = some reply.format) :
    CacheClient.command peer request = .ok reply.format := by
  obtain ⟨text, same, oneLine, short⟩ := format_readable clean
  rw [same] at answers ⊢
  exact CacheClient.command_of_line answers oneLine short

/-- The reply of a reachable store to any command reaches the client. -/
theorem CacheConnection.command_eq (connection : CacheConnection) {request : Bytes}
    {command : Command}
    (answers : connection.peer request =
      some (execute connection.store connection.now command).2.format) :
    CacheClient.command connection.peer request =
      .ok (execute connection.store connection.now command).2.format := by
  obtain ⟨map, related⟩ := connection.reachable.related
  exact command_of_format (fun value same => cleanValue_of_reply related.clean same) answers

/-- `CacheClient.set` succeeds exactly when the server stored the value. -/
theorem set_eq_ok_iff (connection : CacheConnection) {ttl : Int}
    (keyAccepted : CacheClient.encodeKey key = .ok encoded)
    (valueAccepted : CacheClient.encodeValue value = .ok value)
    (ttlAccepted : 0 ≤ ttl ∧ ttl ≤ CacheClient.ttlMax) :
    CacheClient.set connection.peer key value ttl = .ok () ↔
      (execute connection.store connection.now (.set encoded ttl.toNat value)).2 = .ok := by
  have sentKey := CacheClient.sentKey_of_encodeKey keyAccepted
  obtain ⟨-, sentValue⟩ := CacheClient.encodeValue_eq_ok_iff.mp valueAccepted
  have limit : ttl.toNat ≤ 86400 := by
    obtain ⟨-, bounded⟩ := ttlAccepted
    unfold CacheClient.ttlMax at bounded
    omega
  have received := connection.command_eq (handleClient_set connection sentKey sentValue limit).2
  simp only [CacheClient.set, keyAccepted, valueAccepted, if_neg (not_not.mpr ttlAccepted),
    received]
  have okText : ascii "OK\n" = Reply.format .ok := rfl
  rw [okText]
  by_cases accepted : (execute connection.store connection.now (.set encoded ttl.toNat value)).2 = .ok
  · simp [accepted]
  · simp [accepted, format_injective.eq_iff]

/-- `CacheClient.get` reads the reply of the server. -/
theorem get_eq (connection : CacheConnection)
    (keyAccepted : CacheClient.encodeKey key = .ok encoded) :
    CacheClient.get connection.peer key = CacheClient.readGetReply
      (execute connection.store connection.now (.get encoded)).2.format := by
  have sentKey := CacheClient.sentKey_of_encodeKey keyAccepted
  have received := connection.command_eq (handleClient_get connection sentKey)
  simp only [CacheClient.get, keyAccepted, received]

end Together

/-- **The round trip.** Let `set` accept the key, the value and the time to live. The
server parses its command bytes as exactly these; `set` succeeds unless the key is not
live and 1024 others are; and once it succeeded, every `get` before the deadline
returns the value, whatever commands that spare the key came in between. `get` returns
nothing exactly on `NOT_FOUND`. -/
theorem set_get_round_trip {key : String} {encoded value : Bytes} {ttl : Int}
    (keyAccepted : CacheClient.encodeKey key = .ok encoded)
    (valueAccepted : CacheClient.encodeValue value = .ok value)
    (ttlAccepted : 0 ≤ ttl ∧ ttl ≤ CacheClient.ttlMax) (writer : CacheConnection) :
    (∃ line, CacheClient.setCommand encoded ttl.toNat value = line ++ [lf] ∧
      parseLine line = some (.set encoded ttl.toNat value) ∧
      (writer.served (line ++ [lf])).store =
        (execute writer.store writer.now (.set encoded ttl.toNat value)).1 ∧
      writer.peer (line ++ [lf]) =
        some (execute writer.store writer.now (.set encoded ttl.toNat value)).2.format) ∧
    (CacheClient.set writer.peer key value ttl = .ok () ↔
      ¬ (¬ LiveIn writer.store writer.now encoded ∧
        1024 ≤ {other | other ≠ encoded ∧ LiveIn writer.store writer.now other}.encard)) ∧
    (CacheClient.set writer.peer key value ttl = .ok () →
      ∀ (between : List Request) (reader : CacheConnection), Ordered Request.now between →
        (∀ request ∈ between, writer.now ≤ request.now ∧ request.now ≤ reader.now) →
        (∀ request ∈ between, Spares encoded request) → writer.now ≤ reader.now →
        reader.store = (runReplies serve
          (writer.served (CacheClient.setCommand encoded ttl.toNat value)).store between).1 →
        (ttl = 0 ∨ reader.now < writer.now + 1000 * ttl) →
        CacheClient.get reader.peer key = .ok (some value)) ∧
    ∀ peer, CacheClient.get peer key = .ok none ↔
      CacheClient.command peer (CacheClient.getCommand encoded) = .ok (ascii "NOT_FOUND\n") := by
  have sentKey := CacheClient.sentKey_of_encodeKey keyAccepted
  obtain ⟨-, sentValue⟩ := CacheClient.encodeValue_eq_ok_iff.mp valueAccepted
  have limit : ttl.toNat ≤ 86400 := by
    obtain ⟨-, bounded⟩ := ttlAccepted
    unfold CacheClient.ttlMax at bounded
    omega
  obtain ⟨map, related⟩ : ∃ map, Related writer.now writer.store map := writer.reachable.related
  obtain ⟨storeAfter, reply⟩ := handleClient_set writer sentKey sentValue limit
  refine ⟨⟨setLine encoded ttl.toNat value, setCommand_eq, ?_, storeAfter, reply⟩, ?_, ?_, ?_⟩
  · exact parseLine_eq_some_iff.mpr (denotes_setLine sentKey sentValue limit)
  · rw [set_eq_ok_iff writer keyAccepted valueAccepted ttlAccepted]
    exact set_ok_iff related.simulates encoded value ttl.toNat
  · intro accepted between reader ordered during spared later sameStore ahead
    rw [set_eq_ok_iff writer keyAccepted valueAccepted ttlAccepted] at accepted
    have clean : CleanValue value :=
      ⟨sentValue.nonempty, sentValue.bounded, sentValue.noNul, sentValue.noLf⟩
    have aheadNat : ttl.toNat = 0 ∨ reader.now < writer.now + 1000 * ttl.toNat := by
      obtain ⟨nonneg, -⟩ := ttlAccepted
      omega
    have answered := get_after_set related clean accepted ordered during spared later aheadNat
    rw [get_eq reader keyAccepted, sameStore, storeAfter, answered]
    exact CacheClient.readGetReply_value sentValue
  · intro peer
    rw [CacheClient.get_eq_none_iff]
    constructor
    · intro found
      obtain ⟨other, same, notFound⟩ := found
      rw [keyAccepted] at same
      obtain rfl := Except.ok.inj same
      exact notFound
    · intro notFound
      exact ⟨encoded, keyAccepted, notFound⟩

/-- A network that delivers one byte at a time. -/
def byteByByte : Segmentation where
  cut stream := stream.map fun byte => [byte]
  complete stream := by
    rw [← List.flatMap_def]
    exact List.flatMap_singleton' stream
  sizes stream chunk member := by
    obtain ⟨byte, -, rfl⟩ := List.mem_map.mp member
    exact ⟨le_rfl, Nat.le_of_ble_eq_true rfl⟩

/-- A first connection to the cache. -/
def firstConnection : CacheConnection where
  session := ⟨fun _ => 0, fun _ => none⟩
  store := emptyStore
  network := byteByByte
  delivered _ := rfl
  reachable := reachable_empty 0

theorem sample_sent : CacheClient.SentKey (ascii "a") ∧ CacheClient.SentValue (ascii " v ") :=
  ⟨CacheClient.sentKey_of_encodeKey (show CacheClient.encodeKey "a" = _ from rfl),
    (CacheClient.encodeValue_eq_ok_iff.mp
      (show CacheClient.encodeValue (ascii " v ") = _ from rfl)).2⟩

/-- A connection a moment before the deadline of what the first one stored. -/
def secondConnection : CacheConnection where
  session := ⟨fun _ => 59999, fun _ => none⟩
  store := (firstConnection.served (CacheClient.setCommand (ascii "a") 60 (ascii " v "))).store
  network := byteByByte
  delivered _ := rfl
  reachable := by
    have isLine : IsLine (setLine (ascii "a") 60 (ascii " v ")) :=
      isLine_setLine sample_sent.1 sample_sent.2
    have denotes : Denotes (setLine (ascii "a") 60 (ascii " v ")) _ :=
      denotes_setLine sample_sent.1 sample_sent.2 (by decide)
    refine ⟨[⟨0, 0, _, isLine⟩], List.pairwise_singleton _ _, by simp, ?_⟩
    rw [(handleClient_set firstConnection sample_sent.1 sample_sent.2 (by decide)).1,
      runReplies_cons, runReplies_nil, serve, handleLine_of_denotes denotes]
    rfl

/-- The first key fits and is found again. -/
theorem set_get_round_trip_first :
    CacheClient.set firstConnection.peer "a" (ascii " v ") 60 = .ok () ∧
      CacheClient.get secondConnection.peer "a" = .ok (some (ascii " v ")) := by
  obtain ⟨-, accepted_iff, found, -⟩ :=
    set_get_round_trip (show CacheClient.encodeKey "a" = .ok (ascii "a") from rfl)
      (show CacheClient.encodeValue (ascii " v ") = .ok (ascii " v ") from rfl)
      (show (0 : Int) ≤ 60 ∧ 60 ≤ CacheClient.ttlMax by decide) firstConnection
  have accepted := accepted_iff.mpr fun refused => by
    have nothing : {other | other ≠ ascii "a" ∧
        LiveIn firstConnection.store firstConnection.now other} = ∅ := by
      refine Set.eq_empty_of_forall_notMem fun other live => ?_
      obtain ⟨-, slot, used, -⟩ := live
      cases used
    rw [nothing, Set.encard_empty] at refused
    exact absurd refused.2 (by decide)
  exact ⟨accepted, found accepted [] secondConnection List.Pairwise.nil (by simp) (by simp)
    (by decide) rfl (.inr (by decide))⟩

end InfraFromScratch.Stack
