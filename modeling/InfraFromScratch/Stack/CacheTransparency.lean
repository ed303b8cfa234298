import InfraFromScratch.Foundations.Transitions
import InfraFromScratch.Http.CacheAside
import InfraFromScratch.Stack.CacheRoundTrip

/-!
# HTTP servers that share a cache

Any number of threads of any number of HTTP servers run `respond_with_cache` against one cache.
Their `get` and `set` are served in any order, among the commands of other clients, which do
not set the key of the cached route. A connection may fail at any point: a command may be lost,
a reply may be cut, and a `set` may be served long after its client has given up.

The system is a state and the events that change it. Whatever happens, what a thread returns
is what `respond` returns (`respondWithCache_transparent`): all that can ever be stored under
the key is the body of the route without its newline.
-/

set_option autoImplicit false

namespace InfraFromScratch.Stack

open Foundations Cache Http Http.Server

/-- The key of the cached route, as it is sent. -/
def helloKey : Bytes := ascii cacheKey

/-- Where a thread is in `respond_with_cache`. -/
inductive Thread where
  /-- It has no request. -/
  | idle
  /-- It has sent the command of `get`. -/
  | asking (request : Server.Request)
  /-- The cache has served `get`, and the reply is on its way. -/
  | answered (request : Server.Request) (reply : Bytes)
  /-- It missed, with this received by `get`, and has sent the command of `set`. -/
  | storing (request : Server.Request) (received : Option Bytes)
  | finished (request : Server.Request) (response : Server.Response)
  deriving DecidableEq

/-- The cache, the time, the threads, and the lines of `set` that the cache may still serve. -/
structure System where
  store : Store
  now : Int
  threads : Nat → Thread
  flying : List Bytes

/-- A new cache and idle threads. -/
def System.start (now : Int) : System := ⟨emptyStore, now, fun _ => .idle, []⟩

inductive CacheEvent where
  /-- Time passes. -/
  | pass (time : Nat)
  /-- The cache serves a line of another client. -/
  | foreign (line : Bytes)
  /-- A thread gets a request, in a server with or without a cache. -/
  | begin (thread : Nat) (hasCache : Bool) (request : Server.Request)
  /-- The cache serves the command of `get`. -/
  | serveGet (thread : Nat)
  /-- The connection of `get` ends with this received, or with an error. -/
  | endGet (thread : Nat) (received : Option Bytes)
  /-- The connection of `set` ends. -/
  | endSet (thread : Nat) (received : Option Bytes)
  /-- The cache serves the line of a `set`. -/
  | serveSet (index : Nat)
  /-- The line of a `set` will never be served. -/
  | loseSet (index : Nat)

/-- The line is a `SET` of the key of the cached route. -/
def setsHello (line : Bytes) : Bool :=
  match parseLine (stripCr line) with
  | some (.set key _ _) => key = helloKey
  | _ => false

/-- The cache serves a line. -/
def System.serve (system : System) (line : Bytes) : System :=
  { system with store := (answerLine system.store (system.now, line)).1 }

def System.setThread (system : System) (thread : Nat) (phase : Thread) : System :=
  { system with threads := Function.update system.threads thread phase }

/-- What a connection delivers of a reply: nothing, or a part from its start. -/
def delivers (reply : Bytes) (received : Option Bytes) : Bool :=
  received.all fun stream => stream.isPrefixOf reply

/-- What `respond_with_cache` returns, with what its connections received. -/
def responseOf (table : Routes) (request : Server.Request) (onGet onSet : Option Bytes) :
    Server.Response :=
  respondWithCache table (some ⟨fun _ => onGet, fun _ => onSet⟩) request

/-- `respond_with_cache` goes on after `get`: after a miss it sends the command of `set`, if the
client accepts the value, and otherwise it returns. -/
def System.afterGet (table : Routes) (system : System) (thread : Nat) (request : Server.Request)
    (received : Option Bytes) : System :=
  let returned := system.setThread thread (.finished request (responseOf table request received none))
  match CacheClient.get (fun _ => received) cacheKey with
  | .ok none =>
      match setRequest cacheKey (cacheValue (respond table request).body) cacheTtl with
      | .error _ => returned
      | .ok command =>
          { system.setThread thread (.storing request received) with
            flying := system.flying ++ [command.dropLast] }
  | _ => returned

/-- What an event does to the system. -/
def System.next (table : Routes) (system : System) : CacheEvent → Option System
  | .pass time => some { system with now := system.now + time }
  | .foreign line => if lf ∈ line ∨ setsHello line then none else some (system.serve line)
  | .begin thread hasCache request =>
      match system.threads thread with
      | .idle =>
          if hasCache ∧ isCached request then some (system.setThread thread (.asking request))
          else if hasCache then
            some (system.setThread thread (.finished request (responseOf table request none none)))
          else
            some (system.setThread thread (.finished request (respondWithCache table none request)))
      | _ => none
  | .serveGet thread =>
      match system.threads thread with
      | .asking request =>
          let line := (CacheClient.getCommand helloKey).dropLast
          some ((system.serve line).setThread thread
            (.answered request (answerLine system.store (system.now, line)).2))
      | _ => none
  | .endGet thread received =>
      match system.threads thread with
      | .asking request =>
          -- A full cache answers with an error before it reads the command.
          if delivers (ascii "ERROR\n") received then
            some (system.afterGet table thread request received)
          else none
      | .answered request reply =>
          if delivers reply received then some (system.afterGet table thread request received)
          else none
      | _ => none
  | .endSet thread received =>
      match system.threads thread with
      | .storing request onGet =>
          some (system.setThread thread (.finished request (responseOf table request onGet received)))
      | _ => none
  | .serveSet index =>
      match system.flying[index]? with
      | some line => some { system.serve line with flying := system.flying.eraseIdx index }
      | none => none
  | .loseSet index => some { system with flying := system.flying.eraseIdx index }

/-! ## What is stored under the key -/

/-- What is stored under the key of the cached route is the text. -/
def HelloOnly (text : Bytes) (key value : Bytes) : Prop := key = helloKey → value = text

/-- A line that stores nothing else under the key. -/
def Harmless (text line : Bytes) : Prop :=
  lf ∉ line ∧ ∀ ttl value, parseLine (stripCr line) = some (.set helloKey ttl value) → value = text

/-- Serving a harmless line keeps what is stored under the key. -/
theorem every_answerLine {text : Bytes} {store : Store} (every : Every (HelloOnly text) store)
    (now : Int) {line : Bytes} (harmless : Harmless text line) :
    Every (HelloOnly text) (answerLine store (now, line)).1 := by
  unfold answerLine
  split
  · exact every
  · refine every.handleLine now ?_
    intro command parsed
    cases command with
    | get key => trivial
    | delete key => trivial
    | set key ttl value =>
        intro same
        subst same
        exact harmless.2 ttl value parsed

theorem harmless_of_not_sets {text line : Bytes} (oneLine : lf ∉ line)
    (spares : setsHello line = false) : Harmless text line := by
  refine ⟨oneLine, ?_⟩
  intro ttl value parsed
  rw [setsHello, parsed] at spares
  simp at spares

/-! ## What `get` can receive -/

/-- The line of `get`. -/
def helloGet : Bytes := (CacheClient.getCommand helloKey).dropLast

theorem helloKey_sent : CacheClient.encodeKey cacheKey = .ok helloKey := by decide

/-- What the cache answers to `get` when nothing but the text is stored. -/
def GoodReply (text reply : Bytes) : Prop :=
  reply = ascii "ERROR\n" ∨ reply = ascii "NOT_FOUND\n" ∨
    lf ∉ text ∧ reply = ascii "VALUE " ++ text ++ [lf]

/-- The reply to `get` is sent as it is formatted. -/
theorem answerLine_helloGet {store : Store} (clean : Clean store) (now : Int) :
    (answerLine store (now, helloGet)).2 = (execute store now (.get helloKey)).2.format := by
  have denotes : Denotes helloGet (.get helloKey) :=
    .get (validKey_of_sentKey (CacheClient.sentKey_of_encodeKey helloKey_sent))
  have accepted : ¬ (0 ∈ helloGet ∨ stripCr helloGet = []) := by decide
  have kept : stripCr helloGet = helloGet := by decide
  rw [answerLine, if_neg accepted, kept, handleLine_of_denotes denotes, sendReply_execute clean]

theorem goodReply_of_get {text : Bytes} {store : Store} (every : Every (HelloOnly text) store)
    (clean : Clean store) (now : Int) : GoodReply text (answerLine store (now, helloGet)).2 := by
  rw [answerLine_helloGet clean]
  rcases get_reply_cases store now helloKey with missing | ⟨slot, used, key, found⟩
  · rw [missing]
    exact .inr (.inl rfl)
  · have noNewline := (clean slot used).noNewline
    rw [every slot used key] at found noNewline
    rw [found]
    exact .inr (.inr ⟨noNewline, rfl⟩)

theorem GoodReply.oneLine {text reply : Bytes} (good : GoodReply text reply) :
    ∃ line, reply = line ++ [lf] ∧ lf ∉ line := by
  rcases good with rfl | rfl | ⟨noNewline, rfl⟩
  · exact ⟨ascii "ERROR", rfl, by decide⟩
  · exact ⟨ascii "NOT_FOUND", rfl, by decide⟩
  · refine ⟨ascii "VALUE " ++ text, rfl, ?_⟩
    rw [List.mem_append, not_or]
    exact ⟨by decide, noNewline⟩

/-- What `get` makes of a good reply. -/
theorem readGetReply_of_goodReply {text reply : Bytes} (good : GoodReply text reply) :
    (∃ reason, CacheClient.readGetReply reply = .error reason) ∨
      CacheClient.readGetReply reply = .ok none ∨
      CacheClient.readGetReply reply = .ok (some text) := by
  rcases good with rfl | rfl | ⟨noNewline, rfl⟩
  · exact .inl ⟨_, rfl⟩
  · exact .inr (.inl rfl)
  · rw [CacheClient.readGetReply_line noNewline]
    cases accepted : CacheClient.encodeValue text with
    | error reason => exact .inl ⟨reason, rfl⟩
    | ok value =>
        obtain ⟨rfl, -⟩ := CacheClient.encodeValue_eq_ok_iff.mp accepted
        exact .inr (.inr rfl)

/-- **What `get` returns** on any part of a good reply: an error, nothing, or the text. -/
theorem get_of_goodReply {text reply : Bytes} (good : GoodReply text reply)
    {received : Option Bytes} (delivered : delivers reply received = true) :
    (∃ reason, CacheClient.get (fun _ => received) cacheKey = .error reason) ∨
      CacheClient.get (fun _ => received) cacheKey = .ok none ∨
      CacheClient.get (fun _ => received) cacheKey = .ok (some text) := by
  obtain ⟨line, rfl, noNewline⟩ := good.oneLine
  cases answer : CacheClient.command (fun _ => received) (CacheClient.getCommand helloKey) with
  | error reason =>
      refine .inl ⟨reason, ?_⟩
      simp only [CacheClient.get, helloKey_sent, answer]
  | ok reply =>
      have reads : CacheClient.get (fun _ => received) cacheKey = CacheClient.readGetReply reply := by
        simp only [CacheClient.get, helloKey_sent, answer]
      cases received with
      | none => cases answer
      | some stream =>
          have part : stream <+: line ++ [lf] := List.isPrefixOf_iff_prefix.mp delivered
          obtain ⟨whole, rfl⟩ := CacheClient.eq_of_command noNewline part rfl answer
          rw [reads, whole]
          exact readGetReply_of_goodReply good

/-! ## The invariant -/

/-- The table has a body for the cached route that ends in a newline, with status 200. -/
def ServesHello (table : Routes) (text : Bytes) : Prop :=
  table.lookup "/hello".toList = some ("200 OK".toList, text ++ [lf])

/-- Where a thread is, all is well. -/
def Thread.Good (table : Routes) (text : Bytes) : Thread → Prop
  | .idle => True
  | .asking request => isCached request = true
  | .answered request reply => isCached request = true ∧ GoodReply text reply
  | .storing _ received => CacheClient.get (fun _ => received) cacheKey = .ok none
  | .finished request response => response = respond table request

/-- What holds in every state: nothing but the text is stored under the key, or may still be,
and no thread has gone wrong. -/
structure Transparent (table : Routes) (text : Bytes) (system : System) : Prop where
  stored : Every (HelloOnly text) system.store
  clean : Clean system.store
  flying : ∀ line ∈ system.flying, Harmless text line
  threads : ∀ thread, (system.threads thread).Good table text

theorem transparent_start (table : Routes) (text : Bytes) (now : Int) :
    Transparent table text (.start now) where
  stored := by
    intro slot used
    cases used
  clean := clean_empty
  flying := by
    intro line member
    cases member
  threads := fun _ => trivial

/-- The uncached response to the cached route. -/
theorem respond_of_cached {table : Routes} {text : Bytes} (serves : ServesHello table text)
    {request : Server.Request} (cached : isCached request = true) :
    respond table request = { status := "200 OK".toList, body := text ++ [lf] } := by
  simp only [isCached, Bool.and_eq_true, decide_eq_true_eq] at cached
  rw [respond, if_neg (not_not.mpr cached.1), cached.2, serves]
  rfl

/-- What a thread returns right after `get`. -/
theorem responseOf_of_goodReply {table : Routes} {text reply : Bytes}
    (serves : ServesHello table text) {request : Server.Request} (cached : isCached request = true)
    (good : GoodReply text reply) {received : Option Bytes}
    (delivered : delivers reply received = true) (onSet : Option Bytes) :
    responseOf table request received onSet = respond table request := by
  rcases get_of_goodReply good delivered with ⟨reason, failed⟩ | missed | hit
  · exact respondWithCache_of_error failed
  · exact respondWithCache_of_miss missed
  · rw [responseOf, respondWithCache_of_hit cached hit, respond_of_cached serves cached]

/-- The line that `set` sends stores the text. -/
theorem harmless_of_setRequest {text command : Bytes}
    (sent : setRequest cacheKey text cacheTtl = .ok command) : Harmless text command.dropLast := by
  have sentKey := CacheClient.sentKey_of_encodeKey helloKey_sent
  cases accepted : CacheClient.encodeValue text with
  | error reason =>
      simp only [setRequest, helloKey_sent, accepted, reduceCtorEq] at sent
  | ok value =>
      obtain ⟨rfl, sentValue⟩ := CacheClient.encodeValue_eq_ok_iff.mp accepted
      have ttlAccepted : 0 ≤ cacheTtl ∧ cacheTtl ≤ CacheClient.ttlMax := by decide
      simp only [setRequest, helloKey_sent, accepted, if_neg (not_not.mpr ttlAccepted)] at sent
      have line : command.dropLast = setLine helloKey cacheTtl.toNat value := by
        rw [← Except.ok.inj sent, setCommand_eq, List.dropLast_concat]
      have kept : stripCr (setLine helloKey cacheTtl.toNat value) =
          setLine helloKey cacheTtl.toNat value :=
        if_neg (getLast?_append_ne sentValue.nonempty sentValue.noCr)
      have parsed : parseLine (setLine helloKey cacheTtl.toNat value) =
          some (.set helloKey cacheTtl.toNat value) :=
        parseLine_eq_some_iff.mpr (denotes_setLine sentKey sentValue (by decide))
      rw [line]
      refine ⟨(isLine_setLine sentKey sentValue).noNewline, ?_⟩
      intro ttl other same
      rw [kept, parsed] at same
      injection same with same
      injection same with _ _ same
      exact same.symm

section Step

variable {table : Routes} {text : Bytes} {system : System}

theorem Transparent.setThread (transparent : Transparent table text system) (thread : Nat)
    {phase : Thread} (good : phase.Good table text) :
    Transparent table text (system.setThread thread phase) where
  stored := transparent.stored
  clean := transparent.clean
  flying := transparent.flying
  threads := by
    intro other
    by_cases here : other = thread
    · subst here
      simpa [System.setThread] using good
    · simpa [System.setThread, Function.update_of_ne here] using transparent.threads other

theorem Transparent.serve (transparent : Transparent table text system) {line : Bytes}
    (harmless : Harmless text line) : Transparent table text (system.serve line) where
  stored := every_answerLine transparent.stored system.now harmless
  clean := answerLine_clean transparent.clean harmless.1
  flying := transparent.flying
  threads := transparent.threads

theorem Transparent.afterGet (serves : ServesHello table text)
    (transparent : Transparent table text system) {request : Server.Request}
    (cached : isCached request = true) {reply : Bytes} (good : GoodReply text reply)
    {received : Option Bytes} (delivered : delivers reply received = true) (thread : Nat) :
    Transparent table text (system.afterGet table thread request received) := by
  have returned : Transparent table text (system.setThread thread
      (.finished request (responseOf table request received none))) :=
    transparent.setThread thread (responseOf_of_goodReply serves cached good delivered none)
  have value : cacheValue (respond table request).body = text := by
    rw [respond_of_cached serves cached]
    simp [cacheValue]
  unfold System.afterGet
  dsimp only
  split
  · rename_i missed
    split
    · exact returned
    · rename_i command sent
      rw [value] at sent
      have stored : Transparent table text (system.setThread thread (.storing request received)) :=
        transparent.setThread thread missed
      refine ⟨stored.stored, stored.clean, ?_, stored.threads⟩
      intro line member
      rcases List.mem_append.mp member with earlier | new
      · exact transparent.flying line earlier
      · rw [List.mem_singleton.mp new]
        exact harmless_of_setRequest sent
  · exact returned

/-- **One event** keeps the invariant. -/
theorem Transparent.next (serves : ServesHello table text)
    (transparent : Transparent table text system) {event : CacheEvent} {after : System}
    (taken : system.next table event = some after) : Transparent table text after := by
  cases event with
  | pass time =>
      obtain rfl := Option.some.inj taken
      exact ⟨transparent.stored, transparent.clean, transparent.flying, transparent.threads⟩
  | foreign line =>
      simp only [System.next] at taken
      split at taken
      · cases taken
      · rename_i spares
        obtain ⟨oneLine, spares⟩ := not_or.mp spares
        obtain rfl := Option.some.inj taken
        exact transparent.serve (harmless_of_not_sets oneLine (Bool.not_eq_true _ ▸ spares))
  | begin thread hasCache request =>
      simp only [System.next] at taken
      split at taken
      · split at taken
        · rename_i cached
          obtain rfl := Option.some.inj taken
          exact transparent.setThread thread cached.2
        · split at taken
          · rename_i cached hasCache
            obtain rfl := Option.some.inj taken
            refine transparent.setThread thread ?_
            have other : isCached request = false := by simpa [hasCache] using cached
            exact respondWithCache_of_other other _
          · obtain rfl := Option.some.inj taken
            exact transparent.setThread thread rfl
      · cases taken
  | serveGet thread =>
      simp only [System.next] at taken
      split at taken
      · rename_i request asking
        obtain rfl := Option.some.inj taken
        have cached := transparent.threads thread
        rw [asking] at cached
        have harmless : Harmless text helloGet := harmless_of_not_sets (by decide) (by decide)
        refine (transparent.serve harmless).setThread thread ⟨cached, ?_⟩
        exact goodReply_of_get transparent.stored transparent.clean system.now
      · cases taken
  | endGet thread received =>
      simp only [System.next] at taken
      have good := transparent.threads thread
      split at taken
      · rename_i request asking
        rw [asking] at good
        split at taken
        · rename_i delivered
          obtain rfl := Option.some.inj taken
          exact transparent.afterGet serves good (.inl rfl) delivered thread
        · cases taken
      · rename_i request reply answered
        rw [answered] at good
        split at taken
        · rename_i delivered
          obtain rfl := Option.some.inj taken
          exact transparent.afterGet serves good.1 good.2 delivered thread
        · cases taken
      · cases taken
  | endSet thread received =>
      simp only [System.next] at taken
      have good := transparent.threads thread
      split at taken
      · rename_i request onGet storing
        rw [storing] at good
        obtain rfl := Option.some.inj taken
        exact transparent.setThread thread (respondWithCache_of_miss good)
      · cases taken
  | serveSet index =>
      simp only [System.next] at taken
      split at taken
      · rename_i line found
        obtain rfl := Option.some.inj taken
        have served := transparent.serve (transparent.flying line (List.mem_of_getElem? found))
        refine ⟨served.stored, served.clean, ?_, served.threads⟩
        intro other member
        exact transparent.flying other (List.mem_of_mem_eraseIdx member)
      · cases taken
  | loseSet index =>
      obtain rfl := Option.some.inj taken
      refine ⟨transparent.stored, transparent.clean, ?_, transparent.threads⟩
      intro line member
      exact transparent.flying line (List.mem_of_mem_eraseIdx member)

end Step

/-- **The cache is transparent.** In every run, and for every body of the cached route that
ends in a newline, whatever a thread returned is what `respond` returns. -/
theorem respondWithCache_transparent {table : Routes} {text : Bytes}
    (serves : ServesHello table text) {now : Int} {events : List CacheEvent} {system : System}
    (run : runEvents (System.next table) (.start now) events = some system) {thread : Nat}
    {request : Server.Request} {response : Server.Response}
    (finished : system.threads thread = .finished request response) :
    response = respond table request := by
  have transparent : Transparent table text system :=
    runEvents_invariant (transparent_start table text now)
      (fun _ _ _ holds taken => holds.next serves taken) run
  have good := transparent.threads thread
  rwa [finished] at good

/-- A request for the cached route. -/
def helloRequest : Server.Request := ⟨"GET".toList, "/hello".toList⟩

/-- A miss whose `set` is served after the client saw its connection fail, a second thread whose
reply is cut, and a third one that reads the stored value. -/
def helloEvents : List CacheEvent :=
  [.begin 0 true helloRequest, .serveGet 0, .endGet 0 (some (ascii "NOT_FOUND\n")), .endSet 0 none,
    .pass 5, .serveSet 0, .begin 1 true helloRequest, .serveGet 1, .endGet 1 (some []),
    .begin 2 true helloRequest, .serveGet 2, .endGet 2 (some (ascii "VALUE HELLO WORLD!\n"))]

theorem respondWithCache_transparent_hello :
    ∃ system response,
      runEvents (System.next routes) (.start 0) helloEvents = some system ∧
      system.threads 2 = .finished helloRequest response ∧
      response.body = ascii "HELLO WORLD!\n" ∧ response = respond routes helloRequest := by
  have serves : ServesHello routes (ascii "HELLO WORLD!") := by
    unfold ServesHello
    decide
  have hit : ((runEvents (System.next routes) (.start 0) helloEvents).map fun system =>
      system.threads 2) = some (.finished helloRequest
        { status := "200 OK".toList, body := ascii "HELLO WORLD!\n" }) := by decide +kernel
  obtain ⟨system, run, finished⟩ := Option.map_eq_some_iff.mp hit
  exact ⟨system, _, run, finished, rfl, respondWithCache_transparent serves run finished⟩

end InfraFromScratch.Stack
