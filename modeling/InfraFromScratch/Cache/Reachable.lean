import InfraFromScratch.Cache.Protocol

/-!
# Runs of the cache and what holds in every state they reach

Clients run concurrently, but each command touches the store only while it holds
`store_mutex`, and the time is read there. A run is therefore a list of requests in
the order in which they took the mutex, from any number of clients, at
nondecreasing times.

Two invariants hold in every reachable store. No key occupies two slots, and the
store shows what an abstract map shows (`Simulates`). Every stored value is
nonempty, fits into the buffers of the replies and contains neither a NUL nor a
newline (`Clean`), so that every reply is one line.
-/

set_option autoImplicit false

namespace InfraFromScratch.Cache

open Foundations

/-! ## Values that are safe to send -/

/-- A value as `handle_line` stores it. -/
structure CleanValue (value : Bytes) : Prop where
  nonempty : 1 ≤ value.length
  bounded : value.length ≤ valueMax
  noNul : 0 ∉ value
  noNewline : lf ∉ value

/-- Every used slot holds a clean value. -/
def Clean (store : Store) : Prop := ∀ slot, (store slot).used = true → CleanValue (store slot).value

/-- A line as `handle_client` passes it on: a C string without newline. -/
structure IsLine (line : Bytes) : Prop where
  noNul : 0 ∉ line
  noNewline : lf ∉ line

theorem clean_empty : Clean emptyStore := by
  intro slot used
  cases used

/-! ## What holds of every stored entry -/

/-- Every used slot has a key and a value with the property. -/
def Every (property : Bytes → Bytes → Prop) (store : Store) : Prop :=
  ∀ slot, (store slot).used = true → property (store slot).key (store slot).value

/-- The entry a command stores, if it stores one, has the property. -/
def Command.Writes (property : Bytes → Bytes → Prop) : Command → Prop
  | .set key _ value => property key value
  | _ => True

section Every

variable {property : Bytes → Bytes → Prop} {store : Store}

theorem Every.release (every : Every property store) (slot : Slot) :
    Every property (release store slot) := by
  intro other used
  by_cases here : other = slot
  · subst here
    simp [Cache.release] at used
  · simp only [Cache.release, Function.update_of_ne here] at used ⊢
    exact every other used

theorem Every.writeSlot (every : Every property store) (slot : Slot) {key value : Bytes}
    (written : property key value) (ttl : Nat) (now : Int) :
    Every property (writeSlot store slot key value ttl now) := by
  intro other used
  by_cases here : other = slot
  · subst here
    simpa [Cache.writeSlot, writtenEntry] using written
  · simp only [Cache.writeSlot, Function.update_of_ne here] at used ⊢
    exact every other used

/-- Searching for a key keeps what holds of the entries. -/
theorem Every.lookup (every : Every property store) (key : Bytes) (now : Int) :
    Every property (lookup store key now).1 := by
  rcases lookup_cases store key now with ⟨slot, equation, _⟩ | ⟨slot, equation, _⟩ | ⟨equation, _⟩
  · rw [equation]
    exact every
  · rw [equation]
    exact every.release slot
  · rw [equation]
    exact every

theorem Every.freeSlot (every : Every property store) (now : Int) :
    Every property (freeSlot store now).1 := by
  rcases freeSlot_cases store now with ⟨slot, equation, _⟩ | ⟨equation, _⟩
  · rw [equation]
    exact every.release slot
  · rw [equation]
    exact every

theorem Every.getSection (every : Every property store) (key : Bytes) (now : Int) :
    Every property (getSection store key now).1 := by
  have kept := every.lookup key now
  unfold Cache.getSection
  split
  · rename_i result
    rwa [result] at kept
  · rename_i result
    rwa [result] at kept

theorem Every.deleteSection (every : Every property store) (key : Bytes) (now : Int) :
    Every property (deleteSection store key now).1 := by
  have kept := every.lookup key now
  unfold Cache.deleteSection
  split
  · rename_i result
    rwa [result] at kept
  · rename_i slot result
    rw [result] at kept
    exact kept.release slot

theorem Every.setSection (every : Every property store) {key value : Bytes}
    (written : property key value) (ttl : Nat) (now : Int) :
    Every property (setSection store key value ttl now).1 := by
  have kept := every.lookup key now
  unfold Cache.setSection
  split
  · rename_i slot result
    rw [result] at kept
    exact kept.writeSlot slot written ttl now
  · rename_i searched result
    rw [result] at kept
    have freed := kept.freeSlot now
    split
    · rename_i slot taken
      rw [taken] at freed
      exact freed.writeSlot slot written ttl now
    · rename_i taken
      rwa [taken] at freed

/-- **One command** keeps what holds of every entry, if it holds of what it writes. -/
theorem Every.execute (every : Every property store) (now : Int) {command : Command}
    (writes : command.Writes property) : Every property (execute store now command).1 := by
  cases command with
  | get key => exact every.getSection key now
  | delete key => exact every.deleteSection key now
  | set key ttl value => exact every.setSection writes ttl now

theorem Every.handleLine (every : Every property store) (now : Int) {line : Bytes}
    (writes : ∀ command, parseLine line = some command → command.Writes property) :
    Every property (handleLine store now line).1 := by
  unfold Cache.handleLine
  cases parsed : parseLine line with
  | none => exact every
  | some command => exact every.execute now (writes command parsed)

end Every

/-- The value a command stores, if it stores one, is clean. -/
def Command.Clean : Command → Prop
  | .set _ _ value => CleanValue value
  | _ => True

theorem Command.Clean.writes {command : Command} (clean : command.Clean) :
    command.Writes fun _ value => CleanValue value := by
  cases command with
  | get key => trivial
  | delete key => trivial
  | set key ttl value => exact clean

theorem execute_clean {store : Store} (clean : Clean store) (now : Int) {command : Command}
    (commandClean : command.Clean) : Clean (execute store now command).1 :=
  @Every.execute (fun _ value => CleanValue value) store clean now command commandClean.writes

/-- **What `GET` answers**: the value that is stored under the key, or that there is none. -/
theorem get_reply_cases (store : Store) (now : Int) (key : Bytes) :
    (execute store now (.get key)).2 = .notFound ∨
      ∃ slot, (store slot).used = true ∧ (store slot).key = key ∧
        (execute store now (.get key)).2 = .value (store slot).value := by
  rw [execute]
  rcases lookup_cases store key now with ⟨slot, equation, _, used, same⟩ |
    ⟨slot, equation, _⟩ | ⟨equation, _⟩
  · exact .inr ⟨slot, used, same, by rw [getSection_of_some equation]⟩
  · exact .inl (by rw [getSection_of_none equation])
  · exact .inl (by rw [getSection_of_none equation])

/-- A value that is answered is one that was stored. -/
theorem cleanValue_of_reply {store : Store} (clean : Clean store) {now : Int} {command : Command}
    {value : Bytes} (answered : (execute store now command).2 = .value value) :
    CleanValue value := by
  cases command with
  | get key =>
      rcases get_reply_cases store now key with missing | ⟨slot, used, -, found⟩
      · rw [missing] at answered
        cases answered
      · rw [found] at answered
        rw [← Reply.value.inj answered]
        exact clean slot used
  | delete key =>
      unfold execute deleteSection at answered
      dsimp only at answered
      split at answered
      · cases answered
      · cases answered
  | set key ttl value' =>
      unfold execute setSection at answered
      dsimp only at answered
      split at answered
      · cases answered
      · split at answered
        · cases answered
        · cases answered

/-! ## Replies are never cut -/

theorem sendReply_value {value : Bytes} (clean : CleanValue value) :
    sendReply (.value value) = Reply.format (.value value) := by
  have bounded := clean.bounded
  have word : (ascii "VALUE ").length = 6 := by decide
  have fits : ¬ valueMax + 32 ≤ (Reply.format (.value value)).length := by
    simp only [Reply.format, List.length_append, List.length_singleton, word]
    unfold valueMax at *
    omega
  rw [sendReply, if_neg fits]

/-- **Every reply is sent as it is formatted.** -/
theorem sendReply_execute {store : Store} (clean : Clean store) (now : Int) (command : Command) :
    sendReply (execute store now command).2 = (execute store now command).2.format := by
  cases answered : (execute store now command).2 with
  | value value => exact sendReply_value (cleanValue_of_reply clean answered)
  | notFound => rfl
  | ok => rfl
  | error => rfl

/-- A clean reply is one line: it ends in its only newline. -/
theorem format_oneLine {reply : Reply} (clean : ∀ value, reply = .value value → lf ∉ value) :
    ∃ text, reply.format = text ++ [lf] ∧ lf ∉ text := by
  cases reply with
  | value value =>
      refine ⟨ascii "VALUE " ++ value, rfl, ?_⟩
      simp only [List.mem_append, not_or]
      exact ⟨by decide, clean value rfl⟩
  | notFound => exact ⟨ascii "NOT_FOUND", by decide, by decide⟩
  | ok => exact ⟨ascii "OK", by decide, by decide⟩
  | error => exact ⟨ascii "ERROR", by decide, by decide⟩

theorem Denotes.clean {line : Bytes} {command : Command} (denotes : Denotes line command)
    (isLine : IsLine line) : command.Clean := by
  cases denotes with
  | get valid => trivial
  | delete valid => trivial
  | set valid text nonempty bounded =>
      obtain ⟨noNul, noNewline⟩ := isLine
      simp only [List.mem_append, not_or] at noNul noNewline
      exact ⟨nonempty, bounded, noNul.2, noNewline.2⟩

theorem handleLine_clean {store : Store} (clean : Clean store) (now : Int) {line : Bytes}
    (isLine : IsLine line) : Clean (handleLine store now line).1 :=
  @Every.handleLine (fun _ value => CleanValue value) store clean now line fun _ parsed =>
    ((parseLine_eq_some_iff.mp parsed).clean isLine).writes

/-- **Every reply of `handle_line` is one line.** -/
theorem handleLine_oneLine {store : Store} (clean : Clean store) (now : Int) (line : Bytes) :
    ∃ text, (handleLine store now line).2 = text ++ [lf] ∧ lf ∉ text := by
  unfold handleLine
  cases parseLine line with
  | none => exact ⟨ascii "ERROR", rfl, by decide⟩
  | some command =>
      simp only [sendReply_execute clean]
      exact format_oneLine fun value answered => (cleanValue_of_reply clean answered).noNewline

/-! ## Runs -/

/-- A request of some client, with the time at which it holds the mutex. -/
structure Request where
  client : Nat
  now : Int
  line : Bytes
  isLine : IsLine line

/-- The store section and the reply of a request. -/
def serve (store : Store) (request : Request) : Store × Bytes :=
  handleLine store request.now request.line

/-- The effect of a request on the abstract map: that of the command its line
denotes, and none when it denotes none. -/
noncomputable def serveAbstract (map : AbstractCache) (request : Request) : AbstractCache × Bytes :=
  match parseLine request.line with
  | none => (map, Reply.format .error)
  | some command => ((map.execute request.now command).1, (map.execute request.now command).2.format)

/-- What relates the store and the abstract map in every reachable state. -/
structure Related (now : Int) (store : Store) (map : AbstractCache) : Prop where
  simulates : Simulates now store map
  clean : Clean store

theorem Related.mono {early late : Int} {store : Store} {map : AbstractCache}
    (order : early ≤ late) (related : Related early store map) : Related late store map :=
  ⟨related.simulates.mono order, related.clean⟩

theorem related_empty (now : Int) : Related now emptyStore fun _ => none :=
  ⟨simulates_empty now, clean_empty⟩

/-- **One request**, whether its line is a command or not. -/
theorem serve_simulates (request : Request) (store : Store) (map : AbstractCache)
    (related : Related request.now store map) :
    (serve store request).2 = (serveAbstract map request).2 ∧
      Related request.now (serve store request).1 (serveAbstract map request).1 := by
  have clean : Clean (serve store request).1 :=
    handleLine_clean related.clean request.now request.isLine
  cases parsed : parseLine request.line with
  | none =>
      have unchanged : serve store request = (store, sendReply .error) := by
        simp [serve, handleLine, parsed]
      rw [unchanged, serveAbstract, parsed]
      exact ⟨rfl, related⟩
  | some command =>
      have executed : serve store request = ((execute store request.now command).1,
          sendReply (execute store request.now command).2) := by
        simp [serve, handleLine, parsed]
      obtain ⟨sameReply, still⟩ := execute_simulates related.simulates command
      rw [executed] at clean
      rw [executed, serveAbstract, parsed]
      refine ⟨?_, still, clean⟩
      rw [sendReply_execute related.clean, sameReply]

/-- **Every run.** The replies are those of the abstract map, and the final states
are related at every time past the run. -/
theorem runs_simulate {requests : List Request} (ordered : Ordered Request.now requests) :
    (runReplies serve emptyStore requests).2 =
        (runReplies serveAbstract (fun _ => none) requests).2 ∧
      ∀ now, (∀ request ∈ requests, request.now ≤ now) →
        Related now (runReplies serve emptyStore requests).1
          (runReplies serveAbstract (fun _ => none) requests).1 := by
  obtain ⟨sameReplies, afterwards⟩ :=
    runReplies_simulation Related Related.mono
      (fun request _ store map related => serve_simulates request store map related) ordered
      (fun request _ => related_empty request.now)
  exact ⟨sameReplies, fun now past => afterwards now past (related_empty now)⟩

/-- The stores that runs up to the given time reach. -/
def Reachable (now : Int) (store : Store) : Prop :=
  ∃ requests : List Request, Ordered Request.now requests ∧
    (∀ request ∈ requests, request.now ≤ now) ∧ store = (runReplies serve emptyStore requests).1

theorem Reachable.related {now : Int} {store : Store} (reachable : Reachable now store) :
    ∃ map, Related now store map := by
  obtain ⟨requests, ordered, past, rfl⟩ := reachable
  exact ⟨_, (runs_simulate ordered).2 now past⟩

end InfraFromScratch.Cache
