import InfraFromScratch.Cache.Reachable

/-!
# What the cache answers, in terms of the commands before

The replies of the cache are determined by the commands that came before and the
times at which they ran. A key is live when the last command that successfully
wrote or deleted it was a `SET` whose time to live is zero or not yet over
(`Live`). Then

* `GET` answers the value of that `SET`, and `NOT_FOUND` when the key is not live;
* `DELETE` answers `OK` exactly when the key is live;
* `SET` answers `OK` exactly when the key is live or fewer than `storeCap` keys are.

This is the statement about the abstract map with its state replaced by the
history of the run; `mapAfter_eq_some_iff` is the passage between the two.
-/

set_option autoImplicit false

namespace InfraFromScratch.Cache

open Foundations

/-- A request whose line is a command with valid arguments. -/
structure CommandRequest extends Request where
  command : Command
  denotes : Denotes line command

/-- The store after the requests. -/
def storeAfter (requests : List CommandRequest) : Store :=
  (runReplies serve emptyStore (requests.map CommandRequest.toRequest)).1

/-- The replies to the requests. -/
def repliesTo (requests : List CommandRequest) : List Bytes :=
  (runReplies serve emptyStore (requests.map CommandRequest.toRequest)).2

/-- The reply to a request after others. -/
def replyAfter (before : List CommandRequest) (request : CommandRequest) : Bytes :=
  (serve (storeAfter before) request.toRequest).2

/-- The requests with their replies, in order. -/
def history (requests : List CommandRequest) : List (CommandRequest × Bytes) :=
  requests.zip (repliesTo requests)

/-! ## Live keys -/

/-- The record is a successful write or deletion of the key. -/
def Touches (key : Bytes) (record : CommandRequest × Bytes) : Prop :=
  record.2 = ascii "OK\n" ∧
    (record.1.command = .delete key ∨ ∃ ttl value, record.1.command = .set key ttl value)

/-- The last successful write or deletion of the key was a `SET` of the value, at
the given time and with the given time to live. -/
def LastWrote (records : List (CommandRequest × Bytes)) (key value : Bytes) (time : Int)
    (ttl : Nat) : Prop :=
  ∃ earlier request later, records = earlier ++ (request, ascii "OK\n") :: later ∧
    request.command = .set key ttl value ∧ request.now = time ∧
      ∀ record ∈ later, ¬ Touches key record

/-- The key is live with the value: its last write has not expired. -/
def LiveValue (records : List (CommandRequest × Bytes)) (now : Int) (key value : Bytes) : Prop :=
  ∃ time ttl, LastWrote records key value time ttl ∧ (ttl = 0 ∨ now < time + 1000 * ttl)

/-- The key is live. -/
def Live (records : List (CommandRequest × Bytes)) (now : Int) (key : Bytes) : Prop :=
  ∃ value, LiveValue records now key value

/-- The reply is the one the history of the run calls for. -/
def Answers (records : List (CommandRequest × Bytes)) (now : Int) (reply : Bytes) :
    Command → Prop
  | .get key =>
      (∀ value, reply = ascii "VALUE " ++ value ++ [lf] ↔ LiveValue records now key value) ∧
        (reply = ascii "NOT_FOUND\n" ↔ ¬ Live records now key)
  | .delete key =>
      (reply = ascii "OK\n" ↔ Live records now key) ∧
        (reply = ascii "NOT_FOUND\n" ↔ ¬ Live records now key)
  | .set key _ _ =>
      (reply = ascii "OK\n" ↔
        Live records now key ∨ {other | Live records now other}.encard < 1024) ∧
      (reply = ascii "ERROR\n" ↔
        ¬ (Live records now key ∨ {other | Live records now other}.encard < 1024))

/-! ## Records -/

theorem lastWrote_nil {key value : Bytes} {time : Int} {ttl : Nat} :
    ¬ LastWrote [] key value time ttl := by
  rintro ⟨earlier, request, later, split, _⟩
  simp at split

/-- One more record is the last write, or it leaves the key alone. -/
theorem lastWrote_append_iff {records : List (CommandRequest × Bytes)}
    {record : CommandRequest × Bytes} {key value : Bytes} {time : Int} {ttl : Nat} :
    LastWrote (records ++ [record]) key value time ttl ↔
      (record.2 = ascii "OK\n" ∧ record.1.command = .set key ttl value ∧ record.1.now = time) ∨
        (¬ Touches key record ∧ LastWrote records key value time ttl) := by
  constructor
  · rintro ⟨earlier, request, later, split, command, inTime, untouched⟩
    rcases List.eq_nil_or_concat later with rfl | ⟨before, last, rfl⟩
    · obtain ⟨_, same⟩ := List.append_inj' split rfl
      obtain rfl := List.singleton_inj.mp same
      exact .inl ⟨rfl, command, inTime⟩
    · rw [List.concat_eq_append, ← List.cons_append, ← List.append_assoc] at split
      obtain ⟨rfl, same⟩ := List.append_inj' split rfl
      obtain rfl := List.singleton_inj.mp same
      refine .inr ⟨untouched _ (by simp), earlier, request, before, rfl, command, inTime, ?_⟩
      exact fun other member => untouched other (by simp [member])
  · rintro (⟨accepted, command, inTime⟩ | ⟨untouched, earlier, request, later, rfl, command, inTime,
      others⟩)
    · exact ⟨records, record.1, [], by rw [← accepted], command, inTime, by simp⟩
    · refine ⟨earlier, request, later ++ [record], by simp, command, inTime, ?_⟩
      intro other member
      rcases List.mem_append.mp member with old | new
      · exact others other old
      · rw [List.mem_singleton.mp new]
        exact untouched

/-- Different replies have different texts. -/
theorem format_injective : Function.Injective Reply.format := by
  intro first second same
  cases first <;> cases second <;>
    first
    | rfl
    | (simp only [Reply.format, ascii] at same; simp at same; done)
    | (simp only [Reply.format, List.append_cancel_right_eq, List.append_cancel_left_eq] at same
       rw [same])

/-! ## The map after a run -/

/-- The abstract map after the requests. -/
noncomputable def mapAfter (requests : List CommandRequest) : AbstractCache :=
  (runReplies serveAbstract (fun _ => none) (requests.map CommandRequest.toRequest)).1

theorem mapAfter_append (before : List CommandRequest) (request : CommandRequest) :
    mapAfter (before ++ [request]) =
      ((mapAfter before).execute request.now request.command).1 := by
  simp only [mapAfter, List.map_append, List.map_cons, List.map_nil, runReplies_append,
    runReplies_cons, runReplies_nil, serveAbstract, parseLine_eq_some_iff.mpr request.denotes]

theorem storeAfter_append (before : List CommandRequest) (request : CommandRequest) :
    storeAfter (before ++ [request]) = (serve (storeAfter before) request.toRequest).1 := by
  simp only [storeAfter, List.map_append, List.map_cons, List.map_nil, runReplies_append,
    runReplies_cons, runReplies_nil]

theorem repliesTo_append (before : List CommandRequest) (request : CommandRequest) :
    repliesTo (before ++ [request]) = repliesTo before ++ [replyAfter before request] := by
  simp only [repliesTo, replyAfter, storeAfter, List.map_append, List.map_cons, List.map_nil,
    runReplies_append, runReplies_cons, runReplies_nil]

theorem history_append (before : List CommandRequest) (request : CommandRequest) :
    history (before ++ [request]) = history before ++ [(request, replyAfter before request)] := by
  have sameLength : before.length = (repliesTo before).length := by simp [repliesTo]
  rw [history, repliesTo_append, List.zip_append sameLength]
  rfl

theorem ordered_toRequest {requests : List CommandRequest}
    (ordered : Ordered (fun request => request.now) requests) :
    Ordered Request.now (requests.map CommandRequest.toRequest) :=
  List.pairwise_map.mpr ordered

/-- The store and the map after a run are related when the next request arrives. -/
theorem related_after {before : List CommandRequest} {request : CommandRequest}
    (ordered : Ordered (fun request : CommandRequest => request.now) (before ++ [request])) :
    Related request.now (storeAfter before) (mapAfter before) := by
  refine (runs_simulate (ordered_toRequest ordered.left)).2 request.now ?_
  intro earlier member
  obtain ⟨original, originalMember, rfl⟩ := List.mem_map.mp member
  exact ordered.before_le originalMember

/-- The reply is the reply of the abstract map. -/
theorem replyAfter_eq {before : List CommandRequest} {request : CommandRequest}
    (ordered : Ordered (fun request : CommandRequest => request.now) (before ++ [request])) :
    replyAfter before request =
      ((mapAfter before).execute request.now request.command).2.format := by
  rw [replyAfter, (serve_simulates request.toRequest _ _ (related_after ordered)).1, serveAbstract,
    parseLine_eq_some_iff.mpr request.denotes]

/-- What one command does to the entry of a key: a successful `SET` or `DELETE` of
the key decides it, everything else keeps it. -/
theorem execute_entry (map : AbstractCache) (now : Int) (command : Command) (key : Bytes) :
    (∃ ttl value, command = .set key ttl value ∧ (map.execute now command).2 = .ok ∧
      (map.execute now command).1 key = some (value, ttlDeadline ttl now)) ∨
    (command = .delete key ∧ (map.execute now command).2 = .ok ∧
      (map.execute now command).1 key = none) ∨
    (((map.execute now command).2 = .ok →
        command ≠ .delete key ∧ ∀ ttl value, command ≠ .set key ttl value) ∧
      (map.execute now command).1 key = map key) := by
  cases command with
  | get other =>
      refine .inr (.inr ⟨fun _ => ⟨by simp, by simp⟩, ?_⟩)
      rw [AbstractCache.execute]
      split
      · rfl
      · rfl
  | delete other =>
      rw [AbstractCache.execute]
      split
      · by_cases same : other = key
        · subst same
          exact .inr (.inl ⟨rfl, rfl, Function.update_self ..⟩)
        · refine .inr (.inr ⟨fun _ => ⟨by simp [same], by simp⟩, ?_⟩)
          exact Function.update_of_ne (Ne.symm same) ..
      · exact .inr (.inr ⟨by simp, rfl⟩)
  | set other ttl value =>
      rw [AbstractCache.execute]
      split
      · by_cases same : other = key
        · subst same
          exact .inl ⟨ttl, value, rfl, rfl, Function.update_self ..⟩
        · refine .inr (.inr ⟨fun _ => ⟨by simp, by simp [same]⟩, ?_⟩)
          exact Function.update_of_ne (Ne.symm same) ..
      · exact .inr (.inr ⟨by simp, rfl⟩)

/-- **The map is the last writes.** After a run the map has an entry for a key
exactly when the last successful write or deletion of the key was a `SET`, and the
entry is the one that `SET` made. -/
theorem mapAfter_eq_some_iff {requests : List CommandRequest}
    (ordered : Ordered (fun request : CommandRequest => request.now) requests)
    {key value : Bytes} {deadline : WithTop Int} :
    mapAfter requests key = some (value, deadline) ↔
      ∃ time ttl, LastWrote (history requests) key value time ttl ∧
        deadline = ttlDeadline ttl time := by
  induction requests using List.reverseRecOn with
  | nil =>
      simp only [history, repliesTo, List.zip_nil_left, lastWrote_nil, false_and, exists_false,
        iff_false]
      simp [mapAfter]
  | append_singleton before request ih =>
      have sameReply := replyAfter_eq ordered
      have ok_iff : replyAfter before request = ascii "OK\n" ↔
          ((mapAfter before).execute request.now request.command).2 = .ok := by
        rw [sameReply]
        exact ⟨fun same => format_injective same, fun same => by rw [same]; rfl⟩
      rw [mapAfter_append, history_append]
      simp only [lastWrote_append_iff, ok_iff]
      rcases execute_entry (mapAfter before) request.now request.command key with
        ⟨ttl, written, command, accepted, entry⟩ | ⟨command, accepted, entry⟩ | ⟨elsewhere, entry⟩
      · -- A successful `SET` of the key is the last write.
        have touched : Touches key (request, replyAfter before request) :=
          ⟨ok_iff.mpr accepted, .inr ⟨ttl, written, command⟩⟩
        simp only [entry, accepted, touched, not_true_eq_false, false_and, or_false, true_and]
        simp only [command, Option.some.injEq, Prod.mk.injEq, Command.set.injEq]
        constructor
        · rintro ⟨rfl, rfl⟩
          exact ⟨request.now, ttl, ⟨⟨trivial, rfl, rfl⟩, rfl⟩, rfl⟩
        · rintro ⟨_, _, ⟨⟨-, rfl, rfl⟩, rfl⟩, rfl⟩
          exact ⟨rfl, rfl⟩
      · -- A successful `DELETE` of the key leaves no write to be the last.
        have touched : Touches key (request, replyAfter before request) :=
          ⟨ok_iff.mpr accepted, .inl command⟩
        rw [entry, command]
        simp [touched]
      · -- Any other record leaves the key alone.
        have untouched : ¬ Touches key (request, replyAfter before request) := by
          rintro ⟨accepted, command | ⟨ttl, written, command⟩⟩
          · exact (elsewhere (ok_iff.mp accepted)).1 command
          · exact (elsewhere (ok_iff.mp accepted)).2 ttl written command
        have notWritten : ∀ ttl time, ¬ (((mapAfter before).execute request.now request.command).2 =
            .ok ∧ request.command = .set key ttl value ∧ request.now = time) :=
          fun ttl time same => (elsewhere same.1).2 ttl value same.2.1
        rw [entry, ih ordered.left]
        simp only [untouched, not_false_eq_true, true_and, notWritten, false_or]

theorem lt_ttlDeadline_iff {now time : Int} {ttl : Nat} :
    (now : WithTop Int) < ttlDeadline ttl time ↔ ttl = 0 ∨ now < time + 1000 * ttl := by
  unfold ttlDeadline
  by_cases endless : ttl = 0
  · simp [endless]
  · rw [if_neg endless, WithTop.coe_lt_coe, mul_comm (1000 : Int)]
    simp [endless]

/-- The map shows what is live. -/
theorem read_mapAfter_iff {requests : List CommandRequest}
    (ordered : Ordered (fun request : CommandRequest => request.now) requests) {now : Int}
    {key value : Bytes} :
    (mapAfter requests).read now key = some value ↔ LiveValue (history requests) now key value := by
  rw [ExpiringMap.read_eq_some_iff, ExpiringMap.Shows]
  simp only [mapAfter_eq_some_iff ordered, LiveValue]
  constructor
  · rintro ⟨deadline, ⟨time, ttl, wrote, rfl⟩, ahead⟩
    exact ⟨time, ttl, wrote, lt_ttlDeadline_iff.mp ahead⟩
  · rintro ⟨time, ttl, wrote, ahead⟩
    exact ⟨_, ⟨time, ttl, wrote, rfl⟩, lt_ttlDeadline_iff.mpr ahead⟩

theorem liveKeys_mapAfter {requests : List CommandRequest}
    (ordered : Ordered (fun request : CommandRequest => request.now) requests) (now : Int) :
    (mapAfter requests).liveKeys now = {key | Live (history requests) now key} := by
  ext key
  rw [ExpiringMap.mem_liveKeys_iff, Option.isSome_iff_exists]
  exact exists_congr fun value => read_mapAfter_iff ordered

theorem read_mapAfter_eq_none_iff {requests : List CommandRequest}
    (ordered : Ordered (fun request : CommandRequest => request.now) requests) {now : Int}
    {key : Bytes} :
    (mapAfter requests).read now key = none ↔ ¬ Live (history requests) now key := by
  rw [Option.eq_none_iff_forall_ne_some, Live, not_exists]
  exact forall_congr' fun value => not_congr (read_mapAfter_iff ordered)

/-! ## The refinement -/

/-- The reply of the abstract map answers for the history. -/
theorem answers_execute {requests : List CommandRequest}
    (ordered : Ordered (fun request : CommandRequest => request.now) requests) (now : Int)
    (command : Command) :
    Answers (history requests) now ((mapAfter requests).execute now command).2.format command := by
  cases command with
  | get key =>
      rw [AbstractCache.execute]
      split
      · rename_i value read
        have live : LiveValue (history requests) now key value := (read_mapAfter_iff ordered).mp read
        refine ⟨fun other => ?_, ?_⟩
        · rw [← read_mapAfter_iff ordered, read, Option.some.injEq]
          simp [Reply.format]
        · exact iff_of_false (by simp [Reply.format, ascii]) (not_not.mpr ⟨value, live⟩)
      · rename_i read
        have dead := (read_mapAfter_eq_none_iff ordered).mp read
        refine ⟨fun value => ?_, iff_of_true rfl dead⟩
        exact iff_of_false (by simp [Reply.format, ascii]) fun live => dead ⟨value, live⟩
  | delete key =>
      rw [AbstractCache.execute]
      split
      · rename_i value read
        have live : Live (history requests) now key := ⟨value, (read_mapAfter_iff ordered).mp read⟩
        exact ⟨iff_of_true rfl live, iff_of_false (by simp [Reply.format, ascii]) (not_not.mpr live)⟩
      · rename_i read
        have dead := (read_mapAfter_eq_none_iff ordered).mp read
        exact ⟨iff_of_false (by simp [Reply.format, ascii]) dead, iff_of_true rfl dead⟩
  | set key ttl value =>
      have accepts_iff : (mapAfter requests).Accepts now key ↔
          Live (history requests) now key ∨
            {other | Live (history requests) now other}.encard < 1024 := by
        rw [AbstractCache.Accepts, liveKeys_mapAfter ordered]
        rfl
      rw [AbstractCache.execute]
      split
      · rename_i accepted
        have here := accepts_iff.mp accepted
        exact ⟨iff_of_true rfl here, iff_of_false (by simp [Reply.format, ascii]) (not_not.mpr here)⟩
      · rename_i refused
        have here := (not_congr accepts_iff).mp refused
        exact ⟨iff_of_false (by simp [Reply.format, ascii]) here, iff_of_true rfl here⟩

/-- No two used slots hold the same key. -/
def UniqueKeys (store : Store) : Prop :=
  ∀ first second, (store first).used = true → (store second).used = true →
    (store first).key = (store second).key → first = second

theorem Simulates.uniqueKeys {now : Int} {store : Store} {map : AbstractCache}
    (related : Simulates now store map) : UniqueKeys store := by
  intro first second firstUsed secondUsed same
  exact related.distinct (Entry.dated_eq_some_iff.mpr ⟨firstUsed, rfl⟩)
    (Entry.dated_eq_some_iff.mpr ⟨secondUsed, rfl⟩) same

/-- **The cache refines a finite map.** Take any commands from any clients, in the
order in which they hold the mutex and at nondecreasing times. The reply to each is
the one the commands before it call for; all replies together are those of the
abstract map; and before and after each command no two used slots hold the same
key. -/
theorem replies_refine_finite_map (before : List CommandRequest) (request : CommandRequest)
    (ordered : Ordered (fun request : CommandRequest => request.now) (before ++ [request])) :
    Answers (history before) request.now (replyAfter before request) request.command ∧
      repliesTo (before ++ [request]) =
        (runReplies serveAbstract (fun _ => none)
          ((before ++ [request]).map CommandRequest.toRequest)).2 ∧
      UniqueKeys (storeAfter before) ∧ UniqueKeys (storeAfter (before ++ [request])) := by
  have related := related_after ordered
  refine ⟨?_, ?_, related.simulates.uniqueKeys, ?_⟩
  · rw [replyAfter_eq ordered]
    exact answers_execute ordered.left request.now request.command
  · exact (runs_simulate (ordered_toRequest ordered)).1
  · rw [storeAfter_append]
    exact (serve_simulates request.toRequest _ _ related).2.simulates.uniqueKeys

/-- A client stores a value for one second. -/
def sampleSet : CommandRequest where
  client := 1
  now := 0
  line := ascii "SET a 1 x y"
  isLine := ⟨by decide, by decide⟩
  command := .set (ascii "a") 1 (ascii "x y")
  denotes := parseLine_eq_some_iff.mp (by decide)

/-- Another client reads it when the second is over. -/
def sampleGet : CommandRequest where
  client := 2
  now := 1000
  line := ascii "GET a"
  isLine := ⟨by decide, by decide⟩
  command := .get (ascii "a")
  denotes := parseLine_eq_some_iff.mp (by decide)

theorem replies_refine_finite_map_sample :
    Ordered (fun request : CommandRequest => request.now) ([sampleSet] ++ [sampleGet]) ∧
      Answers (history [sampleSet]) 1000 (replyAfter [sampleSet] sampleGet) (.get (ascii "a")) :=
  have ordered : Ordered (fun request : CommandRequest => request.now)
      ([sampleSet] ++ [sampleGet]) := by
    simp [Ordered, sampleSet, sampleGet]
  ⟨ordered, (replies_refine_finite_map [sampleSet] sampleGet ordered).1⟩

end InfraFromScratch.Cache
