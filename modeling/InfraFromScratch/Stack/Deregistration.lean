import InfraFromScratch.Foundations.Transitions
import InfraFromScratch.LoadBalancer.PoolRefinement

/-!
# Leaving the registry

An HTTP server in registry mode has a thread that sends a PUT for its address every second. On
shutdown `serve` sets `stop`, joins the thread and sends a DELETE. Every request has a connection
of its own, and its client gives up after `REGISTRY_TIMEOUT`; the balancer may handle it
nevertheless, at any later time. Other clients of the balancer register, remove and list backends
in the meantime.

The join orders only what the client does. A PUT that timed out can be handled after the DELETE,
and then the address is registered once more (`late_put_registers_again`), unless the pool is full.
Where the balancer registers no PUT of the process after its DELETE, the address is gone until
another process registers it (`deregistration_final`).
-/

set_option autoImplicit false

namespace InfraFromScratch.Stack

open Foundations LoadBalancer

/-! ## The process and the balancer -/

/-- Where `renew_registration` is. -/
inductive Renewal where
  /-- Before `stop.is_set()`. -/
  | checking
  /-- `stop` was not set. -/
  | sending
  /-- In `urlopen`, with the number of the PUT. -/
  | awaiting (put : Nat)
  /-- In `stop.wait(REGISTRY_REFRESH)`. -/
  | waiting
  | done
  deriving DecidableEq

/-- Where `serve` is. -/
inductive Serving where
  | accepting
  /-- `stop` is set; in `registration.join()`. -/
  | joining
  | joined
  /-- In `urlopen` for the DELETE. -/
  | deleting
  /-- `update_registry` returned: the balancer has answered 204. -/
  | acknowledged
  /-- `update_registry` raised an error. -/
  | unacknowledged
  deriving DecidableEq

/-- What has happened to the DELETE. -/
inductive Delivery where
  | unsent
  | inFlight
  | lost
  /-- The balancer has handled it; `pool.remove` returned the given value. -/
  | handled (removed : Bool)
  deriving DecidableEq

/-- The process, the requests in flight and the pool. The PUTs are numbered. -/
structure Registration where
  renewal : Renewal
  stop : Bool
  serving : Serving
  sent : Nat
  puts : List Nat
  delete : Delivery
  pool : BackendPool

/-- The process has started, and nobody is registered. -/
def Registration.start : Registration :=
  ⟨.checking, false, .accepting, 0, [], .unsent, newBackendPool []⟩

inductive RegistrationEvent where
  /-- `stop.is_set()`. -/
  | check
  | sendPut
  /-- `urlopen` reads the reply to the PUT. -/
  | readReply
  /-- `urlopen` raises an error: it could not connect, the connection broke, or the time is
  over. -/
  | giveUp
  /-- `stop.wait` returns. -/
  | wake
  /-- The accept loop ends, and `stop.set()`. -/
  | shutdown
  | join
  | sendDelete
  | readDeleteReply
  | giveUpDelete
  /-- The balancer handles a PUT at the given time. -/
  | handlePut (put : Nat) (now : Int)
  | handleDelete
  /-- A PUT or the DELETE gets lost. -/
  | losePut (put : Nat)
  | loseDelete
  /-- The balancer handles a request of another client. -/
  | other (now : Int) (call : Call)
  deriving DecidableEq

/-- What an event does. -/
def Registration.next (address : String) (system : Registration) :
    RegistrationEvent → Option Registration
  | .check =>
      if system.renewal = .checking then
        some { system with renewal := if system.stop then .done else .sending }
      else none
  | .sendPut =>
      if system.renewal = .sending then
        some { system with
          renewal := .awaiting system.sent
          sent := system.sent + 1
          puts := system.puts ++ [system.sent] }
      else none
  | .readReply =>
      match system.renewal with
      | .awaiting put =>
          if put ∉ system.puts then some { system with renewal := .waiting } else none
      | _ => none
  | .giveUp =>
      match system.renewal with
      | .awaiting _ => some { system with renewal := .waiting }
      | _ => none
  | .wake =>
      if system.renewal = .waiting then some { system with renewal := .checking } else none
  | .shutdown =>
      if system.serving = .accepting then some { system with stop := true, serving := .joining }
      else none
  | .join =>
      if system.serving = .joining ∧ system.renewal = .done then
        some { system with serving := .joined }
      else none
  | .sendDelete =>
      if system.serving = .joined then
        some { system with serving := .deleting, delete := .inFlight }
      else none
  | .readDeleteReply =>
      if system.serving = .deleting then
        match system.delete with
        | .handled true => some { system with serving := .acknowledged }
        | .handled false => some { system with serving := .unacknowledged }
        | _ => none
      else none
  | .giveUpDelete =>
      if system.serving = .deleting then some { system with serving := .unacknowledged } else none
  | .handlePut put now =>
      if put ∈ system.puts then
        some { system with
          puts := system.puts.erase put, pool := (system.pool.register now address).1 }
      else none
  | .handleDelete =>
      if system.delete = .inFlight then
        some { system with
          delete := .handled (system.pool.remove address).2
          pool := (system.pool.remove address).1 }
      else none
  | .losePut put =>
      if put ∈ system.puts then some { system with puts := system.puts.erase put } else none
  | .loseDelete =>
      if system.delete = .inFlight then some { system with delete := .lost } else none
  | .other now call => some { system with pool := system.pool.perform now call }

/-- Once the DELETE is acknowledged, the address is in no snapshot, as long as no other process
has registered it after the removal. -/
def Gone (address : String) (events : List RegistrationEvent) (system : Registration) : Prop :=
  system.serving = .acknowledged → ∀ before later, events = before ++ .handleDelete :: later →
    (∀ now, .other now (.register address) ∉ later) → ∀ now, address ∉ system.pool.listed now

/-- The balancer handles no PUT of the process after its DELETE, unless the pool is full, so that it
refuses the PUT. -/
def Timely (system : Registration) (event : RegistrationEvent) : Prop :=
  ∀ put now, event = .handlePut put now → (∃ removed, system.delete = .handled removed) →
    maxBackends ≤ (system.pool.pruneExpired now).backends.length

/-! ## What an event does to the addresses -/

section Pool

variable {pool : BackendPool} {address other : String}

theorem WellFormed.perform (wellFormed : pool.WellFormed) (now : Int) (call : Call) :
    (pool.perform now call).WellFormed := by
  cases call with
  | register address => exact wellFormed.register now address
  | remove address => exact wellFormed.remove address
  | snapshot => exact wellFormed.pruneExpired now

theorem nodup_addresses_perform (wellFormed : pool.WellFormed) (distinct : pool.addresses.Nodup)
    (now : Int) (call : Call) : (pool.perform now call).addresses.Nodup := by
  cases call with
  | register address => exact BackendPool.nodup_addresses_register wellFormed distinct now address
  | remove address => exact BackendPool.nodup_addresses_remove distinct address
  | snapshot => exact BackendPool.nodup_addresses_pruneExpired distinct now

/-- An address comes into the pool by its registration only. -/
theorem not_mem_addresses_perform (wellFormed : pool.WellFormed) (absent : address ∉ pool.addresses)
    (now : Int) {call : Call} (elsewhere : call ≠ .register address) :
    address ∉ (pool.perform now call).addresses := by
  have pruned : address ∉ (pool.pruneExpired now).addresses :=
    fun member => absent ((pool.addresses_pruneExpired_sublist now).subset member)
  cases call with
  | register other =>
      rcases BackendPool.addresses_register wellFormed now other with same | ⟨-, appended⟩
      · rw [BackendPool.perform, same]
        exact pruned
      · rw [BackendPool.perform, appended, List.mem_append, List.mem_singleton]
        rintro (old | rfl)
        · exact pruned old
        · exact elsewhere rfl
  | remove other =>
      intro member
      obtain ⟨backend, listed, same⟩ := List.mem_map.mp member
      rw [BackendPool.perform, BackendPool.heap_remove] at same
      rw [BackendPool.perform, BackendPool.backends_remove] at listed
      exact absent (List.mem_map.mpr ⟨backend, List.mem_of_mem_eraseP listed, same⟩)
  | snapshot => exact pruned

/-- A full pool gets no new address. -/
theorem addresses_register_of_full {now : Int}
    (full : maxBackends ≤ (pool.pruneExpired now).backends.length) (address : String) :
    (pool.register now address).1.addresses = (pool.pruneExpired now).addresses := by
  rcases pool.register_cases now address with
    ⟨backend, -, -, renewed⟩ | ⟨-, -, refused⟩ | ⟨-, room, -⟩
  · rw [renewed]
    exact BackendPool.addresses_write backend _
  · rw [refused]
  · omega

/-- In a pool with room an address is in the snapshots from its registration on. -/
theorem mem_listed_register {now : Int}
    (room : (pool.pruneExpired now).backends.length < maxBackends) (address : String) :
    address ∈ (pool.register now address).1.listed now := by
  have runs : decide (now < now + backendLease) = true := by simp [backendLease]
  rcases pool.register_cases now address with
    ⟨backend, member, isAddress, renewed⟩ | ⟨-, full, -⟩ | ⟨-, -, appended⟩
  · rw [renewed]
    refine List.mem_map.mpr ⟨backend, List.mem_filter.mpr ⟨member, ?_⟩, ?_⟩
    · simpa [BackendPool.write, BackendState.leased] using runs
    · simpa [BackendPool.snapshot, BackendPool.pruneExpired, BackendPool.write] using isAddress
  · omega
  · rw [appended]
    refine List.mem_map.mpr ⟨pool.next, List.mem_filter.mpr
      ⟨List.mem_append_right _ (List.mem_singleton.mpr rfl), ?_⟩, ?_⟩
    · simpa [BackendPool.allocate, BackendPool.pruneExpired, BackendState.leased] using runs
    · simp [BackendPool.pruneExpired, BackendPool.allocate]

/-- `remove` removes the address. -/
theorem not_mem_addresses_remove (distinct : pool.addresses.Nodup) (address : String) :
    address ∉ (pool.remove address).1.addresses := by
  rw [← BackendPool.keys_leases, BackendPool.leases_remove distinct]
  exact LeaseList.not_mem_keys_drop

theorem not_mem_listed (absent : address ∉ pool.addresses) (now : Int) :
    address ∉ pool.listed now :=
  fun member => absent ((pool.addresses_pruneExpired_sublist now).subset member)

end Pool

/-! ## The invariant -/

/-- The DELETE was sent. -/
def Serving.hasDeleted : Serving → Bool
  | .accepting | .joining | .joined => false
  | _ => true

/-- What holds after every run in which no PUT is registered after the DELETE. -/
structure Withdrawn (address : String) (events : List RegistrationEvent) (system : Registration) :
    Prop where
  wellFormed : system.pool.WellFormed
  distinct : system.pool.addresses.Nodup
  sent : system.delete ≠ .unsent → system.serving.hasDeleted = true
  gone : ∀ before later, events = before ++ .handleDelete :: later →
    (∃ removed, system.delete = .handled removed) ∧
      ((∀ now, .other now (.register address) ∉ later) → address ∉ system.pool.addresses)

section Step

variable {address : String} {events : List RegistrationEvent} {system after : Registration}

theorem withdrawn_start : Withdrawn address [] .start where
  wellFormed := ⟨List.nodup_nil, nofun⟩
  distinct := List.nodup_nil
  sent := fun unsent => absurd rfl unsent
  gone := by
    intro before later split
    simp at split

/-- An event other than the handling of the DELETE. -/
theorem Withdrawn.keep (withdrawn : Withdrawn address events system) {event : RegistrationEvent}
    (notDelete : event ≠ .handleDelete) (wellFormed : after.pool.WellFormed)
    (distinct : after.pool.addresses.Nodup)
    (sent : after.delete ≠ .unsent → after.serving.hasDeleted = true)
    (handled : ∀ removed, system.delete = .handled removed → after.delete = .handled removed ∧
      ((∀ now, event ≠ .other now (.register address)) → address ∉ system.pool.addresses →
        address ∉ after.pool.addresses)) :
    Withdrawn address (events ++ [event]) after := by
  refine ⟨wellFormed, distinct, sent, ?_⟩
  intro before later split
  rcases concat_eq_append_cons_iff.mp split with ⟨-, here, -⟩ | ⟨rest, rfl, earlier⟩
  · exact absurd here.symm notDelete
  · obtain ⟨⟨removed, isHandled⟩, absent⟩ := withdrawn.gone before rest earlier
    obtain ⟨still, keeps⟩ := handled removed isHandled
    refine ⟨⟨removed, still⟩, fun alone => ?_⟩
    refine keeps (fun now here => ?_) (absent fun now member => ?_)
    · exact alone now (List.mem_append_right _ (List.mem_singleton.mpr here.symm))
    · exact alone now (List.mem_append_left _ member)

/-- A step of the process that leaves the DELETE and the pool alone. -/
theorem Withdrawn.move (withdrawn : Withdrawn address events system) {event : RegistrationEvent}
    (notDelete : event ≠ .handleDelete) {renewal : Renewal} {serving : Serving} {stop : Bool}
    {number : Nat} {puts : List Nat}
    (onwards : system.serving.hasDeleted = true → serving.hasDeleted = true) :
    Withdrawn address (events ++ [event])
      { system with
        renewal := renewal, serving := serving, stop := stop, sent := number, puts := puts } :=
  withdrawn.keep notDelete withdrawn.wellFormed withdrawn.distinct
    (fun unsent => onwards (withdrawn.sent unsent))
    (fun _ isHandled => ⟨isHandled, fun _ absent => absent⟩)

/-- Before the DELETE is sent, it is not handled. -/
theorem Withdrawn.not_handled (withdrawn : Withdrawn address events system)
    (unasked : ¬ system.serving.hasDeleted = true) (removed : Bool) :
    system.delete ≠ .handled removed := by
  intro isHandled
  exact unasked (withdrawn.sent (by rw [isHandled]; nofun))

/-- **One event** of a run in which no PUT is registered after the DELETE. -/
theorem Withdrawn.next (withdrawn : Withdrawn address events system) {event : RegistrationEvent}
    (timely : Timely system event) (taken : system.next address event = some after) :
    Withdrawn address (events ++ [event]) after := by
  cases event with
  | check =>
      simp only [Registration.next] at taken
      split at taken
      · obtain rfl := Option.some.inj taken
        exact withdrawn.move (by nofun) id
      · cases taken
  | sendPut =>
      simp only [Registration.next] at taken
      split at taken
      · obtain rfl := Option.some.inj taken
        exact withdrawn.move (by nofun) id
      · cases taken
  | readReply =>
      simp only [Registration.next] at taken
      split at taken
      · split at taken
        · obtain rfl := Option.some.inj taken
          exact withdrawn.move (by nofun) id
        · cases taken
      · cases taken
  | giveUp =>
      simp only [Registration.next] at taken
      split at taken
      · obtain rfl := Option.some.inj taken
        exact withdrawn.move (by nofun) id
      · cases taken
  | wake =>
      simp only [Registration.next] at taken
      split at taken
      · obtain rfl := Option.some.inj taken
        exact withdrawn.move (by nofun) id
      · cases taken
  | shutdown =>
      simp only [Registration.next] at taken
      split at taken
      · rename_i accepting
        obtain rfl := Option.some.inj taken
        refine withdrawn.move (by nofun) fun deleted => ?_
        rw [accepting] at deleted
        cases deleted
      · cases taken
  | join =>
      simp only [Registration.next] at taken
      split at taken
      · rename_i finished
        obtain rfl := Option.some.inj taken
        refine withdrawn.move (by nofun) fun deleted => ?_
        rw [finished.1] at deleted
        cases deleted
      · cases taken
  | sendDelete =>
      simp only [Registration.next] at taken
      split at taken
      · rename_i joined
        obtain rfl := Option.some.inj taken
        have unhandled := withdrawn.not_handled (by rw [joined]; nofun)
        exact withdrawn.keep nofun withdrawn.wellFormed withdrawn.distinct (fun _ => rfl)
          (fun removed isHandled => absurd isHandled (unhandled removed))
      · cases taken
  | readDeleteReply =>
      simp only [Registration.next] at taken
      split at taken
      · split at taken
        · obtain rfl := Option.some.inj taken
          exact withdrawn.move (by nofun) fun _ => rfl
        · obtain rfl := Option.some.inj taken
          exact withdrawn.move (by nofun) fun _ => rfl
        · cases taken
      · cases taken
  | giveUpDelete =>
      simp only [Registration.next] at taken
      split at taken
      · obtain rfl := Option.some.inj taken
        exact withdrawn.move (by nofun) fun _ => rfl
      · cases taken
  | handlePut put now =>
      simp only [Registration.next] at taken
      split at taken
      · obtain rfl := Option.some.inj taken
        refine withdrawn.keep nofun (withdrawn.wellFormed.register now address)
          (BackendPool.nodup_addresses_register withdrawn.wellFormed withdrawn.distinct now address)
          withdrawn.sent fun removed isHandled => ⟨isHandled, fun _ absent => ?_⟩
        -- Only a full pool may meet a PUT after the DELETE.
        rw [addresses_register_of_full (timely put now rfl ⟨removed, isHandled⟩)]
        exact fun member =>
          absent ((system.pool.addresses_pruneExpired_sublist now).subset member)
      · cases taken
  | handleDelete =>
      simp only [Registration.next] at taken
      split at taken
      · rename_i inFlight
        obtain rfl := Option.some.inj taken
        refine ⟨withdrawn.wellFormed.remove address,
          BackendPool.nodup_addresses_remove withdrawn.distinct address,
          fun _ => withdrawn.sent (by rw [inFlight]; nofun), ?_⟩
        intro before later split
        exact ⟨⟨_, rfl⟩, fun _ => not_mem_addresses_remove withdrawn.distinct address⟩
      · cases taken
  | losePut put =>
      simp only [Registration.next] at taken
      split at taken
      · obtain rfl := Option.some.inj taken
        exact withdrawn.move (by nofun) id
      · cases taken
  | loseDelete =>
      simp only [Registration.next] at taken
      split at taken
      · rename_i inFlight
        obtain rfl := Option.some.inj taken
        refine withdrawn.keep nofun withdrawn.wellFormed withdrawn.distinct
          (fun _ => withdrawn.sent (by rw [inFlight]; nofun)) ?_
        intro removed isHandled
        cases inFlight.symm.trans isHandled
      · cases taken
  | other now call =>
      obtain rfl := Option.some.inj taken
      refine withdrawn.keep nofun (WellFormed.perform withdrawn.wellFormed now call)
        (nodup_addresses_perform withdrawn.wellFormed withdrawn.distinct now call)
        withdrawn.sent ?_
      intro removed isHandled
      refine ⟨isHandled, fun elsewhere absent => ?_⟩
      exact not_mem_addresses_perform withdrawn.wellFormed absent now
        fun same => elsewhere now (by rw [same])

/-- A step that is not timely lists the address once more. -/
theorem mem_listed_of_not_timely {event : RegistrationEvent} (late : ¬ Timely system event)
    (taken : system.next address event = some after) :
    ∃ put now, event = .handlePut put now ∧ address ∈ after.pool.listed now := by
  unfold Timely at late
  push Not at late
  obtain ⟨put, now, rfl, -, room⟩ := late
  refine ⟨put, now, rfl, ?_⟩
  simp only [Registration.next] at taken
  split at taken
  · obtain rfl := Option.some.inj taken
    exact mem_listed_register room address
  · cases taken

end Step

/-- **Deregistration is final** where no PUT is late: in every run in which the balancer handles no
PUT of the process after its DELETE, or refuses it, the address is in no snapshot after the
acknowledgement, until another process registers it. -/
theorem deregistration_final {address : String} {events : List RegistrationEvent}
    {system : Registration}
    (run : runEvents (Registration.next address) .start events = some system)
    (timely : AlongRun (Registration.next address) Timely .start events) :
    Gone address events system := by
  have withdrawn : Withdrawn address events system :=
    runEvents_induction_along withdrawn_start
      (fun _ _ _ _ timely withdrawn taken => withdrawn.next timely taken) run timely
  intro _ before later split alone now
  exact not_mem_listed ((withdrawn.gone before later split).2 alone) now

/-- The process was registered, its next PUT timed out, and it was shut down. That PUT is still in
flight when the balancer handles the DELETE, and gets lost. -/
def lostRun : List RegistrationEvent :=
  [.check, .sendPut, .handlePut 0 0, .readReply, .wake, .check, .sendPut, .giveUp, .shutdown,
    .wake, .check, .join, .sendDelete, .handleDelete, .readDeleteReply, .losePut 1]

theorem deregistration_final_lostRun :
    ∃ system, runEvents (Registration.next "127.0.0.1:8088") .start lostRun = some system ∧
      system.serving = .acknowledged ∧ "127.0.0.1:8088" ∉ system.pool.listed 1 := by
  have timely : AlongRun (Registration.next "127.0.0.1:8088") Timely .start lostRun := by
    repeat' first
      | exact alongRun_nil _
      | (refine AlongRun.cons (by simp [Timely, Registration.start]) ?_; rintro _ ⟨⟩)
  exact ⟨_, rfl, rfl, deregistration_final rfl timely rfl (lostRun.take 13)
    [.readDeleteReply, .losePut 1] rfl (by simp) 1⟩

/-- Here the balancer handles the PUT after the DELETE. -/
def lateRun : List RegistrationEvent :=
  [.check, .sendPut, .handlePut 0 0, .readReply, .wake, .check, .sendPut, .giveUp, .shutdown,
    .wake, .check, .join, .sendDelete, .handleDelete, .readDeleteReply, .handlePut 1 2000000000]

/-- **A late PUT** registers the address once more. -/
theorem late_put_registers_again :
    ∃ system, runEvents (Registration.next "127.0.0.1:8088") .start lateRun = some system ∧
      system.pool.listed 2000000001 = ["127.0.0.1:8088"] ∧
      ¬ Gone "127.0.0.1:8088" lateRun system := by
  refine ⟨_, rfl, by decide, ?_⟩
  intro gone
  refine gone rfl (lateRun.take 13) [.readDeleteReply, .handlePut 1 2000000000] rfl ?_ 2000000001
    (by decide)
  intro now
  simp

end InfraFromScratch.Stack
