import InfraFromScratch.Foundations.Transitions

/-!
# The client slots of the cache

`main` in `in-mem-cache/server.c` accepts connections and hands each to a detached thread. At
most `CLIENT_LIMIT` connections hold a slot at the same time. A slot is reserved by the accept
loop and released by whoever owns it: the loop, when it cannot start a thread, or the thread at
its end. The counter is read and written only under `client_count_mutex`, so `reserve_client_slot`
and `release_client_slot` are single steps.

Each reservation is numbered, which the program does not do: the numbers only say who owns a
reservation and which ones were released. The counter is the number of reservations that are
owned, and every reservation that was granted is owned by exactly one owner or was released
exactly once (`client_slots_accounted`).
-/

set_option autoImplicit false

namespace InfraFromScratch.Cache

open Foundations

/-- `CLIENT_LIMIT`. -/
def clientLimit : UInt64 := 32

/-- `reserve_client_slot`: the counter afterwards, and whether a slot was reserved. -/
def reserveClientSlot (activeClients : UInt64) : UInt64 × Bool :=
  if activeClients < clientLimit then (activeClients + 1, true) else (activeClients, false)

/-- `release_client_slot`. -/
def releaseClientSlot (activeClients : UInt64) : UInt64 := activeClients - 1

/-- Where the accept loop is, with the reservation it holds. -/
inductive AcceptLoop where
  | accepting
  /-- `accept` returned a client. -/
  | accepted
  /-- No slot was free: the client gets an error and is closed. -/
  | refusing
  | reserved (slot : Nat)
  /-- `malloc` failed. -/
  | unallocated (slot : Nat)
  | allocated (slot : Nat)
  /-- `pthread_create` failed. -/
  | uncreated (slot : Nat)
  /-- The slot was released again, and the client is closed. -/
  | closing
  deriving DecidableEq

/-- The reservation that the loop holds. -/
def AcceptLoop.slot : AcceptLoop → Option Nat
  | .reserved slot | .unallocated slot | .allocated slot | .uncreated slot => some slot
  | _ => none

/-- A client thread that has not released its slot. -/
structure ClientThread where
  slot : Nat
  /-- `handle_client` has returned and the connection is closed. -/
  closed : Bool
  deriving DecidableEq

/-- The counter, the accept loop and the threads. `granted` is the number of reservations so
far, and `releases` lists the reservations that were released. -/
structure Clients where
  activeClients : UInt64
  loop : AcceptLoop
  threads : List ClientThread
  granted : Nat
  releases : List Nat
  deriving DecidableEq

/-- The server before its first connection. -/
def Clients.start : Clients := ⟨0, .accepting, [], 0, []⟩

inductive ClientEvent where
  /-- `accept` returns a client or fails. -/
  | accept (succeeds : Bool)
  | reserve
  /-- The loop sends the error, closes the client and goes on. -/
  | refuse
  | malloc (succeeds : Bool)
  | create (succeeds : Bool)
  /-- The loop releases the slot it could not hand over. -/
  | giveBack
  /-- The loop closes the client and goes on. -/
  | close
  /-- A thread returns from `handle_client` and closes its connection. -/
  | finish (thread : Nat)
  /-- A thread releases its slot and ends. -/
  | release (thread : Nat)
  deriving DecidableEq

/-- What an event does. -/
def Clients.next (clients : Clients) : ClientEvent → Option Clients
  | .accept succeeds =>
      match clients.loop with
      | .accepting => some { clients with loop := if succeeds then .accepted else .accepting }
      | _ => none
  | .reserve =>
      match clients.loop with
      | .accepted =>
          if (reserveClientSlot clients.activeClients).2 then
            some { clients with
              activeClients := (reserveClientSlot clients.activeClients).1
              loop := .reserved clients.granted
              granted := clients.granted + 1 }
          else
            some { clients with
              activeClients := (reserveClientSlot clients.activeClients).1
              loop := .refusing }
      | _ => none
  | .refuse =>
      match clients.loop with
      | .refusing => some { clients with loop := .accepting }
      | _ => none
  | .malloc succeeds =>
      match clients.loop with
      | .reserved slot =>
          some { clients with loop := if succeeds then .allocated slot else .unallocated slot }
      | _ => none
  | .create succeeds =>
      match clients.loop with
      | .allocated slot =>
          if succeeds then
            some { clients with loop := .accepting, threads := clients.threads ++ [⟨slot, false⟩] }
          else some { clients with loop := .uncreated slot }
      | _ => none
  | .giveBack =>
      match clients.loop with
      | .unallocated slot | .uncreated slot =>
          some { clients with
            activeClients := releaseClientSlot clients.activeClients
            loop := .closing
            releases := clients.releases ++ [slot] }
      | _ => none
  | .close =>
      match clients.loop with
      | .closing => some { clients with loop := .accepting }
      | _ => none
  | .finish thread =>
      match clients.threads[thread]? with
      | some ⟨slot, false⟩ =>
          some { clients with threads := clients.threads.set thread ⟨slot, true⟩ }
      | _ => none
  | .release thread =>
      match clients.threads[thread]? with
      | some ⟨slot, true⟩ =>
          some { clients with
            activeClients := releaseClientSlot clients.activeClients
            threads := clients.threads.eraseIdx thread
            releases := clients.releases ++ [slot] }
      | _ => none

/-! ## The invariant -/

/-- The reservations that are owned: by the loop and by threads. -/
def Clients.outstanding (clients : Clients) : List Nat :=
  clients.loop.slot.toList ++ clients.threads.map ClientThread.slot

/-- The counter counts the owned reservations, and every reservation is owned or released. -/
structure Accounted (clients : Clients) : Prop where
  active : clients.activeClients.toNat = clients.outstanding.length
  bound : clients.outstanding.length ≤ 32
  ids : (clients.outstanding ++ clients.releases).Perm (List.range clients.granted)

theorem accounted_start : Accounted .start := ⟨rfl, by decide, .refl _⟩

/-- **When a slot is refused**: exactly when the counter is at the limit or above. -/
theorem reserveClientSlot_refuses_iff (activeClients : UInt64) :
    (reserveClientSlot activeClients).2 = false ↔ 32 ≤ activeClients.toNat := by
  unfold reserveClientSlot
  split
  · rename_i below
    have small : activeClients.toNat < 32 := UInt64.lt_iff_toNat_lt.mp below
    simp [small]
  · rename_i full
    have large : ¬ activeClients.toNat < 32 := fun small => full (UInt64.lt_iff_toNat_lt.mpr small)
    simp [not_lt.mp large]

theorem reserveClientSlot_toNat {activeClients : UInt64} (free : activeClients.toNat < 32) :
    (reserveClientSlot activeClients).1.toNat = activeClients.toNat + 1 := by
  have below : activeClients < clientLimit := UInt64.lt_iff_toNat_lt.mpr free
  rw [reserveClientSlot, if_pos below, UInt64.toNat_add]
  exact Nat.mod_eq_of_lt (by rw [show (1 : UInt64).toNat = 1 from rfl]; omega)

theorem releaseClientSlot_toNat {activeClients : UInt64} (positive : 0 < activeClients.toNat) :
    (releaseClientSlot activeClients).toNat = activeClients.toNat - 1 := by
  have one : (1 : UInt64) ≤ activeClients := UInt64.le_iff_toNat_le.mpr positive
  rw [releaseClientSlot, UInt64.toNat_sub_of_le _ _ one]
  rfl

/-- The events in which `release_client_slot` is called. -/
def ClientEvent.releases : ClientEvent → Bool
  | .giveBack | .release _ => true
  | _ => false

/-- An event that leaves the reservations to their owners, or moves one to another. -/
structure Keeps (clients after : Clients) : Prop where
  active : after.activeClients = clients.activeClients
  granted : after.granted = clients.granted
  releases : after.releases = clients.releases
  owners : after.outstanding.Perm clients.outstanding

/-- An event that grants a reservation. -/
structure Grants (clients after : Clients) : Prop where
  free : (reserveClientSlot clients.activeClients).2 = true
  active : after.activeClients = (reserveClientSlot clients.activeClients).1
  granted : after.granted = clients.granted + 1
  releases : after.releases = clients.releases
  owners : after.outstanding.Perm (clients.granted :: clients.outstanding)

/-- An event in which the owner of a reservation releases it. -/
structure Releases (slot : Nat) (clients after : Clients) : Prop where
  active : after.activeClients = releaseClientSlot clients.activeClients
  granted : after.granted = clients.granted
  releases : after.releases = clients.releases ++ [slot]
  owners : clients.outstanding.Perm (slot :: after.outstanding)

/-- An event that only moves the loop, with the reservation it holds. -/
theorem keeps_of_loop (clients : Clients) {loop : AcceptLoop} (same : loop.slot = clients.loop.slot) :
    Keeps clients { clients with loop := loop } := by
  refine ⟨rfl, rfl, rfl, ?_⟩
  rw [Clients.outstanding, Clients.outstanding, same]

/-- The slots of the threads, with that of one of them in front. -/
theorem slots_perm {threads : List ClientThread} {thread slot : Nat} {closed : Bool}
    (found : threads[thread]? = some ⟨slot, closed⟩) :
    (threads.map ClientThread.slot).Perm
      (slot :: (threads.eraseIdx thread).map ClientThread.slot) := by
  obtain ⟨inside, here⟩ := List.getElem?_eq_some_iff.mp found
  have perm := List.getElem_cons_eraseIdx_perm inside
  rw [here] at perm
  exact (perm.map ClientThread.slot).symm

/-- **All that an event can do** to the reservations. -/
theorem Clients.next_cases {clients after : Clients} {event : ClientEvent}
    (taken : clients.next event = some after) :
    (event.releases = false ∧ Keeps clients after) ∨
      (event.releases = false ∧ Grants clients after) ∨
      (event.releases = true ∧ ∃ slot, Releases slot clients after) := by
  cases event with
  | accept succeeds =>
      simp only [Clients.next] at taken
      split at taken
      · rename_i loop
        obtain rfl := Option.some.inj taken
        refine .inl ⟨rfl, keeps_of_loop clients ?_⟩
        rw [loop]
        split <;> rfl
      · cases taken
  | reserve =>
      simp only [Clients.next] at taken
      split at taken
      · rename_i loop
        split at taken
        · rename_i free
          obtain rfl := Option.some.inj taken
          refine .inr (.inl ⟨rfl, free, rfl, rfl, rfl, ?_⟩)
          simp [Clients.outstanding, AcceptLoop.slot, loop]
        · rename_i full
          obtain rfl := Option.some.inj taken
          have unchanged : (reserveClientSlot clients.activeClients).1 = clients.activeClients := by
            unfold reserveClientSlot at full ⊢
            split at full
            · exact absurd rfl full
            · rename_i above
              rw [if_neg above]
          refine .inl ⟨rfl, unchanged, rfl, rfl, ?_⟩
          simp [Clients.outstanding, AcceptLoop.slot, loop]
      · cases taken
  | refuse =>
      simp only [Clients.next] at taken
      split at taken
      · rename_i loop
        obtain rfl := Option.some.inj taken
        refine .inl ⟨rfl, keeps_of_loop clients ?_⟩
        rw [loop]
        rfl
      · cases taken
  | malloc succeeds =>
      simp only [Clients.next] at taken
      split at taken
      · rename_i slot loop
        obtain rfl := Option.some.inj taken
        refine .inl ⟨rfl, keeps_of_loop clients ?_⟩
        rw [loop]
        split <;> rfl
      · cases taken
  | create succeeds =>
      simp only [Clients.next] at taken
      split at taken
      · rename_i slot loop
        split at taken
        · -- The reservation moves from the loop to the new thread.
          obtain rfl := Option.some.inj taken
          refine .inl ⟨rfl, rfl, rfl, rfl, ?_⟩
          simp only [Clients.outstanding, AcceptLoop.slot, loop, Option.toList_none, List.nil_append,
            Option.toList_some, List.map_append, List.map_cons, List.map_nil]
          exact List.perm_append_comm
        · obtain rfl := Option.some.inj taken
          refine .inl ⟨rfl, keeps_of_loop clients ?_⟩
          rw [loop]
          rfl
      · cases taken
  | giveBack =>
      simp only [Clients.next] at taken
      split at taken
      · rename_i slot loop
        obtain rfl := Option.some.inj taken
        refine .inr (.inr ⟨rfl, slot, rfl, rfl, rfl, ?_⟩)
        simp [Clients.outstanding, AcceptLoop.slot, loop]
      · rename_i slot loop
        obtain rfl := Option.some.inj taken
        refine .inr (.inr ⟨rfl, slot, rfl, rfl, rfl, ?_⟩)
        simp [Clients.outstanding, AcceptLoop.slot, loop]
      · cases taken
  | close =>
      simp only [Clients.next] at taken
      split at taken
      · rename_i loop
        obtain rfl := Option.some.inj taken
        refine .inl ⟨rfl, keeps_of_loop clients ?_⟩
        rw [loop]
        rfl
      · cases taken
  | finish thread =>
      simp only [Clients.next] at taken
      split at taken
      · rename_i slot found
        obtain rfl := Option.some.inj taken
        obtain ⟨inside, -⟩ := List.getElem?_eq_some_iff.mp found
        have replaced := (List.set_perm_cons_eraseIdx inside ⟨slot, true⟩).map ClientThread.slot
        refine .inl ⟨rfl, rfl, rfl, rfl, ?_⟩
        exact (replaced.trans (slots_perm found).symm).append_left _
      · cases taken
  | release thread =>
      simp only [Clients.next] at taken
      split at taken
      · rename_i slot found
        obtain rfl := Option.some.inj taken
        refine .inr (.inr ⟨rfl, slot, rfl, rfl, rfl, ?_⟩)
        exact ((slots_perm found).append_left _).trans List.perm_middle
      · cases taken

/-- **One event** keeps the account. -/
theorem Accounted.next {clients after : Clients} (accounted : Accounted clients)
    {event : ClientEvent} (taken : clients.next event = some after) : Accounted after := by
  rcases Clients.next_cases taken with ⟨-, keeps⟩ | ⟨-, grants⟩ | ⟨-, slot, releases⟩
  · refine ⟨?_, ?_, ?_⟩
    · rw [keeps.active, accounted.active, keeps.owners.length_eq]
    · rw [keeps.owners.length_eq]
      exact accounted.bound
    · rw [keeps.releases, keeps.granted]
      exact (keeps.owners.append_right _).trans accounted.ids
  · have free : clients.activeClients.toNat < 32 := by
      rw [← not_le, ← reserveClientSlot_refuses_iff, grants.free]
      decide
    have more : after.outstanding.length = clients.outstanding.length + 1 :=
      grants.owners.length_eq
    refine ⟨?_, ?_, ?_⟩
    · rw [grants.active, reserveClientSlot_toNat free, accounted.active, more]
    · rw [more, ← accounted.active]
      exact free
    · rw [grants.releases, grants.granted, List.range_succ]
      refine (grants.owners.append_right _).trans ?_
      exact (accounted.ids.cons clients.granted).trans (List.perm_append_singleton _ _).symm
  · have fewer : clients.outstanding.length = after.outstanding.length + 1 :=
      releases.owners.length_eq
    have bound := accounted.bound
    have active := accounted.active
    refine ⟨?_, by omega, ?_⟩
    · rw [releases.active, releaseClientSlot_toNat (by omega)]
      omega
    · rw [releases.releases, releases.granted]
      refine List.Perm.trans ?_ accounted.ids
      have moved : (after.outstanding ++ (clients.releases ++ [slot])).Perm
          (slot :: after.outstanding ++ clients.releases) := by
        rw [← List.append_assoc]
        exact List.perm_append_singleton _ _
      exact moved.trans (releases.owners.symm.append_right _)

/-- **The slots are accounted for.** In every state that the accept loop and any number of
threads reach, the counter is the number of threads that have not released, and one more while
the loop holds a reservation. It is at most 32 and is never decremented at 0. A connection is
refused iff 32 reservations are outstanding. Every reservation has one owner, or was released
once. -/
theorem client_slots_accounted {events : List ClientEvent} {clients : Clients}
    (run : runEvents Clients.next .start events = some clients) :
    clients.activeClients.toNat =
        clients.threads.length + (if clients.loop.slot.isSome then 1 else 0) ∧
      clients.activeClients.toNat ≤ 32 ∧
      (∀ event after, clients.next event = some after → event.releases = true →
        0 < clients.activeClients.toNat) ∧
      ((reserveClientSlot clients.activeClients).2 = false ↔ clients.outstanding.length = 32) ∧
      ∀ slot < clients.granted,
        clients.outstanding.count slot + clients.releases.count slot = 1 := by
  have accounted : Accounted clients :=
    runEvents_invariant accounted_start (fun _ _ _ holds taken => holds.next taken) run
  have active := accounted.active
  have bound := accounted.bound
  refine ⟨?_, by omega, ?_, ?_, ?_⟩
  · rw [active, Clients.outstanding, List.length_append, List.length_map, Nat.add_comm]
    cases clients.loop.slot <;> rfl
  · intro event after taken isRelease
    rcases Clients.next_cases taken with ⟨other, -⟩ | ⟨other, -⟩ | ⟨-, slot, releases⟩
    · rw [isRelease] at other
      cases other
    · rw [isRelease] at other
      cases other
    · rw [active, releases.owners.length_eq]
      exact Nat.succ_pos _
  · rw [reserveClientSlot_refuses_iff]
    omega
  · intro slot granted
    rw [← List.count_append, accounted.ids.count_eq,
      List.count_eq_one_of_mem List.nodup_range (List.mem_range.mpr granted)]

/-- A connection whose thread cannot be created, and one that is served to its end. -/
theorem client_slots_accounted_sample :
    ∃ clients,
      runEvents Clients.next .start
        [.accept true, .reserve, .malloc true, .create false, .giveBack, .close, .accept true,
          .reserve, .malloc true, .create true, .accept true, .finish 0, .release 0, .reserve] =
          some clients ∧
        clients.activeClients.toNat = 1 ∧ clients.outstanding = [2] ∧ clients.releases = [0, 1] := by
  obtain ⟨clients, run⟩ : ∃ clients, runEvents Clients.next .start
      [.accept true, .reserve, .malloc true, .create false, .giveBack, .close, .accept true,
        .reserve, .malloc true, .create true, .accept true, .finish 0, .release 0, .reserve] =
        some clients := ⟨_, rfl⟩
  have counted := (client_slots_accounted run).1
  obtain rfl := Option.some.inj run
  exact ⟨_, rfl, counted, rfl, rfl⟩

end InfraFromScratch.Cache
