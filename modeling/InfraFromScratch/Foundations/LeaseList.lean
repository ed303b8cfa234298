import InfraFromScratch.Foundations.ExpiringMap

/-!
# Leases kept in a list

A registry gives each member a lease that ends at a deadline. Abstractly it is an
expiring map from members to the stamp of the moment at which their membership
began. Concretely it may be a list of leases in which a lease that has ended stays
until the list is pruned.

The list represents the map at a time (`LeaseList.Represents`) when no member has two
leases, the leases that are still running are the entries of the map, and they stand
in the order of their stamps. Time may pass (`Represents.mono`), the list may be
pruned (`Represents.prune`), and renewing, appending and dropping a lease are updates
of the map (`Represents.renew`, `Represents.append`, `Represents.drop`).

A pruned list lists every live member once, in the order in which the memberships
began (`Represents.pruned`).
-/

set_option autoImplicit false

namespace InfraFromScratch.Foundations

variable {Key Time : Type*}

/-- Members with the ends of their leases, in some order. -/
abbrev LeaseList (Key Time : Type*) := List (Key × WithTop Time)

namespace LeaseList

/-- The members, whether or not their leases have ended. -/
def keys (leases : LeaseList Key Time) : List Key := leases.map Prod.fst

variable [LinearOrder Time]

/-- The leases that are still running. -/
def prune (leases : LeaseList Key Time) (now : Time) : LeaseList Key Time :=
  leases.filter fun lease => decide ((now : WithTop Time) < lease.2)

/-- The running leases are the entries of the map, in the order of their stamps. -/
structure Represents (leases : LeaseList Key Time) (map : ExpiringMap Key Nat Time)
    (now : Time) : Prop where
  distinct : leases.keys.Nodup
  entries : ∀ key deadline, (now : WithTop Time) < deadline →
    ((key, deadline) ∈ leases ↔ ∃ stamp, map key = some (stamp, deadline))
  ordered : leases.Pairwise fun earlier later => ∀ first second,
    map.Shows now earlier.1 first → map.Shows now later.1 second → first < second

variable {leases : LeaseList Key Time} {map : ExpiringMap Key Nat Time} {now : Time}

theorem represents_nil (now : Time) :
    Represents ([] : LeaseList Key Time) (fun _ => none) now :=
  ⟨List.nodup_nil, by simp, List.Pairwise.nil⟩

theorem shows_of_later {early late : Time} (order : early ≤ late) {key : Key} {stamp : Nat}
    (shown : map.Shows late key stamp) : map.Shows early key stamp := by
  obtain ⟨deadline, found, ahead⟩ := shown
  exact ⟨deadline, found, (WithTop.coe_le_coe.mpr order).trans_lt ahead⟩

theorem Represents.mono {early late : Time} (order : early ≤ late)
    (represents : Represents leases map early) : Represents leases map late := by
  refine ⟨represents.distinct, ?_, ?_⟩
  · intro key deadline ahead
    exact represents.entries key deadline ((WithTop.coe_le_coe.mpr order).trans_lt ahead)
  · refine represents.ordered.imp ?_
    intro earlier later increasing first second shownFirst shownSecond
    exact increasing first second (shows_of_later order shownFirst)
      (shows_of_later order shownSecond)

/-- **Pruning changes nothing that is visible.** -/
theorem Represents.prune (represents : Represents leases map now) :
    Represents (leases.prune now) map now := by
  refine ⟨?_, ?_, represents.ordered.filter _⟩
  · exact (List.filter_sublist.map Prod.fst).nodup represents.distinct
  · intro key deadline ahead
    rw [← represents.entries key deadline ahead, LeaseList.prune, List.mem_filter]
    exact and_iff_left (decide_eq_true ahead)

/-- The members of a pruned list are those with a running lease. -/
theorem Represents.mem_keys_prune_iff (represents : Represents leases map now) {key : Key} :
    key ∈ (leases.prune now).keys ↔ key ∈ map.liveKeys now := by
  constructor
  · intro member
    obtain ⟨⟨_, deadline⟩, found, rfl⟩ := List.mem_map.mp member
    obtain ⟨listed, ahead⟩ := List.mem_filter.mp found
    have running := of_decide_eq_true ahead
    obtain ⟨stamp, entry⟩ := (represents.entries _ deadline running).mp listed
    exact ⟨stamp, deadline, entry, running⟩
  · intro live
    obtain ⟨stamp, deadline, entry, running⟩ := live
    refine List.mem_map.mpr ⟨(key, deadline), List.mem_filter.mpr ⟨?_, ?_⟩, rfl⟩
    · exact (represents.entries key deadline running).mpr ⟨stamp, entry⟩
    · exact decide_eq_true running

/-- **A pruned list lists the live members**: each of them once, and in the order in
which the memberships began. -/
theorem Represents.pruned (represents : Represents leases map now) :
    (leases.prune now).keys.Nodup ∧
      (∀ key, key ∈ (leases.prune now).keys ↔ key ∈ map.liveKeys now) ∧
      (leases.prune now).keys.Pairwise fun earlier later => ∀ first second,
        map.Shows now earlier first → map.Shows now later second → first < second := by
  refine ⟨represents.prune.distinct, fun key => represents.mem_keys_prune_iff, ?_⟩
  exact List.pairwise_map.mpr represents.prune.ordered

/-- As many members are live as a pruned list has leases. -/
theorem Represents.encard_liveKeys (represents : Represents leases map now) :
    (map.liveKeys now).encard = (leases.prune now).length := by
  classical
  have same : map.liveKeys now = ((leases.prune now).keys.toFinset : Set Key) := by
    ext key
    rw [Finset.mem_coe, List.mem_toFinset, represents.mem_keys_prune_iff]
  rw [same, Set.encard_coe_eq_coe_finsetCard,
    List.toFinset_card_of_nodup represents.prune.distinct, keys, List.length_map]

/-! ## Changing one lease -/

variable [DecidableEq Key] {key : Key} {deadline : WithTop Time} {stamp : Nat}

/-- Give the lease of a member a new end, in its place. -/
def renew (leases : LeaseList Key Time) (key : Key) (deadline : WithTop Time) :
    LeaseList Key Time :=
  leases.map fun lease => if lease.1 = key then (key, deadline) else lease

/-- Take the lease of a member out. -/
def drop (leases : LeaseList Key Time) (key : Key) : LeaseList Key Time :=
  leases.filter fun lease => decide (lease.1 ≠ key)

omit [LinearOrder Time] in
/-- When no member has two leases, taking out the first lease of a member takes it out. -/
theorem eraseP_eq_drop (distinct : leases.keys.Nodup) (key : Key) :
    leases.eraseP (fun lease => lease.1 == key) = leases.drop key := by
  induction leases with
  | nil => rfl
  | cons lease rest ih =>
      obtain ⟨elsewhere, restDistinct⟩ := List.nodup_cons.mp distinct
      by_cases here : lease.1 = key
      · have untouched : drop rest key = rest := by
          refine List.filter_eq_self.mpr fun other member => decide_eq_true fun same => ?_
          exact elsewhere (List.mem_map.mpr ⟨other, member, same.trans here.symm⟩)
        rw [List.eraseP_cons_of_pos (by simp [here]), drop,
          List.filter_cons_of_neg (by simp [here])]
        exact untouched.symm
      · rw [List.eraseP_cons_of_neg (by simp [here]), ih restDistinct, drop, drop,
          List.filter_cons_of_pos (by simp [here])]

omit [LinearOrder Time] in
theorem not_mem_keys_drop : key ∉ (leases.drop key).keys := by
  simp [keys, drop]

omit [LinearOrder Time] in
theorem renew_fst (lease : Key × WithTop Time) :
    (if lease.1 = key then (key, deadline) else lease).1 = lease.1 := by
  by_cases here : lease.1 = key
  · rw [if_pos here, here]
  · rw [if_neg here]

omit [LinearOrder Time] in
theorem keys_renew : (leases.renew key deadline).keys = leases.keys := by
  rw [keys, keys, renew, List.map_map]
  exact List.map_congr_left fun lease _ => renew_fst lease

theorem shows_update_self {first : Nat}
    (shown : ExpiringMap.Shows (Function.update map key (some (stamp, deadline))) now key first) :
    first = stamp := by
  obtain ⟨_, entry, -⟩ := shown
  rw [Function.update_self] at entry
  exact (Prod.mk.inj (Option.some.inj entry)).1.symm

theorem shows_update_of_ne {entry : Option (Nat × WithTop Time)} {other : Key} {first : Nat}
    (elsewhere : other ≠ key) :
    ExpiringMap.Shows (Function.update map key entry) now other first ↔
      map.Shows now other first := by
  unfold ExpiringMap.Shows
  rw [Function.update_of_ne elsewhere]

theorem not_shows_update_none {first : Nat} :
    ¬ ExpiringMap.Shows (Function.update map key none) now key first := by
  intro shown
  obtain ⟨_, entry, -⟩ := shown
  rw [Function.update_self] at entry
  cases entry

/-- **Renewing** keeps the stamp of the member, and so its place. -/
theorem Represents.renew (represents : Represents leases map now)
    (shown : map.Shows now key stamp) :
    Represents (leases.renew key deadline)
      (Function.update map key (some (stamp, deadline))) now := by
  have sooner : ∀ {other first}, ExpiringMap.Shows
      (Function.update map key (some (stamp, deadline))) now other first →
        map.Shows now other first := by
    intro other first shownLater
    by_cases here : other = key
    · subst here
      rw [shows_update_self shownLater]
      exact shown
    · exact (shows_update_of_ne here).mp shownLater
  refine ⟨?_, ?_, ?_⟩
  · rw [keys_renew]
    exact represents.distinct
  · intro other ends ahead
    by_cases here : other = key
    · subst here
      obtain ⟨old, entry, running⟩ := shown
      have listed := (represents.entries other old running).mpr ⟨stamp, entry⟩
      rw [Function.update_self]
      constructor
      · intro member
        obtain ⟨lease, -, same⟩ := List.mem_map.mp member
        by_cases renewed : lease.1 = other
        · rw [if_pos renewed] at same
          exact ⟨stamp, by rw [(Prod.mk.inj same).2]⟩
        · rw [if_neg renewed] at same
          exact absurd (congrArg Prod.fst same) renewed
      · intro found
        obtain ⟨_, same⟩ := found
        obtain ⟨-, rfl⟩ := Prod.mk.inj (Option.some.inj same)
        exact List.mem_map.mpr ⟨_, listed, if_pos rfl⟩
    · rw [Function.update_of_ne here, ← represents.entries other ends ahead]
      constructor
      · intro member
        obtain ⟨lease, listed, same⟩ := List.mem_map.mp member
        by_cases renewed : lease.1 = key
        · rw [if_pos renewed] at same
          exact absurd (congrArg Prod.fst same).symm here
        · rw [if_neg renewed] at same
          rwa [← same]
      · intro listed
        exact List.mem_map.mpr ⟨_, listed, if_neg here⟩
  · refine List.pairwise_map.mpr (represents.ordered.imp ?_)
    intro earlier later increasing first second shownFirst shownSecond
    rw [renew_fst] at shownFirst shownSecond
    exact increasing first second (sooner shownFirst) (sooner shownSecond)

/-- **Joining** at the end, under a stamp later than all others. -/
theorem Represents.append (represents : Represents leases map now) (fresh : key ∉ leases.keys)
    (newest : ∀ other first, map.Shows now other first → first < stamp) :
    Represents (leases ++ [(key, deadline)])
      (Function.update map key (some (stamp, deadline))) now := by
  have elsewhere : ∀ lease ∈ leases, lease.1 ≠ key := by
    intro lease listed same
    exact fresh (List.mem_map.mpr ⟨lease, listed, same⟩)
  refine ⟨?_, ?_, ?_⟩
  · rw [keys, List.map_append]
    exact List.nodup_append'.mpr ⟨represents.distinct, List.nodup_singleton _,
      List.disjoint_singleton.mpr fresh⟩
  · intro other ends ahead
    rw [List.mem_append, List.mem_singleton]
    by_cases here : other = key
    · subst here
      rw [Function.update_self]
      constructor
      · rintro (listed | same)
        · exact absurd rfl (elsewhere _ listed)
        · exact ⟨stamp, by rw [(Prod.mk.inj same).2]⟩
      · intro found
        obtain ⟨_, same⟩ := found
        exact .inr (by rw [(Prod.mk.inj (Option.some.inj same)).2])
    · rw [Function.update_of_ne here, ← represents.entries other ends ahead]
      exact or_iff_left fun same => here (Prod.mk.inj same).1
  · refine List.pairwise_append.mpr ⟨?_, List.pairwise_singleton _ _, ?_⟩
    · refine represents.ordered.imp_of_mem ?_
      intro earlier later listed alsoListed increasing first second shownFirst shownSecond
      rw [shows_update_of_ne (elsewhere _ listed)] at shownFirst
      rw [shows_update_of_ne (elsewhere _ alsoListed)] at shownSecond
      exact increasing first second shownFirst shownSecond
    · intro earlier listed later member first second shownFirst shownSecond
      rw [List.mem_singleton.mp member] at shownSecond
      rw [shows_update_of_ne (elsewhere _ listed)] at shownFirst
      rw [shows_update_self shownSecond]
      exact newest _ _ shownFirst

/-- **Leaving**, whether or not the lease had ended. -/
theorem Represents.drop (represents : Represents leases map now) (key : Key) :
    Represents (leases.drop key) (Function.update map key none) now := by
  refine ⟨(List.filter_sublist.map Prod.fst).nodup represents.distinct, ?_, ?_⟩
  · intro other ends ahead
    rw [LeaseList.drop, List.mem_filter, decide_eq_true_iff]
    by_cases here : other = key
    · subst here
      simp
    · rw [Function.update_of_ne here, ← represents.entries other ends ahead]
      exact and_iff_left here
  · refine (represents.ordered.filter _).imp ?_
    intro earlier later increasing first second shownFirst shownSecond
    have firstKept : earlier.1 ≠ key := fun same => not_shows_update_none (same ▸ shownFirst)
    have secondKept : later.1 ≠ key := fun same => not_shows_update_none (same ▸ shownSecond)
    exact increasing first second ((shows_update_of_ne firstKept).mp shownFirst)
      ((shows_update_of_ne secondKept).mp shownSecond)

/-! ## Lists that differ in what has ended -/

/-- The first list lacks some leases of the second that have ended, and nothing else. -/
structure Trims (trimmed leases : LeaseList Key Time) (now : Time) : Prop where
  sublist : trimmed.Sublist leases
  running : trimmed.prune now = leases.prune now

variable {trimmed : LeaseList Key Time}

omit [DecidableEq Key] in
/-- What runs later runs now. -/
theorem prune_prune {early late : Time} (order : early ≤ late) :
    (leases.prune early).prune late = leases.prune late := by
  rw [prune, prune, prune, List.filter_filter]
  refine List.filter_congr fun lease _ => ?_
  rw [← Bool.decide_and]
  exact decide_eq_decide.mpr (and_iff_left_of_imp (WithTop.coe_le_coe.mpr order).trans_lt)

theorem prune_drop (key : Key) : (leases.drop key).prune now = (leases.prune now).drop key := by
  rw [prune, drop, drop, prune, List.filter_filter, List.filter_filter]
  exact List.filter_congr fun lease _ => Bool.and_comm _ _

omit [DecidableEq Key] in
theorem Trims.mono {early late : Time} (order : early ≤ late)
    (trims : Trims trimmed leases early) : Trims trimmed leases late := by
  refine ⟨trims.sublist, ?_⟩
  rw [← prune_prune order, trims.running, prune_prune order]

omit [DecidableEq Key] in
/-- Pruning the first list keeps it so. -/
theorem Trims.prune (trims : Trims trimmed leases now) :
    Trims (trimmed.prune now) leases now :=
  ⟨List.filter_sublist.trans trims.sublist, (prune_prune le_rfl).trans trims.running⟩

theorem Trims.drop (trims : Trims trimmed leases now) (key : Key) :
    Trims (trimmed.drop key) (leases.drop key) now := by
  refine ⟨trims.sublist.filter _, ?_⟩
  rw [prune_drop, prune_drop, trims.running]

omit [DecidableEq Key] in
/-- A member whose lease has not ended is in both lists or in none. -/
theorem Trims.mem_keys_iff (trims : Trims trimmed leases now)
    (fresh : ∀ deadline, (key, deadline) ∈ leases → (now : WithTop Time) < deadline) :
    key ∈ trimmed.keys ↔ key ∈ leases.keys := by
  constructor
  · intro member
    exact (trims.sublist.map Prod.fst).subset member
  · intro member
    obtain ⟨⟨_, deadline⟩, listed, rfl⟩ := List.mem_map.mp member
    have running : (_, deadline) ∈ leases.prune now :=
      List.mem_filter.mpr ⟨listed, decide_eq_true (fresh deadline listed)⟩
    rw [← trims.running] at running
    exact List.mem_map.mpr ⟨_, (List.mem_filter.mp running).1, rfl⟩

end LeaseList

end InfraFromScratch.Foundations
