import InfraFromScratch.LoadBalancer.Connection

/-!
# The index of the selected backend in 64-bit arithmetic

`handleConnection` in `load-balancer/server.go` converts the counter of the round robin to `int`
before it takes the remainder, and adds the offset of the loop before it takes the remainder
again. `selectedIndex` has this with integers of any size; here it is computed in words, with
conversions and additions that wrap.

A counter of `2 ^ 63` or more becomes a negative number, and so does its remainder unless it is
zero. A sum of `2 ^ 63` or more becomes negative as well, but no length up to `2 ^ 62` gets there.
Everywhere else the offsets visit each position of the snapshot once (`visitsEach_iff`).
-/

set_option autoImplicit false

namespace InfraFromScratch.LoadBalancer

open Foundations

/-- `(initialIndex+offset)%len(backends)`, with the `initialIndex` of the counter. -/
def indexWord (selection : UInt64) (size offset : Nat) : Int64 :=
  (selection.toInt64 % Int64.ofNat size + Int64.ofNat offset) % Int64.ofNat size

/-- The index is in range at every offset of the loop, and the offsets visit every position
exactly once. -/
structure VisitsEach (selection : UInt64) (size : Nat) : Prop where
  inRange : ∀ offset < size,
    0 ≤ (indexWord selection size offset).toInt ∧ (indexWord selection size offset).toInt < size
  once : ∀ position < size,
    ∃! offset, offset < size ∧ (indexWord selection size offset).toInt = position

section Index

variable {selection : UInt64} {size offset : Nat}

/-- The index, with the only operation that may wrap. -/
theorem toInt_indexWord (fits : size < 2 ^ 63) (inside : offset < size) :
    (indexWord selection size offset).toInt =
      ((initialIndex selection size + offset).bmod (2 ^ 64)).tmod size := by
  rw [indexWord, Int64.toInt_mod, Int64.toInt_add, Int64.toInt_mod,
    Int64.toInt_ofNat_of_lt fits, Int64.toInt_ofNat_of_lt (inside.trans fits)]
  rfl

theorem initialIndex_lt (positive : 0 < size) : initialIndex selection size < size :=
  Int.tmod_lt_of_pos _ (Int.natCast_pos.mpr positive)

theorem neg_lt_initialIndex (positive : 0 < size) : -(size : Int) < initialIndex selection size :=
  Int.lt_tmod_of_pos _ (Int.natCast_pos.mpr positive)

/-- A sum that fits is not changed. -/
theorem toInt_indexWord_of_lt (positive : 0 < size) (fits : size < 2 ^ 63) (inside : offset < size)
    (room : initialIndex selection size + offset < 2 ^ 63) :
    (indexWord selection size offset).toInt = selectedIndex selection size offset := by
  have above : -(size : Int) < initialIndex selection size := neg_lt_initialIndex positive
  have kept : (initialIndex selection size + offset).bmod (2 ^ 64) =
      initialIndex selection size + offset := by
    apply Int.bmod_eq_of_le
    · omega
    · omega
  rw [toInt_indexWord fits inside, kept, selectedIndex]

/-- Up to a length of `2 ^ 62` the index is the one computed without wrapping. -/
theorem toInt_indexWord_eq (fits : size ≤ 2 ^ 62) (inside : offset < size) :
    (indexWord selection size offset).toInt = selectedIndex selection size offset := by
  have positive : 0 < size := Nat.zero_lt_of_lt inside
  have below : initialIndex selection size < size := initialIndex_lt positive
  exact toInt_indexWord_of_lt positive (by omega) inside (by omega)

/-! ## Where the loop goes -/

/-- From an initial index that is not negative, and where no sum wraps, the loop goes round the
snapshot. -/
theorem toInt_indexWord_of_nonneg (fits : size < 2 ^ 63) (inside : offset < size)
    (nonneg : 0 ≤ initialIndex selection size)
    (room : initialIndex selection size + size ≤ 2 ^ 63) :
    (indexWord selection size offset).toInt =
      turnAt size (initialIndex selection size).toNat offset := by
  have positive : 0 < size := Nat.zero_lt_of_lt inside
  rw [toInt_indexWord_of_lt positive fits inside (by omega), selectedIndex, turnAt]
  nth_rewrite 1 [← Int.toNat_of_nonneg nonneg]
  rw [← Int.natCast_add]
  exact (Int.ofNat_tmod _ _).symm

theorem visitsEach_of_nonneg (fits : size < 2 ^ 63) (nonneg : 0 ≤ initialIndex selection size)
    (room : initialIndex selection size + size ≤ 2 ^ 63) : VisitsEach selection size where
  inRange := by
    intro offset inside
    rw [toInt_indexWord_of_nonneg fits inside nonneg room]
    exact ⟨Int.natCast_nonneg _, Int.ofNat_lt.mpr (turnAt_lt inside _)⟩
  once := by
    intro position inside
    obtain ⟨offset, offsetInside, reached⟩ :=
      exists_turnAt_eq inside (initialIndex selection size).toNat
    refine ⟨offset, ⟨offsetInside, ?_⟩, ?_⟩
    · rw [toInt_indexWord_of_nonneg fits offsetInside nonneg room, reached]
    · rintro other ⟨otherInside, otherReached⟩
      rw [toInt_indexWord_of_nonneg fits otherInside nonneg room, ← reached] at otherReached
      exact turnAt_injective otherInside offsetInside (Int.ofNat_inj.mp otherReached)

/-! ## Where it leaves the snapshot -/

/-- The first index is the initial one. -/
theorem nonneg_of_visitsEach (positive : 0 < size) (fits : size < 2 ^ 63)
    (visits : VisitsEach selection size) : 0 ≤ initialIndex selection size := by
  have below : initialIndex selection size < size := initialIndex_lt positive
  have first := (visits.inRange 0 positive).1
  rw [toInt_indexWord_of_lt positive fits positive (by omega), selectedIndex, Nat.cast_zero,
    add_zero, initialIndex, Int.tmod_tmod] at first
  exact first

/-- A sum of `2 ^ 63` would be in range only for a length that divides it, and with such a
length no sum is that large. -/
theorem room_of_visitsEach (positive : 0 < size) (fits : size < 2 ^ 63)
    (visits : VisitsEach selection size) : initialIndex selection size + size ≤ 2 ^ 63 := by
  have nonneg := nonneg_of_visitsEach positive fits visits
  have below : initialIndex selection size < size := initialIndex_lt positive
  by_contra large
  -- The offset at which the sum is `2 ^ 63`.
  obtain ⟨offset, sum⟩ : ∃ offset : Nat, initialIndex selection size + offset = 2 ^ 63 :=
    ⟨(2 ^ 63 - initialIndex selection size).toNat, by omega⟩
  have inside : offset < size := by omega
  have wrapped : ((2 : Int) ^ 63).bmod (2 ^ 64) = -((2 ^ 63 : Nat) : Int) := by decide
  have index := (visits.inRange offset inside).1
  rw [toInt_indexWord fits inside, sum, wrapped, Int.neg_tmod, ← Int.ofNat_tmod] at index
  have divides : size ∣ 2 ^ 63 := Nat.dvd_of_mod_eq_zero (by omega)
  obtain ⟨factor, product⟩ := divides
  have two : 2 ≤ factor := by
    by_contra small
    interval_cases factor <;> omega
  have half : size * 2 ≤ size * factor := Nat.mul_le_mul_left size two
  omega

/-- **The counters for which the index stays in range.** The offsets visit every position of a
snapshot once iff the counter is still an `int` and no sum of the loop overflows, or the counter
is beyond `int` and its negative value is a multiple of the length. -/
theorem visitsEach_iff (selection : UInt64) (size : Nat) (positive : 1 ≤ size)
    (fits : size < 2 ^ 63) :
    VisitsEach selection size ↔
      (selection.toNat < 2 ^ 63 ∧ selection.toNat % size + size ≤ 2 ^ 63) ∨
        (2 ^ 63 ≤ selection.toNat ∧ size ∣ 2 ^ 64 - selection.toNat) := by
  constructor
  · intro visits
    have nonneg := nonneg_of_visitsEach positive fits visits
    have room := room_of_visitsEach positive fits visits
    by_cases small : selection.toNat < 2 ^ 63
    · rw [initialIndex_of_small small] at room
      exact .inl ⟨small, by omega⟩
    · rw [initialIndex_of_large (not_lt.mp small)] at nonneg
      exact .inr ⟨not_lt.mp small, Nat.dvd_of_mod_eq_zero (by omega)⟩
  · rintro (⟨small, room⟩ | ⟨large, divides⟩)
    · have index := initialIndex_of_small small size
      exact visitsEach_of_nonneg fits (by omega) (by omega)
    · have index : initialIndex selection size = 0 := by
        rw [initialIndex_of_large large, Nat.mod_eq_zero_of_dvd divides]
        rfl
      exact visitsEach_of_nonneg fits (by omega) (by omega)

/-- The first counter beyond `int` divides by two backends, and not by three. -/
theorem visitsEach_two_of_overflow :
    VisitsEach 9223372036854775808 2 ∧ ¬ VisitsEach 9223372036854775808 3 :=
  ⟨(visitsEach_iff 9223372036854775808 2 (by decide) (by decide)).mpr (by decide),
    mt (visitsEach_iff 9223372036854775808 3 (by decide) (by decide)).mp (by decide)⟩

/-- With three backends, the first counter beyond `int` selects index -2. -/
theorem indexWord_negative :
    (indexWord 9223372036854775808 3 0).toInt = -2 ∧ ¬ VisitsEach 9223372036854775808 3 := by
  have index : (indexWord 9223372036854775808 3 0).toInt = -2 := by decide
  refine ⟨index, fun visits => ?_⟩
  have inRange := (visits.inRange 0 (by decide)).1
  rw [index] at inRange
  exact absurd inRange (by decide)

end Index

end InfraFromScratch.LoadBalancer
