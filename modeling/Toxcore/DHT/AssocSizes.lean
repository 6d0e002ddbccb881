import Mathlib.Data.Nat.Prime.Basic
import Mathlib.Tactic.IntervalCases
import Mathlib.Tactic.NormNum.Prime

/-!
# Sizes of the association cache

`new_Assoc` trims the size of a bucket to a prime other than `HASH_COLLIDE_PRIME`, so that multiplying positions by
that prime does not lead to 0.
-/

namespace Toxcore

/-- `HASH_COLLIDE_PRIME`. -/
abbrev hashCollidePrime : ℕ := 101

/-! ## Primes -/

/-- The loop of `odd_min9_is_prime`. -/
def oddMin9IsPrimeLoop (value i : ℕ) : Bool :=
  if h : 0 < i ∧ i * i ≤ value then
    if value % i = 0 then false else oddMin9IsPrimeLoop value (i + 2)
  else true
termination_by value + 1 - i
decreasing_by
  have hle : i ≤ value := (Nat.le_mul_of_pos_left i h.1).trans h.2
  omega

/-- `odd_min9_is_prime`. -/
def oddMin9IsPrime (value : ℕ) : Bool := oddMin9IsPrimeLoop value 3

/-- The loop tells whether an odd number has no divisor from an odd number on, where it has none below. -/
theorem oddMin9IsPrimeLoop_eq {value i : ℕ} (hvalue : value % 2 = 1) (hmin : 2 ≤ value) (hi : i % 2 = 1) (hpos : 3 ≤ i)
    (hnone : ∀ d, 2 ≤ d → d < i → ¬d ∣ value) : oddMin9IsPrimeLoop value i = true ↔ value.Prime := by
  induction hn : value + 1 - i using Nat.strong_induction_on generalizing i with
  | _ n ih =>
    rw [oddMin9IsPrimeLoop]
    by_cases hgoes : 0 < i ∧ i * i ≤ value
    · rw [dif_pos hgoes]
      have hle : i ≤ value := (Nat.le_mul_of_pos_left i hgoes.1).trans hgoes.2
      by_cases hdvd : value % i = 0
      · rw [if_pos hdvd]
        refine iff_of_false Bool.false_ne_true fun hprime => ?_
        have hlt : i < value := lt_of_lt_of_le (Nat.lt_mul_self_iff.mpr (by omega)) hgoes.2
        rcases (Nat.dvd_prime hprime).mp (Nat.dvd_of_mod_eq_zero hdvd) with hone | hall <;> omega
      · rw [if_neg hdvd]
        refine ih (value + 1 - (i + 2)) (by omega) (by omega) (by omega) (fun d hd hlt hno => ?_) rfl
        by_cases hsmall : d < i
        · exact hnone d hd hsmall hno
        · by_cases hsame : d = i
          · exact hdvd (Nat.mod_eq_zero_of_dvd (hsame ▸ hno))
          · have htwo : 2 ∣ value := (show 2 ∣ d by omega).trans hno
            omega
    · rw [dif_neg hgoes]
      refine iff_of_true rfl (Nat.prime_def_le_sqrt.mpr ⟨hmin, fun d hd hsqrt => hnone d hd ?_⟩)
      by_contra hlarge
      refine hgoes ⟨by omega, ?_⟩
      exact (Nat.mul_le_mul (not_lt.mp hlarge) (not_lt.mp hlarge)).trans (Nat.le_sqrt.mp hsqrt)

/-- `odd_min9_is_prime` tells whether an odd number is prime. -/
theorem oddMin9IsPrime_eq {value : ℕ} (hvalue : value % 2 = 1) (hmin : 2 ≤ value) : oddMin9IsPrime value = true ↔
    value.Prime := by
  refine oddMin9IsPrimeLoop_eq hvalue hmin rfl le_rfl fun d hd hlt hno => ?_
  obtain rfl : d = 2 := by omega
  omega

/-- The loop of `prime_upto_min9`. -/
def primeUptoMin9Loop (limit : ℕ) : ℕ :=
  if h : oddMin9IsPrime limit = false then primeUptoMin9Loop (limit - 2) else limit
termination_by limit
decreasing_by
  have hlarge : 2 ≤ limit := by
    by_contra hsmall
    have hcases : limit = 0 ∨ limit = 1 := by omega
    rcases hcases with rfl | rfl <;> (rw [oddMin9IsPrime, oddMin9IsPrimeLoop] at h; exact absurd h (by decide))
  omega

/-- `prime_upto_min9`. -/
def primeUptoMin9 (limit : ℕ) : ℕ := primeUptoMin9Loop (limit - (1 - limit % 2))

/-- The loop finds a prime, from an odd number on that is not less than 23. -/
theorem primeUptoMin9Loop_spec {limit : ℕ} (hodd : limit % 2 = 1) (hmin : 23 ≤ limit) :
    (primeUptoMin9Loop limit).Prime ∧ 23 ≤ primeUptoMin9Loop limit ∧ primeUptoMin9Loop limit ≤ limit := by
  induction limit using Nat.strong_induction_on with
  | _ limit ih =>
    rw [primeUptoMin9Loop]
    by_cases hprime : oddMin9IsPrime limit = false
    · rw [dif_pos hprime]
      have hne : limit ≠ 23 := by
        rintro rfl
        have hyes : oddMin9IsPrime 23 = true := (oddMin9IsPrime_eq rfl (by omega)).mpr (by norm_num)
        exact Bool.false_ne_true (hprime.symm.trans hyes)
      obtain ⟨hfound, hlow, hle⟩ := ih (limit - 2) (by omega) (by omega) (by omega)
      exact ⟨hfound, hlow, hle.trans (Nat.sub_le limit 2)⟩
    · rw [dif_neg hprime]
      exact ⟨(oddMin9IsPrime_eq hodd (by omega)).mp (Bool.eq_true_of_not_eq_false hprime), hmin, le_rfl⟩

/-- `prime_upto_min9` finds a prime that is not greater. -/
theorem primeUptoMin9_spec {limit : ℕ} (hmin : 24 ≤ limit) :
    (primeUptoMin9 limit).Prime ∧ 23 ≤ primeUptoMin9 limit ∧ primeUptoMin9 limit ≤ limit := by
  obtain ⟨hprime, hlow, hle⟩ := primeUptoMin9Loop_spec (by omega : (limit - (1 - limit % 2)) % 2 = 1) (by omega)
  exact ⟨hprime, hlow, hle.trans (Nat.sub_le _ _)⟩

/-! ## Sizes -/

/-- `candidates_bucket_bits` and `candidates_bucket_size` of an `Assoc`, which do not change after `new_Assoc`. -/
structure AssocSizes where
  bucketBits : ℕ
  bucketSize : ℕ
  bits_bounds : 2 ≤ bucketBits ∧ bucketBits ≤ 15
  size_prime : bucketSize.Prime
  size_ne : bucketSize ≠ hashCollidePrime
  size_bounds : 5 ≤ bucketSize ∧ bucketSize ≤ 2 ^ 17 - 1

/-- The number of bits of a bucket in `new_Assoc`. -/
def trimBits (bits : ℕ) : ℕ := if bits < 2 then 2 else if bits > 15 then 15 else bits

/-- The size of a bucket in `new_Assoc`. -/
def trimEntries (entries : ℕ) : ℕ :=
  if entries < 25 then
    if entries ≤ 6 then 5
    else
      let entries := entries - (1 - entries % 2)
      if entries % 3 = 0 then entries - 2 else entries
  else if entries > 2 ^ 17 - 1 then 2 ^ 17 - 1
  else
    let entriesTest := primeUptoMin9 entries
    if entriesTest = hashCollidePrime then primeUptoMin9 (entriesTest - 1) else entriesTest

theorem trimBits_bounds (bits : ℕ) : 2 ≤ trimBits bits ∧ trimBits bits ≤ 15 := by
  unfold trimBits
  split_ifs <;> omega

/-- A size is a prime other than `HASH_COLLIDE_PRIME`, from 5 to 131071. -/
theorem trimEntries_spec (entries : ℕ) : (trimEntries entries).Prime ∧ trimEntries entries ≠ hashCollidePrime ∧
    5 ≤ trimEntries entries ∧ trimEntries entries ≤ 2 ^ 17 - 1 := by
  rw [trimEntries]
  by_cases hsmall : entries < 25
  · rw [if_pos hsmall]
    by_cases hsix : entries ≤ 6
    · rw [if_pos hsix]
      norm_num
    · rw [if_neg hsix]
      interval_cases entries <;> norm_num
  · rw [if_neg hsmall]
    by_cases hlarge : entries > 2 ^ 17 - 1
    · rw [if_pos hlarge]
      norm_num
    · rw [if_neg hlarge]
      obtain ⟨hprime, hlow, hle⟩ := primeUptoMin9_spec (by omega : 24 ≤ entries)
      by_cases hdisallowed : primeUptoMin9 entries = hashCollidePrime
      · dsimp only
        rw [if_pos hdisallowed, hdisallowed]
        obtain ⟨hprime', hlow', hle'⟩ := primeUptoMin9_spec (by norm_num : 24 ≤ hashCollidePrime - 1)
        exact ⟨hprime', by omega, by omega, by omega⟩
      · dsimp only
        rw [if_neg hdisallowed]
        exact ⟨hprime, hdisallowed, by omega, by omega⟩

/-- The sizes that `new_Assoc` makes of its arguments. -/
def AssocSizes.trim (bits entries : ℕ) : AssocSizes where
  bucketBits := trimBits bits
  bucketSize := trimEntries entries
  bits_bounds := trimBits_bounds bits
  size_prime := (trimEntries_spec entries).1
  size_ne := (trimEntries_spec entries).2.1
  size_bounds := (trimEntries_spec entries).2.2

end Toxcore
