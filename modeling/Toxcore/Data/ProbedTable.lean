import Mathlib.Data.Nat.Prime.Basic
import Mathlib.Logic.Function.Basic

/-!
# Tables that look for a key at its places

Every key has some places at which it may stand in a table, and is looked for there alone. If keys are put only at
their places, and only where they are not found, then what is stored is found, and no key is stored twice.
-/

namespace ProbedTable

open Function

variable {κ ι : Type*} (places : κ → List ι)

/-- Keys stand at their places, and no key at two. -/
structure Sound (keyAt : ι → Option κ) : Prop where
  placed : ∀ {place key}, keyAt place = some key → place ∈ places key
  distinct : ∀ {place other key}, keyAt place = some key → keyAt other = some key → place = other

variable {places} {keyAt : ι → Option κ}

/-- An empty table. -/
theorem Sound.empty : Sound places fun _ => none := ⟨nofun, nofun⟩

variable [DecidableEq κ]

/-- The place at which a key is found. -/
def lookup (places : κ → List ι) (keyAt : ι → Option κ) (key : κ) : Option ι :=
  (places key).find? fun place => keyAt place = some key

/-- What is found is stored, at one of its places. -/
theorem lookup_some {key : κ} {place : ι} (h : lookup places keyAt key = some place) : place ∈ places key ∧
    keyAt place = some key := by
  have hstored := List.find?_some h
  exact ⟨List.mem_of_find?_eq_some h, of_decide_eq_true hstored⟩

/-- What is not found is not stored. -/
theorem Sound.lookup_none (h : Sound places keyAt) {key : κ} (hnone : lookup places keyAt key = none) (place : ι) :
    keyAt place ≠ some key := by
  intro hstored
  exact List.find?_eq_none.mp hnone place (h.placed hstored) (decide_eq_true hstored)

/-- A key is found if and only if it is stored. -/
theorem Sound.lookup_isSome (h : Sound places keyAt) {key : κ} : (lookup places keyAt key).isSome ↔
    ∃ place, keyAt place = some key := by
  refine ⟨fun hfound => ?_, fun ⟨place, hstored⟩ => ?_⟩
  · obtain ⟨place, hplace⟩ := Option.isSome_iff_exists.mp hfound
    exact ⟨place, (lookup_some hplace).2⟩
  · rw [Option.isSome_iff_ne_none]
    exact fun hnone => h.lookup_none hnone place hstored

variable [DecidableEq ι]

/-- A key that is not found is put at one of its places, over whatever stands there. -/
theorem Sound.put (h : Sound places keyAt) {key : κ} (hnone : lookup places keyAt key = none) {place : ι}
    (hplace : place ∈ places key) :
    Sound places (update keyAt place (some key)) := by
  have hnew := h.lookup_none hnone
  constructor
  · intro other found hfound
    by_cases hother : other = place
    · subst hother
      rw [update_self] at hfound
      rwa [← Option.some.inj hfound]
    · rw [update_of_ne hother] at hfound
      exact h.placed hfound
  · intro first second found hfirst hsecond
    by_cases hput : found = key
    · subst hput
      have hplaced {other : ι} (hother : update keyAt place (some found) other = some found) : other = place := by
        by_contra hne
        rw [update_of_ne hne] at hother
        exact hnew other hother
      exact (hplaced hfirst).trans (hplaced hsecond).symm
    · have hkept {other : ι} (hother : update keyAt place (some key) other = some found) : keyAt other =
        some found := by
        have hne : other ≠ place := by
          rintro rfl
          rw [update_self] at hother
          exact hput (Option.some.inj hother).symm
        rwa [update_of_ne hne] at hother
      exact h.distinct (hkept hfirst) (hkept hsecond)

/-- Multiplying goes from a place to another one, but not to 0, where the number of places is prime. -/
theorem mul_mod_ne_zero {size factor : ℕ} (hsize : size.Prime) (hfactor : factor % size ≠ 0) {place : ℕ}
    (hplace : place % size ≠ 0) :
    place * factor % size ≠ 0 := by
  intro hzero
  rcases (hsize.dvd_mul).mp (Nat.dvd_of_mod_eq_zero hzero) with hdvd | hdvd
  · exact hplace (Nat.mod_eq_zero_of_dvd hdvd)
  · exact hfactor (Nat.mod_eq_zero_of_dvd hdvd)

end ProbedTable
