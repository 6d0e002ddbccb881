import Mathlib.Data.Nat.Notation
import Mathlib.Logic.Function.Basic

/-!
# Counting the holders of resources

A resource that is there has a lock count, which is one less than the number of its holders: whoever makes it holds it
without a lock. Taking a hold makes the resource or locks it once more, and letting go takes a lock away, or the
resource with the last hold.
-/

namespace ReferenceCounts

open Function

variable {ι : Type*} {locks locks' : ι → Option ℕ} {holders holders' : ι → ℕ} {i : ι} {k : ℕ}

/-- How many holders a lock count stands for. There are none of a resource that is not there. -/
def uses : Option ℕ → ℕ
  | none => 0
  | some k => k + 1

/-- The lock count with one hold more. -/
def acquire : Option ℕ → Option ℕ
  | none => some 0
  | some k => some (k + 1)

/-- The lock count with one hold less. -/
def release : Option ℕ → Option ℕ
  | none => none
  | some 0 => none
  | some (k + 1) => some k

/-- A reference more. -/
theorem uses_acquire (count : Option ℕ) : uses (acquire count) = uses count + 1 := by
  cases count <;> rfl

/-- A reference less. -/
theorem uses_release (count : Option ℕ) : uses (release count) = uses count - 1 := by
  cases count with
  | none => rfl
  | some k => cases k <;> rfl

/-- What is there is in use. -/
theorem uses_pos_iff (count : Option ℕ) : 0 < uses count ↔ count ≠ none := by
  cases count <;> simp [uses]

/-- The lock counts stand for the holders there are. -/
def Counted (locks : ι → Option ℕ) (holders : ι → ℕ) : Prop := ∀ i, uses (locks i) = holders i

namespace Counted

/-- A resource is there exactly as long as it has a holder. -/
theorem there_iff (h : Counted locks holders) (i : ι) : locks i ≠ none ↔ 0 < holders i := by
  rw [← h i]
  exact (uses_pos_iff (locks i)).symm

/-- The lock count of a resource that is there is one less than the number of its holders. -/
theorem count (h : Counted locks holders) (hi : locks i = some k) : k + 1 = holders i := by
  rw [← h i, hi]
  rfl

variable [DecidableEq ι]

/-- A hold is taken. -/
theorem acquire (h : Counted locks holders) (hlocks : locks' = update locks i (acquire (locks i)))
    (hholders : ∀ j, holders' j = holders j + if i = j then 1 else 0) : Counted locks' holders' := by
  intro j
  rw [hlocks, hholders, ← h j]
  by_cases hj : i = j
  · subst hj
    rw [update_self, uses_acquire, if_pos rfl]
  · rw [update_of_ne (Ne.symm hj), if_neg hj]
    rfl

/-- A hold is let go. -/
theorem release (h : Counted locks holders) (hlocks : locks' = update locks i (release (locks i)))
    (hholders : ∀ j, holders' j + (if i = j then 1 else 0) = holders j) : Counted locks' holders' := by
  intro j
  have hj := hholders j
  rw [← h j] at hj
  rw [hlocks]
  by_cases hij : i = j
  · subst hij
    rw [if_pos rfl] at hj
    rw [update_self, uses_release]
    omega
  · rw [if_neg hij] at hj
    rw [update_of_ne (Ne.symm hij)]
    exact hj.symm

end Counted

end ReferenceCounts
