import Mathlib.Algebra.GroupWithZero.Nat
import Mathlib.Data.List.FinRange
import Mathlib.Data.List.NodupEquivFin
import Mathlib.Data.List.Sort

/-!
# Tables that a library sorts

A table is sorted by a library function that gets a comparison. The order it leaves equal entries in is not known.
Where stale entries are alike and come before all others, the first entry of a sorted table is a stale one if there is
one, and the least one otherwise.
-/

namespace SortedTables

variable {α : Type*} {n : ℕ}

/-- A sort of tables: the permutation for a comparison and a table. -/
abbrev TableSort (α : Type*) (n : ℕ) := (α → α → Ordering) → (Fin n → α) → Equiv.Perm (Fin n)

/-- No entry of the table is above a later one. -/
def SortedBy (cmp : α → α → Ordering) (table : Fin n → α) : Prop :=
  ∀ i j, i ≤ j → (cmp (table i) (table j)).isLE

/-- The sort sorts by every consistent comparison. -/
def Sorts (sort : TableSort α n) : Prop :=
  ∀ (cmp : α → α → Ordering) [Std.TransCmp cmp] (table : Fin n → α), SortedBy cmp (table ∘ sort cmp table)

/-! ## Stale entries first -/

/-- Stale entries first and alike, the others as by `cmp`. -/
def staleFirst (stale : α → Bool) (cmp : α → α → Ordering) (x y : α) : Ordering :=
  if stale x && stale y then .eq
  else if stale x then .lt
  else if stale y then .gt
  else cmp x y

/-- Farther ones before closer ones. -/
def farther (dist : α → ℕ) (x y : α) : Ordering := compareOn dist y x

instance (dist : α → ℕ) : Std.TransCmp (farther dist) :=
  inferInstanceAs (Std.TransCmp fun x y => compareOn dist y x)

theorem isLE_farther {dist : α → ℕ} {x y : α} : (farther dist x y).isLE ↔ dist y ≤ dist x := Nat.isLE_compare

section StaleFirst

variable {stale : α → Bool} {cmp : α → α → Ordering}

theorem staleFirst_live {x y : α} (hx : stale x = false)
    (hy : stale y = false) : staleFirst stale cmp x y = cmp x y := by
  simp [staleFirst, hx, hy]

theorem staleFirst_stale_left {x y : α} (hx : stale x = true) : (staleFirst stale cmp x y).isLE := by
  cases hy : stale y <;> simp [staleFirst, hx, hy]

theorem staleFirst_stale_right {x y : α} (hy : stale y = true) : (staleFirst stale cmp x y).isLE ↔ stale x = true := by
  cases hx : stale x <;> simp [staleFirst, hx, hy]

instance [Std.TransCmp cmp] : Std.TransCmp (staleFirst stale cmp) where
  eq_swap {x y} := by
    cases hx : stale x <;> cases hy : stale y <;> simp [staleFirst, hx, hy]
    exact Std.OrientedCmp.eq_swap
  isLE_trans {x y z} hxy hyz := by
    cases hx : stale x with
    | true => exact staleFirst_stale_left hx
    | false =>
      have hy : stale y = false := by
        by_contra hy
        rw [Bool.not_eq_false] at hy
        exact absurd ((staleFirst_stale_right hy).mp hxy) (by simp [hx])
      have hz : stale z = false := by
        by_contra hz
        rw [Bool.not_eq_false] at hz
        exact absurd ((staleFirst_stale_right hz).mp hyz) (by simp [hy])
      rw [staleFirst_live hx hy] at hxy
      rw [staleFirst_live hy hz] at hyz
      rw [staleFirst_live hx hz]
      exact Std.TransCmp.isLE_trans hxy hyz

variable [NeZero n] {table : Fin n → α}

/-- If some entry of a sorted table is stale, the first one is. -/
theorem SortedBy.first_stale (h : SortedBy (staleFirst stale cmp) table) {j : Fin n} (hj : stale (table j) = true) :
    stale (table 0) = true :=
  (staleFirst_stale_right hj).mp (h 0 j (Fin.le_def.mpr (Nat.zero_le j.val)))

/-- If no entry of a sorted table is stale, the first one is the least. -/
theorem SortedBy.first_le (h : SortedBy (staleFirst stale cmp) table) (hlive : ∀ j, stale (table j) = false)
    (j : Fin n) :
    (cmp (table 0) (table j)).isLE := by
  have hfirst := h 0 j (Fin.le_def.mpr (Nat.zero_le j.val))
  rwa [staleFirst_live (hlive 0) (hlive j)] at hfirst

variable {order : Equiv.Perm (Fin n)}

/-- If some entry is stale, sorting brings a stale one to the front. -/
theorem SortedBy.order_stale (h : SortedBy (staleFirst stale cmp) (table ∘ order)) {j : Fin n}
    (hj : stale (table j) = true) :
    stale (table (order 0)) = true := by
  apply h.first_stale (j := order.symm j)
  rw [Function.comp_apply, Equiv.apply_symm_apply]
  exact hj

/-- If no entry is stale, sorting brings the least one to the front. -/
theorem SortedBy.order_le (h : SortedBy (staleFirst stale cmp) (table ∘ order)) (hlive : ∀ j, stale (table j) = false)
    (j : Fin n) : (cmp (table (order 0)) (table j)).isLE := by
  have hle := h.first_le (fun j => hlive (order j)) (order.symm j)
  rw [Function.comp_apply, Function.comp_apply, Equiv.apply_symm_apply] at hle
  exact hle

end StaleFirst

/-! ## A sort -/

/-- The indices of a table in the order of its entries. -/
def sortedIndices (cmp : α → α → Ordering) (table : Fin n → α) : List (Fin n) :=
  (List.finRange n).insertionSort fun i j => (cmp (table i) (table j)).isLE = true

/-- All indices are sorted. -/
theorem sortedIndices_perm (cmp : α → α → Ordering) (table : Fin n → α) :
    (sortedIndices cmp table).Perm (List.finRange n) :=
  List.perm_insertionSort _ _

theorem sortedIndices_length (cmp : α → α → Ordering) (table : Fin n → α) : (sortedIndices cmp table).length = n := by
  rw [(sortedIndices_perm cmp table).length_eq, List.length_finRange]

/-- Sorting a table by insertion. -/
def insertionSort : TableSort α n := fun cmp table =>
  (finCongr (sortedIndices_length cmp table).symm).trans
    (((sortedIndices_perm cmp table).nodup_iff.mpr (List.nodup_finRange n)).getEquivOfForallMemList _
      fun i => (sortedIndices_perm cmp table).mem_iff.mpr (List.mem_finRange i))

/-- Insertion sort sorts. -/
theorem insertionSort_sorts : Sorts (insertionSort (α := α) (n := n)) := by
  intro cmp _ table i j hij
  have htotal : Std.Total fun i j => (cmp (table i) (table j)).isLE = true := by
    constructor
    intro i j
    cases hle : (cmp (table i) (table j)).isLE with
    | true => exact .inl rfl
    | false =>
      have hlt : cmp (table j) (table i) = .lt := Std.OrientedCmp.lt_of_not_isLE (Bool.not_eq_true _ ▸ hle)
      exact .inr (Ordering.isLE_of_eq_lt hlt)
  have htrans : IsTrans (Fin n) fun i j => (cmp (table i) (table j)).isLE = true :=
    ⟨fun _ _ _ => Std.TransCmp.isLE_trans⟩
  have hsorted := List.pairwise_insertionSort (fun i j => (cmp (table i) (table j)).isLE = true) (List.finRange n)
  rcases hij.lt_or_eq with hlt | rfl
  · exact List.pairwise_iff_get.mp hsorted _ _ hlt
  · exact Std.ReflCmp.isLE_rfl

end SortedTables
