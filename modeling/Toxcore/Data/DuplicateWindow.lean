import Mathlib.Algebra.GroupWithZero.Nat
import Mathlib.Data.Set.Insert
import Mathlib.Logic.Function.Basic

/-!
# Windows that remember what was seen

Numbers arrive in any order, and a ring of slots remembers which of the last `size` numbers up to the top one were
seen. The top number advances; the slots of the numbers that leave the window are cleared for those that enter it.
-/

namespace DuplicateWindow

open Function

variable {size : ℕ} [NeZero size]

/-- The slots remember which of the `size` numbers up to `top` were seen, and none above `top` was. -/
structure Remembers (slots : Fin size → Bool) (top : ℕ) (seen : Set ℕ) : Prop where
  slot : ∀ u ≤ top, top < u + size → (slots (Fin.ofNat size u) = true ↔ u ∈ seen)
  le : ∀ u ∈ seen, u ≤ top

theorem ofNat_eq_iff {u v : ℕ} : Fin.ofNat size u = Fin.ofNat size v ↔ u % size = v % size := Fin.ext_iff

/-- Numbers that are less than `size` apart have different slots. -/
theorem ofNat_ne {u v : ℕ} (hlt : u < v) (hclose : v < u + size) : Fin.ofNat size u ≠ Fin.ofNat size v := by
  intro h
  have hmod := ofNat_eq_iff.mp h
  have hdiff : (v - u) % size = 0 := Nat.sub_mod_eq_zero_of_mod_eq hmod.symm
  rw [Nat.mod_eq_of_lt (by omega)] at hdiff
  omega

/-- Clear the slots of `count` numbers from `start` on. -/
def clear (slots : Fin size → Bool) (start count : ℕ) : Fin size → Bool :=
  (List.range count).foldl (fun slots i => update slots (Fin.ofNat size (start + i)) false) slots

theorem clear_succ (slots : Fin size → Bool) (start count : ℕ) :
    clear slots start (count + 1) = update (clear slots start count) (Fin.ofNat size (start + count)) false := by
  rw [clear, List.range_succ, List.foldl_append, List.foldl_cons, List.foldl_nil, clear]

/-- What is still set was set, and is not cleared. -/
theorem clear_eq_true {slots : Fin size → Bool} {start count : ℕ} {x : Fin size} :
    clear slots start count x = true ↔ slots x = true ∧ ∀ i < count, Fin.ofNat size (start + i) ≠ x := by
  induction count with
  | zero => simp [clear]
  | succ count ih =>
    rw [clear_succ]
    by_cases hx : x = Fin.ofNat size (start + count)
    · rw [hx, update_self]
      refine iff_of_false (by simp) ?_
      rintro ⟨-, hkept⟩
      exact hkept count (Nat.lt_succ_self count) rfl
    · rw [update_of_ne hx, ih]
      refine and_congr_right fun _ => ⟨fun hkept i hi => ?_, fun hkept i hi => hkept i (Nat.lt_succ_of_lt hi)⟩
      rcases Nat.lt_succ_iff_lt_or_eq.mp hi with hlt | rfl
      · exact hkept i hlt
      · exact Ne.symm hx

namespace Remembers

variable {slots : Fin size → Bool} {top : ℕ} {seen : Set ℕ}

theorem empty (top : ℕ) : Remembers (fun _ : Fin size => false) top ∅ where
  slot u _ _ := by simp
  le u hu := absurd hu (Set.notMem_empty u)

/-- A number in the window is seen. -/
theorem mark (h : Remembers slots top seen) {u : ℕ} (hle : u ≤ top) (hin : top < u + size) :
    Remembers (update slots (Fin.ofNat size u) true) top (insert u seen) where
  slot v hv hvin := by
    by_cases heq : v = u
    · rw [heq, update_self]
      exact iff_of_true rfl (Set.mem_insert u seen)
    · have hslot : Fin.ofNat size v ≠ Fin.ofNat size u := by
        rcases Nat.lt_or_gt_of_ne heq with hlt | hgt
        · exact ofNat_ne hlt (by omega)
        · exact (ofNat_ne hgt (by omega)).symm
      rw [update_of_ne hslot, h.slot v hv hvin, Set.mem_insert_iff]
      exact (or_iff_right heq).symm
  le v hv := by
    rcases Set.mem_insert_iff.mp hv with rfl | hseen
    · exact hle
    · exact h.le v hseen

/-- The top number advances by less than the window: the slots of the numbers that enter are cleared. -/
theorem advance (h : Remembers slots top seen) {start : ℕ} (count : ℕ)
    (hstart : start % size = (top + 1) % size) : Remembers (clear slots start count) (top + count) seen where
  slot v hv hvin := by
    have hcleared (i : ℕ) : Fin.ofNat size (start + i) = Fin.ofNat size (top + 1 + i) := by
      rw [ofNat_eq_iff, Nat.add_mod, hstart, ← Nat.add_mod]
    rw [clear_eq_true]
    rcases Nat.lt_or_ge top v with habove | hbelow
    · refine iff_of_false ?_ fun hseen => absurd (h.le v hseen) (by omega)
      rintro ⟨-, hkept⟩
      refine hkept (v - (top + 1)) (by omega) ?_
      rw [hcleared, show top + 1 + (v - (top + 1)) = v by omega]
    · rw [h.slot v hbelow (by omega)]
      refine and_iff_left fun i hi => ?_
      rw [hcleared]
      exact (ofNat_ne (by omega) (by omega)).symm
  le v hv := (h.le v hv).trans (Nat.le_add_right _ _)

/-- The top number jumps past the window: all slots are cleared. -/
theorem jump (h : Remembers slots top seen) {count : ℕ} (hcount : size ≤ count) :
    Remembers (fun _ : Fin size => false) (top + count) seen where
  slot v _ hvin := by
    refine iff_of_false (by simp) fun hseen => ?_
    have hle := h.le v hseen
    omega
  le v hv := (h.le v hv).trans (Nat.le_add_right _ _)

end Remembers

end DuplicateWindow
