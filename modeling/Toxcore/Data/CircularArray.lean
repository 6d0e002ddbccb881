import Mathlib.Data.List.Basic
import Mathlib.Data.Nat.ModEq

/-!
# Lists laid out around a ring of cells

A list is laid out in an array from some cell on, and goes on at the first cell behind the last one. The list grows by
a write behind its last element, and loses its first element when the start moves on.
-/

namespace CircularArray

open List

variable {α : Type*}

/-- The cell that lies some way behind another one. -/
def cell (size start i : ℕ) : ℕ := (start + i) % size

/-- The elements in some cells, from a first one on. -/
def laidOut (cells : List α) (default : α) (start count : ℕ) : List α :=
  (List.range count).map fun i => cells.getD (cell cells.length start i) default

variable {cells : List α} {default : α} {start count : ℕ}

theorem cell_lt {size i : ℕ} (hsize : 0 < size) : cell size start i < size := Nat.mod_lt _ hsize

/-- The next cell behind the start is the start of the rest. -/
theorem cell_succ (size start i : ℕ) : cell size start (i + 1) = cell size (cell size start 1) i := by
  rw [cell, cell, cell, Nat.mod_add_mod, Nat.add_assoc, Nat.add_comm 1 i]

/-- The cell behind another one. -/
theorem cell_next (size start i : ℕ) : cell size (cell size start i) 1 = cell size start (i + 1) := by
  rw [cell, cell, cell, Nat.mod_add_mod, Nat.add_assoc]

/-- Cells less than a turn apart are different. -/
theorem cell_injective {size i j : ℕ} (hi : i < size) (hj : j < size)
    (h : cell size start i = cell size start j) : i = j := by
  have hmod : i ≡ j [MOD size] := Nat.ModEq.add_left_cancel' start h
  rw [Nat.ModEq, Nat.mod_eq_of_lt hi, Nat.mod_eq_of_lt hj] at hmod
  exact hmod

/-- The first element, and the others behind it. -/
theorem laidOut_succ (hstart : start < cells.length) : laidOut cells default start (count + 1) =
    cells.getD start default :: laidOut cells default (cell cells.length start 1) count := by
  have hfirst : cell cells.length start 0 = start := Nat.mod_eq_of_lt hstart
  rw [laidOut, range_succ_eq_map, map_cons, map_map, hfirst, laidOut]
  congr 1
  apply map_congr_left
  intro i _
  rw [Function.comp_apply, Nat.succ_eq_add_one, cell_succ]

/-- An element is written behind the last one. -/
theorem laidOut_set (hcount : count < cells.length) (p : α) :
    laidOut (cells.set (cell cells.length start count) p) default start (count + 1) =
      laidOut cells default start count ++ [p] := by
  have hcell : cell cells.length start count < cells.length := cell_lt (Nat.zero_lt_of_lt hcount)
  rw [laidOut, range_succ, map_append, length_set, laidOut, map_singleton]
  congr 1
  · apply map_congr_left
    intro i hi
    have hlt := mem_range.mp hi
    have hother : cell cells.length start count ≠ cell cells.length start i := by
      intro heq
      exact absurd (cell_injective hcount (hlt.trans hcount) heq) (Nat.ne_of_gt hlt)
    rw [getD_eq_getElem?_getD, getElem?_set_ne hother, ← getD_eq_getElem?_getD]
  · rw [getD_eq_getElem?_getD, getElem?_set_self hcell, Option.getD_some]

end CircularArray
