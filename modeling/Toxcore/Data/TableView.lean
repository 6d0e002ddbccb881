import Mathlib.Algebra.GroupWithZero.Nat
import Mathlib.Data.List.DropRight
import Mathlib.Data.List.Perm.Basic
import Mathlib.Data.List.ReduceOption
import Mathlib.Logic.Function.Basic

/-!
# Views of a table with free slots

A table is a list whose free slots are reused, that grows at its end and drops the free slots there. The view of a
table through a function that takes free slots to `none` is a function of the index: growing and shrinking do not
show, and a write is an update at one index.
-/

namespace TableView

open Function List Option

variable {α β : Type*} {f : α → Option β} {table : List α} {i : ℕ} {x old : α}

/-- What a table says at an index. -/
def view (f : α → Option β) (table : List α) (i : ℕ) : Option β := table[i]?.bind f

theorem view_get (hold : table[i]? = some old) : view f table i = f old := by
  rw [view, hold, bind_some]

theorem view_map {γ : Type*} (g : γ → Option β) (h : α → γ) (table : List α) :
    view g (table.map h) = view (g ∘ h) table := by
  funext i
  rw [view, view, getElem?_map, bind_map]

section

variable (hold : table[i]? = some old)
include hold

/-- A slot is written. -/
theorem view_set (x : α) : view f (table.set i x) = update (view f table) i (f x) := by
  funext j
  by_cases hj : j = i
  · subst hj
    rw [update_self]
    exact view_get (getElem?_set_self (List.getElem?_eq_some_iff.mp hold).1)
  · rw [update_of_ne hj, view, view, getElem?_set_ne (Ne.symm hj)]

/-- A slot is written with what is there. -/
theorem set_same : table.set i old = table := by
  obtain ⟨hlt, rfl⟩ := List.getElem?_eq_some_iff.mp hold
  exact set_getElem_self hlt

/-- A slot is written with something that looks the same. -/
theorem view_set_same (hsame : f x = f old) : view f (table.set i x) = view f table := by
  rw [view_set hold, hsame, ← view_get (f := f) hold, update_eq_self]

/-- A slot is written in place. -/
theorem view_modify (g : α → α) : view f (table.modify i g) = update (view f table) i (f (g old)) := by
  funext j
  rw [view, getElem?_modify]
  by_cases hj : j = i
  · subst hj
    rw [update_self, hold]
    simp only [if_true, Option.map_eq_map, map_some, bind_some]
  · simp only [update_of_ne hj, Ne.symm hj, if_false, view]
    cases table[j]? <;> rfl

end

variable {g : α → α}

/-- A slot is written in place with something that looks the same. -/
theorem view_modify_same (hg : ∀ y, f (g y) = f y) : view f (table.modify i g) = view f table := by
  funext j
  rw [view, view, getElem?_modify]
  cases table[j]? with
  | none => rfl
  | some y =>
    by_cases hij : i = j
    · simpa only [hij, if_true, Option.map_eq_map, map_some, bind_some] using hg y
    · simp only [hij, if_false, Option.map_eq_map, map_some, bind_some]

/-- A slot is written in place, and a key of it is kept. -/
theorem map_modify_of_keeps {key : α → β} (hg : ∀ y, key (g y) = key y) (table : List α) (i : ℕ) :
    (table.modify i g).map key = table.map key := by
  apply ext_getElem
  · simp
  · intro j hj hj'
    simp only [getElem_map, getElem_modify]
    split
    · exact hg _
    · rfl

/-- A free slot is added at the end. -/
theorem view_concat (hfree : f x = none) : view f (table ++ [x]) = view f table := by
  funext j
  rcases Nat.lt_trichotomy j table.length with hlt | rfl | hgt
  · rw [view, view, getElem?_append_left hlt]
  · rw [view, view, getElem?_concat_length, getElem?_eq_none (le_refl _)]
    exact hfree
  · rw [view, view, getElem?_eq_none hgt.le, getElem?_eq_none]
    rw [length_append, length_singleton]
    exact hgt

variable {p : α → Bool}

/-- Free slots are cut off the end. -/
theorem view_rdropWhile (hp : ∀ y, p y = true → f y = none) : view f (table.rdropWhile p) = view f table := by
  have hsplit : table.rdropWhile p ++ table.rtakeWhile p = table := rdropWhile_append_rtakeWhile
  funext j
  unfold view
  rcases Nat.lt_or_ge j (table.rdropWhile p).length with hlt | hge
  · have hkept : (table.rdropWhile p ++ table.rtakeWhile p)[j]? = (table.rdropWhile p)[j]? :=
      getElem?_append_left hlt
    rw [hsplit] at hkept
    rw [hkept]
  · have hdropped : (table.rdropWhile p ++ table.rtakeWhile p)[j]? =
        (table.rtakeWhile p)[j - (table.rdropWhile p).length]? := getElem?_append_right hge
    rw [hsplit] at hdropped
    rw [getElem?_eq_none hge, hdropped]
    cases hy : (table.rtakeWhile p)[j - (table.rdropWhile p).length]? with
    | none => rfl
    | some y => exact (hp y (mem_rtakeWhile_imp (mem_of_getElem? hy))).symm

/-! ## Counting -/

/-- A slot is written, and the count changes by what the slot contributed and contributes. -/
theorem countP_set (hold : table[i]? = some old) (x : α) :
    (table.set i x).countP p + (if p old then 1 else 0) = table.countP p + (if p x then 1 else 0) := by
  induction table generalizing i with
  | nil => nomatch hold
  | cons head table ih =>
    cases i with
    | zero =>
      obtain rfl := some_inj.mp hold
      rw [set_cons_zero, countP_cons, countP_cons]
      omega
    | succ i =>
      have hcount := ih (i := i) hold
      rw [set_cons_succ, countP_cons, countP_cons]
      omega

/-- A slot is written, and a sum changes by what the slot contributed and contributes. -/
theorem sum_set {f : α → ℕ} (hold : table[i]? = some old) (x : α) :
    ((table.set i x).map f).sum + f old = (table.map f).sum + f x := by
  induction table generalizing i with
  | nil => nomatch hold
  | cons head table ih =>
    cases i with
    | zero =>
      obtain rfl := some_inj.mp hold
      rw [set_cons_zero, map_cons, map_cons, sum_cons, sum_cons]
      omega
    | succ i =>
      have hsum := ih (i := i) hold
      rw [set_cons_succ, map_cons, map_cons, sum_cons, sum_cons]
      omega

/-- A slot is written in place. -/
theorem modify_eq_set (hold : table[i]? = some old) (g : α → α) : table.modify i g = table.set i (g old) := by
  apply ext_getElem?
  intro j
  rw [getElem?_modify, getElem?_set]
  by_cases hij : i = j
  · subst hij
    rw [if_pos rfl, if_pos (List.getElem?_eq_some_iff.mp hold).1, hold]
    simp only [if_true, Option.map_eq_map, map_some]
  · rw [if_neg hij]
    simp only [hij, if_false, Option.map_eq_map, Option.map_id']

/-- A free slot at the end does not count. -/
theorem countP_concat (hfree : p x = false) : (table ++ [x]).countP p = table.countP p := by
  rw [countP_append, countP_singleton, hfree, if_neg Bool.false_ne_true, Nat.add_zero]

/-- Free slots that are cut off do not count. -/
theorem countP_rdropWhile {q : α → Bool} (hfree : ∀ y, q y = true → p y = false) :
    (table.rdropWhile q).countP p = table.countP p := by
  have hnone : (table.rtakeWhile q).countP p = 0 := by
    rw [countP_eq_zero]
    intro y hy hp
    rw [hfree y (mem_rtakeWhile_imp hy)] at hp
    exact Bool.false_ne_true hp
  conv_rhs => rw [← rdropWhile_append_rtakeWhile (p := q) (l := table)]
  rw [countP_append, hnone, Nat.add_zero]

/-- Where as many slots satisfy a stronger condition as a weaker one, they are the same slots. -/
theorem countP_eq_imp {q : α → Bool} (himp : ∀ y, q y = true → p y = true) (heq : table.countP p = table.countP q)
    (hx : x ∈ table) (hp : p x = true) : q x = true := by
  induction table with
  | nil => nomatch hx
  | cons head table ih =>
    have hle : table.countP q ≤ table.countP p := countP_mono_left fun y _ => himp y
    rw [countP_cons, countP_cons] at heq
    have hhead : p head = q head ∧ table.countP p = table.countP q := by
      cases hq : q head with
      | true =>
        rw [himp head hq, hq] at heq
        exact ⟨himp head hq, Nat.add_right_cancel heq⟩
      | false =>
        rw [hq] at heq
        cases hph : p head with
        | true =>
          rw [hph, if_pos rfl, if_neg Bool.false_ne_true] at heq
          omega
        | false =>
          rw [hph] at heq
          exact ⟨rfl, heq⟩
    cases hx with
    | head => exact hhead.1 ▸ hp
    | tail _ hmem => exact ih hhead.2 hmem

/-! ## Clean tables -/

/-- Every free slot of a table is a cleared one. -/
def Clean (free : α → Bool) (zero : α) (table : List α) : Prop := ∀ y ∈ table, free y = true → y = zero

section Clean

variable {free : α → Bool} {zero : α}

section

variable (h : Clean free zero table)
include h

/-- A slot is written that is not free, or is cleared. -/
theorem Clean.set (i : ℕ) (hx : free x = true → x = zero) : Clean free zero (table.set i x) := by
  intro y hy hfree
  rcases mem_or_eq_of_mem_set hy with hmem | rfl
  · exact h y hmem hfree
  · exact hx hfree

theorem Clean.concat : Clean free zero (table ++ [zero]) := by
  intro y hy hfree
  rcases mem_append.mp hy with hmem | hmem
  · exact h y hmem hfree
  · exact mem_singleton.mp hmem

theorem Clean.rdropWhile (p : α → Bool) : Clean free zero (table.rdropWhile p) :=
  fun y hy => h y ((List.rdropWhile_prefix (p := p) table).subset hy)

/-- Slots are written so that what was not free stays so. -/
theorem Clean.map (hg : ∀ y, free (g y) = true → g y = y) : Clean free zero (table.map g) := by
  intro y hy hfree
  obtain ⟨old, hold, rfl⟩ := List.mem_map.mp hy
  have hsame := hg old hfree
  rw [hsame] at hfree ⊢
  exact h old hold hfree

end

end Clean

/-! ## Cells that are free or hold something -/

section Cells

variable {cells : List (Option α)}

/-- A free cell that is freed is as it was. -/
theorem set_free (h : cells[i]? = some none) : cells.set i none = cells := by
  obtain ⟨hi, hcell⟩ := List.getElem?_eq_some_iff.mp h
  rw [← hcell, set_getElem_self hi]

/-- What an occupied cell holds is among what all cells hold, and the others hold the rest. -/
theorem reduceOption_clear {entry : α} (h : cells[i]? = some (some entry)) :
    (entry :: (cells.set i none).reduceOption).Perm cells.reduceOption := by
  induction cells generalizing i with
  | nil => contradiction
  | cons cell cells ih =>
    cases i with
    | zero =>
      obtain rfl : cell = some entry := some_inj.mp h
      rfl
    | succ i =>
      have hrest := ih h
      rw [set_cons_succ]
      cases cell with
      | none => exact hrest
      | some first => exact (List.Perm.swap _ _ _).trans (hrest.cons first)

/-- An entry is put into a free cell. -/
theorem reduceOption_put (entry : α) (h : cells[i]? = some none) :
    (cells.set i (some entry)).reduceOption.Perm (entry :: cells.reduceOption) := by
  induction cells generalizing i with
  | nil => contradiction
  | cons cell cells ih =>
    cases i with
    | zero =>
      obtain rfl : cell = none := some_inj.mp h
      rfl
    | succ i =>
      have hrest := ih h
      rw [set_cons_succ]
      cases cell with
      | none => exact hrest
      | some first => exact (hrest.cons first).trans (List.Perm.swap _ _ _)

/-- Cells that are all free hold nothing. -/
theorem reduceOption_eq_nil (h : ∀ (i : ℕ) (entry : α), cells[i]? ≠ some (some entry)) : cells.reduceOption = [] := by
  rw [eq_nil_iff_forall_not_mem]
  intro entry hentry
  obtain ⟨i, hi⟩ := mem_iff_getElem?.mp (reduceOption_mem_iff.mp hentry)
  exact h i entry hi

/-- What an occupied cell holds is replaced. -/
theorem reduceOption_replace (entry : α) (h : cells[i]? = some (some old)) :
    (old :: (cells.set i (some entry)).reduceOption).Perm (entry :: cells.reduceOption) := by
  have hlt := (List.getElem?_eq_some_iff.mp h).1
  have hcleared : (cells.set i none)[i]? = some none := getElem?_set_self hlt
  have hput := reduceOption_put entry hcleared
  rw [set_set] at hput
  exact (hput.cons old).trans ((List.Perm.swap entry old _).trans ((reduceOption_clear h).cons entry))

end Cells

end TableView
