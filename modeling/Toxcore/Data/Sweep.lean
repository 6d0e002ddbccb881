import Mathlib.Data.List.Basic

/-!
# Sweeping an array by moving the last element

A walk over an array that removes bad elements by moving the last element into the gap, and then goes on behind the
gap: the element that was moved is not looked at. Nothing that is good is lost; but a bad element stays exactly where
it was moved.
-/

namespace Sweep

open List

variable {α : Type*} (bad : α → Bool)

/-- What the walk leaves. -/
def sweep : List α → List α
  | [] => []
  | x :: rest =>
    if bad x then
      match rest.getLast? with
      | none => []
      | some last => last :: sweep rest.dropLast
    else x :: sweep rest
termination_by elements => elements.length
decreasing_by
  · simp only [length_dropLast, length_cons]
    omega
  · simp

/-- No element that is moved into a gap is bad. -/
def Clears : List α → Prop
  | [] => True
  | x :: rest =>
    if bad x then
      match rest.getLast? with
      | none => True
      | some last => bad last = false ∧ Clears rest.dropLast
    else Clears rest
termination_by elements => elements.length
decreasing_by
  · simp only [length_dropLast, length_cons]
    omega
  · simp

variable {bad}

variable {x : α}

@[simp] theorem sweep_nil : sweep bad [] = [] := by rw [sweep]

@[simp] theorem clears_nil : Clears bad [] := by rw [Clears]; trivial

theorem sweep_good (h : bad x = false) (rest : List α) : sweep bad (x :: rest) = x :: sweep bad rest := by
  rw [sweep, if_neg (by rw [h]; exact Bool.false_ne_true)]

theorem clears_good (h : bad x = false) (rest : List α) : Clears bad (x :: rest) ↔ Clears bad rest := by
  rw [Clears, if_neg (by rw [h]; exact Bool.false_ne_true)]

theorem sweep_last (h : bad x = true) : sweep bad [x] = [] := by
  rw [sweep, if_pos h]
  rfl

theorem clears_last (h : bad x = true) : Clears bad [x] := by
  rw [Clears, if_pos h]
  trivial

theorem sweep_gap (h : bad x = true) (middle : List α) (last : α) :
    sweep bad (x :: (middle ++ [last])) = last :: sweep bad middle := by
  rw [sweep, if_pos h]
  split
  · rename_i hnone
    simp at hnone
  · rename_i found hfound
    rw [getLast?_concat] at hfound
    rw [dropLast_concat, Option.some.inj hfound]

theorem clears_gap (h : bad x = true) (middle : List α) (last : α) :
    Clears bad (x :: (middle ++ [last])) ↔ bad last = false ∧ Clears bad middle := by
  rw [Clears, if_pos h]
  split
  · rename_i hnone
    simp at hnone
  · rename_i found hfound
    rw [getLast?_concat] at hfound
    rw [dropLast_concat, Option.some.inj hfound]

/-- Induction along the walk. -/
@[elab_as_elim] theorem induction (bad : α → Bool) {motive : List α → Prop} (nil : motive [])
    (good : ∀ x rest, bad x = false → motive rest → motive (x :: rest)) (last : ∀ x, bad x = true → motive [x])
    (gap : ∀ x middle last, bad x = true → motive middle → motive (x :: (middle ++ [last]))) (elements : List α) :
    motive elements := by
  induction hlength : elements.length using Nat.strongRecOn generalizing elements with
  | _ length ih =>
    cases elements with
    | nil => exact nil
    | cons x rest =>
      rw [length_cons] at hlength
      cases hx : bad x with
      | false => exact good x rest hx (ih rest.length (by omega) rest rfl)
      | true =>
        rcases eq_nil_or_concat rest with rfl | ⟨middle, end', rfl⟩
        · exact last x hx
        · rw [concat_eq_append] at hlength ⊢
          rw [length_append, length_singleton] at hlength
          exact gap x middle end' hx (ih middle.length (by omega) middle rfl)

/-- The good elements stay, up to their order. -/
theorem filter_sweep_perm (elements : List α) :
    ((sweep bad elements).filter fun x => !bad x).Perm (elements.filter fun x => !bad x) := by
  induction elements using induction bad with
  | nil => simp
  | good x rest hx ih =>
    rw [sweep_good hx, filter_cons_of_pos (by simp [hx]), filter_cons_of_pos (by simp [hx])]
    exact ih.cons x
  | last x hx => simp [sweep_last hx, hx]
  | gap x middle last hx ih =>
    rw [sweep_gap hx, filter_cons_of_neg (p := fun x => !bad x) (a := x) (by simp [hx]), filter_append]
    cases hlast : bad last with
    | true => simpa [hlast] using ih
    | false =>
      rw [filter_cons_of_pos (by simp [hlast]), filter_cons_of_pos (by simp [hlast]), filter_nil]
      exact (ih.cons last).trans (perm_append_singleton last _).symm

/-- Every bad element is gone exactly if none was moved into a gap. -/
theorem forall_sweep_iff (elements : List α) : (∀ x ∈ sweep bad elements, bad x = false) ↔ Clears bad elements := by
  induction elements using induction bad with
  | nil => simp
  | good x rest hx ih => rw [sweep_good hx, clears_good hx, forall_mem_cons, ih, and_iff_right hx]
  | last x hx => exact iff_of_true (by simp [sweep_last hx]) (clears_last hx)
  | gap x middle last hx ih => rw [sweep_gap hx, clears_gap hx, forall_mem_cons, ih]

end Sweep
