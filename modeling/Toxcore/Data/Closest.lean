import Mathlib.Data.Finset.Card
import Mathlib.Data.Finset.Dedup
import Mathlib.Order.Defs.LinearOrder

/-!
# Keeping the closest elements

A short list keeps the elements closest to something out of all that were offered so far. While there is room an
element is put at the end; afterwards it is inserted by displacement: it takes the place of the first element that
is farther, which is then inserted further on in the same way. The list need not be sorted: whatever falls out at the
end is farther than all that stay.
-/

namespace Closest

open List

variable {α β γ : Type*} [LinearOrder β] (dist : α → β)

/-- Insert by displacement. The second component is the element that falls out. -/
def displace : List α → α → List α × α
  | [], x => ([], x)
  | y :: ys, x =>
    if dist x < dist y then (x :: (displace ys y).1, (displace ys y).2)
    else (y :: (displace ys x).1, (displace ys x).2)

variable (l : List α) (x : α)

/-- Nothing is lost but the element that falls out. -/
theorem displace_perm : ((displace dist l x).2 :: (displace dist l x).1).Perm (x :: l) := by
  induction l generalizing x with
  | nil => exact .refl _
  | cons y ys ih =>
    unfold displace
    split
    · exact (List.Perm.swap _ _ _).trans ((ih y).cons x)
    · exact (List.Perm.swap _ _ _).trans (((ih x).cons y).trans (List.Perm.swap _ _ _))

@[simp] theorem displace_length : (displace dist l x).1.length = l.length := by
  have hlength := (displace_perm dist l x).length_eq
  simpa using hlength

/-- The element that falls out is at least as far as the one inserted and as all that were there. -/
theorem displace_farthest : ∀ y ∈ x :: l, dist y ≤ dist (displace dist l x).2 := by
  induction l generalizing x with
  | nil => simp [displace]
  | cons z zs ih =>
    intro y hy
    unfold displace
    split
    · rename_i hlt
      rcases mem_cons.mp hy with rfl | hy
      · exact hlt.le.trans (ih z z mem_cons_self)
      · exact ih z y hy
    · rename_i hle
      rcases mem_cons.mp hy with rfl | hy
      · exact ih y y mem_cons_self
      · rcases mem_cons.mp hy with rfl | hy
        · exact (not_lt.mp hle).trans (ih x x mem_cons_self)
        · exact ih x y (mem_cons_of_mem x hy)

/-- Where no element is farther, nothing changes. -/
theorem displace_of_forall_le {l : List α} {x : α} (h : ∀ y ∈ l, dist y ≤ dist x) : displace dist l x = (l, x) := by
  induction l with
  | nil => rfl
  | cons y ys ih =>
    rw [displace, if_neg (not_lt.mpr (h y mem_cons_self)), ih fun z hz => h z (mem_cons_of_mem y hz)]

/-- Elements that are not farther are passed by. -/
theorem displace_append {front : List α} {x : α} (h : ∀ y ∈ front, dist y ≤ dist x) (rest : List α) :
    displace dist (front ++ rest) x = (front ++ (displace dist rest x).1, (displace dist rest x).2) := by
  induction front with
  | nil => rfl
  | cons y ys ih =>
    rw [cons_append, displace, if_neg (not_lt.mpr (h y mem_cons_self)),
      ih fun z hz => h z (mem_cons_of_mem y hz), cons_append]

/-- The first farther element may as well be replaced and then inserted from the front again. -/
theorem displace_first {front : List α} {x y : α} (hfront : ∀ z ∈ front, dist z ≤ dist x) (hxy : dist x < dist y)
    (rest : List α) : displace dist (front ++ y :: rest) x = displace dist (front ++ x :: rest) y := by
  rw [displace_append dist hfront, displace_append dist fun z hz => (hfront z hz).trans hxy.le, displace, displace,
    if_pos hxy, if_neg (not_lt.mpr hxy.le)]

/-- Distances may be taken after a map. -/
theorem displace_map (f : γ → α) (l : List γ) (x : γ) :
    displace dist (l.map f) (f x) =
      ((displace (dist ∘ f) l x).1.map f, f (displace (dist ∘ f) l x).2) := by
  induction l generalizing x with
  | nil => rfl
  | cons y ys ih =>
    simp only [map_cons, displace, Function.comp]
    split
    · simp only [ih, Function.comp_def, map_cons]
    · simp only [ih, Function.comp_def, map_cons]

/-- The chosen elements are among the offered ones, at most `k`, and no other one is closer. -/
structure Selects (k : ℕ) (offered : Finset α) (chosen : List α) : Prop where
  nodup : chosen.Nodup
  subset : ∀ x ∈ chosen, x ∈ offered
  length_le : chosen.length ≤ k
  closest : ∀ x ∈ offered, x ∉ chosen → chosen.length = k ∧ ∀ y ∈ chosen, dist y ≤ dist x

namespace Selects

variable {dist} {k : ℕ} {offered : Finset α} {chosen : List α}

theorem empty (k : ℕ) : Selects dist k ∅ [] := ⟨nodup_nil, by simp, by simp, by simp⟩

variable [DecidableEq α]

/-- As many are chosen as there are, up to `k`. -/
theorem length_eq (h : Selects dist k offered chosen) : chosen.length = min k offered.card := by
  have hcard : chosen.toFinset.card = chosen.length := toFinset_card_of_nodup h.nodup
  have hsubset : chosen.toFinset ⊆ offered := fun x hx => h.subset x (mem_toFinset.mp hx)
  have hle := Finset.card_le_card hsubset
  have hk := h.length_le
  by_cases hall : ∀ x ∈ offered, x ∈ chosen
  · have hsame : offered.card ≤ chosen.toFinset.card :=
      Finset.card_le_card fun x hx => mem_toFinset.mpr (hall x hx)
    omega
  · push Not at hall
    obtain ⟨x, hx, hmissing⟩ := hall
    obtain ⟨hfull, -⟩ := h.closest x hx hmissing
    omega

/-- An element is put at the end. -/
theorem push (h : Selects dist k offered chosen) {x : α} (hx : x ∉ chosen) (hroom : chosen.length < k) :
    Selects dist k (insert x offered) (chosen ++ [x]) where
  nodup := by
    rw [nodup_append]
    refine ⟨h.nodup, nodup_singleton x, fun y hy z hz => ?_⟩
    rw [mem_singleton.mp hz]
    rintro rfl
    exact hx hy
  subset y hy := by
    rw [Finset.mem_insert]
    rcases mem_append.mp hy with hy | hy
    · exact .inr (h.subset y hy)
    · exact .inl (mem_singleton.mp hy)
  length_le := by
    rw [length_append, length_singleton]
    omega
  closest y hy hmissing := by
    rw [mem_append, not_or, mem_singleton] at hmissing
    have hoffered : y ∈ offered := (Finset.mem_insert.mp hy).resolve_left hmissing.2
    have hfull := (h.closest y hoffered hmissing.1).1
    omega

/-- An element is inserted by displacement once the list is full. -/
theorem displace (h : Selects dist k offered chosen) {x : α} (hx : x ∉ chosen) (hfull : chosen.length = k) :
    Selects dist k (insert x offered) (displace dist chosen x).1 := by
  have hperm := displace_perm dist chosen x
  have hfar := displace_farthest dist chosen x
  have hmem {y : α} : y ∈ (Closest.displace dist chosen x).2 :: (Closest.displace dist chosen x).1 ↔ y ∈ x :: chosen :=
    hperm.mem_iff
  have hle {y : α} (hy : y ∈ (Closest.displace dist chosen x).1) : dist y ≤ dist (Closest.displace dist chosen x).2 :=
    hfar y (hmem.mp (mem_cons_of_mem _ hy))
  refine ⟨?_, ?_, ?_, ?_⟩
  · have hnodup : (x :: chosen).Nodup := nodup_cons.mpr ⟨hx, h.nodup⟩
    exact (nodup_cons.mp (hperm.nodup_iff.mpr hnodup)).2
  · intro y hy
    rw [Finset.mem_insert]
    rcases mem_cons.mp (hmem.mp (mem_cons_of_mem _ hy)) with hyx | hy
    · exact .inl hyx
    · exact .inr (h.subset y hy)
  · rw [displace_length, hfull]
  · intro z hz hmissing
    refine ⟨by rw [displace_length, hfull], fun y hy => ?_⟩
    by_cases hout : z = (Closest.displace dist chosen x).2
    · rw [hout]
      exact hle hy
    · have hnew : z ∉ x :: chosen := fun hmem' => (mem_cons.mp (hmem.mpr hmem')).elim hout hmissing
      rw [mem_cons, not_or] at hnew
      have hoffered : z ∈ offered := (Finset.mem_insert.mp hz).resolve_left hnew.1
      have hcloser := (h.closest z hoffered hnew.2).2
      rcases mem_cons.mp (hmem.mp mem_cons_self) with hsame | hold
      · rw [hsame] at hperm
        exact hcloser y ((List.Perm.cons_inv hperm).mem_iff.mp hy)
      · exact (hle hy).trans (hcloser _ hold)

end Selects

end Closest
