import Mathlib.Data.List.Sort
import Mathlib.Order.Basic

/-!
# Sorted arrays of keyed entries

An index is a list of entries in strictly increasing order of a key. Entries are inserted at the
place where the keys pass the new one, and erased by position; both keep the order and change the
set of entries by exactly one element.
-/

namespace SortedIndex

open List

variable {α β κ : Type*} [LinearOrder κ] (key : α → κ)

/-- The keys of the entries increase strictly. -/
def Sorted (entries : List (α × β)) : Prop :=
  entries.Pairwise fun a b => key a.1 < key b.1

/-- Position `i` is where the keys pass `x`. -/
def PassesAt (x : α) (keys : List α) (i : ℕ) : Prop :=
  (∀ a ∈ keys.take i, key a < key x) ∧ ∀ a ∈ keys.drop i, key x < key a

/-- Insert an entry at a position. -/
def insertAt {γ : Type*} (entries : List γ) (i : ℕ) (entry : γ) : List γ :=
  entries.take i ++ entry :: entries.drop i

variable {key}

theorem insertAt_length {γ : Type*} (entries : List γ) (i : ℕ) (entry : γ) :
    (insertAt entries i entry).length = entries.length + 1 := by
  simp only [insertAt, length_append, length_take, length_cons, length_drop]
  omega

variable {i : ℕ} {entries : List (α × β)}

theorem mem_insertAt {γ : Type*} {entries : List γ} {entry a : γ} :
    a ∈ insertAt entries i entry ↔ a = entry ∨ a ∈ entries := by
  conv_rhs => rw [← take_append_drop i entries]
  simp only [insertAt, mem_append, mem_cons]
  tauto

/-- Parallel arrays stay parallel under insertion. -/
theorem zip_insertAt {xs : List α} {ys : List β} (hlen : xs.length = ys.length) (i : ℕ) (x : α) (y : β) :
    (insertAt xs i x).zip (insertAt ys i y) = insertAt (xs.zip ys) i (x, y) := by
  rw [insertAt, insertAt, zip_append (by simp [hlen]), zip_cons_cons, insertAt]
  simp only [zip_eq_zipWith, take_zipWith, drop_zipWith]

/-- Parallel arrays stay parallel under removal. -/
theorem zip_eraseIdx {xs : List α} {ys : List β} (hlen : xs.length = ys.length) (i : ℕ) :
    (xs.eraseIdx i).zip (ys.eraseIdx i) = (xs.zip ys).eraseIdx i := by
  rw [eraseIdx_eq_take_drop_succ, eraseIdx_eq_take_drop_succ,
    eraseIdx_eq_take_drop_succ, zip_append (by simp [hlen])]
  simp only [zip_eq_zipWith, take_zipWith, drop_zipWith]

/-- Inserting where the keys pass the new one keeps the order. -/
theorem Sorted.insertAt (hsorted : Sorted key entries) {x : α} {y : β}
    (hpass : PassesAt key x (entries.map Prod.fst) i) : Sorted key (insertAt entries i (x, y)) := by
  obtain ⟨hbefore, hafter⟩ := hpass
  rw [← map_take] at hbefore
  rw [← map_drop] at hafter
  have hsplit : Sorted key (entries.take i ++ entries.drop i) := by
    rwa [take_append_drop]
  obtain ⟨htake, hdrop, hcross⟩ := pairwise_append.mp hsplit
  refine pairwise_append.mpr ⟨htake, pairwise_cons.mpr ⟨?_, hdrop⟩, ?_⟩
  · intro b hb
    exact hafter b.1 (mem_map_of_mem hb)
  · intro a ha b hb
    rcases mem_cons.mp hb with rfl | hb
    · exact hbefore a.1 (mem_map_of_mem ha)
    · exact hcross a ha b hb

/-- An index holds at most one entry for a key. -/
theorem Sorted.functional (hsorted : Sorted key entries) {x : α} {y z : β} (hy : (x, y) ∈ entries)
    (hz : (x, z) ∈ entries) : y = z := by
  induction entries with
  | nil => cases hy
  | cons entry rest ih =>
    obtain ⟨hhead, hrest⟩ := pairwise_cons.mp hsorted
    rcases mem_cons.mp hy with rfl | hy' <;> rcases mem_cons.mp hz with hz' | hz'
    · exact (Prod.mk.inj hz').2.symm
    · exact absurd (hhead _ hz') (lt_irrefl _)
    · subst hz'
      exact absurd (hhead _ hy') (lt_irrefl _)
    · exact ih hrest hy' hz'

/-- Erasing an entry removes that entry and nothing else. -/
theorem Sorted.mem_eraseIdx (hsorted : Sorted key entries) {entry : α × β} (hentry : entries[i]? = some entry)
    {a : α × β} : a ∈ entries.eraseIdx i ↔ a ∈ entries ∧ a ≠ entry := by
  induction entries generalizing i with
  | nil => simp at hentry
  | cons head rest ih =>
    obtain ⟨hhead, hrest⟩ := pairwise_cons.mp hsorted
    have hne : ∀ b ∈ rest, b ≠ head := by
      rintro b hb rfl
      exact lt_irrefl _ (hhead b hb)
    cases i with
    | zero =>
      simp only [getElem?_cons_zero, Option.some.injEq] at hentry
      subst hentry
      rw [eraseIdx_cons_zero, mem_cons]
      exact ⟨fun h => ⟨.inr h, hne a h⟩, fun h => h.1.resolve_left h.2⟩
    | succ i =>
      rw [getElem?_cons_succ] at hentry
      have hmem : entry ∈ rest := mem_of_getElem? hentry
      rw [eraseIdx_cons_succ, mem_cons, mem_cons, ih hrest hentry]
      constructor
      · rintro (rfl | ⟨h, hneq⟩)
        · exact ⟨.inl rfl, (hne entry hmem).symm⟩
        · exact ⟨.inr h, hneq⟩
      · rintro ⟨rfl | h, hneq⟩
        · exact .inl rfl
        · exact .inr ⟨h, hneq⟩

end SortedIndex
