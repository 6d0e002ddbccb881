import Mathlib.Data.List.GetD
import Toxcore.Data.DuplicateWindow

/-!
# Keys noted in a ring of slots

Keys are noted in a ring of slots, each one over the oldest, and a key can be struck out again. A slot without a key
holds a blank. As long as no key is noted that is in a slot already, the slots hold exactly the keys among the last
`size` noted ones that were not struck out since, and a key that was not struck out is noted again only after `size`
other ones.
-/

namespace RecentKeys

open Function List Option

variable {α : Type*}

/-- What happens to a key. -/
inductive Mark (α : Type*) where
  | noted (key : α)
  | struck (key : α)
  deriving DecidableEq

/-- A key is noted. -/
def Mark.isNoted : Mark α → Bool
  | noted _ => true
  | struck _ => false

/-- One of the last `size` noted keys, not struck out since. The newest mark is the first one. -/
def Recent (size : ℕ) (history : List (Mark α)) (key : α) : Prop :=
  ∃ after before, history = after ++ .noted key :: before ∧ .struck key ∉ after ∧ after.countP Mark.isNoted < size

/-- No key was noted that was recent already. -/
inductive Fresh (size : ℕ) : List (Mark α) → Prop
  | nil : Fresh size []
  | noted {history : List (Mark α)} {key : α} (h : Fresh size history) (hkey : ¬Recent size history key) :
      Fresh size (.noted key :: history)
  | struck {history : List (Mark α)} (key : α) (h : Fresh size history) : Fresh size (.struck key :: history)

/-- Between two times a key is noted, it is struck out, or others take all the slots. -/
def Apart (size : ℕ) (history : List (Mark α)) : Prop :=
  ∀ key after between before, history = after ++ .noted key :: (between ++ .noted key :: before) →
    .struck key ∉ between →
    size ≤ between.countP Mark.isNoted

/-- Fresh keys are apart. -/
theorem Fresh.apart {size : ℕ} {history : List (Mark α)} (h : Fresh size history) : Apart size history := by
  intro key after between before hhistory hkept
  induction after generalizing history with
  | nil =>
    subst hhistory
    cases h with
    | noted _ hkey =>
      by_contra hfew
      exact hkey ⟨between, before, rfl, hkept, Nat.lt_of_not_le hfew⟩
  | cons mark after ih =>
    subst hhistory
    cases h with
    | noted h _ => exact ih h rfl
    | struck _ h => exact ih h rfl

variable {key : α}

theorem recent_nil {size : ℕ} : ¬Recent size ([] : List (Mark α)) key := by
  rintro ⟨after, before, h, -, -⟩
  exact absurd h.symm (append_ne_nil_of_right_ne_nil after (cons_ne_nil _ _))

/-- A key that is noted becomes the newest one, and the others are one step older. -/
theorem recent_noted {size : ℕ} {history : List (Mark α)} {key' : α} :
    Recent (size + 1) (.noted key :: history) key' ↔ key' = key ∨ Recent size history key' := by
  constructor
  · rintro ⟨after, before, h, hkept, hfew⟩
    cases after with
    | nil =>
      have hhead := (List.cons.inj h).1
      exact .inl (Mark.noted.inj hhead).symm
    | cons mark after =>
      obtain ⟨rfl, htail⟩ := List.cons.inj h
      rw [countP_cons_of_pos rfl] at hfew
      exact .inr ⟨after, before, htail, fun hmem => hkept (mem_cons_of_mem _ hmem), Nat.lt_of_succ_lt_succ hfew⟩
  · rintro (rfl | ⟨after, before, rfl, hkept, hfew⟩)
    · exact ⟨[], history, rfl, not_mem_nil, Nat.succ_pos size⟩
    · refine ⟨.noted key :: after, before, rfl, fun hmem => ?_, ?_⟩
      · rcases mem_cons.mp hmem with heq | hmem
        · cases heq
        · exact hkept hmem
      · rw [countP_cons_of_pos rfl]
        exact Nat.succ_lt_succ hfew

/-- A key that is struck out is not recent, and the others stay so. -/
theorem recent_struck {size : ℕ} {history : List (Mark α)} {key' : α} :
    Recent size (.struck key :: history) key' ↔ key' ≠ key ∧ Recent size history key' := by
  constructor
  · rintro ⟨after, before, h, hkept, hfew⟩
    cases after with
    | nil => cases (List.cons.inj h).1
    | cons mark after =>
      obtain ⟨rfl, htail⟩ := List.cons.inj h
      rw [countP_cons_of_neg Bool.false_ne_true] at hfew
      refine ⟨?_, after, before, htail, fun hmem => hkept (mem_cons_of_mem _ hmem), hfew⟩
      rintro rfl
      exact hkept mem_cons_self
  · rintro ⟨hother, after, before, rfl, hkept, hfew⟩
    refine ⟨.struck key :: after, before, rfl, fun hmem => ?_, ?_⟩
    · rcases mem_cons.mp hmem with heq | hmem
      · exact hother (Mark.struck.inj heq)
      · exact hkept hmem
    · rw [countP_cons_of_neg Bool.false_ne_true]
      exact hfew

/-! ## The entries -/

variable [DecidableEq α]

/-- The noted keys, the newest one first, without those that were struck out since. -/
def entries : List (Mark α) → List (Option α)
  | [] => []
  | .noted key :: history => some key :: entries history
  | .struck key :: history => (entries history).map fun entry => if entry = some key then none else entry

/-- The recent keys are those among the first entries. -/
theorem recent_iff_entries {size : ℕ} {history : List (Mark α)} :
    Recent size history key ↔ some key ∈ (entries history).take size := by
  induction history generalizing size with
  | nil => exact iff_of_false recent_nil (by simp [entries])
  | cons mark history ih =>
    cases mark with
    | noted key' =>
      cases size with
      | zero =>
        refine iff_of_false ?_ (by simp)
        rintro ⟨_, _, -, -, hfew⟩
        exact Nat.not_lt_zero _ hfew
      | succ size => rw [recent_noted, ih, entries, take_succ_cons, mem_cons, some_inj]
    | struck key' =>
      rw [recent_struck, ih, entries, ← map_take, List.mem_map]
      constructor
      · rintro ⟨hother, hmem⟩
        exact ⟨some key, hmem, if_neg fun h => hother (some.inj h)⟩
      · rintro ⟨entry, hmem, hentry⟩
        split at hentry
        · contradiction
        · rename_i hother
          subst hentry
          exact ⟨fun h => hother (congrArg some h), hmem⟩

/-! ## The slots -/

variable {size : ℕ} [NeZero size]

/-- The slots hold the entries from the newest one backwards, and the blank where there is none. -/
structure LaidOut (blank : α) (slots : Fin size → α) (history : List (Mark α)) : Prop where
  entry : ∀ age < size, age < (entries history).length →
    slots (Fin.ofNat size ((entries history).length - 1 - age)) = ((entries history).getD age none).getD blank
  empty : ∀ i, (entries history).length ≤ i → i < size → slots (Fin.ofNat size i) = blank
  alone : ∀ i j, slots i = slots j → slots i ≠ blank → i = j

variable {blank : α} {slots : Fin size → α} {history : List (Mark α)}

theorem LaidOut.start : LaidOut blank (fun _ : Fin size => blank) [] where
  entry _ _ hage := absurd hage (Nat.not_lt_zero _)
  empty _ _ _ := rfl
  alone _ _ _ h := absurd rfl h

/-- Every slot is the one of a recent entry, or has never been written. -/
theorem slot_cases (count : ℕ) (i : Fin size) :
    (∃ age < size, age < count ∧ i = Fin.ofNat size (count - 1 - age)) ∨
    (count ≤ i.val ∧ i = Fin.ofNat size i.val) := by
  have hi := i.isLt
  rcases Nat.lt_or_ge i.val count with hlt | hge
  · left
    refine ⟨(count - 1 - i.val) % size, Nat.mod_lt _ (Nat.pos_of_neZero size), ?_, ?_⟩
    · have hle := Nat.mod_le (count - 1 - i.val) size
      omega
    · apply Fin.ext
      have hdiv := Nat.div_add_mod (count - 1 - i.val) size
      have hval : count - 1 - (count - 1 - i.val) % size = i.val + size * ((count - 1 - i.val) / size) := by omega
      rw [Fin.val_ofNat, hval, Nat.add_mul_mod_self_left, Nat.mod_eq_of_lt hi]
  · right
    refine ⟨hge, Fin.ext ?_⟩
    rw [Fin.val_ofNat, Nat.mod_eq_of_lt hi]

/-- A recent key is in a slot. -/
theorem LaidOut.exists_slot (h : LaidOut blank slots history) (hkey : Recent size history key) :
    ∃ i, slots i = key := by
  rw [recent_iff_entries, mem_take_iff_getElem] at hkey
  obtain ⟨age, hage, hentry⟩ := hkey
  obtain ⟨hsize, hcount⟩ := Nat.lt_min.mp hage
  refine ⟨_, (h.entry age hsize hcount).trans ?_⟩
  rw [getD_eq_getElem _ _ hcount, hentry, getD_some]

/-- A key is in a slot exactly if it is recent. -/
theorem LaidOut.mem_iff (h : LaidOut blank slots history) (hkey : key ≠ blank) :
    (∃ i, slots i = key) ↔ Recent size history key := by
  refine ⟨?_, h.exists_slot⟩
  rw [recent_iff_entries, mem_take_iff_getElem]
  rintro ⟨i, hi⟩
  rcases slot_cases (entries history).length i with ⟨age, hage, hcount, rfl⟩ | ⟨hcount, hslot⟩
  · have hentry := h.entry age hage hcount
    rw [hi, getD_eq_getElem _ _ hcount] at hentry
    refine ⟨age, Nat.lt_min.mpr ⟨hage, hcount⟩, ?_⟩
    cases hval : (entries history)[age] with
    | none =>
      rw [hval] at hentry
      exact absurd hentry hkey
    | some key' =>
      rw [hval] at hentry
      exact congrArg some hentry.symm
  · rw [hslot, h.empty i.val hcount i.isLt] at hi
    exact absurd hi.symm hkey

/-- A key that is not in a slot is written over the oldest one. -/
theorem LaidOut.note (h : LaidOut blank slots history) (hkey : ∀ i, slots i ≠ key) :
    LaidOut blank (update slots (Fin.ofNat size (entries history).length) key) (.noted key :: history) where
  entry age hage hcount := by
    rw [entries, length_cons] at hcount ⊢
    cases age with
    | zero => rw [Nat.add_sub_cancel, Nat.sub_zero, update_self, getD_cons_zero, getD_some]
    | succ age =>
      have hlt : (entries history).length - 1 - age < (entries history).length := by omega
      rw [update_of_ne, getD_cons_succ, ← h.entry age (by omega) (by omega)]
      · congr 2
        omega
      · rw [show (entries history).length + 1 - 1 - (age + 1) = (entries history).length - 1 - age by omega]
        exact DuplicateWindow.ofNat_ne hlt (by omega)
  empty i hi hsize := by
    rw [entries, length_cons] at hi
    rw [update_of_ne (DuplicateWindow.ofNat_ne (by omega) (by omega)).symm]
    exact h.empty i (by omega) hsize
  alone i j hsame hfull := by
    by_cases hi : i = Fin.ofNat size (entries history).length
    · by_contra hother
      rw [hi, update_self, update_of_ne (fun hj => hother (hi.trans hj.symm))] at hsame
      exact hkey j hsame.symm
    · rw [update_of_ne hi] at hsame hfull
      by_cases hj : j = Fin.ofNat size (entries history).length
      · rw [hj, update_self] at hsame
        exact absurd hsame (hkey i)
      · rw [update_of_ne hj] at hsame
        exact h.alone i j hsame hfull

/-- The slot of a key is cleared. -/
def clear (blank : α) (slots : Fin size → α) (key : α) : Fin size →
    α := fun i => if slots i = key then blank else slots i

theorem LaidOut.strike (h : LaidOut blank slots history) (key : α) :
    LaidOut blank (clear blank slots key) (.struck key :: history) where
  entry age hage hcount := by
    rw [entries, length_map] at hcount ⊢
    rw [clear, h.entry age hage hcount, getD_eq_getElem _ _ hcount, getD_eq_getElem _ _ (by rwa [length_map]),
      getElem_map]
    cases hval : (entries history)[age] with
    | none =>
      rw [if_neg (by simp : ¬(none : Option α) = some key)]
      exact ite_self _
    | some key' =>
      simp only [getD_some, some_inj]
      split <;> rfl
  empty i hi hsize := by
    rw [entries, length_map] at hi
    rw [clear, h.empty i hi hsize, ite_self]
  alone i j hsame hfull := by
    simp only [clear] at hsame hfull
    split at hfull
    · exact absurd rfl hfull
    · rename_i hi
      rw [if_neg hi] at hsame
      split at hsame
      · exact absurd hsame hfull
      · exact h.alone i j hsame hfull

/-- Clearing one slot with a key clears all of them. -/
theorem LaidOut.clear_slot (h : LaidOut blank slots history) {i : Fin size} (hi : slots i = key) :
    update slots i blank = clear blank slots key := by
  funext j
  by_cases hj : j = i
  · rw [hj, update_self, clear, if_pos hi]
  · rw [update_of_ne hj, clear]
    split
    · rename_i hsame
      by_contra hfull
      exact hj (h.alone j i (hsame.trans hi.symm) hfull)
    · rfl

end RecentKeys
