import Mathlib.Data.List.Count
import Mathlib.Data.List.Sort
import Mathlib.Order.Basic

/-!
# Exchange rounds

A round walks through a list with its first element as the pivot and exchanges the head with every element that is
before the pivot. As the pivot stays the same after an exchange, the head is in the end the last such element, and not
always the least. A list that is cut into runs by a label is treated run by run.
-/

namespace ExchangeRounds

open List

variable {α β γ τ : Type*}

/-- One round after the pivot: the head in the end, and what is left. -/
def exchange (before : α → Bool) : α → List α → α × List α
  | head, [] => (head, [])
  | head, other :: rest =>
    if before other then ((exchange before other rest).1, head :: (exchange before other rest).2)
    else ((exchange before head rest).1, other :: (exchange before head rest).2)

variable (before : α → Bool) (head : α)

/-- Nothing is lost in a round. -/
theorem exchange_perm (l : List α) : ((exchange before head l).1 :: (exchange before head l).2).Perm (head :: l) := by
  induction l generalizing head with
  | nil => exact .refl _
  | cons other rest ih =>
    rw [exchange]
    by_cases hbefore : before other
    · rw [if_pos hbefore]
      exact (List.Perm.swap ..).trans ((ih other).cons head)
    · rw [if_neg hbefore]
      exact (List.Perm.swap ..).trans (((ih head).cons other).trans (List.Perm.swap ..))

theorem exchange_length (l : List α) : (exchange before head l).2.length = l.length := by
  have hlength := (exchange_perm before head l).length_eq
  simpa using hlength

/-- The head in the end is the last element before the pivot. -/
theorem exchange_fst (l : List α) : (exchange before head l).1 = (l.filter before).getLastD head := by
  induction l generalizing head with
  | nil => rfl
  | cons other rest ih =>
    rw [exchange]
    by_cases hbefore : before other
    · rw [if_pos hbefore, filter_cons_of_pos hbefore, getLastD_cons]
      exact ih other
    · rw [if_neg hbefore, filter_cons_of_neg hbefore]
      exact ih head

/-- The head in the end is the one to begin with, or it is before the pivot. -/
theorem exchange_fst_cases (l : List α) :
    (exchange before head l).1 = head ∨ before (exchange before head l).1 = true := by
  rw [exchange_fst, getLastD_eq_getLast?]
  cases hlast : (l.filter before).getLast? with
  | none => exact .inl rfl
  | some last => exact .inr (mem_filter.mp (mem_of_getLast? hlast)).2

variable {l : List α}

/-- What is left of a round was there before. -/
theorem mem_of_mem_exchange {before : α → Bool} {head a : α} (h : a ∈ (exchange before head l).2) :
    a = head ∨ a ∈ l :=
  mem_cons.mp ((exchange_perm before head l).subset (mem_cons_of_mem _ h))

/-- A round of elements that are written in another way. -/
theorem exchange_map (f : α → γ) {before : α → Bool} {before' : γ → Bool} (head : α)
    (h : ∀ a ∈ l, before' (f a) = before a) :
    exchange before' (f head) (l.map f) = (f (exchange before head l).1, (exchange before head l).2.map f) := by
  induction l generalizing head with
  | nil => rfl
  | cons other rest ih =>
    rw [forall_mem_cons] at h
    rw [map_cons, exchange, exchange, h.1]
    by_cases hbefore : before other
    · rw [if_pos hbefore, if_pos hbefore, ih other h.2]
      rfl
    · rw [if_neg hbefore, if_neg hbefore, ih head h.2]
      rfl

/-- Round after round, each on what the one before it left. -/
def rounds (closer : α → α → Bool) : List α → List α
  | [] => []
  | first :: rest =>
    (exchange (closer · first) first rest).1 :: rounds closer (exchange (closer · first) first rest).2
termination_by l => l.length
decreasing_by
  rw [exchange_length, length_cons]
  exact Nat.lt_add_one _

variable (closer : α → α → Bool)

theorem rounds_nil : rounds closer [] = [] := by rw [rounds]

theorem rounds_cons (first : α) (rest : List α) : rounds closer (first :: rest) =
    (exchange (closer · first) first rest).1 :: rounds closer (exchange (closer · first) first rest).2 := by
  rw [rounds]

/-- Nothing is lost. -/
theorem rounds_perm (l : List α) : (rounds closer l).Perm l := by
  induction l using rounds.induct closer with
  | case1 => rw [rounds_nil]
  | case2 first rest ih =>
    rw [rounds_cons]
    exact (ih.cons _).trans (exchange_perm ..)

/-- Rounds of elements that are written in another way. -/
theorem rounds_map (f : α → γ) {closer : α → α → Bool} {closer' : γ → γ → Bool}
    (h : ∀ a ∈ l, ∀ b ∈ l, closer' (f a) (f b) = closer a b) :
    rounds closer' (l.map f) = (rounds closer l).map f := by
  induction l using rounds.induct closer with
  | case1 => rw [map_nil, rounds_nil, rounds_nil, map_nil]
  | case2 first rest ih =>
    have hround :
      exchange (closer' · (f first)) (f first) (rest.map f) = (f (exchange (closer · first) first rest).1, _) :=
      exchange_map f first fun a ha => h a (mem_cons_of_mem first ha) first mem_cons_self
    have hmem (a : α) (ha : a ∈ (exchange (closer · first) first rest).2) : a ∈ first :: rest :=
      (exchange_perm ..).subset (mem_cons_of_mem _ ha)
    rw [map_cons, rounds_cons, rounds_cons, hround, ih fun a ha b hb => h a (hmem a ha) b (hmem b hb)]
    rfl

/-! ## The least elements first -/

section Least

variable [LinearOrder β] (key : α → β)

/-- Each of the first so many elements is least of it and those after it. -/
def LeastFirst : ℕ → List α → Prop
  | 0, _ => True
  | _ + 1, [] => True
  | n + 1, first :: rest => (∀ a ∈ rest, key first ≤ key a) ∧ LeastFirst n rest

/-- In each of the first so many rounds, the last element before the pivot is the least one, or the pivot is if there
is none. -/
def PicksLeast : ℕ → List α → Prop
  | 0, _ => True
  | _ + 1, [] => True
  | n + 1, first :: rest =>
    (∀ a ∈ rest, key ((rest.filter (key · < key first)).getLastD first) ≤ key a) ∧
      PicksLeast n (exchange (key · < key first) first rest).2

instance decidablePicksLeast : ∀ (n : ℕ) (l : List α), Decidable (PicksLeast key n l)
  | 0, _ => isTrue trivial
  | _ + 1, [] => isTrue trivial
  | n + 1, first :: rest =>
    have := decidablePicksLeast n (exchange (key · < key first) first rest).2
    inferInstanceAs (Decidable (_ ∧ _))

variable {key}

variable (n : ℕ)

theorem leastFirst_nil : LeastFirst key n [] := by cases n <;> trivial

theorem picksLeast_nil : PicksLeast key n [] := by cases n <;> trivial

/-- The last element before the pivot is not after it. -/
theorem exchange_le (first : α) (rest : List α) : key (exchange (key · < key first) first rest).1 ≤ key first := by
  rcases exchange_fst_cases (key · < key first) first rest with hsame | hbefore
  · rw [hsame]
  · exact (of_decide_eq_true hbefore).le

/-- The rounds leave the least elements first if and only if each of them picks the least one. -/
theorem leastFirst_rounds (l : List α) : LeastFirst key n (rounds (key · < key ·) l) ↔ PicksLeast key n l := by
  induction n generalizing l with
  | zero => exact Iff.rfl
  | succ n ih =>
    cases l with
    | nil =>
      rw [rounds_nil]
      exact Iff.rfl
    | cons first rest =>
      rw [rounds_cons, LeastFirst, PicksLeast, ih, ← exchange_fst]
      refine and_congr_left fun _ => ?_
      have hperm := exchange_perm (fun a => decide (key a < key first)) first rest
      refine ⟨fun hall a ha => ?_, fun hall a ha => ?_⟩
      · rcases mem_cons.mp (hperm.symm.subset (mem_cons_of_mem first ha)) with rfl | hleft
        · exact le_rfl
        · exact hall a ((rounds_perm ..).symm.subset hleft)
      · rcases mem_cons.mp (hperm.subset (mem_cons_of_mem _ ((rounds_perm ..).subset ha))) with rfl | hrest
        · exact exchange_le a rest
        · exact hall a hrest

/-- One list after another one. -/
theorem leastFirst_append (l m : List α) : LeastFirst key n (l ++ m) ↔
    LeastFirst key n l ∧ (∀ a ∈ l.take n, ∀ b ∈ m, key a ≤ key b) ∧ LeastFirst key (n - l.length) m := by
  induction l generalizing n with
  | nil =>
    rw [nil_append, take_nil, length_nil, Nat.sub_zero]
    exact ⟨fun h => ⟨leastFirst_nil n, nofun, h⟩, fun h => h.2.2⟩
  | cons first rest ih =>
    cases n with
    | zero =>
      rw [Nat.zero_sub]
      exact iff_of_true trivial ⟨trivial, nofun, trivial⟩
    | succ n =>
      rw [cons_append, LeastFirst, LeastFirst, ih, take_succ_cons, forall_mem_cons, length_cons,
        Nat.add_sub_add_right,
        forall_mem_append]
      tauto

/-- The first elements are in order, and none of the others is before one of them. -/
theorem leastFirst_iff (l : List α) : LeastFirst key n l ↔
    (l.take n).Pairwise (key · ≤ key ·) ∧ ∀ a ∈ l.take n, ∀ b ∈ l.drop n, key a ≤ key b := by
  induction n generalizing l with
  | zero => exact iff_of_true trivial ⟨.nil, nofun⟩
  | succ n ih =>
    cases l with
    | nil => exact iff_of_true trivial ⟨.nil, nofun⟩
    | cons first rest =>
      rw [LeastFirst, ih, take_succ_cons, drop_succ_cons, pairwise_cons, forall_mem_cons]
      have hsplit : (∀ a ∈ rest, key first ≤ key a) ↔
          (∀ a ∈ rest.take n, key first ≤ key a) ∧ ∀ a ∈ rest.drop n, key first ≤ key a := by
        rw [← forall_mem_append, take_append_drop]
      rw [hsplit]
      tauto

/-- With the least elements first, what holds of the first so many holds of those with less than so many before them. -/
theorem LeastFirst.forall_take {n : ℕ} {l : List α} (h : LeastFirst key n l) (P : β → Prop) :
    (∀ a ∈ l.take n, P (key a)) ↔ ∀ a ∈ l, l.countP (key · < key a) < n → P (key a) := by
  obtain ⟨-, hleft⟩ := (leastFirst_iff n l).mp h
  have hsplit (a : α) :
    l.countP (key · < key a) = (l.take n).countP (key · < key a) + (l.drop n).countP (key · < key a) := by
    rw [← countP_append, take_append_drop]
  refine ⟨fun hall a ha hfew => ?_, fun hall a ha => hall a (mem_of_mem_take ha) ?_⟩
  · rw [← take_append_drop n l] at ha
    rcases mem_append.mp ha with htaken | hdropped
    · exact hall a htaken
    · -- one of the first elements is not before this one
      have hlength : (l.take n).length = n := by
        have hne := length_pos_of_mem hdropped
        rw [length_drop] at hne
        rw [length_take]
        omega
      have hnot : ¬∀ b ∈ l.take n, decide (key b < key a) = true := by
        intro hbefore
        have hcount := countP_eq_length.mpr hbefore
        rw [hsplit] at hfew
        omega
      push Not at hnot
      obtain ⟨b, hb, hnotBefore⟩ := hnot
      have hsame : key b = key a :=
        le_antisymm (hleft b hb a hdropped) (not_lt.mp fun hlt => hnotBefore (decide_eq_true hlt))
      exact hsame ▸ hall b hb
  · have hdropped : (l.drop n).countP (key · < key a) = 0 :=
      countP_eq_zero.mpr fun b hb hlt => absurd (of_decide_eq_true hlt) (hleft a ha b hb).not_gt
    have hself : (l.take n).countP (key · < key a) < (l.take n).length :=
      countP_lt_length_iff.mpr ⟨a, ha, by rw [decide_eq_false (lt_irrefl _)]⟩
    have hlength := length_take_le n l
    rw [hsplit]
    omega

end Least

/-! ## Where all rounds pick the least -/

section Descents

variable [LinearOrder β] (key : α → β)

/-- The elements that are less than a bound go down. -/
def Descends (bound : β) (l : List α) : Prop := (l.filter (key · < bound)).Pairwise fun a b => key b ≤ key a

/-- After each element, those that are less than it go down. -/
def DescendsBelow : List α → Prop
  | [] => True
  | first :: rest => Descends key (key first) rest ∧ DescendsBelow rest

instance decidableDescendsBelow : ∀ l : List α, Decidable (DescendsBelow key l)
  | [] => isTrue trivial
  | first :: rest =>
    have := decidableDescendsBelow rest
    have : Decidable (Descends key (key first) rest) := List.instDecidablePairwise _
    inferInstanceAs (Decidable (_ ∧ _))

variable {key}

variable {bound pivot : β} {l rest : List α} {head : α}

theorem descends_cons {first : α} : Descends key bound (first :: rest) ↔
    (key first < bound → ∀ a ∈ rest, key a < bound → key a ≤ key first) ∧ Descends key bound rest := by
  unfold Descends
  by_cases hlt : key first < bound
  · have hfilter : (first :: rest).filter (key · < bound) = first :: rest.filter (key · < bound) :=
      filter_cons_of_pos (decide_eq_true hlt)
    rw [hfilter, pairwise_cons]
    simp only [mem_filter, decide_eq_true_iff, and_imp, hlt, forall_const]
  · have hfilter : (first :: rest).filter (key · < bound) = rest.filter (key · < bound) :=
      filter_cons_of_neg (by rwa [decide_eq_true_iff])
    rw [hfilter]
    exact (and_iff_right fun hno => absurd hno hlt).symm

theorem Descends.mono {bound' : β} (h : Descends key bound l) (hle : bound' ≤ bound) : Descends key bound' l :=
  h.sublist (monotone_filter_right l fun _ hlt => decide_eq_true ((of_decide_eq_true hlt).trans_le hle))

theorem exchange_cons_of_lt {other : α} (h : key other < pivot) :
    (exchange (key · < pivot) head (other :: rest)).2 = head :: (exchange (key · < pivot) other rest).2 := by
  rw [exchange, if_pos (decide_eq_true h)]

theorem exchange_cons_of_not_lt {other : α} (h : ¬key other < pivot) :
    (exchange (key · < pivot) head (other :: rest)).2 = other :: (exchange (key · < pivot) head rest).2 := by
  rw [exchange, if_neg (by rwa [decide_eq_true_iff])]

/-- What goes down goes down after a round too, whose pivot is not greater than the bound. -/
theorem Descends.exchange (hbound : pivot ≤ bound) (hhead : key head ≤ pivot)
    (hlower : ∀ a ∈ l, key a < pivot → key a ≤ key head) (hl : Descends key bound l) :
    Descends key bound (exchange (key · < pivot) head l).2 := by
  induction l generalizing head with
  | nil => exact .nil
  | cons other rest ih =>
    obtain ⟨hbelow, hrest⟩ := descends_cons.mp hl
    rw [forall_mem_cons] at hlower
    by_cases hother : key other < pivot
    · have hlt := hother.trans_le hbound
      rw [exchange_cons_of_lt hother]
      refine descends_cons.mpr ⟨fun _ a ha hlta => ?_,
        ih hother.le (fun a ha hlta => hbelow hlt a ha (hlta.trans_le hbound)) hrest⟩
      rcases mem_of_mem_exchange ha with rfl | hmem
      · exact hlower.1 hother
      · exact (hbelow hlt a hmem hlta).trans (hlower.1 hother)
    · rw [exchange_cons_of_not_lt hother]
      refine descends_cons.mpr ⟨fun hlt a ha hlta => ?_, ih hhead hlower.2 hrest⟩
      rcases mem_of_mem_exchange ha with rfl | hmem
      · exact hhead.trans (not_lt.mp hother)
      · exact hbelow hlt a hmem hlta

/-- A round keeps that elements go down below each one. -/
theorem DescendsBelow.exchange (h : DescendsBelow key l) (hhead : key head ≤ pivot)
    (hlower : ∀ a ∈ l, key a < pivot → key a ≤ key head) (hl : Descends key pivot l) :
    DescendsBelow key (exchange (key · < pivot) head l).2 := by
  induction l generalizing head with
  | nil => trivial
  | cons other rest ih =>
    obtain ⟨hbelow, hrest⟩ := descends_cons.mp hl
    rw [forall_mem_cons] at hlower
    by_cases hother : key other < pivot
    · rw [exchange_cons_of_lt hother]
      exact ⟨(hrest.exchange le_rfl hother.le (hbelow hother)).mono hhead, ih h.2 hother.le (hbelow hother) hrest⟩
    · rw [exchange_cons_of_not_lt hother]
      exact ⟨h.1.exchange (not_lt.mp hother) hhead hlower.2, ih h.2 hhead hlower.2 hrest⟩

/-- The last of the elements that go down is the least one. -/
theorem Descends.getLastD_le (h : Descends key bound l) (other : α) :
    ∀ a ∈ l, key a < bound → key ((l.filter (key · < bound)).getLastD other) ≤ key a := by
  intro a ha hlt
  have hmem : a ∈ l.filter (key · < bound) := mem_filter.mpr ⟨ha, decide_eq_true hlt⟩
  have hne := ne_nil_of_mem hmem
  rw [getLastD_eq_getLast?, getLast?_eq_some_getLast hne, Option.getD_some]
  rw [Descends, ← dropLast_append_getLast hne, pairwise_append] at h
  rw [← dropLast_append_getLast hne] at hmem
  rcases mem_append.mp hmem with hfirst | hlast
  · exact h.2.2 a hfirst _ (mem_singleton_self _)
  · rw [mem_singleton.mp hlast]

/-- Where elements go down below each one, all rounds pick the least. -/
theorem DescendsBelow.picksLeast (h : DescendsBelow key l) (n : ℕ) : PicksLeast key n l := by
  induction n generalizing l with
  | zero => trivial
  | succ n ih =>
    cases l with
    | nil => trivial
    | cons first rest =>
      refine ⟨fun a ha => ?_, ih (h.2.exchange le_rfl (fun _ _ => le_of_lt) h.1)⟩
      by_cases hlt : key a < key first
      · exact h.1.getLastD_le first a ha hlt
      · rw [← exchange_fst]
        exact (exchange_le first rest).trans (not_lt.mp hlt)

/-- If what is left of a round goes down, and the head in the end is least, then all went down before it. -/
theorem descends_of_exchange (hhead : key head < pivot)
    (hleast : ∀ a ∈ head :: l, key (exchange (key · < pivot) head l).1 ≤ key a)
    (h : Descends key pivot (exchange (key · < pivot) head l).2) : Descends key pivot (head :: l) := by
  induction l generalizing head with
  | nil => exact descends_cons.mpr ⟨fun _ a ha => absurd ha not_mem_nil, .nil⟩
  | cons other rest ih =>
    by_cases hother : key other < pivot
    · have hfst : (exchange (key · < pivot) head (other :: rest)).1 = (exchange (key · < pivot) other rest).1 := by
        rw [exchange, if_pos (decide_eq_true hother)]
      rw [exchange_cons_of_lt hother] at h
      rw [hfst, forall_mem_cons] at hleast
      obtain ⟨hbelow, hrest⟩ := descends_cons.mp h
      refine descends_cons.mpr ⟨fun _ a ha hlt => ?_, ih hother hleast.2 hrest⟩
      rcases mem_cons.mp ((exchange_perm (key · < pivot) other rest).symm.subset ha) with rfl | hleft
      · exact hleast.1
      · exact hbelow hhead a hleft hlt
    · have hfst : (exchange (key · < pivot) head (other :: rest)).1 = (exchange (key · < pivot) head rest).1 := by
        rw [exchange, if_neg (by rwa [decide_eq_true_iff])]
      rw [exchange_cons_of_not_lt hother] at h
      rw [hfst] at hleast
      have hnext := descends_cons.mp (ih hhead (fun a ha => hleast a (by grind)) (descends_cons.mp h).2)
      refine descends_cons.mpr ⟨fun hlt a ha hlta => ?_, descends_cons.mpr ⟨fun hno => absurd hno hother, hnext.2⟩⟩
      rcases mem_cons.mp ha with rfl | hrest
      · exact absurd hlta hother
      · exact hnext.1 hlt a hrest hlta

/-- The same where the pivot itself is the head. -/
theorem descends_of_exchange_pivot {first : α}
    (hleast : ∀ a ∈ l, key (exchange (key · < key first) first l).1 ≤ key a)
    (h : DescendsBelow key (exchange (key · < key first) first l).2) : Descends key (key first) l := by
  induction l with
  | nil => exact .nil
  | cons other rest ih =>
    by_cases hother : key other < key first
    · have hfst :
        (exchange (key · < key first) first (other :: rest)).1 = (exchange (key · < key first) other rest).1 := by
        rw [exchange, if_pos (decide_eq_true hother)]
      rw [exchange_cons_of_lt hother] at h
      rw [hfst] at hleast
      exact descends_of_exchange hother hleast h.1
    · have hfst :
        (exchange (key · < key first) first (other :: rest)).1 = (exchange (key · < key first) first rest).1 := by
        rw [exchange, if_neg (by rwa [decide_eq_true_iff])]
      rw [exchange_cons_of_not_lt hother] at h
      rw [hfst, forall_mem_cons] at hleast
      exact descends_cons.mpr ⟨fun hno => absurd hno hother, ih hleast.2 h.2⟩

/-- What goes down below a bound after a round went down before it, if the elements below the pivot do. -/
theorem descends_of_exchange_bound (hhead : key head ≤ pivot) (hne : ∀ a ∈ l, key a ≠ pivot)
    (hl : Descends key pivot l) (h : Descends key bound (exchange (key · < pivot) head l).2) :
    Descends key bound l := by
  induction l generalizing head with
  | nil => exact .nil
  | cons other rest ih =>
    obtain ⟨hbelow, hrest⟩ := descends_cons.mp hl
    rw [forall_mem_cons] at hne
    by_cases hother : key other < pivot
    · rw [exchange_cons_of_lt hother] at h
      obtain ⟨hafter, hleft⟩ := descends_cons.mp h
      refine descends_cons.mpr ⟨fun _ a ha hlta => ?_, ih hother.le hne.2 hrest hleft⟩
      by_cases hlower : key a < pivot
      · exact hbelow hother a ha hlower
      · -- an element after the pivot in order is left, and then it comes after the head
        have hlt : pivot < key a := lt_of_le_of_ne (not_lt.mp hlower) (hne.2 a ha).symm
        have hmem : a ∈ (exchange (key · < pivot) other rest).2 := by
          rcases mem_cons.mp
            ((exchange_perm (key · < pivot) other rest).symm.subset (mem_cons_of_mem other ha)) with hlast | hleft
          · rcases exchange_fst_cases (key · < pivot) other rest with hsame | hbefore
            · rw [hlast, hsame] at hlower
              exact absurd hother hlower
            · rw [hlast] at hlower
              exact absurd (of_decide_eq_true hbefore) hlower
          · exact hleft
        exact absurd (hafter (hhead.trans_lt (hlt.trans hlta)) a hmem hlta) (not_le.mpr (hhead.trans_lt hlt))
    · rw [exchange_cons_of_not_lt hother] at h
      obtain ⟨hafter, hleft⟩ := descends_cons.mp h
      refine descends_cons.mpr ⟨fun hlt a ha hlta => ?_, ih hhead hne.2 hrest hleft⟩
      rcases mem_cons.mp
        ((exchange_perm (key · < pivot) head rest).symm.subset (mem_cons_of_mem head ha)) with hlast | hleft
      · have hle : key a ≤ pivot := by
          rcases exchange_fst_cases (key · < pivot) head rest with hsame | hbefore
          · rwa [hlast, hsame]
          · rw [hlast]
            exact (of_decide_eq_true hbefore).le
        exact hle.trans (not_lt.mp hother)
      · exact hafter hlt a hleft hlta

/-- Elements that go down below each one after a round did so before it, if the elements below the pivot go down. -/
theorem descendsBelow_of_exchange (hhead : key head ≤ pivot) (hne : ∀ a ∈ l, key a ≠ pivot)
    (hl : Descends key pivot l) (h : DescendsBelow key (exchange (key · < pivot) head l).2) :
    DescendsBelow key l := by
  induction l generalizing head with
  | nil => trivial
  | cons other rest ih =>
    have hrest := (descends_cons.mp hl).2
    rw [forall_mem_cons] at hne
    by_cases hother : key other < pivot
    · rw [exchange_cons_of_lt hother] at h
      exact ⟨hrest.mono hother.le, ih hother.le hne.2 hrest h.2⟩
    · rw [exchange_cons_of_not_lt hother] at h
      exact ⟨descends_of_exchange_bound hhead hne.2 hrest h.1, ih hhead hne.2 hrest h.2⟩

/-- On a whole list of distinct elements, the rounds pick the least ones if and only if elements go down below each
one. -/
theorem picksLeast_iff (hdistinct : (l.map key).Nodup) {n : ℕ} (hn : l.length ≤ n) :
    PicksLeast key n l ↔ DescendsBelow key l := by
  refine ⟨fun h => ?_, fun h => h.picksLeast n⟩
  induction n generalizing l with
  | zero =>
    obtain rfl := length_eq_zero_iff.mp (Nat.le_zero.mp hn)
    trivial
  | succ n ih =>
    cases l with
    | nil => trivial
    | cons first rest =>
      obtain ⟨hleast, hnext⟩ := h
      rw [map_cons, nodup_cons] at hdistinct
      have hleft : DescendsBelow key (exchange (key · < key first) first rest).2 := by
        refine ih ?_ (by rw [exchange_length]; exact Nat.le_of_succ_le_succ hn) hnext
        have hperm := (exchange_perm (key · < key first) first rest).map key
        exact (nodup_cons.mp (hperm.nodup_iff.mpr (nodup_cons.mpr hdistinct))).2
      have hdescends : Descends key (key first) rest := by
        refine descends_of_exchange_pivot (fun a ha => ?_) hleft
        rw [exchange_fst]
        exact hleast a ha
      refine ⟨hdescends, descendsBelow_of_exchange le_rfl (fun a ha hsame => hdistinct.1 ?_) hdescends hleft⟩
      exact hsame ▸ mem_map_of_mem ha

end Descents

/-! ## Runs -/

section Runs

variable [LinearOrder β] [LinearOrder τ] (label : α → τ) (key : α → β)

/-- Treat each run of elements with one label, where a run with the label `prev` has been read already. -/
def mapRuns (f : List α → List α) : τ → List α → List α → List α
  | _, run, [] => f run
  | prev, run, a :: rest =>
    if prev = label a then mapRuns f prev (run ++ [a]) rest else f run ++ mapRuns f (label a) [a] rest

/-- The rounds of each run pick the least elements, as far as the first so many elements reach into it, and none of
these elements is after one of a later run. -/
def RunsInOrder (n : ℕ) (l : List α) : Prop :=
  (∀ v, PicksLeast key (n - l.countP (label · < v)) (l.filter (label · = v))) ∧
    ∀ a ∈ l, ∀ b ∈ l, label a < label b →
      l.countP (fun c => label c < label a ∨ label c = label a ∧ key c < key a) < n →
      key a ≤ key b

variable {label key}

/-- Nothing is lost. -/
theorem mapRuns_perm {f : List α → List α} (hf : ∀ l, (f l).Perm l) (prev : τ) (run l : List α) :
    (mapRuns label f prev run l).Perm (run ++ l) := by
  induction l generalizing prev run with
  | nil =>
    rw [mapRuns, append_nil]
    exact hf run
  | cons a rest ih =>
    rw [mapRuns]
    by_cases hsame : prev = label a
    · rw [if_pos hsame]
      refine (ih prev (run ++ [a])).trans ?_
      rw [append_assoc, singleton_append]
    · rw [if_neg hsame]
      exact (hf run).append (ih (label a) [a])

variable {l : List α} {n : ℕ}

/-- The order depends on the elements with one label and on how many there are of the others. -/
theorem runsInOrder_congr {m : List α} (hperm : l.Perm m)
    (hfilter : ∀ v, l.filter (label · = v) = m.filter (label · = v)) :
    RunsInOrder label key n l ↔ RunsInOrder label key n m := by
  unfold RunsInOrder
  simp only [hfilter, hperm.countP_eq, hperm.mem_iff]

/-- One run before the others. -/
theorem runsInOrder_append {v : τ} {run : List α} (hrun : ∀ a ∈ run, label a = v) (hl : ∀ a ∈ l, v < label a) :
    RunsInOrder label key n (run ++ l) ↔
      PicksLeast key n run ∧ (∀ a ∈ run, run.countP (key · < key a) < n → ∀ b ∈ l, key a ≤ key b) ∧
        RunsInOrder label key (n - run.length) l := by
  have hfilterRun : run.filter (label · = v) = run := filter_eq_self.mpr fun a ha => decide_eq_true (hrun a ha)
  have hfilterOther (u : τ) (hu : u ≠ v) : run.filter (label · = u) = [] :=
    filter_eq_nil_iff.mpr fun a ha hlabel => hu ((of_decide_eq_true hlabel).symm.trans (hrun a ha))
  have hfilterFirst (u : τ) (hu : u ≤ v) : l.filter (label · = u) = [] :=
    filter_eq_nil_iff.mpr fun a ha hlabel => absurd (of_decide_eq_true hlabel) (hu.trans_lt (hl a ha)).ne'
  have hcountFirst (u : τ) (hu : u ≤ v) : (run ++ l).countP (label · < u) = 0 := by
    refine countP_eq_zero.mpr fun a ha hlabel => absurd (of_decide_eq_true hlabel) (not_lt.mpr ?_)
    rcases mem_append.mp ha with hmem | hmem
    · exact hu.trans_eq (hrun a hmem).symm
    · exact hu.trans (hl a hmem).le
  have hcountLater (u : τ) (hu : v < u) : (run ++ l).countP (label · < u) = run.length + l.countP (label · < u) := by
    rw [countP_append, countP_eq_length.mpr fun a ha => decide_eq_true ((hrun a ha).trans_lt hu)]
  have hrounds : (∀ u, PicksLeast key (n - (run ++ l).countP (label · < u)) ((run ++ l).filter (label · = u))) ↔
      PicksLeast key n run ∧
        ∀ u, PicksLeast key (n - run.length - l.countP (label · < u)) (l.filter (label · = u)) := by
    refine ⟨fun hall => ⟨?_, fun u => ?_⟩, fun ⟨hfirst, hall⟩ u => ?_⟩
    · have hfirst := hall v
      rwa [hcountFirst v le_rfl, filter_append, hfilterRun, hfilterFirst v le_rfl, append_nil] at hfirst
    · by_cases hu : u ≤ v
      · rw [hfilterFirst u hu]
        exact picksLeast_nil _
      · have hlater := hall u
        rwa [hcountLater u (not_le.mp hu), filter_append, hfilterOther u (not_le.mp hu).ne', nil_append,
          Nat.sub_add_eq] at hlater
    · rcases lt_trichotomy u v with hu | rfl | hu
      · rw [filter_append, hfilterOther u hu.ne, hfilterFirst u hu.le]
        exact picksLeast_nil _
      · rwa [hcountFirst u le_rfl, filter_append, hfilterRun, hfilterFirst u le_rfl, append_nil]
      · rw [hcountLater u hu, filter_append, hfilterOther u hu.ne', nil_append, Nat.sub_add_eq]
        exact hall u
  have hrankFirst (a : α) (ha : a ∈ run) :
      (run ++ l).countP (fun c => label c < label a ∨ label c = label a ∧
        key c < key a) = run.countP (key · < key a) := by
    have hnone : l.countP (fun c => label c < label a ∨ label c = label a ∧ key c < key a) = 0 := by
      refine countP_eq_zero.mpr fun c hc hbefore => ?_
      have hlt := hl c hc
      rw [← hrun a ha] at hlt
      rcases of_decide_eq_true hbefore with hlabel | ⟨hlabel, -⟩
      · exact hlabel.not_gt hlt
      · exact hlt.ne' hlabel
    rw [countP_append, hnone, Nat.add_zero]
    refine countP_congr fun c hc => ?_
    rw [decide_eq_true_iff, decide_eq_true_iff, hrun c hc, hrun a ha]
    simp only [lt_irrefl, false_or, true_and]
  have hrankLater (a : α) (ha : a ∈ l) :
    (run ++ l).countP (fun c => label c < label a ∨ label c = label a ∧ key c < key a) =
      run.length + l.countP (fun c => label c < label a ∨ label c = label a ∧ key c < key a) := by
    rw [countP_append, countP_eq_length.mpr fun c hc => decide_eq_true (.inl ((hrun c hc).trans_lt (hl a ha)))]
  rw [RunsInOrder, hrounds, RunsInOrder, and_assoc]
  refine and_congr_right fun _ => ?_
  rw [and_left_comm]
  refine and_congr_right fun _ => ⟨fun hall => ⟨fun a ha hfew b hb => ?_, fun a ha b hb hlabel hfew => ?_⟩,
    fun ⟨hfirst, hlater⟩ a ha b hb hlabel hfew => ?_⟩
  · refine hall a (mem_append_left l ha) b (mem_append_right run hb) ((hrun a ha).trans_lt (hl b hb)) ?_
    rwa [hrankFirst a ha]
  · refine hall a (mem_append_right run ha) b (mem_append_right run hb) hlabel ?_
    rw [hrankLater a ha]
    omega
  · rcases mem_append.mp ha with ha | ha
    · rw [hrankFirst a ha] at hfew
      rcases mem_append.mp hb with hb | hb
      · rw [hrun a ha, hrun b hb] at hlabel
        exact absurd hlabel (lt_irrefl v)
      · exact hfirst a ha hfew b hb
    · rw [hrankLater a ha] at hfew
      rcases mem_append.mp hb with hb | hb
      · rw [hrun b hb] at hlabel
        exact absurd hlabel (hl a ha).not_gt
      · exact hlater a ha b hb hlabel (by omega)

/-- No elements are in order. -/
theorem runsInOrder_nil (n : ℕ) : RunsInOrder label key n [] := ⟨fun _ => picksLeast_nil _, nofun⟩

/-- Rounds in each run leave the least elements first if and only if they are in order in this sense. -/
theorem leastFirst_mapRuns {prev : τ} {run : List α} (hrun : ∀ a ∈ run, label a = prev)
    (hl : (∀ a ∈ l, prev ≤ label a) ∧ l.Pairwise (label · ≤ label ·)) :
    LeastFirst key n (mapRuns label (rounds (key · < key ·)) prev run l) ↔ RunsInOrder label key n (run ++ l) := by
  induction l generalizing n prev run with
  | nil =>
    rw [mapRuns, leastFirst_rounds, runsInOrder_append hrun fun a ha => absurd ha not_mem_nil]
    exact ⟨fun h => ⟨h, fun _ _ _ _ hb => absurd hb not_mem_nil, runsInOrder_nil _⟩, fun h => h.1⟩
  | cons a rest ih =>
    obtain ⟨hle, hsorted⟩ := hl
    rw [forall_mem_cons] at hle
    rw [pairwise_cons] at hsorted
    rw [mapRuns]
    by_cases hsame : prev = label a
    · rw [if_pos hsame, ih ?_ ⟨hle.2, hsorted.2⟩, append_assoc, singleton_append]
      intro b hb
      rcases mem_append.mp hb with hread | hnew
      · exact hrun b hread
      · rw [mem_singleton.mp hnew, hsame]
    · rw [if_neg hsame]
      have hlater (b : α) (hb : b ∈ a :: rest) : prev < label b := by
        have hlt : prev < label a := lt_of_le_of_ne hle.1 hsame
        rcases mem_cons.mp hb with rfl | hrest
        · exact hlt
        · exact hlt.trans_le (hsorted.1 b hrest)
      have hnext : LeastFirst key (n - run.length) (mapRuns label (rounds (key · < key ·)) (label a) [a] rest) ↔
          RunsInOrder label key (n - run.length) (a :: rest) := ih (fun b hb => by rw [mem_singleton.mp hb]) hsorted
      have hperm : (mapRuns label (rounds (key · < key ·)) (label a) [a] rest).Perm ([a] ++ rest) :=
        mapRuns_perm (rounds_perm _) ..
      rw [leastFirst_append, (rounds_perm ..).length_eq, hnext, runsInOrder_append hrun hlater, leastFirst_rounds]
      refine and_congr_right fun hpicks => and_congr_left fun _ => ?_
      have htaken := ((leastFirst_rounds n run).mpr hpicks).forall_take fun k => ∀ b ∈ a :: rest, k ≤ key b
      simp only [(rounds_perm (key · < key ·) run).countP_eq, (rounds_perm (key · < key ·) run).mem_iff] at htaken
      simp only [hperm.mem_iff]
      exact htaken

/-- Runs whose elements go down below each one, as far as the first so many elements reach, and with none of these
elements after one of a later run, are in order. -/
theorem RunsInOrder.of_descendsBelow
    (hruns : ∀ v, l.countP (label · < v) < n → DescendsBelow key (l.filter (label · = v)))
    (hlabel : ∀ a ∈ l, ∀ b ∈ l, label a < label b →
      l.countP (fun c => label c < label a ∨ label c = label a ∧ key c < key a) < n → key a ≤ key b) :
    RunsInOrder label key n l := by
  refine ⟨fun v => ?_, hlabel⟩
  by_cases hreached : l.countP (label · < v) < n
  · exact (hruns v hreached).picksLeast _
  · rw [Nat.sub_eq_zero_of_le (not_lt.mp hreached)]
    trivial

/-- One run in which a round does not pick the least element is enough. -/
theorem not_runsInOrder {v : τ} (h : ¬PicksLeast key (n - l.countP (label · < v)) (l.filter (label · = v))) :
    ¬RunsInOrder label key n l := fun hall => h (hall.1 v)

/-- For a whole list of distinct elements, this is what it means. -/
theorem runsInOrder_iff (hdistinct : (l.map key).Nodup) (hn : l.length ≤ n) : RunsInOrder label key n l ↔
    (∀ v, DescendsBelow key (l.filter (label · = v))) ∧ ∀ a ∈ l, ∀ b ∈ l, label a < label b → key a ≤ key b := by
  refine ⟨fun h => ⟨fun v => ?_, fun a ha b hb hlt => h.2 a ha b hb hlt ?_⟩, fun h =>
    .of_descendsBelow (fun v _ => h.1 v) fun a ha b hb hlt _ => h.2 a ha b hb hlt⟩
  · refine (picksLeast_iff (hdistinct.sublist (filter_sublist.map key)) ?_).mp (h.1 v)
    have hothers : l.countP (label · = v) ≤ l.countP fun a => ¬decide (label a < v) = true :=
      countP_mono_left fun a _ hsame =>
        decide_eq_true (by rw [of_decide_eq_true hsame, decide_eq_true_iff]; exact lt_irrefl v)
    have hsplit := l.length_eq_countP_add_countP fun a => label a < v
    rw [← countP_eq_length_filter]
    omega
  · refine (countP_lt_length_iff.mpr ⟨a, ha, ?_⟩).trans_le hn
    simp only [lt_irrefl, and_false, or_self, decide_false]

/-- The same where nothing has been read, with a label to begin with that no element has. -/
theorem leastFirst_mapRuns_nil {prev : τ} (hprev : ∀ a ∈ l, prev ≠ label a) (hl : l.Pairwise (label · ≤ label ·)) :
    LeastFirst key n (mapRuns label (rounds (key · < key ·)) prev [] l) ↔ RunsInOrder label key n l := by
  cases l with
  | nil =>
    rw [mapRuns, rounds_nil]
    exact iff_of_true (leastFirst_nil n) (runsInOrder_nil n)
  | cons a rest =>
    rw [mapRuns, if_neg (hprev a mem_cons_self), rounds_nil, nil_append]
    rw [pairwise_cons] at hl
    exact leastFirst_mapRuns (fun b hb => by rw [mem_singleton.mp hb]) hl

end Runs

end ExchangeRounds
