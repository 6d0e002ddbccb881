import Mathlib.Data.Nat.Notation
import Mathlib.Logic.Function.Basic

/-!
# Two tables that refer to each other

A holder has a key and may hold a target; a target has the key of its holder and a mark that names the holder. The
tables are linked when each says of the other what the other says of it, and no two holders have the same key. So a
target has exactly one holder, and a holder without a target can take any free one.
-/

namespace Links

open Function Option

/-- A holder: its key, whether it is active, and the target it holds. -/
structure Holder (κ : Type*) where
  key : κ
  active : Bool
  target : Option ℕ

variable {κ μ : Type*} {mark : ℕ → μ} {holders : ℕ → Option (Holder κ)} {targets : ℕ → Option (κ × μ)}

/-- The holders and the targets name each other, active holders have a target, and keys are distinct. -/
structure Linked (mark : ℕ → μ) (holders : ℕ → Option (Holder κ)) (targets : ℕ → Option (κ × μ)) : Prop where
  target : ∀ n holder id, holders n = some holder → holder.target = some id → targets id = some (holder.key, mark n)
  holder : ∀ id key m, targets id = some (key, m) →
    ∃ n holder, m = mark n ∧ holders n = some holder ∧ holder.key = key ∧ holder.target = some id
  active : ∀ n holder, holders n = some holder → holder.active = true → holder.target ≠ none
  keys : ∀ m n a b, holders m = some a → holders n = some b → a.key = b.key → m = n

/-- The targets without one of them. -/
def erase (targets : ℕ → Option (κ × μ)) : Option ℕ → ℕ → Option (κ × μ)
  | none => targets
  | some id => update targets id none

namespace Linked

theorem empty : Linked mark (fun _ => (none : Option (Holder κ))) fun _ => none := ⟨nofun, nofun, nofun, nofun⟩

variable {id n : ℕ} {holder : Holder κ}

/-- No two holders hold the same target. -/
theorem target_unique (h : Linked mark holders targets) {m : ℕ} {a b : Holder κ} (ha : holders m = some a)
    (hb : holders n = some b) (hatarget : a.target = some id) (hbtarget : b.target = some id) : m = n := by
  have htargets := (h.target m a id ha hatarget).symm.trans (h.target n b id hb hbtarget)
  exact h.keys m n a b ha hb (Prod.mk.inj (some_inj.mp htargets)).1

/-- The key of a holder without a target is the key of no target. -/
theorem key_free (h : Linked mark holders targets) (hholder : holders n = some holder) (hnone : holder.target = none)
    (id : ℕ) (m : μ) : targets id ≠ some (holder.key, m) := by
  intro hid
  obtain ⟨n', holder', -, hholder', hkey, htarget⟩ := h.holder id holder.key m hid
  obtain rfl := h.keys n' n holder' holder hholder' hholder hkey
  obtain rfl := some_inj.mp (hholder.symm.trans hholder')
  rw [hnone] at htarget
  contradiction

/-- A holder with a key of its own is added. -/
theorem add (h : Linked mark holders targets) {n : ℕ} (hfree : holders n = none) {key : κ}
    (hkey : ∀ m a, holders m = some a → a.key ≠ key) :
    Linked mark (update holders n (some ⟨key, false, none⟩)) targets := by
  have hcases : ∀ m a, update holders n (some ⟨key, false, none⟩) m = some a →
      m = n ∧ a = ⟨key, false, none⟩ ∨ m ≠ n ∧ holders m = some a := by
    intro m a ha
    by_cases hm : m = n
    · subst hm
      rw [update_self] at ha
      exact .inl ⟨rfl, (some_inj.mp ha).symm⟩
    · rw [update_of_ne hm] at ha
      exact .inr ⟨hm, ha⟩
  refine ⟨?_, ?_, ?_, ?_⟩
  · intro m a id ha htarget
    obtain ⟨-, rfl⟩ | ⟨-, hold⟩ := hcases m a ha
    · contradiction
    · exact h.target m a id hold htarget
  · intro id key' m hid
    obtain ⟨n', holder, hm, hholder, hrest⟩ := h.holder id key' m hid
    have hne : n' ≠ n := by
      rintro rfl
      rw [hfree] at hholder
      contradiction
    exact ⟨n', holder, hm, by rwa [update_of_ne hne], hrest⟩
  · intro m a ha hactive
    obtain ⟨-, rfl⟩ | ⟨-, hold⟩ := hcases m a ha
    · contradiction
    · exact h.active m a hold hactive
  · intro m m' a b ha hb hsame
    obtain ⟨rfl, rfl⟩ | ⟨-, hold⟩ := hcases m a ha
    · obtain ⟨rfl, -⟩ | ⟨-, hold'⟩ := hcases m' b hb
      · rfl
      · exact absurd hsame.symm (hkey m' b hold')
    · obtain ⟨rfl, rfl⟩ | ⟨-, hold'⟩ := hcases m' b hb
      · exact absurd hsame (hkey m a hold)
      · exact h.keys m m' a b hold hold' hsame

/-- A holder lets go of its target, which is gone with it, and stays without one or goes itself. -/
theorem release (h : Linked mark holders targets) (hholder : holders n = some holder) {left : Option (Holder κ)}
    (hleft : left = none ∨ left = some ⟨holder.key, false, none⟩) :
    Linked mark (update holders n left) (erase targets holder.target) := by
  have hcases : ∀ m a, update holders n left m = some a →
      m = n ∧ a = ⟨holder.key, false, none⟩ ∨ m ≠ n ∧ holders m = some a := by
    intro m a ha
    by_cases hm : m = n
    · subst hm
      rw [update_self] at ha
      obtain rfl | rfl := hleft
      · contradiction
      · exact .inl ⟨rfl, (some_inj.mp ha).symm⟩
    · rw [update_of_ne hm] at ha
      exact .inr ⟨hm, ha⟩
  have hkept : ∀ id, holder.target ≠ some id → erase targets holder.target id = targets id := by
    intro id hid
    cases htarget : holder.target with
    | none => rfl
    | some gone =>
      have hne : id ≠ gone := fun heq => hid (by rw [htarget, heq])
      exact update_of_ne hne _ _
  have hgone : ∀ id, holder.target = some id → erase targets holder.target id = none := by
    intro id hid
    rw [hid]
    exact update_self ..
  refine ⟨?_, ?_, ?_, ?_⟩
  · intro m a id ha htarget
    obtain ⟨-, rfl⟩ | ⟨hm, hold⟩ := hcases m a ha
    · contradiction
    · rw [hkept id fun hid => hm (h.target_unique hold hholder htarget hid)]
      exact h.target m a id hold htarget
  · intro id key m hid
    have hid' : holder.target ≠ some id := by
      intro heq
      rw [hgone id heq] at hid
      contradiction
    rw [hkept id hid'] at hid
    obtain ⟨n', holder', hm, hholder', hkey, htarget⟩ := h.holder id key m hid
    have hne : n' ≠ n := by
      rintro rfl
      obtain rfl := some_inj.mp (hholder.symm.trans hholder')
      exact hid' htarget
    exact ⟨n', holder', hm, by rwa [update_of_ne hne], hkey, htarget⟩
  · intro m a ha hactive
    obtain ⟨-, rfl⟩ | ⟨-, hold⟩ := hcases m a ha
    · contradiction
    · exact h.active m a hold hactive
  · intro m m' a b ha hb hsame
    obtain ⟨rfl, rfl⟩ | ⟨hm, hold⟩ := hcases m a ha
    · obtain ⟨rfl, -⟩ | ⟨-, hold'⟩ := hcases m' b hb
      · rfl
      · exact h.keys m m' holder b hholder hold' hsame
    · obtain ⟨rfl, rfl⟩ | ⟨-, hold'⟩ := hcases m' b hb
      · exact h.keys m m' a holder hold hholder hsame
      · exact h.keys m m' a b hold hold' hsame

/-- A holder without a target takes a free one. -/
theorem take (h : Linked mark holders targets) (hholder : holders n = some holder) (hnone : holder.target = none)
    (hfree : targets id = none) :
    Linked mark (update holders n (some { holder with target := some id }))
      (update targets id (some (holder.key, mark n))) := by
  have hold : ∀ m a, update holders n (some { holder with target := some id }) m = some a →
      ∃ b, holders m = some b ∧ b.key = a.key ∧ (b.target = a.target ∧ b.active = a.active ∨
        m = n ∧ a.target = some id) := by
    intro m a ha
    by_cases hm : m = n
    · subst hm
      rw [update_self] at ha
      obtain rfl := some_inj.mp ha
      exact ⟨holder, hholder, rfl, .inr ⟨rfl, rfl⟩⟩
    · rw [update_of_ne hm] at ha
      exact ⟨a, ha, rfl, .inl ⟨rfl, rfl⟩⟩
  refine ⟨?_, ?_, ?_, ?_⟩
  · intro m a id' ha htarget
    obtain ⟨b, hb, hkey, ⟨hbtarget, -⟩ | ⟨rfl, htaken⟩⟩ := hold m a ha
    · have hne : id' ≠ id := by
        rintro rfl
        have := h.target m b id' hb (hbtarget.trans htarget)
        rw [hfree] at this
        contradiction
      rw [update_of_ne hne, ← hkey]
      exact h.target m b id' hb (hbtarget.trans htarget)
    · obtain rfl := some_inj.mp (htaken.symm.trans htarget)
      obtain rfl := some_inj.mp (hholder.symm.trans hb)
      rw [update_self, hkey]
  · intro id' key m hid
    by_cases hid' : id' = id
    · subst hid'
      rw [update_self] at hid
      obtain ⟨rfl, rfl⟩ := Prod.mk.inj (some_inj.mp hid)
      exact ⟨n, _, rfl, update_self .., rfl, rfl⟩
    · rw [update_of_ne hid'] at hid
      obtain ⟨n', holder', hm, hholder', hkey, htarget⟩ := h.holder id' key m hid
      have hne : n' ≠ n := by
        rintro rfl
        obtain rfl := some_inj.mp (hholder.symm.trans hholder')
        rw [hnone] at htarget
        contradiction
      exact ⟨n', holder', hm, by rwa [update_of_ne hne], hkey, htarget⟩
  · intro m a ha hactive
    obtain ⟨b, hb, -, ⟨hbtarget, hbactive⟩ | ⟨-, htaken⟩⟩ := hold m a ha
    · rw [← hbtarget]
      exact h.active m b hb (hbactive.trans hactive)
    · rw [htaken]
      exact some_ne_none id
  · intro m m' a b ha hb hsame
    obtain ⟨a', ha', hakey, -⟩ := hold m a ha
    obtain ⟨b', hb', hbkey, -⟩ := hold m' b hb
    exact h.keys m m' a' b' ha' hb' (by rw [hakey, hbkey, hsame])

/-- A holder with a target becomes active. -/
theorem activate (h : Linked mark holders targets) (hholder : holders n = some holder)
    (htarget : holder.target = some id) :
    Linked mark (update holders n (some { holder with active := true })) targets := by
  have hold : ∀ m a, update holders n (some { holder with active := true }) m = some a →
      ∃ b, holders m = some b ∧ b.key = a.key ∧ b.target = a.target ∧ (b.active = a.active ∨ m = n) := by
    intro m a ha
    by_cases hm : m = n
    · subst hm
      rw [update_self] at ha
      obtain rfl := some_inj.mp ha
      exact ⟨holder, hholder, rfl, rfl, .inr rfl⟩
    · rw [update_of_ne hm] at ha
      exact ⟨a, ha, rfl, rfl, .inl rfl⟩
  refine ⟨?_, ?_, ?_, ?_⟩
  · intro m a id' ha hid
    obtain ⟨b, hb, hkey, hbtarget, -⟩ := hold m a ha
    rw [← hkey]
    exact h.target m b id' hb (hbtarget.trans hid)
  · intro id' key m hid
    obtain ⟨n', holder', hm, hholder', hkey, hid'⟩ := h.holder id' key m hid
    by_cases hne : n' = n
    · subst hne
      obtain rfl := some_inj.mp (hholder.symm.trans hholder')
      exact ⟨n', _, hm, update_self .., hkey, hid'⟩
    · exact ⟨n', holder', hm, by rwa [update_of_ne hne], hkey, hid'⟩
  · intro m a ha hactive
    obtain ⟨b, hb, -, hbtarget, hbactive | rfl⟩ := hold m a ha
    · rw [← hbtarget]
      exact h.active m b hb (hbactive.trans hactive)
    · obtain rfl := some_inj.mp (hholder.symm.trans hb)
      rw [← hbtarget, htarget]
      exact some_ne_none id
  · intro m m' a b ha hb hsame
    obtain ⟨a', ha', hakey, -⟩ := hold m a ha
    obtain ⟨b', hb', hbkey, -⟩ := hold m' b hb
    exact h.keys m m' a' b' ha' hb' (by rw [hakey, hbkey, hsame])

end Linked

end Links
