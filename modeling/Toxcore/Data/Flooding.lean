import Mathlib.Algebra.BigOperators.Group.Finset.Piecewise
import Mathlib.Algebra.GroupWithZero.Nat
import Mathlib.Algebra.Order.BigOperators.Group.Finset
import Mathlib.Data.Fintype.Basic
import Mathlib.Logic.Relation

/-!
# Flooding

Nodes are joined by links that keep the order. Every node numbers its own messages 1, 2, 3 and so on and puts them on
all of its links; what it takes from a link and did not have it puts on all of its links too. So a message comes to a
node on many ways, also to the one that made it.

A number that comes is at most one more than the last one the node has. So every node has the messages of every other
in their order, none is left out, and once nothing is on its way all nodes that can be reached have all of them. A
message is put on the links of a node at most twice, by the node that made it, and at most once by the others.
-/

namespace Flooding

open Finset Function List

/-! ## Numbers on their way -/

/-- The greatest of a number and those that come. -/
def top : ℕ → List ℕ → ℕ
  | a, [] => a
  | a, k :: ks => top (max a k) ks

/-- No number that comes is left out: each is at most one more than the greatest before it. -/
def Gapless : ℕ → List ℕ → Prop
  | _, [] => True
  | a, k :: ks => k ≤ a + 1 ∧ Gapless (max a k) ks

variable {a : ℕ}

theorem top_mono {b : ℕ} (h : a ≤ b) (ks : List ℕ) : top a ks ≤ top b ks := by
  induction ks generalizing a b with
  | nil => exact h
  | cons k ks ih => exact ih (max_le_max_right k h)

theorem top_append (a : ℕ) (ks : List ℕ) (k : ℕ) : top a (ks ++ [k]) = max (top a ks) k := by
  induction ks generalizing a with
  | nil => rfl
  | cons j ks ih => exact ih _

/-- A later start has no gap either. -/
theorem Gapless.mono {b : ℕ} {ks : List ℕ} (h : Gapless a ks) (hle : a ≤ b) : Gapless b ks := by
  induction ks generalizing a b with
  | nil => trivial
  | cons k ks ih => exact ⟨h.1.trans (Nat.add_le_add_right hle 1), ih h.2 (max_le_max_right k hle)⟩

/-- The next number makes no gap. -/
theorem Gapless.append {k : ℕ} {ks : List ℕ} (h : Gapless a ks) (hk : k ≤ top a ks + 1) : Gapless a (ks ++ [k]) := by
  induction ks generalizing a with
  | nil => exact ⟨hk, trivial⟩
  | cons j ks ih => exact ⟨h.1, ih h.2 hk⟩

/-! ## Nets -/

/-- For each node the number of its own messages, for each two the last number that the first has of the second, and
what is on the way on the links, the oldest first. -/
structure Net (ι : Type*) where
  sent : ι → ℕ
  last : ι → ι → ℕ
  queue : ι → ι → List (ι × ℕ)

namespace Net

variable {ι : Type*} [DecidableEq ι] (links : ι → Finset ι) (net : Net ι)

/-- Put a message on all links of a node. -/
def push (u : ι) (message : ι × ℕ) : Net ι :=
  { net with queue := fun x y => if x = u ∧ y ∈ links u then net.queue x y ++ [message] else net.queue x y }

/-- A node makes a message. -/
def send (o : ι) : Net ι :=
  push links { net with sent := update net.sent o (net.sent o + 1) } o (o, net.sent o + 1)

/-- Take the oldest message off a link. -/
def pop (u v : ι) : Net ι :=
  { net with queue := update net.queue u (update (net.queue u) v (net.queue u v).tail) }

/-- A node has a number of another. -/
def advance (v o : ι) (k : ℕ) : Net ι :=
  { net with last := update net.last v (update (net.last v) o k) }

/-- A node takes the oldest message off a link and puts it on its own links, if it is new to it. -/
def deliver (u v : ι) : Net ι :=
  match net.queue u v with
  | [] => net
  | (o, k) :: _ => if net.last v o < k then ((net.pop u v).advance v o k).push links v (o, k) else net.pop u v

/-- The numbers of the messages of a node on a link. -/
def numbers (o u v : ι) : List ℕ := (net.queue u v).filterMap fun message =>
    if message.1 = o then some message.2 else none

/-- The last number that a node can have put on its links. -/
def reach (u o : ι) : ℕ := if u = o then net.sent o else net.last u o

/-! ## The invariant -/

/-- What is on the links, where a node put numbers up to a bound on its own. -/
structure Carries (bound : ι → ι → ℕ) : Prop where
  gapless : ∀ u v o, Gapless (net.last v o) (net.numbers o u v)
  complete : ∀ u, ∀ v ∈ links u, ∀ o, bound u o ≤ top (net.last v o) (net.numbers o u v)

/-- Every number on a link and every last number is one of a message that was made. -/
structure Made : Prop where
  last : ∀ v o, net.last v o ≤ net.sent o
  queue : ∀ u v, ∀ message ∈ net.queue u v, 0 < message.2 ∧ message.2 ≤ net.sent message.1

/-- The state of a net that only passes messages on. -/
structure Flooded : Prop where
  made : net.Made
  carries : net.Carries links net.reach

variable {links net}

theorem numbers_push (u : ι) (o : ι) (k : ℕ) (o' x y : ι) :
    (net.push links u (o, k)).numbers o' x y =
      if (x = u ∧ y ∈ links u) ∧ o = o' then net.numbers o' x y ++ [k] else net.numbers o' x y := by
  unfold numbers push
  dsimp only
  by_cases hlink : x = u ∧ y ∈ links u
  · rw [if_pos hlink, filterMap_append]
    by_cases ho : o = o'
    · rw [if_pos ⟨hlink, ho⟩, filterMap_cons, if_pos ho, filterMap_nil]
    · rw [if_neg fun h => ho h.2, filterMap_cons, if_neg ho, filterMap_nil, append_nil]
  · rw [if_neg hlink, if_neg fun h => hlink h.1]

theorem queue_pop (u v x y : ι) :
    (net.pop u v).queue x y = if x = u ∧ y = v then (net.queue u v).tail else net.queue x y := by
  unfold pop
  dsimp only
  by_cases hx : x = u
  · subst hx
    rw [update_self]
    by_cases hy : y = v
    · rw [hy, update_self, if_pos ⟨rfl, rfl⟩]
    · rw [update_of_ne hy, if_neg fun h => hy h.2]
  · rw [update_of_ne hx, if_neg fun h => hx h.1]

/-- The last number of one origin is written. -/
theorem last_advance (v o : ι) (k : ℕ) (y o' : ι) :
    (net.advance v o k).last y o' = if y = v ∧ o' = o then k else net.last y o' := by
  unfold advance
  dsimp only
  by_cases hy : y = v
  · subst hy
    rw [update_self]
    by_cases ho : o' = o
    · rw [ho, update_self, if_pos ⟨rfl, rfl⟩]
    · rw [update_of_ne ho, if_neg fun h => ho h.2]
  · rw [update_of_ne hy, if_neg fun h => hy h.1]

variable {bound : ι → ι → ℕ} {k : ℕ} {o u v : ι} {rest : List (ι × ℕ)}

/-- A node puts a number on its links that is at most the next one. -/
theorem Carries.push (h : net.Carries links bound) (hk : k ≤ bound u o + 1) :
    (net.push links u (o, k)).Carries links
      (update bound u (update (bound u) o (max (bound u o) k))) where
  gapless x y o' := by
    rw [numbers_push]
    split
    · rename_i hpushed
      obtain ⟨⟨rfl, hy⟩, rfl⟩ := hpushed
      exact (h.gapless x y o).append (hk.trans (Nat.add_le_add_right (h.complete x y hy o) 1))
    · exact h.gapless x y o'
  complete x y hy o' := by
    rw [numbers_push]
    have hbefore := h.complete x y hy o'
    by_cases hx : x = u
    · subst hx
      rw [update_self]
      by_cases ho : o' = o
      · subst ho
        rw [update_self, if_pos ⟨⟨rfl, hy⟩, rfl⟩, top_append]
        exact max_le_max_right k hbefore
      · rw [update_of_ne ho, if_neg fun hpushed => ho hpushed.2.symm]
        exact hbefore
    · rw [update_of_ne hx, if_neg fun hpushed => hx hpushed.1.1]
      exact hbefore

/-- A node takes the oldest number off a link. -/
theorem Carries.take (h : net.Carries links bound) (hqueue : net.queue u v = (o, k) :: rest) :
    ((net.pop u v).advance v o (max (net.last v o) k)).Carries links bound := by
  have hnumbers (o' x y : ι) : ((net.pop u v).advance v o (max (net.last v o) k)).numbers o' x y =
      if x = u ∧ y = v then rest.filterMap fun message => if message.1 = o' then some message.2 else none
      else net.numbers o' x y := by
    have hsame : ((net.pop u v).advance v o (max (net.last v o) k)).queue = (net.pop u v).queue := rfl
    rw [numbers, hsame, queue_pop, hqueue, tail_cons]
    split <;> rfl
  have hlast (y o' : ι) : ((net.pop u v).advance v o (max (net.last v o) k)).last y o' =
      if y = v ∧ o' = o then max (net.last v o) k else net.last y o' := last_advance ..
  have hhead (o' : ι) : net.numbers o' u v =
      (if o = o' then [k] else []) ++ rest.filterMap fun message =>
        if message.1 = o' then some message.2 else none := by
    rw [numbers, hqueue, filterMap_cons]
    by_cases ho : o = o'
    · rw [if_pos ho, if_pos ho]
      rfl
    · rw [if_neg ho, if_neg ho]
      rfl
  have hmono (y o' : ι) : net.last y o' ≤ if y = v ∧ o' = o then max (net.last v o) k else net.last y o' := by
    split
    · rename_i hboth
      rw [hboth.1, hboth.2]
      exact le_max_left _ _
    · exact le_refl _
  constructor
  · intro x y o'
    rw [hnumbers, hlast]
    have hbefore := h.gapless x y o'
    by_cases hxy : x = u ∧ y = v
    · rw [if_pos hxy]
      obtain ⟨rfl, rfl⟩ := hxy
      rw [hhead] at hbefore
      by_cases ho : o' = o
      · rw [if_pos ⟨rfl, ho⟩]
        subst ho
        rw [if_pos rfl] at hbefore
        exact hbefore.2
      · rw [if_neg fun hboth => ho hboth.2]
        rw [if_neg (Ne.symm ho)] at hbefore
        exact hbefore
    · rw [if_neg hxy]
      exact hbefore.mono (hmono y o')
  · intro x y hy o'
    rw [hnumbers, hlast]
    have hbefore := h.complete x y hy o'
    by_cases hxy : x = u ∧ y = v
    · rw [if_pos hxy]
      obtain ⟨rfl, rfl⟩ := hxy
      rw [hhead] at hbefore
      by_cases ho : o' = o
      · rw [if_pos ⟨rfl, ho⟩]
        subst ho
        rw [if_pos rfl] at hbefore
        exact hbefore
      · rw [if_neg fun hboth => ho hboth.2]
        rw [if_neg (Ne.symm ho)] at hbefore
        exact hbefore
    · rw [if_neg hxy]
      exact hbefore.trans (top_mono (hmono y o') _)

/-- What is on the links is what the nodes put there, up to a smaller bound too. -/
theorem Carries.of_le {bound' : ι → ι → ℕ} (h : net.Carries links bound) (hle : ∀ u o, bound' u o ≤ bound u o) :
    net.Carries links bound' where
  gapless := h.gapless
  complete u v hv o := (hle u o).trans (h.complete u v hv o)

/-- A number that a node already has changes nothing. -/
theorem advance_last (v o : ι) : net.advance v o (net.last v o) = net := by
  unfold advance
  rw [update_eq_self, update_eq_self]

/-! ## Steps -/

/-- Nothing is on its way before the first message. -/
theorem Flooded.start : (⟨fun _ => 0, fun _ _ => 0, fun _ _ => []⟩ : Net ι).Flooded links where
  made := ⟨fun _ _ => le_refl _, fun _ _ _ h => absurd h (not_mem_nil)⟩
  carries := by
    constructor
    · exact fun _ _ _ => trivial
    · intro u v _ o
      rw [reach]
      split <;> exact Nat.zero_le _

/-- A node that makes a message. -/
theorem Flooded.send (h : net.Flooded links) (o : ι) : (net.send links o).Flooded links := by
  have hsent (o' : ι) : (net.send links o).sent o' = if o' = o then net.sent o + 1 else net.sent o' :=
    update_apply ..
  constructor
  · constructor
    · intro v o'
      refine (h.made.last v o').trans ?_
      rw [hsent]
      split
      · rename_i ho
        rw [ho]
        exact Nat.le_succ _
      · exact le_refl _
    · intro u v message hmessage
      have hcases : message ∈ net.queue u v ∨ message = (o, net.sent o + 1) := by
        unfold Net.send Net.push at hmessage
        dsimp only at hmessage
        split at hmessage
        · rcases mem_append.mp hmessage with hold | hnew
          · exact .inl hold
          · exact .inr (List.mem_singleton.mp hnew)
        · exact .inl hmessage
      rw [hsent]
      rcases hcases with hold | rfl
      · obtain ⟨hpositive, hle⟩ := h.made.queue u v message hold
        refine ⟨hpositive, hle.trans ?_⟩
        split
        · rename_i ho
          rw [ho]
          exact Nat.le_succ _
        · exact le_refl _
      · rw [if_pos rfl]
        exact ⟨Nat.succ_pos _, le_refl _⟩
  · have hbefore : Carries links { net with sent := update net.sent o (net.sent o + 1) } net.reach :=
      ⟨h.carries.gapless, h.carries.complete⟩
    have hown : net.reach o o = net.sent o := if_pos rfl
    have hpushed := hbefore.push (u := o) (o := o) (k := net.sent o + 1) (by rw [hown])
    apply hpushed.of_le
    intro x y
    by_cases hx : x = o
    · subst hx
      rw [update_self]
      by_cases hy : y = x
      · subst hy
        rw [update_self, reach, if_pos rfl, hsent, if_pos rfl]
        exact le_max_right _ _
      · rw [update_of_ne hy, reach, reach, if_neg (Ne.symm hy), if_neg (Ne.symm hy)]
        exact le_refl _
    · rw [update_of_ne hx, reach, reach]
      by_cases hxy : x = y
      · subst hxy
        rw [if_pos rfl, if_pos rfl, hsent, if_neg hx]
      · rw [if_neg hxy, if_neg hxy]
        exact le_refl _

/-- A number that comes and is new to a node is the next one. -/
theorem Flooded.next (h : net.Flooded links) (hqueue : net.queue u v = (o, k) :: rest) (hnew : net.last v o < k) :
    k = net.last v o + 1 := by
  have hgapless := h.carries.gapless u v o
  rw [numbers, hqueue, filterMap_cons, if_pos rfl] at hgapless
  have hle : k ≤ net.last v o + 1 := hgapless.1
  omega

/-- A node that takes a message off a link, has its number if it did not, and may put it on its own links. -/
theorem Made.take (h : net.Made) (hqueue : net.queue u v = (o, k) :: rest) :
    ((net.pop u v).advance v o (max (net.last v o) k)).Made := by
  have hhead : (o, k) ∈ net.queue u v := by
    rw [hqueue]
    exact mem_cons_self
  constructor
  · intro y o'
    rw [last_advance]
    split
    · rename_i hboth
      rw [hboth.2]
      exact max_le (h.last v o) (h.queue u v (o, k) hhead).2
    · exact h.last y o'
  · intro x y message hmessage
    have hkept : message ∈ net.queue x y := by
      have hsame : ((net.pop u v).advance v o (max (net.last v o) k)).queue = (net.pop u v).queue := rfl
      rw [hsame, queue_pop] at hmessage
      split at hmessage
      · rename_i hboth
        rw [hboth.1, hboth.2]
        exact mem_of_mem_tail hmessage
      · exact hmessage
    exact h.queue x y message hkept

/-- A message that was made is sent. -/
theorem Made.push (h : net.Made) (hk : 0 < k ∧ k ≤ net.sent o) : (net.push links u (o, k)).Made where
  last := h.last
  queue x y message hmessage := by
    unfold Net.push at hmessage
    dsimp only at hmessage
    split at hmessage
    · rcases mem_append.mp hmessage with hold | hnew
      · exact h.queue x y message hold
      · rw [List.mem_singleton.mp hnew]
        exact hk
    · exact h.queue x y message hmessage

/-- A node that takes the oldest message off a link. -/
theorem Flooded.deliver (h : net.Flooded links) (u v : ι) : (net.deliver links u v).Flooded links := by
  rw [Net.deliver]
  split
  · exact h
  · rename_i o k rest hqueue
    have hmade := h.made.take hqueue
    have htaken := h.carries.take hqueue
    split
    · rename_i hnew
      rw [max_eq_right hnew.le] at hmade htaken
      have hhead : (o, k) ∈ net.queue u v := by
        rw [hqueue]
        exact mem_cons_self
      have hmessage := h.made.queue u v (o, k) hhead
      constructor
      · exact hmade.push hmessage
      · have hk : k ≤ net.reach v o + 1 := by
          rw [reach]
          split
          · exact hmessage.2.trans (Nat.le_succ _)
          · exact (h.next hqueue hnew).le
        apply (htaken.push hk).of_le
        intro x o'
        have hreach : (((net.pop u v).advance v o k).push links v (o, k)).reach x o' =
            if x = o' then net.sent o' else ((net.pop u v).advance v o k).last x o' := rfl
        rw [hreach, last_advance]
        by_cases hx : x = v
        · subst hx
          rw [update_self]
          by_cases ho : o' = o
          · subst ho
            rw [update_self, if_pos (show x = x ∧ o' = o' from ⟨rfl, rfl⟩), reach]
            split
            · exact le_max_left _ _
            · exact le_max_right _ _
          · rw [update_of_ne ho, if_neg (show ¬(x = x ∧ o' = o) from fun hboth => ho hboth.2)]
            exact le_refl _
        · rw [update_of_ne hx, if_neg (show ¬(x = v ∧ o' = o) from fun hboth => hx hboth.1)]
          exact le_refl _
    · rename_i hold
      have hsame : (net.pop u v).advance v o (max (net.last v o) k) = net.pop u v := by
        rw [max_eq_left (Nat.le_of_not_lt hold)]
        exact advance_last ..
      rw [hsame] at hmade htaken
      exact ⟨hmade, htaken⟩

/-! ## When nothing is on its way -/

/-- Once the links are empty, a node has all messages of every node that it can be reached from. -/
theorem Flooded.complete (h : net.Flooded links) (hempty : ∀ u, ∀ v ∈ links u, net.queue u v = [])
    (hreached : Relation.TransGen (fun u v => v ∈ links u) o v) : net.last v o = net.sent o := by
  have hlink {u v : ι} (hv : v ∈ links u) : net.reach u o ≤ net.last v o := by
    have hall := h.carries.complete u v hv o
    rw [numbers, hempty u v hv] at hall
    exact hall
  induction hreached with
  | single hv =>
    have hown : net.reach o o = net.sent o := if_pos rfl
    exact le_antisymm (h.made.last _ _) (hown.symm.le.trans (hlink hv))
  | @tail u v _ hv ih =>
    have hown : net.reach u o = net.sent o := by
      rw [reach, ih]
      exact ite_self _
    exact le_antisymm (h.made.last _ _) (hown.symm.le.trans (hlink hv))

/-! ## The number of deliveries -/

section Work

variable [Fintype ι]

/-- The deliveries that are still to come, if no more messages are made. -/
def work (links : ι → Finset ι) (net : Net ι) : ℕ :=
  ∑ u, ∑ v, (net.queue u v).length + ∑ v, ∑ o, (net.sent o - net.last v o) * (links v).card

theorem sum_pair_eq (u v : ι) (c : ℕ) : (∑ x, ∑ y, if x = u ∧ y = v then c else 0) = c := by
  rw [sum_eq_single u, sum_eq_single v]
  · exact if_pos ⟨rfl, rfl⟩
  · exact fun y _ hy => if_neg fun hboth => hy hboth.2
  · exact fun hv => absurd (mem_univ v) hv
  · exact fun x _ hx => sum_eq_zero fun y _ => if_neg fun hboth => hx hboth.1
  · exact fun hu => absurd (mem_univ u) hu

/-- A message is put on each link of a node. -/
theorem sum_length_push (links : ι → Finset ι) (net : Net ι) (u : ι) (message : ι × ℕ) :
    ∑ x, ∑ y, ((net.push links u message).queue x y).length = ∑ x, ∑ y, (net.queue x y).length + (links u).card := by
  have hone (x y : ι) : ((net.push links u message).queue x y).length =
      (net.queue x y).length + if x = u ∧ y ∈ links u then 1 else 0 := by
    unfold push
    dsimp only
    split
    · rw [length_append, length_singleton]
    · rfl
  simp only [hone, sum_add_distrib, Nat.add_left_cancel_iff]
  rw [sum_eq_single u]
  · simp
  · exact fun x _ hx => sum_eq_zero fun y _ => if_neg fun hboth => hx hboth.1
  · exact fun hu => absurd (mem_univ u) hu

variable {v : ι}

theorem sum_length_pop (hqueue : net.queue u v ≠ []) :
    ∑ x, ∑ y, ((net.pop u v).queue x y).length + 1 = ∑ x, ∑ y, (net.queue x y).length := by
  have hone (x y : ι) : (net.queue x y).length =
      ((net.pop u v).queue x y).length + if x = u ∧ y = v then 1 else 0 := by
    rw [queue_pop]
    split
    · rename_i hboth
      rw [hboth.1, hboth.2, length_tail]
      exact (Nat.sub_add_cancel (length_pos_of_ne_nil hqueue)).symm
    · rfl
  simp only [hone, sum_add_distrib]
  rw [sum_pair_eq]

/-- What a node does not have yet, it will put on its links once. -/
theorem sum_missing_advance (links : ι → Finset ι) (hk : k = net.last v o + 1) (hle : k ≤ net.sent o) :
    ∑ y, ∑ o', (net.sent o' - (net.advance v o k).last y o') * (links y).card + (links v).card =
      ∑ y, ∑ o', (net.sent o' - net.last y o') * (links y).card := by
  have hone (y o' : ι) : (net.sent o' - net.last y o') * (links y).card =
      (net.sent o' - (net.advance v o k).last y o') * (links y).card +
        if y = v ∧ o' = o then (links v).card else 0 := by
    rw [last_advance]
    split
    · rename_i hboth
      rw [hboth.1, hboth.2, ← Nat.succ_mul]
      congr 1
      omega
    · rfl
  simp only [hone, sum_add_distrib]
  rw [sum_pair_eq]

/-- Every delivery makes the work less by one. -/
theorem Flooded.work_deliver (h : net.Flooded links) (hqueue : net.queue u v ≠ []) :
    work links (net.deliver links u v) + 1 = work links net := by
  have hpopped := sum_length_pop hqueue
  rw [Net.deliver]
  split
  · rename_i hnil
    exact absurd hnil hqueue
  · rename_i o k rest hhead
    split
    · rename_i hnew
      have hmem : (o, k) ∈ net.queue u v := by
        rw [hhead]
        exact mem_cons_self
      have hmissing := sum_missing_advance links (h.next hhead hnew) (h.made.queue u v (o, k) hmem).2
      have hpushed := sum_length_push links ((net.pop u v).advance v o k) v (o, k)
      have hqueues : ((net.pop u v).advance v o k).queue = (net.pop u v).queue := rfl
      have hlast : (((net.pop u v).advance v o k).push links v (o, k)).last = (net.advance v o k).last := rfl
      have hsent : (((net.pop u v).advance v o k).push links v (o, k)).sent = net.sent := rfl
      rw [hqueues] at hpushed
      rw [work, work, hlast, hsent, hpushed]
      omega
    · have hlast : (net.pop u v).last = net.last := rfl
      have hsent : (net.pop u v).sent = net.sent := rfl
      rw [work, work, hlast, hsent]
      omega

/-- A message is delivered at most once on each link for every node that passes it on, and once more on those of the
node that made it. -/
theorem Flooded.work_send (h : net.Flooded links) (o : ι) :
    work links (net.send links o) = work links net + ((links o).card + ∑ v, (links v).card) := by
  have hpushed := sum_length_push links { net with sent := update net.sent o (net.sent o + 1) } o (o, net.sent o + 1)
  have hmissing (v o' : ι) : (update net.sent o (net.sent o + 1) o' - net.last v o') * (links v).card =
      (net.sent o' - net.last v o') * (links v).card + if o' = o then (links v).card else 0 := by
    split
    · rename_i ho
      have hle := h.made.last v o
      rw [ho, update_self, ← Nat.succ_mul]
      congr 1
      omega
    · rename_i ho
      rw [update_of_ne ho, Nat.add_zero]
  have hlast : (net.send links o).last = net.last := rfl
  have hsent : (net.send links o).sent = update net.sent o (net.sent o + 1) := rfl
  have hqueues : ({ net with sent := update net.sent o (net.sent o + 1) } : Net ι).queue = net.queue := rfl
  rw [hqueues] at hpushed
  rw [work, work, hlast, hsent, Net.send, hpushed]
  simp only [hmissing, sum_add_distrib, sum_ite_eq', mem_univ, if_true]
  omega

end Work

end Net

end Flooding
