import Mathlib.Data.List.Basic
import Mathlib.Data.Nat.Notation

/-!
# Doubly linked nodes in a heap

Nodes at addresses of a heap, each with the address of the one before it and of the one behind it. `Segment` says that
some nodes are linked in the order of a list; the lemmas say how a segment is taken apart, and what remains of it when
nodes at its ends or in its middle are linked or unlinked.
-/

namespace LinkedNodes

open Function List Option

/-- A node: the addresses of its neighbours, and what it holds. -/
structure Node (α : Type*) where
  prev : Option ℕ
  next : Option ℕ
  value : α

/-- The nodes that are allocated, by address. -/
abbrev Heap (α : Type*) := ℕ → Option (Node α)

variable {α : Type*}

/-- Store the address of the next node in the node that a pointer names, if it names one. There is no result when the
pointer names memory that is not allocated. -/
def setNext (heap : Heap α) : Option ℕ → Option ℕ → Option (Heap α)
  | none, _ => some heap
  | some p, next => (heap p).map fun node => update heap p (some { node with next := next })

/-- Store the address of the node before in the node that a pointer names, if it names one. -/
def setPrev (heap : Heap α) : Option ℕ → Option ℕ → Option (Heap α)
  | none, _ => some heap
  | some p, prev => (heap p).map fun node => update heap p (some { node with prev := prev })

/-- The address of the first of some nodes, or of what is behind them. -/
def first (after : Option ℕ) : List (ℕ × α) → Option ℕ
  | [] => after
  | (p, _) :: _ => some p

/-- The address of the last of some nodes, or of what is before them. -/
def last (before : Option ℕ) : List (ℕ × α) → Option ℕ
  | [] => before
  | (p, _) :: rest => last (some p) rest

/-- The addresses of some nodes. -/
def addresses (nodes : List (ℕ × α)) : List ℕ := nodes.map Prod.fst

/-- Nodes are linked in the order of a list, between what is before and what is behind them. -/
def Segment (heap : Heap α) : Option ℕ → List (ℕ × α) → Option ℕ → Prop
  | _, [], _ => True
  | before, (p, x) :: rest, after => heap p = some ⟨before, first after rest, x⟩ ∧ Segment heap (some p) rest after

/-- The nodes found by following the links from a pointer to the end. -/
inductive Follows (heap : Heap α) : Option ℕ → List ℕ → Prop
  | stop : Follows heap none []
  | go {p : ℕ} {node : Node α} {visited : List ℕ} (hnode : heap p = some node)
      (hrest : Follows heap node.next visited) :
      Follows heap (some p) (p :: visited)

variable {heap : Heap α} {before after : Option ℕ} {nodes front back : List (ℕ × α)} {p : ℕ} {x : α}

/-- Following the links finds one list of nodes. -/
theorem Follows.unique {pointer : Option ℕ} {visited visited' : List ℕ} (h : Follows heap pointer visited)
    (h' : Follows heap pointer visited') : visited = visited' := by
  induction h generalizing visited' with
  | stop =>
    cases h'
    rfl
  | go hnode hrest ih =>
    cases h' with
    | go hnode' hrest' =>
      obtain rfl := some_inj.mp (hnode.symm.trans hnode')
      rw [ih hrest']

theorem last_append (before : Option ℕ) (front : List (ℕ × α)) (p : ℕ) (x : α) :
    last before (front ++ [(p, x)]) = some p := by
  induction front generalizing before with
  | nil => rfl
  | cons node front ih => exact ih _

theorem last_eq_none : last none nodes = none ↔ nodes = [] := by
  rcases eq_nil_or_concat' nodes with rfl | ⟨front, ⟨q, x⟩, rfl⟩
  · exact ⟨fun _ => rfl, fun _ => rfl⟩
  · rw [last_append]
    exact ⟨nofun, fun h => absurd h (append_ne_nil_of_right_ne_nil _ (cons_ne_nil _ _))⟩

theorem first_eq_none : first none nodes = none ↔ nodes = [] := by
  cases nodes with
  | nil => exact ⟨fun _ => rfl, fun _ => rfl⟩
  | cons node back => exact ⟨nofun, nofun⟩

/-- Nodes with a last one. -/
theorem exists_of_last (h : last none nodes = some p) : ∃ front x, nodes = front ++ [(p, x)] := by
  rcases eq_nil_or_concat' nodes with rfl | ⟨front, ⟨q, x⟩, rfl⟩
  · contradiction
  · rw [last_append] at h
    exact ⟨front, x, by rw [some_inj.mp h]⟩

/-- Nodes with a first one. -/
theorem exists_of_first (h : first none nodes = some p) : ∃ x back, nodes = (p, x) :: back := by
  cases nodes with
  | nil => contradiction
  | cons node back => exact ⟨node.2, back, by rw [← some_inj.mp h]⟩

/-- A segment in two parts. -/
theorem segment_append : Segment heap before (front ++ back) after ↔
    Segment heap before front (first after back) ∧ Segment heap (last before front) back after := by
  induction front generalizing before with
  | nil => exact ⟨fun h => ⟨trivial, h⟩, And.right⟩
  | cons node front ih =>
    have hfirst : first after (front ++ back) = first (first after back) front := by
      cases front <;> rfl
    simp only [cons_append, Segment, last, ih, hfirst, and_assoc]

namespace Segment

/-- What the node at a place of a segment holds. -/
theorem node (h : Segment heap before (front ++ (p, x) :: back) after) :
    heap p = some ⟨last before front, first after back, x⟩ :=
  (segment_append.mp h).2.1

/-- A segment only depends on its own nodes. -/
theorem congr {heap' : Heap α} (h : Segment heap before nodes after) (hsame : ∀ q ∈ addresses nodes, heap' q = heap q) :
    Segment heap' before nodes after := by
  induction nodes generalizing before with
  | nil => trivial
  | cons node nodes ih =>
    refine ⟨(hsame _ mem_cons_self).trans h.1, ih h.2 ?_⟩
    intro q hq
    exact hsame q (mem_cons_of_mem _ hq)

/-- Following the links of a whole list finds all its nodes. -/
theorem follows (h : Segment heap before nodes none) : Follows heap (first none nodes) (addresses nodes) := by
  induction nodes generalizing before with
  | nil => exact .stop
  | cons node nodes ih => exact .go h.1 (ih h.2)

/-- In a whole list one node is behind another exactly when that one is before it. -/
theorem next_iff_prev (h : Segment heap none nodes none) {p q : ℕ} {a b : Node α} (hp : p ∈ addresses nodes)
    (hq : q ∈ addresses nodes) (ha : heap p = some a) (hb : heap q = some b) : a.next = some q ↔ b.prev = some p := by
  obtain ⟨⟨p, x⟩, hpmem, rfl⟩ := List.mem_map.mp hp
  obtain ⟨⟨q, y⟩, hqmem, rfl⟩ := List.mem_map.mp hq
  constructor
  · intro hnext
    obtain ⟨front, back, rfl⟩ := append_of_mem hpmem
    obtain rfl := some_inj.mp (ha.symm.trans h.node)
    obtain ⟨z, back, rfl⟩ := exists_of_first hnext
    rw [append_cons] at h
    obtain rfl := some_inj.mp (hb.symm.trans h.node)
    exact last_append _ _ _ _
  · intro hprev
    obtain ⟨front, back, rfl⟩ := append_of_mem hqmem
    obtain rfl := some_inj.mp (hb.symm.trans h.node)
    obtain ⟨front, z, rfl⟩ := exists_of_last hprev
    rw [append_assoc] at h
    obtain rfl := some_inj.mp (ha.symm.trans h.node)
    rfl

/-- The last node of a segment gets another one behind it. -/
theorem setNext_last (h : Segment heap none nodes after) (hnodup : (addresses nodes).Nodup) (after' : Option ℕ) :
    ∃ heap', setNext heap (last none nodes) after' = some heap' ∧ Segment heap' none nodes after' ∧
      ∀ q, q ∉ addresses nodes → heap' q = heap q := by
  rcases eq_nil_or_concat' nodes with rfl | ⟨front, ⟨p, x⟩, rfl⟩
  · exact ⟨heap, rfl, trivial, fun _ _ => rfl⟩
  · have hnode := h.node
    refine ⟨update heap p (some ⟨last none front, after', x⟩), ?_, ?_, ?_⟩
    · rw [last_append, setNext, hnode]
      rfl
    · refine segment_append.mpr ⟨(segment_append.mp h).1.congr ?_, update_self _ _ _, trivial⟩
      intro q hq
      refine update_of_ne ?_ _ _
      rintro rfl
      rw [addresses, map_append, nodup_append] at hnodup
      exact hnodup.2.2 q hq q mem_cons_self rfl
    · intro q hq
      refine update_of_ne ?_ _ _
      rintro rfl
      exact hq (List.mem_map_of_mem (mem_append_right _ mem_cons_self))

/-- The first node of a segment gets another one before it. -/
theorem setPrev_first (h : Segment heap before nodes none) (hnodup : (addresses nodes).Nodup) (before' : Option ℕ) :
    ∃ heap', setPrev heap (first none nodes) before' = some heap' ∧ Segment heap' before' nodes none ∧
      ∀ q, q ∉ addresses nodes → heap' q = heap q := by
  cases nodes with
  | nil => exact ⟨heap, rfl, trivial, fun _ _ => rfl⟩
  | cons node back =>
    obtain ⟨p, x⟩ := node
    obtain ⟨hp, -⟩ := nodup_cons.mp hnodup
    refine ⟨update heap p (some ⟨before', first none back, x⟩), ?_, ⟨update_self _ _ _, h.2.congr ?_⟩, ?_⟩
    · rw [first, setPrev, h.1]
      rfl
    · intro q hq
      refine update_of_ne ?_ _ _
      rintro rfl
      exact hp hq
    · intro q hq
      refine update_of_ne ?_ _ _
      rintro rfl
      exact hq mem_cons_self

/-- Two segments are joined to one list. -/
theorem join (hfront : Segment heap none front after) (hback : Segment heap before back none)
    (hnodup : (addresses (front ++ back)).Nodup) :
    ∃ heap₁ heap₂, setNext heap (last none front) (first none back) = some heap₁ ∧
      setPrev heap₁ (first none back) (last none front) = some heap₂ ∧ Segment heap₂ none (front ++ back) none := by
  simp only [addresses, map_append] at hnodup
  obtain ⟨hnodupFront, hnodupBack, hdisjoint⟩ := nodup_append.mp hnodup
  obtain ⟨heap₁, hheap₁, hfront₁, hother₁⟩ := hfront.setNext_last hnodupFront (first none back)
  have hback₁ : Segment heap₁ before back none :=
    hback.congr fun q hq => hother₁ q fun hmem => hdisjoint q hmem q hq rfl
  obtain ⟨heap₂, hheap₂, hback₂, hother₂⟩ := hback₁.setPrev_first hnodupBack (last none front)
  have hfront₂ : Segment heap₂ none front (first none back) :=
    hfront₁.congr fun q hq => hother₂ q fun hmem => hdisjoint q hq q hmem rfl
  exact ⟨heap₁, heap₂, hheap₁, hheap₂, segment_append.mpr ⟨hfront₂, hback₂⟩⟩

end Segment

end LinkedNodes
