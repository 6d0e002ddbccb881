import Mathlib.Algebra.Group.Nat.Defs
import Toxcore.Av.CallContainer

/-!
# The calls of a container

When the list, its ends and the array of a container agree, in every run that creates and removes calls.
-/

namespace Toxcore

open LinkedNodes Function List Option

namespace Calls

/-- Where `calls[calls_head]` points, when there is an array. -/
def start (t : Calls) : Option ℕ := t.calls.bind fun calls => entry calls t.callsHead

/-- The container holds exactly some calls, each an address and a friend number. -/
structure HoldsExactly (t : Calls) (live : List (ℕ × UInt32)) : Prop where
  visits : ∃ visited, Follows t.heap t.start visited ∧ visited.Perm (addresses live)
  inverse : ∀ p q a b, p ∈ addresses live → q ∈ addresses live → t.heap p = some a → t.heap q = some b →
    (a.next = some q ↔ b.prev = some p)
  friend : ∀ p friendNumber, (p, friendNumber) ∈ live → ∃ node, t.heap p = some node ∧ node.value = friendNumber
  tail : live ≠ [] → (∃ p, (p, t.callsTail) ∈ live) ∧ ∀ p friendNumber, (p, friendNumber) ∈ live →
    friendNumber ≤ t.callsTail
  get : ∀ friendNumber, ∃ call, t.getCall friendNumber = some call ∧ ∀ p, call = some p ↔ (p, friendNumber) ∈ live

/-- The calls of the array are those of a list, up to the last one. -/
structure Array (calls : List (Option ℕ)) (callsTail : UInt32) (l : List (ℕ × UInt32)) : Prop where
  length : callsTail.toNat < calls.length
  entries : ∀ friendNumber, friendNumber ≤ callsTail →
    ∃ call, calls[friendNumber.toNat]? = some call ∧ ∀ p, call = some p ↔ (p, friendNumber) ∈ l

/-- Calls are linked in the order of their friend numbers, and the ends and the array are those of the list. -/
structure Threads (t : Calls) (l : List (ℕ × UInt32)) : Prop where
  segment : Segment t.heap none l none
  sorted : l.Pairwise fun a b => a.2 < b.2
  cleared : l = [] → t.calls = none
  head : ∀ p friendNumber back, l = (p, friendNumber) :: back → t.callsHead = friendNumber
  tail : ∀ p friendNumber front, l = front ++ [(p, friendNumber)] → t.callsTail = friendNumber
  array : l ≠ [] → ∃ calls, t.calls = some calls ∧ Array calls t.callsTail l

variable {t : Calls} {l : List (ℕ × UInt32)}

namespace Threads

variable {friendNumber : UInt32} {p : ℕ}

section

variable (h : Threads t l)
include h

/-- No call is behind the tail. -/
theorem le_tail (hmem : (p, friendNumber) ∈ l) : friendNumber ≤ t.callsTail := by
  rcases eq_nil_or_concat' l with rfl | ⟨front, ⟨q, number⟩, rfl⟩
  · contradiction
  · rw [h.tail q number front rfl]
    rcases mem_append.mp hmem with hfront | hlast
    · exact UInt32.le_of_lt ((pairwise_append.mp h.sorted).2.2 _ hfront _ mem_cons_self)
    · rw [(Prod.mk.inj (mem_singleton.mp hlast)).2]
      exact UInt32.le_refl _

/-- No call is before the head. -/
theorem head_le (hmem : (p, friendNumber) ∈ l) : t.callsHead ≤ friendNumber := by
  cases l with
  | nil => contradiction
  | cons node back =>
    rw [h.head node.1 node.2 back rfl]
    rcases mem_cons.mp hmem with rfl | hback
    · exact UInt32.le_refl _
    · exact UInt32.le_of_lt ((pairwise_cons.mp h.sorted).1 _ hback)

/-- The tail is a call. -/
theorem tail_mem (hne : l ≠ []) : ∃ p, (p, t.callsTail) ∈ l := by
  obtain rfl | ⟨front, ⟨q, number⟩, rfl⟩ := eq_nil_or_concat' l
  · contradiction
  · exact ⟨q, by rw [h.tail q number front rfl]; exact mem_append_right _ mem_cons_self⟩

/-- What is allocated for a call of the list. -/
theorem node (hmem : (p, friendNumber) ∈ l) : ∃ node, t.heap p = some node ∧ node.value = friendNumber := by
  obtain ⟨front, back, rfl⟩ := append_of_mem hmem
  exact ⟨_, h.segment.node, rfl⟩

/-- Calls of the list have different addresses, since an address has one friend number. -/
theorem nodup : (addresses l).Nodup := by
  rw [addresses, List.Nodup, pairwise_map]
  refine h.sorted.imp_of_mem ?_
  intro a b ha hb hlt heq
  obtain ⟨node, hnode, hvalue⟩ := h.node ha
  obtain ⟨node', hnode', hvalue'⟩ := h.node hb
  rw [heq] at hnode
  obtain rfl := some_inj.mp (hnode.symm.trans hnode')
  rw [← hvalue, ← hvalue'] at hlt
  exact UInt32.lt_irrefl _ hlt

/-- `get_call` finds the calls of the list. -/
theorem getCall (friendNumber : UInt32) :
    ∃ call, t.getCall friendNumber = some call ∧ ∀ p, call = some p ↔ (p, friendNumber) ∈ l := by
  unfold Calls.getCall
  by_cases hne : l = []
  · rw [h.cleared hne, hne]
    exact ⟨none, rfl, fun p => ⟨nofun, fun hmem => absurd hmem not_mem_nil⟩⟩
  · obtain ⟨calls, hcalls, harray⟩ := h.array hne
    rw [hcalls]
    by_cases hlt : t.callsTail < friendNumber
    · refine ⟨none, if_pos hlt, fun p => ⟨nofun, fun hmem => ?_⟩⟩
      exact absurd (h.le_tail hmem) (UInt32.not_le.mpr hlt)
    · obtain ⟨call, hcall, hiff⟩ := harray.entries friendNumber (UInt32.not_lt.mp hlt)
      exact ⟨call, (if_neg hlt).trans hcall, hiff⟩

/-- The start of the list. -/
theorem start_eq : t.start = first none l := by
  cases l with
  | nil => rw [start, h.cleared rfl]; rfl
  | cons node back =>
    obtain ⟨p, friendNumber⟩ := node
    obtain ⟨calls, hcalls, harray⟩ := h.array (cons_ne_nil _ _)
    have hmem : (p, friendNumber) ∈ (p, friendNumber) :: back := mem_cons_self
    obtain ⟨call, hcall, hiff⟩ := harray.entries friendNumber (h.le_tail hmem)
    rw [start, hcalls, h.head p friendNumber back rfl]
    change entry calls friendNumber = some p
    rw [entry, hcall, (hiff p).mpr hmem]
    rfl

/-- What is threaded is what the container holds. -/
theorem holdsExactly {live : List (ℕ × UInt32)} (hperm : live.Perm l) : HoldsExactly t live where
  visits := ⟨addresses l, h.start_eq ▸ h.segment.follows, (hperm.symm.map Prod.fst)⟩
  inverse p q a b hp hq ha hb :=
    h.segment.next_iff_prev ((hperm.map Prod.fst).subset hp) ((hperm.map Prod.fst).subset hq) ha hb
  friend _ _ hmem := h.node (hperm.subset hmem)
  tail hne := by
    have hlist : l ≠ [] := fun hnil => hne (perm_nil.mp (hnil ▸ hperm))
    obtain ⟨p, hp⟩ := h.tail_mem hlist
    exact ⟨⟨p, hperm.symm.subset hp⟩, fun q number hmem => h.le_tail (hperm.subset hmem)⟩
  get friendNumber := by
    obtain ⟨call, hcall, hiff⟩ := h.getCall friendNumber
    exact ⟨call, hcall, fun p => (hiff p).trans hperm.symm.mem_iff⟩

end

theorem empty : Threads Calls.empty [] :=
  ⟨trivial, .nil, fun _ => rfl, nofun, fun p friendNumber front h => absurd h (by simp), fun h => absurd rfl h⟩

end Threads

/-! ## The array -/

variable {calls : List (Option ℕ)} {friendNumber number : UInt32} {rc : ℕ}

/-- A call is stored in the array. -/
theorem store_eq (hcalls : t.calls = some calls) (hlength : friendNumber.toNat < calls.length) (call : Option ℕ) :
    t.store friendNumber call = some { t with calls := some (calls.set friendNumber.toNat call) } := by
  rw [store, hcalls]
  exact if_pos hlength

variable {callsTail : UInt32} {heap : Heap UInt32} {front : List (ℕ × UInt32)}

/-- An array with one entry written. -/
theorem Array.set {call : Option ℕ} (hlength : callsTail.toNat < calls.length)
    (hothers : ∀ number, number ≤ callsTail → number ≠ friendNumber →
      ∃ call, calls[number.toNat]? = some call ∧ ∀ p, call = some p ↔ (p, number) ∈ l)
    (hcall : ∀ p, call = some p ↔ (p, friendNumber) ∈ l) : Array (calls.set friendNumber.toNat call) callsTail l where
  length := by rwa [length_set]
  entries number hle := by
    rw [getElem?_set]
    by_cases heq : number = friendNumber
    · have hlt := UInt32.le_iff_toNat_le.mp hle
      rw [heq] at hlt
      rw [heq, if_pos rfl, if_pos (by omega)]
      exact ⟨call, rfl, hcall⟩
    · rw [if_neg fun hnat => heq (UInt32.toNat_inj.mp hnat.symm)]
      exact hothers number hle heq

/-- The size that is asked for does not wrap. -/
theorem toNat_succ (h : friendNumber.toNat ≠ 2 ^ 32 - 1) : (friendNumber + 1).toNat = friendNumber.toNat + 1 := by
  have hlt := friendNumber.toNat_lt
  rw [UInt32.toNat_add]
  exact Nat.mod_eq_of_lt (by change friendNumber.toNat + 1 < 2 ^ 32; omega)

@[simp] theorem grow_length (calls : List (Option ℕ)) (callsTail friendNumber : UInt32) :
    (grow calls callsTail friendNumber).length = (friendNumber + 1).toNat := by
  simp only [grow, length_mapIdx, length_append, length_take, length_replicate]
  omega

/-- The entries up to the last call are kept, those behind it are cleared. -/
theorem grow_get (hwrap : friendNumber.toNat ≠ 2 ^ 32 - 1) (hlength : callsTail.toNat < calls.length)
    (htail : callsTail < friendNumber) (hlt : number < friendNumber) :
    (grow calls callsTail friendNumber)[number.toNat]? =
      if callsTail < number then some none else calls[number.toNat]? := by
  have hlt' := UInt32.lt_iff_toNat_lt.mp hlt
  have htail' := UInt32.lt_iff_toNat_lt.mp htail
  simp only [grow, toNat_succ hwrap, getElem?_mapIdx]
  by_cases hbehind : callsTail < number
  · have hbehind' := UInt32.lt_iff_toNat_lt.mp hbehind
    rw [if_pos hbehind]
    have hsome : number.toNat < (calls.take (friendNumber.toNat + 1) ++
        List.replicate (friendNumber.toNat + 1 - calls.length) (none : Option ℕ)).length := by
      simp only [length_append, length_take, length_replicate]
      omega
    rw [getElem?_eq_getElem hsome, map_some, if_pos ⟨hbehind', hlt'⟩]
  · have hkept := UInt32.le_iff_toNat_le.mp (UInt32.not_lt.mp hbehind)
    rw [if_neg hbehind, getElem?_append_left (by rw [length_take]; omega), getElem?_take,
      if_pos (by omega), getElem?_eq_getElem (by omega), map_some, if_neg (by omega)]

/-! ## A new call -/

/-- A friend number that is not between the first and the last call. -/
def Outside (t : Calls) (friendNumber : UInt32) : Prop :=
  t.calls = none ∨ t.callsTail < friendNumber ∨ friendNumber < t.callsHead

/-- A call linked behind the last one. -/
theorem Threads.linkBehind {tail : ℕ} (h : Threads t l) (hlast : last none l = some tail) (hfree : rc ∉ addresses l)
    (friendNumber : UInt32) :
    ∃ heap, Calls.linkBehind (update t.heap rc (some ⟨none, none, friendNumber⟩)) rc tail = some heap ∧
      Segment heap none (l ++ [(rc, friendNumber)]) none := by
  have hprev : setPrev (update t.heap rc (some ⟨none, none, friendNumber⟩)) (some rc) (some tail) =
      some (update t.heap rc (some ⟨some tail, none, friendNumber⟩)) := by
    rw [setPrev, update_self, map_some, update_idem]
  have hsegment : Segment (update t.heap rc (some ⟨some tail, none, friendNumber⟩)) none l none := by
    refine h.segment.congr fun q hq => update_of_ne ?_ _ _
    rintro rfl
    exact hfree hq
  obtain ⟨heap, hheap, hlinked, hother⟩ := hsegment.setNext_last h.nodup (some rc)
  refine ⟨heap, ?_, segment_append.mpr ⟨hlinked, ?_, trivial⟩⟩
  · rw [hlast] at hheap
    rw [Calls.linkBehind, hprev]
    exact hheap
  · rw [hother rc hfree, update_self, hlast]
    rfl

/-- A call linked before the first one. -/
theorem Threads.linkBefore {head : ℕ} (h : Threads t l) (hfirst : first none l = some head) (hfree : rc ∉ addresses l)
    (friendNumber : UInt32) :
    ∃ heap, Calls.linkBefore (update t.heap rc (some ⟨none, none, friendNumber⟩)) rc head = some heap ∧
      Segment heap none ((rc, friendNumber) :: l) none := by
  have hnext : setNext (update t.heap rc (some ⟨none, none, friendNumber⟩)) (some rc) (some head) =
      some (update t.heap rc (some ⟨none, some head, friendNumber⟩)) := by
    rw [setNext, update_self, map_some, update_idem]
  have hsegment : Segment (update t.heap rc (some ⟨none, some head, friendNumber⟩)) none l none := by
    refine h.segment.congr fun q hq => update_of_ne ?_ _ _
    rintro rfl
    exact hfree hq
  obtain ⟨heap, hheap, hlinked, hother⟩ := hsegment.setPrev_first h.nodup (some rc)
  refine ⟨heap, ?_, ?_, hlinked⟩
  · rw [hfirst] at hheap
    rw [Calls.linkBefore, hnext]
    exact hheap
  · rw [hother rc hfree, update_self, hfirst]

/-- The first call. -/
theorem Threads.create (h : Threads t []) (hwrap : friendNumber.toNat ≠ 2 ^ 32 - 1) (rc : ℕ) :
    ∃ t', t.newCall ⟨some rc, true⟩ friendNumber = some (some rc, t') ∧ Threads t' [(rc, friendNumber)] := by
  have hlength : friendNumber.toNat < (List.replicate (friendNumber + 1).toNat (none : Option ℕ)).length := by
    rw [length_replicate, toNat_succ hwrap]
    omega
  have hnew : t.newCall ⟨some rc, true⟩ friendNumber = some (some rc,
      ⟨update t.heap rc (some ⟨none, none, friendNumber⟩),
        some ((List.replicate (friendNumber + 1).toNat none).set friendNumber.toNat (some rc)), friendNumber,
          friendNumber⟩) := by
    unfold Calls.newCall
    rw [h.cleared rfl]
    dsimp only
    rw [if_pos rfl, store_eq rfl hlength]
    rfl
  refine ⟨_, hnew, ⟨update_self _ _ _, trivial⟩, pairwise_singleton _ _, nofun, ?_, ?_, ?_⟩
  · intro p number back heq
    rw [(Prod.mk.inj (List.cons.inj heq).1).2]
  · intro p number front heq
    have hlast := congrArg List.getLast? heq
    rw [getLast?_concat, getLast?_singleton] at hlast
    exact (Prod.mk.inj (some_inj.mp hlast)).2
  · intro _
    refine ⟨_, rfl, Array.set hlength ?_ fun p => ?_⟩
    · intro number hle hne
      have hlt : number.toNat ≤ friendNumber.toNat := UInt32.le_iff_toNat_le.mp hle
      refine ⟨none, ?_, fun p => ⟨nofun, fun hmem => absurd (Prod.mk.inj (mem_singleton.mp hmem)).2 hne⟩⟩
      rw [getElem?_replicate, if_pos]
      rw [length_replicate] at hlength
      omega
    · rw [some_inj, mem_singleton, Prod.mk.injEq]
      exact ⟨fun heq => ⟨heq.symm, rfl⟩, fun heq => heq.1.symm⟩

/-- A call behind the last one. -/
theorem Threads.append (h : Threads t l) (hne : l ≠ []) (hrc : rc ∉ addresses l)
    (hbehind : t.callsTail < friendNumber) (hwrap : friendNumber.toNat ≠ 2 ^ 32 - 1) :
    ∃ t', t.newCall ⟨some rc, true⟩ friendNumber = some (some rc, t') ∧ Threads t' (l ++ [(rc, friendNumber)]) := by
  obtain ⟨calls, hcalls, harray⟩ := h.array hne
  obtain ⟨front, ⟨tail, number⟩, rfl⟩ := (eq_nil_or_concat' l).resolve_left hne
  have htail := h.tail tail number front rfl
  obtain ⟨heap, hheap, hsegment⟩ := h.linkBehind (last_append none front tail number) hrc friendNumber
  have hlength : friendNumber.toNat < (grow calls t.callsTail friendNumber).length := by
    rw [grow_length, toNat_succ hwrap]
    omega
  have hentry : entry (grow calls t.callsTail friendNumber) t.callsTail = some tail := by
    obtain ⟨call, hcall, hiff⟩ := harray.entries t.callsTail (UInt32.le_refl _)
    rw [entry, grow_get hwrap harray.length hbehind hbehind, if_neg (UInt32.lt_irrefl _), hcall, (hiff tail).mpr ?_]
    · rfl
    · rw [htail]
      exact mem_append_right _ mem_cons_self
  have hnew : t.newCall ⟨some rc, true⟩ friendNumber = some (some rc, { t with
      heap := heap, calls := some ((grow calls t.callsTail friendNumber).set friendNumber.toNat (some rc)),
      callsTail := friendNumber }) := by
    unfold Calls.newCall
    rw [hcalls]
    dsimp only
    rw [if_neg (fun hfail => nomatch hfail.2), linkCall, if_pos hbehind]
    dsimp only
    rw [hentry, bind_some, hheap, map_some, bind_some, store_eq rfl hlength]
    rfl
  refine ⟨_, hnew, hsegment, ?_, ?_, ?_, ?_, ?_⟩
  · refine pairwise_append.mpr ⟨h.sorted, pairwise_singleton _ _, ?_⟩
    intro a ha b hb
    rw [mem_singleton.mp hb]
    exact UInt32.lt_of_le_of_lt (h.le_tail ha) hbehind
  · intro hnil
    exact absurd hnil (append_ne_nil_of_right_ne_nil _ (cons_ne_nil _ _))
  · intro p first back heq
    cases front with
    | nil => exact h.head p first _ (by rw [(List.cons.inj heq).1]; rfl)
    | cons node front => exact h.head p first (front ++ [(tail, number)]) (by rw [← (List.cons.inj heq).1]; rfl)
  · intro p last front' heq
    have hlast := congrArg List.getLast? heq
    rw [getLast?_concat, getLast?_concat] at hlast
    exact (Prod.mk.inj (some_inj.mp hlast)).2
  · intro _
    refine ⟨_, rfl, Array.set hlength ?_ fun p => ?_⟩
    · intro other hle hother
      have hlt : other < friendNumber := UInt32.lt_of_le_of_ne hle hother
      rw [grow_get hwrap harray.length hbehind hlt]
      split
      · rename_i hcleared
        refine ⟨none, rfl, fun p => ⟨nofun, fun hmem => ?_⟩⟩
        rcases mem_append.mp hmem with hmem | hmem
        · exact absurd (h.le_tail hmem) (UInt32.not_le.mpr hcleared)
        · exact absurd (Prod.mk.inj (mem_singleton.mp hmem)).2 hother
      · rename_i hkept
        obtain ⟨call, hcall, hiff⟩ := harray.entries other (UInt32.not_lt.mp hkept)
        refine ⟨call, hcall, fun p => (hiff p).trans ⟨mem_append_left _, fun hmem => ?_⟩⟩
        refine (mem_append.mp hmem).resolve_right fun hmem => ?_
        exact hother (Prod.mk.inj (mem_singleton.mp hmem)).2
    · rw [some_inj]
      refine ⟨fun heq => heq ▸ mem_append_right _ mem_cons_self, fun hmem => ?_⟩
      rcases mem_append.mp hmem with hmem | hmem
      · exact absurd (h.le_tail hmem) (UInt32.not_le.mpr hbehind)
      · exact (Prod.mk.inj (mem_singleton.mp hmem)).1.symm

/-- A call before the first one. -/
theorem Threads.prepend (h : Threads t l) (hne : l ≠ []) (hrc : rc ∉ addresses l)
    (hbefore : friendNumber < t.callsHead) :
    ∃ t', t.newCall ⟨some rc, true⟩ friendNumber = some (some rc, t') ∧ Threads t' ((rc, friendNumber) :: l) := by
  obtain ⟨calls, hcalls, harray⟩ := h.array hne
  obtain ⟨⟨head, number⟩, back, rfl⟩ := exists_cons_of_ne_nil hne
  have hmem : (head, number) ∈ (head, number) :: back := mem_cons_self
  have hhead := h.head head number back rfl
  have hheadTail : t.callsHead ≤ t.callsTail := by
    rw [hhead]
    exact h.le_tail hmem
  have hle : friendNumber ≤ t.callsTail := UInt32.le_of_lt (UInt32.lt_of_lt_of_le hbefore hheadTail)
  obtain ⟨heap, hheap, hsegment⟩ := h.linkBefore (show first none _ = some head from rfl) hrc friendNumber
  have hlength : friendNumber.toNat < calls.length :=
    Nat.lt_of_le_of_lt (UInt32.le_iff_toNat_le.mp hle) harray.length
  have hentry : entry calls t.callsHead = some head := by
    obtain ⟨call, hcall, hiff⟩ := harray.entries t.callsHead hheadTail
    rw [entry, hcall, (hiff head).mpr (by rw [hhead]; exact hmem)]
    rfl
  have hnew : t.newCall ⟨some rc, true⟩ friendNumber = some (some rc, { t with
      heap := heap, calls := some (calls.set friendNumber.toNat (some rc)), callsHead := friendNumber }) := by
    unfold Calls.newCall
    rw [hcalls]
    dsimp only
    rw [if_neg (fun hfail => nomatch hfail.2), linkCall, if_neg (UInt32.not_lt.mpr hle), if_pos hbefore, hentry,
      bind_some, hheap, map_some, bind_some,
      store_eq (t := ⟨heap, t.calls, friendNumber, t.callsTail⟩) hcalls hlength]
    rfl
  refine ⟨_, hnew, hsegment, ?_, nofun, ?_, ?_, ?_⟩
  · refine pairwise_cons.mpr ⟨fun a ha => ?_, h.sorted⟩
    exact UInt32.lt_of_lt_of_le hbefore (h.head_le ha)
  · intro p first back' heq
    rw [← (Prod.mk.inj (List.cons.inj heq).1).2]
  · intro p last front heq
    cases front with
    | nil => exact absurd (List.cons.inj heq).2 (cons_ne_nil _ _)
    | cons node front => exact h.tail p last front (List.cons.inj heq).2
  · intro _
    refine ⟨_, rfl, Array.set harray.length ?_ fun p => ?_⟩
    · intro other hle hother
      obtain ⟨call, hcall, hiff⟩ := harray.entries other hle
      refine ⟨call, hcall, fun p => (hiff p).trans ⟨mem_cons_of_mem _, fun hmem => ?_⟩⟩
      refine (mem_cons.mp hmem).resolve_left fun heq => ?_
      exact hother (Prod.mk.inj heq).2
    · rw [some_inj]
      refine ⟨fun heq => heq ▸ mem_cons_self, fun hmem => ?_⟩
      rcases mem_cons.mp hmem with heq | hmem
      · exact (Prod.mk.inj heq).1.symm
      · exact absurd (h.head_le hmem) (UInt32.not_le.mpr hbefore)

/-- `new_call` outside of the calls there are. -/
theorem Threads.newCall (h : Threads t l) (hfree : t.heap rc = none) (houtside : t.Outside friendNumber)
    (hwrap : friendNumber.toNat ≠ 2 ^ 32 - 1) :
    ∃ t' l', t.newCall ⟨some rc, true⟩ friendNumber = some (some rc, t') ∧ Threads t' l' ∧
      l'.Perm ((rc, friendNumber) :: l) := by
  have hrc : rc ∉ addresses l := by
    intro hmem
    obtain ⟨⟨q, number⟩, hq, rfl⟩ := List.mem_map.mp hmem
    obtain ⟨node, hnode, -⟩ := h.node hq
    rw [hfree] at hnode
    contradiction
  by_cases hne : l = []
  · subst hne
    obtain ⟨t', hnew, hthreads⟩ := h.create hwrap rc
    exact ⟨t', _, hnew, hthreads, .refl _⟩
  · rcases houtside with hnone | hbehind | hbefore
    · obtain ⟨calls, hcalls, -⟩ := h.array hne
      rw [hnone] at hcalls
      contradiction
    · obtain ⟨t', hnew, hthreads⟩ := h.append hne hrc hbehind hwrap
      exact ⟨t', _, hnew, hthreads, perm_append_singleton _ _⟩
    · obtain ⟨t', hnew, hthreads⟩ := h.prepend hne hrc hbefore
      exact ⟨t', _, hnew, hthreads, .refl _⟩

/-! ## A call is removed -/

/-- The first call of what is left. -/
theorem friendNumberOf_first {before : Option ℕ} {p : ℕ} {back : List (ℕ × UInt32)}
    (h : Segment heap before ((p, number) :: back) none) : friendNumberOf heap (some p) = some number := by
  rw [friendNumberOf, bind_some, h.1]
  rfl

/-- The last call of what is left. -/
theorem friendNumberOf_last {p : ℕ} (h : Segment heap none (front ++ [(p, number)]) none) :
    friendNumberOf heap (some p) = some number := by
  rw [friendNumberOf, bind_some, h.node]
  rfl

section Unlinking

variable {p : ℕ} {friendNumber : UInt32} {front back : List (ℕ × UInt32)}

section

variable (h : Threads t (front ++ (p, friendNumber) :: back))
include h

/-- What is behind a call in the list, and before it, has other friend numbers. -/
theorem Threads.other_number (q : ℕ) (number : UInt32) :
    (q, number) ∈ front ++ back ↔ (q, number) ∈ front ++ (p, friendNumber) :: back ∧ number ≠ friendNumber := by
  obtain ⟨-, hback, hcross⟩ := pairwise_append.mp h.sorted
  rw [mem_append, mem_append, mem_cons]
  constructor
  · rintro (hmem | hmem)
    · refine ⟨.inl hmem, fun heq => ?_⟩
      exact UInt32.lt_irrefl friendNumber (heq ▸ hcross _ hmem _ mem_cons_self)
    · refine ⟨.inr (.inr hmem), fun heq => ?_⟩
      exact UInt32.lt_irrefl friendNumber (heq ▸ (pairwise_cons.mp hback).1 _ hmem)
  · rintro ⟨hmem | heq | hmem, hne⟩
    · exact .inl hmem
    · exact absurd (Prod.mk.inj heq).2 hne
    · exact .inr hmem

/-- The array without a call. -/
theorem Threads.array_remove (hcalls : t.calls = some calls) (htail : callsTail ≤ t.callsTail) :
    Array (calls.set friendNumber.toNat none) callsTail (front ++ back) := by
  obtain ⟨calls', hcalls', harray⟩ := h.array (append_ne_nil_of_right_ne_nil _ (cons_ne_nil _ _))
  obtain rfl := some_inj.mp (hcalls.symm.trans hcalls')
  refine Array.set (Nat.lt_of_le_of_lt (UInt32.le_iff_toNat_le.mp htail) harray.length) ?_ ?_
  · intro number hle hne
    obtain ⟨call, hcall, hiff⟩ := harray.entries number (UInt32.le_trans hle htail)
    refine ⟨call, hcall, fun q => (hiff q).trans ?_⟩
    rw [h.other_number]
    exact ⟨fun hmem => ⟨hmem, hne⟩, And.left⟩
  · intro q
    rw [h.other_number]
    exact ⟨nofun, fun hmem => absurd rfl hmem.2⟩

/-- The head of what is left. -/
theorem Threads.head_remove {heap₁ : Heap UInt32} (hne : ¬(front = [] ∧ back = []))
    (hback : Segment heap (some p) back none) (hheap₁ : setNext heap (last none front) (first none back) = some heap₁) :
    ∃ callsHead, (if last none front = none then friendNumberOf heap₁ (first none back) else some t.callsHead) =
      some callsHead ∧
      ∀ q number rest, front ++ back = (q, number) :: rest → callsHead = number := by
  cases front with
  | nil =>
    obtain ⟨⟨q, number⟩, rest, rfl⟩ := exists_cons_of_ne_nil fun hnil => hne ⟨rfl, hnil⟩
    obtain rfl : heap = heap₁ := some_inj.mp hheap₁
    refine ⟨number, friendNumberOf_first hback, ?_⟩
    rintro q' number' rest' heq
    exact (Prod.mk.inj (List.cons.inj heq).1).2
  | cons node front =>
    refine ⟨t.callsHead, if_neg fun hnone => absurd (last_eq_none.mp hnone) (cons_ne_nil _ _), ?_⟩
    intro q number rest heq
    exact h.head q number (front ++ (p, friendNumber) :: back) (by rw [← (List.cons.inj heq).1]; rfl)

/-- The tail of what is left. -/
theorem Threads.tail_remove {heap₂ : Heap UInt32} (hne : ¬(front = [] ∧ back = []))
    (hsegment : Segment heap₂ none (front ++ back) none) :
    ∃ callsTail, (if first none back = none then friendNumberOf heap₂ (last none front) else some t.callsTail) =
      some callsTail ∧
      callsTail ≤ t.callsTail ∧ ∀ q number rest, front ++ back = rest ++ [(q, number)] → callsTail = number := by
  rcases eq_nil_or_concat' back with rfl | ⟨back, ⟨r, last⟩, rfl⟩
  · obtain ⟨front, ⟨r, last⟩, rfl⟩ := (eq_nil_or_concat' front).resolve_left fun hnil => hne ⟨hnil, rfl⟩
    rw [append_nil] at hsegment
    refine ⟨last, ?_, h.le_tail (p := r) (by simp), ?_⟩
    · rw [first, if_pos rfl, last_append]
      exact friendNumberOf_last hsegment
    · intro q number rest heq
      have hlast := congrArg List.getLast? heq
      rw [append_nil, getLast?_concat, getLast?_concat] at hlast
      exact (Prod.mk.inj (some_inj.mp hlast)).2
  · refine ⟨t.callsTail, if_neg fun hnone => ?_, UInt32.le_refl _, ?_⟩
    · exact absurd (first_eq_none.mp hnone) (append_ne_nil_of_right_ne_nil _ (cons_ne_nil _ _))
    · intro q number rest heq
      have hlast := congrArg List.getLast? heq
      rw [← append_assoc, getLast?_concat, getLast?_concat] at hlast
      rw [← (Prod.mk.inj (some_inj.mp hlast)).2]
      exact h.tail r last (front ++ (p, friendNumber) :: back) (by simp)

/-- A call is taken out of the container, in a heap that may already be without it. -/
theorem Threads.unlinkCall (hheap : ∀ q ∈ addresses (front ++ back), heap q = t.heap q) :
    ∃ t', Calls.unlinkCall { t with heap := heap } friendNumber (last none front) (first none back) = some t' ∧
      ∀ heap', (∀ q ∈ addresses (front ++ back), heap' q = t'.heap q) →
        Threads { t' with heap := heap' } (front ++ back) := by
  obtain ⟨calls, hcalls, harray⟩ := h.array (append_ne_nil_of_right_ne_nil _ (cons_ne_nil _ _))
  have hsublist : List.Sublist (front ++ back) (front ++ (p, friendNumber) :: back) :=
    List.Sublist.append_left (sublist_cons_self _ _) _
  obtain ⟨hfront, -, hback⟩ := segment_append.mp h.segment
  simp only [addresses, map_append, mem_append] at hheap
  have hfront' : Segment heap none front (some p) := hfront.congr fun q hq => hheap q (.inl hq)
  have hback' : Segment heap (some p) back none := hback.congr fun q hq => hheap q (.inr hq)
  obtain ⟨heap₁, heap₂, hheap₁, hheap₂, hsegment⟩ := hfront'.join hback' (h.nodup.sublist (hsublist.map Prod.fst))
  have hmem : (p, friendNumber) ∈ front ++ (p, friendNumber) :: back := mem_append_right _ mem_cons_self
  have hlength : friendNumber.toNat < calls.length :=
    Nat.lt_of_le_of_lt (UInt32.le_iff_toNat_le.mp (h.le_tail hmem)) harray.length
  unfold Calls.unlinkCall
  by_cases hclear : front = [] ∧ back = []
  · obtain ⟨rfl, rfl⟩ := hclear
    rw [if_pos ⟨rfl, rfl⟩]
    exact ⟨_, rfl, fun heap' _ => ⟨trivial, .nil, fun _ => rfl, by simp, fun q number front heq => absurd heq (by simp),
      fun hne => absurd rfl hne⟩⟩
  · obtain ⟨callsHead, hcallsHead, hhead⟩ := h.head_remove hclear hback' hheap₁
    obtain ⟨callsTail, hcallsTail, hle, htail⟩ := h.tail_remove hclear hsegment
    rw [if_neg fun hnone => hclear ⟨last_eq_none.mp hnone.1, first_eq_none.mp hnone.2⟩, hheap₁, bind_some]
    dsimp only
    rw [hcallsHead, bind_some, hheap₂, bind_some, hcallsTail, bind_some,
      store_eq (t := ⟨heap₂, t.calls, callsHead, callsTail⟩) hcalls hlength]
    refine ⟨_, rfl, fun heap' hheap' => ⟨hsegment.congr hheap', h.sorted.sublist hsublist, ?_, hhead, htail, fun _ =>
      ⟨_, rfl, h.array_remove hcalls hle⟩⟩⟩
    intro hnil
    exact absurd (append_eq_nil_iff.mp hnil) hclear

/-- A call that is removed is not among the others. -/
theorem Threads.not_mem_others : p ∉ addresses (front ++ back) := by
  have hnodup := h.nodup
  simp only [addresses, map_append, map_cons] at hnodup ⊢
  exact (nodup_cons.mp (perm_middle.nodup_iff.mp hnodup)).1

/-- `kill_call`. -/
theorem Threads.killCall : ∃ t', t.killCall (some p) = some t' ∧ Threads t' (front ++ back) := by
  obtain ⟨t', hunlink, hthreads⟩ := h.unlinkCall fun _ _ => rfl
  refine ⟨_, ?_, hthreads (update t'.heap p none) fun q hq => update_of_ne ?_ _ _⟩
  · rw [Calls.killCall, h.segment.node, bind_some]
    dsimp only
    rw [hunlink]
    rfl
  · rintro rfl
    exact h.not_mem_others hq

/-- `call_remove`. -/
theorem Threads.callRemove :
    ∃ t', t.callRemove (some p) = some (first none back, t') ∧ Threads t' (front ++ back) := by
  have hothers : ∀ q ∈ addresses (front ++ back), update t.heap p none q = t.heap q := by
    intro q hq
    refine update_of_ne ?_ _ _
    rintro rfl
    exact h.not_mem_others hq
  obtain ⟨t', hunlink, hthreads⟩ := h.unlinkCall hothers
  refine ⟨t', ?_, hthreads t'.heap fun _ _ => rfl⟩
  rw [Calls.callRemove, h.segment.node, bind_some]
  dsimp only
  rw [hunlink]
  rfl

end

end Unlinking

end Calls

/-! ## Runs -/

/-- The operations on a container: those of a signalling session, and those of an audio and video session. -/
inductive CallOperation where
  | newCall (alloc : CallAlloc) (friendNumber : UInt32)
  | killCall (call : ℕ)
  | callNew (friendExists connected : Bool) (alloc : CallAlloc) (friendNumber : UInt32)
  | callRemove (call : ℕ)

/-- A container, and the calls that were created and not removed. -/
structure CallTrace where
  table : Calls
  live : List (ℕ × UInt32)

namespace CallTrace

/-- What a new call adds to the record. -/
def created (live : List (ℕ × UInt32)) (friendNumber : UInt32) (result : Option ℕ × Calls) : CallTrace :=
  ⟨result.2, live ++ (result.1.map (·, friendNumber)).toList⟩

/-- The record without a call. -/
def without (live : List (ℕ × UInt32)) (call : ℕ) : List (ℕ × UInt32) := live.filter fun node => node.1 ≠ call

end CallTrace

namespace CallOperation

open CallTrace

/-- The container after an operation. -/
def exec (s : CallTrace) : CallOperation → Option CallTrace
  | newCall alloc friendNumber => (s.table.newCall alloc friendNumber).map (created s.live friendNumber)
  | killCall call => (s.table.killCall (some call)).map fun table => ⟨table, without s.live call⟩
  | callNew friendExists connected alloc friendNumber =>
    (s.table.callNew friendExists connected alloc friendNumber).map (created s.live friendNumber)
  | callRemove call => (s.table.callRemove (some call)).map fun result => ⟨result.2, without s.live call⟩

/-- A new call is for a friend without one, and allocation succeeds with an address that is not in use. -/
structure Creates (s : CallTrace) (alloc : CallAlloc) (friendNumber : UInt32) : Prop where
  absent : ∀ call, (call, friendNumber) ∉ s.live
  allocated : ∃ call, alloc = ⟨some call, true⟩ ∧ s.table.heap call = none

/-- Calls are created for friends without one, and only calls that exist are removed. -/
def Meant (s : CallTrace) : CallOperation → Prop
  | newCall alloc friendNumber => Creates s alloc friendNumber
  | killCall call => call ∈ LinkedNodes.addresses s.live
  | callNew _ _ alloc friendNumber => Creates s alloc friendNumber
  | callRemove call => call ∈ LinkedNodes.addresses s.live

/-- A new call is not for a friend number between the first and the last call, nor for the last number there is. -/
def AtEnds (s : CallTrace) : CallOperation → Prop
  | newCall _ friendNumber => s.table.Outside friendNumber ∧ friendNumber.toNat ≠ 2 ^ 32 - 1
  | callNew _ _ _ friendNumber => s.table.Outside friendNumber ∧ friendNumber.toNat ≠ 2 ^ 32 - 1
  | _ => True

end CallOperation

/-- The containers reached by operations that all meet a condition. -/
inductive CallTrace.Reaches (condition : CallTrace → CallOperation → Prop) : CallTrace → Prop
  | start : Reaches condition ⟨.empty, []⟩
  | step {s s' : CallTrace} (h : Reaches condition s) (op : CallOperation) (hop : op.Meant s)
      (hcondition : condition s op)
      (hexec : op.exec s = some s') : Reaches condition s'

namespace CallTrace

open LinkedNodes Calls CallOperation

/-- The calls of a container are threaded, and are those of the record. -/
def Threaded (s : CallTrace) : Prop := ∃ l, Threads s.table l ∧ s.live.Perm l

variable {s : CallTrace}

/-- A call is linked in. -/
theorem Threaded.newCall {alloc : CallAlloc} {friendNumber : UInt32} (h : s.Threaded)
    (hmeant : Creates s alloc friendNumber)
    (houtside : s.table.Outside friendNumber) (hwrap : friendNumber.toNat ≠ 2 ^ 32 - 1) :
    ∃ result, s.table.newCall alloc friendNumber = some result ∧ (created s.live friendNumber result).Threaded := by
  obtain ⟨l, hthreads, hperm⟩ := h
  obtain ⟨call, rfl, hfree⟩ := hmeant.allocated
  obtain ⟨t', l', hnew, hthreads', hperm'⟩ := hthreads.newCall hfree houtside hwrap
  refine ⟨_, hnew, l', hthreads', ?_⟩
  calc s.live ++ [(call, friendNumber)]
    _ |>.Perm ((call, friendNumber) :: s.live) := perm_append_singleton _ _
    _ |>.Perm ((call, friendNumber) :: l) := hperm.cons _
    _ |>.Perm l' := hperm'.symm

/-- The record without a call is what is left of the list. -/
theorem without_perm {t : Calls} {back : List (ℕ × UInt32)} {call : ℕ} {friendNumber : UInt32}
    (hthreads : Threads t (front ++ (call, friendNumber) :: back)) {live : List (ℕ × UInt32)}
    (hperm : live.Perm (front ++ (call, friendNumber) :: back)) : (without live call).Perm (front ++ back) := by
  have hothers := hthreads.not_mem_others
  have hkept : (front ++ back).filter (fun node => node.1 ≠ call) = front ++ back := by
    refine filter_eq_self.mpr fun node hnode => decide_eq_true fun heq => hothers ?_
    exact heq ▸ List.mem_map_of_mem hnode
  have hfilter := hperm.filter fun node => node.1 ≠ call
  rw [filter_append, filter_cons_of_neg (by simp), ← filter_append, hkept] at hfilter
  exact hfilter

/-- What one operation does. -/
theorem Threaded.exec (h : s.Threaded) (op : CallOperation) (hop : op.Meant s) (hends : op.AtEnds s) :
    ∃ s', op.exec s = some s' ∧ s'.Threaded := by
  cases op with
  | newCall alloc friendNumber =>
    obtain ⟨result, hnew, hthreaded⟩ := h.newCall hop hends.1 hends.2
    exact ⟨_, by rw [CallOperation.exec, hnew, map_some], hthreaded⟩
  | killCall call =>
    obtain ⟨l, hthreads, hperm⟩ := h
    obtain ⟨⟨call, friendNumber⟩, hmem, rfl⟩ := List.mem_map.mp hop
    obtain ⟨front, back, rfl⟩ := append_of_mem (hperm.subset hmem)
    obtain ⟨t', hkill, hthreads'⟩ := hthreads.killCall
    exact ⟨_, by rw [CallOperation.exec, hkill, map_some], _, hthreads', without_perm hthreads hperm⟩
  | callNew friendExists connected alloc friendNumber =>
    have hunchanged : (created s.live friendNumber (none, s.table)).Threaded := by
      rwa [created, map_none, toList_none, append_nil]
    change ∃ s', (s.table.callNew friendExists connected alloc friendNumber).map (created s.live friendNumber) =
      some s' ∧ _
    unfold Calls.callNew
    split
    · exact ⟨_, rfl, hunchanged⟩
    split
    · exact ⟨_, rfl, hunchanged⟩
    · obtain ⟨l, hthreads, hperm⟩ := h
      obtain ⟨call, hget, hiff⟩ := hthreads.getCall friendNumber
      have hnone : call = none := by
        refine eq_none_iff_forall_ne_some.mpr fun p heq => ?_
        exact hop.absent p (hperm.symm.subset ((hiff p).mp heq))
      obtain ⟨result, hnew, hthreaded⟩ := Threaded.newCall ⟨l, hthreads, hperm⟩ hop hends.1 hends.2
      refine ⟨_, ?_, hthreaded⟩
      rw [Calls.callGet, hget, hnone, bind_some, if_neg (fun hne => hne rfl), hnew, map_some]
  | callRemove call =>
    obtain ⟨l, hthreads, hperm⟩ := h
    obtain ⟨⟨call, friendNumber⟩, hmem, rfl⟩ := List.mem_map.mp hop
    obtain ⟨front, back, rfl⟩ := append_of_mem (hperm.subset hmem)
    obtain ⟨t', hremove, hthreads'⟩ := hthreads.callRemove
    exact ⟨_, by rw [CallOperation.exec, hremove, map_some], _, hthreads', without_perm hthreads hperm⟩

/-- The calls are linked in every state. -/
theorem Reaches.threaded (h : Reaches (fun s op => op.AtEnds s) s) : s.Threaded := by
  induction h with
  | start => exact ⟨[], Threads.empty, .refl _⟩
  | step _ op hop hends hexec ih =>
    obtain ⟨s', hexec', hthreaded⟩ := ih.exec op hop hends
    rw [hexec] at hexec'
    exact some_inj.mp hexec' ▸ hthreaded

/-- When every new call is for a friend number outside of those in use, the container always holds exactly the calls
that were created and not removed, and no operation accesses memory that is not allocated. -/
theorem reaches_holdsExactly (h : Reaches (fun s op => op.AtEnds s) s) :
    HoldsExactly s.table s.live ∧ ∀ op : CallOperation, op.Meant s → op.AtEnds s → (op.exec s).isSome := by
  have hthreaded := h.threaded
  constructor
  · obtain ⟨l, hthreads, hperm⟩ := hthreaded
    exact hthreads.holdsExactly hperm
  · intro op hop hends
    obtain ⟨s', hexec, -⟩ := hthreaded.exec op hop hends
    rw [hexec]
    rfl

/-- A call for a friend is created. -/
def operationFor (address : ℕ) (friendNumber : UInt32) : CallOperation := .newCall ⟨some address, true⟩ friendNumber

/-- Two calls at the ends, and one of them removed. -/
theorem reaches_holdsExactly_ends : ∃ s : CallTrace, s.live = [(11, 7)] ∧ HoldsExactly s.table s.live := by
  have hstart : Reaches (fun s op => op.AtEnds s) ⟨.empty, []⟩ := .start
  have hfirst := hstart.step (operationFor 10 3)
    ⟨fun _ => not_mem_nil, 10, rfl, rfl⟩ ⟨.inl rfl, by decide⟩ rfl
  have hsecond := hfirst.step (operationFor 11 7)
    ⟨fun call hmem => absurd (mem_singleton.mp hmem) (by simp), 11, rfl, rfl⟩ ⟨.inr (.inl (by decide)), by decide⟩ rfl
  have hthird := hsecond.step (.killCall 10) (show 10 ∈ [10, 11] from mem_cons_self) trivial rfl
  exact ⟨_, rfl, (reaches_holdsExactly hthird).1⟩

/-- A call between two others is not found in the list, and the container forgets all calls when it is removed. -/
theorem middle_call_not_held : ∃ s s' : CallTrace, Reaches (fun _ _ => True) s ∧ ¬HoldsExactly s.table s.live ∧
    CallOperation.Meant s (.killCall 12) ∧ CallOperation.exec s (.killCall 12) = some s' ∧ (10, 1) ∈ s'.live ∧
      s'.table.getCall 1 = some none := by
  have hstart : Reaches (fun _ _ => True) ⟨.empty, []⟩ := .start
  have hfirst := hstart.step (operationFor 10 1)
    ⟨fun _ => not_mem_nil, 10, rfl, rfl⟩ trivial rfl
  have hsecond := hfirst.step (operationFor 11 3)
    ⟨fun call hmem => absurd (mem_singleton.mp hmem) (by simp), 11, rfl, rfl⟩ trivial rfl
  have hthird := hsecond.step (operationFor 12 2)
    ⟨fun call hmem => by rcases mem_cons.mp hmem with h | h <;> simp_all, 12, rfl, rfl⟩ trivial rfl
  refine ⟨_, _, hthird, ?_, show 12 ∈ [10, 11, 12] by simp, rfl, show (10, 1) ∈ [(10, 1), (11, 3)] by simp, rfl⟩
  rintro ⟨⟨visited, hfollows, hperm⟩, -⟩
  have htwo : visited = [10, 11] := hfollows.unique (.go rfl (.go rfl .stop))
  have hlength := hperm.length_eq
  rw [htwo] at hlength
  exact absurd hlength (show ¬2 = 3 by decide)

end CallTrace

end Toxcore
