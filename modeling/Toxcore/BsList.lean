import Toxcore.Data.ByteStrings
import Toxcore.Data.SortedIndex

/-!
# `BS_LIST`: ids found by byte strings

The list keeps its elements sorted as big-endian numbers, with the ids in a parallel array. `find`
is not a plain bisection: it jumps by halving steps and then walks by single steps until it would
turn back. A search that would leave the array has no result here; `find_spec` shows that this never
happens on a well-formed list.
-/

namespace Toxcore

open ByteStrings SortedIndex List

/-- `BS_LIST`; `n` is the length of the arrays. -/
structure BsList where
  elementSize : ℕ
  capacity : ℕ
  data : List Bytes
  ids : List ℤ

/-- What `find` returns: a nonnegative index, or `INDEX(i)`. -/
inductive FindResult where
  | found (i : ℕ)
  | insertAt (i : ℕ)

/-- The variable `d` of `find`: -1, 0 after a single step up, 1 after a single step down. -/
inductive FindTurn where
  | unset
  | movedUp
  | movedDown
  deriving DecidableEq

namespace BsList

variable (list : BsList)

/-- The loop of `find`, at most `fuel` comparisons. -/
def findLoop (data : Bytes) : ℕ → ℕ → ℕ → FindTurn → Option FindResult
  | 0, _, _, _ => none
  | fuel + 1, i, delta, d =>
    match list.data[i]? with
    | none => none
    | some element =>
      match memcmp data element with
      | .eq => some (.found i)
      | .gt =>
        if d = .movedUp ∨ i + delta = list.data.length then some (.insertAt (i + delta))
        else if delta / 2 = 0 then findLoop data fuel (i + delta) 1 .movedDown
        else findLoop data fuel (i + delta) (delta / 2) d
      | .lt =>
        if d = .movedDown ∨ i = 0 then some (.insertAt i)
        else if i < delta then none
        else if delta / 2 = 0 then findLoop data fuel (i - delta) 1 .movedUp
        else findLoop data fuel (i - delta) (delta / 2) d

/-- `find`. -/
def find (data : Bytes) : Option FindResult :=
  if list.data.length = 0 then some (.insertAt 0)
  else
    let i := list.data.length / 2
    findLoop list data (2 * list.data.length + 2) i (if i / 2 = 0 then 1 else i / 2) .unset

end BsList

/-- `bs_list_init`. -/
def bsListInit (elementSize initialCapacity : ℕ) : BsList := ⟨elementSize, initialCapacity, [], []⟩

/-- `bs_list_find`. -/
def bsListFind (list : BsList) (data : Bytes) : ℤ :=
  match list.find data with
  | some (.found i) => list.ids.getD i (-1)
  | _ => -1

/-- `bs_list_add`; `alloc` is the outcome of `resize`, where the arrays are full. -/
def bsListAdd (alloc : Bool) (list : BsList) (data : Bytes) (id : ℤ) : Bool × BsList :=
  match list.find data with
  | some (.insertAt i) =>
    let n := list.data.length
    if n = list.capacity ∧ alloc = false then (false, list)
    else (true, { list with
      capacity := if n = list.capacity then n + n / 2 + 1 else list.capacity
      data := insertAt list.data i data
      ids := insertAt list.ids i id })
  | _ => (false, list)

/-- `bs_list_remove`; `alloc` is the outcome of `resize`, where the arrays are shrunk. -/
def bsListRemove (alloc : Bool) (list : BsList) (data : Bytes) (id : ℤ) : Bool × BsList :=
  match list.find data with
  | some (.found i) =>
    if list.ids.getD i (-1) ≠ id then (false, list)
    else (true, { list with
      capacity := if list.data.length < list.capacity / 2 ∧ alloc then list.capacity / 2 else list.capacity
      data := list.data.eraseIdx i
      ids := list.ids.eraseIdx i })
  | _ => (false, list)

namespace BsList

/-- The elements with their ids. -/
def entries (list : BsList) : List (Bytes × ℤ) := list.data.zip list.ids

/-- The list maps an element to an id. -/
def Maps (list : BsList) (x : Bytes) (id : ℤ) : Prop := (x, id) ∈ list.entries

/-- The arrays are parallel and sorted, hold elements of the right size and fit the capacity. -/
structure WellFormed (list : BsList) : Prop where
  sizes : ∀ x ∈ list.data, x.length = list.elementSize
  ids_length : list.ids.length = list.data.length
  sorted : Sorted beNat list.entries
  fits : list.data.length ≤ list.capacity

/-- The result of a search is right: the element, or the place where the elements pass it. -/
def FindResult.Right (list : BsList) (x : Bytes) : FindResult → Prop
  | .found i => list.data[i]? = some x
  | .insertAt i => i ≤ list.data.length ∧ PassesAt beNat x list.data i

/-- What the loop of `find` knows: the position is in the array, the steps left stay inside it, and
after a single step the element it came from lies on the other side of `x`. -/
structure Searching (list : BsList) (x : Bytes) (i delta : ℕ) (d : FindTurn) : Prop where
  inside : i < list.data.length
  room : delta = 1 ∨ (0 < delta ∧ 2 * delta ≤ i ∧ 2 * delta ≤ list.data.length - i)
  turned : d ≠ .unset → delta = 1
  above : d = .movedDown → ∃ a, list.data[i - 1]? = some a ∧ 0 < i ∧ beNat a < beNat x
  below : d = .movedUp → ∃ b, list.data[i + 1]? = some b ∧ beNat x < beNat b

/-- An upper bound on the comparisons left. -/
def stepsLeft (list : BsList) (i delta : ℕ) : FindTurn → ℕ
  | .unset => delta + list.data.length + 1
  | .movedUp => i + 1
  | .movedDown => list.data.length - i

variable {list : BsList} {x : Bytes}

/-- The elements are the first parts of the entries. -/
theorem entries_fst (hlen : list.ids.length = list.data.length) :
    list.entries.map Prod.fst = list.data :=
  map_fst_zip (by omega)

section

variable (h : list.WellFormed)
include h

variable {i : ℕ}

/-- Earlier elements are smaller. -/
theorem WellFormed.increasing {j : ℕ} {a b : Bytes} (hij : i < j) (ha : list.data[i]? = some a)
    (hb : list.data[j]? = some b) : beNat a < beNat b := by
  have hsorted : list.data.Pairwise fun a b => beNat a < beNat b := by
    rw [← entries_fst h.ids_length, pairwise_map]
    exact h.sorted
  obtain ⟨hi, rfl⟩ := List.getElem?_eq_some_iff.mp ha
  obtain ⟨hj, rfl⟩ := List.getElem?_eq_some_iff.mp hb
  exact pairwise_iff_getElem.mp hsorted i j hi hj hij

/-- The same with equal positions allowed. -/
theorem WellFormed.monotone {j : ℕ} {a b : Bytes} (hij : i ≤ j) (ha : list.data[i]? = some a)
    (hb : list.data[j]? = some b) : beNat a ≤ beNat b := by
  rcases Nat.eq_or_lt_of_le hij with rfl | hlt
  · rw [Option.some_inj.mp (ha.symm.trans hb)]
  · exact (h.increasing hlt ha hb).le

/-- The elements pass `x` at `i` when its neighbours there lie on both sides of it. -/
theorem WellFormed.passesAt (hbefore : i = 0 ∨ ∃ a, list.data[i - 1]? = some a ∧ beNat a < beNat x)
    (hafter : i = list.data.length ∨ ∃ b, list.data[i]? = some b ∧ beNat x < beNat b) :
    FindResult.Right list x (.insertAt i) := by
  refine ⟨?_, ?_, ?_⟩
  · rcases hafter with rfl | ⟨b, hb, -⟩
    · exact le_rfl
    · exact (List.getElem?_eq_some_iff.mp hb).1.le
  · intro a ha
    obtain ⟨j, hj⟩ := mem_iff_getElem?.mp ha
    rw [getElem?_take] at hj
    split at hj
    · rename_i hji
      rcases hbefore with rfl | ⟨last, hlast, hlt⟩
      · omega
      · exact (h.monotone (by omega) hj hlast).trans_lt hlt
    · contradiction
  · intro b hb
    obtain ⟨j, hj⟩ := mem_iff_getElem?.mp hb
    rw [getElem?_drop] at hj
    rcases hafter with rfl | ⟨first, hfirst, hlt⟩
    · have hlen := (List.getElem?_eq_some_iff.mp hj).1
      omega
    · exact hlt.trans_le (h.monotone (by omega) hfirst hj)

/-- The loop of `find` stays in the array and ends at the right place. -/
theorem WellFormed.findLoop (hx : x.length = list.elementSize) {fuel delta : ℕ} {d : FindTurn}
    (hsearch : Searching list x i delta d) (hfuel : stepsLeft list i delta d ≤ fuel) :
    ∃ result, list.findLoop x fuel i delta d = some result ∧ FindResult.Right list x result := by
  induction fuel generalizing i delta d with
  | zero =>
    have hinside := hsearch.inside
    cases d <;> simp only [stepsLeft] at hfuel <;> omega
  | succ fuel ih =>
    obtain ⟨hinside, hroom, hturned, habove, hbelow⟩ := hsearch
    have hget := getElem?_eq_getElem hinside
    set element := list.data[i] with helement
    have hcmp := memcmp_eq_compare (hx.trans (h.sizes element (mem_of_getElem? hget)).symm)
    simp only [BsList.findLoop, hget]
    rcases Nat.lt_trichotomy (beNat x) (beNat element) with hlt | heq | hgt
    · rw [hcmp, Nat.compare_eq_lt.mpr hlt]
      by_cases hstop : d = .movedDown ∨ i = 0
      · refine ⟨.insertAt i, if_pos hstop, h.passesAt ?_ (.inr ⟨element, hget, hlt⟩)⟩
        rcases hstop with hd | hi
        · obtain ⟨a, ha, -, hax⟩ := habove hd
          exact .inr ⟨a, ha, hax⟩
        · exact .inl hi
      · rw [not_or] at hstop
        have hdelta : delta ≤ i := by omega
        have hstep : i - delta < list.data.length := by omega
        simp only [hstop.1, hstop.2, or_self, if_false, if_neg (Nat.not_lt.mpr hdelta)]
        by_cases hhalf : delta / 2 = 0
        · rw [if_pos hhalf]
          have hone : delta = 1 := by omega
          apply ih
          · refine ⟨hstep, .inl rfl, fun _ => rfl, nofun, fun _ => ⟨element, ?_, hlt⟩⟩
            rw [show i - delta + 1 = i by omega, hget]
          · cases d <;> simp only [stepsLeft] at hfuel ⊢ <;> first | omega | exact absurd rfl hstop.1
        · rw [if_neg hhalf]
          have hd : d = .unset := by
            by_contra hd
            have := hturned hd
            omega
          subst hd
          apply ih
          · exact ⟨hstep, .inr (by omega), fun hd => absurd rfl hd, nofun, nofun⟩
          · simp only [stepsLeft] at hfuel ⊢
            omega
    · rw [hcmp, Nat.compare_eq_eq.mpr heq]
      refine ⟨.found i, rfl, ?_⟩
      rw [FindResult.Right, hget, beNat_injective (hx.trans (h.sizes element (mem_of_getElem? hget)).symm) heq]
    · rw [hcmp, Nat.compare_eq_gt.mpr hgt]
      by_cases hstop : d = .movedUp ∨ i + delta = list.data.length
      · refine ⟨.insertAt (i + delta), if_pos hstop, ?_⟩
        have hone : delta = 1 := by
          rcases hstop with rfl | hend
          · exact hturned nofun
          · omega
        subst hone
        refine h.passesAt (.inr ⟨element, ?_, hgt⟩) ?_
        · rw [Nat.add_sub_cancel, hget]
        · rcases hstop with hd | hend
          · obtain ⟨b, hb, hxb⟩ := hbelow hd
            exact .inr ⟨b, hb, hxb⟩
          · exact .inl hend
      · rw [not_or] at hstop
        have hstep : i + delta < list.data.length := by omega
        simp only [hstop.1, hstop.2, or_self, if_false]
        by_cases hhalf : delta / 2 = 0
        · rw [if_pos hhalf]
          have hone : delta = 1 := by omega
          apply ih
          · refine ⟨hstep, .inl rfl, fun _ => rfl, fun _ => ⟨element, ?_, by omega, hgt⟩, nofun⟩
            rw [show i + delta - 1 = i by omega, hget]
          · cases d <;> simp only [stepsLeft] at hfuel ⊢ <;> first | omega | exact absurd rfl hstop.1
        · rw [if_neg hhalf]
          have hd : d = .unset := by
            by_contra hd
            have := hturned hd
            omega
          subst hd
          apply ih
          · exact ⟨hstep, .inr (by omega), fun hd => absurd rfl hd, nofun, nofun⟩
          · simp only [stepsLeft] at hfuel ⊢
            omega

/-- `find` stays in the array and finds the element or its place. -/
theorem WellFormed.find_spec (hx : x.length = list.elementSize) :
    ∃ result, list.find x = some result ∧ FindResult.Right list x result := by
  by_cases hempty : list.data.length = 0
  · exact ⟨.insertAt 0, if_pos hempty, h.passesAt (.inl rfl) (.inl hempty.symm)⟩
  · rw [find, if_neg hempty]
    apply h.findLoop hx
    · refine ⟨by omega, ?_, fun hd => absurd rfl hd, nofun, nofun⟩
      split <;> omega
    · simp only [stepsLeft]
      split <;> omega

/-- A found position holds the entry of the element. -/
theorem WellFormed.found_entry (hi : list.data[i]? = some x) : list.entries[i]? = some (x, list.ids.getD i (-1)) := by
  obtain ⟨hlt, rfl⟩ := List.getElem?_eq_some_iff.mp hi
  have hids : i < list.ids.length := by rw [h.ids_length]; exact hlt
  rw [entries, getElem?_zip_eq_some]
  refine ⟨hi, ?_⟩
  rw [getD_eq_getElem _ _ hids, getElem?_eq_getElem hids]

end

/-- An element whose place the others pass is not in the list. -/
theorem WellFormed.not_maps_of_passesAt (hpass : PassesAt beNat x list.data i) (id : ℤ) : ¬list.Maps x id := by
  intro hmaps
  have hmem : x ∈ list.data.take i ++ list.data.drop i := by
    rw [take_append_drop]
    exact (of_mem_zip hmaps).1
  rcases mem_append.mp hmem with hx | hx
  · exact lt_irrefl _ (hpass.1 x hx)
  · exact lt_irrefl _ (hpass.2 x hx)

/-- `bs_list_find` returns the id of the element, or -1 where there is none. -/
theorem WellFormed.bsListFind_spec (h : list.WellFormed) (hx : x.length = list.elementSize) :
    list.Maps x (bsListFind list x) ∨ (bsListFind list x = -1 ∧ ∀ id, ¬list.Maps x id) := by
  obtain ⟨result, hfind, hright⟩ := h.find_spec hx
  cases result with
  | found i =>
    refine .inl ?_
    rw [bsListFind, hfind]
    exact mem_of_getElem? (h.found_entry hright)
  | insertAt i =>
    refine .inr ⟨?_, WellFormed.not_maps_of_passesAt hright.2⟩
    rw [bsListFind, hfind]

/-- An element has one id. -/
theorem WellFormed.maps_functional (h : list.WellFormed) {a b : ℤ} (ha : list.Maps x a)
    (hb : list.Maps x b) : a = b :=
  h.sorted.functional ha hb

/-- What `bs_list_add` does: it adds one entry for a new element, or nothing. -/
structure Added (list list' : BsList) (x : Bytes) (id : ℤ) : Prop where
  fresh : ∀ id', ¬list.Maps x id'
  maps : ∀ y id', list'.Maps y id' ↔ (y = x ∧ id' = id) ∨ list.Maps y id'

/-- `bs_list_add` keeps the list well formed, and fails only on a present element or without memory. -/
theorem WellFormed.bsListAdd_spec (h : list.WellFormed) (hx : x.length = list.elementSize) (alloc : Bool) (id : ℤ) :
    (∃ list', bsListAdd alloc list x id = (true, list') ∧ list'.WellFormed ∧
      list'.elementSize = list.elementSize ∧ Added list list' x id) ∨
    (bsListAdd alloc list x id = (false, list) ∧ (alloc = true → ∃ id', list.Maps x id')) := by
  obtain ⟨result, hfind, hright⟩ := h.find_spec hx
  cases result with
  | found i =>
    refine .inr ⟨?_, fun _ => ⟨_, mem_of_getElem? (h.found_entry hright)⟩⟩
    rw [bsListAdd, hfind]
  | insertAt i =>
    simp only [bsListAdd, hfind]
    by_cases hfull : list.data.length = list.capacity ∧ alloc = false
    · refine .inr ⟨if_pos hfull, ?_⟩
      intro halloc
      rw [hfull.2] at halloc
      contradiction
    · refine .inl ⟨_, if_neg hfull, ⟨?_, ?_, ?_, ?_⟩, rfl, ?_, ?_⟩
      · intro y hy
        rcases mem_insertAt.mp hy with rfl | hy
        · exact hx
        · exact h.sizes y hy
      · simp only [insertAt_length, h.ids_length]
      · rw [entries, zip_insertAt h.ids_length.symm]
        apply h.sorted.insertAt
        rw [entries_fst h.ids_length]
        exact hright.2
      · have hfits := h.fits
        simp only [insertAt_length]
        split <;> omega
      · exact WellFormed.not_maps_of_passesAt hright.2
      · intro y id'
        rw [Maps, entries, zip_insertAt h.ids_length.symm, mem_insertAt, Prod.mk.injEq, Maps, entries]

/-- What `bs_list_remove` does: it removes the one entry. -/
structure Removed (list list' : BsList) (x : Bytes) (id : ℤ) : Prop where
  present : list.Maps x id
  maps : ∀ y id', list'.Maps y id' ↔ list.Maps y id' ∧ ¬(y = x ∧ id' = id)

/-- `bs_list_remove` keeps the list well formed, and fails only where the entry is absent. -/
theorem WellFormed.bsListRemove_spec (h : list.WellFormed) (hx : x.length = list.elementSize)
    (alloc : Bool) (id : ℤ) :
    (∃ list', bsListRemove alloc list x id = (true, list') ∧ list'.WellFormed ∧
      list'.elementSize = list.elementSize ∧ Removed list list' x id) ∨
    (bsListRemove alloc list x id = (false, list) ∧ ¬list.Maps x id) := by
  obtain ⟨result, hfind, hright⟩ := h.find_spec hx
  cases result with
  | found i =>
    have hentry := h.found_entry hright
    have hpresent : list.Maps x (list.ids.getD i (-1)) := mem_of_getElem? hentry
    simp only [bsListRemove, hfind]
    by_cases hid : list.ids.getD i (-1) = id
    · have hlt := (List.getElem?_eq_some_iff.mp hright).1
      have hids := h.ids_length
      refine .inl ⟨_, if_neg (not_not.mpr hid), ⟨?_, ?_, ?_, ?_⟩, rfl, hid ▸ hpresent, ?_⟩
      · intro y hy
        exact h.sizes y (mem_of_mem_eraseIdx hy)
      · simp only
        rw [length_eraseIdx_of_lt hlt, length_eraseIdx_of_lt (by omega), hids]
      · rw [entries, zip_eraseIdx hids.symm]
        exact List.Pairwise.eraseIdx _ h.sorted
      · have hfits := h.fits
        simp only [length_eraseIdx_of_lt hlt]
        split <;> omega
      · intro y id'
        rw [Maps, entries, zip_eraseIdx hids.symm]
        change (y, id') ∈ list.entries.eraseIdx i ↔ _
        rw [h.sorted.mem_eraseIdx hentry, hid, ne_eq, Prod.mk.injEq, Maps]
    · exact .inr ⟨if_pos hid, fun hmaps => hid (h.maps_functional hpresent hmaps)⟩
  | insertAt i =>
    refine .inr ⟨?_, WellFormed.not_maps_of_passesAt hright.2 id⟩
    rw [bsListRemove, hfind]

/-- Removing an entry, present or not, leaves the other ones. -/
theorem WellFormed.bsListRemove_maps (h : list.WellFormed) (hx : x.length = list.elementSize)
    (alloc : Bool) (id : ℤ) :
    (bsListRemove alloc list x id).2.WellFormed ∧
      (bsListRemove alloc list x id).2.elementSize = list.elementSize ∧
      ∀ y id', (bsListRemove alloc list x id).2.Maps y id' ↔ list.Maps y id' ∧ ¬(y = x ∧ id' = id) := by
  rcases h.bsListRemove_spec hx alloc id with ⟨list', heq, hwell, hsize, hremoved⟩ | ⟨heq, habsent⟩
  · rw [heq]
    exact ⟨hwell, hsize, hremoved.maps⟩
  · rw [heq]
    refine ⟨h, rfl, fun y id' => ⟨fun hmaps => ⟨hmaps, ?_⟩, And.left⟩⟩
    rintro ⟨rfl, rfl⟩
    exact habsent hmaps

/-- A fresh list is well formed and maps nothing. -/
theorem bsListInit_wellFormed (elementSize initialCapacity : ℕ) :
    (bsListInit elementSize initialCapacity).WellFormed :=
  ⟨nofun, rfl, List.Pairwise.nil, Nat.zero_le _⟩

end BsList

end Toxcore
