import Mathlib.Data.Finset.Card
import Mathlib.Data.Finset.Range
import Toxcore.BsList

/-!
# `BS_LIST` as a finite map

Sequences of calls on one list, with allocation succeeding, against a function from elements to ids. The lists of
`BsList` do not say how much memory is behind them: the number of bytes that `resize` asks for is a product of 32
bits, and `realloc` of an array to 0 bytes frees it. Here the memory is kept beside the list, and an operation on
elements or ids that are not in this memory has no result.
-/

namespace Toxcore

open ByteStrings SortedIndex Function List Option

/-- `bs_list_trim`; `alloc` is the outcome of `resize`. -/
def bsListTrim (alloc : Bool) (list : BsList) : Bool × BsList :=
  if alloc then (true, { list with capacity := list.data.length }) else (false, list)

/-- The memory behind one of the arrays: none yet, some number of items, or a block that was freed and is still
pointed to. -/
inductive ArrayMemory where
  | null
  | block (size : ℕ)
  | freed
  deriving DecidableEq

/-- The memory has room for a number of items. -/
def ArrayMemory.Has : ArrayMemory → ℕ → Prop
  | .block size, count => count ≤ size
  | _, _ => False

instance : (memory : ArrayMemory) → (count : ℕ) → Decidable (memory.Has count)
  | .null, _ => .isFalse id
  | .block size, count => inferInstanceAs (Decidable (count ≤ size))
  | .freed, _ => .isFalse id

/-- `realloc` with memory to spare: whether the pointer that it returns is not NULL, and the memory. A block that is
resized to nothing is freed. -/
def ArrayMemory.realloc : ArrayMemory → ℕ → Option (Bool × ArrayMemory)
  | .null, size => some (true, .block size)
  | .block _, 0 => some (false, .freed)
  | .block _, size + 1 => some (true, .block (size + 1))
  | .freed, _ => none

/-- A `BS_LIST` with the memory at `data`, in bytes, and at `ids`, in integers. -/
structure BsListMemory where
  list : BsList
  data : ArrayMemory
  ids : ArrayMemory

namespace BsListMemory

/-- `resize`. The number of bytes wraps at 2^32. -/
def resize (mem : BsListMemory) (newSize : ℕ) : Option (Bool × BsListMemory) :=
  match mem.data.realloc (mem.list.elementSize * newSize % 2 ^ 32) with
  | none => none
  | some (false, data) => some (false, { mem with data := data })
  | some (true, data) =>
    (mem.ids.realloc newSize).map fun (success, ids) => (success, { mem with data := data, ids := ids })

/-- The first elements and their ids are in memory. -/
def Holds (mem : BsListMemory) (count : ℕ) : Prop :=
  count = 0 ∨ mem.data.Has (mem.list.elementSize * count) ∧ mem.ids.Has count

instance (mem : BsListMemory) (count : ℕ) : Decidable (mem.Holds count) := instDecidableOr

/-- `bs_list_init`. The arrays of a list that starts with some capacity are new. -/
def init (elementSize initialCapacity : UInt32) : BsListMemory :=
  let list := bsListInit elementSize.toNat initialCapacity.toNat
  if initialCapacity = 0 then ⟨list, .null, .null⟩
  else ⟨list, .block (elementSize.toNat * initialCapacity.toNat % 2 ^ 32), .block initialCapacity.toNat⟩

/-- `bs_list_find`. -/
def find (mem : BsListMemory) (data : Bytes) : Option (ℤ × BsListMemory) :=
  if mem.Holds mem.list.data.length then some (bsListFind mem.list data, mem) else none

/-- `bs_list_add`: the element is moved in after a full list was resized. -/
def add (mem : BsListMemory) (data : Bytes) (id : ℤ) : Option (ℤ × BsListMemory) :=
  if mem.Holds mem.list.data.length then
    match bsListAdd true mem.list data id with
    | (false, _) => some (0, mem)
    | (true, list) =>
      if mem.list.data.length = mem.list.capacity then
        match mem.resize list.capacity with
        | none => none
        | some (false, mem) => some (0, mem)
        | some (true, mem) => if mem.Holds list.data.length then some (1, { mem with list := list }) else none
      else if mem.Holds list.data.length then some (1, { mem with list := list })
      else none
  else none

/-- `bs_list_remove`: the elements behind the removed one are moved after a sparse list was resized. -/
def remove (mem : BsListMemory) (data : Bytes) (id : ℤ) : Option (ℤ × BsListMemory) :=
  if mem.Holds mem.list.data.length then
    match bsListRemove true mem.list data id with
    | (false, _) => some (0, mem)
    | (true, list) =>
      if mem.list.data.length < mem.list.capacity / 2 then
        match mem.resize list.capacity with
        | none => none
        | some (success, mem) =>
          if mem.Holds mem.list.data.length then some (1,
            { mem with list := (bsListRemove success mem.list data id).2 })
          else none
      else some (1, { mem with list := list })
  else none

/-- `bs_list_trim`. -/
def trim (mem : BsListMemory) : Option (ℤ × BsListMemory) :=
  (mem.resize mem.list.data.length).map fun (success, mem) =>
    (if success then 1 else 0, { mem with list := (bsListTrim success mem.list).2 })

end BsListMemory

/-- A call on a list whose elements have a size. -/
inductive BsListCall (size : ℕ) where
  | find (data : Block size)
  | add (data : Block size) (id : ℤ)
  | remove (data : Block size) (id : ℤ)
  | trim

namespace BsListCall

variable {size : ℕ}

/-- Execute a call: the return value and the list. -/
def exec (mem : BsListMemory) : BsListCall size → Option (ℤ × BsListMemory)
  | .find data => mem.find data.toList
  | .add data id => mem.add data.toList id
  | .remove data id => mem.remove data.toList id
  | .trim => mem.trim

/-- Execute calls in order: the return values and the list. -/
def run (mem : BsListMemory) : List (BsListCall size) → Option (List ℤ × BsListMemory)
  | [] => some ([], mem)
  | call :: rest =>
    (call.exec mem).bind fun (result, mem) => (run mem rest).map fun (results, mem) => (result :: results, mem)

/-- What a call does to a map from elements to ids. -/
def mapExec (map : Block size → Option ℤ) : BsListCall size → ℤ × (Block size → Option ℤ)
  | .find data => ((map data).getD (-1), map)
  | .add data id => if map data = none then (1, update map data (some id)) else (0, map)
  | .remove data id => if map data = some id then (1, update map data none) else (0, map)
  | .trim => (1, map)

/-- What calls in order do to a map: the return values and the map. -/
def mapRun (map : Block size → Option ℤ) : List (BsListCall size) → List ℤ × (Block size → Option ℤ)
  | [] => ([], map)
  | call :: rest =>
    ((call.mapExec map).1 :: (mapRun (call.mapExec map).2 rest).1, (mapRun (call.mapExec map).2 rest).2)

/-- An array is resized to fewer than 2^32 bytes, and not to 0 bytes unless it has no memory yet. -/
def Allocates (size : ℕ) (mem : BsListMemory) (newSize : ℕ) : Prop :=
  size * newSize < 2 ^ 32 ∧ (0 < size * newSize ∨ mem.data = .null)

/-- A full list that is added to, a sparse one that is removed from, and one that is trimmed, are resized to bytes
that there are. -/
def Fits (mem : BsListMemory) : BsListCall size → Prop
  | .find _ => True
  | .add _ _ => mem.list.data.length = mem.list.capacity →
    Allocates size mem (mem.list.data.length + mem.list.data.length / 2 + 1)
  | .remove _ _ => 0 < mem.list.data.length → mem.list.data.length < mem.list.capacity / 2 →
    Allocates size mem (mem.list.capacity / 2)
  | .trim => Allocates size mem mem.list.data.length

/-- Every call of a run fits. -/
def RunFits (mem : BsListMemory) : List (BsListCall size) → Prop
  | [] => True
  | call :: rest => call.Fits mem ∧ (call.exec mem).elim True fun (_, mem) => RunFits mem rest

instance (mem : BsListMemory) (newSize : ℕ) : Decidable (Allocates size mem newSize) := instDecidableAnd

instance decidableFits (mem : BsListMemory) : (call : BsListCall size) → Decidable (call.Fits mem)
  | .find _ => .isTrue trivial
  | .add _ _ => inferInstanceAs (Decidable (_ → _))
  | .remove _ _ => inferInstanceAs (Decidable (_ → _ → _))
  | .trim => inferInstanceAs (Decidable (Allocates _ _ _))

instance decidableRunFits (mem : BsListMemory) : (calls : List (BsListCall size)) → Decidable (RunFits mem calls)
  | [] => .isTrue trivial
  | call :: rest =>
    have : Decidable ((call.exec mem).elim True fun (_, mem) => RunFits mem rest) :=
      match call.exec mem with
      | none => .isTrue trivial
      | some (_, mem) => decidableRunFits mem rest
    instDecidableAnd

end BsListCall

/-! ## The invariant -/

/-- The memory is that of the capacity: none before the first allocation, and then the arrays in full. -/
structure BsListMemory.Valid (mem : BsListMemory) (size : ℕ) : Prop where
  wellFormed : mem.list.WellFormed
  elementSize : mem.list.elementSize = size
  memory : mem.data = .null ∧ mem.ids = .null ∧ mem.list.capacity = 0 ∨
    mem.data = .block (size * mem.list.capacity) ∧ mem.ids = .block mem.list.capacity
  bytes : size * mem.list.capacity < 2 ^ 32
  capacity : mem.list.capacity < 2 ^ 32

/-- The list holds the entries of a map. -/
def BsListMemory.Represents {size : ℕ} (mem : BsListMemory) (map : Block size → Option ℤ) : Prop :=
  ∀ data id, mem.list.Maps data.toList id ↔ map data = some id

namespace BsList

variable {list : BsList}

/-- There are not more elements than byte strings of their size. -/
theorem WellFormed.length_le (h : list.WellFormed) : list.data.length ≤ 256 ^ list.elementSize := by
  have hpairwise : (list.data.map beNat).Pairwise (· < ·) := by
    rw [pairwise_map, ← entries_fst h.ids_length, pairwise_map]
    exact h.sorted
  have hnodup : (list.data.map beNat).Nodup := hpairwise.imp fun hlt => hlt.ne
  have hsubset : (list.data.map beNat).toFinset ⊆ Finset.range (256 ^ list.elementSize) := by
    intro value hvalue
    obtain ⟨x, hx, rfl⟩ := List.mem_map.mp (List.mem_toFinset.mp hvalue)
    rw [Finset.mem_range, ← h.sizes x hx]
    exact beNat_lt x
  have hcard := Finset.card_le_card hsubset
  rwa [Finset.card_range, toFinset_card_of_nodup hnodup, length_map] at hcard

/-- Elements that fit 2^32 bytes can be counted with 31 bits. -/
theorem WellFormed.length_lt (h : list.WellFormed) (hbytes : list.elementSize * list.data.length < 2 ^ 32) :
    list.data.length < 2 ^ 31 := by
  have hle := h.length_le
  by_contra hlong
  rcases Nat.lt_or_ge list.elementSize 2 with hsmall | hlarge
  · have hpow : 256 ^ list.elementSize ≤ 256 ^ 1 := Nat.pow_le_pow_right (by omega) (by omega)
    omega
  · have hmul : 2 * 2 ^ 31 ≤ list.elementSize * list.data.length := Nat.mul_le_mul hlarge (Nat.le_of_not_lt hlong)
    omega

/-- The arrays after an element was added. -/
theorem bsListAdd_capacity {list' : BsList} {x : Bytes} {id : ℤ} (h : bsListAdd true list x id = (true, list')) :
    list'.data.length = list.data.length + 1 ∧
      list'.capacity = if list.data.length = list.capacity then list.data.length + list.data.length / 2 + 1
        else list.capacity := by
  unfold bsListAdd at h
  split at h
  · simp only [Bool.true_eq_false, and_false, if_false, Prod.mk.injEq, true_and] at h
    subst h
    exact ⟨insertAt_length _ _ _, rfl⟩
  · exact absurd h (by simp)

/-- The arrays after an element was removed. -/
theorem bsListRemove_capacity {list' : BsList} {x : Bytes} {id : ℤ} (h : bsListRemove true list x id = (true, list')) :
    list'.capacity = if list.data.length < list.capacity / 2 then list.capacity / 2 else list.capacity := by
  unfold bsListRemove at h
  split at h
  · split at h
    · exact absurd h (by simp)
    · simp only [and_true, Prod.mk.injEq, true_and] at h
      subst h
      rfl
  · exact absurd h (by simp)

end BsList

namespace BsListMemory

variable {size : ℕ} {mem : BsListMemory} {map : Block size → Option ℤ}

/-- The elements are in memory. -/
theorem Valid.holds (h : mem.Valid size) {count : ℕ} (hcount : count ≤ mem.list.capacity) : mem.Holds count := by
  rcases h.memory with ⟨-, -, hzero⟩ | ⟨hdata, hids⟩
  · exact .inl (by omega)
  · right
    rw [hdata, hids, h.elementSize]
    exact ⟨Nat.mul_le_mul_left size hcount, hcount⟩

/-- A list is resized to memory that there is. -/
theorem Valid.resize (h : mem.Valid size) {newSize : ℕ} (hallocates : BsListCall.Allocates size mem newSize) :
    mem.resize newSize = some (true, { mem with data := .block (size * newSize), ids := .block newSize }) := by
  obtain ⟨hbytes, hpos⟩ := hallocates
  rw [BsListMemory.resize, h.elementSize, Nat.mod_eq_of_lt hbytes]
  rcases h.memory with ⟨hdata, hids, -⟩ | ⟨hdata, hids⟩
  · rw [hdata, hids]
    rfl
  · have hnull : 0 < size * newSize := hpos.resolve_right (by rw [hdata]; nofun)
    obtain ⟨bytes, hsucc⟩ := Nat.exists_eq_succ_of_ne_zero hnull.ne'
    obtain ⟨count, rfl⟩ := Nat.exists_eq_succ_of_ne_zero (Nat.pos_of_mul_pos_left hnull).ne'
    rw [hdata, hids, hsucc]
    rfl

/-- The memory of a list that was resized. -/
theorem Valid.resized {list : BsList} (hlist : list.WellFormed) (hsize : list.elementSize = size)
    (hbytes : size * list.capacity < 2 ^ 32) (hcapacity : list.capacity < 2 ^ 32) :
    Valid ⟨list, .block (size * list.capacity), .block list.capacity⟩ size :=
  ⟨hlist, hsize, .inr ⟨rfl, rfl⟩, hbytes, hcapacity⟩

/-- The memory of a list that was not resized. -/
theorem Valid.keep (h : mem.Valid size) {list : BsList} (hlist : list.WellFormed) (hsize : list.elementSize = size)
    (hcapacity : list.capacity = mem.list.capacity) : Valid { mem with list := list } size :=
  ⟨hlist, hsize, by rw [hcapacity]; exact h.memory, hcapacity ▸ h.bytes, hcapacity ▸ h.capacity⟩

/-- The memory of a new list. -/
theorem Valid.init {elementSize initialCapacity : UInt32} (h : elementSize.toNat * initialCapacity.toNat < 2 ^ 32) :
    (BsListMemory.init elementSize initialCapacity).Valid elementSize.toNat := by
  have hwell := BsList.bsListInit_wellFormed elementSize.toNat initialCapacity.toNat
  rw [BsListMemory.init]
  split
  · rename_i hzero
    subst hzero
    exact ⟨hwell, rfl, .inl ⟨rfl, rfl, rfl⟩, h, Nat.two_pow_pos 32⟩
  · rw [Nat.mod_eq_of_lt h]
    exact ⟨hwell, rfl, .inr ⟨rfl, rfl⟩, h, initialCapacity.toNat_lt⟩

/-- A new list has no elements. -/
@[simp] theorem init_data (elementSize initialCapacity : UInt32) :
    (BsListMemory.init elementSize initialCapacity).list.data = [] := by
  unfold BsListMemory.init
  split <;> rfl

/-- A new list holds the entries of the empty map. -/
theorem init_represents (elementSize initialCapacity : UInt32) :
    (BsListMemory.init elementSize initialCapacity).Represents fun _ : Block size => none := by
  intro data id
  refine ⟨fun hmaps => absurd hmaps ?_, nofun⟩
  simp [BsList.Maps, BsList.entries]

/-- `bs_list_find` looks the element up. -/
theorem Valid.find (h : mem.Valid size) (hmap : mem.Represents map) (data : Block size) :
    mem.find data.toList = some ((map data).getD (-1), mem) := by
  have hx : data.toList.length = mem.list.elementSize := by rw [h.elementSize, List.Vector.toList_length]
  rw [BsListMemory.find, if_pos (h.holds h.wellFormed.fits)]
  rcases h.wellFormed.bsListFind_spec hx with hmaps | ⟨hminus, hnone⟩
  · rw [(hmap data _).mp hmaps, getD_some]
  · have habsent : map data = none := by
      rw [eq_none_iff_forall_ne_some]
      exact fun id hid => hnone id ((hmap data id).mpr hid)
    rw [hminus, habsent, getD_none]

/-- A map after an element was added. -/
theorem Represents.added {mem' : BsListMemory} (hmap : mem.Represents map) {data : Block size} {id : ℤ}
    (hadded : BsList.Added mem.list mem'.list data.toList id) :
    mem'.Represents (update map data (some id)) := by
  intro y id'
  rw [hadded.maps, hmap]
  by_cases hy : y = data
  · subst hy
    have habsent : ∀ id', map y ≠ some id' := fun id' hid => hadded.fresh id' ((hmap y id').mpr hid)
    simp [habsent, eq_comm]
  · have hne : y.toList ≠ data.toList := fun heq => hy (List.Vector.toList_injective heq)
    simp [hy, hne]

/-- A map after an element was removed. -/
theorem Represents.removed {mem' : BsListMemory} (hmap : mem.Represents map) {data : Block size} {id : ℤ}
    (hremoved : BsList.Removed mem.list mem'.list data.toList id) :
    mem'.Represents (update map data none) := by
  intro y id'
  rw [hremoved.maps, hmap]
  by_cases hy : y = data
  · subst hy
    have hid := (hmap y id).mp hremoved.present
    simp [hid, eq_comm]
  · have hne : y.toList ≠ data.toList := fun heq => hy (List.Vector.toList_injective heq)
    simp [hy, hne]

/-- `bs_list_add` adds an element that is absent. -/
theorem Valid.add (h : mem.Valid size) (hmap : mem.Represents map) (data : Block size) (id : ℤ)
    (hfits : (BsListCall.add data id).Fits mem) :
    ∃ mem', mem.add data.toList id = some (((BsListCall.add data id).mapExec map).1, mem') ∧ mem'.Valid size ∧
      mem'.Represents ((BsListCall.add data id).mapExec map).2 := by
  have hx : data.toList.length = mem.list.elementSize := by rw [h.elementSize, List.Vector.toList_length]
  have hle := h.wellFormed.fits
  rw [BsListMemory.add, if_pos (h.holds hle)]
  rcases h.wellFormed.bsListAdd_spec hx true id with ⟨list, heq, hlist, hsize, hadded⟩ | ⟨heq, hpresent⟩
  · have habsent : map data = none := by
      rw [eq_none_iff_forall_ne_some]
      exact fun id' hid => hadded.fresh id' ((hmap data id').mpr hid)
    obtain ⟨hlength, hcapacity⟩ := BsList.bsListAdd_capacity heq
    simp only [heq, BsListCall.mapExec, if_pos habsent]
    by_cases hfull : mem.list.data.length = mem.list.capacity
    · rw [if_pos hfull] at hcapacity
      have hbytes := h.bytes
      have hshort := h.wellFormed.length_lt (by rw [h.elementSize, hfull]; exact hbytes)
      have hallocates : BsListCall.Allocates size mem list.capacity := by rw [hcapacity]; exact hfits hfull
      have hadded' := Valid.resized hlist (hsize.trans h.elementSize) hallocates.1 (by omega)
      rw [if_pos hfull, h.resize hallocates]
      dsimp only
      have hholds :
        BsListMemory.Holds ⟨mem.list, .block (size * list.capacity), .block list.capacity⟩ list.data.length :=
        (hadded'.holds hlist.fits).imp_right fun hmem => by rwa [hsize] at hmem
      rw [if_pos hholds]
      exact ⟨_, rfl, hadded', hmap.added hadded⟩
    · rw [if_neg hfull] at hcapacity
      rw [if_neg hfull, if_pos (h.holds (by omega))]
      exact ⟨_, rfl, h.keep hlist (hsize.trans h.elementSize) hcapacity, hmap.added hadded⟩
  · obtain ⟨id', hid⟩ := hpresent rfl
    have hne : map data ≠ none := by rw [(hmap data id').mp hid]; simp
    simp only [heq, BsListCall.mapExec, if_neg hne]
    exact ⟨mem, rfl, h, hmap⟩

/-- `bs_list_remove` removes an element that is present with the id. -/
theorem Valid.remove (h : mem.Valid size) (hmap : mem.Represents map) (data : Block size) (id : ℤ)
    (hfits : (BsListCall.remove data id).Fits mem) :
    ∃ mem', mem.remove data.toList id = some (((BsListCall.remove data id).mapExec map).1, mem') ∧ mem'.Valid size ∧
      mem'.Represents ((BsListCall.remove data id).mapExec map).2 := by
  have hx : data.toList.length = mem.list.elementSize := by rw [h.elementSize, List.Vector.toList_length]
  have hle := h.wellFormed.fits
  rw [BsListMemory.remove, if_pos (h.holds hle)]
  rcases h.wellFormed.bsListRemove_spec hx true id with ⟨list, heq, hlist, hsize, hremoved⟩ | ⟨heq, habsent⟩
  · have hpresent := (hmap data id).mp hremoved.present
    have hcapacity := BsList.bsListRemove_capacity heq
    simp only [heq, BsListCall.mapExec, if_pos hpresent]
    by_cases hsparse : mem.list.data.length < mem.list.capacity / 2
    · rw [if_pos hsparse] at hcapacity
      have hle' : list.capacity ≤ mem.list.capacity := by omega
      have hsome : 0 < mem.list.data.length := by
        have hmem : (data.toList, id) ∈ mem.list.data.zip mem.list.ids := hremoved.present
        exact length_pos_of_mem (of_mem_zip hmem).1
      have hallocates : BsListCall.Allocates size mem list.capacity := by rw [hcapacity]; exact hfits hsome hsparse
      have hremoved' := Valid.resized hlist (hsize.trans h.elementSize) hallocates.1 (lt_of_le_of_lt hle' h.capacity)
      have hholds : BsListMemory.Holds ⟨mem.list, .block (size * list.capacity), .block list.capacity⟩
          mem.list.data.length := by
        refine .inr ⟨?_, by change _ ≤ _; omega⟩
        change mem.list.elementSize * _ ≤ _
        rw [h.elementSize]
        exact Nat.mul_le_mul_left size (by omega)
      rw [if_pos hsparse, h.resize hallocates]
      dsimp only
      rw [if_pos hholds, heq]
      exact ⟨_, rfl, hremoved', hmap.removed hremoved⟩
    · rw [if_neg hsparse] at hcapacity
      rw [if_neg hsparse]
      exact ⟨_, rfl, h.keep hlist (hsize.trans h.elementSize) hcapacity, hmap.removed hremoved⟩
  · have hne : map data ≠ some id := fun hid => habsent ((hmap data id).mpr hid)
    simp only [heq, BsListCall.mapExec, if_neg hne]
    exact ⟨mem, rfl, h, hmap⟩

/-- `bs_list_trim` keeps the entries. -/
theorem Valid.trim (h : mem.Valid size) (hmap : mem.Represents map)
    (hfits : (BsListCall.trim : BsListCall size).Fits mem) :
    ∃ mem', mem.trim = some (1, mem') ∧ mem'.Valid size ∧ mem'.Represents map := by
  have hlist : (bsListTrim true mem.list).2.WellFormed :=
    ⟨h.wellFormed.sizes, h.wellFormed.ids_length, h.wellFormed.sorted, le_rfl⟩
  rw [BsListMemory.trim, h.resize hfits]
  exact ⟨_, rfl, Valid.resized hlist h.elementSize hfits.1 (lt_of_le_of_lt h.wellFormed.fits h.capacity), hmap⟩

end BsListMemory

/-! ## Runs -/

variable {mem : BsListMemory} {size : ℕ}

/-- A call that fits does what it does to the map. -/
theorem BsListCall.exec_refines {map : Block size → Option ℤ} (h : mem.Valid size) (hmap : mem.Represents map)
    (call : BsListCall size) (hfits : call.Fits mem) :
    ∃ mem', call.exec mem = some ((call.mapExec map).1, mem') ∧ mem'.Valid size ∧
      mem'.Represents (call.mapExec map).2 := by
  cases call with
  | find data => exact ⟨mem, h.find hmap data, h, hmap⟩
  | add data id => exact h.add hmap data id hfits
  | remove data id => exact h.remove hmap data id hfits
  | trim => exact h.trim hmap hfits

/-- Calls that fit do what they do to the map. -/
theorem BsListCall.run_refines {map : Block size → Option ℤ} (h : mem.Valid size) (hmap : mem.Represents map)
    (calls : List (BsListCall size)) (hfits : RunFits mem calls) :
    ∃ mem', run mem calls = some ((mapRun map calls).1, mem') ∧ mem'.Valid size ∧
      mem'.Represents (mapRun map calls).2 := by
  induction calls generalizing mem map with
  | nil => exact ⟨mem, rfl, h, hmap⟩
  | cons call rest ih =>
    obtain ⟨mem₁, hexec, h₁, hmap₁⟩ := exec_refines h hmap call hfits.1
    have hrest : RunFits mem₁ rest := by
      have hnext := hfits.2
      rwa [hexec] at hnext
    obtain ⟨mem₂, hrun, h₂, hmap₂⟩ := ih h₁ hmap₁ hrest
    refine ⟨mem₂, ?_, h₂, hmap₂⟩
    simp only [run, hexec, bind_some, hrun, map_some, mapRun]

/-- A list that holds the entries of a map: its elements increase strictly, each has its id, they are within the
capacity and the memory, and every search stays inside the array and ends where the element is or belongs. -/
structure BsListMemory.Implements {size : ℕ} (mem : BsListMemory) (map : Block size → Option ℤ) : Prop where
  increasing : mem.list.data.Pairwise fun a b => memcmp a b = .lt
  ids_length : mem.list.ids.length = mem.list.data.length
  entries : ∀ data id, map data = some id ↔
    ∃ i : ℕ, mem.list.data[i]? = some data.toList ∧ mem.list.ids[i]? = some id
  fits : mem.list.data.length ≤ mem.list.capacity
  memory : mem.Holds mem.list.capacity
  searches : ∀ data : Block size, ∃ result, mem.list.find data.toList = some result ∧
    BsList.FindResult.Right mem.list data.toList result

/-- What holds the entries of a map implements it. -/
theorem BsListMemory.Valid.implements {map : Block size → Option ℤ} (h : mem.Valid size) (hmap : mem.Represents map) :
    mem.Implements map := by
  have hwell := h.wellFormed
  refine ⟨?_, hwell.ids_length, ?_, hwell.fits, h.holds le_rfl, ?_⟩
  · have hsorted : mem.list.data.Pairwise fun a b => beNat a < beNat b := by
      rw [← BsList.entries_fst hwell.ids_length, pairwise_map]
      exact hwell.sorted
    refine hsorted.imp_of_mem ?_
    intro a b ha hb hlt
    rw [memcmp_eq_compare ((hwell.sizes a ha).trans (hwell.sizes b hb).symm)]
    exact Nat.compare_eq_lt.mpr hlt
  · intro data id
    rw [← hmap data id, BsList.Maps, BsList.entries, mem_iff_getElem?]
    simp only [getElem?_zip_eq_some]
  · intro data
    exact hwell.find_spec (by rw [h.elementSize, List.Vector.toList_length])

/-- Whatever the calls on a new list, as long as its arrays are resized to fewer than 2^32 bytes and not to nothing,
the return values are those of a map from elements to ids, and the list holds its entries. -/
theorem bsList_refines_map (elementSize initialCapacity : UInt32) (calls : List (BsListCall elementSize.toNat))
    (hinit : elementSize.toNat * initialCapacity.toNat < 2 ^ 32)
    (hfits : BsListCall.RunFits (.init elementSize initialCapacity) calls) :
    ∃ mem, BsListCall.run (.init elementSize initialCapacity) calls =
        some ((BsListCall.mapRun (fun _ => none) calls).1, mem) ∧
      mem.Implements (BsListCall.mapRun (fun _ => none) calls).2 := by
  obtain ⟨mem, hrun, hvalid, hmap⟩ := BsListCall.run_refines (BsListMemory.Valid.init hinit)
    (BsListMemory.init_represents elementSize initialCapacity) calls hfits
  exact ⟨mem, hrun, hvalid.implements hmap⟩

/-- Two elements of one byte: calls that find, add and remove them. -/
def byteCalls : List (BsListCall 1) :=
  [.add (List.Vector.replicate 1 5) 7, .add (List.Vector.replicate 1 3) 8, .add (List.Vector.replicate 1 5) 9, .trim,
    .find (List.Vector.replicate 1 5), .remove (List.Vector.replicate 1 5) 8, .remove (List.Vector.replicate 1 5) 7,
    .find (List.Vector.replicate 1 5)]

/-- The calls on the bytes succeed and fail as on a map. -/
theorem bsList_refines_map_byteCalls :
    ∃ mem, BsListCall.run (.init 1 0) byteCalls = some ([1, 1, 0, 1, 7, 0, 1, -1], mem) ∧
      mem.Implements (BsListCall.mapRun (fun _ => none) byteCalls).2 :=
  bsList_refines_map 1 0 byteCalls (by decide) (by decide +kernel)

/-- What `resize` asks for has fewer than 2^32 bytes. -/
theorem BsListMemory.resize_true {mem' : BsListMemory} {newSize : ℕ} (h : mem.resize newSize = some (true, mem')) :
    mem'.list = mem.list ∧ ∀ count, mem'.data.Has count → count < 2 ^ 32 := by
  unfold BsListMemory.resize at h
  split at h
  · contradiction
  · nomatch (Prod.mk.inj (some_inj.mp h)).1
  · rename_i data hdata
    obtain ⟨⟨success, ids⟩, -, hmem⟩ := map_eq_some_iff.mp h
    obtain rfl := (Prod.mk.inj hmem).2
    refine ⟨rfl, fun count hcount => ?_⟩
    have hmod := Nat.mod_lt (mem.list.elementSize * newSize) (Nat.two_pow_pos 32)
    generalize mem.list.elementSize * newSize % 2 ^ 32 = bytes at hdata hmod
    have hblock : data = .block bytes := by
      unfold ArrayMemory.realloc at hdata
      split at hdata <;> simp_all
    rw [hblock] at hcount
    exact lt_of_le_of_lt hcount hmod

/-- An element is not added to a full list where the bytes wrap. -/
theorem BsListMemory.Valid.add_overflow (h : mem.Valid size) (data : Block size) (id : ℤ)
    (hfull : mem.list.data.length = mem.list.capacity) (hwraps : 2 ^ 32 ≤ size * (mem.list.data.length + 1))
    (mem' : BsListMemory) : mem.add data.toList id ≠ some (1, mem') := by
  have hx : data.toList.length = mem.list.elementSize := by rw [h.elementSize, List.Vector.toList_length]
  intro hadd
  rw [BsListMemory.add, if_pos (h.holds h.wellFormed.fits)] at hadd
  rcases h.wellFormed.bsListAdd_spec hx true id with ⟨list, heq, -, -, -⟩ | ⟨heq, -⟩
  · simp only [heq, if_pos hfull] at hadd
    split at hadd
    · contradiction
    · nomatch (Prod.mk.inj (some_inj.mp hadd)).1
    · rename_i resized hresize
      obtain ⟨hlist, hhas⟩ := resize_true hresize
      split at hadd
      · rename_i hholds
        rw [Holds, (BsList.bsListAdd_capacity heq).1, hlist, h.elementSize] at hholds
        have hlt := hhas _ (hholds.resolve_left (Nat.succ_ne_zero _)).1
        omega
      · contradiction
  · simp only [heq] at hadd
    nomatch (Prod.mk.inj (some_inj.mp hadd)).1

/-- A new list after one element was added. -/
theorem BsListMemory.add_init (elementSize : UInt32) (data : Bytes) (id : ℤ) :
    (init elementSize 0).add data id =
      some (1, ⟨⟨elementSize.toNat, 1, [data], [id]⟩, .block elementSize.toNat, .block 1⟩) := by
  have hbytes : elementSize.toNat % 4294967296 = elementSize.toNat := Nat.mod_eq_of_lt elementSize.toNat_lt
  simp [BsListMemory.add, init, BsListMemory.resize, ArrayMemory.realloc, Holds, ArrayMemory.Has, bsListInit, bsListAdd,
    BsList.find, insertAt, hbytes]

/-- With elements of 2^31 bytes or more, the second one is not added. -/
theorem run_two_large {elementSize : UInt32} (hlarge : 2 ^ 31 ≤ elementSize.toNat) (x y : Block elementSize.toNat)
    (mem : BsListMemory) : BsListCall.run (.init elementSize 0) [.add x 1, .add y 2] ≠ some ([1, 1], mem) := by
  have hlt := elementSize.toNat_lt
  have hvalid : BsListMemory.Valid ⟨⟨elementSize.toNat, 1, [x.toList], [1]⟩, .block elementSize.toNat, .block 1⟩
      elementSize.toNat := by
    refine ⟨⟨?_, rfl, pairwise_singleton _ _, le_rfl⟩, rfl, .inr ⟨by rw [Nat.mul_one], rfl⟩, ?_,
      Nat.one_lt_two_pow (by decide)⟩
    · intro z hz
      rw [mem_singleton.mp hz, List.Vector.toList_length]
    · change elementSize.toNat * 1 < 2 ^ 32
      omega
  intro hrun
  simp only [BsListCall.run, BsListCall.exec, BsListMemory.add_init, bind_some] at hrun
  obtain ⟨⟨results, mem₁⟩, hrest, heq⟩ := map_eq_some_iff.mp hrun
  obtain ⟨⟨result, mem₂⟩, hadd, hnil⟩ := bind_eq_some_iff.mp hrest
  simp only [map_some, some_inj, Prod.mk.injEq, List.cons.injEq] at heq hnil
  obtain rfl : result = 1 := (List.cons.inj (hnil.1.trans heq.1.2)).1
  exact hvalid.add_overflow y 2 rfl (by change 2 ^ 32 ≤ elementSize.toNat * 2; omega) _ hadd

/-- An element that is added to a list that was emptied and trimmed is written to memory that was freed. And of two
elements of 2^31 + 1 bytes the second one is not added: for both together 2 bytes are asked for. -/
theorem bsList_not_in_memory :
    BsListCall.run (.init 1 0) [.add (List.Vector.replicate 1 5) 7, .remove (List.Vector.replicate 1 5) 7, .trim,
        .add (List.Vector.replicate 1 5) 7] = none ∧
      ¬∃ mem, BsListCall.run (.init 2147483649 0)
        [.add (List.Vector.replicate (UInt32.toNat 2147483649) 0) 1,
          .add (List.Vector.replicate (UInt32.toNat 2147483649) 1) 2] = some ([1, 1], mem) :=
  ⟨by decide +kernel, fun ⟨mem, hrun⟩ => run_two_large (by decide) _ _ mem hrun⟩

end Toxcore
