import Toxcore.Data.SequenceRing
import Toxcore.Data.TableView

/-!
# The jitter buffer of audio messages

`JitterBuffer` of `audio.c` puts messages back into the order of their sequence numbers. They are kept in a ring, in
the cell of their number; `bottom` is the number to be read next, and `top` the number behind the newest message.
Messages are pointers with a sequence number, and what is freed is a result of the functions.
-/

namespace Toxcore

open SequenceRing TableView List Option

open scoped List

/-- `JitterBuffer`. The messages are in `queue`, where `NULL` is `none`. -/
structure JitterBuffer (α : Type*) where
  queue : List (Option α)
  size : UInt32
  capacity : UInt32
  bottom : UInt16
  top : UInt16

/-- The loop of `jbuf_new`, by a bound for its rounds. After 32 rounds `size` is 0 and stays 0, and the loop does not
end. -/
def jbufSize (capacity : UInt32) : ℕ → UInt32 → Option UInt32
  | 0, _ => none
  | rounds + 1, size => if size ≤ capacity * 4 then jbufSize capacity rounds (size * 2) else some size

/-- `jbuf_new`. `alloc` says whether there is memory. -/
def jbufNew (α : Type*) (alloc : Bool) (capacity : UInt32) : Option (JitterBuffer α) :=
  match jbufSize capacity 33 1 with
  | none => none
  | some size => if alloc then some ⟨List.replicate size.toNat none, size, capacity, 0, 0⟩ else none

section Buffer

variable {α : Type*} (sequnum : α → UInt16) (q : JitterBuffer α)

/-- The index of a sequence number. -/
def JitterBuffer.num (number : UInt16) : ℕ := cellOf q.size.toNat number

/-- The loop of `jbuf_clear`, by its rounds: what is freed, and the buffer. -/
def jbufClearLoop : ℕ → JitterBuffer α → List α × JitterBuffer α
  | 0, q => ([], q)
  | rounds + 1, q =>
    if q.bottom = q.top then ([], q)
    else
      let freed := (q.queue.getD (q.num q.bottom) none).toList
      let (rest, q) := jbufClearLoop rounds
        { q with queue := q.queue.set (q.num q.bottom) none, bottom := q.bottom + 1 }
      (freed ++ rest, q)

/-- `jbuf_clear`. -/
def jbufClear : List α × JitterBuffer α := jbufClearLoop (ahead q.bottom q.top) q

/-- `jbuf_write`: the return value 0 as `true`, what is freed, and the buffer. -/
def jbufWrite (m : α) : Bool × List α × JitterBuffer α :=
  let number := sequnum m
  if number.toUInt32 - q.bottom.toUInt32 > q.size then
    let (freed, q) := jbufClear q
    (true, freed, { q with
      bottom := (number.toUInt32 - q.capacity).toUInt16, queue := q.queue.set (q.num number) (some m),
        top := number + 1 })
  else
    match q.queue.getD (q.num number) none with
    | some _ => (false, [], q)
    | none =>
      let q := { q with queue := q.queue.set (q.num number) (some m) }
      (true, [],
        if (number.toNat : ℤ) - q.bottom.toNat ≥ (q.top.toNat :
          ℤ) - q.bottom.toNat then { q with top := number + 1 } else q)

/-- `jbuf_read`: what is stored at `success`, the message, and the buffer. -/
def jbufRead : ℕ × Option α × JitterBuffer α :=
  if q.top = q.bottom then (0, none, q)
  else
    match q.queue.getD (q.num q.bottom) none with
    | some ret => (1, some ret, { q with queue := q.queue.set (q.num q.bottom) none, bottom := q.bottom + 1 })
    | none =>
      if q.top.toUInt32 - q.bottom.toUInt32 > q.capacity then (2, none, { q with bottom := q.bottom + 1 })
      else (0, none, q)

end Buffer

/-! ## Runs -/

/-- A buffer with the messages it accepted, returned and freed so far. -/
structure JitterHistory (α : Type*) where
  buffer : JitterBuffer α
  accepted : List α
  returned : List α
  freed : List α

/-- The messages in a buffer. -/
def JitterBuffer.stored {α : Type*} (q : JitterBuffer α) : List α := q.queue.reduceOption

section Histories

variable {α : Type*} (sequnum : α → UInt16)

/-- A message is written. -/
def JitterHistory.write (s : JitterHistory α) (m : α) : JitterHistory α :=
  let (accepts, freed, buffer) := jbufWrite sequnum s.buffer m
  { s with buffer := buffer, accepted := if accepts then s.accepted ++ [m] else s.accepted, freed := s.freed ++ freed }

/-- A message is read. -/
def JitterHistory.read (s : JitterHistory α) : JitterHistory α :=
  let (_, ret, buffer) := jbufRead s.buffer
  { s with buffer := buffer, returned := s.returned ++ ret.toList }

/-- The buffers that writes and reads reach from a new one, where every write meets a condition. -/
inductive JitterReaches (capacity : UInt32) (ok : JitterBuffer α → α → Prop) : JitterHistory α → Prop
  | new {q : JitterBuffer α} (h : jbufNew α true capacity = some q) : JitterReaches capacity ok ⟨q, [], [], []⟩
  | write {s : JitterHistory α} (h : JitterReaches capacity ok s) (m : α) (hok : ok s.buffer m) :
    JitterReaches capacity ok (s.write sequnum m)
  | read {s : JitterHistory α} (h : JitterReaches capacity ok s) : JitterReaches capacity ok s.read

/-- Messages are read in the order of their numbers: what is read has the number at the bottom, what is stored has a
number of the window, every message that was accepted was returned, was freed or is still stored, and none is twice
among them. -/
structure JitterHistory.Ordered (s : JitterHistory α) : Prop where
  next : ∀ m, (jbufRead s.buffer).2.1 = some m → sequnum m = s.buffer.bottom
  window : ∀ m ∈ s.buffer.stored, ahead s.buffer.bottom (sequnum m) < ahead s.buffer.bottom s.buffer.top
  conserved : s.accepted.Perm (s.returned ++ (s.freed ++ s.buffer.stored))
  once : s.accepted.Nodup → (s.returned ++ (s.freed ++ s.buffer.stored)).Nodup

/-- A message keeps the window in order. Where the buffer is cleared for it, its capacity is not one below a multiple
of `2 ^ 16`. Where it is put into a free cell, it is not as far ahead of the bottom as the ring is large, it is not
the last number before the bottom, and if it becomes the newest message, no stored message is further ahead. -/
def KeepsWindow (q : JitterBuffer α) (m : α) : Prop :=
  if (sequnum m).toUInt32 - q.bottom.toUInt32 > q.size then q.capacity.toUInt16 + 1 ≠ 0
  else q.queue.getD (q.num (sequnum m)) none = none →
    (sequnum m).toUInt32 - q.bottom.toUInt32 ≠ q.size ∧ sequnum m + 1 ≠ q.bottom ∧
      (q.top ≤ sequnum m → ∀ m' ∈ q.stored, ahead q.bottom (sequnum m') ≤ ahead q.bottom (sequnum m))

instance (q : JitterBuffer α) (m : α) : Decidable (KeepsWindow sequnum q m) :=
  inferInstanceAs (Decidable (if (sequnum m).toUInt32 - q.bottom.toUInt32 > q.size then q.capacity.toUInt16 + 1 ≠ 0
    else q.queue.getD (q.num (sequnum m)) none = none →
      (sequnum m).toUInt32 - q.bottom.toUInt32 ≠ q.size ∧ sequnum m + 1 ≠ q.bottom ∧
        (q.top ≤ sequnum m → ∀ m' ∈ q.stored, ahead q.bottom (sequnum m') ≤ ahead q.bottom (sequnum m))))

end Histories

/-! ## The invariant -/

/-- A buffer as it is kept: the ring has a power of two of cells, the window from bottom to top is not longer than the
ring, nor is the capacity, and every message is in the cell of its number, which is in the window. -/
structure JitterBuffer.Sound {α : Type*} (sequnum : α → UInt16) (q : JitterBuffer α) : Prop where
  power : ∃ k ≤ 31, q.size.toNat = 2 ^ k
  cells : q.queue.length = q.size.toNat
  capacity : q.capacity.toUInt16.toNat < q.size.toNat
  width : ahead q.bottom q.top ≤ q.size.toNat
  placed : ∀ i m, q.queue[i]? = some (some m) → i = q.num (sequnum m) ∧
    ahead q.bottom (sequnum m) < ahead q.bottom q.top

namespace JitterBuffer.Sound

variable {α : Type*} {sequnum : α → UInt16} {q : JitterBuffer α} (h : q.Sound sequnum)
include h

/-- A number has a cell. -/
theorem num_lt (number : UInt16) : q.num number < q.queue.length := by
  obtain ⟨k, -, hsize⟩ := h.power
  rw [h.cells, JitterBuffer.num, cellOf]
  exact Nat.mod_lt _ (hsize ▸ Nat.two_pow_pos k)

/-- A cell is free or has a message. -/
theorem getElem?_num (number : UInt16) : q.queue[q.num number]? = some (q.queue.getD (q.num number) none) := by
  rw [getD_eq_getElem?_getD, getElem?_eq_getElem (h.num_lt number), getD_some]

/-- The message in the cell of the bottom has the number of the bottom. -/
theorem sequnum_bottom {m : α} (hm : q.queue[q.num q.bottom]? = some (some m)) : sequnum m = q.bottom := by
  obtain ⟨k, -, hsize⟩ := h.power
  obtain ⟨hcell, hahead⟩ := h.placed _ m hm
  rw [num, num, hsize] at hcell
  have hwidth := h.width
  rw [hsize] at hwidth
  exact (cellOf_injective (by rw [ahead_self]; exact Nat.two_pow_pos k) (hahead.trans_le hwidth) hcell).symm

/-- The cell of the bottom is freed, and the bottom moves on. -/
theorem advance (hne : q.bottom ≠ q.top) :
    ({ q with queue := q.queue.set (q.num q.bottom) none, bottom := q.bottom + 1 } : JitterBuffer α).Sound sequnum := by
  have hstep := ahead_succ hne
  refine ⟨h.power, ?_, h.capacity, ?_, ?_⟩
  · rw [length_set]
    exact h.cells
  · have hwidth := h.width
    dsimp only
    omega
  · intro i m hm
    have hother : q.num q.bottom ≠ i := by
      rintro rfl
      rw [getElem?_set_self (h.num_lt _)] at hm
      exact some_ne_none m (some_inj.mp hm).symm
    rw [getElem?_set_ne hother] at hm
    obtain ⟨hcell, hahead⟩ := h.placed i m hm
    have hbottom : q.bottom ≠ sequnum m := by
      intro heq
      rw [← heq] at hcell
      exact hother hcell.symm
    have hm' := ahead_succ hbottom
    refine ⟨hcell, ?_⟩
    dsimp only
    omega

/-- An empty window has no message. -/
theorem stored_eq_nil (hempty : q.bottom = q.top) : q.stored = [] := by
  apply reduceOption_eq_nil
  intro i m hm
  have hahead := (h.placed i m hm).2
  rw [hempty, ahead_self] at hahead
  contradiction

/-- Of the stored messages, one is in the cell of the bottom, or none is. -/
theorem stored_bottom : q.stored.Perm
    ((q.queue.getD (q.num q.bottom) none).toList ++ (q.queue.set (q.num q.bottom) none).reduceOption) := by
  have hcell := h.getElem?_num q.bottom
  cases hm : q.queue.getD (q.num q.bottom) none with
  | none =>
    rw [hm] at hcell
    rw [set_free hcell]
    rfl
  | some m =>
    rw [hm] at hcell
    exact (reduceOption_clear hcell).symm

/-- Clearing frees all messages. -/
theorem clearLoop {rounds : ℕ} (hrounds : ahead q.bottom q.top = rounds) :
    (jbufClearLoop rounds q).2.Sound sequnum ∧ (jbufClearLoop rounds q).2.stored = [] ∧
      (jbufClearLoop rounds q).2.size = q.size ∧ (jbufClearLoop rounds q).2.capacity = q.capacity ∧
      q.stored.Perm (jbufClearLoop rounds q).1 := by
  induction rounds generalizing q with
  | zero =>
    have hempty : q.bottom = q.top := ahead_injective ((ahead_self _).trans hrounds.symm)
    have hnil := h.stored_eq_nil hempty
    exact ⟨h, hnil, rfl, rfl, List.Perm.of_eq hnil⟩
  | succ rounds ih =>
    have hne : q.bottom ≠ q.top := by
      intro hempty
      rw [hempty, ahead_self] at hrounds
      contradiction
    have hstep := ahead_succ hne
    obtain ⟨hsound, hnil, hsize, hcapacity, hfreed⟩ := ih (h.advance hne) (by dsimp only; omega)
    rw [jbufClearLoop, if_neg hne]
    exact ⟨hsound, hnil, hsize, hcapacity, h.stored_bottom.trans (hfreed.append_left _)⟩

/-! ### What a read does -/

/-- A read keeps the invariant, returns only the message of the bottom, and takes it out of the buffer. -/
theorem read : (jbufRead q).2.2.Sound sequnum ∧ (∀ m, (jbufRead q).2.1 = some m → sequnum m = q.bottom) ∧
    q.stored.Perm ((jbufRead q).2.1.toList ++ (jbufRead q).2.2.stored) := by
  have hcell := h.getElem?_num q.bottom
  have hstored := h.stored_bottom
  rw [jbufRead]
  by_cases hempty : q.top = q.bottom
  · rw [if_pos hempty]
    exact ⟨h, nofun, List.Perm.refl _⟩
  · have hadvance := h.advance (Ne.symm hempty)
    rw [if_neg hempty]
    cases hm : q.queue.getD (q.num q.bottom) none with
    | some ret =>
      rw [hm] at hcell hstored
      refine ⟨hadvance, ?_, hstored⟩
      rintro m hret
      obtain rfl := some_inj.mp hret
      exact h.sequnum_bottom hcell
    | none =>
      rw [hm] at hcell
      rw [set_free hcell] at hadvance
      dsimp only
      split
      · exact ⟨hadvance, nofun, List.Perm.refl _⟩
      · exact ⟨h, nofun, List.Perm.refl _⟩

/-! ### What a write does -/

omit h in
/-- A message is put into its cell, and the window moves so that it covers what is stored. -/
theorem put {m : α} {bottom top : UInt16} (h : q.Sound sequnum)
    (hwidth : ahead bottom top ≤ q.size.toNat) (hnew : ahead bottom (sequnum m) < ahead bottom top)
    (hold : ∀ m' ∈ q.stored, ahead bottom (sequnum m') < ahead bottom top) :
    ({ q with queue := q.queue.set (q.num (sequnum m)) (some m), bottom := bottom, top := top } :
      JitterBuffer α).Sound sequnum := by
  refine ⟨h.power, ?_, h.capacity, hwidth, ?_⟩
  · rw [length_set]
    exact h.cells
  · intro i m' hm'
    rw [getElem?_set] at hm'
    split at hm'
    · rename_i heq
      rw [if_pos (heq ▸ h.num_lt _), some_inj, some_inj] at hm'
      exact hm' ▸ ⟨heq.symm, hnew⟩
    · exact ⟨(h.placed i m' hm').1, hold m' (reduceOption_mem_iff.mpr (mem_of_getElem? hm'))⟩

/-- The ring has at most `2 ^ 31` cells. -/
theorem size_le : q.size.toNat ≤ 2 ^ 31 := by
  obtain ⟨k, hk, hsize⟩ := h.power
  rw [hsize]
  exact Nat.pow_le_pow_right (by decide) hk

/-- A number for which the buffer is not cleared is not below the bottom, and at most as far ahead as the ring is
large. -/
theorem not_cleared {number : UInt16} (hnear : ¬number.toUInt32 - q.bottom.toUInt32 > q.size) :
    q.bottom.toNat ≤ number.toNat ∧ number.toNat - q.bottom.toNat ≤ q.size.toNat := by
  have hle := UInt32.le_iff_toNat_le.mp (UInt32.not_lt.mp hnear)
  have hsize := h.size_le
  have hnumber := number.toNat_lt
  have hbottom := q.bottom.toNat_lt
  rw [UInt32.toNat_sub, UInt16.toNat_toUInt32, UInt16.toNat_toUInt32] at hle
  omega

/-- A write of a message that keeps the window keeps the invariant. The message it accepts is stored, and what was
stored is freed or still stored. -/
theorem write {m : α} (hok : KeepsWindow sequnum q m) : (jbufWrite sequnum q m).2.2.Sound sequnum ∧
    (q.stored ++ if (jbufWrite sequnum q m).1 then [m] else []).Perm
      ((jbufWrite sequnum q m).2.1 ++ (jbufWrite sequnum q m).2.2.stored) := by
  have hcell := h.getElem?_num (sequnum m)
  rw [KeepsWindow] at hok
  rw [jbufWrite]
  dsimp only
  by_cases hfar : (sequnum m).toUInt32 - q.bottom.toUInt32 > q.size
  · rw [if_pos hfar] at hok ⊢
    obtain ⟨hsound, hnil, hsize, hcapacity, hfreed⟩ := h.clearLoop rfl
    rw [← jbufClear] at hsound hnil hsize hcapacity hfreed
    have hcapacityLt := hsound.capacity
    have hempty := hsound.getElem?_num (sequnum m)
    have hfree : (jbufClear q).2.queue.getD ((jbufClear q).2.num (sequnum m)) none = none := by
      cases hm : (jbufClear q).2.queue.getD ((jbufClear q).2.num (sequnum m)) none with
      | none => rfl
      | some m' =>
        rw [hm] at hempty
        have hmem : m' ∈ (jbufClear q).2.stored := reduceOption_mem_iff.mpr (mem_of_getElem? hempty)
        rw [hnil] at hmem
        contradiction
    rw [hfree] at hempty
    rw [← hcapacity] at hok
    have hbehind := ahead_sub (sequnum m) (jbufClear q).2.capacity
    have hnext := ahead_sub_next (sequnum m) hok
    refine ⟨hsound.put (by omega) (by omega) (by rw [hnil]; exact fun _ hm' => absurd hm' not_mem_nil), ?_⟩
    have hput := reduceOption_put m hempty
    rw [show (jbufClear q).2.queue.reduceOption = [] from hnil] at hput
    exact hfreed.append hput.symm
  · obtain ⟨hbelow, hahead⟩ := h.not_cleared hfar
    rw [if_neg hfar] at hok ⊢
    cases hm : q.queue.getD (q.num (sequnum m)) none with
    | some m' =>
      exact ⟨h, by rw [if_neg Bool.false_ne_true, append_nil]; exact List.Perm.refl _⟩
    | none =>
      rw [hm] at hcell
      obtain ⟨hedge, hlast, hnewest⟩ := hok hm
      have hput := (reduceOption_put m hcell).symm
      have hperm : (q.stored ++ if true then [m] else []).Perm
          ([] ++ (q.queue.set (q.num (sequnum m)) (some m)).reduceOption) :=
        (perm_append_singleton m _).trans hput
      have hwindow := ahead_of_le hbelow
      have hfits : ahead q.bottom (sequnum m) ≠ q.size.toNat := by
        intro heq
        apply hedge
        have hlt := (sequnum m).toNat_lt
        have hle : q.bottom.toUInt32 ≤ (sequnum m).toUInt32 := UInt32.le_iff_toNat_le.mpr hbelow
        apply UInt32.toNat_inj.mp
        rw [UInt32.toNat_sub_of_le _ _ hle, UInt16.toNat_toUInt32, UInt16.toNat_toUInt32]
        omega
      dsimp only
      split
      · rename_i htop
        have hnext := ahead_next hlast
        have hle : q.top ≤ sequnum m := UInt16.le_iff_toNat_le.mpr (by omega)
        exact ⟨h.put (by omega) (by omega) fun m' hm' => by have := hnewest hle m' hm'; omega, hperm⟩
      · rename_i htop
        have htopAhead : ahead q.bottom q.top = q.top.toNat - q.bottom.toNat := ahead_of_le (by omega)
        refine ⟨h.put h.width (by omega) fun m' hm' => ?_, hperm⟩
        obtain ⟨i, hi⟩ := mem_iff_getElem?.mp (reduceOption_mem_iff.mp hm')
        exact (h.placed i m' hi).2

end JitterBuffer.Sound

/-! ### A new buffer -/

/-- The size is a power of two above four times the capacity. -/
theorem jbufSize_power {capacity size result : UInt32} {rounds : ℕ}
    (hsome : jbufSize capacity rounds size = some result)
    (hsize : size = 0 ∨ ∃ k ≤ 31, size.toNat = 2 ^ k) : (∃ k ≤ 31, result.toNat = 2 ^ k) ∧ capacity * 4 < result := by
  induction rounds generalizing size with
  | zero => contradiction
  | succ rounds ih =>
    rw [jbufSize] at hsome
    split at hsome
    · apply ih hsome
      rcases hsize with rfl | ⟨k, hk, hpower⟩
      · exact .inl rfl
      · have hdouble : (size * 2).toNat = 2 ^ (k + 1) % 2 ^ 32 := by
          rw [UInt32.toNat_mul, hpower, pow_succ]
          rfl
        rcases Nat.lt_or_ge k 31 with hlt | hge
        · rw [Nat.mod_eq_of_lt (Nat.pow_lt_pow_right (by decide) (by omega))] at hdouble
          exact .inr ⟨k + 1, hlt, hdouble⟩
        · obtain rfl : k = 31 := le_antisymm hk hge
          exact .inl (UInt32.toNat_inj.mp hdouble)
    · rename_i hlarge
      obtain rfl := some_inj.mp hsome
      have hlt := UInt32.not_le.mp hlarge
      refine ⟨hsize.resolve_left ?_, hlt⟩
      rintro rfl
      exact absurd (UInt32.lt_iff_toNat_lt.mp hlt) (Nat.not_lt_zero _)

/-- A new buffer is sound, and empty. -/
theorem jbufNew_sound {α : Type*} (sequnum : α → UInt16) {alloc : Bool} {capacity : UInt32} {q : JitterBuffer α}
    (hnew : jbufNew α alloc capacity = some q) : q.Sound sequnum ∧ q.stored = [] := by
  rw [jbufNew] at hnew
  cases hsize : jbufSize capacity 33 1 with
  | none =>
    rw [hsize] at hnew
    contradiction
  | some size =>
    rw [hsize] at hnew
    obtain ⟨hpower, hlt⟩ := jbufSize_power hsize (.inr ⟨0, by decide, rfl⟩)
    dsimp only at hnew
    split at hnew
    · obtain rfl := some_inj.mp hnew
      have hcapacity := UInt32.lt_iff_toNat_lt.mp hlt
      have hfree : ∀ (i : ℕ) (m : α), (List.replicate size.toNat none : List (Option α))[i]? ≠ some (some m) := by
        intro i m hm
        have hmem := eq_of_mem_replicate (mem_of_getElem? hm)
        contradiction
      refine ⟨⟨hpower, length_replicate, ?_, ?_, fun i m hm => absurd hm (hfree i m)⟩, reduceOption_eq_nil hfree⟩
      · rw [UInt32.toNat_mul, show (4 : UInt32).toNat = 4 from rfl] at hcapacity
        dsimp only
        rw [UInt32.toNat_toUInt16]
        omega
      · dsimp only
        rw [ahead_self]
        exact Nat.zero_le _
    · contradiction

/-! ## Runs of a buffer -/

section Runs

variable {α : Type*} {sequnum : α → UInt16} {capacity : UInt32}

/-- What is kept over a run. -/
theorem JitterReaches.sound {s : JitterHistory α} (h : JitterReaches sequnum capacity (KeepsWindow sequnum) s) :
    s.buffer.Sound sequnum ∧ s.accepted.Perm (s.returned ++ (s.freed ++ s.buffer.stored)) := by
  induction h with
  | new hnew =>
    obtain ⟨hsound, hnil⟩ := jbufNew_sound sequnum hnew
    exact ⟨hsound, List.Perm.of_eq hnil.symm⟩
  | @write s _ m hok ih =>
    obtain ⟨hsound, hconserved⟩ := ih
    obtain ⟨hafter, hwritten⟩ := hsound.write hok
    refine ⟨hafter, ?_⟩
    have haccepted :
      (s.write sequnum m).accepted = s.accepted ++ if (jbufWrite sequnum s.buffer m).1 then [m] else [] := by
      rw [JitterHistory.write]
      dsimp only
      split
      · rfl
      · rw [append_nil]
    rw [haccepted]
    calc s.accepted ++ (if (jbufWrite sequnum s.buffer m).1 then [m] else [])
      _ ~ s.returned ++ (s.freed ++ s.buffer.stored) ++ (if (jbufWrite sequnum s.buffer m).1 then [m] else []) :=
        hconserved.append_right _
      _ ~ s.returned ++ (s.freed ++ (s.buffer.stored ++ if (jbufWrite sequnum s.buffer m).1 then [m] else [])) := by
        rw [append_assoc, append_assoc]
      _ ~ s.returned ++
        (s.freed ++ ((jbufWrite sequnum s.buffer m).2.1 ++ (jbufWrite sequnum s.buffer m).2.2.stored)) :=
        (hwritten.append_left _).append_left _
      _ ~ s.returned ++
        (s.freed ++ (jbufWrite sequnum s.buffer m).2.1 ++ (jbufWrite sequnum s.buffer m).2.2.stored) := by
        rw [append_assoc s.freed]
  | @read s _ ih =>
    obtain ⟨hsound, hconserved⟩ := ih
    obtain ⟨hafter, -, hread⟩ := hsound.read
    refine ⟨hafter, ?_⟩
    calc s.accepted
      _ ~ s.returned ++ (s.freed ++ s.buffer.stored) := hconserved
      _ ~ s.returned ++ (s.freed ++ ((jbufRead s.buffer).2.1.toList ++ (jbufRead s.buffer).2.2.stored)) :=
        (hread.append_left _).append_left _
      _ ~ s.returned ++ ((jbufRead s.buffer).2.1.toList ++ (s.freed ++ (jbufRead s.buffer).2.2.stored)) :=
        List.Perm.append_left _ (by
          rw [← append_assoc, ← append_assoc]
          exact perm_append_comm.append_right _)
      _ ~ s.returned ++ (jbufRead s.buffer).2.1.toList ++ (s.freed ++ (jbufRead s.buffer).2.2.stored) := by
        rw [append_assoc]

/-- In every run whose writes keep the window, messages are read in the order of their numbers. -/
theorem jitterBuffer_ordered {s : JitterHistory α} (h : JitterReaches sequnum capacity (KeepsWindow sequnum) s) :
    s.Ordered sequnum := by
  obtain ⟨hsound, hconserved⟩ := h.sound
  refine ⟨hsound.read.2.1, fun m hm => ?_, hconserved, hconserved.nodup_iff.mp⟩
  obtain ⟨i, hi⟩ := mem_iff_getElem?.mp (reduceOption_mem_iff.mp hm)
  exact (hsound.placed i m hi).2

/-- The buffer of the audio session, with a capacity of 3. -/
def newJitterBuffer : JitterBuffer UInt16 := ⟨List.replicate 16 none, 16, 3, 0, 0⟩

/-- The message 1 and then the message 0 are written to a new buffer, and a message is read. -/
theorem jitterBuffer_ordered_two :
    JitterHistory.Ordered id ((JitterHistory.write id (.write id ⟨newJitterBuffer, [], [], []⟩ 1) 0).read) :=
  have hnew : jbufNew UInt16 true 3 = some newJitterBuffer := rfl
  jitterBuffer_ordered (.read (.write (.write (.new hnew) 1 (by decide)) 0 (by decide)))

/-- The message 16 is put into the cell of the bottom, and returned before the messages 0 to 15 are. -/
theorem edge_message_unordered : ¬∀ capacity : UInt32, 1 ≤ capacity → ∀ s : JitterHistory UInt16,
    JitterReaches id capacity (fun _ _ => True) s → s.Ordered id := by
  intro hall
  have hnext := (hall 3 (by decide) _ (.write (.new (q := newJitterBuffer) rfl) 16 trivial)).next 16 rfl
  exact absurd hnext (by decide)

end Runs

end Toxcore
