import Mathlib.Data.List.Rotate
import Toxcore.Av.JitterBuffer
import Toxcore.Data.CallResults
import Toxcore.Network

/-!
# Jitter buffers and the wrap of sequence numbers

The ring of a jitter buffer has as many cells as divide `2 ^ 16`, so a turn of the sequence numbers is some turns of
the ring, and the same calls with all numbers moved on by some distance should have the same results. They have where
the comparisons of the calls have the same outcome; the differences that are compared are not taken modulo `2 ^ 16`,
though. The queue of group audio packets in `group.c` is the same ring with a clock.
-/

namespace Toxcore

open SequenceRing CallResults List

/-! ## Calls -/

/-- A call of `jbuf_write` or `jbuf_read`. -/
inductive JitterCall (α : Type*) where
  | write (m : α)
  | read

/-- What a call returns: whether a message was accepted, or a success code and a message. -/
abbrev JitterResult (α : Type*) := Bool ⊕ ℕ × Option α

section Calls

variable {α : Type*} (sequnum : α → UInt16)

/-- A call of a jitter buffer. -/
def jbufCall (q : JitterBuffer α) : JitterCall α → JitterResult α × JitterBuffer α
  | .write m => (.inl (jbufWrite sequnum q m).1, (jbufWrite sequnum q m).2.2)
  | .read => (.inr ((jbufRead q).1, (jbufRead q).2.1), (jbufRead q).2.2)

/-- `GROUP_JBUF_DEAD_SECONDS`. -/
def groupJbufDeadSeconds : UInt64 := 4

/-- `Group_JitterBuffer`. -/
structure GroupJitterBuffer (α : Type*) extends JitterBuffer α where
  lastQueuedTime : UInt64

/-- `queue`, whose body is that of `jbuf_write` behind a check for old packets: the return value 0 as `true`, what is
freed, and the buffer. -/
def groupQueue (unixTime : UInt64) (q : GroupJitterBuffer α) (pk : α) : Bool × List α × GroupJitterBuffer α :=
  if isTimeout unixTime q.lastQueuedTime groupJbufDeadSeconds = false ∧
      (sequnum pk).toUInt32 - q.bottom.toUInt32 > 32768 then (false, [], q)
  else
    let (queued, freed, buffer) := jbufWrite sequnum q.toJitterBuffer pk
    (queued, freed, ⟨buffer, if queued then unixTime else q.lastQueuedTime⟩)

/-- `dequeue`, whose body is that of `jbuf_read`. -/
def groupDequeue (q : GroupJitterBuffer α) : ℕ × Option α × GroupJitterBuffer α :=
  let (success, pk, buffer) := jbufRead q.toJitterBuffer
  (success, pk, { q with toJitterBuffer := buffer })

/-- A call of a queue of group audio packets at some time. -/
def groupCall (unixTime : UInt64) (q : GroupJitterBuffer α) : JitterCall α → JitterResult α × GroupJitterBuffer α
  | .write pk => (.inl (groupQueue sequnum unixTime q pk).1, (groupQueue sequnum unixTime q pk).2.2)
  | .read => (.inr ((groupDequeue q).1, (groupDequeue q).2.1), (groupDequeue q).2.2)

end Calls

/-! ## The shift -/

namespace JitterBuffer

variable {α : Type*} {sequnum : α → UInt16} {c : UInt16} {q q' : JitterBuffer α}

/-- All numbers of a buffer are moved on, and the cells with them. -/
def shift (c : UInt16) (q : JitterBuffer α) : JitterBuffer α :=
  { q with queue := q.queue.rotate (q.size.toNat - c.toNat % q.size.toNat), bottom := q.bottom + c, top := q.top + c }

/-- A number is so far ahead of the bottom, as `jbuf_write` compares them, that the buffer is cleared. -/
abbrev far (size : UInt32) (bottom number : UInt16) : Prop := number.toUInt32 - bottom.toUInt32 > size

/-- A number is not before the top, as `jbuf_write` compares them. -/
abbrev newest (bottom top number : UInt16) : Prop := (number.toNat : ℤ) - bottom.toNat ≥ (top.toNat : ℤ) - bottom.toNat

/-- So many numbers are waited for, as `jbuf_read` compares them, that the message at the bottom is lost. -/
abbrev late (capacity : UInt32) (bottom top : UInt16) : Prop := top.toUInt32 - bottom.toUInt32 > capacity

/-- The comparisons of a write have the same outcomes for numbers that are moved on, as far as they are made. -/
def AlikeWrite (sequnum : α → UInt16) (c : UInt16) (q : JitterBuffer α) (m : α) : Prop :=
  (far q.size (q.bottom + c) (sequnum m + c) ↔ far q.size q.bottom (sequnum m)) ∧
    (¬far q.size q.bottom (sequnum m) → q.queue.getD (q.num (sequnum m)) none = none →
      (newest (q.bottom + c) (q.top + c) (sequnum m + c) ↔ newest q.bottom q.top (sequnum m)))

/-- The comparison of a read has the same outcome for numbers that are moved on, if it is made. -/
def AlikeRead (c : UInt16) (q : JitterBuffer α) : Prop :=
  q.top ≠ q.bottom → q.queue.getD (q.num q.bottom) none = none →
    (late q.capacity (q.bottom + c) (q.top + c) ↔ late q.capacity q.bottom q.top)

/-- A buffer is another one with all numbers moved on. -/
structure Shifted (c : UInt16) (q q' : JitterBuffer α) : Prop where
  size : q'.size = q.size
  capacity : q'.capacity = q.capacity
  bottom : q'.bottom = q.bottom + c
  top : q'.top = q.top + c
  ring : q.size.toNat ∣ 2 ^ 16
  cells : q.queue.length = q.size.toNat
  cells' : q'.queue.length = q.size.toNat
  queue : ∀ number, q'.queue.getD (q'.num (number + c)) none = q.queue.getD (q.num number) none

theorem shifted_shift (hring : q.size.toNat ∣ 2 ^ 16) (hcells : q.queue.length = q.size.toNat) (c : UInt16) :
    Shifted c q (q.shift c) := by
  have hpos : 0 < q.size.toNat := Nat.pos_of_dvd_of_pos hring (by decide)
  refine ⟨rfl, rfl, rfl, rfl, hring, hcells, (length_rotate ..).trans hcells, fun number => ?_⟩
  have hlt : cellOf q.size.toNat (number + c) < q.queue.length := by
    rw [hcells]
    exact Nat.mod_lt _ hpos
  have hturn : number.toNat + c.toNat + (q.size.toNat - c.toNat % q.size.toNat) =
      number.toNat + q.size.toNat * (c.toNat / q.size.toNat + 1) := by
    have hsplit := Nat.div_add_mod c.toNat q.size.toNat
    have hmod := Nat.mod_lt c.toNat hpos
    rw [Nat.mul_add, Nat.mul_one]
    omega
  have hcell : (cellOf q.size.toNat (number + c) + (q.size.toNat - c.toNat % q.size.toNat)) % q.queue.length =
      cellOf q.size.toNat number := by
    rw [cellOf_add hring, hcells, Nat.mod_add_mod, hturn, Nat.add_mul_mod_self_left, cellOf]
  rw [shift, num, num, getD_eq_getElem?_getD, getD_eq_getElem?_getD]
  dsimp only
  rw [getElem?_rotate hlt, hcell]

/-- The number behind another one moves on with it. -/
theorem behind_add (number c : UInt16) (capacity : UInt32) :
    ((number + c).toUInt32 - capacity).toUInt16 = (number.toUInt32 - capacity).toUInt16 + c := by
  apply UInt16.toNat_inj.mp
  have hnumber := number.toNat_lt
  have hcapacity := capacity.toNat_lt
  simp only [UInt32.toNat_toUInt16, UInt32.toNat_sub, UInt16.toNat_toUInt32, UInt16.toNat_add]
  omega

theorem succ_add (number c : UInt16) : number + 1 + c = number + c + 1 := by
  rw [UInt16.add_assoc, UInt16.add_comm 1, ← UInt16.add_assoc]

namespace Shifted

variable (h : Shifted c q q')

include h

/-- Only the numbers and the ring differ. -/
theorem eq_mk : ∃ queue, q' = { q with queue := queue, bottom := q.bottom + c, top := q.top + c } := by
  obtain ⟨queue, size, capacity, bottom, top⟩ := q'
  obtain rfl : size = q.size := h.size
  obtain rfl : capacity = q.capacity := h.capacity
  obtain rfl : bottom = q.bottom + c := h.bottom
  obtain rfl : top = q.top + c := h.top
  exact ⟨queue, rfl⟩

variable (number : UInt16)

/-- Cells are in the ring. -/
theorem num_lt : q.num number < q.queue.length ∧ q'.num number < q'.queue.length := by
  have hpos : 0 < q.size.toNat := Nat.pos_of_dvd_of_pos h.ring (by decide)
  rw [num, num, h.size, h.cells, h.cells']
  exact ⟨Nat.mod_lt _ hpos, Nat.mod_lt _ hpos⟩

/-- Numbers have the same cell as they had before the shift. -/
theorem num_inj (other : UInt16) : q'.num (number + c) = q'.num (other + c) ↔ q.num number = q.num other := by
  rw [num, num, num, num, h.size, cellOf_add h.ring, cellOf_add h.ring]
  exact ⟨Nat.ModEq.add_right_cancel' c.toNat, Nat.ModEq.add_right c.toNat⟩

/-- The window moves in both. -/
theorem move (bottom top : UInt16) :
    Shifted c { q with bottom := bottom, top := top } { q' with bottom := bottom + c, top := top + c } :=
  ⟨h.size, h.capacity, rfl, rfl, h.ring, h.cells, h.cells', h.queue⟩

/-- A cell is written in both. -/
theorem set (bottom top : UInt16) (x : Option α) :
    Shifted c { q with queue := q.queue.set (q.num number) x, bottom := bottom, top := top }
      { q' with queue := q'.queue.set (q'.num (number + c)) x, bottom := bottom + c, top := top + c } := by
  refine ⟨h.size, h.capacity, rfl, rfl, h.ring, (length_set ..).trans h.cells, (length_set ..).trans h.cells',
    fun other => ?_⟩
  change (q'.queue.set (q'.num (number + c)) x).getD (q'.num (other + c)) none =
    (q.queue.set (q.num number) x).getD (q.num other) none
  rw [getD_eq_getElem?_getD, getD_eq_getElem?_getD]
  by_cases hsame : q.num number = q.num other
  · rw [← (h.num_inj number other).mpr hsame, ← hsame, getElem?_set_self (h.num_lt _).1,
      getElem?_set_self (h.num_lt _).2]
  · rw [getElem?_set_ne hsame, getElem?_set_ne fun hno => hsame ((h.num_inj number other).mp hno),
      ← getD_eq_getElem?_getD, ← getD_eq_getElem?_getD]
    exact h.queue other

/-- Both are cleared, and the same messages are freed. -/
theorem clearLoop (rounds : ℕ) : (jbufClearLoop rounds q').1 = (jbufClearLoop rounds q).1 ∧
    Shifted c (jbufClearLoop rounds q).2 (jbufClearLoop rounds q').2 := by
  induction rounds generalizing q q' with
  | zero => exact ⟨rfl, h⟩
  | succ rounds ih =>
    have hend : q'.bottom = q'.top ↔ q.bottom = q.top := by
      rw [h.bottom, h.top, UInt16.add_left_inj]
    rw [jbufClearLoop, jbufClearLoop]
    by_cases hempty : q.bottom = q.top
    · rw [if_pos hempty, if_pos (hend.mpr hempty)]
      exact ⟨rfl, h⟩
    · rw [if_neg hempty, if_neg fun hno => hempty (hend.mp hno)]
      have hcell := h.queue q.bottom
      rw [← h.bottom] at hcell
      have hnext := h.set q.bottom (q.bottom + 1) q.top none
      rw [succ_add, ← h.bottom, ← h.top] at hnext
      obtain ⟨hfreed, hrest⟩ := ih hnext
      dsimp only
      rw [hcell, hfreed]
      exact ⟨rfl, hrest⟩

/-- Both buffers are cleared. -/
theorem clear : (jbufClear q').1 = (jbufClear q).1 ∧ Shifted c (jbufClear q).2 (jbufClear q').2 := by
  have hrounds : ahead q'.bottom q'.top = ahead q.bottom q.top := by
    rw [h.bottom, h.top, ahead_add]
  rw [jbufClear, jbufClear, hrounds]
  exact h.clearLoop _

/-- A message is read from both. -/
theorem read (hlate : AlikeRead c q) :
    (jbufRead q').1 = (jbufRead q).1 ∧ (jbufRead q').2.1 = (jbufRead q).2.1 ∧
      Shifted c (jbufRead q).2.2 (jbufRead q').2.2 := by
  obtain ⟨queue, rfl⟩ := h.eq_mk
  have hcell := h.queue q.bottom
  have hset := h.set q.bottom (q.bottom + 1) q.top none
  have hmove := h.move (q.bottom + 1) q.top
  rw [succ_add] at hset hmove
  have hend : q.top + c = q.bottom + c ↔ q.top = q.bottom := UInt16.add_left_inj c
  rw [jbufRead, jbufRead]
  by_cases hempty : q.top = q.bottom
  · rw [if_pos hempty, if_pos (hend.mpr hempty)]
    exact ⟨rfl, rfl, h⟩
  · rw [if_neg hempty, if_neg fun hno => hempty (hend.mp hno)]
    dsimp only at hcell
    rw [hcell]
    cases hm : q.queue.getD (q.num q.bottom) none with
    | some m => exact ⟨rfl, rfl, hset⟩
    | none =>
      dsimp only
      by_cases hlost : late q.capacity q.bottom q.top
      · rw [if_pos hlost, if_pos ((hlate hempty hm).mpr hlost)]
        exact ⟨rfl, rfl, hmove⟩
      · rw [if_neg hlost, if_neg fun hno => hlost ((hlate hempty hm).mp hno)]
        exact ⟨rfl, rfl, h⟩

/-- A message is written to both. -/
theorem write (m : α) (halike : AlikeWrite sequnum c q m) :
    (jbufWrite (fun m => sequnum m + c) q' m).1 = (jbufWrite sequnum q m).1 ∧
      Shifted c (jbufWrite sequnum q m).2.2 (jbufWrite (fun m => sequnum m + c) q' m).2.2 := by
  obtain ⟨hfar, hnewest⟩ := halike
  obtain ⟨-, hcleared⟩ := h.clear
  have hnext :=
    hcleared.set (sequnum m) ((sequnum m).toUInt32 - (jbufClear q).2.capacity).toUInt16 (sequnum m + 1) (some m)
  have hbottom : ((sequnum m + c).toUInt32 - (jbufClear q').2.capacity).toUInt16 =
      ((sequnum m).toUInt32 - (jbufClear q).2.capacity).toUInt16 + c := by
    rw [behind_add, hcleared.capacity]
  rw [succ_add, ← hbottom] at hnext
  obtain ⟨queue, rfl⟩ := h.eq_mk
  have hcell := h.queue (sequnum m)
  have hnew := h.set (sequnum m) q.bottom (sequnum m + 1) (some m)
  have hold := h.set (sequnum m) q.bottom q.top (some m)
  rw [succ_add] at hnew
  rw [jbufWrite, jbufWrite]
  dsimp only
  by_cases hclears : far q.size q.bottom (sequnum m)
  · rw [if_pos hclears, if_pos (hfar.mpr hclears)]
    exact ⟨rfl, hnext⟩
  · rw [if_neg hclears, if_neg fun hno => hclears (hfar.mp hno)]
    dsimp only at hcell
    rw [hcell]
    cases hm : q.queue.getD (q.num (sequnum m)) none with
    | some m' => exact ⟨rfl, h⟩
    | none =>
      have hsame := hnewest hclears hm
      refine ⟨rfl, ?_⟩
      dsimp only
      by_cases hlast : newest q.bottom q.top (sequnum m)
      · rw [if_pos hlast, if_pos (hsame.mpr hlast)]
        exact hnew
      · rw [if_neg hlast, if_neg fun hno => hlast (hsame.mp hno)]
        exact hold

end Shifted

end JitterBuffer

/-! ## Runs -/

section Runs

variable {α : Type*} {sequnum : α → UInt16} {c : UInt16}

/-- The comparisons of a call have the same outcomes for numbers that are moved on, as far as they are made. -/
def AlikeCall (sequnum : α → UInt16) (c : UInt16) (q : JitterBuffer α) : JitterCall α → Prop
  | .write m => q.AlikeWrite sequnum c m
  | .read => q.AlikeRead c

/-- A packet is dropped as old, as `queue` compares the numbers. -/
abbrev groupOld (bottom number : UInt16) : Prop := number.toUInt32 - bottom.toUInt32 > 32768

/-- The comparisons of a call to a queue of group audio packets have the same outcomes, as far as they are made. -/
def AlikeGroupCall (sequnum : α → UInt16) (c : UInt16) (unixTime : UInt64) (q : GroupJitterBuffer α) :
    JitterCall α → Prop
  | .write pk =>
    (isTimeout unixTime q.lastQueuedTime groupJbufDeadSeconds = false →
        (groupOld (q.bottom + c) (sequnum pk + c) ↔ groupOld q.bottom (sequnum pk))) ∧
      (¬(isTimeout unixTime q.lastQueuedTime groupJbufDeadSeconds = false ∧ groupOld q.bottom (sequnum pk)) →
        q.toJitterBuffer.AlikeWrite sequnum c pk)
  | .read => q.toJitterBuffer.AlikeRead c

/-- A queue of group audio packets with all numbers moved on. -/
def GroupJitterBuffer.shift (c : UInt16) (q : GroupJitterBuffer α) : GroupJitterBuffer α :=
  { q with toJitterBuffer := q.toJitterBuffer.shift c }

/-- Differences are the same where the wrap does not come between two numbers, or comes between them before and
after. -/
theorem sub_sides {start number : UInt16} (hsides : number + c < start + c ↔ number < start) :
    (number + c).toUInt32 - (start + c).toUInt32 = number.toUInt32 - start.toUInt32 := by
  have hstart := start.toNat_lt
  have hnumber := number.toNat_lt
  have hc := c.toNat_lt
  rw [UInt16.lt_iff_toNat_lt, UInt16.lt_iff_toNat_lt, UInt16.toNat_add, UInt16.toNat_add] at hsides
  apply UInt32.toNat_inj.mp
  simp only [UInt32.toNat_sub, UInt16.toNat_toUInt32, UInt16.toNat_add]
  omega

variable (call : JitterCall α)

/-- The comparisons have the same outcomes where the wrap comes between the same numbers of the bottom, the top and
the message, before and after. -/
theorem alikeCall_of_sides {q : JitterBuffer α} (htop : q.top + c < q.bottom + c ↔ q.top < q.bottom)
    (hmessage : ∀ m, call = .write m → (sequnum m + c < q.bottom + c ↔ sequnum m < q.bottom) ∧
      (sequnum m + c < q.top + c ↔ sequnum m < q.top)) : AlikeCall sequnum c q call := by
  cases call with
  | write m =>
    obtain ⟨hbottom, hnewest⟩ := hmessage m rfl
    refine ⟨?_, fun _ _ => ?_⟩
    · rw [JitterBuffer.far, sub_sides hbottom]
    · rw [UInt16.lt_iff_toNat_lt, UInt16.lt_iff_toNat_lt] at hnewest
      unfold JitterBuffer.newest
      omega
  | read =>
    intro _ _
    rw [JitterBuffer.late, sub_sides htop]

/-- Calls that are alike keep buffers shifted. -/
theorem jbufCall_shifted {q q' : JitterBuffer α} (h : q.Shifted c q') (halike : AlikeCall sequnum c q call) :
    (jbufCall (fun m => sequnum m + c) q' call).1 = (jbufCall sequnum q call).1 ∧
      (jbufCall sequnum q call).2.Shifted c (jbufCall (fun m => sequnum m + c) q' call).2 := by
  cases call with
  | write m =>
    obtain ⟨haccepts, hnext⟩ := h.write m halike
    exact ⟨congrArg Sum.inl haccepts, hnext⟩
  | read =>
    obtain ⟨hsuccess, hret, hnext⟩ := h.read halike
    exact ⟨congrArg Sum.inr (Prod.ext hsuccess hret), hnext⟩

/-- So do those of a group. -/
theorem groupCall_shifted {unixTime : UInt64} {q q' : GroupJitterBuffer α}
    (h : q.toJitterBuffer.Shifted c q'.toJitterBuffer ∧ q'.lastQueuedTime = q.lastQueuedTime)
    (halike : AlikeGroupCall sequnum c unixTime q call) :
    (groupCall (fun pk => sequnum pk + c) unixTime q' call).1 = (groupCall sequnum unixTime q call).1 ∧
      (groupCall sequnum unixTime q call).2.toJitterBuffer.Shifted c
          (groupCall (fun pk => sequnum pk + c) unixTime q' call).2.toJitterBuffer ∧
        (groupCall (fun pk => sequnum pk + c) unixTime q' call).2.lastQueuedTime =
          (groupCall sequnum unixTime q call).2.lastQueuedTime := by
  obtain ⟨hshift, htime⟩ := h
  cases call with
  | write pk =>
    obtain ⟨hold, hwrite⟩ := halike
    have hboth : isTimeout unixTime q.lastQueuedTime groupJbufDeadSeconds = false ∧
      groupOld (q.bottom + c) (sequnum pk + c) ↔
        isTimeout unixTime q.lastQueuedTime groupJbufDeadSeconds = false ∧ groupOld q.bottom (sequnum pk) :=
      and_congr_right hold
    obtain ⟨buffer', time'⟩ := q'
    dsimp only at hshift htime
    subst htime
    rw [groupCall, groupCall, groupQueue, groupQueue]
    dsimp only
    rw [hshift.bottom]
    by_cases hdrops : isTimeout unixTime q.lastQueuedTime groupJbufDeadSeconds = false ∧ groupOld q.bottom (sequnum pk)
    · rw [if_pos hdrops, if_pos (hboth.mpr hdrops)]
      exact ⟨rfl, hshift, rfl⟩
    · rw [if_neg hdrops, if_neg fun hno => hdrops (hboth.mp hno)]
      obtain ⟨hqueued, hnext⟩ := hshift.write pk (hwrite hdrops)
      dsimp only
      rw [hqueued]
      exact ⟨rfl, hnext, rfl⟩
  | read =>
    obtain ⟨hsuccess, hret, hnext⟩ := hshift.read halike
    exact ⟨congrArg Sum.inr (Prod.ext hsuccess hret), hnext, htime⟩

/-- The results do not depend on where the numbers wrap, where every comparison that is made has the same outcome. -/
theorem jitterBuffers_shifted (sequnum : α → UInt16) (c : UInt16) (calls : List (JitterCall α)) :
    (∀ q : JitterBuffer α, q.size.toNat ∣ 2 ^ 16 → q.queue.length = q.size.toNat →
      EachMeets (jbufCall sequnum) (AlikeCall sequnum c) calls q →
      results (jbufCall fun m => sequnum m + c) calls (q.shift c) = results (jbufCall sequnum) calls q) ∧
    ∀ (unixTime : UInt64) (q : GroupJitterBuffer α), q.size.toNat ∣ 2 ^ 16 → q.queue.length = q.size.toNat →
      EachMeets (groupCall sequnum unixTime) (AlikeGroupCall sequnum c unixTime) calls q →
      results (groupCall (fun pk => sequnum pk + c) unixTime) calls (q.shift c) =
        results (groupCall sequnum unixTime) calls q := by
  refine ⟨fun q hring hcells hmeets => ?_, fun unixTime q hring hcells hmeets => ?_⟩
  · have hstart := JitterBuffer.shifted_shift hring hcells c
    exact (results_eq (fun _ _ call h halike => jbufCall_shifted call h halike) hmeets hstart).1
  · have hstart : q.toJitterBuffer.Shifted c (q.shift c).toJitterBuffer ∧
      (q.shift c).lastQueuedTime = q.lastQueuedTime :=
      ⟨JitterBuffer.shifted_shift hring hcells c, rfl⟩
    exact (results_eq (R := fun q q' => q.toJitterBuffer.Shifted c q'.toJitterBuffer ∧
      q'.lastQueuedTime = q.lastQueuedTime)
      (fun _ _ call h halike => groupCall_shifted call h halike) hmeets hstart).1

end Runs

/-- A message is written to a new buffer and read, with all numbers a hundred further on, and so are group audio
packets. -/
theorem jitterBuffers_shifted_hundred :
    results (jbufCall fun m : UInt16 => m + 100) [.write 0, .read] (newJitterBuffer.shift 100) =
      results (jbufCall id) [.write 0, .read] newJitterBuffer ∧
    results (groupCall (fun pk : UInt16 => pk + 100) 10) [.write 0,
      .read] (GroupJitterBuffer.shift 100 ⟨newJitterBuffer, 9⟩) =
      results (groupCall id 10) [.write 0, .read] ⟨newJitterBuffer, 9⟩ := by
  obtain ⟨hbuffers, hqueues⟩ := jitterBuffers_shifted (id : UInt16 → UInt16) 100 [.write 0, .read]
  refine ⟨hbuffers newJitterBuffer (by decide) rfl ⟨⟨by decide, fun _ _ => by decide⟩, fun _ _ => by decide, trivial⟩,
    hqueues 10 ⟨newJitterBuffer, 9⟩ (by decide) rfl ⟨⟨fun _ => by decide, fun _ => ⟨by decide, fun _ _ => by decide⟩⟩,
      fun _ _ => by decide, trivial⟩⟩

/-- The messages 0 and 1 are read from a new buffer in order. With all numbers moved back by one the second one clears
the buffer. -/
theorem wrap_clears :
    ¬∀ (sequnum : UInt16 → UInt16) (c : UInt16) (calls : List (JitterCall UInt16)) (q : JitterBuffer UInt16),
    q.size.toNat ∣ 2 ^ 16 → q.queue.length = q.size.toNat →
    results (jbufCall fun m => sequnum m + c) calls (q.shift c) = results (jbufCall sequnum) calls q := by
  intro hall
  have hsame := hall id 65535 [.write 0, .write 1, .read] newJitterBuffer (by decide) rfl
  exact absurd hsame (by decide)

end Toxcore
