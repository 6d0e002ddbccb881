import Toxcore.Data.CircularArray

/-!
# Ring buffers

`RingBuffer` of `util.c` keeps pointers in an array with one cell more than its capacity. The first element is at
`start`, and the cell at `end` is free. Where a buffer is full, a write drops the first element and returns it.
-/

namespace Toxcore

open CircularArray List

/-- `RingBuffer`, with the array behind `data`. -/
structure RingBuffer (α : Type*) where
  size : UInt16
  start : UInt16
  endIndex : UInt16
  data : List α

section RingBuffer

variable {α : Type*} (null : α)

/-- `rb_new`. `alloc` says whether there is memory. -/
def rbNew (alloc : Bool) (size : ℤ) : Option (RingBuffer α) :=
  let cells := UInt16.ofInt (size + 1)
  if alloc then some ⟨cells, 0, 0, List.replicate cells.toNat null⟩ else none

variable (b : RingBuffer α)

/-- The index behind another one. -/
def rbNext (index : UInt16) : UInt16 := UInt16.ofNat ((index.toNat + 1) % b.size.toNat)

/-- `rb_full`. -/
def rbFull : Bool := rbNext b b.endIndex = b.start

/-- `rb_empty`. -/
def rbEmpty : Bool := b.endIndex = b.start

/-- `rb_write`. -/
def rbWrite (p : α) : α × RingBuffer α :=
  let rc := if rbNext b b.endIndex = b.start then b.data.getD b.start.toNat null else null
  let b := { b with data := b.data.set b.endIndex.toNat p, endIndex := rbNext b b.endIndex }
  (rc, if b.endIndex = b.start then { b with start := rbNext b b.start } else b)

/-- `rb_read`: the return value, and what is stored at `p`. -/
def rbRead : (Bool × α) × RingBuffer α :=
  if b.endIndex = b.start then ((false, null), b)
  else ((true, b.data.getD b.start.toNat null), { b with start := rbNext b b.start })

/-- `rb_size`. -/
def rbSize : UInt16 :=
  if rbEmpty b then 0 else if b.endIndex > b.start then b.endIndex - b.start else (b.size - b.start) + b.endIndex

/-- `rb_data`: what is stored at `dest`. -/
def rbData : List α :=
  (List.range (rbSize b).toNat).map fun i => b.data.getD ((b.start.toNat + i) % b.size.toNat) null

end RingBuffer

/-! ## Queues -/

/-- What is done with a buffer. -/
inductive RingOperation (α : Type*) where
  | write (p : α)
  | read

/-- What an operation returns. -/
inductive RingResult (α : Type*) where
  | written (rc : α)
  | read (success : Bool) (p : α)

section Runs

variable {α : Type*} (null : α)

/-- An operation on a buffer. -/
def RingBuffer.step (b : RingBuffer α) : RingOperation α → RingResult α × RingBuffer α
  | .write p => (.written (rbWrite null b p).1, (rbWrite null b p).2)
  | .read => (.read (rbRead null b).1.1 (rbRead null b).1.2, (rbRead null b).2)

/-- An operation on a queue that holds at most `size` elements: a write drops the oldest element of a full queue. -/
def boundedQueueStep (size : ℕ) (queue : List α) : RingOperation α → RingResult α × List α
  | .write p =>
    if queue.length = size then (.written (queue.headD null), queue.tail ++ [p]) else (.written null, queue ++ [p])
  | .read =>
    match queue with
    | [] => (.read false null, [])
    | oldest :: rest => (.read true oldest, rest)

/-- The results of some operations, and what is left after them. -/
def runOperations {σ : Type*} (step : σ → RingOperation α → RingResult α × σ) (s : σ) :
    List (RingOperation α) → List (RingResult α) × σ
  | [] => ([], s)
  | op :: ops =>
    let (result, s) := step s op
    let (results, s) := runOperations step s ops
    (result :: results, s)

/-- A buffer holds the elements of a queue, in order, and its indices are those of cells. -/
structure RingBuffer.Holds (capacity : ℕ) (b : RingBuffer α) (queue : List α) : Prop where
  size : b.size.toNat = capacity + 1
  cells : b.data.length = capacity + 1
  start : b.start.toNat < capacity + 1
  bounded : queue.length ≤ capacity
  endIndex : b.endIndex.toNat = cell (capacity + 1) b.start.toNat queue.length
  contents : laidOut b.data null b.start.toNat queue.length = queue

namespace RingBuffer.Holds

variable {null} {capacity : ℕ} {b : RingBuffer α} {queue : List α}

/-- The number behind an index is that of the next cell. -/
theorem next (h : b.Holds null capacity queue) (index : UInt16) :
    (rbNext b index).toNat = cell (capacity + 1) index.toNat 1 := by
  have hlt : cell (capacity + 1) index.toNat 1 < capacity + 1 := cell_lt (Nat.succ_pos capacity)
  have hsize := b.size.toNat_lt
  have hbsize := h.size
  rw [rbNext, h.size]
  apply UInt16.toNat_ofNat_of_lt'
  change cell (capacity + 1) index.toNat 1 < 2 ^ 16
  omega

/-- A queue of a new buffer is empty. -/
theorem new (hmax : capacity ≤ 65534) :
    ∃ b : RingBuffer α, rbNew null true capacity = some b ∧ b.Holds null capacity [] := by
  have hcells : (UInt16.ofInt ((capacity : ℤ) + 1)).toNat = capacity + 1 := by
    have hcast : UInt16.ofInt ((capacity : ℤ) + 1) = UInt16.ofNat (capacity + 1) := by
      rw [UInt16.ofInt]
      congr 1
      omega
    rw [hcast]
    exact UInt16.toNat_ofNat_of_lt' (by change capacity + 1 < 65536; omega)
  refine ⟨_, rfl, hcells, ?_, Nat.succ_pos capacity, Nat.zero_le capacity, rfl, rfl⟩
  rw [length_replicate, hcells]

/-- The start is the first cell from the start on. -/
theorem cell_start (h : b.Holds null capacity queue) : cell (capacity + 1) b.start.toNat 0 = b.start.toNat :=
    Nat.mod_eq_of_lt h.start

/-- The index behind the end is the start where no cell is left. -/
theorem full_iff (h : b.Holds null capacity queue) : rbNext b b.endIndex = b.start ↔ queue.length = capacity := by
  have hnext : (rbNext b b.endIndex).toNat = cell (capacity + 1) b.start.toNat (queue.length + 1) := by
    rw [h.next, h.endIndex, cell_next]
  have hbounded := h.bounded
  rw [← UInt16.toNat_inj, hnext]
  constructor
  · intro hfull
    by_contra hne
    have hsame := cell_injective (by omega) (Nat.succ_pos capacity) (hfull.trans h.cell_start.symm)
    exact Nat.succ_ne_zero _ hsame
  · intro hfull
    rw [hfull, cell, Nat.add_mod_right, Nat.mod_eq_of_lt h.start]

/-- The end is the start where nothing is held. -/
theorem empty_iff (h : b.Holds null capacity queue) : b.endIndex = b.start ↔ queue = [] := by
  have hbounded := h.bounded
  rw [← UInt16.toNat_inj, h.endIndex, ← length_eq_zero_iff]
  constructor
  · intro hempty
    exact cell_injective (Nat.lt_succ_of_le hbounded) (Nat.succ_pos capacity) (hempty.trans h.cell_start.symm)
  · intro hempty
    rw [hempty, h.cell_start]

/-- The oldest element is in the cell at the start. -/
theorem oldest {oldest : α} {rest : List α} (h : b.Holds null capacity (oldest :: rest)) :
    b.data.getD b.start.toNat null = oldest ∧
      laidOut b.data null (cell (capacity + 1) b.start.toNat 1) rest.length = rest := by
  have hqueue := h.contents
  rw [length_cons, laidOut_succ (by rw [h.cells]; exact h.start), h.cells] at hqueue
  exact List.cons.inj hqueue

/-- The start moves on from the oldest element. -/
theorem advance {oldest : α} {rest : List α} (h : b.Holds null capacity (oldest :: rest)) :
    { b with start := rbNext b b.start }.Holds null capacity rest where
  size := h.size
  cells := h.cells
  start := by
    rw [h.next]
    exact cell_lt (Nat.succ_pos capacity)
  bounded := Nat.le_of_succ_le h.bounded
  endIndex := by
    rw [h.next, ← cell_succ]
    exact h.endIndex
  contents := by
    rw [h.next]
    exact h.oldest.2

/-- A read returns the oldest element, or fails. -/
theorem read (h : b.Holds null capacity queue) :
    (b.step null .read).1 = (boundedQueueStep null capacity queue .read).1 ∧
      (b.step null .read).2.Holds null capacity (boundedQueueStep null capacity queue .read).2 := by
  rw [RingBuffer.step, rbRead]
  cases queue with
  | nil =>
    rw [if_pos (h.empty_iff.mpr rfl)]
    exact ⟨rfl, h⟩
  | cons oldest rest =>
    rw [if_neg (h.empty_iff.not.mpr (cons_ne_nil _ _))]
    exact ⟨congrArg (RingResult.read true) h.oldest.1, h.advance⟩

/-- An element is written behind the last one, and the end moves on. -/
theorem written (h : b.Holds null capacity queue) (p : α) :
    laidOut (b.data.set b.endIndex.toNat p) null b.start.toNat (queue.length + 1) = queue ++ [p] ∧
      (rbNext b b.endIndex).toNat = cell (capacity + 1) b.start.toNat (queue.length + 1) := by
  have hbounded := h.bounded
  have hroom : queue.length < b.data.length := by
    rw [h.cells]
    exact Nat.lt_succ_of_le hbounded
  have hset : laidOut (b.data.set (cell b.data.length b.start.toNat queue.length) p) null b.start.toNat
    (queue.length + 1) =
      laidOut b.data null b.start.toNat queue.length ++ [p] := laidOut_set hroom p
  constructor
  · rw [h.endIndex, ← h.cells, hset, h.contents]
  · rw [h.next, h.endIndex, cell_next]

/-- A write adds an element, and drops the oldest one where the buffer is full. -/
theorem write (h : b.Holds null capacity queue) (hsize : 1 ≤ capacity) (p : α) :
    (b.step null (.write p)).1 = (boundedQueueStep null capacity queue (.write p)).1 ∧
      (b.step null (.write p)).2.Holds null capacity (boundedQueueStep null capacity queue (.write p)).2 := by
  obtain ⟨hqueue, hend⟩ := h.written p
  rw [RingBuffer.step, rbWrite, boundedQueueStep]
  dsimp only
  by_cases hfull : queue.length = capacity
  · rw [if_pos (h.full_iff.mpr hfull), if_pos (h.full_iff.mpr hfull), if_pos hfull]
    cases queue with
    | nil => exact absurd hfull (Nat.ne_of_lt hsize)
    | cons oldest rest =>
      refine ⟨congrArg RingResult.written h.oldest.1, ?_⟩
      have hstart : b.start.toNat < (b.data.set b.endIndex.toNat p).length := by
        rw [length_set, h.cells]
        exact h.start
      rw [length_cons, laidOut_succ hstart, length_set, h.cells, cons_append] at hqueue
      constructor
      · exact h.size
      · rw [length_set, h.cells]
      · change (rbNext b b.start).toNat < capacity + 1
        rw [h.next]
        exact cell_lt (Nat.succ_pos capacity)
      · rw [tail_cons, length_append, length_singleton]
        exact h.bounded
      · change (rbNext b b.endIndex).toNat = cell (capacity + 1) (rbNext b b.start).toNat _
        rw [hend, h.next, ← cell_succ, tail_cons, length_append, length_singleton, length_cons]
      · change laidOut (b.data.set b.endIndex.toNat p) null (rbNext b b.start).toNat _ = _
        rw [h.next, tail_cons, length_append, length_singleton]
        exact (List.cons.inj hqueue).2
  · rw [if_neg (h.full_iff.not.mpr hfull), if_neg (h.full_iff.not.mpr hfull), if_neg hfull]
    have hbounded := h.bounded
    refine ⟨rfl, h.size, ?_, h.start, ?_, ?_, ?_⟩
    · rw [length_set, h.cells]
    · rw [length_append, length_singleton]
      omega
    · rw [length_append, length_singleton]
      exact hend
    · rw [length_append, length_singleton]
      exact hqueue

/-- The number of elements, from the two indices. -/
theorem size_eq (h : b.Holds null capacity queue) : (rbSize b).toNat = queue.length := by
  have hbounded := h.bounded
  have hstart := h.start
  have hsize := h.size
  have hend := h.endIndex
  have hlt := b.size.toNat_lt
  rw [rbSize, rbEmpty]
  by_cases hempty : queue = []
  · rw [h.empty_iff.mpr hempty, hempty, decide_eq_true rfl, if_pos rfl]
    rfl
  · have hpos := length_pos_iff.mpr hempty
    rw [decide_eq_false (h.empty_iff.not.mpr hempty), if_neg Bool.false_ne_true]
    rw [cell] at hend
    rcases Nat.lt_or_ge (b.start.toNat + queue.length) (capacity + 1) with hbefore | hbehind
    · rw [Nat.mod_eq_of_lt hbefore] at hend
      have hgt : b.endIndex > b.start := UInt16.lt_iff_toNat_lt.mpr (by omega)
      rw [if_pos hgt, UInt16.toNat_sub_of_le _ _ (UInt16.le_of_lt hgt)]
      omega
    · rw [Nat.mod_eq_sub_mod hbehind, Nat.mod_eq_of_lt (by omega)] at hend
      have hle : ¬b.endIndex > b.start := by
        intro hgt
        have hnat := UInt16.lt_iff_toNat_lt.mp hgt
        omega
      rw [if_neg hle, UInt16.toNat_add, UInt16.toNat_sub_of_le _ _ (UInt16.le_iff_toNat_le.mpr (by omega))]
      omega

/-- What the buffer tells about itself. -/
theorem observed (h : b.Holds null capacity queue) : queue.length ≤ capacity ∧ (rbSize b).toNat = queue.length ∧
    (rbFull b = true ↔ queue.length = capacity) ∧ (rbEmpty b = true ↔ queue = []) ∧ rbData null b = queue := by
  refine ⟨h.bounded, h.size_eq, decide_eq_true_iff.trans h.full_iff, decide_eq_true_iff.trans h.empty_iff, ?_⟩
  have hqueue := h.contents
  rw [laidOut, h.cells] at hqueue
  rw [rbData, h.size_eq, h.size]
  exact hqueue

end RingBuffer.Holds

end Runs

/-- A ring buffer for up to 65534 elements does what a queue does that holds at most as many, and tells at any time
what the queue holds. -/
theorem ringBuffer_is_boundedQueue {α : Type*} (null : α) (size : ℕ) (hpos : 1 ≤ size) (hmax : size ≤ 65534)
    (ops : List (RingOperation α)) : ∃ new : RingBuffer α, rbNew null true size = some new ∧
      let (results, b) := runOperations (RingBuffer.step null) new ops
      let (queueResults, queue) := runOperations (boundedQueueStep null size) [] ops
      results = queueResults ∧ queue.length ≤ size ∧ (rbSize b).toNat = queue.length ∧
        (rbFull b = true ↔ queue.length = size) ∧ (rbEmpty b = true ↔ queue = []) ∧ rbData null b = queue := by
  obtain ⟨new, hnew, hholds⟩ : ∃ b : RingBuffer α, rbNew null true size = some b ∧ b.Holds null size [] :=
    RingBuffer.Holds.new hmax
  refine ⟨new, hnew, ?_⟩
  have hrun (b : RingBuffer α) (queue : List α) (h : b.Holds null size queue) :
      (runOperations (RingBuffer.step null) b ops).1 = (runOperations (boundedQueueStep null size) queue ops).1 ∧
        (runOperations (RingBuffer.step null) b ops).2.Holds null size
          (runOperations (boundedQueueStep null size) queue ops).2 := by
    induction ops generalizing b queue with
    | nil => exact ⟨rfl, h⟩
    | cons op ops ih =>
      have hstep : (b.step null op).1 = (boundedQueueStep null size queue op).1 ∧
          (b.step null op).2.Holds null size (boundedQueueStep null size queue op).2 := by
        cases op with
        | write p => exact h.write hpos p
        | read => exact h.read
      obtain ⟨hresults, hafter⟩ := ih _ _ hstep.2
      exact ⟨congrArg₂ List.cons hstep.1 hresults, hafter⟩
  obtain ⟨hresults, hafter⟩ := hrun new [] hholds
  exact ⟨hresults, hafter.observed⟩

/-- A buffer for two elements drops the first of three. -/
theorem ringBuffer_is_boundedQueue_two : ∃ new : RingBuffer ℕ, rbNew 0 true (2 : ℕ) = some new ∧
    let (results, b) := runOperations (RingBuffer.step 0) new [.write 1, .write 2, .write 3]
    let (queueResults, queue) := runOperations (boundedQueueStep 0 2) [] [.write 1, .write 2, .write 3]
    results = queueResults ∧ queue.length ≤ 2 ∧ (rbSize b).toNat = queue.length ∧
      (rbFull b = true ↔ queue.length = 2) ∧ (rbEmpty b = true ↔ queue = []) ∧ rbData 0 b = queue :=
  ringBuffer_is_boundedQueue 0 2 (by decide) (by decide) [.write 1, .write 2, .write 3]

end Toxcore
