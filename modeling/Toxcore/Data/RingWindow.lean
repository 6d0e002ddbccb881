import Mathlib.Data.List.Nodup
import Mathlib.Data.Nat.ModEq
import Mathlib.Logic.Function.Basic
import Mathlib.Order.Fin.Basic
import Mathlib.Tactic.Linarith

/-!
# Windows of 32-bit numbers over a ring of slots

Sequence numbers are 32-bit and wrap. A window is given by its first number and the number behind
its last one; a number belongs to it when its unsigned offset from the start is below the length.
A ring whose size divides `2 ^ 32` stores number `n` in slot `n % size`, and within a window that
is no longer than the ring different numbers have different slots.
-/

namespace RingWindow

/-- How far `number` lies past `start`, counting upwards and wrapping. -/
def offset (start number : UInt32) : ℕ := (number - start).toNat

@[simp] theorem offset_self (start : UInt32) : offset start start = 0 := by simp [offset]

theorem offset_lt (start number : UInt32) : offset start number < 2 ^ 32 :=
  (number - start).toNat_lt

/-- The unsigned offset as arithmetic on residues. -/
theorem offset_eq (start number : UInt32) :
    offset start number = (2 ^ 32 - start.toNat + number.toNat) % 2 ^ 32 :=
  UInt32.toNat_sub number start

/-- A number is recovered from the start and its offset. -/
theorem toNat_eq (start number : UInt32) :
    number.toNat = (start.toNat + offset start number) % 2 ^ 32 := by
  have hstart := start.toNat_lt
  have hnumber := number.toNat_lt
  rw [offset_eq]
  omega

variable {a b number start : UInt32} {count : ℕ}

/-- Offsets from one start identify numbers. -/
theorem offset_injective (h : offset start a = offset start b) : a = b := by
  apply UInt32.toNat_inj.mp
  rw [toNat_eq start a, toNat_eq start b, h]

/-- Stepping to the next number adds one to the offset, short of a full turn. -/
theorem offset_succ (h : offset start number + 1 < 2 ^ 32) : offset start (number + 1) = offset start number + 1 := by
  have hstart := start.toNat_lt
  have hnumber := number.toNat_lt
  simp only [offset_eq, UInt32.toNat_add, UInt32.reduceToNat] at h ⊢
  omega

/-- Measuring from the next number takes one off every later offset. -/
theorem offset_start_succ (h : start ≠ number) : offset (start + 1) number + 1 = offset start number := by
  have hstart := start.toNat_lt
  have hnumber := number.toNat_lt
  have hne : start.toNat ≠ number.toNat := fun h' => h (UInt32.toNat_inj.mp h')
  simp only [offset_eq, UInt32.toNat_add, UInt32.reduceToNat]
  omega

/-- Offsets compose along a window. -/
theorem offset_add {c : UInt32} (h : offset a b + offset b c < 2 ^ 32) : offset a c = offset a b + offset b c := by
  have ha := a.toNat_lt
  have hb := b.toNat_lt
  have hc := c.toNat_lt
  simp only [offset_eq] at h ⊢
  omega

/-- An offset that stays short of another splits off. -/
theorem offset_sub {c : UInt32} (h : offset a b ≤ offset a c) : offset b c = offset a c - offset a b := by
  have ha := a.toNat_lt
  have hb := b.toNat_lt
  have hc := c.toNat_lt
  simp only [offset_eq] at h ⊢
  omega

theorem toNat_ofNat {n : ℕ} (hn : n < 2 ^ 32) : (UInt32.ofNat n).toNat = n := UInt32.toNat_ofNat_of_lt' hn

/-- Small numbers are told apart. -/
theorem ofNat_injective {m n : ℕ} (hm : m < 2 ^ 32) (hn : n < 2 ^ 32) (h : UInt32.ofNat m = UInt32.ofNat n) :
    m = n := by
  rw [← toNat_ofNat hm, h, toNat_ofNat hn]

/-- Offsets between small numbers, counting up. -/
theorem offset_ofNat {a b : ℕ} (hab : a ≤ b) (hb : b < 2 ^ 32) : offset (UInt32.ofNat a) (UInt32.ofNat b) = b - a := by
  simp only [offset_eq, UInt32.toNat_ofNat']
  omega

/-- Offsets between small numbers, counting down. -/
theorem offset_ofNat_of_lt {a b : ℕ} (hba : b < a) (ha : a < 2 ^ 32) :
    offset (UInt32.ofNat a) (UInt32.ofNat b) = 2 ^ 32 - (a - b) := by
  simp only [offset_eq, UInt32.toNat_ofNat']
  omega

/-! ## The numbers of a window -/

/-- The numbers visited by counting up `count` times from `first`. -/
def numbers : UInt32 → ℕ → List UInt32
  | _, 0 => []
  | first, count + 1 => first :: numbers (first + 1) count

/-- The numbers from `start` up to but not including `stop`. -/
def window (start stop : UInt32) : List UInt32 := numbers start (offset start stop)

variable (first : UInt32)

@[simp] theorem numbers_length (count : ℕ) : (numbers first count).length = count := by
  induction count generalizing first with
  | zero => rfl
  | succ count ih => simp [numbers, ih]

/-- The numbers from the first on. -/
theorem mem_numbers {first : UInt32} (hcount : count ≤ 2 ^ 32) :
    number ∈ numbers first count ↔ offset first number < count := by
  induction count generalizing first with
  | zero => simp [numbers]
  | succ count ih =>
    simp only [numbers, List.mem_cons, ih (Nat.le_of_succ_le hcount)]
    by_cases h : number = first
    · simp [h]
    · have := offset_start_succ (Ne.symm h)
      simp only [h, false_or]
      omega

/-- A window holds exactly the numbers whose offset is below its length. -/
theorem mem_window {stop : UInt32} : number ∈ window start stop ↔ offset start number < offset start stop :=
  mem_numbers (offset_lt start stop).le

/-- No number is visited twice. -/
theorem numbers_nodup (hcount : count ≤ 2 ^ 32) : (numbers first count).Nodup := by
  induction count generalizing first with
  | zero => simp [numbers]
  | succ count ih =>
    simp only [numbers, List.nodup_cons, ih (first + 1) (Nat.le_of_succ_le hcount), and_true,
      mem_numbers (Nat.le_of_succ_le hcount)]
    have h : offset (first + 1) first = 2 ^ 32 - 1 := by
      have hfirst := first.toNat_lt
      simp only [offset_eq, UInt32.toNat_add, UInt32.reduceToNat]
      omega
    omega

/-- A number of the window stands at the position of its offset. -/
theorem numbers_getElem? {first : UInt32} (h : offset first number < count) :
    (numbers first count)[offset first number]? = some number := by
  induction count generalizing first with
  | zero => omega
  | succ count ih =>
    by_cases hfirst : first = number
    · simp [hfirst, numbers]
    · have hstep := offset_start_succ hfirst
      rw [← hstep, numbers, List.getElem?_cons_succ]
      exact ih (by omega)

/-- A longer count visits the shorter one first. -/
theorem numbers_add (a b : ℕ) : numbers first (a + b) = numbers first a ++ numbers (first + UInt32.ofNat a) b := by
  induction a generalizing first with
  | zero => simp [numbers]
  | succ a ih =>
    rw [Nat.succ_add, numbers, ih, numbers, List.cons_append, UInt32.ofNat_add,
      UInt32.add_comm (UInt32.ofNat a), ← UInt32.add_assoc]
    rfl

/-! ## Ring slots -/

section Slots

variable {size : ℕ} [NeZero size]

/-- The slot of a number. -/
def slot (size : ℕ) [NeZero size] (number : UInt32) : Fin size := Fin.ofNat size number.toNat

/-- Within a window no longer than the ring, slots identify numbers. -/
theorem slot_injOn (hsize : size ∣ 2 ^ 32) (ha : offset start a < size) (hb : offset start b < size)
    (h : slot size a = slot size b) : a = b := by
  have hmod : a.toNat % size = b.toNat % size := congrArg Fin.val h
  rw [toNat_eq start a, toNat_eq start b, Nat.mod_mod_of_dvd _ hsize,
    Nat.mod_mod_of_dvd _ hsize] at hmod
  have hcancel : offset start a % size = offset start b % size :=
    Nat.ModEq.add_left_cancel' start.toNat hmod
  rw [Nat.mod_eq_of_lt ha, Nat.mod_eq_of_lt hb] at hcancel
  exact offset_injective hcancel

/-- Empty the slots of the listed numbers. -/
def clearSlots {α : Type*} (cells : Fin size → Option α) (ns : List UInt32) : Fin size → Option α :=
  ns.foldl (fun cells number => Function.update cells (slot size number) none) cells

/-- The slots of the numbers are cleared. -/
theorem clearSlots_apply {α : Type*} (cells : Fin size → Option α) (ns : List UInt32) (k : Fin size) :
    clearSlots cells ns k = if k ∈ ns.map (slot size) then none else cells k := by
  induction ns generalizing cells with
  | nil => simp [clearSlots]
  | cons number ns ih =>
    change clearSlots (Function.update cells (slot size number) none) ns k = _
    rw [ih]
    by_cases hk : k = slot size number
    · simp [hk]
    · simp [hk]

end Slots

end RingWindow
