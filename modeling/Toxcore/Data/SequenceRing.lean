import Mathlib.Data.Nat.ModEq

/-!
# 16-bit sequence numbers over a ring of cells

Sequence numbers have 16 bits and wrap. A ring has a power of two of cells, and an entry is kept in the cell of its
number modulo their number. Of the numbers that are less than a turn of the ring ahead of a start, no two have the
same cell.
-/

namespace SequenceRing

/-- How far a number is ahead of a start, counting upwards and wrapping. -/
def ahead (start number : UInt16) : ℕ := (number - start).toNat

/-- The cell of a number. -/
def cellOf (size : ℕ) (number : UInt16) : ℕ := number.toNat % size

variable {start number number' : UInt16}

@[simp] theorem ahead_self (start : UInt16) : ahead start start = 0 := by
  rw [ahead, UInt16.sub_self]
  rfl

theorem ahead_eq (start number : UInt16) : ahead start number = (2 ^ 16 - start.toNat + number.toNat) % 2 ^ 16 :=
  UInt16.toNat_sub number start

/-- A number is recovered from how far it is ahead. -/
theorem toNat_eq (start number : UInt16) : number.toNat = (start.toNat + ahead start number) % 2 ^ 16 := by
  have hstart := start.toNat_lt
  have hnumber := number.toNat_lt
  rw [ahead_eq]
  omega

/-- No two numbers are as far ahead. -/
theorem ahead_injective (h : ahead start number = ahead start number') : number = number' := by
  apply UInt16.toNat_inj.mp
  rw [toNat_eq start number, toNat_eq start number', h]

/-- Without a wrap the distance is a difference. -/
theorem ahead_of_le (h : start.toNat ≤ number.toNat) : ahead start number = number.toNat - start.toNat := by
  have hnumber := number.toNat_lt
  rw [ahead_eq]
  omega

/-- A start that moves on is closer to the numbers ahead of it. -/
theorem ahead_succ (h : start ≠ number) : ahead (start + 1) number + 1 = ahead start number := by
  have hstart := start.toNat_lt
  have hnumber := number.toNat_lt
  have hne : start.toNat ≠ number.toNat := fun heq => h (UInt16.toNat_inj.mp heq)
  simp only [ahead_eq, UInt16.toNat_add, UInt16.reduceToNat]
  omega

/-- The number behind another one is one further ahead, unless it is the start. -/
theorem ahead_next (h : number + 1 ≠ start) : ahead start (number + 1) = ahead start number + 1 := by
  have hstart := start.toNat_lt
  have hnumber := number.toNat_lt
  have hne : (number + 1).toNat ≠ start.toNat := fun heq => h (UInt16.toNat_inj.mp heq)
  rw [UInt16.toNat_add, UInt16.toNat_one] at hne
  simp only [ahead_eq, UInt16.toNat_add, UInt16.reduceToNat]
  omega

/-- A number is ahead of one behind it by the low half of the distance. -/
theorem ahead_sub (number : UInt16) (distance : UInt32) :
    ahead (number.toUInt32 - distance).toUInt16 number = distance.toUInt16.toNat := by
  have hnumber := number.toNat_lt
  have hdistance := distance.toNat_lt
  rw [ahead_eq, UInt32.toNat_toUInt16, UInt32.toNat_toUInt16, UInt32.toNat_sub, UInt16.toNat_toUInt32]
  omega

/-- Unless the low half of the distance is the largest number, the number behind it is one further ahead. -/
theorem ahead_sub_next {distance : UInt32} (number : UInt16) (h : distance.toUInt16 + 1 ≠ 0) :
    ahead (number.toUInt32 - distance).toUInt16 (number + 1) = distance.toUInt16.toNat + 1 := by
  have hbehind := ahead_sub number distance
  rw [← hbehind]
  apply ahead_next
  intro hstart
  rw [← hstart, ahead_eq, UInt16.toNat_add, UInt16.toNat_one] at hbehind
  have hnumber := number.toNat_lt
  have hne : (distance.toUInt16 + 1).toNat ≠ 0 := fun hzero => h (UInt16.toNat_inj.mp hzero)
  rw [UInt16.toNat_add, UInt16.toNat_one, ← hbehind] at hne
  omega

/-- Distances stay when both numbers move on. -/
theorem ahead_add (start number distance : UInt16) :
    ahead (start + distance) (number + distance) = ahead start number := by
  have hstart := start.toNat_lt
  have hnumber := number.toNat_lt
  simp only [ahead_eq, UInt16.toNat_add]
  omega

/-- Where a turn of the numbers is some turns of the ring, cells move on with the numbers. -/
theorem cellOf_add {size : ℕ} (hring : size ∣ 2 ^ 16) (number distance : UInt16) :
    cellOf size (number + distance) = (number.toNat + distance.toNat) % size := by
  rw [cellOf, UInt16.toNat_add, Nat.mod_mod_of_dvd _ hring]

/-- Numbers less than a turn ahead have different cells. -/
theorem cellOf_injective {k : ℕ} (h : ahead start number < 2 ^ k) (h' : ahead start number' < 2 ^ k)
    (hcell : cellOf (2 ^ k) number = cellOf (2 ^ k) number') : number = number' := by
  rcases Nat.lt_or_ge 16 k with hlarge | hsmall
  · have hmax : 2 ^ 16 ≤ 2 ^ k := Nat.pow_le_pow_right (by decide) hlarge.le
    apply UInt16.toNat_inj.mp
    rwa [cellOf, cellOf, Nat.mod_eq_of_lt (number.toNat_lt.trans_le hmax),
      Nat.mod_eq_of_lt (number'.toNat_lt.trans_le hmax)] at hcell
  · have hdvd : 2 ^ k ∣ 2 ^ 16 := Nat.pow_dvd_pow 2 hsmall
    apply (ahead_injective : ahead start number = ahead start number' → _)
    rw [cellOf, cellOf, toNat_eq start number, toNat_eq start number', Nat.mod_mod_of_dvd _ hdvd,
      Nat.mod_mod_of_dvd _ hdvd] at hcell
    have hsame : ahead start number ≡ ahead start number' [MOD 2 ^ k] := Nat.ModEq.add_left_cancel' start.toNat hcell
    rwa [Nat.ModEq, Nat.mod_eq_of_lt h, Nat.mod_eq_of_lt h'] at hsame

end SequenceRing
