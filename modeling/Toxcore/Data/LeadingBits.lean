import Mathlib.Data.Nat.Bitwise
import Toxcore.Data.ByteStrings

/-!
# Leading bits of byte strings

The bits of a byte string, most significant first, and the number of leading bits two strings share. A search for the
first unequal bit, byte by byte with a mask, finds that number.
-/

namespace ByteStrings

open List

/-- The length of the longest common beginning of two lists of bits. -/
def commonLength : List Bool → List Bool → ℕ
  | x :: xs, y :: ys => if x = y then commonLength xs ys + 1 else 0
  | _, _ => 0

/-- The bits of a byte, most significant first. -/
def byteBits (byte : UInt8) : List Bool := (List.range 8).map fun j => byte.toNat.testBit (7 - j)

/-- The bits of a byte string. -/
def bits (bytes : Bytes) : List Bool := bytes.flatMap byteBits

/-- The number of leading bits two byte strings share. -/
def sharedBits (a b : Bytes) : ℕ := commonLength (bits a) (bits b)

theorem commonLength_append_same (front xs ys : List Bool) :
    commonLength (front ++ xs) (front ++ ys) = front.length + commonLength xs ys := by
  induction front with
  | nil => simp
  | cons x front ih =>
    rw [cons_append, cons_append, commonLength, if_pos rfl, ih, length_cons]
    omega

/-- What follows two different lists of one length does not matter. -/
theorem commonLength_append_of_ne {as bs : List Bool} (hlength : as.length = bs.length) (hne : as ≠ bs)
    (xs ys : List Bool) : commonLength (as ++ xs) (bs ++ ys) = commonLength as bs := by
  induction as generalizing bs with
  | nil => exact absurd (length_eq_zero_iff.mp hlength.symm).symm hne
  | cons a as ih =>
    cases bs with
    | nil => simp at hlength
    | cons b bs =>
      simp only [cons_append, commonLength]
      split
      · rename_i hab
        rw [ih (by simpa using hlength) fun hsame => hne (by rw [hab, hsame])]
      · rfl

/-- The first index at which two functions differ ends what their values have in common. -/
theorem find?_range' (f g : ℕ → Bool) (start count : ℕ) :
    ((List.range' start count).find? fun j => f j ≠ g j).getD (start + count) =
      start + commonLength ((List.range' start count).map f) ((List.range' start count).map g) := by
  induction count generalizing start with
  | zero => rfl
  | succ count ih =>
    rw [range'_succ, find?_cons, map_cons, map_cons, commonLength]
    by_cases hsame : f start = g start
    · rw [if_pos hsame, show decide (f start ≠ g start) = false by simp [hsame]]
      have hrest := ih (start + 1)
      rw [show start + 1 + count = start + (count + 1) by omega] at hrest
      rw [hrest]
      omega
    · rw [if_neg hsame, show decide (f start ≠ g start) = true by simp [hsame]]
      rfl

/-- The bits determine a byte. -/
theorem byteBits_injective {a b : UInt8} (h : byteBits a = byteBits b) : a = b := by
  apply UInt8.toNat_inj.mp
  apply Nat.eq_of_testBit_eq
  intro i
  by_cases hi : i < 8
  · have hbit := congrArg (·[7 - i]?) h
    simpa [byteBits, getElem?_range (show 7 - i < 8 by omega), show 7 - (7 - i) = i by omega] using hbit
  · have hlarge {c : UInt8} : c.toNat < 2 ^ i :=
      c.toNat_lt.trans_le (Nat.pow_le_pow_right (by omega) (by omega))
    rw [Nat.testBit_lt_two_pow hlarge, Nat.testBit_lt_two_pow hlarge]

/-- A mask of one bit tells whether two bytes differ in that bit. -/
theorem mask_eq_iff (a b i : ℕ) : a &&& 1 <<< i = b &&& 1 <<< i ↔ a.testBit i = b.testBit i := by
  rw [Nat.one_shiftLeft, Nat.and_two_pow, Nat.and_two_pow]
  constructor
  · intro h
    have hbit := Nat.eq_of_mul_eq_mul_right (Nat.two_pow_pos i) h
    revert hbit
    cases a.testBit i <;> cases b.testBit i <;> simp
  · intro h
    rw [h]

/-- The bits two different bytes share, found with masks. -/
theorem find?_mask (a b : UInt8) :
    ((List.range 8).find? fun j => a.toNat &&& 1 <<< (7 - j) ≠ b.toNat &&& 1 <<< (7 - j)).getD 8 =
      commonLength (byteBits a) (byteBits b) := by
  have hfind := find?_range' (fun j => a.toNat.testBit (7 - j)) (fun j => b.toNat.testBit (7 - j)) 0 8
  simp only [Nat.zero_add, ← range_eq_range'] at hfind
  rw [byteBits, byteBits, ← hfind]
  simp only [ne_eq, mask_eq_iff]

theorem sharedBits_cons_same (byte : UInt8) (a b : Bytes) :
    sharedBits (byte :: a) (byte :: b) = 8 + sharedBits a b := by
  rw [sharedBits, bits, bits, flatMap_cons, flatMap_cons, commonLength_append_same]
  rfl

theorem sharedBits_cons_of_ne {x y : UInt8} (hne : x ≠ y) (a b : Bytes) :
    sharedBits (x :: a) (y :: b) = commonLength (byteBits x) (byteBits y) := by
  rw [sharedBits, bits, bits, flatMap_cons, flatMap_cons]
  exact commonLength_append_of_ne (by simp [byteBits]) (fun hsame => hne (byteBits_injective hsame)) _ _

end ByteStrings
