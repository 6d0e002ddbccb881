import Mathlib.Data.Vector.Basic
import Mathlib.Data.List.GetD
import Mathlib.Tactic.Ring
import Mathlib.Tactic.Linarith

/-!
# Byte strings, fixed blocks and big-endian numbers

Byte strings are lists; a block is a byte string whose length is part of its type. Blocks are
cut out of longer strings at a byte offset, and a string read as a big-endian number turns the
byte loops of wire formats (comparison, addition with carry) into arithmetic.
-/

namespace ByteStrings

open List

/-- A byte string of any length. -/
abbrev Bytes := List UInt8

/-- A byte string of a fixed length. -/
abbrev Block (n : ℕ) := List.Vector UInt8 n

/-- Copy `n` bytes starting at `offset`. Bytes past the end of the source read as zero. -/
def slice (n : ℕ) (source : Bytes) (offset : ℕ) : Block n :=
  List.Vector.ofFn fun i => source.getD (offset + i.val) 0

variable {m n offset : ℕ} {a b : Bytes}

/-- Within bounds a slice is the corresponding sublist. -/
theorem slice_toList {source : Bytes} (h : offset + n ≤ source.length) :
    (slice n source offset).toList = (source.drop offset).take n := by
  apply ext_getElem
  · simp only [List.Vector.toList_length, length_take, length_drop]
    omega
  · intro i hi _
    have hi' : i < n := by simpa using hi
    simp only [slice, List.Vector.toList_ofFn, List.getElem_ofFn, getElem_take,
      getElem_drop]
    exact getD_eq_getElem source 0 (by omega)

variable (front rest : Bytes)

/-- Skipping a whole prefix shifts the offset. -/
theorem slice_append_right (h : front.length ≤ offset) :
    slice n (front ++ rest) offset = slice n rest (offset - front.length) := by
  apply List.Vector.ext
  intro i
  simp only [slice, List.Vector.get_ofFn]
  rw [getD_append_right _ _ _ _ (by omega)]
  congr 1
  omega

/-- What stands behind a block does not matter. -/
theorem slice_append_left (h : offset + n ≤ front.length) :
    slice n (front ++ rest) offset = slice n front offset := by
  apply List.Vector.ext
  intro i
  simp only [slice, List.Vector.get_ofFn]
  rw [getD_append _ _ _ _ (by omega)]

variable (block : Block n)

/-- A block at the front of a string is read back unchanged. -/
theorem slice_block (rest : Bytes) : slice n (block.toList ++ rest) 0 = block := by
  apply List.Vector.toList_injective
  rw [slice_toList (by simp)]
  simp

/-- Skipping one byte shifts the offset. -/
theorem slice_cons (byte : UInt8) (rest : Bytes) (offset : ℕ) :
    slice n (byte :: rest) (offset + 1) = slice n rest offset := by
  have hskip := slice_append_right (n := n) [byte] rest (show [byte].length ≤ offset + 1 by simp)
  simpa using hskip

/-- Skipping a block shifts the offset. -/
theorem slice_skip (block : Block m) (rest : Bytes) (offset : ℕ) :
    slice n (block.toList ++ rest) (m + offset) = slice n rest offset := by
  rw [slice_append_right block.toList rest (by rw [block.toList_length]; omega), block.toList_length,
    Nat.add_sub_cancel_left]

/-- What follows a block. -/
theorem drop_skip (block : Block m) (rest : Bytes) (offset : ℕ) :
    (block.toList ++ rest).drop (m + offset) = rest.drop offset := by
  rw [← drop_drop, drop_left' block.toList_length]

/-- A block that is the whole string is read back unchanged. -/
theorem slice_self : slice n block.toList 0 = block := by
  simpa using slice_block block []

/-- A block behind a prefix of the right length is read back unchanged. -/
theorem slice_at (rest : Bytes) (h : front.length = offset) :
    slice n (front ++ (block.toList ++ rest)) offset = block := by
  rw [slice_append_right front _ (by omega), show offset - front.length = 0 by omega, slice_block]

/-- A block that ends the string is read back unchanged. -/
theorem slice_at_end (h : front.length = offset) : slice n (front ++ block.toList) offset = block := by
  simpa using slice_at front block [] h

/-- What follows a block, up to the end of the string. -/
theorem slice_rest (front : Block m) {rest : Bytes} (h : rest.length = n) :
    (slice n (front.toList ++ rest) m).toList = rest := by
  rw [slice_toList (by rw [length_append, front.toList_length, h]), drop_left' front.toList_length, ← h,
    take_length]

/-- A block and what follows it. -/
theorem slice_append_drop {source : Bytes} (h : offset + n ≤ source.length) :
    (slice n source offset).toList ++ source.drop (offset + n) = source.drop offset := by
  rw [slice_toList h, ← drop_drop, take_append_drop]

/-- What stands behind the bytes at an offset. -/
theorem drop_bytes {source bytes rest : Bytes} (h : source.drop offset = bytes ++ rest) (hlen : bytes.length = n) :
    source.drop (offset + n) = rest := by
  rw [← drop_drop, h, drop_left' hlen]

/-- Reading field by field: a block is read at the offset where it stands, and the next field stands behind it. -/
theorem read_block {source rest : Bytes} {block : Block n} (h : source.drop offset = block.toList ++ rest) :
    slice n source offset = block ∧ source.drop (offset + n) = rest := by
  refine ⟨?_, drop_bytes h block.toList_length⟩
  apply List.Vector.ext
  intro i
  rw [← slice_block block rest, ← h]
  simp only [slice, List.Vector.get_ofFn, Nat.zero_add, getD_eq_getElem?_getD, getElem?_drop]

/-- The same for a field of one byte. -/
theorem read_byte {source rest : Bytes} {byte : UInt8} (h : source.drop offset = [byte] ++ rest) :
    source.getD offset 0 = byte ∧ source.drop (offset + 1) = rest := by
  refine ⟨?_, drop_bytes h rfl⟩
  rw [getD_eq_getElem?_getD, ← Nat.add_zero offset, ← getElem?_drop, h]
  rfl

/-! ## Big-endian numbers -/

/-- The number a byte string denotes when its first byte is the most significant one. -/
def beNat : Bytes → ℕ
  | [] => 0
  | byte :: rest => byte.toNat * 256 ^ rest.length + beNat rest

/-- The last `width` base-256 digits of a number, most significant first. -/
def beBytes : ℕ → ℕ → Bytes
  | 0, _ => []
  | width + 1, value => UInt8.ofNat (value / 256 ^ width) :: beBytes width value

@[simp] theorem beBytes_length (width value : ℕ) : (beBytes width value).length = width := by
  induction width with
  | zero => rfl
  | succ width ih => simp [beBytes, ih]

/-- A byte string is smaller than the next power of 256. -/
theorem beNat_lt (bytes : Bytes) : beNat bytes < 256 ^ bytes.length := by
  induction bytes with
  | nil => simp [beNat]
  | cons byte rest ih =>
    have hbyte : byte.toNat ≤ 255 := Nat.le_of_lt_succ byte.toNat_lt
    have hprod : byte.toNat * 256 ^ rest.length ≤ 255 * 256 ^ rest.length :=
      Nat.mul_le_mul_right _ hbyte
    simp only [beNat, length_cons, pow_succ]
    omega

/-- The number of a string from the numbers of its two parts. -/
theorem beNat_append : beNat (front ++ rest) = beNat front * 256 ^ rest.length + beNat rest := by
  induction front with
  | nil => simp [beNat]
  | cons byte front ih =>
    simp only [cons_append, beNat, ih, length_append, pow_add]
    ring

/-- The last `n` bytes denote the residue modulo `256 ^ n`. -/
theorem beNat_slice_end (block : Block (m + n)) :
    beNat (slice n block.toList m).toList = beNat block.toList % 256 ^ n := by
  have hlen : (block.toList.drop m).length = n := by
    rw [length_drop, block.toList_length, Nat.add_sub_cancel_left]
  rw [slice_toList (by rw [block.toList_length]), take_of_length_le hlen.le]
  conv_rhs => rw [← take_append_drop m block.toList, beNat_append, hlen, Nat.mul_add_mod_self_right]
  have hlt := beNat_lt (block.toList.drop m)
  rw [hlen] at hlt
  exact (Nat.mod_eq_of_lt hlt).symm

/-- Reading back the digits of a number keeps its residue. -/
theorem beNat_beBytes (width value : ℕ) : beNat (beBytes width value) = value % 256 ^ width := by
  induction width with
  | zero => simp [beBytes, beNat, Nat.mod_one]
  | succ width ih =>
    simp only [beBytes, beNat, beBytes_length, ih, UInt8.toNat_ofNat']
    rw [show (2 : ℕ) ^ 8 = 256 by norm_num, pow_succ 256 width, Nat.mod_mul (x := value),
      Nat.mul_comm (256 ^ width), Nat.add_comm]

/-- A number that fits its width is read back unchanged. -/
theorem beNat_beBytes_of_lt {width value : ℕ} (h : value < 256 ^ width) :
    beNat (beBytes width value) = value := by
  rw [beNat_beBytes, Nat.mod_eq_of_lt h]

/-- Byte strings of one length are determined by the number they denote. -/
theorem beNat_injective (hlen : a.length = b.length) (h : beNat a = beNat b) : a = b := by
  induction a generalizing b with
  | nil => exact (length_eq_zero_iff.mp hlen.symm).symm
  | cons x xs ih =>
    cases b with
    | nil => simp at hlen
    | cons y ys =>
      have hlen' : xs.length = ys.length := by simpa using hlen
      simp only [beNat, hlen'] at h
      have hx := beNat_lt xs
      have hy := beNat_lt ys
      rw [hlen'] at hx
      have hdiv := congrArg (· / 256 ^ ys.length) h
      have hpos : 0 < 256 ^ ys.length := by positivity
      simp only [Nat.mul_comm _ (256 ^ ys.length), Nat.mul_add_div hpos, Nat.div_eq_of_lt hx,
        Nat.div_eq_of_lt hy, Nat.add_zero] at hdiv
      rw [hdiv] at h
      rw [UInt8.toNat_inj.mp hdiv, ih hlen' (by omega)]

/-- Bytes written from the number they denote. -/
theorem beBytes_beNat (bytes : Bytes) : beBytes bytes.length (beNat bytes) = bytes := by
  apply beNat_injective (by simp)
  rw [beNat_beBytes, Nat.mod_eq_of_lt (beNat_lt bytes)]

/-- A number written in `n` big-endian bytes. -/
def beBlock (n value : ℕ) : Block n := ⟨beBytes n value, beBytes_length n value⟩

@[simp] theorem beBlock_toList (n value : ℕ) : (beBlock n value).toList = beBytes n value := rfl

/-- Byte-wise comparison: the first differing byte decides. -/
def memcmp : Bytes → Bytes → Ordering
  | a :: as, b :: bs => if a < b then .lt else if b < a then .gt else memcmp as bs
  | _, _ => .eq

/-- Byte-wise comparison of strings of one length compares the numbers they denote. -/
theorem memcmp_eq_compare (hlen : a.length = b.length) : memcmp a b = compare (beNat a) (beNat b) := by
  induction a generalizing b with
  | nil =>
    obtain rfl := length_eq_zero_iff.mp hlen.symm
    rfl
  | cons x xs ih =>
    cases b with
    | nil => simp at hlen
    | cons y ys =>
      have hlen' : xs.length = ys.length := by simpa using hlen
      have hx : beNat xs < 256 ^ ys.length := hlen' ▸ beNat_lt xs
      have hy := beNat_lt ys
      have hlead {u v : UInt8} (huv : u < v) :
          u.toNat * 256 ^ ys.length + 256 ^ ys.length ≤ v.toNat * 256 ^ ys.length := by
        have huv' : u.toNat + 1 ≤ v.toNat := UInt8.lt_iff_toNat_lt.mp huv
        calc u.toNat * 256 ^ ys.length + 256 ^ ys.length
            = (u.toNat + 1) * 256 ^ ys.length := by ring
          _ ≤ v.toNat * 256 ^ ys.length := Nat.mul_le_mul_right _ huv'
      simp only [memcmp, beNat, hlen']
      split
      · rename_i hxy
        have := hlead hxy
        exact (Nat.compare_eq_lt.mpr (by omega)).symm
      · split
        · rename_i _ hyx
          have := hlead hyx
          exact (Nat.compare_eq_gt.mpr (by omega)).symm
        · rename_i hxy hyx
          have hle : ∀ u v : UInt8, ¬u < v → v.toNat ≤ u.toNat := fun u v h =>
            Nat.le_of_not_lt fun h' => h (UInt8.lt_iff_toNat_lt.mpr h')
          have heq : x.toNat = y.toNat := Nat.le_antisymm (hle y x hyx) (hle x y hxy)
          rw [ih hlen', heq]
          rcases Nat.lt_trichotomy (beNat xs) (beNat ys) with h | h | h
          · rw [Nat.compare_eq_lt.mpr h, Nat.compare_eq_lt.mpr (by omega)]
          · rw [h]
            simp
          · rw [Nat.compare_eq_gt.mpr h, Nat.compare_eq_gt.mpr (by omega)]

/-! ## Addition with carry -/

/-- Add two byte strings from the last byte to the first. Returns the sum bytes and the carry. -/
def addCarry : Bytes → Bytes → ℕ → Bytes × ℕ
  | a :: as, b :: bs, carry =>
    let low := addCarry as bs carry
    let sum := low.2 + (a.toNat + b.toNat)
    (UInt8.ofNat sum :: low.1, sum / 256)
  | _, _, carry => ([], carry)

@[simp] theorem addCarry_length (hlen : a.length = b.length) (carry : ℕ) :
    (addCarry a b carry).1.length = a.length := by
  induction a generalizing b with
  | nil => rfl
  | cons x xs ih =>
    cases b with
    | nil => simp at hlen
    | cons y ys => simp [addCarry, ih (by simpa using hlen)]

/-- The sum bytes and the carry out together denote the full sum. -/
theorem addCarry_value (hlen : a.length = b.length) (carry : ℕ) :
    beNat (addCarry a b carry).1 + (addCarry a b carry).2 * 256 ^ a.length =
      beNat a + beNat b + carry := by
  induction a generalizing b with
  | nil =>
    obtain rfl := length_eq_zero_iff.mp hlen.symm
    simp [addCarry, beNat]
  | cons x xs ih =>
    cases b with
    | nil => simp at hlen
    | cons y ys =>
      have hlen' : xs.length = ys.length := by simpa using hlen
      have htail := ih hlen'
      set low := addCarry xs ys carry with hlow
      have hlowlen : low.1.length = xs.length := addCarry_length hlen' carry
      have hsplit := Nat.div_add_mod (low.2 + (x.toNat + y.toNat)) 256
      simp only [addCarry, ← hlow, beNat, hlowlen, length_cons, UInt8.toNat_ofNat', pow_succ,
        ← hlen']
      set sum := low.2 + (x.toNat + y.toNat) with hsum
      calc sum % 2 ^ 8 * 256 ^ xs.length + beNat low.1 + sum / 256 * (256 ^ xs.length * 256)
          = (256 * (sum / 256) + sum % 256) * 256 ^ xs.length + beNat low.1 := by
            rw [show (2 : ℕ) ^ 8 = 256 by norm_num]
            ring
        _ = sum * 256 ^ xs.length + beNat low.1 := by rw [hsplit]
        _ = (x.toNat + y.toNat) * 256 ^ xs.length
              + (beNat low.1 + low.2 * 256 ^ xs.length) := by
            rw [hsum]
            ring
        _ = _ := by
            rw [htail]
            ring

/-- Dropping the final carry adds modulo the size of the block. -/
theorem addCarry_mod (hlen : a.length = b.length) (carry : ℕ) :
    beNat (addCarry a b carry).1 = (beNat a + beNat b + carry) % 256 ^ a.length := by
  have hlt := beNat_lt (addCarry a b carry).1
  rw [addCarry_length hlen] at hlt
  rw [← addCarry_value hlen, Nat.add_mul_mod_self_right, Nat.mod_eq_of_lt hlt]

end ByteStrings
