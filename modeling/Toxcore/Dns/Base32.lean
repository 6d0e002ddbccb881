import Mathlib.Data.Nat.Bitwise
import Mathlib.Tactic.IntervalCases
import Toxcore.Data.ByteStrings

/-!
# The base 32 encoding of `toxdns.c`

Bytes are written low bits first in groups of five. The macro `_encode` walks over the bytes with the number of bits
of the current byte that are written already, and `decode` fills bytes in the same way; both walk in step, so that
what was encoded is decoded.
-/

namespace Toxcore

open ByteStrings List

/-! ## Encoding -/

/-- The characters of the encoding. -/
def base32 : Bytes := "abcdefghijklmnopqrstuvwxyz012345".toList.map fun c => UInt8.ofNat c.toNat

/-- The group of five bits at a position of a byte, with the bits it takes from the next one. -/
def bitGroup (byte next : UInt8) (bits : ℕ) : ℕ :=
  ((byte.toNat >>> bits) ||| (next.toNat <<< (8 - bits))) &&& 0x1F

/-- The character for a group. -/
def encodeGroup (byte next : UInt8) (bits : ℕ) : UInt8 := base32.getD (bitGroup byte next bits) 0

/-- The macro `_encode` for a number of bytes: the characters, and `b` and `bits` behind it. A byte of which fewer than
three bits are written takes two rounds. -/
def encodeLoop : ℕ → Bytes → ℕ → Bytes × Bytes × ℕ
  | 0, b, bits => ([], b, bits)
  | c + 1, b, bits =>
    let byte := b.getD 0 0
    let next := b.getD 1 0
    if bits + 5 ≥ 8 then
      let (chars, b, rest) := encodeLoop c b.tail (bits + 5 - 8)
      (encodeGroup byte next bits :: chars, b, rest)
    else
      let (chars, b, rest) := encodeLoop c b.tail (bits + 5 + 5 - 8)
      (encodeGroup byte next bits :: encodeGroup byte next (bits + 5) :: chars, b, rest)

/-! ## Decoding -/

/-- The value of a character, in either case. -/
def decodeChar (ch : UInt8) : Option UInt8 :=
  if 65 ≤ ch ∧ ch ≤ 90 then some (ch - 65)
  else if 97 ≤ ch ∧ ch ≤ 122 then some (ch - 97)
  else if 48 ≤ ch ∧ ch ≤ 53 then some (ch - 48 + 26)
  else none

/-- The loop of `decode`, with the complete bytes, the byte that is being filled and the number of its bits. -/
def decodeLoop : Bytes → Bytes → UInt8 → ℕ → Option Bytes
  | [], done, _, _ => some done
  | p :: src, done, op, bits =>
    if p = 0 then some done
    else (decodeChar p).bind fun ch =>
      let op := op ||| UInt8.ofNat (ch.toNat <<< bits)
      if bits + 5 ≥ 8 then decodeLoop src (done ++ [op]) (UInt8.ofNat (ch.toNat >>> (5 - (bits + 5 - 8))))
        (bits + 5 - 8)
      else decodeLoop src done op (bits + 5)

/-- `decode`. -/
def decode (src : Bytes) : Option Bytes := decodeLoop src [] 0 0

/-! ## Encoding and decoding in step -/

variable {bits : ℕ}

variable (byte next : UInt8)

/-- A group as a number. -/
theorem bitGroup_eq (hbits : bits ≤ 8) :
    bitGroup byte next bits = (byte.toNat / 2 ^ bits + 2 ^ (8 - bits) * next.toNat) % 32 := by
  have hlt : byte.toNat / 2 ^ bits < 2 ^ (8 - bits) := by
    rw [Nat.div_lt_iff_lt_mul (Nat.two_pow_pos bits), ← Nat.pow_add, Nat.sub_add_cancel hbits]
    exact byte.toNat_lt
  rw [bitGroup, Nat.shiftRight_eq_div_pow, Nat.shiftLeft_eq, Nat.mul_comm next.toNat, Nat.or_comm,
    ← Nat.two_pow_add_eq_or_of_lt hlt, Nat.add_comm]
  exact Nat.and_two_pow_sub_one_eq_mod _ 5

theorem bitGroup_lt (bits : ℕ) : bitGroup byte next bits < 32 :=
  Nat.and_lt_two_pow _ (by norm_num : 0x1F < 2 ^ 5)

/-- The character for a group is decoded to it, and is not the end of the text. -/
theorem decodeChar_encodeGroup (bits : ℕ) :
    encodeGroup byte next bits ≠ 0 ∧
      decodeChar (encodeGroup byte next bits) = some (UInt8.ofNat (bitGroup byte next bits)) := by
  have hall : ∀ i < 32, base32.getD i 0 ≠ 0 ∧ decodeChar (base32.getD i 0) = some (UInt8.ofNat i) := by decide +kernel
  exact hall _ (bitGroup_lt byte next bits)

variable (c : ℕ) (b : Bytes)

/-- Behind the characters of some bytes stand the bytes after them; at most four bits of the next byte are written,
and each character is five bits. -/
theorem encodeLoop_counts (hbits : bits ≤ 4) :
    (encodeLoop c b bits).2.1 = b.drop c ∧ (encodeLoop c b bits).2.2 ≤ 4 ∧
      5 * (encodeLoop c b bits).1.length + bits = 8 * c + (encodeLoop c b bits).2.2 := by
  induction c generalizing b bits with
  | zero => simpa [encodeLoop] using hbits
  | succ c ih =>
    have hdrop : b.tail.drop c = b.drop (c + 1) := by rw [drop_tail]
    rw [encodeLoop]
    split
    · obtain ⟨hrest, hle, hcount⟩ := ih b.tail (show bits + 5 - 8 ≤ 4 by omega)
      refine ⟨hrest.trans hdrop, hle, ?_⟩
      change 5 * ((encodeLoop c b.tail (bits + 5 - 8)).1.length + 1) + bits =
        8 * (c + 1) + (encodeLoop c b.tail (bits + 5 - 8)).2.2
      omega
    · obtain ⟨hrest, hle, hcount⟩ := ih b.tail (show bits + 5 + 5 - 8 ≤ 4 by omega)
      refine ⟨hrest.trans hdrop, hle, ?_⟩
      change 5 * ((encodeLoop c b.tail (bits + 5 + 5 - 8)).1.length + 2) + bits =
        8 * (c + 1) + (encodeLoop c b.tail (bits + 5 + 5 - 8)).2.2
      omega

/-- A group fills the next five bits of the byte it was taken from. -/
theorem fill_bitGroup (hbits : bits ≤ 8) :
    UInt8.ofNat (byte.toNat % 2 ^ bits) ||| UInt8.ofNat ((UInt8.ofNat (bitGroup byte next bits)).toNat <<< bits) =
      UInt8.ofNat (byte.toNat % 2 ^ (bits + 5)) := by
  have hbyte := byte.toNat_lt
  have hgroup := bitGroup_eq byte next hbits
  have hgroupLt := bitGroup_lt byte next bits
  have hlow : byte.toNat % 2 ^ bits < 2 ^ bits := Nat.mod_lt _ (Nat.two_pow_pos bits)
  rw [← UInt8.ofNat_or, UInt8.toNat_ofNat_of_lt' (by omega : bitGroup byte next bits < 2 ^ 8), Nat.shiftLeft_eq,
    Nat.mul_comm, Nat.or_comm, ← Nat.two_pow_add_eq_or_of_lt hlow, ← UInt8.toNat_inj]
  simp only [UInt8.toNat_ofNat']
  interval_cases bits <;> omega

/-- Behind the end of its byte a group holds the first bits of the next one. -/
theorem bitGroup_carry (hlow : 3 ≤ bits) (hbits : bits ≤ 8) :
    (UInt8.ofNat (bitGroup byte next bits)).toNat >>> (8 - bits) = next.toNat % 2 ^ (bits - 3) := by
  have hbyte := byte.toNat_lt
  have hgroup := bitGroup_eq byte next hbits
  have hgroupLt := bitGroup_lt byte next bits
  rw [UInt8.toNat_ofNat_of_lt' (by omega : bitGroup byte next bits < 2 ^ 8), Nat.shiftRight_eq_div_pow]
  interval_cases bits <;> omega

variable (src : Bytes)

/-- One character at a position that is not the last of its byte. -/
theorem decodeLoop_within (done : Bytes) (hbits : bits + 5 < 8) :
    decodeLoop (encodeGroup byte next bits :: src) done (UInt8.ofNat (byte.toNat % 2 ^ bits)) bits =
      decodeLoop src done (UInt8.ofNat (byte.toNat % 2 ^ (bits + 5))) (bits + 5) := by
  obtain ⟨hzero, hchar⟩ := decodeChar_encodeGroup byte next bits
  rw [decodeLoop, if_neg hzero, hchar, Option.bind_some]
  simp only [fill_bitGroup byte next (by omega : bits ≤ 8)]
  rw [if_neg (by omega)]

/-- The character that completes a byte. -/
theorem decodeLoop_complete (done : Bytes) (hlow : 3 ≤ bits) (hbits : bits < 8) :
    decodeLoop (encodeGroup byte next bits :: src) done (UInt8.ofNat (byte.toNat % 2 ^ bits)) bits =
      decodeLoop src (done ++ [byte]) (UInt8.ofNat (next.toNat % 2 ^ (bits - 3))) (bits - 3) := by
  obtain ⟨hzero, hchar⟩ := decodeChar_encodeGroup byte next bits
  have hfull : UInt8.ofNat (byte.toNat % 2 ^ (bits + 5)) = byte := by
    rw [Nat.mod_eq_of_lt (byte.toNat_lt.trans_le (Nat.pow_le_pow_right (by norm_num) (by omega))), UInt8.ofNat_toNat]
  rw [decodeLoop, if_neg hzero, hchar, Option.bind_some]
  simp only [fill_bitGroup byte next (by omega : bits ≤ 8), hfull]
  rw [if_pos (by omega), show 5 - (bits + 5 - 8) = 8 - bits by omega, show bits + 5 - 8 = bits - 3 by omega,
    bitGroup_carry byte next hlow (by omega)]

/-- Decoding the characters of some bytes yields these bytes and goes on where encoding stopped. -/
theorem decodeLoop_encodeLoop (done : Bytes) (hbits : bits ≤ 4) (hlen : c ≤ b.length) :
    decodeLoop ((encodeLoop c b bits).1 ++ src) done (UInt8.ofNat ((b.getD 0 0).toNat % 2 ^ bits)) bits =
      decodeLoop src (done ++ b.take c)
        (UInt8.ofNat (((encodeLoop c b bits).2.1.getD 0 0).toNat % 2 ^ (encodeLoop c b bits).2.2))
        (encodeLoop c b bits).2.2 := by
  induction c generalizing b bits done with
  | zero => simp [encodeLoop]
  | succ c ih =>
    obtain ⟨byte, b, rfl⟩ : ∃ byte rest, b = byte :: rest := exists_cons_of_length_pos (by omega)
    have hlen' : c ≤ b.length := by simpa using hlen
    have hnext : (byte :: b).getD 1 0 = b.getD 0 0 := rfl
    rw [encodeLoop]
    simp only [getD_cons_zero, tail_cons, hnext, take_succ_cons]
    split
    · have hcomplete := decodeLoop_complete byte (b.getD 0 0) ((encodeLoop c b (bits + 5 - 8)).1 ++ src) done
        (by omega : 3 ≤ bits) (by omega)
      rw [cons_append, hcomplete, ← show bits + 5 - 8 = bits - 3 by omega,
        ih b (done ++ [byte]) (by omega) hlen', append_assoc, singleton_append]
    · have hwithin := decodeLoop_within byte (b.getD 0 0)
        (encodeGroup byte (b.getD 0 0) (bits + 5) :: (encodeLoop c b (bits + 5 + 5 - 8)).1 ++ src) done
        (by omega : bits + 5 < 8)
      have hcomplete := decodeLoop_complete byte (b.getD 0 0) ((encodeLoop c b (bits + 5 + 5 - 8)).1 ++ src) done
        (by omega : 3 ≤ bits + 5) (by omega)
      rw [cons_append, hwithin, cons_append, hcomplete, ← show bits + 5 + 5 - 8 = bits + 5 - 3 by omega,
        ih b (done ++ [byte]) (by omega) hlen', append_assoc, singleton_append]

/-- `decode` undoes the encoding. -/
theorem decode_encodeLoop (data : Bytes) : decode (encodeLoop data.length data 0).1 = some data := by
  have hloop := decodeLoop_encodeLoop data.length data [] [] (Nat.zero_le 4) le_rfl
  simp only [append_nil, pow_zero, Nat.mod_one, nil_append, take_length] at hloop
  rw [decode, show (0 : UInt8) = UInt8.ofNat 0 from rfl, hloop, decodeLoop]

/-! ## The characters -/

/-- The character for a group is one of the encoding. -/
theorem encodeGroup_mem (bits : ℕ) : encodeGroup byte next bits ∈ base32 := by
  have hlt : bitGroup byte next bits < base32.length := bitGroup_lt byte next bits
  rw [encodeGroup, getD_eq_getElem _ _ hlt]
  exact getElem_mem hlt

/-- All characters are of the encoding. -/
theorem encodeLoop_mem (bits : ℕ) : ∀ ch ∈ (encodeLoop c b bits).1, ch ∈ base32 := by
  induction c generalizing b bits with
  | zero => exact fun ch hch => absurd hch not_mem_nil
  | succ c ih =>
    intro ch hch
    rw [encodeLoop] at hch
    split at hch
    · rcases mem_cons.mp hch with rfl | hch
      · exact encodeGroup_mem ..
      · exact ih _ _ ch hch
    · rcases mem_cons.mp hch with rfl | hch
      · exact encodeGroup_mem ..
      · rcases mem_cons.mp hch with rfl | hch
        · exact encodeGroup_mem ..
        · exact ih _ _ ch hch

/-- Encoding some bytes and then others. -/
theorem encodeLoop_add (first second : ℕ) (b : Bytes) (bits : ℕ) : encodeLoop (first + second) b bits =
    ((encodeLoop first b bits).1 ++ (encodeLoop second (encodeLoop first b bits).2.1 (encodeLoop first b bits).2.2).1,
      (encodeLoop second (encodeLoop first b bits).2.1 (encodeLoop first b bits).2.2).2) := by
  induction first generalizing b bits with
  | zero =>
    rw [Nat.zero_add]
    rfl
  | succ first ih =>
    rw [Nat.add_right_comm, encodeLoop, encodeLoop]
    dsimp only
    rw [ih b.tail, ih b.tail]
    split <;> rfl

end Toxcore
