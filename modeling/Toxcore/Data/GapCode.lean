import Mathlib.Data.List.Infix
import Mathlib.Tactic.Linarith

/-!
# A byte code for the gaps between absent positions

A row of positions, each present or absent, is written as one byte for every absent position:
its distance from the previous absent one. A run of 255 present positions is written as a zero
byte, after which the distance restarts. The decoder walks the same positions, consumes one byte
for every absent position it meets, and stops as soon as the bytes run out.

A sender may cut the code anywhere. What the decoder then decides is a prefix of the row, and the
whole row up to its last absent position when nothing was cut.
-/

namespace GapCode

open List

/-- Write the row from a position at distance `gap` behind the last absent one. -/
def encode : ℕ → List Bool → List UInt8
  | _, [] => []
  | gap, false :: row => UInt8.ofNat gap :: encode 1 row
  | gap, true :: row => if gap = 255 then 0 :: encode 1 row else encode (gap + 1) row

/-- Decide at most `count` positions from the code. `none` reports a missing filler byte. -/
def decode : ℕ → List UInt8 → ℕ → Option (List Bool)
  | _, _, 0 => some []
  | _, [], _ + 1 => some []
  | gap, byte :: code, count + 1 =>
    if gap = byte.toNat then
      (decode 1 code count).map (List.cons false)
    else if gap = 255 then
      if byte = 0 then (decode 1 code count).map (List.cons true) else none
    else
      (decode (gap + 1) (byte :: code) count).map (List.cons true)

variable {gap : ℕ}

/-- A distance fits its byte. -/
theorem toNat_gap (hgap : gap ≤ 255) : (UInt8.ofNat gap).toNat = gap := by
  rw [UInt8.toNat_ofNat', Nat.mod_eq_of_lt (by omega)]

/-- Without code nothing is decided. -/
theorem decode_nil (gap count : ℕ) : decode gap [] count = some [] := by
  cases count <;> rfl

/-- A code has at most one byte for each position. -/
theorem encode_length_le (gap : ℕ) (row : List Bool) : (encode gap row).length ≤ row.length := by
  induction row generalizing gap with
  | nil => simp [encode]
  | cons present row ih =>
    cases present with
    | false => simpa [encode] using ih 1
    | true =>
      simp only [encode]
      split
      · simpa using ih 1
      · exact (ih (gap + 1)).trans (by simp)

/-- The first byte of a code is a filler or at least the current distance. -/
theorem encode_head (hgap : 1 ≤ gap ∧ gap ≤ 255) {row : List Bool} {byte : UInt8} {code : List UInt8}
    (h : encode gap row = byte :: code) : byte = 0 ∨ gap ≤ byte.toNat := by
  induction row generalizing gap with
  | nil => simp [encode] at h
  | cons present row ih =>
    cases present with
    | false =>
      simp only [encode, List.cons.injEq] at h
      obtain ⟨rfl, -⟩ := h
      right
      rw [toNat_gap hgap.2]
    | true =>
      simp only [encode] at h
      split at h
      · left
        exact (List.cons.inj h).1.symm
      · rcases ih ⟨by omega, by omega⟩ h with hzero | hle
        · exact Or.inl hzero
        · right
          omega

/-- A byte of a later position is not consumed here: the position is decided as present. -/
theorem decode_skip (hgap : 1 ≤ gap ∧ gap < 255) {row : List Bool} {limit : ℕ} {byte : UInt8} {code : List UInt8}
    (hcode : (encode (gap + 1) row).take limit = byte :: code) (count : ℕ) :
    decode gap (byte :: code) (count + 1) =
      (decode (gap + 1) (byte :: code) count).map (List.cons true) := by
  obtain ⟨tail, htail⟩ : ∃ tail, encode (gap + 1) row = byte :: tail := by
    cases limit with
    | zero => simp at hcode
    | succ limit =>
      cases henc : encode (gap + 1) row with
      | nil => simp [henc] at hcode
      | cons first tail =>
        rw [henc, take_succ_cons] at hcode
        exact ⟨tail, by rw [(List.cons.inj hcode).1]⟩
  have hne : gap ≠ byte.toNat := by
    rcases encode_head ⟨by omega, by omega⟩ htail with rfl | hle
    · simp
      omega
    · omega
  simp only [decode, if_neg hne, if_neg (by omega : gap ≠ 255)]

/-- Decoding a code that may have been cut decides a prefix of the row and reports one absent
position for each byte that is not a filler. -/
theorem decode_encode_take (row : List Bool) (hgap : 1 ≤ gap ∧ gap ≤ 255) (limit : ℕ) {count : ℕ}
    (hcount : row.length ≤ count) :
    ∃ decided, decode gap ((encode gap row).take limit) count = some decided ∧
      decided <+: row ∧
      decided.count false = (((encode gap row).take limit).filter (· ≠ 0)).length := by
  induction row generalizing gap limit count with
  | nil => exact ⟨[], by simp [encode, decode_nil], prefix_rfl, by simp [encode]⟩
  | cons present row ih =>
    obtain ⟨count, rfl⟩ : ∃ k, count = k + 1 := ⟨count - 1, by simp at hcount; omega⟩
    have hrow : row.length ≤ count := by simpa using hcount
    cases present with
    | false =>
      cases limit with
      | zero => exact ⟨[], by simp [decode_nil], nil_prefix, by simp⟩
      | succ limit =>
        obtain ⟨decided, hdecode, hpre, hnum⟩ := ih ⟨le_refl 1, by omega⟩ limit hrow
        have hne : UInt8.ofNat gap ≠ 0 := fun hzero => by
          have := congrArg UInt8.toNat hzero
          rw [toNat_gap hgap.2] at this
          simp at this
          omega
        refine ⟨false :: decided, ?_, (prefix_cons_inj false).mpr hpre, ?_⟩
        · simp only [encode, take_succ_cons, decode, toNat_gap hgap.2, if_true, hdecode,
            Option.map_some]
        · simp [encode, hnum, hne]
    | true =>
      by_cases hfull : gap = 255
      · subst hfull
        cases limit with
        | zero => exact ⟨[], by simp [decode_nil], nil_prefix, by simp⟩
        | succ limit =>
          obtain ⟨decided, hdecode, hpre, hnum⟩ := ih ⟨le_refl 1, by omega⟩ limit hrow
          refine ⟨true :: decided, ?_, (prefix_cons_inj true).mpr hpre, ?_⟩
          · simp [encode, decode, hdecode]
          · simp [encode, hnum]
      · obtain ⟨decided, hdecode, hpre, hnum⟩ :=
          ih (show 1 ≤ gap + 1 ∧ gap + 1 ≤ 255 by omega) limit hrow
        simp only [encode, if_neg hfull]
        cases hcode : (encode (gap + 1) row).take limit with
        | nil => exact ⟨[], decode_nil _ _, nil_prefix, by simp⟩
        | cons byte code =>
          rw [hcode] at hdecode hnum
          refine ⟨true :: decided, ?_, (prefix_cons_inj true).mpr hpre, ?_⟩
          · rw [decode_skip ⟨hgap.1, by omega⟩ hcode, hdecode, Option.map_some]
          · simpa using hnum

/-- An uncut code decides every position up to the last absent one. -/
theorem decode_encode (row : List Bool) (hgap : 1 ≤ gap ∧ gap ≤ 255) {count : ℕ} (hcount : row.length ≤ count) :
    ∃ decided rest, decode gap (encode gap row) count = some decided ∧ row = decided ++ rest ∧
      false ∉ rest := by
  induction row generalizing gap count with
  | nil => exact ⟨[], [], by simp [encode, decode_nil], rfl, by simp⟩
  | cons present row ih =>
    obtain ⟨count, rfl⟩ : ∃ k, count = k + 1 := ⟨count - 1, by simp at hcount; omega⟩
    have hrow : row.length ≤ count := by simpa using hcount
    cases present with
    | false =>
      obtain ⟨decided, rest, hdecode, rfl, hrest⟩ := ih (show 1 ≤ 1 ∧ 1 ≤ 255 by omega) hrow
      exact ⟨false :: decided, rest, by simp [encode, decode, toNat_gap hgap.2, hdecode], rfl,
        hrest⟩
    | true =>
      by_cases hfull : gap = 255
      · subst hfull
        obtain ⟨decided, rest, hdecode, rfl, hrest⟩ := ih (show 1 ≤ 1 ∧ 1 ≤ 255 by omega) hrow
        exact ⟨true :: decided, rest, by simp [encode, decode, hdecode], rfl, hrest⟩
      · obtain ⟨decided, rest, hdecode, hsplit, hrest⟩ :=
          ih (show 1 ≤ gap + 1 ∧ gap + 1 ≤ 255 by omega) hrow
        simp only [encode, if_neg hfull]
        cases hcode : encode (gap + 1) row with
        | nil =>
          rw [hcode, decode_nil, Option.some.injEq] at hdecode
          subst hdecode
          exact ⟨[], true :: row, decode_nil _ _, rfl, by rw [hsplit]; simpa using hrest⟩
        | cons byte code =>
          have hcut : (encode (gap + 1) row).take (code.length + 1) = byte :: code := by
            rw [hcode, take_of_length_le (by simp)]
          rw [hcode] at hdecode
          refine ⟨true :: decided, rest, ?_, by rw [hsplit]; rfl, hrest⟩
          rw [decode_skip ⟨hgap.1, by omega⟩ hcut, hdecode, Option.map_some]

end GapCode
