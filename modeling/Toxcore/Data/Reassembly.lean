import Mathlib.Data.Finset.Card
import Mathlib.Order.Interval.Finset.Nat

/-!
# Putting parts of a list together

A list is cut into parts, and the parts are written into a buffer of its length in any order. The positions filled so
far are a finite set. When as many positions are filled as the list is long, the buffer is the list.
-/

namespace Reassembly

open List

variable {α : Type*}

/-- Write a part into a buffer. -/
def put (buffer : List α) (offset : ℕ) (part : List α) : List α :=
  buffer.take offset ++ (part ++ buffer.drop (offset + part.length))

/-- A part of a list, at an offset. -/
structure IsPart (data : List α) (offset : ℕ) (part : List α) : Prop where
  inside : offset + part.length ≤ data.length
  bytes : part = (data.drop offset).take part.length

/-- The positions of a part. -/
def positions (offset : ℕ) (part : List α) : Finset ℕ := Finset.Ico offset (offset + part.length)

variable {offset : ℕ} {part : List α}

@[simp] theorem card_positions (offset : ℕ) (part : List α) : (positions offset part).card = part.length := by
  rw [positions, Nat.card_Ico, Nat.add_sub_cancel_left]

theorem mem_positions {i : ℕ} :
    i ∈ positions offset part ↔ offset ≤ i ∧ i < offset + part.length := Finset.mem_Ico

/-- A part that is as long as the list is the list. -/
theorem IsPart.eq_of_length {data : List α} (h : IsPart data offset part) (hlength : part.length = data.length) :
    part = data := by
  have hinside := h.inside
  have hzero : offset = 0 := by omega
  rw [h.bytes, hzero, hlength, drop_zero, take_length]

/-- The elements of a part are those of the list. -/
theorem IsPart.getElem? {data : List α} {i : ℕ} (h : IsPart data offset part) (hi : i < part.length) :
    part[i]? = data[offset + i]? := by
  rw [h.bytes, getElem?_take_of_lt hi, getElem?_drop]

/-- A part that fits leaves the length of the buffer. -/
theorem length_put {buffer : List α} (h : offset + part.length ≤ buffer.length) :
    (put buffer offset part).length = buffer.length := by
  simp only [put, length_append, length_take, length_drop]
  omega

/-- What is written is read back, and the rest of the buffer stays. -/
theorem getElem?_put {buffer : List α} (h : offset + part.length ≤ buffer.length) (i : ℕ) :
    (put buffer offset part)[i]? = if i ∈ positions offset part then part[i - offset]? else buffer[i]? := by
  have htake : (buffer.take offset).length = offset := by
    rw [length_take]
    omega
  rw [put]
  rcases Nat.lt_or_ge i offset with hbefore | hfrom
  · rw [if_neg fun hmem => absurd (mem_positions.mp hmem).1 (Nat.not_le.mpr hbefore),
      getElem?_append_left (by omega), getElem?_take_of_lt hbefore]
  · rw [getElem?_append_right (by omega), htake]
    rcases Nat.lt_or_ge i (offset + part.length) with hinside | hbehind
    · rw [if_pos (mem_positions.mpr ⟨hfrom, hinside⟩), getElem?_append_left (by omega)]
    · rw [if_neg fun hmem => absurd (mem_positions.mp hmem).2 (Nat.not_lt.mpr hbehind),
        getElem?_append_right (by omega), getElem?_drop]
      congr 1
      omega

/-- A buffer for a list, with the elements of the list at the filled positions. -/
structure Fills (data buffer : List α) (filled : Finset ℕ) : Prop where
  length : buffer.length = data.length
  elements : ∀ i ∈ filled, i < data.length ∧ buffer[i]? = data[i]?

namespace Fills

variable {data buffer part : List α} {filled : Finset ℕ} {offset : ℕ}

theorem empty (h : buffer.length = data.length) : Fills data buffer ∅ :=
  ⟨h, fun i hi => absurd hi (Finset.notMem_empty i)⟩

/-- No more positions are filled than there are. -/
theorem card_le (h : Fills data buffer filled) : filled.card ≤ data.length := by
  rw [← Finset.card_range data.length]
  exact Finset.card_le_card fun i hi => Finset.mem_range.mpr (h.elements i hi).1

/-- Writing a part of the list fills its positions. -/
theorem put (h : Fills data buffer filled) (hpart : IsPart data offset part) :
    Fills data (put buffer offset part) (filled ∪ positions offset part) := by
  have hroom : offset + part.length ≤ buffer.length := h.length ▸ hpart.inside
  refine ⟨(length_put hroom).trans h.length, fun i hi => ?_⟩
  rw [getElem?_put hroom]
  by_cases hmem : i ∈ positions offset part
  · have hbounds := mem_positions.mp hmem
    have hinside := hpart.inside
    rw [if_pos hmem, hpart.getElem? (by omega), Nat.add_sub_cancel' hbounds.1]
    exact ⟨by omega, rfl⟩
  · rw [if_neg hmem]
    exact h.elements i ((Finset.mem_union.mp hi).resolve_right hmem)

/-- A buffer in which every position is filled is the list. -/
theorem eq_of_card (h : Fills data buffer filled) (hcard : filled.card = data.length) : buffer = data := by
  have hall : filled = Finset.range data.length := by
    apply Finset.eq_of_subset_of_card_le fun i hi => Finset.mem_range.mpr (h.elements i hi).1
    rw [Finset.card_range, hcard]
  apply ext_getElem?
  intro i
  rcases Nat.lt_or_ge i data.length with hi | hi
  · exact (h.elements i (hall ▸ Finset.mem_range.mpr hi)).2
  · rw [getElem?_eq_none hi, getElem?_eq_none (h.length ▸ hi)]

end Fills

end Reassembly
