import Mathlib.Data.List.Basic

/-!
# Sequences of self-delimiting entries

A format says how an entry is written and how one is read from the front of a string. Entries are read until a limit
or the end of the string is reached; the string then is the written entries and what was not read, and reading fails
exactly where a rest that is not empty does not start with an entry.
-/

/-- A format of entries: reading undoes writing whatever follows, and what was read is what stands there. Only some
entries may be permitted. -/
structure EntryFormat (α β : Type*) where
  write : α → List β
  read : List β → Option (α × List β)
  Permitted : α → Prop
  read_write : ∀ {entry}, Permitted entry → ∀ rest, read (write entry ++ rest) = some (entry, rest)
  write_read : ∀ {bytes entry rest}, read bytes = some (entry, rest) → write entry ++ rest = bytes ∧ Permitted entry
  write_ne_nil : ∀ entry, write entry ≠ []

namespace EntryFormat

open List

variable {α β : Type*} (format : EntryFormat α β)

/-- Read entries until a limit or the end of the string is reached: the entries and the rest. -/
def readMany : ℕ → List β → Option (List α × List β)
  | 0, bytes => some ([], bytes)
  | _ + 1, [] => some ([], [])
  | limit + 1, byte :: bytes =>
    match format.read (byte :: bytes) with
    | none => none
    | some (entry, rest) => (readMany limit rest).map fun (entries, rest) => (entry :: entries, rest)

/-- The written entries. -/
def writeMany (entries : List α) : List β := entries.flatMap format.write

variable {bytes : List β} {limit : ℕ}

/-- A string starts with no permitted entry where none is read. -/
theorem read_eq_none_iff :
    format.read bytes = none ↔ ¬∃ entry rest, format.Permitted entry ∧ format.write entry ++ rest = bytes := by
  constructor
  · rintro hnone ⟨entry, rest, hentry, rfl⟩
    rw [format.read_write hentry rest] at hnone
    exact absurd hnone (by simp)
  · intro h
    cases hread : format.read bytes with
    | none => rfl
    | some result =>
      obtain ⟨hwritten, hentry⟩ := format.write_read hread
      exact absurd ⟨result.1, result.2, hentry, hwritten⟩ h

/-- One more entry is read. -/
theorem readMany_succ {limit : ℕ} {bytes rest : List β} {entry : α} (h : format.read bytes = some (entry, rest)) :
    format.readMany (limit + 1) bytes =
      (format.readMany limit rest).map fun (entries, rest) => (entry :: entries, rest) := by
  cases bytes with
  | nil =>
    have hnil := (format.write_read h).1
    exact absurd (append_eq_nil_iff.mp hnil).1 (format.write_ne_nil entry)
  | cons byte bytes => rw [readMany, h]

/-- Entries within the limit are read back. -/
theorem readMany_writeMany (entries : List α) (hok : ∀ entry ∈ entries, format.Permitted entry)
    (hlimit : entries.length ≤ limit) : format.readMany limit (format.writeMany entries) = some (entries, []) := by
  induction entries generalizing limit with
  | nil => cases limit <;> rfl
  | cons entry entries ih =>
    obtain ⟨hentry, hentries⟩ := forall_mem_cons.mp hok
    obtain ⟨limit, rfl⟩ : ∃ limit', limit = limit' + 1 := ⟨limit - 1, by simp at hlimit; omega⟩
    have hread := format.read_write hentry (format.writeMany entries)
    rw [writeMany, flatMap_cons, ← writeMany, format.readMany_succ hread,
      ih hentries (Nat.le_of_succ_le_succ hlimit)]
    rfl

/-- What was read is what stands there, and reading stops at the limit or at the end. -/
theorem writeMany_readMany {rest : List β} {entries : List α} (h : format.readMany limit bytes = some (entries, rest)) :
    format.writeMany entries ++ rest = bytes ∧ (∀ entry ∈ entries, format.Permitted entry) ∧
      entries.length ≤ limit ∧ (rest ≠ [] → entries.length = limit) := by
  induction limit generalizing bytes entries with
  | zero =>
    simp only [readMany, Option.some.injEq, Prod.mk.injEq] at h
    obtain ⟨rfl, rfl⟩ := h
    simp [writeMany]
  | succ limit ih =>
    cases bytes with
    | nil =>
      simp only [readMany, Option.some.injEq, Prod.mk.injEq] at h
      obtain ⟨rfl, rfl⟩ := h
      simp [writeMany]
    | cons byte bytes =>
      cases hread : format.read (byte :: bytes) with
      | none => simp [readMany, hread] at h
      | some result =>
        obtain ⟨entry, tail⟩ := result
        rw [format.readMany_succ hread, Option.map_eq_some_iff] at h
        obtain ⟨⟨more, rest'⟩, hmany, hresult⟩ := h
        obtain ⟨rfl, rfl⟩ := Prod.mk.injEq .. ▸ hresult
        obtain ⟨hwritten, hpermitted, hlength, hstop⟩ := ih hmany
        obtain ⟨hfront, hentry⟩ := format.write_read hread
        refine ⟨?_, forall_mem_cons.mpr ⟨hentry, hpermitted⟩, Nat.succ_le_succ hlength, ?_⟩
        · rw [writeMany, flatMap_cons, ← writeMany, append_assoc, hwritten, hfront]
        · exact fun hrest => congrArg (· + 1) (hstop hrest)

/-- Reading fails exactly where, with the limit not reached, a rest that is not empty does not start with an entry. -/
theorem readMany_eq_none_iff :
    format.readMany limit bytes = none ↔ ∃ entries rest, format.writeMany entries ++ rest = bytes ∧
      (∀ entry ∈ entries, format.Permitted entry) ∧ entries.length < limit ∧ rest ≠ [] ∧ format.read rest = none := by
  constructor
  · intro h
    induction limit generalizing bytes with
    | zero => simp [readMany] at h
    | succ limit ih =>
      cases bytes with
      | nil => simp [readMany] at h
      | cons byte bytes =>
        cases hread : format.read (byte :: bytes) with
        | none => exact ⟨[], byte :: bytes, rfl, by simp, Nat.succ_pos limit, by simp, hread⟩
        | some result =>
          obtain ⟨entry, tail⟩ := result
          rw [format.readMany_succ hread, Option.map_eq_none_iff] at h
          obtain ⟨entries, rest, hwritten, hpermitted, hlength, hrest, hnone⟩ := ih h
          obtain ⟨hfront, hentry⟩ := format.write_read hread
          refine ⟨entry :: entries, rest, ?_, forall_mem_cons.mpr ⟨hentry, hpermitted⟩,
            Nat.succ_lt_succ hlength, hrest, hnone⟩
          rw [writeMany, flatMap_cons, ← writeMany, append_assoc, hwritten, hfront]
  · rintro ⟨entries, rest, rfl, hpermitted, hlength, hrest, hnone⟩
    induction entries generalizing limit with
    | nil =>
      obtain ⟨byte, rest, rfl⟩ := exists_cons_of_ne_nil hrest
      obtain ⟨limit, rfl⟩ : ∃ limit', limit = limit' + 1 := ⟨limit - 1, by simp at hlength; omega⟩
      change format.readMany (limit + 1) (byte :: rest) = none
      rw [readMany, hnone]
    | cons entry entries ih =>
      obtain ⟨hentry, hentries⟩ := forall_mem_cons.mp hpermitted
      obtain ⟨limit, rfl⟩ : ∃ limit', limit = limit' + 1 := ⟨limit - 1, by simp at hlength; omega⟩
      have hread := format.read_write hentry (format.writeMany entries ++ rest)
      rw [writeMany, flatMap_cons, ← writeMany, append_assoc, format.readMany_succ hread,
        ih hentries (Nat.lt_of_succ_lt_succ hlength)]
      rfl

end EntryFormat
