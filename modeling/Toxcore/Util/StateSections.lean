import Toxcore.DHT.SavedState

/-!
# Sections of a saved state

`load_state` of `util.c` walks through the data with a pointer and a 32-bit counter of what is left. Every section has
its length, its type with a cookie, and a body that is handed to the callback.
-/

namespace Toxcore

open ByteStrings List

/-! ## The pointer and the counter -/

/-- `sizeof(uint32_t) * 2`. -/
def stateSizeHead : UInt32 := 8

/-- Some bytes at a pointer, or nothing where one of them is at or beyond the end of the data. -/
def bytesAt (data : Bytes) (pointer n : ℕ) : Option Bytes :=
  if pointer + n ≤ data.length then some ((data.drop pointer).take n) else none

/-- A head and a body that fit leave less. -/
theorem left_lt {length lengthSub : UInt32} (hhead : length ≥ stateSizeHead)
    (hfits : ¬length - stateSizeHead < lengthSub) :
    (length - stateSizeHead - lengthSub).toNat < length.toNat := by
  have hsize : stateSizeHead.toNat = 8 := rfl
  have hpos := UInt32.le_iff_toNat_le.mp hhead
  rw [UInt32.toNat_sub_of_le _ _ (UInt32.not_lt.mp hfits), UInt32.toNat_sub_of_le _ _ hhead]
  omega

/-- The length, and the type with the cookie, at a pointer. -/
def headAt (data : Bytes) (pointer : ℕ) : Option (UInt32 × UInt32) :=
  match bytesAt data pointer 4, bytesAt data (pointer + 4) 4 with
  | some lendianLength, some lendianCookieType =>
    some (lendianToHost32 lendianLength, lendianToHost32 lendianCookieType)
  | _, _ => none

/-- The loop of `load_state`, by the pointer and the counter, with the return value 0 as `true`. There is no result
where a byte at or beyond the end of the data is read, or handed to the callback. -/
def loadStateLoop {σ : Type*} (loadStateCallback : σ → Bytes → UInt16 → LoadStatus × σ) (cookieInner : UInt16)
    (data : Bytes) (outer : σ) (pointer : ℕ) (length : UInt32) : Option (Bool × σ) :=
  if _hhead : length ≥ stateSizeHead then
    match headAt data pointer with
    | none => none
    | some (lengthSub, cookieType) =>
      if _hfits : length - stateSizeHead < lengthSub then some (false, outer)
      else if (cookieType >>> 16).toUInt16 ≠ cookieInner then some (false, outer)
      else
        match bytesAt data (pointer + stateSizeHead.toNat) lengthSub.toNat with
        | none => none
        | some body =>
          match loadStateCallback outer body (cookieType &&& 0xFFFF).toUInt16 with
          | (.failed, outer) => some (false, outer)
          | (.ended, outer) => some (true, outer)
          | (.loaded, outer) => loadStateLoop loadStateCallback cookieInner data outer
              (pointer + stateSizeHead.toNat + lengthSub.toNat) (length - stateSizeHead - lengthSub)
  else some (length = 0, outer)
termination_by length.toNat
decreasing_by exact left_lt _hhead _hfits

/-! ## Sections -/

/-- A section: its type, and a body whose length has 32 bits. -/
structure StateSection where
  type : UInt16
  body : Bytes
  short : body.length < 2 ^ 32

/-- A section as it is saved with a cookie. -/
def StateSection.toBytes (cookieInner : UInt16) (entry : StateSection) : Bytes :=
  hostToLendian32 (UInt32.ofNat entry.body.length) ++
    (hostToLendian32 (cookieInner.toUInt32 <<< 16 ||| entry.type.toUInt32) ++ entry.body)

/-- A section at the front of some bytes, and what follows it. -/
def StateSection.read (cookieInner : UInt16) (bytes : Bytes) : Option (StateSection × Bytes) :=
  if 8 ≤ bytes.length then
    let lengthSub := (lendianToHost32 bytes).toNat
    let cookieType := lendianToHost32 (bytes.drop 4)
    if (bytes.drop 8).length < lengthSub then none
    else if (cookieType >>> 16).toUInt16 ≠ cookieInner then none
    else some (⟨(cookieType &&& 0xFFFF).toUInt16, (bytes.drop 8).take lengthSub,
      Nat.lt_of_le_of_lt (length_take_le _ _) (lendianToHost32 bytes).toNat_lt⟩, (bytes.drop 8).drop lengthSub)
  else none

namespace StateSection

variable {cookieInner : UInt16}

/-- A section is read back. -/
theorem read_toBytes (cookieInner : UInt16) (entry : StateSection) (rest : Bytes) :
    read cookieInner (entry.toBytes cookieInner ++ rest) = some (entry, rest) := by
  obtain ⟨type, body, hshort⟩ := entry
  obtain ⟨hcookie, htype⟩ := cookieType_split cookieInner type
  have hlen : (UInt32.ofNat body.length).toNat = body.length := UInt32.toNat_ofNat_of_lt' hshort
  have hbytes : toBytes cookieInner ⟨type, body, hshort⟩ ++ rest = hostToLendian32 (UInt32.ofNat body.length) ++
      (hostToLendian32 (cookieInner.toUInt32 <<< 16 ||| type.toUInt32) ++ (body ++ rest)) := by
    rw [toBytes, append_assoc, append_assoc]
  have hbody : (hostToLendian32 (UInt32.ofNat body.length) ++
      (hostToLendian32 (cookieInner.toUInt32 <<< 16 ||| type.toUInt32) ++ (body ++ rest))).drop 8 = body ++ rest := by
    rw [← append_assoc, drop_left' (by simp)]
  have hword : (hostToLendian32 (UInt32.ofNat body.length) ++
      (hostToLendian32 (cookieInner.toUInt32 <<< 16 ||| type.toUInt32) ++ (body ++ rest))).drop 4 =
        hostToLendian32 (cookieInner.toUInt32 <<< 16 ||| type.toUInt32) ++ (body ++ rest) :=
    drop_left' (hostToLendian32_length _)
  rw [hbytes, read, if_pos (by simp only [length_append, hostToLendian32_length]; omega)]
  simp only [hbody, hword, lendianToHost32_append, hlen, hcookie, htype, take_left, drop_left, length_append,
    Nat.not_lt.mpr (Nat.le_add_right _ _), if_false, ne_eq, not_true_eq_false]

/-- A word that was read is what stands there. -/
theorem hostToLendian32_read {bytes : Bytes} (h : 4 ≤ bytes.length) :
    hostToLendian32 (lendianToHost32 bytes) = bytes.take 4 := by
  have hslice : (slice 4 bytes 0).toList = bytes.take 4 := by
    rw [slice_toList (by omega), drop_zero]
  have hlength : (bytes.take 4).reverse.length = 4 := by
    rw [length_reverse, length_take]
    omega
  have hlt := beNat_lt (bytes.take 4).reverse
  rw [hlength] at hlt
  have hback := beBytes_beNat (bytes.take 4).reverse
  rw [hlength] at hback
  rw [lendianToHost32, hslice, hostToLendian32, UInt32.toNat_ofNat_of_lt' hlt, hback, reverse_reverse]

/-- A cookie and a type make the word that they were read from. -/
theorem cookieType_join (word : UInt32) :
    (word >>> 16).toUInt16.toUInt32 <<< 16 ||| (word &&& 0xFFFF).toUInt16.toUInt32 = word := by
  have hword := word.toNat_lt
  apply UInt32.toNat_inj.mp
  rw [UInt32.toNat_or, UInt32.toNat_shiftLeft, UInt16.toNat_toUInt32, UInt16.toNat_toUInt32, UInt32.toNat_toUInt16,
    UInt32.toNat_toUInt16, UInt32.toNat_shiftRight, UInt32.toNat_and, show (16 : UInt32).toNat % 32 = 16 from rfl,
    show (0xFFFF : UInt32).toNat = 2 ^ 16 - 1 from rfl, Nat.and_two_pow_sub_one_eq_mod, Nat.shiftRight_eq_div_pow,
    Nat.shiftLeft_eq, Nat.mod_eq_of_lt (a := word.toNat / 2 ^ 16) (by omega), Nat.mod_mod, Nat.mod_eq_of_lt (by omega),
    Nat.mul_comm, ← Nat.two_pow_add_eq_or_of_lt (Nat.mod_lt _ (by decide))]
  omega

/-- What was read is what stands there. -/
theorem toBytes_read {bytes rest : Bytes} {entry : StateSection} (h : read cookieInner bytes = some (entry, rest)) :
    entry.toBytes cookieInner ++ rest = bytes := by
  unfold read at h
  split at h
  · rename_i hlong
    dsimp only at h
    split at h
    · contradiction
    · rename_i hfits
      split at h
      · contradiction
      · rename_i hcookie
        obtain ⟨rfl, rfl⟩ := Prod.mk.inj (Option.some_inj.mp h)
        have hlength : ((bytes.drop 8).take (lendianToHost32 bytes).toNat).length = (lendianToHost32 bytes).toNat :=
          length_take_of_le (Nat.not_lt.mp hfits)
        have hword := cookieType_join (lendianToHost32 (bytes.drop 4))
        rw [not_ne_iff.mp hcookie] at hword
        have hsecond : 4 ≤ (bytes.drop 4).length := by
          rw [length_drop]
          omega
        have hdrop : (bytes.drop 4).drop 4 = bytes.drop 8 := by rw [drop_drop]
        rw [toBytes]
        dsimp only
        rw [hlength, UInt32.ofNat_toNat, hword, hostToLendian32_read (by omega), hostToLendian32_read hsecond,
          append_assoc, append_assoc, take_append_drop, ← hdrop, take_append_drop,
          take_append_drop]
  · contradiction

/-- Sections with a cookie are a format of entries. -/
def format (cookieInner : UInt16) : EntryFormat StateSection UInt8 where
  write := toBytes cookieInner
  read := read cookieInner
  Permitted _ := True
  read_write _ rest := read_toBytes cookieInner _ rest
  write_read h := ⟨toBytes_read h, trivial⟩
  write_ne_nil entry hnil := by
    have hlength := congrArg List.length hnil
    simp [toBytes] at hlength

end StateSection

/-! ## Loading -/

section Loading

variable {σ : Type*} (loadStateCallback : σ → Bytes → UInt16 → LoadStatus × σ) (cookieInner : UInt16)

/-- The callback is called for one section after the other, until it fails or asks to stop. -/
def callSections : σ → List StateSection → LoadStatus × σ
  | outer, [] => (.loaded, outer)
  | outer, entry :: entries =>
    match loadStateCallback outer entry.body entry.type with
    | (.failed, outer) => (.failed, outer)
    | (.ended, outer) => (.ended, outer)
    | (.loaded, outer) => callSections outer entries

/-- The first section is loaded, unless the data does not start with one. -/
theorem loadState_read (outer : σ) (data : Bytes) : loadState loadStateCallback cookieInner outer data =
    match StateSection.read cookieInner data with
    | none => (data.isEmpty, outer)
    | some (entry, rest) =>
      match loadStateCallback outer entry.body entry.type with
      | (.failed, outer) => (false, outer)
      | (.ended, outer) => (true, outer)
      | (.loaded, outer) => loadState loadStateCallback cookieInner outer rest := by
  cases hread : StateSection.read cookieInner data with
  | none =>
    unfold StateSection.read at hread
    split at hread
    · rename_i hlong
      have hnonempty : data.isEmpty = false := by
        rw [isEmpty_eq_false_iff, ← length_pos_iff]
        omega
      dsimp only at hread ⊢
      rw [loadState, if_pos hlong, hnonempty]
      dsimp only
      split at hread
      · rename_i hshort
        rw [if_pos hshort]
      · rename_i hfits
        split at hread
        · rename_i hcookie
          rw [if_neg hfits, if_pos hcookie]
        · contradiction
    · rename_i hshort
      rw [loadState, if_neg hshort]
  | some found =>
    unfold StateSection.read at hread
    split at hread
    · rename_i hlong
      dsimp only at hread ⊢
      split at hread
      · contradiction
      · rename_i hfits
        split at hread
        · contradiction
        · rename_i hcookie
          rw [loadState, if_pos hlong]
          dsimp only
          rw [if_neg hfits, if_neg hcookie]
          obtain rfl := Option.some_inj.mp hread
          rfl
    · contradiction

/-- Loading calls the callback for the sections at the start of the data. -/
theorem loadState_sections (entries : List StateSection) {rest : Bytes}
    (hrest : StateSection.read cookieInner rest = none) (outer : σ) :
      loadState loadStateCallback cookieInner outer ((StateSection.format cookieInner).writeMany entries ++ rest) =
      match callSections loadStateCallback outer entries with
      | (.failed, outer) => (false, outer)
      | (.ended, outer) => (true, outer)
      | (.loaded, outer) => (rest.isEmpty, outer) := by
  induction entries generalizing outer with
  | nil =>
    rw [EntryFormat.writeMany, flatMap_nil, nil_append, loadState_read, hrest]
    rfl
  | cons entry entries ih =>
    have hread :=
      StateSection.read_toBytes cookieInner entry ((StateSection.format cookieInner).writeMany entries ++ rest)
    have hfirst : (StateSection.format cookieInner).writeMany (entry :: entries) ++ rest =
        entry.toBytes cookieInner ++ ((StateSection.format cookieInner).writeMany entries ++ rest) := by
      rw [EntryFormat.writeMany, flatMap_cons, append_assoc]
      rfl
    rw [hfirst, loadState_read, hread, callSections]
    dsimp only
    rcases loadStateCallback outer entry.body entry.type with ⟨_ | _ | _, outer⟩
    · rfl
    · rfl
    · exact ih outer

/-- A word is in the first four bytes. -/
theorem lendianToHost32_take (bytes : Bytes) : lendianToHost32 (bytes.take 4) = lendianToHost32 bytes := by
  have hslice : slice 4 (bytes.take 4) 0 = slice 4 bytes 0 := by
    apply List.Vector.ext
    intro i
    rw [slice, slice, List.Vector.get_ofFn, List.Vector.get_ofFn, Nat.zero_add, getD_eq_getElem?_getD,
      getD_eq_getElem?_getD, getElem?_take_of_lt i.isLt]
  rw [lendianToHost32, lendianToHost32, hslice]

/-- The head at a pointer is the head of what is behind the pointer. -/
theorem headAt_eq {data : Bytes} {pointer : ℕ} (h : pointer + 8 ≤ data.length) : headAt data pointer =
    some (lendianToHost32 (data.drop pointer), lendianToHost32 ((data.drop pointer).drop 4)) := by
  have hlength : bytesAt data pointer 4 = some ((data.drop pointer).take 4) := if_pos (by omega)
  have htype : bytesAt data (pointer + 4) 4 = some (((data.drop pointer).drop 4).take 4) := by
    rw [drop_drop]
    exact if_pos (by omega)
  rw [headAt, hlength, htype]
  dsimp only
  rw [lendianToHost32_take, lendianToHost32_take]

/-- The loop reads no byte at or beyond the end of the data, and loads what is behind its pointer. -/
theorem loadStateLoop_eq (data : Bytes) (outer : σ) (pointer : ℕ) (length : UInt32)
    (hlength : pointer + length.toNat = data.length) :
    loadStateLoop loadStateCallback cookieInner data outer pointer length =
      some (loadState loadStateCallback cookieInner outer (data.drop pointer)) := by
  induction hn : length.toNat using Nat.strong_induction_on generalizing outer pointer length with
  | _ n ih =>
    subst hn
    have hsize : stateSizeHead.toNat = 8 := rfl
    have hleft : (data.drop pointer).length = length.toNat := by
      rw [length_drop]
      omega
    have hhead : length ≥ stateSizeHead ↔ 8 ≤ (data.drop pointer).length := by
      rw [hleft]
      exact UInt32.le_iff_toNat_le
    rw [loadStateLoop, loadState]
    by_cases hlong : length ≥ stateSizeHead
    · have hlong' := hhead.mp hlong
      rw [dif_pos hlong, if_pos hlong', headAt_eq (by omega)]
      generalize lendianToHost32 (data.drop pointer) = lengthSub
      generalize lendianToHost32 ((data.drop pointer).drop 4) = cookieType
      dsimp only
      have hafter := UInt32.toNat_sub_of_le _ _ hlong
      have hbody : (data.drop pointer).drop 8 = data.drop (pointer + stateSizeHead.toNat) := drop_drop
      have hbodyLength : (data.drop (pointer + stateSizeHead.toNat)).length = (length - stateSizeHead).toNat := by
        rw [length_drop]
        omega
      have hfits : length - stateSizeHead < lengthSub ↔
          (data.drop (pointer + stateSizeHead.toNat)).length < lengthSub.toNat := by
        rw [hbodyLength]
        exact UInt32.lt_iff_toNat_lt
      rw [hbody]
      by_cases hshort : length - stateSizeHead < lengthSub
      · rw [dif_pos hshort, if_pos (hfits.mp hshort)]
      · have hroom := Nat.not_lt.mp (hfits.not.mp hshort)
        have hrest := UInt32.toNat_sub_of_le _ _ (UInt32.not_lt.mp hshort)
        rw [hbodyLength] at hroom
        rw [dif_neg hshort, if_neg (hfits.not.mp hshort)]
        by_cases hcookie : (cookieType >>> 16).toUInt16 ≠ cookieInner
        · rw [if_pos hcookie, if_pos hcookie]
        · have hbytes : bytesAt data (pointer + stateSizeHead.toNat) lengthSub.toNat =
              some ((data.drop (pointer + stateSizeHead.toNat)).take lengthSub.toNat) := if_pos (by omega)
          rw [if_neg hcookie, if_neg hcookie, hbytes]
          dsimp only
          rcases loadStateCallback outer ((data.drop (pointer + stateSizeHead.toNat)).take lengthSub.toNat)
            (cookieType &&& 0xFFFF).toUInt16 with ⟨_ | _ | _, outer⟩
          · rfl
          · rfl
          · dsimp only
            rw [ih _ (by omega) outer _ _ (by omega) rfl, drop_drop]
    · have hempty : decide (length = 0) = (data.drop pointer).isEmpty := by
        rw [Bool.eq_iff_iff, decide_eq_true_iff, isEmpty_iff_length_eq_zero, hleft]
        exact UInt32.toNat_inj.symm
      rw [dif_neg hlong, if_neg (hhead.not.mp hlong), hempty]

/-- Some data starts with as many sections as possible. -/
theorem exists_sections (data : Bytes) :
    ∃ entries rest, (StateSection.format cookieInner).writeMany entries ++ rest = data ∧
    StateSection.read cookieInner rest = none := by
  induction hn : data.length using Nat.strong_induction_on generalizing data with
  | _ n ih =>
    subst hn
    cases hread : StateSection.read cookieInner data with
    | none => exact ⟨[], data, rfl, hread⟩
    | some found =>
      obtain ⟨entry, tail⟩ := found
      have hdata := StateSection.toBytes_read hread
      have hshorter : tail.length < data.length := by
        rw [← hdata, length_append, Nat.lt_add_left_iff_pos]
        exact length_pos_iff.mpr ((StateSection.format cookieInner).write_ne_nil entry)
      obtain ⟨entries, rest, htail, hrest⟩ := ih _ hshorter tail rfl
      refine ⟨entry :: entries, rest, ?_, hrest⟩
      rw [← hdata, ← htail, EntryFormat.writeMany, flatMap_cons, append_assoc]
      rfl

variable {cookieInner} in
/-- Where sections and a rest that starts with none are sections altogether, the rest is empty. -/
theorem rest_eq_nil {entries entries' : List StateSection} {rest : Bytes}
    (hrest : StateSection.read cookieInner rest = none)
    (h : (StateSection.format cookieInner).writeMany entries ++ rest =
      (StateSection.format cookieInner).writeMany entries') :
    rest = [] := by
  induction entries generalizing entries' with
  | nil =>
    cases entries' with
    | nil => exact h
    | cons entry entries' =>
      have hread := StateSection.read_toBytes cookieInner entry ((StateSection.format cookieInner).writeMany entries')
      change rest = entry.toBytes cookieInner ++ (StateSection.format cookieInner).writeMany entries' at h
      rw [← h, hrest] at hread
      contradiction
  | cons entry entries ih =>
    have hread :=
      StateSection.read_toBytes cookieInner entry ((StateSection.format cookieInner).writeMany entries ++ rest)
    change entry.toBytes cookieInner ++ (StateSection.format cookieInner).writeMany entries ++ rest = _ at h
    rw [append_assoc] at h
    rw [h] at hread
    cases entries' with
    | nil =>
      have hnil := append_eq_nil_iff.mp h
      exact absurd hnil.1 ((StateSection.format cookieInner).write_ne_nil entry)
    | cons entry' entries' =>
      have hread' := StateSection.read_toBytes cookieInner entry' ((StateSection.format cookieInner).writeMany entries')
      rw [show (StateSection.format cookieInner).writeMany (entry' :: entries') = entry'.toBytes cookieInner ++
        (StateSection.format cookieInner).writeMany entries' from rfl, hread', Option.some_inj, Prod.mk.injEq] at hread
      exact ih hread.2.symm

/-- `load_state` reads no byte at or beyond the length, and calls the callback for the sections at the start of the
data, as many as there are, one after the other, until it fails or asks to stop. It returns 0 exactly where it did not
fail and either asked to stop or the data consists of sections. -/
theorem loadStateLoop_calls_sections (outer : σ) (data : Bytes) (hlength : data.length < 2 ^ 32) :
    ∃ entries rest, (StateSection.format cookieInner).writeMany entries ++ rest = data ∧
      (¬∃ (entry : StateSection) (rest' : Bytes), entry.toBytes cookieInner ++ rest' = rest) ∧
      ∃ ret, loadStateLoop loadStateCallback cookieInner data outer 0 (UInt32.ofNat data.length) =
          some (ret, (callSections loadStateCallback outer entries).2) ∧
        (ret = true ↔ (callSections loadStateCallback outer entries).1 ≠ .failed ∧
          ((callSections loadStateCallback outer entries).1 = .ended ∨
            ∃ entries', (StateSection.format cookieInner).writeMany entries' = data)) := by
  obtain ⟨entries, rest, hdata, hrest⟩ := exists_sections cookieInner data
  have hloop := loadStateLoop_eq loadStateCallback cookieInner data outer 0 (UInt32.ofNat data.length)
    (by rw [Nat.zero_add, UInt32.toNat_ofNat_of_lt' hlength])
  have hload := loadState_sections loadStateCallback cookieInner entries hrest outer
  rw [hdata] at hload
  rw [drop_zero, hload] at hloop
  refine ⟨entries, rest, hdata, ?_, ?_⟩
  · rintro ⟨entry, rest', rfl⟩
    rw [StateSection.read_toBytes] at hrest
    contradiction
  · rcases hcalls : callSections loadStateCallback outer entries with ⟨_ | _ | _, outer'⟩
    · rw [hcalls] at hloop
      exact ⟨false, hloop, nofun, fun h => absurd rfl h.1⟩
    · rw [hcalls] at hloop
      exact ⟨true, hloop, fun _ => ⟨nofun, .inl rfl⟩, fun _ => rfl⟩
    · rw [hcalls] at hloop
      refine ⟨rest.isEmpty, hloop, fun hempty => ⟨nofun, .inr ⟨entries, ?_⟩⟩, ?_⟩
      · rw [← hdata, List.isEmpty_iff.mp hempty, append_nil]
      · rintro ⟨-, hended | ⟨entries', hall⟩⟩
        · contradiction
        · exact List.isEmpty_iff.mpr (rest_eq_nil hrest (hdata.trans hall.symm))

/-- A section with three bytes, one with two, and three bytes that are no section. -/
def twoSections : Bytes := [3, 0, 0, 0, 1, 0, 7, 0, 10, 11, 12, 2, 0, 0, 0, 5, 0, 7, 0, 20, 21, 9, 9, 9]

/-- A callback that notes its calls. -/
def noteCall (calls : List (Bytes × UInt16)) (body : Bytes) (type : UInt16) : LoadStatus × List (Bytes × UInt16) :=
  (.loaded, calls ++ [(body, type)])

/-- The callback is called for both sections, and then the three bytes are refused. -/
theorem loadStateLoop_calls_sections_two :
    loadStateLoop noteCall 7 twoSections [] 0 24 = some (false, [([10, 11, 12], 1), ([20, 21], 5)]) ∧
      ∃ entries rest, (StateSection.format 7).writeMany entries ++ rest = twoSections ∧
        (¬∃ (entry : StateSection) (rest' : Bytes), entry.toBytes 7 ++ rest' = rest) ∧
        ∃ ret, loadStateLoop noteCall 7 twoSections [] 0 24 = some (ret, (callSections noteCall [] entries).2) ∧
          (ret = true ↔ (callSections noteCall [] entries).1 ≠ .failed ∧
            ((callSections noteCall [] entries).1 = .ended ∨
              ∃ entries', (StateSection.format 7).writeMany entries' = twoSections)) := by
  refine ⟨?_, loadStateLoop_calls_sections noteCall 7 [] twoSections (by decide)⟩
  decide +kernel

end Loading

end Toxcore
