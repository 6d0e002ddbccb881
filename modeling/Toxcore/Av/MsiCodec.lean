import Toxcore.Av.Msi

/-!
# The codec of call signalling

`msg_parse_in` moves a pointer over the bytes of a packet and counts down what is left of them in its macros. The
count and the pointer stay together, so the pointer never passes the end, and what is accepted is a list of headers
before a zero byte.
-/

namespace Toxcore

open ByteStrings List Option

namespace MsiMessage

/-- The loop of `msg_parse_in` with its pointer and `size_constraint`. There is no outcome where a byte at `length` or
behind it is read, and the outcome is a message unless the function returns -1. -/
def parseFrom (data : Bytes) (it : ℕ) (sizeConstraint : ℤ) (dest : MsiMessage) : Option (Option MsiMessage) :=
  match data[it]? with
  | none => none
  | some id =>
    if id = 0 then some (some dest)
    else if id = idRequest ∨ id = idError ∨ id = idCapabilities then
      if sizeConstraint - (2 + 1) < 1 then some none
      else
        match data[it + 1]? with
        | none => none
        | some size =>
          if size ≠ 1 then some none
          else
            match data[it + 2]? with
            | none => none
            | some value =>
              match dest.store id value with
              | none => some none
              | some dest => parseFrom data (it + 3) (sizeConstraint - (2 + 1)) dest
    else some none
termination_by sizeConstraint.toNat

/-- `msg_parse_in` with its reads. -/
def parseReads (data : Bytes) : Option (Option MsiMessage) :=
  if data.length = 0 then some none
  else
    match data[data.length - 1]? with
    | none => none
    | some last =>
      if last ≠ 0 then some none
      else
        (parseFrom data 0 data.length ⟨none, none, none⟩).map fun outcome =>
          outcome.bind fun dest => if dest.request = none then none else some dest

variable {dest : MsiMessage} {id value : UInt8} {headers : List (UInt8 × UInt8)}

/-- A header that is not known is not stored. -/
theorem store_unknown (hid : ¬(id = idRequest ∨ id = idError ∨ id = idCapabilities)) (value : UInt8) :
    dest.store id value = none := by
  obtain ⟨hrequest, hothers⟩ := not_or.mp hid
  obtain ⟨herror, hcapabilities⟩ := not_or.mp hothers
  rw [store, if_neg hrequest, if_neg herror, if_neg hcapabilities]

/-- A zero byte ends the loop. -/
theorem parseLoop_zero (rest : Bytes) (dest : MsiMessage) : parseLoop (0 :: rest) dest = some dest := by
  match rest with
  | [] => rfl
  | [_] => rfl
  | _ :: _ :: _ => rfl

/-- A header needs three bytes and another one. -/
theorem parseLoop_short (hid : id ≠ 0) {rest : Bytes} (hrest : rest.length < 3) (dest : MsiMessage) :
    parseLoop (id :: rest) dest = none := by
  match rest, hrest with
  | [], _ => exact if_neg hid
  | [_], _ => exact if_neg hid
  | [size, value], _ =>
    rw [parseLoop, if_neg hid]
    exact if_pos (.inl Nat.zero_lt_one)

/-- The pointer and `size_constraint` stay together, so nothing behind the end is read. -/
theorem parseFrom_eq (before rest : Bytes) (dest : MsiMessage) (hrest : rest ≠ []) :
    parseFrom (before ++ rest) before.length rest.length dest = some (parseLoop rest dest) := by
  induction hlength : rest.length using Nat.strong_induction_on generalizing before rest dest with
  | _ length ih =>
    subst hlength
    have hread (i : ℕ) : (before ++ rest)[before.length + i]? = rest[i]? := by
      rw [getElem?_append_right (Nat.le_add_right _ _), Nat.add_sub_cancel_left]
    cases rest with
    | nil => exact absurd rfl hrest
    | cons id rest =>
      have hfirst := hread 0
      rw [Nat.add_zero] at hfirst
      rw [parseFrom, hfirst]
      dsimp only [getElem?_cons_zero]
      by_cases hid : id = 0
      · subst hid
        rw [if_pos rfl, parseLoop_zero]
      · rw [if_neg hid]
        by_cases hshort : rest.length < 3
        · have hconstraint : ((id :: rest).length : ℤ) - (2 + 1) < 1 := by
            rw [length_cons]
            omega
          rw [if_pos hconstraint, ite_self, parseLoop_short hid hshort]
        · match rest, hshort with
          | size :: value :: last :: rest, _ =>
            have hconstraint : ¬((id :: size :: value :: last :: rest).length : ℤ) - (2 + 1) < 1 := by
              simp only [length_cons]
              omega
            rw [parseLoop, if_neg hid, if_neg hconstraint, hread 1, hread 2]
            dsimp only [getElem?_cons_succ, getElem?_cons_zero]
            by_cases hknown : id = idRequest ∨ id = idError ∨ id = idCapabilities
            · rw [if_pos hknown]
              by_cases hsize : size = 1
              · rw [if_neg (not_not.mpr hsize),
                  if_neg fun hno => hno.elim (Nat.not_lt_of_le (Nat.succ_le_succ (Nat.zero_le _)))
                  (absurd hsize)]
                cases dest.store id value with
                | none => rfl
                | some dest =>
                  have hnext :=
                    ih (last :: rest).length (by simp only [length_cons]; omega) (before ++ [id, size, value])
                    (last :: rest) dest (cons_ne_nil _ _) rfl
                  rw [append_assoc, length_append] at hnext
                  have hconstraint' :
                    ((id :: size :: value :: last :: rest).length : ℤ) - (2 + 1) = (last :: rest).length := by
                    simp only [length_cons]
                    omega
                  rw [hconstraint']
                  exact hnext
              · rw [if_pos hsize, if_pos (.inr hsize)]
            · rw [if_neg hknown, store_unknown hknown]
              split
              · rfl
              · rfl
          | [], hshort => exact absurd (by decide : ([] : Bytes).length < 3) hshort
          | [_], hshort => exact absurd (Nat.lt_succ_of_lt Nat.one_lt_two) hshort
          | [_, _], hshort => exact absurd (Nat.lt_succ_self 2) hshort

/-- The reads of `msg_parse_in` are within the data, and its outcome is that of the model without them. -/
theorem parseReads_eq (data : Bytes) : parseReads data = some (parseIn data) := by
  rw [parseReads, parseIn]
  by_cases hlength : data.length = 0
  · rw [if_pos hlength, if_pos (.inl hlength)]
  · have hdata : data ≠ [] := ne_nil_of_length_pos (Nat.pos_of_ne_zero hlength)
    rw [if_neg hlength, ← getLast?_eq_getElem?]
    cases hlast : data.getLast? with
    | none => exact absurd (getLast?_eq_none_iff.mp hlast) hdata
    | some last =>
      dsimp only
      by_cases hend : last = 0
      · subst hend
        rw [if_neg (not_not.mpr rfl), if_neg fun hno => hno.elim hlength fun hne => hne rfl]
        have hloop := parseFrom_eq [] data ⟨none, none, none⟩ hdata
        rw [nil_append, length_nil] at hloop
        rw [hloop, map_some]
      · rw [if_pos hend, if_pos (.inr fun hsome => hend (some_inj.mp hsome))]

/-! ## What is accepted -/

/-- A header that is well formed: its id is known and its value in range. -/
def WellFormed (header : UInt8 × UInt8) : Prop :=
  header.1 = idRequest ∧ header.2 ≤ MsiRequest.pop.number ∨ header.1 = idError ∧
    header.2 ≤ MsiError.undisclosed.number ∨
    header.1 = idCapabilities

/-- The value of the last header with an id. -/
def lastValue (headers : List (UInt8 × UInt8)) (id : UInt8) : Option UInt8 :=
  (headers.reverse.find? fun header => header.1 = id).map Prod.snd

/-- The bytes of headers. -/
def headersOut (headers : List (UInt8 × UInt8)) : Bytes := headers.flatMap fun header => [header.1, 1, header.2]

/-- What bytes say: headers that are well formed, with a request among them, before a zero byte. The last header of a
kind counts. -/
def Says (data : Bytes) (msg : MsiMessage) : Prop :=
  data.getLast? = some 0 ∧ ∃ headers rest, data = headersOut headers ++ 0 :: rest ∧
    (∀ header ∈ headers, WellFormed header) ∧
    (∃ header ∈ headers, header.1 = idRequest) ∧ msg.request = (lastValue headers idRequest).bind MsiRequest.ofNumber ∧
    msg.error = (lastValue headers idError).bind MsiError.ofNumber ∧ msg.capabilities = lastValue headers idCapabilities

theorem lastValue_cons (header : UInt8 × UInt8) (headers : List (UInt8 × UInt8)) (id : UInt8) :
    lastValue (header :: headers) id = (lastValue headers id).or (if header.1 = id then some header.2 else none) := by
  rw [lastValue, lastValue, reverse_cons, find?_append, map_or]
  rw [find?_singleton]
  by_cases hid : header.1 = id
  · rw [if_pos hid, if_pos (decide_eq_true hid), map_some]
  · rw [if_neg hid, if_neg (by rw [decide_eq_true_eq]; exact hid), map_none]

/-- A request is in range if it has a name. -/
theorem isSome_requestNumber (value : UInt8) : (MsiRequest.ofNumber value).isSome ↔ value ≤ MsiRequest.pop.number := by
  unfold MsiRequest.ofNumber MsiRequest.number
  grind

/-- An error is in range if it has a name. -/
theorem isSome_errorNumber (value : UInt8) : (MsiError.ofNumber value).isSome ↔
    value ≤ MsiError.undisclosed.number := by
  unfold MsiError.ofNumber MsiError.number
  grind

/-- What is stored of a header: its value, where it is well formed. -/
theorem store_eq_some {dest' : MsiMessage} : dest.store id value = some dest' ↔
    WellFormed (id, value) ∧ dest' = ⟨if id = idRequest then MsiRequest.ofNumber value else dest.request,
      if id = idError then MsiError.ofNumber value else dest.error,
        if id = idCapabilities then some value else dest.capabilities⟩ := by
  rw [store, WellFormed]
  dsimp only
  by_cases hrequest : id = idRequest
  · subst hrequest
    rw [if_pos rfl, if_pos rfl, if_neg (by decide), if_neg (by decide), ← isSome_requestNumber]
    cases MsiRequest.ofNumber value with
    | none => simp [show idRequest ≠ idError by decide, show idRequest ≠ idCapabilities by decide]
    | some request => simp [eq_comm]
  · rw [if_neg hrequest, if_neg hrequest]
    by_cases herror : id = idError
    · subst herror
      rw [if_pos rfl, if_pos rfl, if_neg (by decide), ← isSome_errorNumber]
      cases MsiError.ofNumber value with
      | none => simp [hrequest, show idError ≠ idCapabilities by decide]
      | some error => simp [eq_comm]
    · rw [if_neg herror, if_neg herror]
      by_cases hcapabilities : id = idCapabilities
      · rw [if_pos hcapabilities, if_pos hcapabilities]
        simp [hcapabilities, eq_comm]
      · rw [if_neg hcapabilities]
        simp [hrequest, herror, hcapabilities]

/-- The last value of a kind is that of a header. -/
theorem lastValue_mem (h : lastValue headers id = some value) : (id, value) ∈ headers := by
  obtain ⟨header, hfind, rfl⟩ := map_eq_some_iff.mp h
  have hfound := find?_some hfind
  rw [← of_decide_eq_true hfound]
  exact mem_reverse.mp (mem_of_find?_eq_some hfind)

/-- There is a last header of a kind if there is one. -/
theorem lastValue_isSome {header : UInt8 × UInt8} (hmem : header ∈ headers) (hid : header.1 = id) :
    ∃ value, lastValue headers id = some value := by
  rw [lastValue]
  cases hfind : headers.reverse.find? fun header => header.1 = id with
  | some last => exact ⟨last.2, rfl⟩
  | none => exact absurd (decide_eq_true hid) (find?_eq_none.mp hfind header (mem_reverse.mpr hmem))

/-- The last header of a kind is stored over those before it. -/
theorem or_lastValue {α : Type} {k : UInt8} {f : UInt8 → Option α} (hlater : ∀ v, (k, v) ∈ headers → (f v).isSome)
    (hfirst : id = k → (f value).isSome) (old : Option α) :
    ((lastValue headers k).bind f).or (if id = k then f value else old) =
      ((lastValue ((id, value) :: headers) k).bind f).or old := by
  rw [lastValue_cons]
  cases hlast : lastValue headers k with
  | some v =>
    obtain ⟨named, hnamed⟩ := isSome_iff_exists.mp (hlater v (lastValue_mem hlast))
    rw [some_or, bind_some, hnamed, some_or, some_or]
  | none =>
    rw [none_or, bind_none, none_or]
    dsimp only
    by_cases hid : id = k
    · obtain ⟨named, hnamed⟩ := isSome_iff_exists.mp (hfirst hid)
      rw [if_pos hid, if_pos hid, bind_some, hnamed, some_or]
    · rw [if_neg hid, if_neg hid, bind_none, none_or]

/-- What a message has after some headers. -/
def after (headers : List (UInt8 × UInt8)) (dest : MsiMessage) : MsiMessage :=
  ⟨((lastValue headers idRequest).bind MsiRequest.ofNumber).or dest.request,
    ((lastValue headers idError).bind MsiError.ofNumber).or dest.error,
    (lastValue headers idCapabilities).or dest.capabilities⟩

/-- The values of headers that are well formed have names. -/
theorem WellFormed.named (h : WellFormed (id, value)) :
    (id = idRequest → (MsiRequest.ofNumber value).isSome) ∧ (id = idError → (MsiError.ofNumber value).isSome) := by
  rw [isSome_requestNumber, isSome_errorNumber]
  rcases h with ⟨hid, hrange⟩ | ⟨hid, hrange⟩ | hid
  · exact ⟨fun _ => hrange, fun hno => absurd (hid.symm.trans hno) (by decide)⟩
  · exact ⟨fun hno => absurd (hid.symm.trans hno) (by decide), fun _ => hrange⟩
  · exact ⟨fun hno => absurd (hid.symm.trans hno) (by decide), fun hno => absurd (hid.symm.trans hno) (by decide)⟩

/-- The first header is stored, and then the others. -/
theorem after_store {dest' : MsiMessage} (hformed : ∀ header ∈ headers, WellFormed header)
    (hstore : dest.store id value = some dest') : after headers dest' = after ((id, value) :: headers) dest := by
  obtain ⟨hfirst, rfl⟩ := store_eq_some.mp hstore
  rw [after, after]
  congr 1
  · exact or_lastValue (fun v hv => (hformed _ hv).named.1 rfl) hfirst.named.1 dest.request
  · exact or_lastValue (fun v hv => (hformed _ hv).named.2 rfl) hfirst.named.2 dest.error
  · have hlast :
      ((lastValue headers idCapabilities).bind some).or (if id =
        idCapabilities then some value else dest.capabilities) =
        ((lastValue ((id, value) :: headers) idCapabilities).bind some).or dest.capabilities :=
      or_lastValue (fun _ _ => rfl) (fun _ => rfl) dest.capabilities
    rw [bind_fun_some, bind_fun_some] at hlast
    exact hlast

/-- The loop takes headers that are well formed, up to a zero byte. -/
theorem parseLoop_eq_some (data : Bytes) (dest msg : MsiMessage) : parseLoop data dest = some msg ↔ ∃ headers rest,
    data = headersOut headers ++ 0 :: rest ∧ (∀ header ∈ headers, WellFormed header) ∧ msg = after headers dest := by
  constructor
  · intro hparse
    induction hlength : data.length using Nat.strong_induction_on generalizing data dest with
    | _ length ih =>
      subst hlength
      cases data with
      | nil => nomatch hparse
      | cons id rest =>
        by_cases hid : id = 0
        · subst hid
          refine ⟨[], rest, rfl, nofun, ?_⟩
          rw [parseLoop_zero] at hparse
          exact (some_inj.mp hparse).symm
        · by_cases hshort : rest.length < 3
          · nomatch (parseLoop_short hid hshort dest).symm.trans hparse
          · match rest, hshort with
            | size :: value :: rest, _ =>
              rw [parseLoop, if_neg hid] at hparse
              split at hparse
              · nomatch hparse
              · rename_i hheader
                have hsize : size = 1 := not_not.mp (not_or.mp hheader).2
                subst hsize
                obtain ⟨dest', hstore, hrest⟩ := bind_eq_some_iff.mp hparse
                obtain ⟨headers, last, rfl, hformed, rfl⟩ :=
                  ih rest.length (by simp only [length_cons]; omega) rest dest'
                  hrest rfl
                refine ⟨(id, value) :: headers, last, rfl, ?_, after_store hformed hstore⟩
                exact forall_mem_cons.mpr ⟨(store_eq_some.mp hstore).1, hformed⟩
            | [], hshort => exact absurd (by decide : ([] : Bytes).length < 3) hshort
            | [_], hshort => exact absurd (Nat.lt_succ_of_lt Nat.one_lt_two) hshort
  · rintro ⟨headers, rest, rfl, hformed, rfl⟩
    induction headers generalizing dest with
    | nil => exact parseLoop_zero rest dest
    | cons header headers ih =>
      obtain ⟨hfirst, hlater⟩ := forall_mem_cons.mp hformed
      obtain ⟨id, value⟩ := header
      have hstore : dest.store id value = some _ := store_eq_some.mpr ⟨hfirst, rfl⟩
      have hid : id ≠ 0 := by
        rcases hfirst with ⟨rfl, -⟩ | ⟨rfl, -⟩ | rfl
        · decide
        · decide
        · decide
      rw [← after_store hlater hstore]
      refine (parseLoop_header hid hstore ?_).trans (ih _ hlater)
      exact append_ne_nil_of_right_ne_nil _ (cons_ne_nil 0 rest)

/-- Bytes are accepted if they say a message, and that message is the outcome. -/
theorem parseIn_eq_some (data : Bytes) (msg : MsiMessage) : parseIn data = some msg ↔ Says data msg := by
  rw [parseIn, Says]
  by_cases hend : data.getLast? = some 0
  · have hlength : data.length ≠ 0 := by
      intro hzero
      rw [length_eq_zero_iff.mp hzero] at hend
      contradiction
    rw [if_neg fun hno => hno.elim hlength fun hne => hne hend, bind_eq_some_iff, and_iff_right hend]
    constructor
    · rintro ⟨dest, hparse, hrequest⟩
      obtain ⟨headers, rest, rfl, hformed, rfl⟩ := (parseLoop_eq_some _ _ _).mp hparse
      split at hrequest
      · contradiction
      · rename_i hsome
        obtain rfl := some_inj.mp hrequest
        rw [after] at hsome
        dsimp only at hsome
        rw [or_none] at hsome
        refine ⟨headers, rest, rfl, hformed, ?_, or_none, or_none, or_none⟩
        obtain ⟨request, hrequest⟩ := ne_none_iff_exists'.mp hsome
        obtain ⟨value, hvalue, -⟩ := bind_eq_some_iff.mp hrequest
        exact ⟨_, lastValue_mem hvalue, rfl⟩
    · rintro ⟨headers, rest, rfl, hformed, ⟨header, hmem, hid⟩, hrequest, herror, hcapabilities⟩
      refine ⟨msg, (parseLoop_eq_some _ _ _).mpr ⟨headers, rest, rfl, hformed, ?_⟩, if_neg fun hnone => ?_⟩
      · rw [after, or_none, or_none, or_none, ← hrequest, ← herror, ← hcapabilities]
      · obtain ⟨value, hvalue⟩ := lastValue_isSome hmem hid
        have hnamed := (hformed _ (lastValue_mem hvalue)).named.1 rfl
        rw [hnone, hvalue, bind_some] at hrequest
        rw [← hrequest] at hnamed
        contradiction
  · rw [if_pos (.inr hend)]
    exact iff_of_false (some_ne_none msg).symm fun hsays => hend hsays.1

/-- A message that is sent is read as it was, and whatever bytes are read, only they are, and the outcome is what they
say. -/
theorem msiMessage_codec :
    (∀ msg : MsiMessage, msg.request ≠ none → ∃ data, msg.send = [data] ∧ parseReads data = some (some msg)) ∧
    ∀ data, ∃ outcome, parseReads data = some outcome ∧ ∀ msg, outcome = some msg ↔ Says data msg := by
  refine ⟨fun msg hrequest => ?_, fun data => ⟨parseIn data, parseReads_eq data, parseIn_eq_some data⟩⟩
  obtain ⟨request, hrequest⟩ := ne_none_iff_exists'.mp hrequest
  obtain ⟨data, hsend, hparse⟩ := parseIn_send msg hrequest
  exact ⟨data, hsend, by rw [parseReads_eq, hparse]⟩

/-- A push with capabilities. -/
theorem msiMessage_codec_push : ∃ data, (withCapabilities .push 12).send = [data] ∧
    parseReads data = some (some (withCapabilities .push 12)) :=
  msiMessage_codec.1 (withCapabilities .push 12) (by decide)

end MsiMessage

end Toxcore
