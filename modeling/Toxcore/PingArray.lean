import Mathlib.Data.List.Nodup
import Mathlib.Data.Nat.ModEq
import Toxcore.Network

/-!
# Ping arrays

A `Ping_Array` hands out ids for data and gives the data back once. The entries are a ring; the remainder of an id is
its slot. An add first drops entries that timed out, from the deletion cursor on, and overwrites what is in its slot.
The cursor does not matter for what is found: only entries that timed out are dropped, and these are not given back
anyway.

An add whose allocation fails returns no id, but it has cleared its slot already. The next add uses the same slot.
-/

namespace Toxcore

open ByteStrings Function List Option

/-- `Ping_Array_Entry`. -/
structure PingArrayEntry where
  data : Option Bytes
  length : UInt32
  time : UInt64
  pingId : UInt64

/-- An entry cleared to zero bytes. -/
def PingArrayEntry.empty : PingArrayEntry := ⟨none, 0, 0, 0⟩

/-- `Ping_Array`. -/
structure PingArray where
  entries : ℕ → PingArrayEntry
  lastDeleted : UInt32
  lastAdded : UInt32
  totalSize : UInt32
  timeout : UInt32

/-- Data whose length is a `uint32_t`. -/
abbrev PingData := { data : Bytes // data.length < 2 ^ 32 }

/-- The length of the data. -/
def PingData.length (data : PingData) : UInt32 := UInt32.ofNat data.val.length

/-- `ping_array_init`, `none` for -1. `alloc` is the outcome of the allocation. -/
def pingArrayInit (alloc : Bool) (size timeout : UInt32) : Option PingArray :=
  if size = 0 ∨ timeout = 0 then none
  else if !alloc then none
  else some ⟨fun _ => .empty, 0, 0, size, timeout⟩

/-- `clear_entry`. -/
def clearEntry (array : PingArray) (index : ℕ) : PingArray :=
  { array with entries := update array.entries index .empty }

/-- The loop of `ping_array_clear_timedout`, by the distance of the cursor to the last entry. -/
def clearTimedoutLoop (now : UInt64) : ℕ → PingArray → PingArray
  | 0, array => array
  | distance + 1, array =>
    let index := (array.lastDeleted % array.totalSize).toNat
    if isTimeout now (array.entries index).time array.timeout.toUInt64 then
      clearTimedoutLoop now distance { clearEntry array index with lastDeleted := array.lastDeleted + 1 }
    else array

/-- `ping_array_clear_timedout`. -/
def pingArrayClearTimedout (now : UInt64) (array : PingArray) : PingArray :=
  clearTimedoutLoop now (array.lastAdded - array.lastDeleted).toNat array

/-- The id for a slot, from a random number. -/
def newPingId (rand : UInt64) (totalSize : UInt32) (index : ℕ) : UInt64 :=
  let pingId := rand / totalSize.toUInt64 * totalSize.toUInt64 + UInt64.ofNat index
  if pingId = 0 then pingId + totalSize.toUInt64 else pingId

/-- The part of `ping_array_add` that clears an entry in use and moves the cursor. -/
def freeSlot (array : PingArray) (index : ℕ) : PingArray :=
  if (array.entries index).data ≠ none then
    clearEntry { array with lastDeleted := array.lastAdded - array.totalSize } index
  else array

/-- The part of `ping_array_add` that fills a free entry. `alloc` is the outcome of the allocation. -/
def fillSlot (now rand : UInt64) (alloc : Bool) (array : PingArray) (index : ℕ) (data : PingData) :
    UInt64 × PingArray :=
  if alloc then
    let pingId := newPingId rand array.totalSize index
    (pingId, { array with
      entries := update array.entries index ⟨some data.val, data.length, now, pingId⟩
      lastAdded := array.lastAdded + 1 })
  else
    (0, { array with entries := update array.entries index { array.entries index with data := none } })

/-- `ping_array_add`, at the clock `now` with the result `rand` of `random_64b`. -/
def pingArrayAdd (now rand : UInt64) (alloc : Bool) (array : PingArray) (data : PingData) : UInt64 × PingArray :=
  let array := pingArrayClearTimedout now array
  let index := (array.lastAdded % array.totalSize).toNat
  fillSlot now rand alloc (freeSlot array index) index data

/-- What `ping_array_check` returns, copies to the caller and leaves. -/
structure PingCheck where
  result : Int32
  copied : Option Bytes
  array : PingArray

/-- `ping_array_check`. -/
def pingArrayCheck (now : UInt64) (length : UInt32) (array : PingArray) (pingId : UInt64) : PingCheck :=
  let index := (pingId % array.totalSize.toUInt64).toNat
  let entry := array.entries index
  if pingId = 0 then ⟨-1, none, array⟩
  else if entry.pingId ≠ pingId then ⟨-1, none, array⟩
  else if isTimeout now entry.time array.timeout.toUInt64 then ⟨-1, none, array⟩
  else if entry.length > length then ⟨-1, none, array⟩
  else
    match entry.data with
    | none => ⟨-1, none, array⟩
    | some data => ⟨entry.length.toInt32, some data, clearEntry array index⟩

/-! ## What was added -/

/-- An add that returned an id. -/
structure PingRecord where
  pingId : UInt64
  data : PingData
  time : UInt64

/-- The adds that returned an id, the last one first, whether the last add of all failed, the ids that were checked with
success, and the clock at the last call. -/
structure PingLog where
  adds : List PingRecord
  failed : Bool
  checked : List UInt64
  clock : UInt64

/-- The adds since the one at a position: those that returned an id, and a failed one that no other followed. -/
def PingLog.addsSince (log : PingLog) (position : ℕ) : ℕ := position + log.failed.toNat

/-- An id is good for data: the add that returned it is fewer adds ago than there are slots and less than the timeout
ago, and the id was not checked with success. -/
def PingLog.Good (log : PingLog) (totalSize timeout : UInt32) (now pingId : UInt64) (data : PingData) : Prop :=
  ∃ (position : ℕ) (time : UInt64), log.adds[position]? = some ⟨pingId, data, time⟩ ∧
    log.addsSince position < totalSize.toNat ∧ now.toNat < time.toNat + timeout.toNat ∧ pingId ∉ log.checked

/-- Calls on a ping array, each at its clock. -/
inductive PingCall where
  | add (now rand : UInt64) (alloc : Bool) (data : PingData)
  | check (now : UInt64) (length : UInt32) (pingId : UInt64)

/-- The clock at a call. -/
def PingCall.now : PingCall → UInt64
  | .add now _ _ _ => now
  | .check now _ _ => now

/-- A ping array with its log. -/
structure LoggedPings where
  array : PingArray
  log : PingLog

/-- Execute a call and log it. -/
def LoggedPings.exec (s : LoggedPings) : PingCall → LoggedPings
  | .add now rand alloc data =>
    let result := pingArrayAdd now rand alloc s.array data
    ⟨result.2, { s.log with
      adds := if alloc then ⟨result.1, data, now⟩ :: s.log.adds else s.log.adds
      failed := !alloc
      clock := now }⟩
  | .check now length pingId =>
    let result := pingArrayCheck now length s.array pingId
    ⟨result.array, { s.log with
      checked := if result.copied.isSome then pingId :: s.log.checked else s.log.checked
      clock := now }⟩

/-- The id a call returns was not returned before. -/
def FreshId (s : LoggedPings) : PingCall → Prop
  | .add now rand alloc data =>
    alloc → ∀ record ∈ s.log.adds, (pingArrayAdd now rand alloc s.array data).1 ≠ record.pingId
  | .check _ _ _ => True

/-- Runs of a new array under a clock that does not go back and counts seconds below 2^63, with random numbers that
repeat no id. -/
inductive PingRun (size timeout : UInt32) : LoggedPings → Prop
  | start {array : PingArray} {alloc : Bool} : pingArrayInit alloc size timeout = some array →
    PingRun size timeout ⟨array, ⟨[], false, [], 0⟩⟩
  | step {s : LoggedPings} (call : PingCall) : PingRun size timeout s → s.log.clock ≤ call.now →
    call.now.toNat < 2 ^ 63 → FreshId s call → PingRun size timeout (s.exec call)

/-! ## Slots, ids and timeouts -/

/-- The slot of an id. -/
def slotOf (size : UInt32) (pingId : UInt64) : ℕ := (pingId % size.toUInt64).toNat

/-- Positions below the number of slots have different slots. -/
theorem slot_injective {size count p q : ℕ} (hp : p < size) (hq : q < size) (hpc : p < count) (hqc : q < count)
    (h : (count - 1 - p) % size = (count - 1 - q) % size) : p = q := by
  have hdiv (a b : ℕ) (hab : a < b) (hb : b < size) (hbc : b < count)
      (heq : (count - 1 - a) % size = (count - 1 - b) % size) : False := by
    have hmod : Nat.ModEq size (count - 1 - b + (b - a)) (count - 1 - b + 0) := by
      rw [show count - 1 - b + (b - a) = count - 1 - a by omega, Nat.add_zero]
      exact heq
    have hzero := Nat.ModEq.add_left_cancel' _ hmod
    rw [Nat.ModEq, Nat.zero_mod, Nat.mod_eq_of_lt (by omega)] at hzero
    omega
  rcases Nat.lt_trichotomy p q with hlt | heq | hgt
  · exact (hdiv p q hlt hq hqc h).elim
  · exact heq
  · exact (hdiv q p hgt hp hpc h.symm).elim

/-- The number of slots is a power of two. -/
def PowerOfTwo (size : UInt32) : Prop := ∃ k, size.toNat = 2 ^ k

variable {size : UInt32}

theorem PowerOfTwo.pos (h : PowerOfTwo size) : 0 < size.toNat := by
  obtain ⟨k, hk⟩ := h
  rw [hk]
  exact Nat.two_pow_pos k

/-- It divides the powers of two that are not smaller. -/
theorem PowerOfTwo.dvd (h : PowerOfTwo size) {n : ℕ} (hn : 32 ≤ n) : size.toNat ∣ 2 ^ n := by
  obtain ⟨k, hk⟩ := h
  have hlt := size.toNat_lt
  rw [hk] at hlt ⊢
  have hle : k < 32 := (Nat.pow_lt_pow_iff_right (by decide)).mp hlt
  exact Nat.pow_dvd_pow 2 (by omega)

/-- A new id is not zero and has the slot it was made for. -/
theorem newPingId_spec (hsize : PowerOfTwo size) (rand : UInt64) {index : ℕ} (hindex : index < size.toNat) :
    newPingId rand size index ≠ 0 ∧ slotOf size (newPingId rand size index) = index := by
  have hpos := hsize.pos
  have hlt := size.toNat_lt
  obtain ⟨turns, hturns⟩ := hsize.dvd (show 32 ≤ 64 by decide)
  have hquot : rand.toNat / size.toNat < turns := by
    rw [Nat.div_lt_iff_lt_mul hpos, Nat.mul_comm turns, ← hturns]
    exact rand.toNat_lt
  have hroom : rand.toNat / size.toNat * size.toNat + size.toNat ≤ 2 ^ 64 := by
    have hmul := Nat.mul_le_mul_right size.toNat (Nat.succ_le_of_lt hquot)
    rw [Nat.succ_mul, Nat.mul_comm turns, ← hturns] at hmul
    exact hmul
  have hvalue : (rand / size.toUInt64 * size.toUInt64 + UInt64.ofNat index).toNat =
      rand.toNat / size.toNat * size.toNat + index := by
    rw [UInt64.toNat_add, UInt64.toNat_mul, UInt64.toNat_div, UInt32.toNat_toUInt64, UInt64.toNat_ofNat',
      Nat.mod_eq_of_lt (show rand.toNat / size.toNat * size.toNat < 2 ^ 64 by omega),
      Nat.mod_eq_of_lt (show index < 2 ^ 64 by omega), Nat.mod_eq_of_lt (by omega)]
  simp only [newPingId]
  split
  · rename_i hzero
    have hboth : rand.toNat / size.toNat * size.toNat + index = 0 := by
      rw [← hvalue, hzero]
      rfl
    rw [hzero, UInt64.zero_add]
    constructor
    · intro hsizeZero
      have htoNat := congrArg UInt64.toNat hsizeZero
      rw [UInt32.toNat_toUInt64, UInt64.toNat_zero] at htoNat
      omega
    · rw [slotOf, UInt64.toNat_mod, Nat.mod_self]
      omega
  · rename_i hnonzero
    refine ⟨hnonzero, ?_⟩
    rw [slotOf, UInt64.toNat_mod, hvalue, UInt32.toNat_toUInt64, Nat.mul_add_mod_self_right, Nat.mod_eq_of_lt hindex]

/-- A timeout as arithmetic, below the wrap of the clock. -/
theorem isTimeout_iff {now time : UInt64} {timeout : UInt32} (h : time.toNat < 2 ^ 63) :
    isTimeout now time timeout.toUInt64 = true ↔ time.toNat + timeout.toNat ≤ now.toNat := by
  have hlt := timeout.toNat_lt
  rw [isTimeout, decide_eq_true_eq, UInt64.le_iff_toNat_le, UInt64.toNat_add, UInt32.toNat_toUInt64,
    Nat.mod_eq_of_lt (by omega)]

/-- Dropping entries that timed out changes nothing else. -/
theorem clearTimedoutLoop_spec (now : UInt64) (distance : ℕ) (array : PingArray) :
    (clearTimedoutLoop now distance array).lastAdded = array.lastAdded ∧
      (clearTimedoutLoop now distance array).totalSize = array.totalSize ∧
      (clearTimedoutLoop now distance array).timeout = array.timeout ∧
      ∀ i, (clearTimedoutLoop now distance array).entries i = array.entries i ∨
        ((clearTimedoutLoop now distance array).entries i = .empty ∧
          isTimeout now (array.entries i).time array.timeout.toUInt64 = true) := by
  induction distance generalizing array with
  | zero => exact ⟨rfl, rfl, rfl, fun _ => .inl rfl⟩
  | succ distance ih =>
    rw [clearTimedoutLoop]
    split
    · rename_i htimeout
      obtain ⟨hadded, hsize, htime, hentries⟩ := ih
        { clearEntry array (array.lastDeleted % array.totalSize).toNat with lastDeleted := array.lastDeleted + 1 }
      refine ⟨hadded, hsize, htime, ?_⟩
      intro i
      by_cases hi : i = (array.lastDeleted % array.totalSize).toNat
      · subst hi
        refine .inr ⟨?_, htimeout⟩
        rcases hentries (array.lastDeleted % array.totalSize).toNat with hsame | ⟨hempty, -⟩
        · rw [hsame]
          exact update_self ..
        · exact hempty
      · have hother := hentries i
        simp only [clearEntry, update_of_ne hi] at hother
        exact hother
    · exact ⟨rfl, rfl, rfl, fun _ => .inl rfl⟩

/-! ## The invariant -/

/-- The entry of an add. -/
def PingRecord.entry (record : PingRecord) : PingArrayEntry :=
  ⟨some record.data.val, record.data.length, record.time, record.pingId⟩

/-- The entries are those of the last adds, but for the ones that were checked or timed out. -/
structure LoggedPings.Valid (s : LoggedPings) (size timeout : UInt32) : Prop where
  size_eq : s.array.totalSize = size
  timeout_eq : s.array.timeout = timeout
  lastAdded : s.array.lastAdded.toNat = s.log.adds.length % 2 ^ 32
  nonzero : ∀ record ∈ s.log.adds, record.pingId ≠ 0
  slot : ∀ (p : ℕ) record, s.log.adds[p]? = some record →
    slotOf size record.pingId = (s.log.adds.length - 1 - p) % size.toNat
  distinct : ∀ (p q : ℕ) record other, s.log.adds[p]? = some record → s.log.adds[q]? = some other →
    record.pingId = other.pingId → p = q
  times : ∀ record ∈ s.log.adds, record.time.toNat < 2 ^ 63
  checked : ∀ pingId ∈ s.log.checked, ∃ record ∈ s.log.adds, record.pingId = pingId
  sound : ∀ i < size.toNat, s.array.entries i = .empty ∨ ∃ p record, s.log.adds[p]? = some record ∧
    slotOf size record.pingId = i ∧ s.log.addsSince p < size.toNat ∧ record.pingId ∉ s.log.checked ∧
      s.array.entries i = record.entry
  complete : ∀ (p : ℕ) record, s.log.adds[p]? = some record → s.log.addsSince p < size.toNat →
    record.pingId ∉ s.log.checked → s.log.clock.toNat < record.time.toNat + timeout.toNat →
      s.array.entries (slotOf size record.pingId) = record.entry

namespace LoggedPings

variable {s : LoggedPings} {size timeout : UInt32}

/-- The slot of an id is in the array. -/
theorem slotOf_lt (hsize : 0 < size.toNat) (pingId : UInt64) : slotOf size pingId < size.toNat := by
  rw [slotOf, UInt64.toNat_mod, UInt32.toNat_toUInt64]
  exact Nat.mod_lt _ hsize

variable {record : PingRecord}

/-- An add among the last ones is known by its slot. -/
theorem Valid.same_slot (h : s.Valid size timeout) {p q : ℕ} {other : PingRecord} (hp : s.log.adds[p]? = some record)
    (hq : s.log.adds[q]? = some other) (hpsize : p < size.toNat) (hqsize : q < size.toNat)
    (hslot : slotOf size record.pingId = slotOf size other.pingId) : record = other := by
  rw [h.slot p record hp, h.slot q other hq] at hslot
  obtain ⟨hpl, rfl⟩ := List.getElem?_eq_some_iff.mp hp
  obtain ⟨hql, rfl⟩ := List.getElem?_eq_some_iff.mp hq
  obtain rfl := slot_injective hpsize hqsize hpl hql hslot
  rfl

/-- An array starts empty. -/
theorem Valid.init {alloc : Bool} {array : PingArray} (h : pingArrayInit alloc size timeout = some array) :
    Valid ⟨array, ⟨[], false, [], 0⟩⟩ size timeout := by
  unfold pingArrayInit at h
  split at h
  · exact absurd h (by simp)
  split at h
  · exact absurd h (by simp)
  obtain rfl := some.inj h
  exact ⟨rfl, rfl, rfl, by simp, by simp, by simp, by simp, by simp, fun _ _ => .inl rfl, by simp⟩

/-! ### Checking -/

variable {pingId : UInt64}

/-- A check that copies nothing fails and changes nothing. -/
theorem pingArrayCheck_of_copied_none {now : UInt64} {length : UInt32} {array : PingArray}
    (h : (pingArrayCheck now length array pingId).copied = none) :
    pingArrayCheck now length array pingId = ⟨-1, none, array⟩ := by
  revert h
  simp only [pingArrayCheck]
  split
  · exact fun _ => rfl
  split
  · exact fun _ => rfl
  split
  · exact fun _ => rfl
  split
  · exact fun _ => rfl
  split
  · exact fun _ => rfl
  · exact fun h => absurd h (by simp)

/-- An id that is good for data is found. -/
theorem Valid.check_of_good (h : s.Valid size timeout) {now : UInt64} (hnow : s.log.clock ≤ now) {data : PingData}
    (hgood : s.log.Good size timeout now pingId data) {length : UInt32} (hlength : data.length ≤ length) :
    pingArrayCheck now length s.array pingId =
      ⟨data.length.toInt32, some data.val, clearEntry s.array (slotOf size pingId)⟩ := by
  obtain ⟨p, time, hp, hsince, htime, hunchecked⟩ := hgood
  have hmem := mem_of_getElem? hp
  have hclock := UInt64.le_iff_toNat_le.mp hnow
  have hentry := h.complete p _ hp hsince hunchecked (lt_of_le_of_lt hclock htime)
  have hfresh : ¬isTimeout now time timeout.toUInt64 = true := by
    have hbound : time.toNat < 2 ^ 63 := h.times _ hmem
    rw [isTimeout_iff hbound]
    omega
  simp only [PingRecord.entry, slotOf] at hentry
  simp only [pingArrayCheck, h.size_eq, h.timeout_eq, hentry, if_neg (h.nonzero _ hmem), ne_eq, not_true_eq_false,
    if_false, if_neg hfresh, if_neg (UInt32.not_lt.mpr hlength), slotOf]

/-- An id for which data is copied is good for it. -/
theorem Valid.good_of_copied (h : s.Valid size timeout) (hsize : 0 < size.toNat) {now : UInt64} {length : UInt32}
    (hcopied : (pingArrayCheck now length s.array pingId).copied ≠ none) :
    ∃ data, s.log.Good size timeout now pingId data ∧ data.length ≤ length := by
  revert hcopied
  simp only [pingArrayCheck, h.size_eq, h.timeout_eq]
  split
  · exact fun hnone => absurd rfl hnone
  rename_i hnonzero
  split
  · exact fun hnone => absurd rfl hnone
  rename_i hid
  split
  · exact fun hnone => absurd rfl hnone
  rename_i htimeout
  split
  · exact fun hnone => absurd rfl hnone
  rename_i hlength
  intro _
  change ¬(s.array.entries (slotOf size pingId)).pingId ≠ pingId at hid
  change ¬isTimeout now (s.array.entries (slotOf size pingId)).time timeout.toUInt64 = true at htimeout
  change ¬(s.array.entries (slotOf size pingId)).length > length at hlength
  rcases h.sound (slotOf size pingId) (slotOf_lt hsize pingId) with hempty | ⟨p, record, hp, -, hsince,
    hunchecked, hentry⟩
  · rw [hempty] at hid
    exact absurd (not_not.mp hid).symm hnonzero
  · rw [hentry] at hid htimeout hlength
    obtain rfl : record.pingId = pingId := not_not.mp hid
    change ¬isTimeout now record.time timeout.toUInt64 = true at htimeout
    rw [isTimeout_iff (h.times record (mem_of_getElem? hp))] at htimeout
    exact ⟨record.data, ⟨p, record.time, hp, hsince, by omega, hunchecked⟩, UInt32.not_lt.mp hlength⟩

/-- A check keeps the invariant. -/
theorem Valid.check (h : s.Valid size timeout) (hsize : 0 < size.toNat) {now : UInt64} (hnow : s.log.clock ≤ now)
    (length : UInt32) (pingId : UInt64) : (s.exec (.check now length pingId)).Valid size timeout := by
  have hclock := UInt64.le_iff_toNat_le.mp hnow
  by_cases hcopied : (pingArrayCheck now length s.array pingId).copied = none
  · have hexec : s.exec (.check now length pingId) = ⟨s.array, { s.log with clock := now }⟩ := by
      simp only [LoggedPings.exec, pingArrayCheck_of_copied_none hcopied, isSome_none, Bool.false_eq_true, if_false]
    rw [hexec]
    exact ⟨h.size_eq, h.timeout_eq, h.lastAdded, h.nonzero, h.slot, h.distinct, h.times, h.checked, h.sound,
      fun p record hp hsince hunchecked htime => h.complete p record hp hsince hunchecked (lt_of_le_of_lt hclock htime)⟩
  · obtain ⟨data, hgood, hlength⟩ := h.good_of_copied hsize hcopied
    have hexec : s.exec (.check now length pingId) = ⟨clearEntry s.array (slotOf size pingId),
        { s.log with checked := pingId :: s.log.checked, clock := now }⟩ := by
      simp only [LoggedPings.exec, h.check_of_good hnow hgood hlength, isSome_some, if_true]
    obtain ⟨p, time, hp, hsince, -, -⟩ := hgood
    rw [hexec]
    refine ⟨h.size_eq, h.timeout_eq, h.lastAdded, h.nonzero, h.slot, h.distinct, h.times, ?_, ?_, ?_⟩
    · intro other hother
      rcases mem_cons.mp hother with rfl | hold
      · exact ⟨_, mem_of_getElem? hp, rfl⟩
      · exact h.checked other hold
    · intro i hi
      by_cases hslot : i = slotOf size pingId
      · exact .inl (by rw [hslot]; exact update_self ..)
      · simp only [clearEntry, update_of_ne hslot]
        refine (h.sound i hi).imp_right ?_
        rintro ⟨q, record, hq, hi', hqsince, hunchecked, hentry⟩
        refine ⟨q, record, hq, hi', hqsince, ?_, hentry⟩
        rintro (_ | ⟨_, hin⟩)
        · exact hslot hi'.symm
        · exact hunchecked hin
    · intro q record hq hqsince hunchecked htime
      rw [mem_cons, not_or] at hunchecked
      have hother : slotOf size record.pingId ≠ slotOf size pingId := by
        intro hslot
        have hsame := h.same_slot hq hp (lt_of_le_of_lt (Nat.le_add_right q _) hqsince)
          (lt_of_le_of_lt (Nat.le_add_right p _) hsince) hslot
        exact hunchecked.1 (by rw [hsame])
      simp only [clearEntry, update_of_ne hother]
      exact h.complete q record hq hqsince hunchecked.2 (lt_of_le_of_lt hclock htime)

/-! ### Adding -/

/-- A slot is freed, and nothing else. -/
theorem freeSlot_spec (array : PingArray) (index : ℕ) :
    (freeSlot array index).lastAdded = array.lastAdded ∧ (freeSlot array index).totalSize = array.totalSize ∧
      (freeSlot array index).timeout = array.timeout ∧
      (∀ i, i ≠ index → (freeSlot array index).entries i = array.entries i) ∧
      ((freeSlot array index).entries index = .empty ∨
        (freeSlot array index).entries index = array.entries index ∧ (array.entries index).data = none) := by
  unfold freeSlot
  split
  · exact ⟨rfl, rfl, rfl, fun i hi => update_of_ne hi .., .inl (update_self ..)⟩
  · rename_i hnone
    exact ⟨rfl, rfl, rfl, fun _ _ => rfl, .inr ⟨rfl, not_not.mp hnone⟩⟩

/-- What an add does to an array. -/
structure AddEffect (now rand : UInt64) (alloc : Bool) (array : PingArray) (data : PingData) (index : ℕ)
    (result : UInt64 × PingArray) : Prop where
  size : result.2.totalSize = array.totalSize
  timeout : result.2.timeout = array.timeout
  lastAdded : result.2.lastAdded = if alloc then array.lastAdded + 1 else array.lastAdded
  others : ∀ i, i ≠ index → result.2.entries i = array.entries i ∨
    result.2.entries i = .empty ∧ isTimeout now (array.entries i).time array.timeout.toUInt64 = true
  added : alloc → result.1 = newPingId rand array.totalSize index ∧
    result.2.entries index = PingRecord.entry ⟨result.1, data, now⟩
  failed : alloc = false → result.2.entries index = .empty ∨
    result.2.entries index = array.entries index ∧ (array.entries index).data = none

/-- What an added entry does to the array. -/
theorem pingArrayAdd_effect (now rand : UInt64) (alloc : Bool) (array : PingArray) (data : PingData) :
    AddEffect now rand alloc array data (array.lastAdded % array.totalSize).toNat
      (pingArrayAdd now rand alloc array data) := by
  obtain ⟨hadded, hsize, htime, hentries⟩ :=
    clearTimedoutLoop_spec now (array.lastAdded - array.lastDeleted).toNat array
  rw [pingArrayAdd, pingArrayClearTimedout]
  revert hadded hsize htime hentries
  generalize clearTimedoutLoop now (array.lastAdded - array.lastDeleted).toNat array = cleared
  intro hadded hsize htime hentries
  simp only [hadded, hsize]
  generalize (array.lastAdded % array.totalSize).toNat = index
  obtain ⟨hadded', hsize', htime', hothers, hslot⟩ := freeSlot_spec cleared index
  revert hadded' hsize' htime' hothers hslot
  generalize freeSlot cleared index = free
  intro hadded' hsize' htime' hothers hslot
  have hother : ∀ i, i ≠ index → free.entries i = array.entries i ∨
      free.entries i = .empty ∧ isTimeout now (array.entries i).time array.timeout.toUInt64 = true := by
    intro i hi
    rw [hothers i hi]
    exact hentries i
  cases alloc with
  | true =>
    refine ⟨hsize'.trans hsize, htime'.trans htime, ?_, ?_, ?_, by simp⟩
    · change free.lastAdded + 1 = array.lastAdded + 1
      rw [hadded', hadded]
    · intro i hi
      simp only [fillSlot, if_true, update_of_ne hi]
      exact hother i hi
    · intro _
      refine ⟨?_, update_self ..⟩
      change newPingId rand free.totalSize index = _
      rw [hsize', hsize]
  | false =>
    refine ⟨hsize'.trans hsize, htime'.trans htime, hadded'.trans hadded, ?_, by simp, ?_⟩
    · intro i hi
      simp only [fillSlot, Bool.false_eq_true, if_false, update_of_ne hi]
      exact hother i hi
    · intro _
      simp only [fillSlot, Bool.false_eq_true, if_false, update_self]
      rcases hslot with hempty | ⟨hsame, hnone⟩
      · exact .inl (by rw [hempty]; rfl)
      · rcases hentries index with hold | ⟨hempty, -⟩
        · rw [hold] at hsame hnone
          refine .inr ⟨?_, hnone⟩
          rw [hsame, ← hnone]
        · exact .inl (by rw [hsame, hempty]; rfl)

/-- The slot of the next add. -/
theorem Valid.next_slot (h : s.Valid size timeout) (hsize : PowerOfTwo size) :
    (s.array.lastAdded % s.array.totalSize).toNat = s.log.adds.length % size.toNat := by
  rw [UInt32.toNat_mod, h.lastAdded, h.size_eq, Nat.mod_mod_of_dvd _ (hsize.dvd (le_refl 32))]

/-- An add has the slot of the next one exactly if it is as many adds ago as there are slots. -/
theorem Valid.slot_eq_next (h : s.Valid size timeout) {p : ℕ} (hp : s.log.adds[p]? = some record)
    (hpsize : p < size.toNat) : slotOf size record.pingId = s.log.adds.length % size.toNat ↔ p + 1 = size.toNat := by
  have hpl := (List.getElem?_eq_some_iff.mp hp).1
  rw [h.slot p record hp]
  constructor
  · intro hslot
    by_contra hne
    have hzero : p + 1 = 0 := slot_injective (show p + 1 < size.toNat by omega) (show 0 < size.toNat by omega)
      (show p + 1 < s.log.adds.length + 1 by omega) (Nat.succ_pos _)
      (by rw [show s.log.adds.length + 1 - 1 - (p + 1) = s.log.adds.length - 1 - p by omega, hslot,
        Nat.add_sub_cancel, Nat.sub_zero])
    omega
  · intro heq
    rw [Nat.mod_eq_sub_mod (show s.log.adds.length ≥ size.toNat by omega)]
    congr 1
    omega

section Add

variable {now rand : UInt64} {alloc : Bool} {data : PingData} {result : UInt64 × PingArray}

/-- The entries in other slots after an add. -/
theorem Valid.sound_of_effect (h : s.Valid size timeout)
    (heffect : AddEffect now rand alloc s.array data (s.log.adds.length % size.toNat) result) {i : ℕ}
    (hi : i < size.toNat) (hne : i ≠ s.log.adds.length % size.toNat) :
    result.2.entries i = .empty ∨ ∃ p record, s.log.adds[p]? = some record ∧ slotOf size record.pingId = i ∧
      p + 1 < size.toNat ∧ record.pingId ∉ s.log.checked ∧ result.2.entries i = record.entry := by
  rcases heffect.others i hne with hsame | ⟨hempty, -⟩
  · rw [hsame]
    refine (h.sound i hi).imp_right ?_
    rintro ⟨p, record, hp, hslot, hsince, hunchecked, hentry⟩
    have hpsize : p < size.toNat := lt_of_le_of_lt (Nat.le_add_right p _) hsince
    have hnext : p + 1 ≠ size.toNat := fun heq => hne (hslot.symm.trans ((h.slot_eq_next hp hpsize).mpr heq))
    exact ⟨p, record, hp, hslot, by omega, hunchecked, hentry⟩
  · exact .inl hempty

/-- The entries of earlier adds after an add. -/
theorem Valid.complete_of_effect (h : s.Valid size timeout) (hnow : s.log.clock ≤ now)
    (heffect : AddEffect now rand alloc s.array data (s.log.adds.length % size.toNat) result) {p : ℕ}
    (hp : s.log.adds[p]? = some record) (hsince : p + 1 < size.toNat) (hunchecked : record.pingId ∉ s.log.checked)
    (htime : now.toNat < record.time.toNat + timeout.toNat) :
    result.2.entries (slotOf size record.pingId) = record.entry := by
  have hclock := UInt64.le_iff_toNat_le.mp hnow
  have hfailed : s.log.failed.toNat ≤ 1 := by cases s.log.failed <;> decide
  have hold := h.complete p record hp (by rw [PingLog.addsSince]; omega) hunchecked (lt_of_le_of_lt hclock htime)
  have hne : slotOf size record.pingId ≠ s.log.adds.length % size.toNat := by
    intro heq
    have hlast := (h.slot_eq_next hp (by omega)).mp heq
    omega
  rcases heffect.others _ hne with hsame | ⟨-, htimeout⟩
  · rw [hsame, hold]
  · rw [hold, h.timeout_eq] at htimeout
    change isTimeout now record.time timeout.toUInt64 = true at htimeout
    rw [isTimeout_iff (h.times record (mem_of_getElem? hp))] at htimeout
    omega

end Add

/-- An add that returns an id keeps the invariant. -/
theorem Valid.add (h : s.Valid size timeout) (hsize : PowerOfTwo size) {now rand : UInt64} {data : PingData}
    (hnow : s.log.clock ≤ now) (hbound : now.toNat < 2 ^ 63) (hfresh : FreshId s (.add now rand true data)) :
    (s.exec (.add now rand true data)).Valid size timeout := by
  have hpos := hsize.pos
  have heffect := pingArrayAdd_effect now rand true s.array data
  rw [h.next_slot hsize] at heffect
  have hids := hfresh rfl
  simp only [LoggedPings.exec, if_true, Bool.not_true]
  revert heffect hids
  generalize pingArrayAdd now rand true s.array data = result
  intro heffect hids
  obtain ⟨hid, hentry⟩ := heffect.added rfl
  obtain ⟨hnonzero, hslot⟩ := newPingId_spec hsize rand (Nat.mod_lt s.log.adds.length hpos)
  rw [h.size_eq] at hid
  rw [← hid] at hnonzero hslot
  refine ⟨heffect.size.trans h.size_eq, heffect.timeout.trans h.timeout_eq, ?_, ?_, ?_, ?_, ?_, ?_, ?_, ?_⟩
  · simp only [heffect.lastAdded, if_true, UInt32.toNat_add, h.lastAdded, length_cons]
    change (s.log.adds.length % 2 ^ 32 + 1) % 2 ^ 32 = _
    omega
  · exact forall_mem_cons.mpr ⟨hnonzero, h.nonzero⟩
  · intro p record hp
    cases p with
    | zero =>
      obtain rfl := some.inj hp
      exact hslot
    | succ p =>
      rw [h.slot p record hp, length_cons]
      congr 1
      omega
  · intro p q record other hp hq hsame
    cases p with
    | zero => cases q with
      | zero => rfl
      | succ q =>
        obtain rfl := some.inj hp
        exact absurd hsame (hids other (mem_of_getElem? hq))
    | succ p => cases q with
      | zero =>
        obtain rfl := some.inj hq
        exact absurd hsame.symm (hids record (mem_of_getElem? hp))
      | succ q => rw [h.distinct p q record other hp hq hsame]
  · exact forall_mem_cons.mpr ⟨hbound, h.times⟩
  · intro pingId hpingId
    obtain ⟨record, hrecord, heq⟩ := h.checked pingId hpingId
    exact ⟨record, mem_cons_of_mem _ hrecord, heq⟩
  · intro i hi
    by_cases hnext : i = s.log.adds.length % size.toNat
    · refine .inr ⟨0, _, rfl, hslot.trans hnext.symm, hpos, ?_, hnext ▸ hentry⟩
      intro hchecked
      obtain ⟨record, hrecord, heq⟩ := h.checked _ hchecked
      exact hids record hrecord heq.symm
    · refine (h.sound_of_effect heffect hi hnext).imp_right ?_
      rintro ⟨p, record, hp, hrest⟩
      exact ⟨p + 1, record, hp, hrest⟩
  · intro p record hp hsince hunchecked htime
    cases p with
    | zero =>
      obtain rfl := some.inj hp
      rw [hslot]
      exact hentry
    | succ p => exact h.complete_of_effect hnow heffect hp hsince hunchecked htime

/-- An add that fails keeps the invariant. -/
theorem Valid.add_failed (h : s.Valid size timeout) (hsize : PowerOfTwo size) {now rand : UInt64} {data : PingData}
    (hnow : s.log.clock ≤ now) : (s.exec (.add now rand false data)).Valid size timeout := by
  have heffect := pingArrayAdd_effect now rand false s.array data
  rw [h.next_slot hsize] at heffect
  simp only [LoggedPings.exec, Bool.false_eq_true, if_false, Bool.not_false]
  revert heffect
  generalize pingArrayAdd now rand false s.array data = result
  intro heffect
  refine ⟨heffect.size.trans h.size_eq, heffect.timeout.trans h.timeout_eq, ?_, h.nonzero, h.slot, h.distinct, h.times,
    h.checked, ?_, ?_⟩
  · rw [heffect.lastAdded]
    exact h.lastAdded
  · intro i hi
    by_cases hnext : i = s.log.adds.length % size.toNat
    · subst hnext
      refine .inl ?_
      rcases heffect.failed rfl with hempty | ⟨hsame, hnone⟩
      · exact hempty
      · rcases h.sound _ hi with hempty | ⟨p, record, -, -, -, -, hentry⟩
        · exact hsame.trans hempty
        · rw [hentry] at hnone
          exact absurd hnone (by simp [PingRecord.entry])
    · exact h.sound_of_effect heffect hi hnext
  · intro p record hp hsince hunchecked htime
    exact h.complete_of_effect hnow heffect hp hsince hunchecked htime

/-- A call keeps the invariant. -/
theorem Valid.exec (h : s.Valid size timeout) (hsize : PowerOfTwo size) (call : PingCall)
    (hnow : s.log.clock ≤ call.now) (hbound : call.now.toNat < 2 ^ 63) (hfresh : FreshId s call) :
    (s.exec call).Valid size timeout := by
  cases call with
  | add now rand alloc data =>
    cases alloc with
    | true => exact h.add hsize hnow hbound hfresh
    | false => exact h.add_failed hsize hnow
  | check now length pingId => exact h.check hsize.pos hnow length pingId

end LoggedPings

/-! ## Runs -/

/-- The array is valid in every run. -/
theorem PingRun.valid {timeout : UInt32} (hsize : PowerOfTwo size) {s : LoggedPings} (hrun : PingRun size timeout s) :
    s.Valid size timeout := by
  induction hrun with
  | start hinit => exact LoggedPings.Valid.init hinit
  | step call _ hnow hbound hfresh ih => exact ih.exec hsize call hnow hbound hfresh

/-- After any run, a check with room for the data gives the data of the add that returned the id exactly when the id is
good for it. Otherwise it fails and changes nothing. -/
theorem pingArrayCheck_iff_good {size timeout : UInt32} (hsize : PowerOfTwo size) {s : LoggedPings}
    (hrun : PingRun size timeout s) {now : UInt64} (hnow : s.log.clock ≤ now) (length : UInt32) (pingId : UInt64) :
    (∀ data, s.log.Good size timeout now pingId data → data.length ≤ length →
      pingArrayCheck now length s.array pingId =
        ⟨data.length.toInt32, some data.val, clearEntry s.array (slotOf size pingId)⟩) ∧
    ((∀ data, ¬s.log.Good size timeout now pingId data) →
      pingArrayCheck now length s.array pingId = ⟨-1, none, s.array⟩) := by
  have hvalid := hrun.valid hsize
  constructor
  · intro data hgood hlength
    exact hvalid.check_of_good hnow hgood hlength
  · intro hnone
    apply LoggedPings.pingArrayCheck_of_copied_none
    by_contra hcopied
    obtain ⟨data, hgood, -⟩ := hvalid.good_of_copied hsize.pos hcopied
    exact hnone data hgood

/-- Two adds to an array of two slots. -/
def twoPings : LoggedPings :=
  ((⟨⟨fun _ => .empty, 0, 0, 2, 5⟩, ⟨[], false, [], 0⟩⟩ : LoggedPings).exec (.add 10 0 true ⟨[7], by decide⟩)).exec
    (.add 11 0 true ⟨[8], by decide⟩)

/-- The first id is 2. Its data is found within the timeout and not found after it. -/
theorem pingArrayCheck_iff_good_twoPings :
    pingArrayCheck 12 1 twoPings.array 2 = ⟨1, some [7], clearEntry twoPings.array 0⟩ ∧
      pingArrayCheck 15 1 twoPings.array 2 = ⟨-1, none, twoPings.array⟩ := by
  have hsize : PowerOfTwo 2 := ⟨1, rfl⟩
  have hrun : PingRun 2 5 twoPings := by
    refine .step _ (.step _ (.start (show pingArrayInit true 2 5 = some _ from rfl)) (by decide) (by decide) ?_)
      (by decide +kernel) (by decide) ?_
    · intro _ record hrecord
      exact absurd hrecord (by simp)
    · intro _ record hrecord
      obtain rfl := mem_singleton.mp hrecord
      decide +kernel
  refine ⟨(pingArrayCheck_iff_good hsize hrun (by decide +kernel) 1 2).1 ⟨[7], by decide⟩ ?_ (by decide), ?_⟩
  · exact ⟨1, 10, rfl, by decide +kernel, by decide, by decide +kernel⟩
  · refine (pingArrayCheck_iff_good hsize hrun (by decide +kernel) 1 2).2 ?_
    rintro data ⟨p, time, hp, -, htime, -⟩
    match p, hp with
    | 0, hp =>
      have hid : twoPings.log.adds[0]?.map PingRecord.pingId = some 2 := congrArg (Option.map PingRecord.pingId) hp
      exact absurd hid (by decide +kernel)
    | 1, hp =>
      obtain rfl : (10 : UInt64) = time := some.inj (congrArg (Option.map PingRecord.time) hp)
      exact absurd htime (by decide)
    | p + 2, hp => exact absurd hp (by simp [twoPings, LoggedPings.exec])

end Toxcore
