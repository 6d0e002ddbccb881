import Toxcore.Messenger.FileSlots

/-!
# The counters of a file transfer

What the operations do to the position, the reserved position and the status of one slot. The sender's counters stay
within the size, and a receiver at the sender's position takes a chunk in the way that the sender expects.
-/

namespace Toxcore

open ByteStrings

namespace FileTransfers

/-- What decides how a slot is moved along: its status, its size and its position. -/
def key (ft : FileTransfers) : FileStatus × UInt64 × UInt64 := (ft.status, ft.size, ft.transferred)

/-- The chunk ends the file. -/
def FinalChunk (size : UInt64) (chunk : UInt64 × Bytes) : Prop :=
  chunk.2.length ≠ maxFileDataSize ∨ size = chunk.1 + UInt64.ofNat chunk.2.length

instance (size : UInt64) (chunk : UInt64 × Bytes) :
    Decidable (FinalChunk size chunk) := inferInstanceAs (Decidable (_ ∨ _))

/-- The calls of `file_filedata` for a chunk. -/
def announced (size : UInt64) (chunk : UInt64 × Bytes) : List (UInt64 × Bytes) :=
  if FinalChunk size chunk ∧ chunk.2 ≠ [] then [chunk, (chunk.1 + UInt64.ofNat chunk.2.length, [])] else [chunk]

/-- The counters of a slot for a file that is sent. Chunks are reserved in full until the end of the file is
reserved. -/
structure Bounded (ft : FileTransfers) : Prop where
  transferred_le : ft.transferred ≤ ft.size
  requested_le : ft.requested ≤ ft.size
  transferred_le_requested : ft.size ≠ unknownSize → ft.transferred ≤ ft.requested
  reserved_whole : ft.size ≠ unknownSize →
    ft.requested = ft.size ∨ maxFileDataSize ∣ ft.requested.toNat - ft.transferred.toNat

variable {ft ft' : FileTransfers}

variable {data : Bytes} {position : UInt64} {controlType : UInt8}

section

variable (h : ft.dataError position data = none)
include h

/-- What `file_data` lets through. -/
theorem dataError_eq_none :
    ft.status = .transferring ∧ data.length ≤ maxFileDataSize ∧ UInt64.ofNat data.length ≤ ft.size - ft.transferred ∧
      (ft.size = unknownSize ∨ data.length = maxFileDataSize ∨ ft.transferred + UInt64.ofNat data.length = ft.size) ∧
      position = ft.transferred ∧ (position < ft.requested ∨ ft.size = 0) := by
  simp only [dataError] at h
  split_ifs at h with hstatus hlong hroom hpart hposition
  refine ⟨not_not.mp hstatus, not_lt.mp hlong, UInt64.not_lt.mp hroom, ?_, ?_, ?_⟩
  · tauto
  · tauto
  · obtain ⟨-, hrequested⟩ := not_or.mp hposition
    by_cases hzero : ft.size = 0
    · exact .inr hzero
    · exact .inl (UInt64.not_le.mp fun hle => hrequested ⟨hle, hzero⟩)

/-- The chunk that ends a file of known size ends at the size. -/
theorem finalChunk_end (hfinal : FinalChunk ft.size (position, data)) (hknown : ft.size ≠ unknownSize) :
    position + UInt64.ofNat data.length = ft.size := by
  obtain ⟨-, -, -, hpart, rfl, -⟩ := dataError_eq_none h
  obtain hshort | hend := hfinal
  · obtain hunknown | hfull | hlast := hpart
    · exact absurd hunknown hknown
    · exact absurd hfull hshort
    · exact hlast
  · exact hend.symm

/-- The sender's position after a chunk does not wrap. -/
theorem toNat_add_length (hle : ft.transferred ≤ ft.size) :
    (ft.transferred + UInt64.ofNat data.length).toNat = ft.transferred.toNat + data.length ∧
      ft.transferred.toNat + data.length ≤ ft.size.toNat := by
  obtain ⟨-, hlong, hroom, -⟩ := dataError_eq_none h
  have hsmall : data.length < 2 ^ 64 := lt_of_le_of_lt hlong (by decide)
  have hsize := ft.size.toNat_lt
  rw [UInt64.le_iff_toNat_le, UInt64.toNat_sub_of_le _ _ hle, UInt64.toNat_ofNat_of_lt' hsmall] at hroom
  rw [UInt64.le_iff_toNat_le] at hle
  constructor
  · rw [UInt64.toNat_add, UInt64.toNat_ofNat_of_lt' hsmall]
    omega
  · omega

end

/-- How a slot that is transferring receives a chunk that fits. -/
theorem receiveData_eq (hstatus : ft.status = .transferring)
    (hfits : ft.transferred + UInt64.ofNat data.length ≤ ft.size) :
    ft.receiveData data =
      (if FinalChunk ft.size (ft.transferred, data) then
        { ft with transferred := ft.transferred + UInt64.ofNat data.length, status := .none }
      else { ft with transferred := ft.transferred + UInt64.ofNat data.length },
      announced ft.size (ft.transferred, data)) := by
  have hpassed : ¬(ft.transferred + UInt64.ofNat data.length > ft.size) := UInt64.not_lt.mpr hfits
  have hend : ft.transferred + UInt64.ofNat data.length ≥ ft.size ↔
      ft.size = ft.transferred + UInt64.ofNat data.length :=
    ⟨fun h => UInt64.le_antisymm h hfits, fun h => UInt64.le_of_eq h⟩
  simp only [receiveData, hstatus, ne_eq, not_true_eq_false, if_false, if_neg hpassed, hend, List.take_length]
  by_cases hnil : data = []
  · subst hnil
    simp [FinalChunk, announced, maxFileDataSize, maxCryptoDataSize]
  · have hlength : data.length ≠ 0 := by simpa using hnil
    by_cases hfinal : FinalChunk ft.size (ft.transferred, data)
    · rw [if_pos ⟨hlength, hfinal.symm⟩, if_pos hfinal, announced, if_pos ⟨hfinal, hnil⟩]
    · rw [if_neg fun h => hfinal h.2.symm, if_neg hlength, if_neg hfinal, announced, if_neg fun h => hfinal h.1]

/-- How a slot at the sender's position receives a chunk that `file_data` took. -/
theorem receiveData_of_dataError {sender receiver : FileTransfers} (h : sender.dataError position data = none)
    (hle : sender.transferred ≤ sender.size) (hkey : receiver.key = sender.key) :
    receiver.receiveData data =
      (if FinalChunk sender.size (position, data) then
        { receiver with transferred := sender.transferred + UInt64.ofNat data.length, status := .none }
      else { receiver with transferred := sender.transferred + UInt64.ofNat data.length },
      announced sender.size (position, data)) := by
  obtain ⟨hstatus, -, -, -, rfl, -⟩ := dataError_eq_none h
  obtain ⟨hadd, hfits⟩ := toNat_add_length h hle
  simp only [key, Prod.mk.injEq] at hkey
  obtain ⟨hkstatus, hksize, hktransferred⟩ := hkey
  rw [receiveData_eq (hkstatus.trans hstatus), hksize, hktransferred]
  rw [hksize, hktransferred, UInt64.le_iff_toNat_le]
  omega

variable (number : UInt32)

/-- The status of a sender after a chunk. -/
theorem dataSent_key (h : ft.dataError position data = none) :
    (ft.dataSent number data).key =
      (if FinalChunk ft.size (position, data) then .finished else .transferring, ft.size,
        ft.transferred + UInt64.ofNat data.length) := by
  obtain ⟨hstatus, -, -, -, rfl, -⟩ := dataError_eq_none h
  by_cases hfinal : FinalChunk ft.size (ft.transferred, data)
  · have hend : data.length ≠ maxFileDataSize ∨ ft.size = ft.transferred + UInt64.ofNat data.length := hfinal
    simp only [dataSent, if_pos hend, if_pos hfinal, key]
  · have hend : ¬(data.length ≠ maxFileDataSize ∨ ft.size = ft.transferred + UInt64.ofNat data.length) := hfinal
    simp only [dataSent, if_neg hend, if_neg hfinal, key, hstatus]

@[simp] theorem dataSent_requested (data : Bytes) : (ft.dataSent number data).requested = ft.requested := by
  simp only [dataSent]
  split_ifs <;> rfl

@[simp] theorem dataSent_size (data : Bytes) : (ft.dataSent number data).size = ft.size := by
  simp only [dataSent]
  split_ifs <;> rfl

@[simp] theorem dataSent_transferred (data : Bytes) :
    (ft.dataSent number data).transferred = ft.transferred + UInt64.ofNat data.length := by
  simp only [dataSent]
  split_ifs <;> rfl

/-- `file_data` keeps the counters in order. -/
theorem Bounded.dataSent (h : ft.Bounded) (number : UInt32) (herror : ft.dataError position data = none) :
    (ft.dataSent number data).Bounded := by
  obtain ⟨-, hlong, -, hpart, rfl, hrequested⟩ := dataError_eq_none herror
  obtain ⟨hadd, hfits⟩ := toNat_add_length herror h.transferred_le
  have hend : ft.size ≠ unknownSize → ft.requested.toNat = ft.size.toNat ∨
    ft.transferred.toNat + maxFileDataSize ≤ ft.requested.toNat := by
    intro hknown
    obtain hall | hwhole := h.reserved_whole hknown
    · exact .inl (by rw [hall])
    · obtain hlt | hzero := hrequested
      · right
        rw [UInt64.lt_iff_toNat_lt] at hlt
        have := Nat.le_of_dvd (by omega) hwhole
        omega
      · left
        have hle := h.requested_le
        rw [UInt64.le_iff_toNat_le] at hle
        have hzero : ft.size.toNat = 0 := by rw [hzero]; rfl
        omega
  have hle := h.requested_le
  rw [UInt64.le_iff_toNat_le] at hle
  constructor
  · rw [dataSent_transferred, dataSent_size, UInt64.le_iff_toNat_le]
    omega
  · simpa using h.requested_le
  · intro hknown
    rw [dataSent_size] at hknown
    rw [dataSent_transferred, dataSent_requested, UInt64.le_iff_toNat_le]
    obtain hall | hnext := hend hknown <;> omega
  · intro hknown
    rw [dataSent_size] at hknown
    rw [dataSent_transferred, dataSent_requested, dataSent_size, hadd]
    obtain hall | hwhole := h.reserved_whole hknown
    · exact .inl hall
    obtain hall | hnext := hend hknown
    · exact .inl (UInt64.toNat_inj.mp hall)
    right
    have hfull : data.length = maxFileDataSize := by
      obtain hunknown | hfull | hlast := hpart
      · exact absurd hunknown hknown
      · exact hfull
      · have hlast := congrArg UInt64.toNat hlast
        omega
    rw [hfull, Nat.sub_add_eq]
    exact Nat.dvd_sub hwhole (dvd_refl _)

/-- A slot with the same counters. -/
theorem Bounded.congr (h : ft.Bounded) (hsize : ft'.size = ft.size) (htransferred : ft'.transferred = ft.transferred)
    (hrequested : ft'.requested = ft.requested) : ft'.Bounded := by
  refine ⟨?_, ?_, ?_, ?_⟩
  · rw [hsize, htransferred]
    exact h.transferred_le
  · rw [hsize, hrequested]
    exact h.requested_le
  · rw [hsize, htransferred, hrequested]
    exact h.transferred_le_requested
  · rw [hsize, htransferred, hrequested]
    exact h.reserved_whole

/-- A slot at the position that is asked for next. -/
theorem Bounded.of_eq (hle : ft.transferred ≤ ft.size) (heq : ft.requested = ft.transferred) : ft.Bounded :=
  ⟨hle, by rwa [heq], fun _ => by rw [heq]; exact UInt64.le_refl _, fun _ => .inr (by rw [heq]; simp)⟩

/-- Reserving a chunk keeps the counters in order. -/
theorem Bounded.reserved (h : ft.Bounded) : ft.reserved.Bounded := by
  have hle := h.requested_le
  have hsub := UInt64.toNat_sub_of_le _ _ hle
  have htransferred := h.transferred_le
  have hsize := ft.size.toNat_lt
  rw [UInt64.le_iff_toNat_le] at hle htransferred
  have hmax : (UInt64.ofNat maxFileDataSize).toNat = maxFileDataSize := by decide
  have hnext : (ft.requested + ft.nextLength).toNat =
      ft.requested.toNat + min (ft.size.toNat - ft.requested.toNat) maxFileDataSize := by
    rw [UInt64.toNat_add, nextLength]
    split_ifs with hlast
    · rw [UInt64.lt_iff_toNat_lt, hsub, hmax] at hlast
      rw [hsub]
      omega
    · rw [UInt64.lt_iff_toNat_lt, hsub, hmax] at hlast
      rw [hmax]
      omega
  constructor
  · exact h.transferred_le
  · change ft.requested + ft.nextLength ≤ ft.size
    rw [UInt64.le_iff_toNat_le, hnext]
    omega
  · intro hknown
    change ft.transferred ≤ ft.requested + ft.nextLength
    have hbefore := h.transferred_le_requested hknown
    rw [UInt64.le_iff_toNat_le] at hbefore ⊢
    omega
  · intro hknown
    change ft.requested + ft.nextLength = ft.size ∨
      maxFileDataSize ∣ (ft.requested + ft.nextLength).toNat - ft.transferred.toNat
    have hbefore := h.transferred_le_requested hknown
    rw [UInt64.le_iff_toNat_le] at hbefore
    by_cases hlast : ft.size.toNat - ft.requested.toNat ≤ maxFileDataSize
    · left
      rw [← UInt64.toNat_inj, hnext]
      omega
    · right
      obtain hall | hwhole := h.reserved_whole hknown
      · rw [hall] at hlast
        omega
      · have hsum : (ft.requested + ft.nextLength).toNat - ft.transferred.toNat =
            (ft.requested.toNat - ft.transferred.toNat) + maxFileDataSize := by omega
        rw [hsum]
        exact (Nat.dvd_add_right hwhole).mpr (dvd_refl _)

/-- What a control packet does to a sender's slot. -/
theorem handleControl_true (h : ft.handleControl true controlType data = some ft') :
    ft'.size = ft.size ∧
      ((ft'.status = ft.status ∧ ft'.transferred = ft.transferred ∧ ft'.requested = ft.requested) ∨
      (ft.status = .notAccepted ∧ ft'.status = .transferring ∧ ft'.transferred = ft.transferred ∧
        ft'.requested = ft.requested) ∨
      (ft'.status = .none ∧ ft'.transferred = ft.transferred ∧ ft'.requested = ft.requested) ∨
      (ft.status = .notAccepted ∧ ft'.status = .notAccepted ∧ ft'.transferred < ft.size ∧
        ft'.requested = ft'.transferred)) := by
  simp only [handleControl] at h
  split_ifs at h with haccept hnot hother hpause hrefused hkill hseek hlength hstatus hposition <;>
    cases h
  · exact ⟨rfl, .inr (.inl ⟨hnot.2, rfl, rfl, rfl⟩)⟩
  · exact ⟨rfl, .inl ⟨rfl, rfl, rfl⟩⟩
  · exact ⟨rfl, .inl ⟨rfl, rfl, rfl⟩⟩
  · exact ⟨rfl, .inr (.inr (.inl ⟨rfl, rfl, rfl⟩))⟩
  · have hnot : ft.status = .notAccepted := by tauto
    exact ⟨rfl, .inr (.inr (.inr ⟨hnot, hnot, UInt64.not_le.mp hposition, rfl⟩))⟩

/-- A control packet keeps the counters in order. -/
theorem Bounded.handleControl (h : ft.Bounded) (hcontrol : ft.handleControl true controlType data = some ft') :
    ft'.Bounded := by
  obtain ⟨hsize, ⟨-, ht, hr⟩ | ⟨-, -, ht, hr⟩ | ⟨-, ht, hr⟩ | ⟨-, -, hlt, hr⟩⟩ := handleControl_true hcontrol
  · exact h.congr hsize ht hr
  · exact h.congr hsize ht hr
  · exact h.congr hsize ht hr
  · exact .of_eq (by rw [hsize]; exact UInt64.le_of_lt hlt) hr

/-- What a control packet does to a receiver's slot. -/
theorem handleControl_false (h : ft.handleControl false controlType data = some ft') :
    ft'.size = ft.size ∧ ft'.transferred = ft.transferred ∧
      (ft'.status = ft.status ∧ controlType ≠ filecontrolKill ∨ ft'.status = .none ∧
        controlType = filecontrolKill) := by
  simp only [handleControl] at h
  split_ifs at h with haccept hnot hother hpause hrefused hkill hseek hlength hstatus hposition <;>
    cases h
  · exact absurd hnot.1 (by simp)
  · exact ⟨rfl, rfl, .inl ⟨rfl, by rw [haccept]; decide⟩⟩
  · exact ⟨rfl, rfl, .inl ⟨rfl, by rw [hpause]; decide⟩⟩
  · exact ⟨rfl, rfl, .inr ⟨rfl, hkill⟩⟩
  · simp at hstatus

end FileTransfers

namespace SlotPacket

open FileTransfers

variable {ft : FileTransfers}

/-- How a packet moves a slot along depends on its status, size and position only. -/
theorem arrive_key_congr {ft' : FileTransfers} (h : ft.key = ft'.key) (receiving : Bool) (p : SlotPacket) :
    (p.arrive receiving ft).key = (p.arrive receiving ft').key := by
  simp only [key, Prod.mk.injEq] at h
  obtain ⟨hstatus, hsize, htransferred⟩ := h
  cases p with
  | request size fileId =>
    simp only [arrive, requested?, hstatus]
    split_ifs <;> simp [key, hstatus, hsize, htransferred]
  | control controlType data =>
    simp only [arrive, hstatus]
    split_ifs with hnone
    · simp [key, hstatus, hsize, htransferred]
    · simp only [handleControl, hstatus, hsize]
      split_ifs <;> simp [key, hstatus, hsize, htransferred]
  | data bytes =>
    simp only [arrive, receiveData, hstatus, hsize, htransferred]
    split_ifs <;> simp [key, hstatus, hsize, htransferred]

/-- What a packet lets the application hear depends on the status, size and position only. -/
theorem heard_key_congr {ft' : FileTransfers} (h : ft.key = ft'.key) (p : SlotPacket) : p.heard ft = p.heard ft' := by
  simp only [key, Prod.mk.injEq] at h
  obtain ⟨hstatus, hsize, htransferred⟩ := h
  cases p with
  | request size fileId => rfl
  | control controlType data => rfl
  | data bytes =>
    simp only [heard, receiveData, hstatus, hsize, htransferred]
    split_ifs <;> rfl

/-- A control packet does not move a receiver, unless it kills the transfer. -/
theorem arrive_control_true {controlType : UInt8} (hkill : controlType ≠ filecontrolKill) (data : Bytes)
    (ft : FileTransfers) :
    ((control controlType data).arrive true ft).key = ft.key := by
  by_cases hnone : ft.status = .none
  · simp [arrive, hnone]
  cases hcontrol : ft.handleControl false controlType data with
  | none => simp [arrive, hnone, hcontrol]
  | some ft' =>
    have hnext : (control controlType data).arrive true ft = ft' := by simp [arrive, hnone, hcontrol]
    obtain ⟨hsize, htransferred, ⟨hstatus, -⟩ | ⟨-, hk⟩⟩ := handleControl_false hcontrol
    · rw [hnext, key, key, hstatus, hsize, htransferred]
    · exact absurd hk hkill

/-- A control packet does not move a sender that is sending, unless it kills the transfer. -/
theorem arrive_control_false_key {controlType : UInt8} (hkill : controlType ≠ filecontrolKill) (data : Bytes)
    (hstatus : ft.status ≠ .notAccepted) : ((control controlType data).arrive false ft).key = ft.key := by
  simp only [arrive, handleControl, hstatus, Bool.not_false, and_false, if_false, hkill, not_false_eq_true, ne_eq,
    true_or,
    if_true]
  split_ifs <;> simp [key]

end SlotPacket

/-- Pausing and resuming do not move a slot. -/
theorem FileTransfers.controlled_key {ft : FileTransfers} {control : UInt32} (hkill : control ≠ 2)
    (hstatus : ft.status = .transferring) :
    (ft.controlled control).key = ft.key ∧ (ft.controlled control).requested = ft.requested := by
  simp only [controlled, if_neg hkill]
  split_ifs <;> simp [key, hstatus]

end Toxcore
