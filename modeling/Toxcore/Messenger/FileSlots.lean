import Toxcore.Messenger.FileTransfers

/-!
# One transfer between two messengers

The slot of the sender and the slot of the receiver with one number, and the packets between them that name it, are a
system of their own: a packet that is not about the slot leaves both ends alone. Everything that the messengers do is,
for one transfer, a sequence of steps of this system.
-/

namespace Toxcore

open ByteStrings Function List Option

/-! ## Packets about a slot -/

/-- A packet about a slot. -/
inductive SlotPacket where
  | request (size : UInt64) (fileId : Block 32)
  | control (controlType : UInt8) (data : Bytes)
  | data (data : Bytes)

/-- How `handle_packet` reads a packet if it is about the given slot of the messenger that it arrives at, where files
are received (`true`) or sent. -/
def slotPacket (receiving : Bool) (i : UInt8) (packet : Bytes) : Option SlotPacket :=
  match packet with
  | [] => none
  | packetId :: data =>
    if packetId = packetIdFileSendrequest then
      if receiving ∧ 45 ≤ data.length ∧ data.length - 45 ≤ maxFilenameLength ∧ data.getD 0 0 = i then
        some (.request (UInt64.ofNat (beNat (slice 8 data 5).toList)) (slice 32 data 13))
      else none
    else if packetId = packetIdFileControl then
      if 3 ≤ data.length ∧ data.getD 0 0 = (if receiving then 0 else 1) ∧ data.getD 1 0 = i ∧
          data.getD 2 0 ≤ filecontrolSeek then
        some (.control (data.getD 2 0) (data.drop 3))
      else none
    else if packetId = packetIdFileData then
      if receiving ∧ 1 ≤ data.length ∧ data.getD 0 0 = i then some (.data (data.drop 1)) else none
    else none

namespace SlotPacket

/-- The slot after the packet arrived. -/
def arrive (receiving : Bool) (ft : FileTransfers) : SlotPacket → FileTransfers
  | request size fileId => ft.requested? size fileId
  | control controlType bytes =>
    if ft.status = .none then ft else (ft.handleControl (!receiving) controlType bytes).getD ft
  | .data bytes => (ft.receiveData bytes).1

/-- The calls of `file_filedata` when the packet arrives. -/
def heard (ft : FileTransfers) : SlotPacket → List (UInt64 × Bytes)
  | .data bytes => (ft.receiveData bytes).2
  | _ => []

/-- The packet is answered by killing the transfer. -/
def Answered (ft : FileTransfers) : SlotPacket → Prop
  | control _ _ => ft.status = .none
  | _ => False

instance (ft : FileTransfers) : (p : SlotPacket) → Decidable (p.Answered ft)
  | request _ _ => inferInstanceAs (Decidable False)
  | control _ _ => inferInstanceAs (Decidable (ft.status = .none))
  | .data _ => inferInstanceAs (Decidable False)

/-- The packet that kills a transfer. -/
def kill : SlotPacket := .control filecontrolKill []

end SlotPacket

variable {i j : UInt8} {p : SlotPacket} {r receiving : Bool}

variable {packet : Bytes}

/-- A packet is about one slot at most. -/
theorem slotPacket_unique {r' : Bool} {i' : UInt8} {p' : SlotPacket} (h : slotPacket r i packet = some p)
    (h' : slotPacket r' i' packet = some p') : r = r' ∧ i = i' := by
  cases packet with
  | nil => simp [slotPacket] at h
  | cons packetId data =>
    simp only [slotPacket] at h h'
    by_cases hrequest : packetId = packetIdFileSendrequest
    · rw [if_pos hrequest, ite_none_right_eq_some] at h h'
      exact ⟨by rw [h.1.1, h'.1.1], h.1.2.2.2.symm.trans h'.1.2.2.2⟩
    rw [if_neg hrequest] at h h'
    by_cases hcontrol : packetId = packetIdFileControl
    · rw [if_pos hcontrol, ite_none_right_eq_some] at h h'
      refine ⟨?_, h.1.2.2.1.symm.trans h'.1.2.2.1⟩
      have hside := h.1.2.1.symm.trans h'.1.2.1
      cases r <;> cases r' <;> simp at hside ⊢
    rw [if_neg hcontrol] at h h'
    by_cases hdata : packetId = packetIdFileData
    · rw [if_pos hdata, ite_none_right_eq_some] at h h'
      exact ⟨by rw [h.1.1, h'.1.1], h.1.2.2.symm.trans h'.1.2.2⟩
    · simp [hdata] at h

/-- How a request is read. -/
theorem slotPacket_request {fileType : UInt32} {size : UInt64} {fileId : Block 32} {filename : Bytes}
    (hlength : filename.length ≤ maxFilenameLength) :
    slotPacket true i (packetIdFileSendrequest :: FilePeer.requestPacket i fileType size fileId filename) =
      some (.request size fileId) := by
  have hsize : (slice 8 (FilePeer.requestPacket i fileType size fileId filename) 5).toList = beBytes 8 size.toNat := by
    rw [slice_toList (by simp [FilePeer.requestPacket]; omega)]
    simp [FilePeer.requestPacket]
  have hid : slice 32 (FilePeer.requestPacket i fileType size fileId filename) 13 = fileId := by
    have hfront : (i :: (beBytes 4 fileType.toNat ++ beBytes 8 size.toNat)).length = 13 := by simp
    simpa [FilePeer.requestPacket] using
      slice_at (i :: (beBytes 4 fileType.toNat ++ beBytes 8 size.toNat)) fileId filename hfront
  have hread : UInt64.ofNat (beNat (beBytes 8 size.toNat)) = size := by
    rw [beNat_beBytes_of_lt (by have := size.toNat_lt; omega)]
    exact UInt64.ofNat_toNat
  have hlong : (FilePeer.requestPacket i fileType size fileId filename).length = 45 + filename.length := by
    simp [FilePeer.requestPacket]
    omega
  simp only [slotPacket, if_true, hsize, hid, hread, hlong]
  rw [if_pos ⟨trivial, by omega, by omega, rfl⟩]

/-- How a control packet is read. -/
theorem slotPacket_control {controlType : UInt8} {data : Bytes} (htype : controlType ≤ filecontrolSeek) :
    slotPacket (!receiving) i
      (packetIdFileControl :: (if receiving then 1 else 0) :: i :: controlType :: data) =
        some (.control controlType data) := by
  cases receiving <;> simp [slotPacket, packetIdFileControl, packetIdFileSendrequest, htype]

/-- How data is read. -/
theorem slotPacket_data {data : Bytes} : slotPacket true i (packetIdFileData :: i :: data) = some (.data data) := by
  simp [slotPacket, packetIdFileData, packetIdFileControl, packetIdFileSendrequest]

/-! ## The two ends of a transfer -/

/-- What a transfer is at one messenger: the slot, the packets about the transfer that are on their way from here,
each with the id of the transfer that the slot held when it was sent, and the chunks that were taken (where the file
is sent) or passed on. -/
@[ext] structure SlotEnd where
  slot : FileTransfers
  sent : List (Option (Block 32) × SlotPacket)
  log : List (UInt64 × Bytes)

/-- The chunks of a slot in a log. -/
def chunksOf (i : UInt8) (log : List (UInt8 × UInt64 × Bytes)) : List (UInt64 × Bytes) :=
  log.filterMap fun entry => if entry.1 = i then some entry.2 else none

/-- A packet on its way if it is about a slot of the messenger that it arrives at. -/
def SentPacket.about (receiving : Bool) (i : UInt8) (packet : SentPacket) : Option (Option (Block 32) × SlotPacket) :=
  (slotPacket receiving i packet.bytes).map fun p => (packet.fileId, p)

/-- One end of a transfer. -/
def FilePeer.slotEnd (peer : FilePeer) (receiving : Bool) (i : UInt8) : SlotEnd where
  slot := peer.files.slot receiving i
  sent := peer.outbox.filterMap (SentPacket.about (!receiving) i)
  log := chunksOf i (if receiving then peer.filedata else peer.accepted)

/-- The two ends of a transfer: where the file is sent (`false`) and where it is received. -/
abbrev Transfer := Bool → SlotEnd

/-- The transfer in a slot in which `sender` sends. -/
def FileLink.transfer (link : FileLink) (sender : Bool) (i : UInt8) : Transfer :=
  fun receiving => (link (xor sender receiving)).slotEnd receiving i

/-- A call of the application about a slot. Whether it may offer a file or kill a transfer is a parameter. -/
inductive SlotCall (mayOffer mayKill : Prop) (receiving : Bool) : SlotEnd → SlotEnd → Prop
  | offer (e : SlotEnd) (size : UInt64) (fileId : Block 32) (hoffer : mayOffer) (hreceiving : receiving = false)
      (hstatus : e.slot.status = .none) :
      SlotCall mayOffer mayKill receiving e
        { e with slot := e.slot.offered size fileId, sent := e.sent ++ [(some fileId, .request size fileId)] }
  | control (e : SlotEnd) (control : UInt32) (hkill : control = 2 → mayKill)
      (herror : e.slot.controlError receiving control = none) :
      SlotCall mayOffer mayKill receiving e
        { e with
          slot := e.slot.controlled control
          sent := e.sent ++ [(some e.slot.id, .control (UInt8.ofNat control.toNat) [])] }
  | seek (e : SlotEnd) (position : UInt64) (hreceiving : receiving = true) (herror : e.slot.seekError position = none) :
      SlotCall mayOffer mayKill receiving e
        { e with
          slot := { e.slot with transferred := position }
          sent := e.sent ++ [(some e.slot.id, .control filecontrolSeek (beBytes 8 position.toNat))] }
  | data (e : SlotEnd) (number : UInt32) (position : UInt64) (data : Bytes) (hreceiving : receiving = false)
      (herror : e.slot.dataError position data = none) :
      SlotCall mayOffer mayKill receiving e
        ⟨e.slot.dataSent number data, e.sent ++ [(some e.slot.id, .data data)], e.log ++ [(position, data)]⟩

/-- An end after a packet arrived; the answer is sent or not. -/
def SlotEnd.arrive (e : SlotEnd) (receiving answers : Bool) (p : SlotPacket) : SlotEnd where
  slot := p.arrive receiving e.slot
  sent := e.sent ++ if p.Answered e.slot ∧ answers then [(none, .kill)] else []
  log := e.log ++ if receiving then p.heard e.slot else []

/-- What one end of a transfer does by itself. A file may be offered in the states `mayOffer`, transfers are killed if
`mayKill`. -/
inductive OwnStep (mayOffer : Transfer → Prop) (mayKill : Prop) (t : Transfer) : Transfer → Prop
  | call (receiving : Bool) (e : SlotEnd) (hcall : SlotCall (mayOffer t) mayKill receiving (t receiving) e) :
      OwnStep mayOffer mayKill t (update t receiving e)
  | reserve (hstatus : (t false).slot.status = .transferring) (hsize : (t false).slot.size ≠ (t false).slot.requested) :
      OwnStep mayOffer mayKill t (update t false { t false with slot := (t false).slot.reserved })
  | acknowledge (hstatus : (t false).slot.status = .finished ∨ mayKill) :
      OwnStep mayOffer mayKill t
        (update t false { t false with slot := { (t false).slot with status := .none } })

/-- The next packet about a transfer arrives at an end. -/
inductive Arrives (t : Transfer) : Transfer → Prop
  | arrive (receiving answers : Bool) (fileId : Option (Block 32)) (p : SlotPacket)
      (rest : List (Option (Block 32) × SlotPacket)) (hsent : (t (!receiving)).sent = (fileId, p) :: rest) :
      Arrives t
        (update (update t (!receiving) { t (!receiving) with sent := rest }) receiving
          ((t receiving).arrive receiving answers p))

/-- A step of a transfer. -/
inductive TransferStep (mayOffer : Transfer → Prop) (mayKill : Prop) (t t' : Transfer) : Prop
  | own (hown : OwnStep mayOffer mayKill t t')
  | arrive (harrives : Arrives t t')

/-! ## Calls of the application -/

/-- The call offers a file in a slot. -/
def FileCall.Offers (c : FileCall) (peer : FilePeer) (i : UInt8) : Prop :=
  match c with
  | .newFilesender write fileType filesize fileId filename =>
    (peer.newFilesender write fileType filesize fileId filename).1 = i.toNat
  | _ => False

/-- The call kills the transfer in a slot. -/
def FileCall.Kills (c : FileCall) (peer : FilePeer) (receiving : Bool) (i : UInt8) : Prop :=
  match c with
  | .fileControl write filenumber control =>
    control = 2 ∧ FriendFiles.fileSlot filenumber = some (receiving, i) ∧
      (peer.fileControl write filenumber control).1 = 0
  | _ => False

namespace FilePeer

variable (peer : FilePeer)

/-- The friend is online, and no packet on its way ends the session. -/
def Open : Prop := peer.files.online = true ∧ ∀ packet ∈ peer.outbox, packet.bytes.head? ≠ some packetIdOffline

/-- One slot has changed, and with it only its end of its transfer. -/
structure Moves (peer' : FilePeer) (receiving : Bool) (i : UInt8) (e : SlotEnd) : Prop where
  slotEnd_self : peer'.slotEnd receiving i = e
  slotEnd_other : ∀ r j, (r, j) ≠ (receiving, i) → peer'.slotEnd r j = peer.slotEnd r j
  isOpen : peer.Open → peer'.Open

/-- A messenger that wrote a slot, sent a packet and took chunks. -/
def sends (receiving : Bool) (i : UInt8) (ft : FileTransfers) (num : UInt32) (packet : SentPacket)
    (chunks : List (UInt64 × Bytes)) : FilePeer where
  files := { peer.files.setSlot receiving i ft with numSendingFiles := num }
  outbox := peer.outbox ++ [packet]
  accepted := peer.accepted ++ chunks.map fun chunk => (i, chunk)
  filedata := peer.filedata

end FilePeer

variable (files : FriendFiles)

@[simp] theorem FilePeer.slotEnd_slot (peer : FilePeer) (receiving : Bool) (i : UInt8) :
    (peer.slotEnd receiving i).slot = peer.files.slot receiving i := rfl

@[simp] theorem FriendFiles.slot_false (i : UInt8) : files.slot false i = files.fileSending i := rfl

@[simp] theorem FriendFiles.slot_true (i : UInt8) : files.slot true i = files.fileReceiving i := rfl

@[simp] theorem FriendFiles.slot_setSlot_self (receiving : Bool) (i : UInt8) (ft : FileTransfers) :
    (files.setSlot receiving i ft).slot receiving i = ft := by
  cases receiving <;> simp [setSlot, slot, setSending, setReceiving]

theorem FriendFiles.slot_setSlot_other (ft : FileTransfers) (h : (r, j) ≠ (receiving, i)) :
    (files.setSlot receiving i ft).slot r j = files.slot r j := by
  cases receiving <;> cases r <;> simp [setSlot, slot, setSending, setReceiving] at h ⊢ <;>
    exact update_of_ne h _ _

theorem FriendFiles.setSlot_online (receiving : Bool) (i : UInt8) (ft : FileTransfers) :
    (files.setSlot receiving i ft).online = files.online := by
  cases receiving <;> rfl

@[simp] theorem chunksOf_append (i : UInt8) (log log' : List (UInt8 × UInt64 × Bytes)) :
    chunksOf i (log ++ log') = chunksOf i log ++ chunksOf i log' :=
  filterMap_append

@[simp] theorem chunksOf_self (i : UInt8) (chunks : List (UInt64 × Bytes)) :
    chunksOf i (chunks.map fun chunk => (i, chunk)) = chunks := by
  simp [chunksOf, filterMap_map]

theorem chunksOf_other (h : j ≠ i) (chunks : List (UInt64 × Bytes)) :
    chunksOf j (chunks.map fun chunk => (i, chunk)) = [] := by
  simp [chunksOf, h.symm]

/-- A packet about one slot is not about another one. -/
theorem SentPacket.about_other {packet : SentPacket} (hp : slotPacket receiving i packet.bytes = some p)
    (h : (r, j) ≠ (receiving, i)) : packet.about r j = none := by
  rw [about, map_eq_none_iff, eq_none_iff_forall_ne_some]
  intro p' hp'
  obtain ⟨hr, hj⟩ := slotPacket_unique hp' hp
  exact h (by rw [hr, hj])

/-- A packet that is about a slot does not end the session. -/
theorem slotPacket_not_offline (h : slotPacket receiving i packet = some p) :
    packet.head? ≠ some packetIdOffline := by
  cases packet with
  | nil => simp
  | cons packetId data =>
    intro hid
    simp only [head?_cons, some.injEq] at hid
    simp [slotPacket, hid, packetIdOffline, packetIdFileSendrequest, packetIdFileControl, packetIdFileData] at h

/-- What `sends` does to the ends of the transfers. -/
theorem FilePeer.moves_sends (peer : FilePeer) (receiving : Bool) (i : UInt8) (ft : FileTransfers) (num : UInt32)
    (packet : SentPacket) (chunks : List (UInt64 × Bytes)) (hp : slotPacket (!receiving) i packet.bytes = some p)
    (hchunks : receiving = true → chunks = []) :
    peer.Moves (peer.sends receiving i ft num packet chunks) receiving i
      ⟨ft, (peer.slotEnd receiving i).sent ++ [(packet.fileId, p)], (peer.slotEnd receiving i).log ++ chunks⟩ where
  slotEnd_self := by
    apply SlotEnd.ext
    · exact FriendFiles.slot_setSlot_self peer.files receiving i ft
    · simp [slotEnd, sends, SentPacket.about, hp]
    · cases receiving with
      | false => simp [slotEnd, sends]
      | true => simp [slotEnd, sends, hchunks]
  slotEnd_other := by
    intro r j hne
    have hpacket : packet.about (!r) j = none := SentPacket.about_other hp (by simpa using hne)
    apply SlotEnd.ext
    · exact FriendFiles.slot_setSlot_other peer.files ft hne
    · simp [slotEnd, sends, hpacket]
    · cases r with
      | true => simp [slotEnd, sends]
      | false =>
        cases receiving with
        | true => simp [slotEnd, sends, hchunks]
        | false =>
          have hj : j ≠ i := by simpa using hne
          simp [slotEnd, sends, chunksOf_other hj]
  isOpen := by
    rintro ⟨honline, houtbox⟩
    refine ⟨(FriendFiles.setSlot_online peer.files receiving i ft).trans honline, fun q hq => ?_⟩
    obtain hq | hq := mem_append.mp hq
    · exact houtbox q hq
    · rw [mem_singleton.mp hq]
      exact slotPacket_not_offline hp

/-- The calls that `file_control` lets through. -/
theorem FileTransfers.controlError_eq_none {ft : FileTransfers} {control : UInt32}
    (h : ft.controlError receiving control = none) :
    (control = 2 ∧ ft.status ≠ .none) ∨ (control = 1 ∧ ft.status = .transferring ∧ ¬ft.pausedUs) ∨
      (control = 0 ∧ ft.status = .transferring ∧ ft.pausedUs) ∨
      (control = 0 ∧ ft.status = .notAccepted ∧ receiving = true) := by
  simp only [controlError] at h
  split_ifs at h with hnone hbad hpause hzero htransferring hus hother haccepted hreceiving
  · exact .inr (.inr (.inl ⟨hzero, htransferring, hus⟩))
  · exact .inr (.inr (.inr ⟨hzero, not_not.mp haccepted, by simpa using hreceiving⟩))
  · have hnat : ¬2 < control.toNat := hbad
    have hzero' : control.toNat ≠ 0 := fun he => hzero (UInt32.toNat_inj.mp he)
    obtain hone | htwo : control.toNat = 1 ∨ control.toNat = 2 := by omega
    · have hone : control = 1 := UInt32.toNat_inj.mp hone
      obtain ⟨hus, hstatus⟩ := not_or.mp (not_and.mp hpause hone)
      exact .inr (.inl ⟨hone, not_not.mp hstatus, hus⟩)
    · exact .inl ⟨UInt32.toNat_inj.mp htwo, hnone⟩

/-- The controls that `file_control` sends. -/
theorem FileTransfers.controlError_none_le {ft : FileTransfers} {control : UInt32}
    (h : ft.controlError receiving control = none) : UInt8.ofNat control.toNat ≤ filecontrolSeek := by
  obtain ⟨rfl, -⟩ | ⟨rfl, -⟩ | ⟨rfl, -⟩ | ⟨rfl, -⟩ := controlError_eq_none h <;> decide

namespace FilePeer

variable (peer : FilePeer)

variable (write : Option UInt32)

/-- What `new_filesender` does. -/
theorem newFilesender_cases (fileType : UInt32) (filesize : UInt64) (fileId : Block 32) (filename : Bytes) :
    ((peer.newFilesender write fileType filesize fileId filename).1 < 0 ∧
        (peer.newFilesender write fileType filesize fileId filename).2 = peer) ∨
      ∃ i : UInt8, (peer.newFilesender write fileType filesize fileId filename).1 = i.toNat ∧
        (peer.slotEnd false i).slot.status = .none ∧
        peer.Moves (peer.newFilesender write fileType filesize fileId filename).2 false i
          { peer.slotEnd false i with
            slot := (peer.slotEnd false i).slot.offered filesize fileId
            sent := (peer.slotEnd false i).sent ++ [(some fileId, .request filesize fileId)] } := by
  unfold newFilesender
  by_cases hname : filename.length > maxFilenameLength
  · exact .inl (by simp [if_pos hname])
  rw [if_neg hname]
  cases hfind : (List.range maxConcurrentFilePipes).find? fun i => (peer.files.fileSending (UInt8.ofNat i)).status =
    .none with
  | none => exact .inl (by simp)
  | some i =>
    have hlt : i < 256 := mem_range.mp (mem_of_find?_eq_some hfind)
    have hstatus : (peer.files.fileSending (UInt8.ofNat i)).status = .none := by
      simpa using find?_some hfind
    cases hwrite : peer.files.writeCryptpacketId write packetIdFileSendrequest
        (requestPacket (UInt8.ofNat i) fileType filesize fileId filename) with
    | none => exact .inl (by simp [hwrite])
    | some packet =>
      right
      have hpacket :
        packet = packetIdFileSendrequest :: requestPacket (UInt8.ofNat i) fileType filesize fileId filename := by
        simp only [FriendFiles.writeCryptpacketId, ite_none_left_eq_some, map_eq_some_iff] at hwrite
        obtain ⟨-, -, -, h⟩ := hwrite
        exact h.symm
      refine ⟨UInt8.ofNat i, ?_, hstatus, ?_⟩
      · simp only [hwrite]
        rw [UInt8.toNat_ofNat_of_lt' hlt]
      · simp only [hwrite]
        have hmoves :=
          peer.moves_sends false (UInt8.ofNat i) ((peer.files.fileSending (UInt8.ofNat i)).offered filesize fileId)
          (peer.files.numSendingFiles + 1) ⟨some fileId, packet⟩ []
          (by rw [hpacket]; exact slotPacket_request (by omega)) (by simp)
        simpa [sends, FriendFiles.setSlot, FriendFiles.setSending] using hmoves

/-- A control packet that was sent. -/
theorem sendFileControlPacket_eq_some {files : FriendFiles} {write : Option UInt32} {controlType : UInt8}
    {data : Bytes} (h : files.sendFileControlPacket write receiving i controlType data = some packet) :
    packet = packetIdFileControl :: (if receiving then 1 else 0) :: i :: controlType :: data := by
  simp only [FriendFiles.sendFileControlPacket, FriendFiles.writeCryptpacketId, ite_none_left_eq_some,
    map_eq_some_iff] at h
  obtain ⟨-, -, -, -, h⟩ := h
  exact h.symm

/-- What `file_control` does. -/
theorem fileControl_cases (filenumber control : UInt32) :
    (peer.fileControl write filenumber control).2 = peer ∨
      ∃ receiving i, FriendFiles.fileSlot filenumber = some (receiving, i) ∧
        (peer.fileControl write filenumber control).1 = 0 ∧
        (peer.slotEnd receiving i).slot.controlError receiving control = none ∧
        peer.Moves (peer.fileControl write filenumber control).2 receiving i
          { peer.slotEnd receiving i with
            slot := (peer.slotEnd receiving i).slot.controlled control
            sent := (peer.slotEnd receiving i).sent ++
              [(some (peer.slotEnd receiving i).slot.id, .control (UInt8.ofNat control.toNat) [])] } := by
  unfold fileControl
  by_cases honline : peer.files.online = false
  · exact .inl (by rw [if_pos honline])
  rw [if_neg honline]
  cases hslot : FriendFiles.fileSlot filenumber with
  | none => exact .inl rfl
  | some slot =>
    obtain ⟨receiving, i⟩ := slot
    cases herror : (peer.files.slot receiving i).controlError receiving control with
    | some error => exact .inl (by simp only [herror])
    | none =>
      cases hwrite : peer.files.sendFileControlPacket write receiving i (UInt8.ofNat control.toNat) [] with
      | none => exact .inl (by simp only [herror, hwrite])
      | some packet =>
        right
        have htype : UInt8.ofNat control.toNat ≤ filecontrolSeek := FileTransfers.controlError_none_le herror
        have hpacket := sendFileControlPacket_eq_some hwrite
        refine ⟨receiving, i, rfl, by simp only [herror, hwrite], herror, ?_⟩
        have hmoves := fun num => peer.moves_sends receiving i ((peer.files.slot receiving i).controlled control) num
          ⟨some (peer.files.slot receiving i).id, packet⟩ [] (by rw [hpacket]; exact slotPacket_control htype) (by simp)
        simp only [herror, hwrite]
        by_cases hkill : control = 2 ∧ receiving = false
        · simpa [sends, hkill] using
            hmoves ((peer.files.setSlot receiving i
              ((peer.files.slot receiving i).controlled control)).numSendingFiles - 1)
        · simpa [sends, if_neg hkill] using
            hmoves (peer.files.setSlot receiving i ((peer.files.slot receiving i).controlled control)).numSendingFiles

/-- What `file_seek` does. -/
theorem fileSeek_cases (filenumber : UInt32) (position : UInt64) :
    (peer.fileSeek write filenumber position).2 = peer ∨
      ∃ i, (peer.slotEnd true i).slot.seekError position = none ∧
        peer.Moves (peer.fileSeek write filenumber position).2 true i
          { peer.slotEnd true i with
            slot := { (peer.slotEnd true i).slot with transferred := position }
            sent := (peer.slotEnd true i).sent ++
              [(some (peer.slotEnd true i).slot.id, .control filecontrolSeek (beBytes 8 position.toNat))] } := by
  unfold fileSeek
  by_cases honline : peer.files.online = false
  · exact .inl (by rw [if_pos honline])
  rw [if_neg honline]
  by_cases hnumber : filenumber.toNat < 2 ^ 16
  · exact .inl (by rw [if_pos hnumber])
  rw [if_neg hnumber]
  cases hslot : FriendFiles.fileSlot filenumber with
  | none => exact .inl rfl
  | some slot =>
    obtain ⟨receiving, i⟩ := slot
    cases herror : (peer.files.fileReceiving i).seekError position with
    | some error => exact .inl (by simp only [herror])
    | none =>
      cases hwrite : peer.files.sendFileControlPacket write true i filecontrolSeek (beBytes 8 position.toNat) with
      | none => exact .inl (by simp only [herror, hwrite])
      | some packet =>
        right
        have hpacket := sendFileControlPacket_eq_some hwrite
        refine ⟨i, herror, ?_⟩
        have hmoves := peer.moves_sends true i { peer.files.fileReceiving i with transferred := position }
          peer.files.numSendingFiles ⟨some (peer.files.fileReceiving i).id, packet⟩ []
          (by rw [hpacket]; exact slotPacket_control (by decide)) (by simp)
        simp only [herror, hwrite]
        simpa [sends, FriendFiles.setSlot, FriendFiles.setReceiving] using hmoves

/-- What `file_data` does. -/
theorem fileData_cases (freeSlots : ℕ) (filenumber : UInt32) (position : UInt64) (data : Bytes) :
    (peer.fileData write freeSlots filenumber position data).2 = peer ∨
      ∃ i number, (peer.slotEnd false i).slot.dataError position data = none ∧
        peer.Moves (peer.fileData write freeSlots filenumber position data).2 false i
          ⟨(peer.slotEnd false i).slot.dataSent number data,
            (peer.slotEnd false i).sent ++ [(some (peer.slotEnd false i).slot.id, .data data)],
            (peer.slotEnd false i).log ++ [(position, data)]⟩ := by
  unfold fileData
  by_cases honline : peer.files.online = false
  · exact .inl (by rw [if_pos honline])
  rw [if_neg honline]
  by_cases hnumber : filenumber.toNat ≥ maxConcurrentFilePipes
  · exact .inl (by rw [if_pos hnumber])
  rw [if_neg hnumber]
  generalize UInt8.ofNat filenumber.toNat = i
  cases herror : (peer.files.fileSending i).dataError position data with
  | some error => exact .inl (by simp only [herror])
  | none =>
    by_cases hfree : freeSlots < minSlotsFree
    · exact .inl (by simp only [herror, if_pos hfree])
    cases write with
    | none => exact .inl (by simp only [herror, if_neg hfree])
    | some number =>
      right
      refine ⟨i, number, herror, ?_⟩
      have hmoves :=
        peer.moves_sends false i ((peer.files.fileSending i).dataSent number data) peer.files.numSendingFiles
        ⟨some (peer.files.fileSending i).id, packetIdFileData :: i :: data⟩ [(position, data)] slotPacket_data (by simp)
      simp only [herror, if_neg hfree]
      simpa [sends, FriendFiles.setSlot, FriendFiles.setSending] using hmoves

/-- A call of the application does nothing, or is a call about one slot. -/
theorem call_cases (c : FileCall) :
    peer.call c = peer ∨
      ∃ receiving i e, SlotCall (c.Offers peer i) (c.Kills peer receiving i) receiving (peer.slotEnd receiving i) e ∧
        peer.Moves (peer.call c) receiving i e := by
  cases c with
  | newFilesender write fileType filesize fileId filename =>
    obtain ⟨-, h⟩ | ⟨i, hresult, hstatus, hmoves⟩ := peer.newFilesender_cases write fileType filesize fileId filename
    · exact .inl h
    · exact .inr ⟨false, i, _, .offer _ filesize fileId hresult rfl hstatus, hmoves⟩
  | fileControl write filenumber control =>
    obtain h | ⟨receiving, i, hslot, hresult, herror, hmoves⟩ := peer.fileControl_cases write filenumber control
    · exact .inl h
    · exact .inr ⟨receiving, i, _, .control _ control (fun hkill => ⟨hkill, hslot, hresult⟩) herror, hmoves⟩
  | fileSeek write filenumber position =>
    obtain h | ⟨i, herror, hmoves⟩ := peer.fileSeek_cases write filenumber position
    · exact .inl h
    · exact .inr ⟨true, i, _, .seek _ position rfl herror, hmoves⟩
  | fileData write freeSlots filenumber position data =>
    obtain h | ⟨i, number, herror, hmoves⟩ := peer.fileData_cases write freeSlots filenumber position data
    · exact .inl h
    · exact .inr ⟨false, i, _, .data _ number position data rfl herror, hmoves⟩

end FilePeer

end Toxcore
