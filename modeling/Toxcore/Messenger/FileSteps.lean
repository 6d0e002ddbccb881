import Toxcore.Messenger.FileSlots

/-!
# Steps of two messengers are steps of each transfer

Every step of two messengers is, for each slot, a sequence of steps of the transfer in it: calls of the application,
also those it makes when it is asked for chunks, chunks that are reserved, slots that are freed, and packets that
arrive.
-/

namespace Toxcore

open ByteStrings Relation Function List

/-! ## What a messenger does by itself -/

namespace FilePeer

variable (peer : FilePeer)

/-- Writing a slot changes its end of its transfer. -/
theorem moves_setSlot (receiving : Bool) (i : UInt8) (ft : FileTransfers) (num : UInt32) :
    peer.Moves { peer with files := { peer.files.setSlot receiving i ft with numSendingFiles := num } } receiving i
      { peer.slotEnd receiving i with slot := ft } where
  slotEnd_self := by
    apply SlotEnd.ext
    · exact FriendFiles.slot_setSlot_self peer.files receiving i ft
    · rfl
    · rfl
  slotEnd_other := by
    intro r j hne
    apply SlotEnd.ext
    · exact FriendFiles.slot_setSlot_other peer.files ft hne
    · rfl
    · rfl
  isOpen := by
    rintro ⟨honline, houtbox⟩
    exact ⟨(FriendFiles.setSlot_online peer.files receiving i ft).trans honline, houtbox⟩

/-- Reserving a chunk changes the sender's end. -/
theorem moves_reserve (i : UInt8) :
    peer.Moves (peer.reserve i) false i
      { peer.slotEnd false i with slot := (peer.slotEnd false i).slot.reserved } :=
  peer.moves_setSlot false i (peer.files.fileSending i).reserved peer.files.numSendingFiles

/-- Freeing a slot changes the sender's end. -/
theorem moves_acknowledge (i : UInt8) :
    peer.Moves (peer.acknowledge i) false i
      { peer.slotEnd false i with slot := { (peer.slotEnd false i).slot with status := .none } } :=
  peer.moves_setSlot false i { peer.files.fileSending i with status := .none } (peer.files.numSendingFiles - 1)

/-- What `handle_packet` does with an answer to it. -/
theorem moves_arrive (receiving : Bool) (i : UInt8) (ft : FileTransfers) (num : UInt32) (answers : List Bytes)
    (calls : List (UInt64 × Bytes)) (hcalls : receiving = false → calls = [])
    (hanswers : ∀ answer ∈ answers, slotPacket (!receiving) i answer = some .kill) :
    peer.Moves
      { files := { peer.files.setSlot receiving i ft with numSendingFiles := num }
        outbox := peer.outbox ++ answers.map fun bytes => ⟨none, bytes⟩
        accepted := peer.accepted
        filedata := peer.filedata ++ calls.map fun c => (i, c) } receiving i
      ⟨ft, (peer.slotEnd receiving i).sent ++ answers.map fun _ =>
        (none, .kill), (peer.slotEnd receiving i).log ++ calls⟩ where
  slotEnd_self := by
    apply SlotEnd.ext
    · exact FriendFiles.slot_setSlot_self peer.files receiving i ft
    · have hmap : (answers.map fun bytes => (⟨none, bytes⟩ : SentPacket)).filterMap (SentPacket.about (!receiving) i) =
          answers.map fun _ => (none, .kill) := by
        rw [filterMap_map, ← filterMap_eq_map]
        exact filterMap_congr fun answer hanswer => by simp [SentPacket.about, hanswers answer hanswer]
      simp only [slotEnd, filterMap_append, hmap]
    · cases receiving with
      | true => simp [slotEnd]
      | false => simp [slotEnd, hcalls]
  slotEnd_other := by
    intro r j hne
    apply SlotEnd.ext
    · exact FriendFiles.slot_setSlot_other peer.files ft hne
    · have hmap : (answers.map fun bytes => (⟨none, bytes⟩ : SentPacket)).filterMap (SentPacket.about (!r) j) = [] := by
        rw [filterMap_eq_nil_iff]
        intro packet hpacket
        obtain ⟨answer, hanswer, rfl⟩ := mem_map.mp hpacket
        exact SentPacket.about_other (hanswers answer hanswer) (by simpa using hne)
      simp only [slotEnd, filterMap_append, hmap, append_nil]
    · cases r with
      | false => simp [slotEnd]
      | true =>
        cases receiving with
        | false => simp [slotEnd, hcalls]
        | true =>
          have hj : j ≠ i := by simpa using hne
          simp [slotEnd, chunksOf_other hj]
  isOpen := by
    rintro ⟨honline, houtbox⟩
    refine ⟨(FriendFiles.setSlot_online peer.files receiving i ft).trans honline, fun packet hpacket => ?_⟩
    obtain hpacket | hpacket := mem_append.mp hpacket
    · exact houtbox packet hpacket
    · obtain ⟨answer, hanswer, rfl⟩ := mem_map.mp hpacket
      exact slotPacket_not_offline (hanswers answer hanswer)

/-- A slot that is written with what it holds. -/
theorem setSlot_slot (files : FriendFiles) (receiving : Bool) (i : UInt8) :
    files.setSlot receiving i (files.slot receiving i) = files := by
  cases receiving <;> simp [FriendFiles.setSlot, FriendFiles.setSending, FriendFiles.setReceiving]

/-- The answer to a control packet about a transfer that does not exist. -/
theorem sendFileControlPacket_kill {files : FriendFiles} (honline : files.online = true) (write : Option UInt32)
    (receiving : Bool) (i : UInt8) :
    (files.sendFileControlPacket write receiving i filecontrolKill []).toList =
      if write.isSome then [[packetIdFileControl, if receiving then 1 else 0, i, filecontrolKill]] else [] := by
  have hfits : ¬(1 + 3 + ([] : Bytes).length > maxCryptoDataSize) := by decide
  have hroom : ¬(3 ≥ maxCryptoDataSize) := by decide
  rw [FriendFiles.sendFileControlPacket, if_neg hfits, FriendFiles.writeCryptpacketId]
  cases write <;> simp [honline, hroom]

/-- What `handle_filecontrol` does with a packet that it reads. -/
theorem moves_handleFilecontrol (honline : peer.files.online = true) (write : Option UInt32) (receiving : Bool)
    (i controlType : UInt8) (data : Bytes) (htype : controlType ≤ filecontrolSeek) :
    peer.Moves
      { peer with
        files := (peer.files.handleFilecontrol write (if receiving then 0 else 1) i controlType data).1
        outbox := peer.outbox ++
          (peer.files.handleFilecontrol write (if receiving then 0 else 1) i controlType data).2.map fun bytes =>
            ⟨none, bytes⟩ }
      receiving i ((peer.slotEnd receiving i).arrive receiving write.isSome (.control controlType data)) := by
  have hside : ¬((if receiving then 0 else 1 : UInt8) > 1) := by cases receiving <;> decide
  have hreceiving : ((if receiving then 0 else 1 : UInt8) == 0) = receiving := by cases receiving <;> rfl
  have hkind : ¬(controlType > filecontrolSeek) := UInt8.not_lt.mpr htype
  simp only [FriendFiles.handleFilecontrol, if_neg hside, if_neg hkind, hreceiving]
  by_cases hstatus : (peer.files.slot receiving i).status = .none
  · rw [if_pos hstatus, sendFileControlPacket_kill honline]
    have hmoves := peer.moves_arrive receiving i (peer.files.slot receiving i) peer.files.numSendingFiles
      (if write.isSome then [[packetIdFileControl, if receiving then 1 else 0, i, filecontrolKill]] else []) []
      (fun _ => rfl) (fun answer hanswer => by
        rw [mem_ite_nil_right, mem_singleton] at hanswer
        rw [hanswer.2]
        exact slotPacket_control (by decide))
    rw [setSlot_slot] at hmoves
    convert hmoves using 1
    · simp
    · cases write <;> simp [SlotEnd.arrive, SlotPacket.arrive, SlotPacket.Answered, SlotPacket.heard, hstatus]
  · rw [if_neg hstatus]
    cases hhandle : (peer.files.slot receiving i).handleControl (!receiving) controlType data with
    | none =>
      have hmoves := peer.moves_arrive receiving i (peer.files.slot receiving i) peer.files.numSendingFiles [] []
        (fun _ => rfl) (by simp)
      rw [setSlot_slot] at hmoves
      convert hmoves using 1
      · simp
      · simp [SlotEnd.arrive, SlotPacket.arrive, SlotPacket.Answered, SlotPacket.heard, hstatus, hhandle]
    | some ft =>
      have hmoves := fun num => peer.moves_arrive receiving i ft num [] [] (fun _ => rfl) (by simp)
      have harrive : (peer.slotEnd receiving i).arrive receiving write.isSome (.control controlType data) =
          ⟨ft, (peer.slotEnd receiving i).sent, (peer.slotEnd receiving i).log⟩ := by
        simp [SlotEnd.arrive, SlotPacket.arrive, SlotPacket.Answered, SlotPacket.heard, hstatus, hhandle]
      rw [harrive]
      by_cases hkill : controlType = filecontrolKill ∧ receiving = false
      · simpa [if_pos hkill] using hmoves ((peer.files.setSlot receiving i ft).numSendingFiles - 1)
      · simpa [if_neg hkill] using hmoves (peer.files.setSlot receiving i ft).numSendingFiles

/-- The side that a control packet names. -/
theorem exists_side_of_le_one {receiveSend : UInt8} (h : receiveSend ≤ 1) :
    ∃ receiving : Bool, receiveSend = if receiving then 0 else 1 := by
  have hnat : receiveSend.toNat ≤ 1 := h
  obtain hzero | hone : receiveSend.toNat = 0 ∨ receiveSend.toNat = 1 := by omega
  · exact ⟨true, UInt8.toNat_inj.mp hzero⟩
  · exact ⟨false, UInt8.toNat_inj.mp hone⟩

/-- What `handle_packet` does: nothing, or the packet is about one slot and arrives there. -/
theorem handlePacket_cases (honline : peer.files.online = true) (write : Option UInt32) {packet : Bytes}
    (hpacket : packet.head? ≠ some packetIdOffline) :
    ((∀ r j, slotPacket r j packet = none) ∧ peer.handlePacket write packet = peer) ∨
      ∃ receiving i p, slotPacket receiving i packet = some p ∧
        peer.Moves (peer.handlePacket write packet) receiving i
          ((peer.slotEnd receiving i).arrive receiving write.isSome p) := by
  cases packet with
  | nil => exact .inl ⟨fun _ _ => rfl, rfl⟩
  | cons packetId data =>
    have hoffline : packetId ≠ packetIdOffline := by simpa using hpacket
    simp only [handlePacket, honline, Bool.true_eq_false, if_false, if_neg hoffline, slotPacket]
    by_cases hrequest : packetId = packetIdFileSendrequest
    · simp only [if_pos hrequest]
      by_cases hshort : data.length < 1 + 4 + 8 + 32
      · rw [if_pos hshort]
        exact .inl ⟨fun _ _ => if_neg fun h => by omega, rfl⟩
      by_cases hlong : data.length - (1 + 4 + 8 + 32) > maxFilenameLength
      · rw [if_neg hshort, if_pos hlong]
        exact .inl ⟨fun _ _ => if_neg fun h => by omega, rfl⟩
      rw [if_neg hshort, if_neg hlong]
      refine .inr ⟨true, data.getD 0 0, _, if_pos ⟨rfl, by omega, by omega, rfl⟩, ?_⟩
      have hmoves := peer.moves_arrive true (data.getD 0 0)
        ((peer.files.fileReceiving (data.getD 0 0)).requested? (UInt64.ofNat (beNat (slice 8 data 5).toList))
          (slice 32 data 13))
        peer.files.numSendingFiles [] [] (fun _ => rfl) (by simp)
      simpa [SlotEnd.arrive, SlotPacket.arrive, SlotPacket.Answered, SlotPacket.heard, FriendFiles.setSlot,
        FriendFiles.setReceiving] using hmoves
    simp only [if_neg hrequest]
    by_cases hcontrol : packetId = packetIdFileControl
    · simp only [if_pos hcontrol]
      by_cases hshort : data.length < 3
      · rw [if_pos hshort]
        exact .inl ⟨fun _ _ => if_neg fun h => by omega, rfl⟩
      rw [if_neg hshort]
      by_cases hread : data.getD 0 0 ≤ 1 ∧ data.getD 2 0 ≤ filecontrolSeek
      · obtain ⟨receiving, hside⟩ := exists_side_of_le_one hread.1
        refine .inr ⟨receiving, data.getD 1 0, _, if_pos ⟨by omega, hside, rfl, hread.2⟩, ?_⟩
        rw [hside]
        exact peer.moves_handleFilecontrol honline write receiving (data.getD 1 0) (data.getD 2 0) (data.drop 3) hread.2
      · have hrefused :
          peer.files.handleFilecontrol write (data.getD 0 0) (data.getD 1 0) (data.getD 2 0) (data.drop 3) =
            (peer.files, []) := by
          unfold FriendFiles.handleFilecontrol
          obtain hside | hkind := not_and_or.mp hread
          · rw [if_pos (UInt8.not_le.mp hside)]
          · rw [if_pos (UInt8.not_le.mp hkind), ite_self]
        refine .inl ⟨fun r j => if_neg fun h => hread ⟨?_, h.2.2.2⟩, by simp only [hrefused, map_nil, append_nil]⟩
        rw [h.2.1]
        cases r <;> decide
    simp only [if_neg hcontrol]
    by_cases hdata : packetId = packetIdFileData
    · simp only [if_pos hdata]
      by_cases hshort : data.length < 1
      · rw [if_pos hshort]
        exact .inl ⟨fun _ _ => if_neg fun h => by omega, rfl⟩
      rw [if_neg hshort]
      refine .inr ⟨true, data.getD 0 0, _, if_pos ⟨rfl, by omega, rfl⟩, ?_⟩
      have hmoves := peer.moves_arrive true (data.getD 0 0)
        ((peer.files.fileReceiving (data.getD 0 0)).receiveData (data.drop 1)).1 peer.files.numSendingFiles []
        ((peer.files.fileReceiving (data.getD 0 0)).receiveData (data.drop 1)).2 (by simp) (by simp)
      simpa [SlotEnd.arrive, SlotPacket.arrive, SlotPacket.Answered, SlotPacket.heard, FriendFiles.setSlot,
        FriendFiles.setReceiving] using hmoves
    · exact .inl ⟨fun _ _ => by rw [if_neg hdata], by rw [if_neg hdata]⟩

end FilePeer

/-! ## What this is for one transfer -/

variable {e : SlotEnd} {peer' : FilePeer} {receiving : Bool}

/-- A slot that changed is the end of one transfer. -/
theorem FileLink.transfer_moves_self {link : FileLink} {sender : Bool} {i : UInt8} {peer : FilePeer}
    (h : peer.Moves peer' receiving i e) :
    FileLink.transfer (update link (xor sender receiving) peer') sender i =
      update (FileLink.transfer (update link (xor sender receiving) peer) sender i) receiving e := by
  funext r
  by_cases hr : r = receiving
  · subst hr
    simp [FileLink.transfer, h.slotEnd_self]
  · have hside : xor sender r ≠ xor sender receiving := fun he => hr (by simpa using he)
    simp [FileLink.transfer, hr, hside]

/-- A slot that changed leaves the other transfers alone. -/
theorem FileLink.transfer_moves_other {link : FileLink} {sender side : Bool} {i j : UInt8} {peer : FilePeer}
    (h : peer.Moves peer' receiving i e) (hne : ¬(side = xor sender receiving ∧ i = j)) :
    FileLink.transfer (update link side peer') sender j =
      FileLink.transfer (update link side peer) sender j := by
  funext r
  by_cases hside : xor sender r = side
  · have hother : (r, j) ≠ (receiving, i) := by
      rintro ⟨⟩
      exact hne ⟨hside.symm, rfl⟩
    simp [FileLink.transfer, hside, h.slotEnd_other r j hother]
  · simp [FileLink.transfer, hside]

/-- The messengers are online, and no packet on its way ends the session. -/
def FileLink.Open (link : FileLink) : Prop := ∀ side, (link side).Open

section Steps

variable (mayOffer : Transfer → Prop) (mayKill : Prop) (sender : Bool) (i : UInt8)

/-- A call offers a file in the slot, or kills the transfer, only where this is allowed. -/
def FileCall.Allowed (link : FileLink) (side : Bool) (c : FileCall) : Prop :=
  (side = sender → c.Offers (link side) i → mayOffer (link.transfer sender i)) ∧
    ∀ receiving, side = xor sender receiving → c.Kills (link side) receiving i → mayKill

/-- Calls that are made one after the other are allowed. -/
def AllowedCalls (side : Bool) : FileLink → List FileCall → Prop
  | _, [] => True
  | link, c :: rest =>
    c.Allowed mayOffer mayKill sender i link side ∧
      AllowedCalls side (update link side ((link side).call c)) rest

/-- The calls in a step are allowed, also those that the application makes when it is asked for a chunk, in whatever
state that is. -/
def FileStep.Allowed (link : FileLink) : FileStep → Prop
  | .call side c => c.Allowed mayOffer mayKill sender i link side
  | .chunks side env => ∀ peer j position length,
    AllowedCalls mayOffer mayKill sender i side (update link side peer) (env.reqchunk peer j position length)
  | .deliver _ _ => True

variable {mayOffer mayKill sender i} {link : FileLink} {side : Bool}

/-- A call is a step of the transfer, or not about it. -/
theorem transfer_call (peer : FilePeer) {c : FileCall}
    (hallowed : c.Allowed mayOffer mayKill sender i (update link side peer) side) :
    FileLink.transfer (update link side (peer.call c)) sender i =
        FileLink.transfer (update link side peer) sender i ∨
      ∃ receiving e,
        SlotCall (mayOffer (FileLink.transfer (update link side peer) sender i)) mayKill receiving
          (FileLink.transfer (update link side peer) sender i receiving) e ∧
        FileLink.transfer (update link side (peer.call c)) sender i =
          update (FileLink.transfer (update link side peer) sender i) receiving e := by
  obtain hsame | ⟨receiving, j, e, hcall, hmoves⟩ := peer.call_cases c
  · exact .inl (by rw [hsame])
  by_cases hslot : side = xor sender receiving ∧ j = i
  · obtain ⟨rfl, rfl⟩ := hslot
    refine .inr ⟨receiving, e, ?_, FileLink.transfer_moves_self hmoves⟩
    have hend : FileLink.transfer (update link (xor sender receiving) peer) sender j receiving =
        peer.slotEnd receiving j := by
      simp [FileLink.transfer]
    rw [hend]
    cases hcall with
    | offer size fileId hoffers hreceiving hstatus =>
      refine .offer _ size fileId (hallowed.1 (by simp [hreceiving]) ?_) hreceiving hstatus
      simpa using hoffers
    | control control hkills herror =>
      refine .control _ control (fun h => hallowed.2 receiving rfl ?_) herror
      simpa using hkills h
    | seek position hreceiving herror => exact .seek _ position hreceiving herror
    | data number position data hreceiving herror => exact .data _ number position data hreceiving herror
  · exact .inl (FileLink.transfer_moves_other hmoves hslot)

variable {peer : FilePeer}

/-- A call keeps the session open. -/
theorem FilePeer.call_open (h : peer.Open) (c : FileCall) : (peer.call c).Open := by
  obtain hsame | ⟨_, _, _, -, hmoves⟩ := peer.call_cases c
  · rwa [hsame]
  · exact hmoves.isOpen h

variable (mayOffer mayKill sender i link side)

/-- What one messenger did is a sequence of steps of the transfer, and the session is still open. -/
structure StepSimulates (peer peer' : FilePeer) : Prop where
  steps : ReflTransGen (OwnStep mayOffer mayKill) (FileLink.transfer (update link side peer) sender i)
    (FileLink.transfer (update link side peer') sender i)
  isOpen : peer.Open → peer'.Open

variable {mayOffer mayKill sender i link side}

theorem StepSimulates.refl (peer : FilePeer) : StepSimulates mayOffer mayKill sender i link side peer peer :=
    ⟨.refl, id⟩

theorem StepSimulates.trans {peer'' : FilePeer} (h : StepSimulates mayOffer mayKill sender i link side peer peer')
    (h' : StepSimulates mayOffer mayKill sender i link side peer' peer'') :
    StepSimulates mayOffer mayKill sender i link side peer peer'' :=
  ⟨h.steps.trans h'.steps, h'.isOpen ∘ h.isOpen⟩

/-- A slot that changed, if this is a step of its transfer. -/
theorem StepSimulates.of_moves {j : UInt8} (h : peer.Moves peer' receiving j e)
    (hstep : side = xor sender receiving → j = i →
      OwnStep mayOffer mayKill (FileLink.transfer (update link side peer) sender i)
        (update (FileLink.transfer (update link side peer) sender i) receiving e)) :
    StepSimulates mayOffer mayKill sender i link side peer peer' := by
  refine ⟨?_, h.isOpen⟩
  by_cases hslot : side = xor sender receiving ∧ j = i
  · have hstep := hstep hslot.1 hslot.2
    obtain ⟨rfl, rfl⟩ := hslot
    rw [FileLink.transfer_moves_self h]
    exact .single hstep
  · rw [FileLink.transfer_moves_other h hslot]

/-- A call. -/
theorem StepSimulates.of_call {c : FileCall}
    (hallowed : c.Allowed mayOffer mayKill sender i (update link side peer) side) :
    StepSimulates mayOffer mayKill sender i link side peer (peer.call c) := by
  refine ⟨?_, fun h => FilePeer.call_open h c⟩
  obtain hsame | ⟨receiving, e, hcall, hnext⟩ := transfer_call peer hallowed
  · rw [hsame]
  · rw [hnext]
    exact .single (.call receiving e hcall)

/-- Calls that are made one after the other. -/
theorem StepSimulates.of_calls {calls : List FileCall}
    (hallowed : AllowedCalls mayOffer mayKill sender i side (update link side peer) calls) :
    StepSimulates mayOffer mayKill sender i link side peer (calls.foldl FilePeer.call peer) := by
  induction calls generalizing peer with
  | nil => exact .refl peer
  | cons c rest ih =>
    obtain ⟨hcall, hrest⟩ := hallowed
    simp only [update_self, update_idem] at hrest
    exact (StepSimulates.of_call hcall).trans (ih hrest)

/-- A call about the sender's slot does not change that the file was sent, unless it kills the transfer. -/
theorem SlotCall.finished {mayOffer mayKill : Prop} {e' : SlotEnd} (h : SlotCall mayOffer mayKill false e e')
    (hkill : ¬mayKill) (hstatus : e.slot.status = .finished) : e'.slot.status = .finished := by
  cases h with
  | offer size fileId hmay hreceiving hnone => simp [hstatus] at hnone
  | control control hmay herror =>
    obtain ⟨htwo, -⟩ | ⟨-, htransferring, -⟩ | ⟨-, htransferring, -⟩ | ⟨-, haccepted, -⟩ :=
      FileTransfers.controlError_eq_none herror
    · exact absurd (hmay htwo) hkill
    · simp [hstatus] at htransferring
    · simp [hstatus] at htransferring
    · simp [hstatus] at haccepted
  | seek position hreceiving herror => simp at hreceiving
  | data number position data hreceiving herror => simp [FileTransfers.dataError, hstatus] at herror

/-- Calls of the application do not change that the file was sent, unless they kill the transfer. -/
theorem calls_finished {calls : List FileCall} (hkill : ¬mayKill)
    (hallowed : AllowedCalls mayOffer mayKill sender i side (update link side peer) calls)
    (hstatus : (FileLink.transfer (update link side peer) sender i false).slot.status = .finished) :
    (FileLink.transfer (update link side (calls.foldl FilePeer.call peer)) sender i false).slot.status =
      .finished := by
  induction calls generalizing peer with
  | nil => exact hstatus
  | cons c rest ih =>
    obtain ⟨hcall, hrest⟩ := hallowed
    simp only [update_self, update_idem] at hrest
    refine ih hrest ?_
    obtain hsame | ⟨receiving, e, hslot, hnext⟩ := transfer_call peer hcall
    · rwa [hsame]
    · rw [hnext]
      cases receiving with
      | true => simpa using hstatus
      | false => simpa using hslot.finished hkill hstatus

section Chunks

variable {env : FilePeer.ChunkEnv}
  (henv : ∀ peer j position length,
    AllowedCalls mayOffer mayKill sender i side (update link side peer) (env.reqchunk peer j position length))

include henv

/-- A slot in use before the inner loop. -/
theorem StepSimulates.of_checkFinished (peer : FilePeer) (j : UInt8) :
    StepSimulates mayOffer mayKill sender i link side peer (peer.checkFinished env j) := by
  simp only [FilePeer.checkFinished]
  split_ifs with hfinished
  · refine (StepSimulates.of_calls (henv peer j _ 0)).trans
      (.of_moves (FilePeer.moves_acknowledge _ j) fun hside hj => ?_)
    subst hj
    have hend (p : FilePeer) : FileLink.transfer (update link side p) sender j false = p.slotEnd false j := by
      simp [FileLink.transfer, hside]
    rw [← hend]
    refine .acknowledge ?_
    by_cases hkill : mayKill
    · exact .inr hkill
    · left
      apply calls_finished hkill (henv peer j _ 0)
      rw [hend]
      exact hfinished.1
  · exact .refl peer

/-- The inner loop. -/
theorem StepSimulates.of_reqchunkLoop (j : UInt8) (freeSlots : ℕ) (peer : FilePeer) :
    StepSimulates mayOffer mayKill sender i link side peer (FilePeer.reqchunkLoop env j freeSlots peer).2 := by
  induction freeSlots generalizing peer with
  | zero => exact .refl peer
  | succ freeSlots ih =>
    simp only [FilePeer.reqchunkLoop]
    split_ifs with hstop hspeed hempty hrequested
    · exact .refl peer
    · exact .refl peer
    · have hcall : StepSimulates mayOffer mayKill sender i link side peer
          (peer.call (.fileData (env.write j) (env.freeSlotsEmpty j) (UInt32.ofNat j.toNat) 0 [])) :=
        .of_call ⟨fun _ h => by simp [FileCall.Offers] at h, fun _ _ h => by simp [FileCall.Kills] at h⟩
      exact hcall
    · exact .refl peer
    · have hreserve : StepSimulates mayOffer mayKill sender i link side peer (peer.reserve j) := by
        refine .of_moves (peer.moves_reserve j) fun hside hj => ?_
        subst hj
        have hend : FileLink.transfer (update link side peer) sender j false = peer.slotEnd false j := by
          simp [FileLink.transfer, hside]
        rw [← hend]
        refine .reserve ?_ ?_
        · rw [hend]
          exact not_not.mp (not_or.mp hstop).1
        · rw [hend]
          exact hrequested
      exact (hreserve.trans (StepSimulates.of_calls (henv (peer.reserve j) j _ _))).trans (ih _)

/-- The loop over the slots. -/
theorem StepSimulates.of_reqchunkSlots (slots : List UInt8) (num : UInt32) (freeSlots : ℕ) (peer : FilePeer) :
    StepSimulates mayOffer mayKill sender i link side peer (FilePeer.reqchunkSlots env slots num freeSlots peer) := by
  induction slots generalizing num freeSlots peer with
  | nil => exact .refl peer
  | cons j rest ih =>
    simp only [FilePeer.reqchunkSlots]
    split_ifs with hused hlast hnum
    · exact (StepSimulates.of_checkFinished henv peer j).trans (StepSimulates.of_reqchunkLoop henv j _ _)
    · exact ((StepSimulates.of_checkFinished henv peer j).trans (StepSimulates.of_reqchunkLoop henv j _ _)).trans
        (ih _ _ _)
    · exact .refl peer
    · exact ih _ _ _

/-- Asking for chunks. -/
theorem StepSimulates.of_doReqchunkFilecb (peer : FilePeer) :
    StepSimulates mayOffer mayKill sender i link side peer (peer.doReqchunkFilecb env) := by
  unfold FilePeer.doReqchunkFilecb
  split_ifs with hnum
  · exact .refl peer
  · exact .of_reqchunkSlots henv _ _ _ peer

end Chunks

section

variable (hopen : link.Open)
include hopen

/-- A packet that arrives leaves the session open. -/
theorem FileLink.deliver_open (write : Option UInt32) : (link.deliver side write).Open := by
  cases hout : (link (!side)).outbox with
  | nil => simpa only [FileLink.deliver, hout] using hopen
  | cons packet rest =>
    simp only [FileLink.deliver, hout]
    intro r
    by_cases hr : r = side
    · subst hr
      rw [update_self]
      have hpacket := (hopen (!r)).2 packet (by rw [hout]; exact mem_cons_self)
      obtain ⟨-, hsame⟩ | ⟨_, _, _, -, hmoves⟩ := (link r).handlePacket_cases (hopen r).1 write hpacket
      · rw [hsame]
        exact hopen r
      · exact hmoves.isOpen (hopen r)
    · obtain rfl : r = !side := Bool.eq_not.mpr hr
      rw [update_of_ne hr, update_self]
      refine ⟨(hopen _).1, fun q hq => (hopen (!side)).2 q ?_⟩
      rw [hout]
      exact mem_cons_of_mem packet hq

/-- A packet that is not about the transfer leaves it alone. -/
theorem FileLink.transfer_deliver_other (write : Option UInt32) {packet : SentPacket} {rest : List SentPacket}
    (hout : (link (!side)).outbox = packet :: rest) (habout : packet.about (xor sender side) i = none) :
    (link.deliver side write).transfer sender i = link.transfer sender i := by
  have hpacket := (hopen (!side)).2 packet (by rw [hout]; exact mem_cons_self)
  have hslot : ∀ receiving j p, slotPacket receiving j packet.bytes = some p →
    (xor sender side, i) ≠ (receiving, j) := by
    rintro receiving j p hp ⟨⟩
    simp [SentPacket.about, hp] at habout
  simp only [FileLink.deliver, hout]
  funext r
  by_cases hr : xor sender r = side
  · obtain rfl : r = xor sender side := by rw [← hr]; simp
    simp only [FileLink.transfer, hr, update_self]
    obtain ⟨-, hsame⟩ | ⟨receiving, j, p, hp, hmoves⟩ := (link side).handlePacket_cases (hopen side).1 write hpacket
    · rw [hsame]
    · exact hmoves.slotEnd_other _ _ (hslot receiving j p hp)
  · have hother : xor sender r = !side := Bool.eq_not.mpr hr
    have hr' : (!r) = xor sender side := by rw [← Bool.not_not side, ← hother]; simp
    simp only [FileLink.transfer, hother, update_of_ne (Bool.not_ne_self side), update_self]
    apply SlotEnd.ext
    · rfl
    · simp [FilePeer.slotEnd, hout, hr', habout]
    · rfl

/-- A packet about the transfer arrives at its end. -/
theorem FileLink.transfer_deliver_self (write : Option UInt32) {packet : SentPacket} {rest : List SentPacket}
    {p : SlotPacket} (hout : (link (!side)).outbox = packet :: rest)
    (hp : slotPacket (xor sender side) i packet.bytes = some p) :
    (link.transfer sender i (!xor sender side)).sent =
        (packet.fileId, p) :: rest.filterMap (SentPacket.about (xor sender side) i) ∧
      (link.deliver side write).transfer sender i =
        update
          (update (link.transfer sender i) (!xor sender side)
            { link.transfer sender i (!xor sender side) with
              sent := rest.filterMap (SentPacket.about (xor sender side) i) })
          (xor sender side)
          ((link.transfer sender i (xor sender side)).arrive (xor sender side) write.isSome p) := by
  have hpacket := (hopen (!side)).2 packet (by rw [hout]; exact mem_cons_self)
  have hthere : xor sender (!xor sender side) = !side := by simp
  constructor
  · simp [FileLink.transfer, hthere, FilePeer.slotEnd, hout, SentPacket.about, hp]
  simp only [FileLink.deliver, hout]
  funext r
  by_cases hr : r = xor sender side
  · subst hr
    have hhere : xor sender (xor sender side) = side := by simp
    simp only [FileLink.transfer, hhere, update_self]
    obtain ⟨hnone, -⟩ | ⟨receiving, j, p', hp', hmoves⟩ := (link side).handlePacket_cases (hopen side).1 write hpacket
    · rw [hnone] at hp
      cases hp
    · obtain ⟨rfl, rfl⟩ := slotPacket_unique hp' hp
      obtain rfl : p' = p := Option.some_injective _ (hp'.symm.trans hp)
      exact hmoves.slotEnd_self
  · obtain rfl : r = !xor sender side := Bool.eq_not.mpr hr
    simp only [FileLink.transfer, hthere, update_of_ne (Bool.not_ne_self _), update_self]
    apply SlotEnd.ext
    · rfl
    · simp [FilePeer.slotEnd]
    · rfl

/-- A packet that arrives is a step of the transfer, or not about it. -/
theorem FileLink.transfer_deliver (write : Option UInt32) :
    (link.deliver side write).transfer sender i = link.transfer sender i ∨
      Arrives (link.transfer sender i) ((link.deliver side write).transfer sender i) := by
  cases hout : (link (!side)).outbox with
  | nil => exact .inl (by simp only [FileLink.deliver, hout])
  | cons packet rest =>
    cases hp : slotPacket (xor sender side) i packet.bytes with
    | none => exact .inl (link.transfer_deliver_other hopen write hout (by rw [SentPacket.about, hp]; rfl))
    | some p =>
      obtain ⟨hsent, hnext⟩ := link.transfer_deliver_self hopen write hout hp
      rw [hnext]
      exact .inr (.arrive _ _ _ _ _ hsent)

/-- Every step of the messengers is a sequence of steps of an end of the transfer, or a packet that arrives there. -/
theorem FileStep.exec_cases (step : FileStep) (hallowed : step.Allowed mayOffer mayKill sender i link) :
    (step.exec link).Open ∧
      (ReflTransGen (OwnStep mayOffer mayKill) (link.transfer sender i) ((step.exec link).transfer sender i) ∨
        Arrives (link.transfer sender i) ((step.exec link).transfer sender i)) := by
  have hsimulates {side : Bool} {peer : FilePeer}
    (h : StepSimulates mayOffer mayKill sender i link side (link side) peer) :
      FileLink.Open (update link side peer) ∧
        (ReflTransGen (OwnStep mayOffer mayKill) (link.transfer sender i)
            (FileLink.transfer (update link side peer) sender i) ∨
          Arrives (link.transfer sender i) (FileLink.transfer (update link side peer) sender i)) := by
    refine ⟨fun r => ?_, .inl (by simpa using h.steps)⟩
    by_cases hr : r = side
    · subst hr
      simpa using h.isOpen (hopen r)
    · simpa [hr] using hopen r
  cases step with
  | call side c => exact hsimulates (.of_call (by simpa [FileStep.Allowed] using hallowed))
  | chunks side env => exact hsimulates (.of_doReqchunkFilecb hallowed _)
  | deliver side write =>
    refine ⟨link.deliver_open hopen write, ?_⟩
    obtain hsame | harrives := link.transfer_deliver hopen write
    · exact .inl (hsame ▸ .refl)
    · exact .inr harrives

/-- Every step of the messengers is a sequence of steps of the transfer. -/
theorem FileStep.exec_transfer (step : FileStep) (hallowed : step.Allowed mayOffer mayKill sender i link) :
    (step.exec link).Open ∧
      ReflTransGen (TransferStep mayOffer mayKill) (link.transfer sender i) ((step.exec link).transfer sender i) := by
  obtain ⟨hopen', hown | harrives⟩ := step.exec_cases hopen hallowed
  · exact ⟨hopen', ReflTransGen.mono (fun _ _ hstep => TransferStep.own hstep) _ _ hown⟩
  · exact ⟨hopen', .single (.arrive harrives)⟩

end

variable (mayOffer mayKill sender i)

/-- The steps of a run are allowed. -/
def AllowedSteps : FileLink → List FileStep → Prop
  | _, [] => True
  | link, step :: rest => step.Allowed mayOffer mayKill sender i link ∧ AllowedSteps (step.exec link) rest

variable {mayOffer mayKill sender i}

/-- A run of the messengers is a run of the transfer. -/
theorem run_transfer {steps : List FileStep} (hopen : link.Open)
    (hallowed : AllowedSteps mayOffer mayKill sender i link steps) :
    FileLink.Open (steps.foldl (fun link step => step.exec link) link) ∧
      ReflTransGen (TransferStep mayOffer mayKill) (link.transfer sender i)
        (FileLink.transfer (steps.foldl (fun link step => step.exec link) link) sender i) := by
  induction steps generalizing link with
  | nil => exact ⟨hopen, .refl⟩
  | cons step rest ih =>
    obtain ⟨hstep, hrest⟩ := hallowed
    obtain ⟨hopen', hfirst⟩ := step.exec_transfer hopen hstep
    obtain ⟨hopen'', hlater⟩ := ih hopen' hrest
    exact ⟨hopen'', hfirst.trans hlater⟩

end Steps

end Toxcore
