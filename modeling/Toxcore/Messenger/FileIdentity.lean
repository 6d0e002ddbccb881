import Toxcore.Messenger.FileControls

/-!
# Packets and the transfer they were sent for

A packet names a slot, not a transfer. What the sender sends comes to the receiver behind the request of its transfer
and before the request of the next one, so it finds its own transfer, or none. What the receiver sends may meet the
next transfer in the sender's slot: an accept, a kill or a seek that crosses a request acts on the wrong file. A pause
that crosses one does not, as the file that is requested has not been accepted.
-/

namespace Toxcore

open ByteStrings Relation SentPackets Function List

/-! ## Packets that cross a request -/

namespace SlotPacket

/-- The packet requests a transfer. -/
def IsRequest : SlotPacket → Prop
  | request _ _ => True
  | _ => False

/-- The packet pauses a transfer. -/
def IsPause : SlotPacket → Prop
  | control controlType _ => controlType = filecontrolPause
  | _ => False

instance : DecidablePred IsRequest
  | request _ _ => inferInstanceAs (Decidable True)
  | control _ _ => inferInstanceAs (Decidable False)
  | .data _ => inferInstanceAs (Decidable False)

instance : DecidablePred IsPause
  | request _ _ => inferInstanceAs (Decidable False)
  | control controlType _ => inferInstanceAs (Decidable (controlType = filecontrolPause))
  | .data _ => inferInstanceAs (Decidable False)

/-- The packets that request a transfer. -/
theorem isRequest_iff {p : SlotPacket} : p.IsRequest ↔ ∃ size fileId, p = .request size fileId := by
  refine ⟨fun h => ?_, fun ⟨_, _, h⟩ => h ▸ trivial⟩
  cases p with
  | request size fileId => exact ⟨size, fileId, rfl⟩
  | control controlType data => exact h.elim
  | data bytes => exact h.elim

end SlotPacket

/-- While a request is on its way, the receiver has sent nothing about the transfer in its slot but that it paused
it. -/
def Transfer.Calm (t : Transfer) : Prop :=
  (∃ entry ∈ (t false).sent, entry.2.IsRequest) → ∀ entry ∈ (t true).sent, entry.1.isSome → entry.2.IsPause

/-- Nothing but pauses crosses a request, and a request that is the next packet finds the slot of the receiver free. -/
def Transfer.Uncrossed (t : Transfer) : Prop :=
  (∀ entry ∈ (t false).sent.head?, entry.2.IsRequest → (t true).slot.status = .none) ∧ t.Calm

instance (t : Transfer) : Decidable t.Calm := inferInstanceAs (Decidable (_ → _))

instance (t : Transfer) : Decidable t.Uncrossed := inferInstanceAs (Decidable (_ ∧ _))

/-- Nothing but pauses crosses a request for a slot in a run, in any state, that at the end included. -/
def UncrossedRun (sender : Bool) (i : UInt8) : FileLink → List FileStep → Prop
  | link, [] => (link.transfer sender i).Uncrossed
  | link, step :: rest => (link.transfer sender i).Uncrossed ∧ UncrossedRun sender i (step.exec link) rest

instance decidableUncrossedRun (sender : Bool) (i : UInt8) :
    (link : FileLink) → (steps : List FileStep) → Decidable (UncrossedRun sender i link steps)
  | link, [] => inferInstanceAs (Decidable (link.transfer sender i).Uncrossed)
  | link, step :: rest =>
    have := decidableUncrossedRun sender i (step.exec link) rest
    inferInstanceAs (Decidable (_ ∧ _))

/-- The next packet for a messenger, if it is about the slot in which `sender` sends, does not change a transfer with
another id than that of the transfer for which it was sent, and passes no data on to it. -/
def FileLink.RespectsTransfers (link : FileLink) (sender : Bool) (i : UInt8) : Prop :=
  ∀ side packet rest p id, (link (!side)).outbox = packet :: rest →
    slotPacket (xor sender side) i packet.bytes = some p → packet.fileId = some id →
    ((link side).files.slot (xor sender side) i).status ≠ .none → ((link side).files.slot (xor sender side) i).id ≠ id →
    ∀ write,
      ((link.deliver side write side).files.slot (xor sender side) i).status =
      ((link side).files.slot (xor sender side) i).status ∧
      ((link.deliver side write side).files.slot (xor sender side) i).transferred =
        ((link side).files.slot (xor sender side) i).transferred ∧
      ((link.deliver side write side).files.slot (xor sender side) i).paused =
      ((link side).files.slot (xor sender side) i).paused ∧
      chunksOf i (link.deliver side write side).filedata = chunksOf i (link side).filedata

/-! ## The transfer that a slot holds -/

/-- The id of the transfer that a slot holds. -/
def FileTransfers.held (ft : FileTransfers) : Option (Block 32) := if ft.status = .none then none else some ft.id

variable {ft : FileTransfers} {p : SlotPacket} {i : UInt8} {link : FileLink}

/-- A slot in use holds a transfer. -/
theorem FileTransfers.held_eq (h : ft.status ≠ .none) : ft.held = some ft.id := if_neg h

/-- A slot that keeps its id while it is in use holds nothing else. -/
theorem FileTransfers.held_mono {ft' : FileTransfers} (h : ft'.status ≠ .none → ft.status ≠ .none ∧ ft'.id = ft.id) :
    ∀ id ∈ ft'.held, id ∈ ft.held := by
  intro id hid
  by_cases hfree : ft'.status = .none
  · simp [held, hfree] at hid
  · obtain ⟨hused, hsame⟩ := h hfree
    rwa [held_eq hfree, hsame, ← held_eq hused] at hid

@[simp] theorem FileTransfers.controlled_id (ft : FileTransfers) (control : UInt32) :
    (ft.controlled control).id = ft.id := by
  unfold controlled
  split_ifs <;> rfl

@[simp] theorem FileTransfers.dataSent_id (ft : FileTransfers) (number : UInt32) (data : Bytes) :
    (ft.dataSent number data).id = ft.id := by
  simp only [dataSent]
  split_ifs <;> rfl

/-- A transfer that is controlled is in use. -/
theorem FileTransfers.used_of_controlError {receiving : Bool} {control : UInt32}
    (h : ft.controlError receiving control = none) : ft.status ≠ .none := by
  intro hnone
  simp [controlError, hnone] at h

/-- A packet other than a request leaves a slot with the transfer that it held, or frees it. -/
theorem SlotPacket.arrive_id (receiving : Bool) (ft : FileTransfers) (hp : ¬p.IsRequest)
    (h : (p.arrive receiving ft).status ≠ .none) : ft.status ≠ .none ∧ (p.arrive receiving ft).id = ft.id := by
  by_cases hfree : ft.status = .none
  · cases p with
    | request size fileId => exact absurd trivial hp
    | control controlType data => simp [arrive, hfree] at h
    | data bytes => simp [arrive, FileTransfers.receiveData, hfree] at h
  · refine ⟨hfree, ?_⟩
    cases p with
    | request size fileId => exact absurd trivial hp
    | control controlType data =>
      simp only [arrive, if_neg hfree, FileTransfers.handleControl]
      split_ifs <;> rfl
    | data bytes =>
      simp only [arrive, FileTransfers.receiveData]
      split_ifs <;> rfl

/-- A file that was offered and not accepted is not changed by a pause. -/
theorem SlotPacket.arrive_pause (hp : p.IsPause) (hstatus : ft.status = .notAccepted) : p.arrive false ft = ft := by
  cases p with
  | request size fileId => exact hp.elim
  | control controlType data =>
    obtain rfl : controlType = filecontrolPause := hp
    simp [arrive, hstatus, FileTransfers.handleControl, filecontrolPause, filecontrolAccept]
  | data bytes => exact hp.elim

namespace SentPackets

/-- The transfer that a receiver's slot holds when all packets have arrived, unless they free it. -/
def heldAfter (held : Option (Block 32)) (sent : SentPackets) : Option (Block 32) :=
  sent.foldl (fun held entry => match entry.2 with
    | .request _ fileId => some fileId
    | _ => held) held

/-- Every packet was sent for the transfer that the receiver's slot holds when it arrives. -/
def InOrder : Option (Block 32) → SentPackets → Prop
  | _, [] => True
  | _, (_, .request _ fileId) :: rest => InOrder (some fileId) rest
  | held, (fileId, _) :: rest => (∀ id ∈ fileId, ∀ id' ∈ held, id = id') ∧ InOrder held rest

variable {sent : SentPackets} {held held' : Option (Block 32)} {entry : Option (Block 32) × SlotPacket}

/-- A packet other than a request is in order if it is for the transfer that is held, and so are the others. -/
theorem inOrder_cons (hentry : ¬entry.2.IsRequest) :
    InOrder held (entry :: sent) ↔ (∀ id ∈ entry.1, ∀ id' ∈ held, id = id') ∧ InOrder held sent := by
  obtain ⟨fileId, p⟩ := entry
  cases p with
  | request size fileId' => exact absurd trivial hentry
  | control controlType data => exact Iff.rfl
  | data bytes => exact Iff.rfl

/-- A packet other than a request does not change what is held. -/
theorem heldAfter_cons (hentry : ¬entry.2.IsRequest) : heldAfter held (entry :: sent) = heldAfter held sent := by
  obtain ⟨fileId, p⟩ := entry
  cases p with
  | request size fileId' => exact absurd trivial hentry
  | control controlType data => rfl
  | data bytes => rfl

/-- Without a request the transfer stays. -/
theorem heldAfter_eq (h : ∀ entry ∈ sent, ¬entry.2.IsRequest) : heldAfter held sent = held := by
  induction sent with
  | nil => rfl
  | cons entry rest ih =>
    obtain ⟨hfirst, hrest⟩ := forall_mem_cons.mp h
    exact (heldAfter_cons hfirst).trans (ih hrest)

variable {others : SentPackets} {entry : Option (Block 32) × SlotPacket}

/-- Packets other than requests that were sent last. -/
theorem heldAfter_append (h : ∀ entry ∈ others, ¬entry.2.IsRequest) :
    heldAfter held (sent ++ others) = heldAfter held sent :=
  (foldl_append ..).trans (heldAfter_eq h)

/-- A receiver that lets go of its transfer. -/
theorem heldAfter_mono (h : ∀ id ∈ held', id ∈ held) : ∀ id ∈ heldAfter held' sent, id ∈ heldAfter held sent := by
  induction sent generalizing held held' with
  | nil => exact h
  | cons entry rest ih =>
    by_cases hentry : entry.2.IsRequest
    · obtain ⟨fileId, p⟩ := entry
      obtain ⟨size, fileId', rfl⟩ := SlotPacket.isRequest_iff.mp hentry
      exact fun id hid => hid
    · rw [heldAfter_cons hentry, heldAfter_cons hentry]
      exact ih h

/-- A receiver that lets go of its transfer gets the packets in order. -/
theorem InOrder.mono (hin : InOrder held sent) (h : ∀ id ∈ held', id ∈ held) : InOrder held' sent := by
  induction sent generalizing held held' with
  | nil => trivial
  | cons entry rest ih =>
    by_cases hentry : entry.2.IsRequest
    · obtain ⟨fileId, p⟩ := entry
      obtain ⟨size, fileId', rfl⟩ := SlotPacket.isRequest_iff.mp hentry
      exact hin
    · rw [inOrder_cons hentry] at hin ⊢
      exact ⟨fun id hid id' hid' => hin.1 id hid id' (h id' hid'), ih hin.2 h⟩

/-- Packets other than requests that were sent for the transfer that is held. -/
theorem inOrder_of_label (hquiet : ∀ entry ∈ sent, ¬entry.2.IsRequest)
    (h : ∀ entry ∈ sent, ∀ id ∈ entry.1, ∀ id' ∈ held, id = id') :
    InOrder held sent := by
  induction sent with
  | nil => trivial
  | cons entry rest ih =>
    obtain ⟨hfirst, hrest⟩ := forall_mem_cons.mp hquiet
    obtain ⟨hlabel, hlabels⟩ := forall_mem_cons.mp h
    exact (inOrder_cons hfirst).mpr ⟨hlabel, ih hrest hlabels⟩

/-- Packets that are sent later. -/
theorem InOrder.append (hin : InOrder held sent) (h : InOrder (heldAfter held sent) others) :
    InOrder held (sent ++ others) := by
  induction sent generalizing held with
  | nil => exact h
  | cons first rest ih =>
    by_cases hfirst : first.2.IsRequest
    · obtain ⟨fileId, p⟩ := first
      obtain ⟨size, fileId', rfl⟩ := SlotPacket.isRequest_iff.mp hfirst
      exact ih hin h
    · rw [cons_append, inOrder_cons hfirst]
      rw [inOrder_cons hfirst] at hin
      rw [heldAfter_cons hfirst] at h
      exact ⟨hin.1, ih hin.2 h⟩

end SentPackets

/-! ## What is sent for a transfer -/

namespace Transfer

/-- What the sender has sent finds its own transfer. What the receiver has sent is for the sender's transfer, behind
pauses that were for earlier ones; as long as there are such pauses, or a request is on its way, the sender's transfer
has not been accepted. -/
structure Follows (t : Transfer) : Prop where
  inOrder : InOrder (t true).slot.held (t false).sent
  latest : (t false).slot.status ≠ .none → ∀ id ∈ heldAfter (t true).slot.held (t false).sent, id = (t false).slot.id
  waiting : (∃ entry ∈ (t false).sent, entry.2.IsRequest) →
    (t false).slot.status = .none ∨ (t false).slot.status = .notAccepted
  controls : OnlyControls (t true).sent
  answers : ∀ entry ∈ (t true).sent, entry.1 = none → entry.2 = .kill
  labels : (t false).slot.status ≠ .none → ∃ stale fresh, (t true).sent = stale ++ fresh ∧
    (∀ entry ∈ stale, entry.1.isSome → entry.2.IsPause) ∧
    (∀ entry ∈ fresh, ∀ id ∈ entry.1, id = (t false).slot.id) ∧ (stale ≠ [] → (t false).slot.status = .notAccepted)

variable {t t' : Transfer}

/-- Nothing is on its way that is not for the transfer of the sender. -/
def Settled (t : Transfer) : Prop :=
  (∀ entry ∈ (t false).sent, ¬entry.2.IsRequest) ∧ ∀ entry ∈ (t true).sent, ∀ id ∈ entry.1, id = (t false).slot.id

variable {log : List (UInt64 × Bytes)} {slot : FileTransfers} {label : Option (Block 32)} {p : SlotPacket}
  {mayKill : Prop} {mayOffer : Transfer → Prop} {rest : SentPackets}

section

variable (h : t.Follows)
include h

/-- The sender's end changed: it still holds its transfer, or let go of it, and sent packets for it, or answers. The
transfer becomes accepted only if nothing is on its way for another one. -/
theorem Follows.sender (hslot : slot.status ≠ .none → (t false).slot.status ≠ .none ∧ slot.id = (t false).slot.id)
    (hstatus : (t false).slot.status = .notAccepted → slot.status = .none ∨ slot.status = .notAccepted ∨ t.Settled)
    (hothers : ∀ entry ∈ others, ¬entry.2.IsRequest ∧ ∀ id ∈ entry.1, (t false).slot.status ≠ .none ∧
      id = (t false).slot.id) :
    Transfer.Follows (update t false ⟨slot, (t false).sent ++ others, log⟩) := by
  have hquiet : ∀ entry ∈ others, ¬entry.2.IsRequest := fun entry hentry => (hothers entry hentry).1
  constructor <;> simp only [update_self, update_of_ne (Bool.noConfusion : true ≠ false),
    heldAfter_append hquiet]
  · refine h.inOrder.append (inOrder_of_label hquiet fun entry hentry id hid id' hid' => ?_)
    obtain ⟨hused, rfl⟩ := (hothers entry hentry).2 id hid
    exact (h.latest hused id' hid').symm
  · intro hused id hid
    obtain ⟨hused', hid'⟩ := hslot hused
    exact hid' ▸ h.latest hused' id hid
  · rintro ⟨entry, hentry, hrequest⟩
    obtain hentry | hentry := mem_append.mp hentry
    · by_cases hused : slot.status = .none
      · exact .inl hused
      · have hwas := (h.waiting ⟨entry, hentry, hrequest⟩).resolve_left (hslot hused).1
        obtain hstill | hsettled := (hstatus hwas).resolve_left hused
        · exact .inr hstill
        · exact absurd hrequest (hsettled.1 entry hentry)
    · exact absurd hrequest (hquiet entry hentry)
  · exact h.controls
  · exact h.answers
  · intro hused
    obtain ⟨hused', hid⟩ := hslot hused
    rw [hid]
    obtain ⟨stale, fresh, hsent, hstale, hfresh, hwaits⟩ := h.labels hused'
    by_cases hempty : stale = []
    · exact ⟨stale, fresh, hsent, hstale, hfresh, fun hne => absurd hempty hne⟩
    · obtain hstill | hsettled := (hstatus (hwaits hempty)).resolve_left hused
      · exact ⟨stale, fresh, hsent, hstale, hfresh, fun _ => hstill⟩
      · exact ⟨[], _, rfl, fun entry hentry => absurd hentry not_mem_nil, hsettled.2, fun hne => absurd rfl hne⟩

/-- The receiver's end changed: it still holds its transfer, or let go of it, and sent control packets for it, or
answers. While a request is on its way, it sent nothing but pauses. -/
theorem Follows.receiver (hslot : slot.status ≠ .none → (t true).slot.status ≠ .none ∧ slot.id = (t true).slot.id)
    (hcontrols : OnlyControls others) (hanswers : ∀ entry ∈ others, entry.1 = none → entry.2 = .kill)
    (hothers : ∀ entry ∈ others, ∀ id ∈ entry.1, id ∈ (t true).slot.held)
    (hcalm : Transfer.Calm (update t true ⟨slot, (t true).sent ++ others, log⟩)) :
    Transfer.Follows (update t true ⟨slot, (t true).sent ++ others, log⟩) := by
  have hheld := FileTransfers.held_mono hslot
  unfold Calm at hcalm
  constructor <;>
    simp only [update_self, update_of_ne (Bool.noConfusion : false ≠ true)] at hcalm ⊢
  · exact h.inOrder.mono hheld
  · exact fun hused id hid => h.latest hused id (heldAfter_mono hheld id hid)
  · exact h.waiting
  · exact fun entry hentry => (mem_append.mp hentry).elim (h.controls entry) (hcontrols entry)
  · exact fun entry hentry => (mem_append.mp hentry).elim (h.answers entry) (hanswers entry)
  · intro hused
    by_cases hrequest : ∃ entry ∈ (t false).sent, entry.2.IsRequest
    · refine ⟨(t true).sent ++ others, [], (append_nil _).symm, hcalm hrequest,
        fun entry hentry => absurd hentry not_mem_nil, fun _ => ?_⟩
      exact (h.waiting hrequest).resolve_left hused
    · have hlatest := h.latest hused
      rw [heldAfter_eq fun entry hentry hrequest' => hrequest ⟨entry, hentry, hrequest'⟩] at hlatest
      obtain ⟨stale, fresh, hsent, hstale, hfresh, hwaits⟩ := h.labels hused
      refine ⟨stale, fresh ++ others, by rw [hsent, append_assoc], hstale, fun entry hentry id hid => ?_, hwaits⟩
      obtain hentry | hentry := mem_append.mp hentry
      · exact hfresh entry hentry id hid
      · exact hlatest id (hothers entry hentry id hid)

/-- The sender's end changed, and nothing was sent. -/
theorem Follows.silent (hslot : slot.status ≠ .none → (t false).slot.status ≠ .none ∧ slot.id = (t false).slot.id)
    (hstatus : (t false).slot.status = .notAccepted → slot.status = .none ∨ slot.status = .notAccepted ∨ t.Settled) :
    Transfer.Follows (update t false { t false with slot := slot }) := by
  have hnothing : ∀ entry ∈ ([] : SentPackets), ¬entry.2.IsRequest ∧
      ∀ id ∈ entry.1, (t false).slot.status ≠ .none ∧
        id = (t false).slot.id := fun entry hentry => absurd hentry not_mem_nil
  have hkept : Transfer.Follows (update t false ⟨slot, (t false).sent ++ [], (t false).log⟩) :=
    h.sender hslot hstatus hnothing
  rwa [append_nil] at hkept

/-- A request is sent for a new transfer. -/
theorem Follows.offer {size : UInt64} (hstatus : slot.status = .notAccepted)
    (hcalm : Transfer.Calm (update t false ⟨slot, (t false).sent ++ [(label, .request size slot.id)], log⟩)) :
    Transfer.Follows (update t false ⟨slot, (t false).sent ++ [(label, .request size slot.id)], log⟩) := by
  unfold Calm at hcalm
  constructor <;>
    simp only [update_self, update_of_ne (Bool.noConfusion : true ≠ false)] at hcalm ⊢
  · exact h.inOrder.append trivial
  · intro hused id hid
    rw [heldAfter, foldl_append] at hid
    exact (Option.some_injective _ hid).symm
  · exact fun _ => .inr hstatus
  · exact h.controls
  · exact h.answers
  · refine fun hused =>
      ⟨(t true).sent, [], (append_nil _).symm, hcalm ⟨_, mem_append_right _ mem_cons_self, trivial⟩,
      fun entry hentry => absurd hentry not_mem_nil, fun _ => hstatus⟩

/-- A sender that is transferring sends a packet for its transfer. -/
theorem Follows.transferring (hstatus : (t false).slot.status = .transferring) (hid : slot.id = (t false).slot.id)
    (hp : ¬p.IsRequest) :
    Transfer.Follows (update t false ⟨slot, (t false).sent ++ [(some (t false).slot.id, p)], log⟩) := by
  have hused : (t false).slot.status ≠ .none := by
    rw [hstatus]
    decide
  refine h.sender (fun _ => ⟨hused, hid⟩) (fun hwaits => ?_)
    (forall_mem_singleton.mpr ⟨hp, fun id hid => ⟨hused, (Option.some_injective _ hid).symm⟩⟩)
  rw [hstatus] at hwaits
  cases hwaits

/-- A receiver sends a control packet for its transfer. -/
theorem Follows.controlling (hused : (t true).slot.status ≠ .none) (hid : slot.id = (t true).slot.id)
    {controlType : UInt8} {data : Bytes} (hcalm : Transfer.Calm
      (update t true ⟨slot, (t true).sent ++ [(some (t true).slot.id, .control controlType data)], log⟩)) :
    Transfer.Follows
      (update t true ⟨slot, (t true).sent ++ [(some (t true).slot.id, .control controlType data)], log⟩) := by
  refine h.receiver (fun _ => ⟨hused, hid⟩) (forall_mem_singleton.mpr ⟨controlType, data, rfl⟩)
    (forall_mem_singleton.mpr fun hnone => nomatch hnone) (forall_mem_singleton.mpr fun id hid => ?_) hcalm
  rwa [FileTransfers.held_eq hused]

end

/-- A call of the application. -/
theorem Follows.call (h : t.Follows) {mayOffer mayKill : Prop} {receiving : Bool} {e : SlotEnd}
    (hcall : SlotCall mayOffer mayKill receiving (t receiving) e) (hcalm : Transfer.Calm (update t receiving e)) :
    Transfer.Follows (update t receiving e) := by
  cases hcall with
  | offer size fileId hoffer hreceiving hstatus =>
    subst hreceiving
    exact h.offer rfl hcalm
  | control control hkill herror =>
    have hused := FileTransfers.used_of_controlError herror
    cases receiving with
    | true => exact h.controlling hused (FileTransfers.controlled_id _ control) hcalm
    | false =>
      obtain ⟨rfl, -⟩ | ⟨-, hstatus, -⟩ | ⟨-, hstatus, -⟩ | ⟨-, -, hreceiving⟩ :=
        FileTransfers.controlError_eq_none herror
      · exact h.sender (fun hused => absurd rfl hused) (fun _ => .inl rfl)
          (forall_mem_singleton.mpr ⟨id, fun id hid => ⟨hused, (Option.some_injective _ hid).symm⟩⟩)
      · exact h.transferring hstatus (FileTransfers.controlled_id _ control) id
      · exact h.transferring hstatus (FileTransfers.controlled_id _ control) id
      · cases hreceiving
  | seek position hreceiving herror =>
    subst hreceiving
    have hused : (t true).slot.status ≠ .none := by
      intro hnone
      simp [FileTransfers.seekError, hnone] at herror
    have hid : ({ (t true).slot with transferred := position } : FileTransfers).id = (t true).slot.id := rfl
    exact h.controlling hused hid hcalm
  | data number position data hreceiving herror =>
    subst hreceiving
    exact h.transferring (FileTransfers.dataError_eq_none herror).1 (FileTransfers.dataSent_id _ number data) id

section

variable (h : t.Follows)
include h

/-- What an end does by itself. -/
theorem Follows.own (hown : OwnStep mayOffer mayKill t t') (hcalm : t'.Calm) : t'.Follows := by
  cases hown with
  | call receiving e hcall => exact h.call hcall hcalm
  | reserve hstatus hsize => exact h.silent (fun hused => ⟨hused, rfl⟩) fun hwaits => .inr (.inl hwaits)
  | acknowledge hstatus => exact h.silent (fun hused => absurd rfl hused) fun _ => .inl rfl

/-- The next packet for the receiver left the channel. -/
theorem Follows.pop_sender (hsent : (t false).sent = entry :: rest) (hentry : ¬entry.2.IsRequest) :
    Transfer.Follows (update t false { t false with sent := rest }) := by
  obtain ⟨horder, hlatest, hwaiting, hcontrols, hanswers, hlabels⟩ := h
  rw [hsent] at horder hlatest hwaiting
  constructor <;> simp only [update_self, update_of_ne (Bool.noConfusion : true ≠ false)]
  · exact ((inOrder_cons hentry).mp horder).2
  · rwa [heldAfter_cons hentry] at hlatest
  · exact fun ⟨other, hother, hrequest⟩ => hwaiting ⟨other, mem_cons_of_mem _ hother, hrequest⟩
  · exact hcontrols
  · exact hanswers
  · exact hlabels

/-- The next packet for the sender left the channel. -/
theorem Follows.pop_receiver (hsent : (t true).sent = entry :: rest) :
    Transfer.Follows (update t true { t true with sent := rest }) := by
  obtain ⟨horder, hlatest, hwaiting, hcontrols, hanswers, hlabels⟩ := h
  rw [hsent] at hcontrols hanswers hlabels
  constructor <;> simp only [update_self, update_of_ne (Bool.noConfusion : false ≠ true)]
  · exact horder
  · exact hlatest
  · exact hwaiting
  · exact hcontrols.tail
  · exact (forall_mem_cons.mp hanswers).2
  · intro hused
    obtain ⟨stale, fresh, heq, hstale, hfresh, hwaits⟩ := hlabels hused
    cases stale with
    | nil =>
      obtain rfl : entry :: rest = fresh := heq
      exact ⟨[], rest, rfl, hstale, (forall_mem_cons.mp hfresh).2, fun hne => absurd rfl hne⟩
    | cons first stale =>
      obtain ⟨-, rfl⟩ := List.cons.inj heq
      exact ⟨stale, fresh, rfl, (forall_mem_cons.mp hstale).2, hfresh, fun _ => hwaits (cons_ne_nil first stale)⟩

/-- A packet reaches the receiver. A request finds its slot free. -/
theorem Follows.arrive_receiver (hsent : (t false).sent = (label, p) :: rest)
    (hfree : p.IsRequest → (t true).slot.status = .none) (hcalm : t.Calm) (answers : Bool) :
    Transfer.Follows (update (update t false { t false with sent := rest }) true
      ((t true).arrive true answers p)) := by
  by_cases hp : p.IsRequest
  · obtain ⟨size, fileId, rfl⟩ := SlotPacket.isRequest_iff.mp hp
    have hnone := hfree hp
    have hheld : ((t true).arrive true answers (.request size fileId)).slot.held = some fileId := by
      simp [SlotEnd.arrive, SlotPacket.arrive, FileTransfers.requested?, hnone, FileTransfers.held]
    have hback : ((t true).arrive true answers (.request size fileId)).sent = (t true).sent := by
      simp [SlotEnd.arrive, SlotPacket.Answered]
    obtain ⟨horder, hlatest, hwaiting, hcontrols, hanswers, hlabels⟩ := h
    rw [hsent] at horder hlatest hwaiting
    constructor <;> simp only [update_self, update_of_ne (Bool.noConfusion : false ≠ true), hheld, hback]
    · exact horder
    · exact hlatest
    · rintro ⟨other, hother, hrequest⟩
      exact hwaiting ⟨other, mem_cons_of_mem _ hother, hrequest⟩
    · exact hcontrols
    · exact hanswers
    · exact hlabels
  · have hanswer :
      ∀ entry ∈ (if p.Answered (t true).slot ∧ answers then [(none, SlotPacket.kill)] else [] : SentPackets),
        entry = (none, .kill) := fun entry hentry => mem_singleton.mp (mem_ite_nil_right.mp hentry).2
    refine (h.pop_sender hsent hp).receiver (fun hused => SlotPacket.arrive_id true (t true).slot hp hused)
      (fun entry hentry => ⟨filecontrolKill, [], by rw [hanswer entry hentry]; rfl⟩)
      (fun entry hentry _ => by rw [hanswer entry hentry])
      (fun entry hentry id hid => by rw [hanswer entry hentry] at hid; cases hid) ?_
    rintro ⟨other, hother, hrequest⟩ entry hentry hlabel
    have hrest : other ∈ rest := by simpa using hother
    rw [update_self] at hentry
    obtain hentry | hentry := mem_append.mp hentry
    · exact hcalm ⟨other, hsent ▸ mem_cons_of_mem _ hrest, hrequest⟩ entry hentry hlabel
    · rw [hanswer entry hentry] at hlabel
      cases hlabel

/-- A control packet reaches the sender. What is not for its transfer is a pause, which does nothing to it. -/
theorem Follows.arrive_sender (hsent : (t true).sent = (label, p) :: rest) (hcalm : t.Calm) (answers : Bool) :
    Transfer.Follows (update (update t true { t true with sent := rest }) false
      ((t false).arrive false answers p)) := by
  have hmem : (label, p) ∈ (t true).sent := hsent ▸ mem_cons_self
  obtain ⟨controlType, data, rfl⟩ : ∃ controlType data, p = .control controlType data := h.controls _ hmem
  have hquiet : ¬(SlotPacket.control controlType data).IsRequest := id
  have hstatus : (t false).slot.status = .notAccepted →
      ((SlotPacket.control controlType data).arrive false (t false).slot).status = .none ∨
        ((SlotPacket.control controlType data).arrive false (t false).slot).status = .notAccepted ∨
          Transfer.Settled (update t true { t true with sent := rest }) := by
    intro hwaits
    have hused : (t false).slot.status ≠ .none := by
      rw [hwaits]
      decide
    have hharmless (hpause : label.isSome → (SlotPacket.control controlType data).IsPause) :
        ((SlotPacket.control controlType data).arrive false (t false).slot).status = .none ∨
          ((SlotPacket.control controlType data).arrive false (t false).slot).status = .notAccepted := by
      cases label with
      | none =>
        have hkill : SlotPacket.control controlType data = .kill := h.answers _ hmem rfl
        rw [hkill]
        exact .inl (arrive_kill false _)
      | some id =>
        rw [SlotPacket.arrive_pause (hpause rfl) hwaits]
        exact .inr hwaits
    obtain ⟨stale, fresh, heq, hstale, hfresh, -⟩ := h.labels hused
    cases stale with
    | cons first stale =>
      obtain ⟨rfl, -⟩ := List.cons.inj (hsent.symm.trans heq)
      exact (hharmless (hstale _ mem_cons_self)).imp_right .inl
    | nil =>
      by_cases hrequest : ∃ entry ∈ (t false).sent, entry.2.IsRequest
      · exact (hharmless (hcalm hrequest _ hmem)).imp_right .inl
      · refine .inr (.inr ⟨fun entry hentry hrequest' => hrequest ⟨entry, hentry, hrequest'⟩, fun entry hentry => ?_⟩)
        rw [update_self] at hentry
        obtain rfl : (label, SlotPacket.control controlType data) :: rest = fresh := hsent.symm.trans heq
        exact hfresh entry (mem_cons_of_mem _ hentry)
  refine (h.pop_receiver hsent).sender (fun hused => SlotPacket.arrive_id false (t false).slot hquiet hused) hstatus
    fun entry hentry => ?_
  rw [mem_singleton.mp (mem_ite_nil_right.mp hentry).2]
  exact ⟨id, fun id hid => nomatch hid⟩

/-- A packet that arrives. -/
theorem Follows.arrives (huncrossed : t.Uncrossed) (harrives : Arrives t t') : t'.Follows := by
  obtain ⟨receiving, answers, label, p, rest, hsent⟩ := harrives
  cases receiving with
  | true =>
    refine h.arrive_receiver hsent (huncrossed.1 (label, p) ?_) huncrossed.2 answers
    rw [show (t false).sent = _ from hsent]
    rfl
  | false => exact h.arrive_sender hsent huncrossed.2 answers

end

/-- What an end does by itself leaves all packets on their way. -/
theorem sent_prefix_of_own (hown : OwnStep mayOffer mayKill t t') (receiving : Bool) :
    (t receiving).sent <+: (t' receiving).sent := by
  cases hown with
  | call receiving' e hcall =>
    by_cases hside : receiving = receiving'
    · subst hside
      rw [update_self]
      cases hcall <;> exact prefix_append _ _
    · rw [update_of_ne hside]
  | reserve hstatus hsize => cases receiving <;> simp
  | acknowledge hstatus => cases receiving <;> simp

/-- Nothing but pauses has crossed a request if this is so later. -/
theorem Calm.of_prefix (h : t'.Calm) (hsent : ∀ receiving, (t receiving).sent <+: (t' receiving).sent) : t.Calm :=
  fun ⟨entry, hentry, hrequest⟩ other hother =>
    h ⟨entry, (hsent false).subset hentry, hrequest⟩ other ((hsent true).subset hother)

/-- What an end does by itself, step by step. -/
theorem Follows.own_run (h : t.Follows) (hrun : ReflTransGen (OwnStep mayOffer mayKill) t t') (hcalm : t'.Calm) :
    t'.Follows := by
  induction hrun with
  | refl => exact h
  | tail _ hown ih => exact (ih (hcalm.of_prefix (sent_prefix_of_own hown))).own hown hcalm

end Transfer

/-! ## Runs -/

/-- Where anything may be offered and killed, every step is allowed. -/
theorem FileStep.allowed_all (sender : Bool) (i : UInt8) (link : FileLink) (step : FileStep) :
    step.Allowed (fun _ => True) True sender i link := by
  have hcalls (side : Bool) (calls : List FileCall) (link : FileLink) :
      AllowedCalls (fun _ => True) True sender i side link calls := by
    induction calls generalizing link with
    | nil => trivial
    | cons c rest ih => exact ⟨⟨fun _ _ => trivial, fun _ _ _ => trivial⟩, ih _⟩
  cases step with
  | call side c => exact ⟨fun _ _ => trivial, fun _ _ _ => trivial⟩
  | chunks side env => exact fun peer j position length => hcalls _ _ _
  | deliver side write => trivial

/-- The packets of a transfer in a run in which nothing but pauses crosses a request. -/
theorem UncrossedRun.follows {sender : Bool} {steps : List FileStep} (hrun : UncrossedRun sender i link steps)
    (hopen : link.Open) (h : (link.transfer sender i).Follows) :
    FileLink.Open (steps.foldl (fun link step => step.exec link) link) ∧
      (FileLink.transfer (steps.foldl (fun link step => step.exec link) link) sender i).Follows ∧
      (FileLink.transfer (steps.foldl (fun link step => step.exec link) link) sender i).Uncrossed := by
  induction steps generalizing link with
  | nil => exact ⟨hopen, h, hrun⟩
  | cons step rest ih =>
    obtain ⟨huncrossed, hrest⟩ := hrun
    obtain ⟨hopen', hown | harrives⟩ := step.exec_cases hopen (step.allowed_all sender i link)
    · have hnext : ((step.exec link).transfer sender i).Uncrossed := by
        cases rest with
        | nil => exact hrest
        | cons _ _ => exact hrest.1
      exact ih hrest hopen' (h.own_run hown hnext.2)
    · exact ih hrest hopen' (h.arrives huncrossed harrives)

/-- The next packet for the sender in slot 0 leaves another transfer alone. -/
theorem FileLink.RespectsTransfers.next (h : link.RespectsTransfers false 0) :
    ∀ packet ∈ (link true).outbox.head?, (slotPacket false 0 packet.bytes).isSome → packet.fileId.isSome →
      ((link false).files.fileSending 0).status ≠ .none → packet.fileId ≠ some ((link false).files.fileSending 0).id →
        ((link.deliver false none false).files.fileSending 0).status = ((link false).files.fileSending 0).status ∧
          ((link.deliver false none false).files.fileSending 0).transferred =
          ((link false).files.fileSending 0).transferred := by
  intro packet hpacket hp hsome hused hother
  obtain ⟨p, hp⟩ := Option.isSome_iff_exists.mp hp
  obtain ⟨id, hid⟩ := Option.isSome_iff_exists.mp hsome
  obtain ⟨rest, hout⟩ := head?_eq_some_iff.mp hpacket
  have hne : ((link false).files.fileSending 0).id ≠ id := fun heq => hother (hid.trans (congrArg some heq.symm))
  obtain ⟨hstatus, htransferred, -⟩ := h false packet rest p id hout hp hid hused hne none
  exact ⟨hstatus, htransferred⟩

end Toxcore
