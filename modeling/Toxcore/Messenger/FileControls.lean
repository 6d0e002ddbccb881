import Toxcore.Messenger.FileDelivery
import Mathlib.Algebra.BigOperators.Group.Finset.Basic
import Mathlib.Data.FinEnum
import Mathlib.Data.Fintype.Prod

/-!
# When file control packets stop

`handle_filecontrol` answers a control packet for a transfer that does not exist with a packet that kills it, also
when the packet is such an answer itself. Such an answer goes on until it meets a slot that is in use: an end of a
transfer that is in use absorbs one of them. So the packets stop exactly if no transfer has more of them than ends
that are left to absorb them.
-/

namespace Toxcore

open ByteStrings FileTransfers SentPackets List

/-! ## One transfer -/

namespace SentPackets

/-- The packets on their way that will be answered. -/
def answeredAll (receiving : Bool) : FileTransfers → SentPackets → ℕ
  | _, [] => 0
  | ft, (_, p) :: rest => (if p.Answered ft then 1 else 0) + answeredAll receiving (p.arrive receiving ft) rest

theorem answeredAll_append_kill (receiving : Bool) (ft : FileTransfers) (sent : SentPackets)
    (fileId : Option (Block 32)) :
    answeredAll receiving ft (sent ++ [(fileId, .kill)]) =
      answeredAll receiving ft sent + if (arriveAll receiving ft sent).status = .none then 1 else 0 := by
  induction sent generalizing ft with
  | nil =>
    by_cases hfree : ft.status = .none <;> simp [answeredAll, SlotPacket.kill, SlotPacket.Answered, arriveAll, hfree]
  | cons entry rest ih =>
    have hall : arriveAll receiving ft (entry :: rest) = arriveAll receiving (entry.2.arrive receiving ft) rest := rfl
    rw [cons_append, answeredAll, answeredAll, ih, hall]
    omega

/-- A slot is free after its transfer was killed. -/
theorem arrive_kill (receiving : Bool) (ft : FileTransfers) : (SlotPacket.kill.arrive receiving ft).status = .none := by
  by_cases hfree : ft.status = .none
  · simp [SlotPacket.arrive, SlotPacket.kill, hfree]
  · simp [SlotPacket.arrive, SlotPacket.kill, hfree, handleControl, filecontrolKill, filecontrolAccept,
      filecontrolPause]

end SentPackets

namespace Transfer

variable (t : Transfer)

/-- The packets on their way to an end that will be answered. -/
def answered (receiving : Bool) : ℕ := answeredAll receiving (t receiving).slot (t (!receiving)).sent

/-- An end that is in use when the packets on their way have arrived. -/
def remaining (receiving : Bool) : ℕ :=
  if (arriveAll receiving (t receiving).slot (t (!receiving)).sent).status = .none then 0 else 1

/-- The control packets on their way that will meet a free slot are no more than the ends that will be left. -/
def Settles : Prop := t.answered true + t.answered false ≤ t.remaining true + t.remaining false

instance : Decidable t.Settles := inferInstanceAs (Decidable (_ ≤ _))

/-- The answers that are still to come if the transfer settles. -/
def answersLeft : ℕ :=
  t.answered true + t.answered false + (t.answered true - t.remaining false) + (t.answered false - t.remaining true)

variable {t}

/-- The transfer after a packet arrived at an end. -/
def arriveAt (t : Transfer) (receiving answers : Bool) (p : SlotPacket) (rest : SentPackets) : Transfer :=
  Function.update (Function.update t (!receiving) { t (!receiving) with sent := rest }) receiving
    ((t receiving).arrive receiving answers p)

variable {receiving : Bool} {fileId : Option (Block 32)} {p : SlotPacket} {rest : SentPackets}

/-- The end at which a packet arrived. -/
theorem arriveAt_here (answers : Bool) (hsent : (t (!receiving)).sent = (fileId, p) :: rest) :
    t.answered receiving = (t.arriveAt receiving answers p rest).answered receiving +
        (if p.Answered (t receiving).slot then 1 else 0) ∧
      (t.arriveAt receiving answers p rest).remaining receiving = t.remaining receiving := by
  have hne : (!receiving) ≠ receiving := Bool.not_ne_self receiving
  have hhere : (t.arriveAt receiving answers p rest receiving).slot = p.arrive receiving (t receiving).slot := by
    simp [arriveAt, SlotEnd.arrive]
  have hthere : (t.arriveAt receiving answers p rest (!receiving)).sent = rest := by simp [arriveAt, hne]
  constructor
  · simp only [answered, hhere, hthere, hsent, answeredAll]
    omega
  · simp only [remaining, hhere, hthere, hsent]
    rfl

/-- The end from which a packet arrived. -/
theorem arriveAt_there (t : Transfer) (receiving answers : Bool) (p : SlotPacket) (rest : SentPackets) :
    (t.arriveAt receiving answers p rest).answered (!receiving) =
        t.answered (!receiving) +
          (if p.Answered (t receiving).slot ∧ answers then 1 - t.remaining (!receiving) else 0) ∧
      (t.arriveAt receiving answers p rest).remaining (!receiving) =
        if p.Answered (t receiving).slot ∧ answers then 0 else t.remaining (!receiving) := by
  have hne : (!receiving) ≠ receiving := Bool.not_ne_self receiving
  have hhere : (t.arriveAt receiving answers p rest receiving).sent =
      (t receiving).sent ++ if p.Answered (t receiving).slot ∧ answers then [(none, .kill)] else [] := by
    simp [arriveAt, SlotEnd.arrive]
  have hthere :
    (t.arriveAt receiving answers p rest (!receiving)).slot = (t (!receiving)).slot := by simp [arriveAt, hne]
  simp only [answered, remaining, hthere, Bool.not_not, hhere]
  split_ifs with hanswer hfree hfree <;> simp_all [answeredAll_append_kill, arrive_kill]

theorem remaining_le (t : Transfer) (receiving : Bool) : t.remaining receiving ≤ 1 := by
  unfold remaining
  split_ifs <;> omega

/-- A packet that arrives keeps a transfer settled, and at least one answer fewer is left if it is answered. -/
theorem Settles.arriveAt (h : t.Settles) (hsent : (t (!receiving)).sent = (fileId, p) :: rest) (answers : Bool) :
    (t.arriveAt receiving answers p rest).Settles ∧
      (t.arriveAt receiving answers p rest).answersLeft + (if p.Answered (t receiving).slot then 1 else 0) ≤
        t.answersLeft := by
  obtain ⟨hcount, hstays⟩ := arriveAt_here answers hsent
  obtain ⟨hcount', hstays'⟩ := t.arriveAt_there receiving answers p rest
  have hhere := t.remaining_le receiving
  have hthere := t.remaining_le (!receiving)
  unfold Settles answersLeft at *
  by_cases hanswered : p.Answered (t receiving).slot <;> cases answers <;> cases receiving <;>
    simp only [hanswered, Bool.not_false, Bool.not_true, and_true, and_false, if_true, if_false,
      Bool.false_eq_true] at * <;>
    omega

/-- A packet that arrives, and whose answer is sent, does not make a transfer settle. -/
theorem settles_of_arriveAt (hsent : (t (!receiving)).sent = (fileId, p) :: rest)
    (h : (t.arriveAt receiving true p rest).Settles) : t.Settles := by
  obtain ⟨hcount, hstays⟩ := arriveAt_here true hsent
  obtain ⟨hcount', hstays'⟩ := t.arriveAt_there receiving true p rest
  have hthere := t.remaining_le (!receiving)
  unfold Settles at *
  by_cases hanswered : p.Answered (t receiving).slot <;> cases receiving <;>
    simp only [hanswered, Bool.not_false, Bool.not_true, and_true, if_true, if_false] at * <;> omega

/-- A transfer that does not settle has packets on their way. -/
theorem exists_sent_of_not_settles (h : ¬t.Settles) : ∃ receiving, (t receiving).sent ≠ [] := by
  by_contra hnone
  push Not at hnone
  exact h (by simp [Settles, answered, hnone, answeredAll])

end Transfer

/-! ## Two messengers -/

/-- `handle_filecontrol` answers a packet at most once, and only for a transfer that does not exist. -/
theorem FriendFiles.handleFilecontrol_answers (files : FriendFiles) (write : Option UInt32) (receiving : Bool)
    (i controlType : UInt8) (data : Bytes) :
    (files.handleFilecontrol write (if receiving then 0 else 1) i controlType data).2.length ≤
      if (files.slot receiving i).status = .none then 1 else 0 := by
  have hreceiving : ((if receiving then 0 else 1 : UInt8) == 0) = receiving := by cases receiving <;> rfl
  have hside : ¬((if receiving then 0 else 1 : UInt8) > 1) := by cases receiving <;> decide
  simp only [handleFilecontrol, if_neg hside, hreceiving]
  by_cases hkind : controlType > filecontrolSeek
  · simp [hkind]
  rw [if_neg hkind]
  by_cases hfree : (files.slot receiving i).status = .none
  · rw [if_pos hfree, if_pos hfree]
    exact Option.length_toList_le
  · rw [if_neg hfree, if_neg hfree]
    cases (files.slot receiving i).handleControl (!receiving) controlType data <;> simp

namespace FilePeer

/-- A packet that arrives is answered at most once, and only if it is about a transfer that does not exist. -/
theorem handlePacket_outbox_length {peer : FilePeer} (honline : peer.files.online = true) (write : Option UInt32)
    {packet : Bytes} (hpacket : packet.head? ≠ some packetIdOffline) {receiving : Bool} {i : UInt8} {p : SlotPacket}
    (hp : slotPacket receiving i packet = some p) :
    (peer.handlePacket write packet).outbox.length ≤
      peer.outbox.length + if p.Answered (peer.files.slot receiving i) then 1 else 0 := by
  cases packet with
  | nil => simp [slotPacket] at hp
  | cons packetId data =>
    have hoffline : packetId ≠ packetIdOffline := by simpa using hpacket
    simp only [handlePacket, honline, Bool.true_eq_false, if_false, if_neg hoffline]
    simp only [slotPacket] at hp
    by_cases hrequest : packetId = packetIdFileSendrequest
    · simp only [if_pos hrequest]
      split_ifs <;> simp
    simp only [if_neg hrequest] at hp ⊢
    by_cases hcontrol : packetId = packetIdFileControl
    · rw [if_pos hcontrol, Option.ite_none_right_eq_some] at hp
      obtain ⟨⟨hlength, hside, rfl, hkind⟩, hp⟩ := hp
      cases hp
      simp only [if_pos hcontrol, if_neg (not_lt.mpr hlength), hside]
      rw [length_append, length_map]
      exact Nat.add_le_add_left
        (peer.files.handleFilecontrol_answers write receiving (data.getD 1 0) (data.getD 2 0) (data.drop 3)) _
    simp only [if_neg hcontrol]
    by_cases hdata : packetId = packetIdFileData
    · simp only [if_pos hdata]
      split_ifs <;> simp
    · simp [if_neg hdata]

end FilePeer

namespace FileLink

/-- The packets arrive in some order, each of them from a channel that is not empty. -/
def Deliveries : FileLink → List (Bool × Option UInt32) → Prop
  | _, [] => True
  | link, (side, write) :: rest => (link (!side)).outbox ≠ [] ∧ Deliveries (link.deliver side write) rest

/-- If the applications make no more calls, only finitely many packets arrive, in whatever order; then the channels
are empty. -/
def Quiesces (link : FileLink) : Prop := ∃ n, ∀ run, link.Deliveries run → run.length ≤ n

/-- What is left to do if every transfer settles. -/
def workLeft (link : FileLink) : ℕ :=
  (link false).outbox.length + (link true).outbox.length +
    ∑ slot : Bool × UInt8, (link.transfer slot.1 slot.2).answersLeft

variable {link : FileLink}

/-- The packets in the channels. -/
theorem length_outboxes (link : FileLink) (side : Bool) :
    (link false).outbox.length + (link true).outbox.length =
    (link side).outbox.length + (link (!side)).outbox.length := by
  cases side
  · rfl
  · exact Nat.add_comm _ _

/-- A packet that arrives is about no transfer, or changes the one that it is about. -/
theorem deliver_cases (hopen : link.Open) {side : Bool} (write : Option UInt32) {packet : SentPacket}
    {rest : List SentPacket} (hout : (link (!side)).outbox = packet :: rest) :
    ((link.deliver side write side).outbox.length = (link side).outbox.length ∧
        ∀ sender i, (link.deliver side write).transfer sender i = link.transfer sender i) ∨
      ∃ sender i p,
        (∀ sender' i', (sender', i') ≠ (sender, i) →
          (link.deliver side write).transfer sender' i' = link.transfer sender' i') ∧
        (link.transfer sender i (!xor sender side)).sent =
          (packet.fileId, p) :: rest.filterMap (SentPacket.about (xor sender side) i) ∧
        (link.deliver side write).transfer sender i =
          (link.transfer sender i).arriveAt (xor sender side) write.isSome p
            (rest.filterMap (SentPacket.about (xor sender side) i)) ∧
        (link.deliver side write side).outbox.length ≤
          (link side).outbox.length + if p.Answered (link.transfer sender i (xor sender side)).slot then 1 else 0 := by
  have hpacket := (hopen (!side)).2 packet (by rw [hout]; exact mem_cons_self)
  have hhere : link.deliver side write side = (link side).handlePacket write packet.bytes := by
    simp [FileLink.deliver, hout]
  obtain ⟨hnone, hsame⟩ | ⟨receiving, i, p, hp, -⟩ := (link side).handlePacket_cases (hopen side).1 write hpacket
  · refine .inl ⟨by rw [hhere, hsame], fun sender i => ?_⟩
    exact transfer_deliver_other hopen write hout (by rw [SentPacket.about, hnone]; rfl)
  · have hside : xor (xor receiving side) side = receiving := by simp
    refine .inr ⟨xor receiving side, i, p, fun sender' i' hne => ?_, ?_⟩
    · refine transfer_deliver_other hopen write hout (SentPacket.about_other hp fun heq => hne ?_)
      obtain ⟨rfl, rfl⟩ := Prod.mk.inj heq
      simp
    · have hp' : slotPacket (xor (xor receiving side) side) i packet.bytes = some p := by rwa [hside]
      obtain ⟨hsent, hnext⟩ := transfer_deliver_self hopen write hout hp'
      refine ⟨hsent, hnext, ?_⟩
      have hslot : (link.transfer (xor receiving side) i (xor (xor receiving side) side)).slot =
          (link side).files.slot receiving i := by
        have hback : xor (xor receiving side) receiving = side := by cases receiving <;> cases side <;> rfl
        rw [hside, FileLink.transfer, hback, FilePeer.slotEnd_slot]
      rw [hhere, hslot]
      exact FilePeer.handlePacket_outbox_length (hopen side).1 write hpacket hp

/-- A packet that arrives leaves less to do. -/
theorem settles_deliver (hopen : link.Open) (hsettles : ∀ sender i, (link.transfer sender i).Settles) {side : Bool}
    (write : Option UInt32) (hout : (link (!side)).outbox ≠ []) :
    (∀ sender i, ((link.deliver side write).transfer sender i).Settles) ∧
      (link.deliver side write).workLeft < link.workLeft := by
  obtain ⟨packet, rest, hout⟩ := exists_cons_of_ne_nil hout
  have hthere : (link.deliver side write (!side)).outbox.length + 1 = (link (!side)).outbox.length := by
    simp [FileLink.deliver, hout]
  have hbefore := link.length_outboxes side
  have hafter := (link.deliver side write).length_outboxes side
  obtain ⟨hlength, hsame⟩ | ⟨sender, i, p, hother, hsent, hnext, hlength⟩ := deliver_cases hopen write hout
  · refine ⟨fun sender i => by rw [hsame]; exact hsettles sender i, ?_⟩
    simp only [workLeft, hsame]
    omega
  · obtain ⟨hstill, hless⟩ := (hsettles sender i).arriveAt hsent write.isSome
    rw [← hnext] at hstill hless
    constructor
    · intro sender' i'
      by_cases hslot : (sender', i') = (sender, i)
      · obtain ⟨rfl, rfl⟩ := Prod.mk.inj hslot
        exact hstill
      · rw [hother sender' i' hslot]
        exact hsettles sender' i'
    · have hrest :
        ∑ slot ∈ Finset.univ.erase (sender, i), ((link.deliver side write).transfer slot.1 slot.2).answersLeft =
          ∑ slot ∈ Finset.univ.erase (sender, i), (link.transfer slot.1 slot.2).answersLeft :=
        Finset.sum_congr rfl fun slot hslot => by rw [hother slot.1 slot.2 (Finset.ne_of_mem_erase hslot)]
      have hsum := Finset.add_sum_erase Finset.univ
        (fun slot : Bool × UInt8 => (link.transfer slot.1 slot.2).answersLeft) (Finset.mem_univ (sender, i))
      have hsum' := Finset.add_sum_erase Finset.univ
        (fun slot : Bool × UInt8 =>
          ((link.deliver side write).transfer slot.1 slot.2).answersLeft) (Finset.mem_univ (sender, i))
      simp only at hsum hsum'
      simp only [workLeft, ← hsum, ← hsum', hrest]
      omega

/-- If every transfer settles, no more packets arrive than there is left to do. -/
theorem length_le_workLeft (hopen : link.Open) (hsettles : ∀ sender i, (link.transfer sender i).Settles)
    {run : List (Bool × Option UInt32)} (hrun : link.Deliveries run) : run.length ≤ link.workLeft := by
  induction run generalizing link with
  | nil => exact Nat.zero_le _
  | cons delivery rest ih =>
    obtain ⟨side, write⟩ := delivery
    obtain ⟨hout, hrest⟩ := hrun
    obtain ⟨hsettles', hless⟩ := settles_deliver hopen hsettles write hout
    have hlater := ih (deliver_open hopen write) hsettles' hrest
    rw [length_cons]
    omega

/-- If a transfer does not settle, packets can arrive for ever. -/
theorem exists_deliveries (hopen : link.Open) {sender : Bool} {i : UInt8} (h : ¬(link.transfer sender i).Settles)
    (n : ℕ) :
    ∃ run, link.Deliveries run ∧ run.length = n := by
  induction n generalizing link with
  | zero => exact ⟨[], trivial, rfl⟩
  | succ n ih =>
    obtain ⟨receiving, hsent⟩ := Transfer.exists_sent_of_not_settles h
    have hout : (link (xor sender receiving)).outbox ≠ [] := by
      intro hempty
      exact hsent (by simp [FileLink.transfer, FilePeer.slotEnd, hempty])
    obtain ⟨side, hside⟩ : ∃ side, (!side) = xor sender receiving := ⟨!xor sender receiving, by simp⟩
    rw [← hside] at hout
    obtain ⟨packet, rest, hcons⟩ := exists_cons_of_ne_nil hout
    have hstill : ¬((link.deliver side (some 0)).transfer sender i).Settles := by
      obtain ⟨-, hsame⟩ | ⟨sender', i', p, hother, hsent', hnext, -⟩ := deliver_cases hopen (some 0) hcons
      · rwa [hsame]
      · by_cases hslot : (sender, i) = (sender', i')
        · obtain ⟨rfl, rfl⟩ := Prod.mk.inj hslot
          rw [hnext]
          exact fun hsettles => h (Transfer.settles_of_arriveAt hsent' hsettles)
        · rwa [hother sender i hslot]
    obtain ⟨run, hrun, hlength⟩ := ih (deliver_open hopen (some 0)) hstill
    exact ⟨(side, some 0) :: run, ⟨hout, hrun⟩, by rw [length_cons, hlength]⟩

/-- A transfer that does not settle keeps the packets going. -/
theorem not_quiesces (hopen : link.Open) {sender : Bool} {i : UInt8} (h : ¬(link.transfer sender i).Settles) :
    ¬link.Quiesces := by
  rintro ⟨n, hbound⟩
  obtain ⟨run, hrun, hlength⟩ := exists_deliveries hopen h (n + 1)
  have := hbound run hrun
  omega

end FileLink

/-- The packets between two messengers stop exactly if every transfer settles. -/
theorem quiesces_iff_settles {link : FileLink} (hopen : link.Open) :
    link.Quiesces ↔ ∀ sender i, (link.transfer sender i).Settles := by
  constructor
  · intro h sender i
    by_contra hsettles
    exact FileLink.not_quiesces hopen hsettles h
  · exact fun h => ⟨link.workLeft, fun run hrun => FileLink.length_le_workLeft hopen h hrun⟩

/-- A file is offered, and the sender kills the transfer. -/
def exampleKill : FileLink :=
  [.deliver true none, .call false (.fileControl (some 1) 0 2)].foldl (fun link step =>
    FileStep.exec step link) exampleOffer

/-- A transfer that is killed. -/
theorem quiesces_iff_settles_kill :
    exampleKill.Quiesces ↔ ∀ sender i, (exampleKill.transfer sender i).Settles :=
  quiesces_iff_settles (by unfold FileLink.Open FilePeer.Open; decide +kernel)

/-- The receiver has killed the transfer as well, before the sender's packet arrived. -/
def exampleCrossingKills : FileLink :=
  (FileStep.call true (.fileControl (some 1) (2 ^ 16) 2)).exec exampleKill

/-- Both messengers kill a transfer, and the packets about it never stop. -/
theorem crossing_kills_never_stop :
    ∃ steps : List FileStep, ∃ link, link = steps.foldl (fun link step => step.exec link) FileLink.new ∧
      (∀ side, ∀ packet ∈ (link side).outbox, packet.bytes.head? = some packetIdFileControl) ∧ ¬link.Quiesces := by
  refine ⟨[.call false (.newFilesender (some 0) 0 5 (slice 32 [] 0) []), .deliver true none,
    .call false (.fileControl (some 1) 0 2), .call true (.fileControl (some 1) (2 ^ 16) 2)], exampleCrossingKills, rfl,
    by decide +kernel, ?_⟩
  have hopen : exampleCrossingKills.Open := by
    unfold FileLink.Open FilePeer.Open
    decide +kernel
  have hnot : ¬(exampleCrossingKills.transfer false 0).Settles := by decide +kernel
  exact FileLink.not_quiesces hopen hnot

end Toxcore
