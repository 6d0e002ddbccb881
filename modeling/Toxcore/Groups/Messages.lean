import Mathlib.Tactic.Ring
import Toxcore.Groups.Peers

/-!
# Message packets of a group chat

Every peer numbers its messages, and everyone passes on to all close connections what it accepts. A message is
accepted if its number is at most 64 ahead of the last one of its peer; a last number of 0 stands for no message yet.
Senders leave the number 0 out, but receivers do not reject it: whoever accepts it accepts every number next, and the
same packet again.
-/

namespace Toxcore

open ByteStrings List Option

/-- `GROUP_MESSAGE_PING_ID`. -/
def groupMessagePingId : UInt8 := 0

/-- `GROUP_MESSAGE_NEW_PEER_ID`. -/
def groupMessageNewPeerId : UInt8 := 16

/-- `GROUP_MESSAGE_NEW_PEER_LENGTH`. -/
abbrev groupMessageNewPeerLength : ℕ := 2 + 32 * 2

/-- `GROUP_MESSAGE_KILL_PEER_ID`. -/
def groupMessageKillPeerId : UInt8 := 17

/-- `GROUP_MESSAGE_KILL_PEER_LENGTH`. -/
abbrev groupMessageKillPeerLength : ℕ := 2

/-- `GROUP_MESSAGE_NAME_ID`. -/
def groupMessageNameId : UInt8 := 48

/-- `GROUP_MESSAGE_TITLE_ID`. -/
def groupMessageTitleId : UInt8 := 49

/-- `PACKET_ID_ACTION`. -/
def packetIdAction : UInt8 := 65

/-! ## The handler -/

/-- A packet for a group from a close connection, with the clock and the outcome of an allocation for a number of
peers. -/
structure GroupPacket where
  now : UInt64
  alloc : ℕ → Bool
  data : Bytes
  closeIndex : ℕ

/-- The number in the first two bytes, in network order. -/
def networkUInt16 (data : Bytes) : UInt16 := UInt16.ofNat (beNat (data.take 2))

/-- The number in the first four bytes, in network order. -/
def networkUInt32 (data : Bytes) : UInt32 := UInt32.ofNat (beNat (data.take 4))

/-- The number of the peer that a packet is from. -/
def GroupPacket.peerNumber (packet : GroupPacket) : UInt16 := networkUInt16 packet.data

/-- The number of the message in a packet. -/
def GroupPacket.messageNumber (packet : GroupPacket) : UInt32 := networkUInt32 (packet.data.drop 2)

/-- The test of a message number against the last one of its peer. -/
def acceptsNumber (lastMessageNumber messageNumber : UInt32) : Bool :=
  if lastMessageNumber = 0 then true
  else !(messageNumber - lastMessageNumber > 64 || messageNumber = lastMessageNumber)

/-- The `switch` of `handle_message_packet_group`: the group and the calls, `none` where it returns. The length of a
title is passed as a `uint8_t`. -/
def GroupC.handleMessage (packet : GroupPacket) (g : GroupC) (index : ℕ) (hindex : index < g.group.length)
    (messageId : UInt8) (msgData : Bytes) : Option (GroupC × List GroupCall) :=
  if messageId = groupMessagePingId then
    if msgData.length ≠ 0 then none
    else some (g.modify index (fun peer => { peer with lastRecv := packet.now }) (fun _ => ⟨rfl, rfl⟩), [])
  else if messageId = groupMessageNewPeerId then
    if msgData.length ≠ groupMessageNewPeerLength then none
    else
      some (g.addpeer packet.now packet.alloc (slice 32 msgData 2) (slice 32 msgData (2 + 32))
        (networkUInt16 msgData)).2
  else if messageId = groupMessageKillPeerId then
    if msgData.length ≠ groupMessageKillPeerLength then none
    else if packet.peerNumber = networkUInt16 msgData then some (g.delpeer packet.alloc index hindex)
    else none
  else if messageId = groupMessageNameId then g.setnick index msgData
  else if messageId = groupMessageTitleId then g.settitle index (msgData.take (msgData.length % 256))
  else if messageId = packetIdMessage then if msgData.length = 0 then none else some (g, [.message index msgData])
  else if messageId = packetIdAction then if msgData.length = 0 then none else some (g, [.action index msgData])
  else none

/-- The group with a new last number of a peer. -/
def GroupC.setLast (g : GroupC) (index : ℕ) (messageNumber : UInt32) : GroupC :=
  g.modify index (fun peer => { peer with lastMessageNumber := messageNumber }) (fun _ => ⟨rfl, rfl⟩)

theorem GroupC.setLast_length (g : GroupC) (index : ℕ) (messageNumber : UInt32) :
    (g.setLast index messageNumber).group.length = g.group.length := length_modify ..

variable {g : GroupC} {packet : GroupPacket} {packets : List GroupPacket}

/-- An index that was found is one of the array. -/
theorem GroupC.getPeerIndex_lt {peerNumber : UInt16} {index : ℕ} (h : g.getPeerIndex peerNumber = some index) :
    index < g.group.length := (findIdx?_eq_some_iff_getElem.mp h).1

/-- `handle_message_packet_group` for a group that exists. -/
def GroupC.handleMessagePacketGroup (g : GroupC) (packet : GroupPacket) : GroupC × List GroupCall :=
  if packet.data.length < 2 + 4 + 1 then (g, [])
  else
    match h : g.getPeerIndex packet.peerNumber with
    | none => (g, [.sendPeerQuery packet.closeIndex])
    | some index =>
      have hindex : index < g.group.length := getPeerIndex_lt h
      if !acceptsNumber g.group[index].lastMessageNumber packet.messageNumber then (g, [])
      else
        match (g.setLast index packet.messageNumber).handleMessage packet index
            (by rw [g.setLast_length]; exact hindex) (packet.data.getD 6 0) (packet.data.drop 7) with
        | none => (g.setLast index packet.messageNumber, [])
        | some (g, calls) => (g, calls ++ [.sendMessageAllClose packet.data])

/-! ## Last numbers -/

/-- The last message number of the peer with a number. -/
def GroupC.lastNumber (g : GroupC) (peerNumber : UInt16) : Option UInt32 :=
  (g.getPeerIndex peerNumber).bind fun index => g.group[index]?.map GroupPeer.lastMessageNumber

/-- The message that a group accepts in a packet: the number of the peer, and its own. -/
def GroupC.accepts (g : GroupC) (packet : GroupPacket) : Option (UInt16 × UInt32) :=
  if packet.data.length < 2 + 4 + 1 then none
  else
    (g.lastNumber packet.peerNumber).bind fun last =>
      if acceptsNumber last packet.messageNumber then some (packet.peerNumber, packet.messageNumber) else none

/-- Two peers with one number are the same. -/
theorem GroupC.peer_unique {peer other : GroupPeer} (hpeer : peer ∈ g.group) (hother : other ∈ g.group)
    (h : peer.peerNumber = other.peerNumber) : peer = other :=
  inj_on_of_nodup_map g.distinct hpeer hother h

/-- The last number is that of the peer in the array. -/
theorem GroupC.lastNumber_eq_some {peerNumber : UInt16} {last : UInt32} :
    g.lastNumber peerNumber = some last ↔
      ∃ peer ∈ g.group, peer.peerNumber = peerNumber ∧ peer.lastMessageNumber = last := by
  rw [lastNumber, bind_eq_some_iff]
  constructor
  · intro h
    obtain ⟨index, hindex, hlast⟩ := h
    obtain ⟨peer, hpeer, hvalue⟩ := map_eq_some_iff.mp hlast
    obtain ⟨hlt, hnumber, -⟩ := findIdx?_eq_some_iff_getElem.mp hindex
    obtain ⟨hbound, rfl⟩ := List.getElem?_eq_some_iff.mp hpeer
    exact ⟨g.group[index], getElem_mem hlt, of_decide_eq_true hnumber, hvalue⟩
  · intro h
    obtain ⟨peer, hpeer, hnumber, hvalue⟩ := h
    cases hindex : g.getPeerIndex peerNumber with
    | none => exact absurd (List.mem_map.mpr ⟨peer, hpeer, hnumber⟩) (getPeerIndex_none hindex)
    | some index =>
      obtain ⟨hlt, hfound, -⟩ := findIdx?_eq_some_iff_getElem.mp hindex
      have hsame := g.peer_unique (getElem_mem hlt) hpeer ((of_decide_eq_true hfound).trans hnumber.symm)
      refine ⟨index, rfl, ?_⟩
      rw [getElem?_eq_getElem hlt, hsame, map_some, hvalue]

/-- The peers of a group are those of another one as far as numbers go, or their numbers are new. -/
def GroupC.From (g g' : GroupC) : Prop :=
  ∀ peer' ∈ g'.group, (∃ peer ∈ g.group, peer.peerNumber = peer'.peerNumber ∧
      peer.lastMessageNumber = peer'.lastMessageNumber) ∨ ∀ peer ∈ g.group, peer.peerNumber ≠ peer'.peerNumber

namespace GroupC.From

theorem refl (g : GroupC) : g.From g := fun peer hpeer => .inl ⟨peer, hpeer, rfl, rfl⟩

/-- A last number stays, or the peer is gone. -/
theorem lastNumber {g' : GroupC} (h : g.From g') {peerNumber : UInt16} {last : UInt32}
    (hlast : g.lastNumber peerNumber = some last) :
    g'.lastNumber peerNumber = some last ∨ g'.lastNumber peerNumber = none := by
  obtain ⟨peer, hpeer, hnumber, hvalue⟩ := lastNumber_eq_some.mp hlast
  cases hlast' : g'.lastNumber peerNumber with
  | none => exact .inr rfl
  | some last' =>
    left
    obtain ⟨peer', hpeer', hnumber', hvalue'⟩ := lastNumber_eq_some.mp hlast'
    rcases h peer' hpeer' with ⟨old, hold, hsame, hkept⟩ | hnew
    · have heq := g.peer_unique hold hpeer (hsame.trans (hnumber'.trans hnumber.symm))
      rw [← hvalue', ← hkept, heq, hvalue]
    · exact absurd (hnumber.trans hnumber'.symm) (hnew peer hpeer)

/-- A change of a peer that keeps both numbers. -/
theorem modify (g : GroupC) (i : ℕ) {f : GroupPeer → GroupPeer}
    (hf : ∀ peer, (f peer).peerNumber = peer.peerNumber ∧ (f peer).realPk = peer.realPk)
    (hlast : ∀ peer, (f peer).lastMessageNumber = peer.lastMessageNumber) : g.From (g.modify i f hf) := by
  intro peer' hpeer'
  left
  rcases mem_of_mem_modify hf hpeer' with hold | ⟨peer, hpeer, rfl⟩
  · exact ⟨peer', hold, rfl, rfl⟩
  · exact ⟨peer, hpeer, (hf peer).1.symm, (hlast peer).symm⟩

/-- A new peer has a new number. -/
theorem push (g : GroupC) (peer : GroupPeer) (hkey : g.peerInChat peer.realPk = none)
    (hnumber : g.getPeerIndex peer.peerNumber = none) : g.From (g.push peer hkey hnumber) := by
  intro peer' hpeer'
  rcases mem_append.mp hpeer' with hold | hnew
  · exact .inl ⟨peer', hold, rfl, rfl⟩
  · right
    intro old hold heq
    rw [mem_singleton.mp hnew] at heq
    exact getPeerIndex_none hnumber (List.mem_map.mpr ⟨old, hold, heq⟩)

/-- Where a peer is removed, no other is new. -/
theorem remove (g : GroupC) (i : ℕ) (h : i < g.group.length) : g.From (g.remove i h) := by
  intro peer' hpeer'
  have hmem := mem_of_mem_eraseIdx ((swapRemove_perm_eraseIdx h).mem_iff.mp hpeer')
  exact .inl ⟨peer', hmem, rfl, rfl⟩

/-- `addpeer` changes no last number. -/
theorem addpeer (now : UInt64) (alloc : ℕ → Bool) (g : GroupC) (realPk tempPk : PublicKey) (peerNumber : UInt16) :
    g.From (g.addpeer now alloc realPk tempPk peerNumber).2.1 := by
  rw [GroupC.addpeer]
  split
  · apply modify
    · exact fun _ => ⟨rfl, rfl⟩
    · exact fun _ => rfl
  · rename_i hkey
    split
    · exact refl g
    · rename_i hnumber
      split
      · exact refl g
      · exact push g _ hkey hnumber

/-- The `switch` changes no last number. -/
theorem handleMessage {g' : GroupC} {index : ℕ} {hindex : index < g.group.length} {messageId : UInt8}
    {msgData : Bytes} {calls : List GroupCall}
    (h : g.handleMessage packet index hindex messageId msgData = some (g', calls)) : g.From g' := by
  rw [GroupC.handleMessage] at h
  split at h
  · split at h
    · exact absurd h (by simp)
    · obtain ⟨rfl, -⟩ := Prod.mk.inj (some.inj h)
      apply modify
      exact fun _ => rfl
  split at h
  · split at h
    · exact absurd h (by simp)
    · have hadded :=
        addpeer packet.now packet.alloc g (slice 32 msgData 2) (slice 32 msgData (2 + 32)) (networkUInt16 msgData)
      rw [some.inj h] at hadded
      exact hadded
  split at h
  · split at h
    · exact absurd h (by simp)
    · split at h
      · obtain ⟨rfl, -⟩ := Prod.mk.inj (some.inj h)
        exact remove g index hindex
      · exact absurd h (by simp)
  split at h
  · rw [GroupC.setnick] at h
    split at h
    · exact absurd h (by simp)
    · split at h
      · obtain ⟨rfl, -⟩ := Prod.mk.inj (some.inj h)
        exact refl g
      · obtain ⟨rfl, -⟩ := Prod.mk.inj (some.inj h)
        apply modify
        exact fun _ => rfl
  split at h
  · rw [GroupC.settitle] at h
    split at h
    · exact absurd h (by simp)
    · split at h
      · obtain ⟨rfl, -⟩ := Prod.mk.inj (some.inj h)
        exact refl g
      · obtain ⟨rfl, -⟩ := Prod.mk.inj (some.inj h)
        exact refl g
  split at h
  · split at h
    · exact absurd h (by simp)
    · obtain ⟨rfl, -⟩ := Prod.mk.inj (some.inj h)
      exact refl g
  split at h
  · split at h
    · exact absurd h (by simp)
    · obtain ⟨rfl, -⟩ := Prod.mk.inj (some.inj h)
      exact refl g
  · exact absurd h (by simp)

end GroupC.From

/-! ## One packet -/

/-- The last numbers after a message was accepted. -/
theorem GroupC.setLast_lastNumber (g : GroupC) {peerNumber : UInt16} {index : ℕ}
    (h : g.getPeerIndex peerNumber = some index) (messageNumber : UInt32) :
    (g.setLast index messageNumber).lastNumber peerNumber = some messageNumber ∧
      ∀ other, other ≠ peerNumber → ∀ last, g.lastNumber other = some last →
        (g.setLast index messageNumber).lastNumber other = some last := by
  obtain ⟨hlt, hnumber, -⟩ := findIdx?_eq_some_iff_getElem.mp h
  have hmoved : (g.setLast index messageNumber).group = g.group.modify index fun peer =>
      { peer with lastMessageNumber := messageNumber } := rfl
  constructor
  · rw [lastNumber_eq_some]
    refine ⟨{ g.group[index] with lastMessageNumber := messageNumber }, ?_, of_decide_eq_true hnumber, rfl⟩
    rw [hmoved, mem_iff_getElem]
    refine ⟨index, by rw [length_modify]; exact hlt, ?_⟩
    rw [getElem_modify, if_pos rfl]
  · intro other hother last hlast
    obtain ⟨peer, hpeer, hpeerNumber, hvalue⟩ := lastNumber_eq_some.mp hlast
    rw [lastNumber_eq_some]
    refine ⟨peer, ?_, hpeerNumber, hvalue⟩
    obtain ⟨j, hj, rfl⟩ := mem_iff_getElem.mp hpeer
    rw [hmoved, mem_iff_getElem]
    refine ⟨j, by rw [length_modify]; exact hj, ?_⟩
    rw [getElem_modify, if_neg]
    intro heq
    subst heq
    exact hother (hpeerNumber.symm.trans (of_decide_eq_true hnumber))

/-- What a packet does: nothing is accepted, the group stays and nothing is sent to all; or a message is accepted, its
number is the last one of its peer, and then last numbers only go with their peers. -/
theorem GroupC.handleMessagePacketGroup_cases (g : GroupC) (packet : GroupPacket) :
    (g.accepts packet = none ∧ (g.handleMessagePacketGroup packet).1 = g ∧
        ∀ call ∈ (g.handleMessagePacketGroup packet).2, call = .sendPeerQuery packet.closeIndex) ∨
      ∃ index last, g.getPeerIndex packet.peerNumber = some index ∧ g.lastNumber packet.peerNumber = some last ∧
        acceptsNumber last packet.messageNumber = true ∧
        g.accepts packet = some (packet.peerNumber, packet.messageNumber) ∧
        (g.setLast index packet.messageNumber).From (g.handleMessagePacketGroup packet).1 := by
  rw [accepts, handleMessagePacketGroup]
  split
  · exact .inl ⟨rfl, rfl, by simp⟩
  split
  · rename_i hunknown
    left
    rw [lastNumber, hunknown]
    exact ⟨rfl, rfl, by simp⟩
  · rename_i index hindex
    have hlt := getPeerIndex_lt hindex
    have hlast : g.lastNumber packet.peerNumber = some g.group[index].lastMessageNumber := by
      rw [lastNumber, hindex, bind_some, getElem?_eq_getElem hlt, map_some]
    rw [hlast, bind_some]
    dsimp only
    by_cases haccepts : acceptsNumber g.group[index].lastMessageNumber packet.messageNumber = true
    · right
      refine ⟨index, _, hindex, rfl, haccepts, if_pos haccepts, ?_⟩
      rw [if_neg (by rw [haccepts]; exact Bool.false_ne_true)]
      split
      · exact From.refl _
      · rename_i hhandled
        exact From.handleMessage hhandled
    · left
      have hrejects : (!acceptsNumber g.group[index].lastMessageNumber packet.messageNumber) = true := by
        rw [Bool.eq_false_iff.mpr haccepts]
        rfl
      rw [if_pos hrejects]
      exact ⟨if_neg haccepts, rfl, by simp⟩

/-- The group after a packet. -/
def GroupC.next (g : GroupC) (packet : GroupPacket) : GroupC := (g.handleMessagePacketGroup packet).1

/-- While a peer stays, its last number stays, or is the one of a message that was accepted from it. -/
theorem GroupC.lastNumber_next {peerNumber : UInt16} {last : UInt32} (h : g.lastNumber peerNumber = some last)
    (packet : GroupPacket) (hstays : (g.next packet).lastNumber peerNumber ≠ none) :
    (g.next packet).lastNumber peerNumber = some last ∨
      ∃ messageNumber, g.accepts packet = some (peerNumber, messageNumber) ∧ acceptsNumber last messageNumber = true ∧
        (g.next packet).lastNumber peerNumber = some messageNumber := by
  rcases g.handleMessagePacketGroup_cases packet with ⟨-, hsame, -⟩ | ⟨index, old, hindex, hold, haccepts, hpair, hfrom⟩
  · left
    rw [next, hsame]
    exact h
  · obtain ⟨hown, hothers⟩ := g.setLast_lastNumber hindex packet.messageNumber
    by_cases hpeer : peerNumber = packet.peerNumber
    · right
      subst hpeer
      obtain rfl : old = last := some.inj (hold.symm.trans h)
      rcases hfrom.lastNumber hown with hkept | hgone
      · exact ⟨packet.messageNumber, hpair, haccepts, hkept⟩
      · exact absurd hgone hstays
    · left
      rcases hfrom.lastNumber (hothers peerNumber hpeer last h) with hkept | hgone
      · exact hkept
      · exact absurd hgone hstays

/-- A message is acted on or relayed: a packet with it changes the group, or makes a call that is not the query for a
peer that is not known. -/
def GroupC.Handles (g : GroupC) (packet : GroupPacket) (peerNumber : UInt16) (messageNumber : UInt32) : Prop :=
  packet.peerNumber = peerNumber ∧ packet.messageNumber = messageNumber ∧
    ((g.handleMessagePacketGroup packet).1 ≠ g ∨
      ∃ call ∈ (g.handleMessagePacketGroup packet).2, call ≠ .sendPeerQuery packet.closeIndex)

/-- Only messages that are accepted are acted on or relayed. -/
theorem GroupC.Handles.accepted {peerNumber : UInt16} {messageNumber : UInt32}
    (h : g.Handles packet peerNumber messageNumber) : g.accepts packet = some (peerNumber, messageNumber) := by
  obtain ⟨rfl, rfl, heffect⟩ := h
  rcases g.handleMessagePacketGroup_cases packet with ⟨-, hsame, hquery⟩ | ⟨-, -, -, -, -, hpair, -⟩
  · rcases heffect with hchanged | ⟨call, hcall, hne⟩
    · exact absurd hsame hchanged
    · exact absurd (hquery call hcall) hne
  · exact hpair

/-- The last number of the peer of an accepted message, before it. -/
theorem GroupC.accepted_number {peerNumber : UInt16} {messageNumber : UInt32}
    (h : g.accepts packet = some (peerNumber, messageNumber)) :
    ∃ last, g.lastNumber peerNumber = some last ∧ acceptsNumber last messageNumber = true := by
  rcases g.handleMessagePacketGroup_cases packet with ⟨hnone, -, -⟩ | ⟨-, last, -, hlast, haccepts, hpair, -⟩
  · rw [hnone] at h
    contradiction
  · obtain ⟨rfl, rfl⟩ := Prod.mk.inj (some.inj (hpair.symm.trans h))
    exact ⟨last, hlast, haccepts⟩

/-- The last number of the peer of an accepted message, after it. -/
theorem GroupC.accepted_lastNumber {peerNumber : UInt16} {messageNumber : UInt32}
    (h : g.accepts packet = some (peerNumber, messageNumber)) (hstays : (g.next packet).lastNumber peerNumber ≠ none) :
    (g.next packet).lastNumber peerNumber = some messageNumber := by
  rcases g.handleMessagePacketGroup_cases packet with ⟨hnone, -, -⟩ | ⟨index, -, hindex, -, -, hpair, hfrom⟩
  · rw [hnone] at h
    contradiction
  · obtain ⟨rfl, rfl⟩ := Prod.mk.inj (some.inj (hpair.symm.trans h))
    rcases hfrom.lastNumber (g.setLast_lastNumber hindex packet.messageNumber).1 with hkept | hgone
    · exact hkept
    · exact absurd hgone hstays

/-! ## Runs -/

/-- The group after some packets. -/
def GroupC.run (g : GroupC) (packets : List GroupPacket) : GroupC := packets.foldl next g

/-- A peer is in the group before every packet and at the end. -/
def GroupC.Stays (peerNumber : UInt16) : GroupC → List GroupPacket → Prop
  | g, [] => g.lastNumber peerNumber ≠ none
  | g, packet :: packets => g.lastNumber peerNumber ≠ none ∧ Stays peerNumber (g.next packet) packets

/-- The message number 0 is accepted from no peer with a number. -/
def GroupC.NoZero (peerNumber : UInt16) : GroupC → List GroupPacket → Prop
  | _, [] => True
  | g, packet :: packets => g.accepts packet ≠ some (peerNumber, 0) ∧ NoZero peerNumber (g.next packet) packets

/-- A part of a run without the message number 0 is one. -/
theorem GroupC.NoZero.append {peerNumber : UInt16} {front : List GroupPacket}
    (h : g.NoZero peerNumber (front ++ packets)) :
    g.NoZero peerNumber front ∧ (g.run front).NoZero peerNumber packets := by
  induction front generalizing g with
  | nil => exact ⟨trivial, h⟩
  | cons packet front ih =>
    obtain ⟨hhead, htail⟩ := h
    obtain ⟨hfront, hpackets⟩ := ih htail
    exact ⟨⟨hhead, hfront⟩, hpackets⟩

/-- A peer that stays is there at the start. -/
theorem GroupC.Stays.first {peerNumber : UInt16} (h : g.Stays peerNumber packets) :
    g.lastNumber peerNumber ≠ none := by
  cases packets with
  | nil => exact h
  | cons packet packets => exact h.1

/-- An accepted number is at most 64 ahead of a last number that is not 0. -/
theorem acceptsNumber_iff {last messageNumber : UInt32} (h : last ≠ 0) :
    acceptsNumber last messageNumber = true ↔ (messageNumber - last).toNat ≤ 64 ∧ messageNumber ≠ last := by
  rw [acceptsNumber, if_neg h, Bool.not_eq_true', Bool.or_eq_false_iff, decide_eq_false_iff_not,
    decide_eq_false_iff_not,
    UInt32.not_lt, UInt32.le_iff_toNat_le]
  rfl

/-- Over packets without the number 0, the last number of a peer advances by at most 64 for each. -/
theorem GroupC.lastNumber_run {peerNumber : UInt16} {last : UInt32} (hlast : g.lastNumber peerNumber = some last)
    (hnonzero : last ≠ 0) (packets : List GroupPacket) (hstays : g.Stays peerNumber packets)
    (hzero : g.NoZero peerNumber packets) :
    ∃ advance ≤ 64 * packets.length, last + UInt32.ofNat advance ≠ 0 ∧
      (g.run packets).lastNumber peerNumber = some (last + UInt32.ofNat advance) := by
  induction packets generalizing g last with
  | nil =>
    refine ⟨0, Nat.zero_le _, ?_, ?_⟩
    · rw [show UInt32.ofNat 0 = 0 from rfl, UInt32.add_zero]
      exact hnonzero
    · rw [show UInt32.ofNat 0 = 0 from rfl, UInt32.add_zero]
      exact hlast
  | cons packet packets ih =>
    rcases lastNumber_next hlast packet hstays.2.first with hkept | ⟨messageNumber, hpair, haccepts, hnew⟩
    · obtain ⟨advance, hle, hsum, hrun⟩ := ih hkept hnonzero hstays.2 hzero.2
      refine ⟨advance, ?_, hsum, hrun⟩
      rw [length_cons]
      omega
    · have hmessage : messageNumber ≠ 0 := by
        intro heq
        rw [heq] at hpair
        exact hzero.1 hpair
      obtain ⟨advance, hle, hsum, hrun⟩ := ih hnew hmessage hstays.2 hzero.2
      have hstep := ((acceptsNumber_iff hnonzero).mp haccepts).1
      have htotal : messageNumber + UInt32.ofNat advance =
          last + UInt32.ofNat ((messageNumber - last).toNat + advance) := by
        rw [UInt32.ofNat_add, UInt32.ofNat_toNat, ← UInt32.add_assoc, UInt32.add_comm last, UInt32.sub_add_cancel]
      rw [htotal] at hsum hrun
      refine ⟨(messageNumber - last).toNat + advance, ?_, hsum, hrun⟩
      rw [length_cons]
      omega

/-- A number does not come back before the numbers have gone around. -/
theorem not_acceptsNumber_again {messageNumber : UInt32} {advance : ℕ}
    (hnonzero : messageNumber + UInt32.ofNat advance ≠ 0) (hadvance : advance + 64 < 2 ^ 32) :
      acceptsNumber (messageNumber + UInt32.ofNat advance) messageNumber = false := by
  rw [Bool.eq_false_iff]
  intro haccepts
  obtain ⟨hle, hne⟩ := (acceptsNumber_iff hnonzero).mp haccepts
  have hvalue : (messageNumber + UInt32.ofNat advance).toNat = (messageNumber.toNat + advance) % 2 ^ 32 := by
    rw [UInt32.toNat_add, UInt32.toNat_ofNat', Nat.add_mod_mod]
  rw [UInt32.toNat_sub, hvalue] at hle
  have hlt := messageNumber.toNat_lt
  have hpositive : advance ≠ 0 := by
    rintro rfl
    rw [show UInt32.ofNat 0 = 0 from rfl, UInt32.add_zero] at hne
    exact hne rfl
  omega

/-- Group messages are accepted at most once: in every run of fewer than 2^26 packets in which the message number 0 is
accepted from no packet of a peer, no two messages of the peer with one number are acted on or relayed while it stays
in the group. -/
theorem group_message_accepted_once (g : GroupC) (first between rest : List GroupPacket) (a b : GroupPacket)
    (peerNumber : UInt16) (messageNumber : UInt32) (hcount : (first ++ a :: (between ++ b :: rest)).length < 2 ^ 26)
    (hzero : g.NoZero peerNumber (first ++ a :: (between ++ b :: rest)))
    (hstays : ((g.run first).next a).Stays peerNumber between) :
    ¬((g.run first).Handles a peerNumber messageNumber ∧
      (((g.run first).next a).run between).Handles b peerNumber messageNumber) := by
  rintro ⟨hfirst, hagain⟩
  obtain ⟨hhead, htail⟩ := (GroupC.NoZero.append hzero).2
  have hnonzero : messageNumber ≠ 0 := by
    rintro rfl
    exact hhead hfirst.accepted
  have hlast := GroupC.accepted_lastNumber hfirst.accepted hstays.first
  obtain ⟨advance, hle, hsum, hrun⟩ :=
    GroupC.lastNumber_run hlast hnonzero between hstays (GroupC.NoZero.append htail).1
  obtain ⟨last, hfound, haccepts⟩ := GroupC.accepted_number hagain.accepted
  rw [hrun] at hfound
  obtain rfl := some.inj hfound
  have hlength : between.length + 2 < 2 ^ 26 := by
    rw [length_append, length_cons, length_append, length_cons] at hcount
    omega
  rw [not_acceptsNumber_again hsum (by omega)] at haccepts
  contradiction

/-- A group whose only peer has the number 1 and has sent nothing yet. -/
def lonePeerGroup : GroupC :=
  ⟨.connected, List.Vector.replicate groupIdentifierLength 0, [⟨PublicKey.zero, PublicKey.zero, 0, 0, [], 1⟩], 0, [],
    nodup_singleton _, nodup_singleton _⟩

/-- A ping of the peer 1 with a message number below 256. -/
def pingNumbered (messageNumber : UInt8) : GroupPacket :=
  ⟨0, fun _ => true, [0, 1, 0, 0, 0, messageNumber, groupMessagePingId], 0⟩

/-- A ping with the number 5 is not handled a second time. -/
theorem group_message_accepted_once_ping :
    lonePeerGroup.Handles (pingNumbered 5) 1 5 ∧
      ¬(lonePeerGroup.next (pingNumbered 5)).Handles (pingNumbered 5) 1 5 := by
  have hhandled : lonePeerGroup.Handles (pingNumbered 5) 1 5 :=
    ⟨by decide, by decide, .inr ⟨.sendMessageAllClose (pingNumbered 5).data, by decide, by decide⟩⟩
  have honce := group_message_accepted_once lonePeerGroup [] [] [] (pingNumbered 5) (pingNumbered 5) 1 5 (by decide)
    ⟨by decide, by decide, trivial⟩ (by unfold GroupC.Stays; decide)
  exact ⟨hhandled, fun hagain => honce ⟨hhandled, hagain⟩⟩

/-- A ping with the number 0 is handled again and again: the group sends it on to all close connections each time, and
its sender is a peer all along. -/
theorem group_message_accepted_twice :
    lonePeerGroup.Handles (pingNumbered 0) 1 0 ∧ (lonePeerGroup.next (pingNumbered 0)).Stays 1 [] ∧
      (lonePeerGroup.next (pingNumbered 0)).Handles (pingNumbered 0) 1 0 :=
  ⟨⟨by decide, by decide, .inr ⟨.sendMessageAllClose (pingNumbered 0).data, by decide, by decide⟩⟩,
    by unfold GroupC.Stays; decide,
    ⟨by decide, by decide, .inr ⟨.sendMessageAllClose (pingNumbered 0).data, by decide, by decide⟩⟩⟩

end Toxcore
