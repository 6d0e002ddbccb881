import Toxcore.Data.Flooding
import Toxcore.Groups.Messages

/-!
# How messages spread in a group chat

A member of a group sends what it says to its close connections, and sends on what it accepts from them. The numbers
of its messages go around without 0. As long as the members and their connections stay and nobody says an empty text,
the members flood the group: what one says is given to the callbacks of the others in the order in which it was said,
nothing is left out and nothing comes twice, not even at a member with many close connections, and once nothing is on
its way everybody has it.
-/

namespace Toxcore

open ByteStrings Flooding Function List Option

/-! ## Sending -/

/-- `MIN_MESSAGE_PACKET_LEN`. -/
abbrev minMessagePacketLen : ℕ := 2 * 2 + 4 + 1

/-- `MAX_GROUP_MESSAGE_DATA_LEN`. -/
abbrev maxGroupMessageDataLen : ℕ := maxCryptoDataSize - (1 + minMessagePacketLen)

/-- A group and the number of the last message that was sent to it. -/
structure GroupMember where
  group : GroupC
  messageNumber : UInt32

/-- The number of the next message. -/
def nextMessageNumber (messageNumber : UInt32) : UInt32 :=
  if messageNumber + 1 = 0 then messageNumber + 1 + 1 else messageNumber + 1

/-- The packet with a message: the numbers of the peer and of the message, its id, and its data. -/
def messagePacket (peerNumber : UInt16) (messageNumber : UInt32) (messageId : UInt8) (data : Bytes) : Bytes :=
  beBytes 2 peerNumber.toNat ++ (beBytes 4 messageNumber.toNat ++ messageId :: data)

/-- `send_message_group` for a group that exists. -/
def GroupMember.sendMessageGroup (m : GroupMember) (messageId : UInt8) (data : Bytes) : GroupMember × List GroupCall :=
  if data.length > maxGroupMessageDataLen then (m, [])
  else if m.group.status ≠ .connected then (m, [])
  else
    ({ m with messageNumber := nextMessageNumber m.messageNumber },
      [.sendMessageAllClose (messagePacket m.group.peerNumber (nextMessageNumber m.messageNumber) messageId data)])

/-- `group_ping_send`. -/
def GroupMember.groupPingSend (m : GroupMember) : GroupMember × List GroupCall :=
    m.sendMessageGroup groupMessagePingId []

/-- `group_name_send`. -/
def GroupMember.groupNameSend (m : GroupMember) (nick : Bytes) : GroupMember × List GroupCall :=
  if nick.length > maxNameLength then (m, []) else m.sendMessageGroup groupMessageNameId nick

/-- `group_title_send`. -/
def GroupMember.groupTitleSend (m : GroupMember) (title : Bytes) : GroupMember × List GroupCall :=
  if title.length > maxNameLength ∨ title.length = 0 then (m, [])
  else if m.group.title = title then (m, [])
  else if m.group.group.length = 1 then ({ m with group := { m.group with title := title } }, [])
  else { m with group := { m.group with title := title } }.sendMessageGroup groupMessageTitleId title

/-- `group_message_send`. -/
def GroupMember.groupMessageSend (m : GroupMember) (message : Bytes) : GroupMember × List GroupCall :=
  m.sendMessageGroup packetIdMessage message

/-- `group_action_send`. -/
def GroupMember.groupActionSend (m : GroupMember) (action : Bytes) : GroupMember × List GroupCall :=
  m.sendMessageGroup packetIdAction action

/-- What a member says. -/
inductive GroupText where
  | ping
  | name (nick : Bytes)
  | title (topic : Bytes)
  | message (words : Bytes)
  | action (words : Bytes)
  deriving DecidableEq

/-- The id of a message with a text. -/
def GroupText.messageId : GroupText → UInt8
  | .ping => groupMessagePingId
  | .name _ => groupMessageNameId
  | .title _ => groupMessageTitleId
  | .message _ => packetIdMessage
  | .action _ => packetIdAction

/-- The data of a message with a text. -/
def GroupText.data : GroupText → Bytes
  | .ping => []
  | .name nick => nick
  | .title topic => topic
  | .message words => words
  | .action words => words

/-- A member says something. -/
def GroupMember.say (m : GroupMember) : GroupText → GroupMember × List GroupCall
  | .ping => m.groupPingSend
  | .name nick => m.groupNameSend nick
  | .title topic => m.groupTitleSend topic
  | .message words => m.groupMessageSend words
  | .action words => m.groupActionSend words

/-- The texts that the handler of the others acts on. -/
def GroupText.Passes : GroupText → Prop
  | .ping => True
  | .name nick => nick.length ≤ maxNameLength
  | .title topic => topic.length ≤ maxNameLength ∧ topic.length ≠ 0
  | .message words => words.length ≠ 0
  | .action words => words.length ≠ 0

/-- The texts of messages and actions. -/
def GroupText.isChat : GroupText → Bool
  | .message _ => true
  | .action _ => true
  | _ => false

/-- The text that a callback is told of a peer. -/
def GroupCall.chat (peerIndex : ℕ) : GroupCall → Option GroupText
  | .message i data => if i = peerIndex then some (.message data) else none
  | .action i data => if i = peerIndex then some (.action data) else none
  | _ => none

/-- The packet that a call sends to all close connections. -/
def GroupCall.toAllClose : GroupCall → Option Bytes
  | .sendMessageAllClose data => some data
  | _ => none

/-! ## Numbers -/

/-- The numbers go around without 0. -/
theorem nextMessageNumber_toNat (messageNumber : UInt32) :
    (nextMessageNumber messageNumber).toNat = messageNumber.toNat % (2 ^ 32 - 1) + 1 := by
  have hlt := messageNumber.toNat_lt
  have hvalue : (messageNumber + 1).toNat = (messageNumber.toNat + 1) % 2 ^ 32 := UInt32.toNat_add ..
  rw [nextMessageNumber]
  split
  · rename_i hzero
    rw [hzero] at hvalue
    change 0 = _ at hvalue
    rw [hzero]
    change 1 = _
    omega
  · rename_i hnonzero
    have hne : (messageNumber + 1).toNat ≠ 0 := fun hzero => hnonzero (UInt32.toNat_inj.mp hzero)
    omega

/-- The message numbers skip 0. -/
theorem nextMessageNumber_iterate_toNat (base : UInt32) (k : ℕ) :
    (nextMessageNumber^[k + 1] base).toNat = (base.toNat + k) % (2 ^ 32 - 1) + 1 := by
  induction k with
  | zero => exact nextMessageNumber_toNat base
  | succ k ih =>
    rw [Function.iterate_succ_apply', nextMessageNumber_toNat, ih]
    omega

/-- The next number is accepted. -/
theorem acceptsNumber_next (messageNumber : UInt32) :
    acceptsNumber messageNumber (nextMessageNumber messageNumber) = true := by
  by_cases hzero : messageNumber = 0
  · exact if_pos hzero
  · have hne : messageNumber.toNat ≠ 0 := fun h => hzero (UInt32.toNat_inj.mp h)
    have hlt := messageNumber.toNat_lt
    have hnext := nextMessageNumber_toNat messageNumber
    have hsub := UInt32.toNat_sub (nextMessageNumber messageNumber) messageNumber
    rw [acceptsNumber_iff hzero]
    constructor
    · rcases Nat.lt_or_ge messageNumber.toNat (2 ^ 32 - 1) with hsmall | hlast
      · rw [Nat.mod_eq_of_lt hsmall] at hnext
        omega
      · have hmax : messageNumber.toNat = 2 ^ 32 - 1 := by omega
        rw [hmax, Nat.mod_self] at hnext
        omega
    · intro hsame
      rw [hsame] at hnext
      omega

/-- A number is not accepted again before the numbers have gone around. -/
theorem acceptsNumber_old {base : UInt32} {j k : ℕ} (hk : 0 < k) (hle : k ≤ j) (hj : j ≤ 2 ^ 32 - 66) :
    acceptsNumber (nextMessageNumber^[j] base) (nextMessageNumber^[k] base) = false := by
  obtain ⟨k, rfl⟩ := Nat.exists_eq_add_of_lt hk
  obtain ⟨j, rfl⟩ : ∃ i, j = i + 1 := ⟨j - 1, by omega⟩
  have hvalue := nextMessageNumber_iterate_toNat base j
  have hold := nextMessageNumber_iterate_toNat base k
  rw [Nat.zero_add] at hk hle ⊢
  rw [Bool.eq_false_iff]
  intro haccepts
  have hnonzero : nextMessageNumber^[j + 1] base ≠ 0 := by
    intro hzero
    rw [hzero] at hvalue
    exact absurd hvalue (Nat.succ_ne_zero _).symm
  obtain ⟨hwindow, hne⟩ := (acceptsNumber_iff hnonzero).mp haccepts
  have hdistinct : (nextMessageNumber^[k + 1] base).toNat ≠ (nextMessageNumber^[j + 1] base).toNat :=
    fun h => hne (UInt32.toNat_inj.mp h)
  rw [UInt32.toNat_sub] at hwindow
  omega

/-! ## What the others do with a text -/

/-- Two states of a group with the same status and the same own number, whose peers have the same numbers. -/
structure GroupC.SameNumbers (g g' : GroupC) : Prop where
  status : g'.status = g.status
  own : g'.peerNumber = g.peerNumber
  numbers : g'.group.map (fun peer => (peer.peerNumber, peer.lastMessageNumber)) =
    g.group.map fun peer => (peer.peerNumber, peer.lastMessageNumber)

namespace GroupC.SameNumbers

theorem refl (g : GroupC) : g.SameNumbers g := ⟨rfl, rfl, rfl⟩

theorem modify (g : GroupC) (i : ℕ) {f : GroupPeer → GroupPeer}
    (hf : ∀ peer, (f peer).peerNumber = peer.peerNumber ∧ (f peer).realPk = peer.realPk)
    (hlast : ∀ peer, (f peer).lastMessageNumber = peer.lastMessageNumber) : g.SameNumbers (g.modify i f hf) where
  status := rfl
  own := rfl
  numbers := by
    have hkeeps (peer : GroupPeer) : ((f peer).peerNumber, (f peer).lastMessageNumber) =
        (peer.peerNumber, peer.lastMessageNumber) := Prod.ext (hf peer).1 (hlast peer)
    exact TableView.map_modify_of_keeps hkeeps g.group i

theorem getPeerIndex {g g' : GroupC} (h : g.SameNumbers g') (peerNumber : UInt16) :
    g'.getPeerIndex peerNumber = g.getPeerIndex peerNumber := by
  have hfound (g : GroupC) : g.getPeerIndex peerNumber =
      (g.group.map fun peer => (peer.peerNumber, peer.lastMessageNumber)).findIdx? fun pair => pair.1 = peerNumber := by
    rw [findIdx?_map]
    rfl
  rw [hfound, hfound, h.numbers]

theorem lastNumber {g g' : GroupC} (h : g.SameNumbers g') (peerNumber : UInt16) :
    g'.lastNumber peerNumber = g.lastNumber peerNumber := by
  have hvalue (g : GroupC) (i : ℕ) : g.group[i]?.map GroupPeer.lastMessageNumber =
      (g.group.map fun peer => (peer.peerNumber, peer.lastMessageNumber))[i]?.map Prod.snd := by
    rw [getElem?_map, Option.map_map]
    rfl
  rw [GroupC.lastNumber, GroupC.lastNumber, h.getPeerIndex]
  congr 1
  funext i
  rw [hvalue, hvalue, h.numbers]

end GroupC.SameNumbers

/-- The handler acts on a text: a message or an action is told to its callback, and the numbers of the peers stay. -/
theorem GroupC.handleMessage_text (g : GroupC) (packet : GroupPacket) (index : ℕ) (hindex : index < g.group.length)
    {text : GroupText} (h : text.Passes) :
    ∃ g' calls, g.handleMessage packet index hindex text.messageId text.data = some (g', calls) ∧ g.SameNumbers g' ∧
      (∀ i, calls.filterMap (GroupCall.chat i) = if index = i then [text].filter GroupText.isChat else []) ∧
      calls.filterMap GroupCall.toAllClose = [] := by
  cases text with
  | ping =>
    refine ⟨_, [], rfl, ?_, fun i => (ite_self []).symm, rfl⟩
    apply SameNumbers.modify
    exact fun _ => rfl
  | name nick =>
    have hsetnick : g.handleMessage packet index hindex (GroupText.name nick).messageId (GroupText.name nick).data =
        g.setnick index nick := rfl
    rw [hsetnick, setnick, if_neg (Nat.not_lt.mpr h)]
    split
    · exact ⟨g, [], rfl, .refl g, fun i => (ite_self []).symm, rfl⟩
    · refine ⟨_, _, rfl, ?_, fun i => (ite_self []).symm, rfl⟩
      apply SameNumbers.modify
      exact fun _ => rfl
  | title topic =>
    obtain ⟨hlength, hnonempty⟩ := h
    have hsettitle :
      g.handleMessage packet index hindex (GroupText.title topic).messageId (GroupText.title topic).data =
        g.settitle index (topic.take (topic.length % 256)) := rfl
    have hwhole : topic.take (topic.length % 256) = topic := by
      rw [Nat.mod_eq_of_lt (hlength.trans_lt (by decide)), take_length]
    rw [hsettitle, hwhole, settitle, if_neg]
    · split
      · exact ⟨g, [], rfl, .refl g, fun i => (ite_self []).symm, rfl⟩
      · exact ⟨_, _, rfl, ⟨rfl, rfl, rfl⟩, fun i => (ite_self []).symm, rfl⟩
    · rintro (hlong | hempty)
      · exact absurd hlength (Nat.not_le.mpr hlong)
      · exact hnonempty hempty
  | message words =>
    have hmessage :
      g.handleMessage packet index hindex (GroupText.message words).messageId (GroupText.message words).data =
        if words.length = 0 then none else some (g, [.message index words]) := rfl
    rw [hmessage, if_neg h]
    refine ⟨g, _, rfl, .refl g, fun i => ?_, rfl⟩
    rw [filterMap_cons, GroupCall.chat]
    by_cases hi : index = i
    · rw [if_pos hi, if_pos hi]
      rfl
    · rw [if_neg hi, if_neg hi]
      rfl
  | action words =>
    have haction :
      g.handleMessage packet index hindex (GroupText.action words).messageId (GroupText.action words).data =
        if words.length = 0 then none else some (g, [.action index words]) := rfl
    rw [haction, if_neg h]
    refine ⟨g, _, rfl, .refl g, fun i => ?_, rfl⟩
    rw [filterMap_cons, GroupCall.chat]
    by_cases hi : index = i
    · rw [if_pos hi, if_pos hi]
      rfl
    · rw [if_neg hi, if_neg hi]
      rfl

section Packet

variable (number : UInt16) (messageNumber : UInt32) (text : GroupText) (now : UInt64) (alloc : ℕ → Bool)
  (closeIndex : ℕ)

/-- A packet with a text. -/
def textPacket : GroupPacket := ⟨now, alloc, messagePacket number messageNumber text.messageId text.data, closeIndex⟩

theorem textPacket_peerNumber : (textPacket number messageNumber text now alloc closeIndex).peerNumber = number := by
  have hlt : number.toNat < 256 ^ 2 := number.toNat_lt
  rw [GroupPacket.peerNumber, networkUInt16, textPacket, messagePacket, take_left' (beBytes_length ..),
    beNat_beBytes_of_lt hlt, UInt16.ofNat_toNat]

theorem textPacket_messageNumber :
    (textPacket number messageNumber text now alloc closeIndex).messageNumber = messageNumber := by
  have hlt : messageNumber.toNat < 256 ^ 4 := messageNumber.toNat_lt
  rw [GroupPacket.messageNumber, networkUInt32, textPacket, messagePacket, drop_left' (beBytes_length ..),
    take_left' (beBytes_length ..), beNat_beBytes_of_lt hlt, UInt32.ofNat_toNat]

theorem textPacket_drop :
    (textPacket number messageNumber text now alloc closeIndex).data.drop 6 = text.messageId :: text.data := by
  rw [textPacket, messagePacket, ← append_assoc, drop_left']
  simp

theorem textPacket_length : 7 ≤ (textPacket number messageNumber text now alloc closeIndex).data.length := by
  have hdrop := congrArg List.length (textPacket_drop number messageNumber text now alloc closeIndex)
  rw [length_drop, length_cons] at hdrop
  omega

variable {g : GroupC} {last : UInt32} (hlast : g.lastNumber number = some last)
include hlast

/-- A text from a peer that the group knows: nothing is done if its number is not accepted. -/
theorem GroupC.handle_text_rejected (hrejects : acceptsNumber last messageNumber = false) :
    g.handleMessagePacketGroup (textPacket number messageNumber text now alloc closeIndex) = (g, []) := by
  obtain ⟨index, hindex, hvalue⟩ := bind_eq_some_iff.mp hlast
  rw [getElem?_eq_getElem (getPeerIndex_lt hindex), map_some] at hvalue
  rw [handleMessagePacketGroup, if_neg (Nat.not_lt.mpr (textPacket_length ..))]
  split
  · rename_i hunknown
    rw [textPacket_peerNumber, hindex] at hunknown
    contradiction
  · rename_i found hfound
    rw [textPacket_peerNumber, hindex] at hfound
    obtain rfl := some.inj hfound
    simp only [textPacket_messageNumber, some.inj hvalue, hrejects, Bool.not_false, if_true]

/-- A text that is accepted is told to its callback and sent on. -/
theorem GroupC.handle_text_accepted (hpasses : text.Passes) (haccepts : acceptsNumber last messageNumber = true)
    {index : ℕ} (hindex : g.getPeerIndex number = some index) :
    ∃ g' calls, g.handleMessagePacketGroup (textPacket number messageNumber text now alloc closeIndex) = (g', calls) ∧
      (g.setLast index messageNumber).SameNumbers g' ∧
      (∀ i, calls.filterMap (GroupCall.chat i) = if index = i then [text].filter GroupText.isChat else []) ∧
      calls.filterMap GroupCall.toAllClose = [messagePacket number messageNumber text.messageId text.data] := by
  rw [lastNumber, hindex, bind_some, getElem?_eq_getElem (getPeerIndex_lt hindex), map_some] at hlast
  have hlt : index < (g.setLast index messageNumber).group.length := by
    rw [setLast_length]
    exact getPeerIndex_lt hindex
  obtain ⟨g', calls, hhandled, hsame, hchats, hclose⟩ := (g.setLast index messageNumber).handleMessage_text
    (textPacket number messageNumber text now alloc closeIndex) index hlt hpasses
  have hdrop := textPacket_drop number messageNumber text now alloc closeIndex
  have hid : (textPacket number messageNumber text now alloc closeIndex).data.getD 6 0 = text.messageId := by
    rw [getD_eq_getElem?_getD, ← head?_drop, hdrop, head?_cons, getD_some]
  have hdata : (textPacket number messageNumber text now alloc closeIndex).data.drop 7 = text.data := by
    rw [show 7 = 6 + 1 from rfl, ← drop_drop, hdrop]
    rfl
  refine ⟨g', calls ++ [.sendMessageAllClose (messagePacket number messageNumber text.messageId text.data)], ?_,
    hsame, ?_, ?_⟩
  · rw [handleMessagePacketGroup, if_neg (Nat.not_lt.mpr (textPacket_length ..))]
    split
    · rename_i hunknown
      rw [textPacket_peerNumber, hindex] at hunknown
      contradiction
    · rename_i found hfound
      rw [textPacket_peerNumber, hindex] at hfound
      obtain rfl := some.inj hfound
      simp only [textPacket_messageNumber, some.inj hlast, haccepts, hid, hdata, hhandled, Bool.not_true,
        Bool.false_eq_true, if_false]
      rfl
  · intro i
    rw [filterMap_append, hchats]
    exact append_nil _
  · rw [filterMap_append, hclose]
    rfl

end Packet

/-- What a member does that says something: it sends nothing, or it sends what the others act on. -/
theorem GroupMember.say_cases (m : GroupMember) (hstatus : m.group.status = .connected) {text : GroupText}
    (hwords : text.isChat = true → text.data ≠ []) :
    (∃ group, m.group.SameNumbers group ∧ m.say text = (⟨group, m.messageNumber⟩, [])) ∨
      ∃ group, m.group.SameNumbers group ∧ text.Passes ∧
        m.say text = (⟨group, nextMessageNumber m.messageNumber⟩,
          [.sendMessageAllClose
            (messagePacket m.group.peerNumber (nextMessageNumber m.messageNumber) text.messageId text.data)]) := by
  have hsend (title : Bytes) (messageId : UInt8) (data : Bytes) :
      (∃ group, m.group.SameNumbers group ∧
        { m with group := { m.group with title := title } }.sendMessageGroup messageId data =
        (⟨group, m.messageNumber⟩, [])) ∨
      ∃ group, m.group.SameNumbers group ∧
        { m with group := { m.group with title := title } }.sendMessageGroup messageId data =
          (⟨group, nextMessageNumber m.messageNumber⟩,
            [.sendMessageAllClose
              (messagePacket m.group.peerNumber (nextMessageNumber m.messageNumber) messageId data)]) := by
    have hsame : m.group.SameNumbers { m.group with title := title } := ⟨rfl, rfl, rfl⟩
    rw [sendMessageGroup]
    split
    · exact .inl ⟨_, hsame, rfl⟩
    · rw [if_neg (not_not_intro hstatus)]
      exact .inr ⟨_, hsame, rfl⟩
  have hpassed (messageId : UInt8) (data : Bytes) (hpasses : text.Passes) (hid : text.messageId = messageId)
      (hdata : text.data = data) :
      (∃ group, m.group.SameNumbers group ∧ m.sendMessageGroup messageId data = (⟨group, m.messageNumber⟩, [])) ∨
      ∃ group, m.group.SameNumbers group ∧ text.Passes ∧ m.sendMessageGroup messageId data =
          (⟨group, nextMessageNumber m.messageNumber⟩, [.sendMessageAllClose
            (messagePacket m.group.peerNumber (nextMessageNumber m.messageNumber) text.messageId text.data)]) := by
    subst hid hdata
    rcases hsend m.group.title text.messageId text.data with hnothing | ⟨group, hsame, hsent⟩
    · exact .inl hnothing
    · exact .inr ⟨group, hsame, hpasses, hsent⟩
  cases text with
  | ping => exact hpassed groupMessagePingId [] trivial rfl rfl
  | name nick =>
    rw [say, groupNameSend]
    split
    · exact .inl ⟨_, .refl _, rfl⟩
    · rename_i hlength
      exact hpassed groupMessageNameId nick (Nat.le_of_not_lt hlength) rfl rfl
  | title topic =>
    rw [say, groupTitleSend]
    split
    · exact .inl ⟨_, .refl _, rfl⟩
    rename_i hlength
    rw [not_or] at hlength
    split
    · exact .inl ⟨_, .refl _, rfl⟩
    split
    · exact .inl ⟨{ m.group with title := topic }, ⟨rfl, rfl, rfl⟩, rfl⟩
    · rcases hsend topic groupMessageTitleId topic with hnothing | ⟨group, hsame, hsent⟩
      · exact .inl hnothing
      · exact .inr ⟨group, hsame, ⟨Nat.le_of_not_lt hlength.1, hlength.2⟩, hsent⟩
  | message words =>
    exact hpassed packetIdMessage words (fun hempty => hwords rfl (eq_nil_of_length_eq_zero hempty)) rfl rfl
  | action words =>
    exact hpassed packetIdAction words (fun hempty => hwords rfl (eq_nil_of_length_eq_zero hempty)) rfl rfl

/-! ## Groups of members -/

/-- The members of a group, the packets on their way from one to another, the oldest first, what they have said, and
the calls that their handlers have made. -/
structure GroupNet (ι : Type*) where
  member : ι → GroupMember
  link : ι → ι → List Bytes
  said : ι → List GroupText
  told : ι → List GroupCall

/-- A member says something, or handles the oldest packet from another. -/
inductive GroupStep (ι : Type*) where
  | say (o : ι) (text : GroupText)
  | deliver (u v : ι) (now : UInt64) (alloc : ℕ → Bool) (closeIndex : ℕ)

namespace GroupNet

section Steps

variable {ι : Type*} [DecidableEq ι] (links : ι → Finset ι)

/-- Send to all close connections of a member what its calls say. Each of them takes every packet: `write_cryptpacket`
never fails. -/
def send (net : GroupNet ι) (u : ι) (calls : List GroupCall) : GroupNet ι :=
  { net with
    link := fun x y =>
      if x = u ∧ y ∈ links u then net.link x y ++ calls.filterMap GroupCall.toAllClose else net.link x y }

/-- A member says something. What was sent to nobody was not said. -/
def say (net : GroupNet ι) (o : ι) (text : GroupText) : GroupNet ι :=
  let (member, calls) := (net.member o).say text
  { net with
    member := update net.member o member
    said := if calls = [] then net.said else update net.said o (net.said o ++ [text]) }.send links o calls

/-- A member handles the oldest packet from another. -/
def deliver (net : GroupNet ι) (u v : ι) (now : UInt64) (alloc : ℕ → Bool) (closeIndex : ℕ) : GroupNet ι :=
  match net.link u v with
  | [] => net
  | data :: rest =>
    let (group, calls) := (net.member v).group.handleMessagePacketGroup ⟨now, alloc, data, closeIndex⟩
    { net with
      member := update net.member v { net.member v with group := group }
      link := update net.link u (update (net.link u) v rest)
      told := update net.told v (net.told v ++ calls) }.send links v calls

/-- A step of the group. -/
def step (net : GroupNet ι) : GroupStep ι → GroupNet ι
  | .say o text => net.say links o text
  | .deliver u v now alloc closeIndex => net.deliver links u v now alloc closeIndex

/-- The group after some steps. -/
def run (net : GroupNet ι) (steps : List (GroupStep ι)) : GroupNet ι := steps.foldl (step links) net

/-- The number of packets that are handled in some steps. -/
def deliveries (net : GroupNet ι) : List (GroupStep ι) → ℕ
  | [] => 0
  | .say o text :: steps => deliveries (net.say links o text) steps
  | .deliver u v now alloc closeIndex :: steps =>
    (if net.link u v = [] then 0 else 1) + deliveries (net.deliver links u v now alloc closeIndex) steps

end Steps

/-! ## The members flood the group -/

section Simulation

variable {ι : Type*}

/-- The number of a member. -/
def number (net : GroupNet ι) (o : ι) : UInt16 := (net.member o).group.peerNumber

/-- The number of the k-th message of a member, counted from a state of the group. -/
def numberAt (start : GroupNet ι) (o : ι) (k : ℕ) : UInt32 := nextMessageNumber^[k] (start.member o).messageNumber

/-- The members know each other, nothing is on its way, and everybody has either nothing or the last message of the
others. -/
structure Starts (net : GroupNet ι) : Prop where
  status : ∀ v, (net.member v).group.status = .connected
  distinct : Injective net.number
  last : ∀ v o, (net.member v).group.lastNumber (net.number o) = some 0 ∨
    (net.member v).group.lastNumber (net.number o) = some (net.member o).messageNumber
  link : ∀ u v, net.link u v = []
  said : ∀ o, net.said o = []
  told : ∀ v, net.told v = []

/-- The packet with the k-th message of a member. -/
def packet (start net : GroupNet ι) (message : ι × ℕ) : Bytes :=
  messagePacket (start.number message.1) (start.numberAt message.1 message.2)
    ((net.said message.1).getD (message.2 - 1) .ping).messageId ((net.said message.1).getD (message.2 - 1) .ping).data

/-- A member that has sent some messages and has the last messages of the others. -/
structure MemberAt (start : GroupNet ι) (v : ι) (sent : ℕ) (last : ι → ℕ) (m : GroupMember) : Prop where
  status : m.group.status = .connected
  own : m.group.peerNumber = start.number v
  messageNumber : m.messageNumber = start.numberAt v sent
  index : ∀ o, m.group.getPeerIndex (start.number o) = (start.member v).group.getPeerIndex (start.number o)
  last : ∀ o, m.group.lastNumber (start.number o) = some (start.numberAt o (last o)) ∨
    last o = 0 ∧ m.group.lastNumber (start.number o) = some 0

/-- A group does what a net does that only passes on the numbers of messages. -/
structure Simulates [DecidableEq ι] (links : ι → Finset ι) (start net : GroupNet ι) (abstract : Net ι) : Prop where
  flooded : abstract.Flooded links
  sent : ∀ o, abstract.sent o = (net.said o).length
  member : ∀ v, MemberAt start v (net.said v).length (abstract.last v) (net.member v)
  link : ∀ u v, net.link u v = (abstract.queue u v).map (packet start net)
  passes : ∀ o, ∀ text ∈ net.said o, text.Passes
  told : ∀ v o i, (start.member v).group.getPeerIndex (start.number o) = some i →
    (net.told v).filterMap (GroupCall.chat i) = ((net.said o).take (abstract.last v o)).filter GroupText.isChat

variable {links : ι → Finset ι} {start net : GroupNet ι} {abstract : Net ι} {v : ι} {sent : ℕ} {last : ι → ℕ}
  {m : GroupMember}

variable {group : GroupC} {o u : ι} {text : GroupText} {rest : List Bytes}

/-- What does not change numbers does not matter. -/
theorem MemberAt.same (h : MemberAt start v sent last m) (hsame : m.group.SameNumbers group) :
    MemberAt start v sent last ⟨group, m.messageNumber⟩ where
  status := hsame.status.trans h.status
  own := hsame.own.trans h.own
  messageNumber := h.messageNumber
  index o := (hsame.getPeerIndex _).trans (h.index o)
  last o := by
    rw [hsame.lastNumber]
    exact h.last o

/-- A member that sends a message. -/
theorem MemberAt.next (h : MemberAt start v sent last m) :
    MemberAt start v (sent + 1) last ⟨m.group, nextMessageNumber m.messageNumber⟩ where
  status := h.status
  own := h.own
  messageNumber := by
    rw [numberAt, Function.iterate_succ_apply', h.messageNumber]
    rfl
  index := h.index
  last := h.last

/-- A member that accepts a message. -/
theorem MemberAt.setLast [DecidableEq ι] (h : MemberAt start v sent last m)
    (hdistinct : Injective start.number) {index : ℕ}
    (hindex : m.group.getPeerIndex (start.number o) = some index) (k : ℕ) :
    MemberAt start v sent (update last o k) ⟨m.group.setLast index (start.numberAt o k), m.messageNumber⟩ where
  status := h.status
  own := h.own
  messageNumber := h.messageNumber
  index o' := by
    have hsame : (m.group.setLast index (start.numberAt o k)).getPeerIndex (start.number o') =
        m.group.getPeerIndex (start.number o') := by
      have hnumbers : (m.group.setLast index (start.numberAt o k)).group.map GroupPeer.peerNumber =
          m.group.group.map GroupPeer.peerNumber := by
        apply TableView.map_modify_of_keeps
        exact fun _ => rfl
      have hfound (g : GroupC) : g.getPeerIndex (start.number o') =
          (g.group.map GroupPeer.peerNumber).findIdx? fun n => n = start.number o' := by
        rw [findIdx?_map]
        rfl
      rw [hfound, hfound, hnumbers]
    exact hsame.trans (h.index o')
  last o' := by
    obtain ⟨hown, hothers⟩ := m.group.setLast_lastNumber hindex (start.numberAt o k)
    by_cases ho : o' = o
    · subst ho
      rw [update_self]
      exact .inl hown
    · rw [update_of_ne ho]
      have hnumber : start.number o' ≠ start.number o := fun hsame => ho (hdistinct hsame)
      rcases h.last o' with hlast | ⟨hzero, hlast⟩
      · exact .inl (hothers _ hnumber _ hlast)
      · exact .inr ⟨hzero, hothers _ hnumber _ hlast⟩

/-- The packet of a message stays when more is said. -/
theorem packet_of_front {net' : GroupNet ι} {message : ι × ℕ} {more : List GroupText}
    (hsaid : net'.said message.1 = net.said message.1 ++ more)
    (hmessage : 0 < message.2 ∧ message.2 ≤ (net.said message.1).length) :
    packet start net' message = packet start net message := by
  have hlt : message.2 - 1 < (net.said message.1).length := by omega
  rw [packet, packet, hsaid, getD_append _ _ _ _ hlt]

variable [DecidableEq ι]

/-- A group starts as a net without messages. -/
theorem Starts.simulates (h : start.Starts) :
    Simulates links start start ⟨fun _ => 0, fun _ _ => 0, fun _ _ => []⟩ where
  flooded := .start
  sent o := by
    rw [h.said]
    rfl
  member v := by
    rw [h.said]
    refine ⟨h.status v, rfl, rfl, fun _ => rfl, fun o => ?_⟩
    rcases h.last v o with hnone | hlast
    · exact .inr ⟨rfl, hnone⟩
    · exact .inl hlast
  link u v := h.link u v
  passes o text htext := by
    rw [h.said] at htext
    exact absurd htext not_mem_nil
  told v o i _ := by
    rw [h.told]
    rfl

section

variable (h : Simulates links start net abstract)
include h

/-- A member that says what nobody is sent. -/
theorem Simulates.say_nothing (hsame : (net.member o).group.SameNumbers group)
    (hsay : (net.member o).say text = (⟨group, (net.member o).messageNumber⟩, [])) :
    Simulates links start (net.say links o text) abstract ∧ (net.say links o text).said = net.said := by
  have hmember : (net.say links o text).member =
      update net.member o ⟨group, (net.member o).messageNumber⟩ := by
    rw [GroupNet.say, hsay]
    rfl
  have hsaid : (net.say links o text).said = net.said := by
    rw [GroupNet.say, hsay]
    rfl
  have htold : (net.say links o text).told = net.told := by
    rw [GroupNet.say, hsay]
    rfl
  have hlink (u v : ι) : (net.say links o text).link u v = net.link u v := by
    rw [GroupNet.say, hsay]
    change (if u = o ∧ v ∈ links o then net.link u v ++ [] else net.link u v) = net.link u v
    rw [append_nil, ite_self]
  have hpacket : packet start (net.say links o text) = packet start net := by
    funext message
    rw [packet, packet, hsaid]
  refine ⟨⟨h.flooded, ?_, ?_, ?_, ?_, ?_⟩, hsaid⟩
  · rw [hsaid]
    exact h.sent
  · intro v
    rw [hsaid, hmember]
    by_cases hv : v = o
    · subst hv
      rw [update_self]
      exact (h.member v).same hsame
    · rw [update_of_ne hv]
      exact h.member v
  · intro u v
    rw [hlink, hpacket]
    exact h.link u v
  · rw [hsaid]
    exact h.passes
  · rw [hsaid, htold]
    exact h.told

/-- A member that says what its close connections are sent. -/
theorem Simulates.say_sent (hsame : (net.member o).group.SameNumbers group) (hpasses : text.Passes)
    (hsay : (net.member o).say text = (⟨group, nextMessageNumber (net.member o).messageNumber⟩,
      [.sendMessageAllClose (messagePacket (net.member o).group.peerNumber
        (nextMessageNumber (net.member o).messageNumber) text.messageId text.data)])) :
    Simulates links start (net.say links o text) (abstract.send links o) ∧
      (net.say links o text).said = update net.said o (net.said o ++ [text]) := by
  have hmember : (net.say links o text).member =
      update net.member o ⟨group, nextMessageNumber (net.member o).messageNumber⟩ := by
    rw [GroupNet.say, hsay]
    rfl
  have hsaid : (net.say links o text).said = update net.said o (net.said o ++ [text]) := by
    rw [GroupNet.say, hsay]
    rfl
  have htold : (net.say links o text).told = net.told := by
    rw [GroupNet.say, hsay]
    rfl
  have hgrown (o' : ι) : ∃ more, (net.say links o text).said o' = net.said o' ++ more := by
    rw [hsaid, update_apply]
    split
    · rename_i ho
      exact ⟨[text], by rw [ho]⟩
    · exact ⟨[], (append_nil _).symm⟩
  have hnew : packet start (net.say links o text) (o, abstract.sent o + 1) =
    messagePacket (net.member o).group.peerNumber
      (nextMessageNumber (net.member o).messageNumber) text.messageId text.data := by
    rw [packet, hsaid, update_self, h.sent, Nat.add_sub_cancel, getD_append_right _ _ _ _ (le_refl _),
      Nat.sub_self,
      numberAt, Function.iterate_succ_apply', (h.member o).own, (h.member o).messageNumber]
    rfl
  refine ⟨⟨h.flooded.send o, ?_, ?_, ?_, ?_, ?_⟩, hsaid⟩
  · intro o'
    have hsent : (abstract.send links o).sent o' = if o' = o then abstract.sent o + 1 else abstract.sent o' :=
      update_apply ..
    rw [hsent, hsaid, update_apply, h.sent, h.sent]
    split
    · rw [length_append, length_singleton]
    · rfl
  · intro v
    have hlast : (abstract.send links o).last v = abstract.last v := rfl
    rw [hlast, hmember, hsaid]
    by_cases hv : v = o
    · subst hv
      rw [update_self, update_self, length_append]
      exact (h.member v).next.same hsame
    · rw [update_of_ne hv, update_of_ne hv]
      exact h.member v
  · intro u v
    have hlink : (net.say links o text).link u v = if u = o ∧ v ∈ links o then net.link u v ++
        [packet start (net.say links o text) (o, abstract.sent o + 1)] else net.link u v := by
      rw [hnew, GroupNet.say, hsay]
      rfl
    have hqueue : (abstract.send links o).queue u v = if u = o ∧ v ∈ links o then abstract.queue u v ++
        [(o, abstract.sent o + 1)] else abstract.queue u v := rfl
    have hold : net.link u v = (abstract.queue u v).map (packet start (net.say links o text)) := by
      rw [h.link]
      apply map_congr_left
      intro message hmessage
      obtain ⟨more, hmore⟩ := hgrown message.1
      have hmade := h.flooded.made.queue u v message hmessage
      rw [h.sent] at hmade
      exact (packet_of_front hmore hmade).symm
    rw [hlink, hqueue, hold]
    split
    · rw [map_append]
      rfl
    · rfl
  · intro o' text' htext
    rw [hsaid, update_apply] at htext
    split at htext
    · rcases mem_append.mp htext with hold | hlast
      · exact h.passes o text' hold
      · rw [mem_singleton.mp hlast]
        exact hpasses
    · exact h.passes o' text' htext
  · intro v o' i hi
    obtain ⟨more, hmore⟩ := hgrown o'
    have hlast : (abstract.send links o).last v = abstract.last v := rfl
    have hle : abstract.last v o' ≤ (net.said o').length := (h.flooded.made.last v o').trans_eq (h.sent o')
    rw [htold, hlast, hmore, take_append_of_le_length hle]
    exact h.told v o' i hi

/-- A packet that is taken off a link. -/
theorem Simulates.link_pop {head : Bytes} (hlink : net.link u v = head :: rest) (x y : ι) :
    update net.link u (update (net.link u) v rest) x y =
      ((abstract.pop u v).queue x y).map (packet start net) := by
  have htail : rest = (abstract.queue u v).tail.map (packet start net) := by
    rw [map_tail, ← h.link, hlink, tail_cons]
  rw [Net.queue_pop]
  by_cases hx : x = u
  · subst hx
    rw [update_self]
    by_cases hy : y = v
    · rw [hy, update_self, if_pos ⟨rfl, rfl⟩, htail]
    · rw [update_of_ne hy, if_neg fun hboth => hy hboth.2]
      exact h.link x y
  · rw [update_of_ne hx, if_neg fun hboth => hx hboth.1]
    exact h.link x y

/-- The oldest packet from a member to another. -/
theorem Simulates.head {head : Bytes} (hlink : net.link u v = head :: rest) :
    ∃ o k more, abstract.queue u v = (o, k) :: more ∧ 0 < k ∧ k ≤ (net.said o).length ∧
      ∃ text, (net.said o)[k - 1]? = some text ∧ text.Passes ∧
        head = messagePacket (start.number o) (start.numberAt o k) text.messageId text.data := by
  have hmap := h.link u v
  rw [hlink] at hmap
  cases hqueue : abstract.queue u v with
  | nil =>
    rw [hqueue] at hmap
    contradiction
  | cons message more =>
    obtain ⟨o, k⟩ := message
    rw [hqueue, map_cons, List.cons.injEq] at hmap
    have hmem : (o, k) ∈ abstract.queue u v := by
      rw [hqueue]
      exact mem_cons_self
    obtain ⟨hpositive, hle⟩ := h.flooded.made.queue u v (o, k) hmem
    rw [h.sent] at hle
    dsimp only at hpositive hle
    have hlt : k - 1 < (net.said o).length := by omega
    refine ⟨o, k, more, rfl, hpositive, hle, (net.said o)[k - 1], getElem?_eq_getElem hlt,
      h.passes o _ (getElem_mem hlt), ?_⟩
    rw [hmap.1, packet, getD_eq_getElem _ _ hlt]

/-- A member that handles a packet that it has already. -/
theorem Simulates.deliver_old {head : Bytes} (hlink : net.link u v = head :: rest) {now : UInt64} {alloc : ℕ → Bool}
    {closeIndex : ℕ}
    (hhandled : (net.member v).group.handleMessagePacketGroup ⟨now, alloc, head, closeIndex⟩ =
      ((net.member v).group, [])) (hold : abstract.deliver links u v = abstract.pop u v) :
    Simulates links start (net.deliver links u v now alloc closeIndex) (abstract.deliver links u v) ∧
      (net.deliver links u v now alloc closeIndex).said = net.said := by
  have hdeliver : net.deliver links u v now alloc closeIndex =
      { net with link := update net.link u (update (net.link u) v rest) } := by
    rw [GroupNet.deliver, hlink]
    dsimp only
    rw [hhandled]
    dsimp only
    rw [send, update_eq_self, append_nil, update_eq_self]
    congr 1
    funext x y
    rw [filterMap_nil, append_nil, ite_self]
  have hflooded := h.flooded.deliver u v
  rw [hold] at hflooded ⊢
  rw [hdeliver]
  exact ⟨⟨hflooded, h.sent, h.member, h.link_pop hlink, h.passes, h.told⟩, rfl⟩

end

/-- Two members are two peers of every group. -/
theorem getPeerIndex_inj {g : GroupC} {a b : UInt16} {i : ℕ} (ha : g.getPeerIndex a = some i)
    (hb : g.getPeerIndex b = some i) :
    a = b := by
  obtain ⟨_, hfirst, -⟩ := findIdx?_eq_some_iff_getElem.mp ha
  obtain ⟨_, hsecond, -⟩ := findIdx?_eq_some_iff_getElem.mp hb
  exact (of_decide_eq_true hfirst).symm.trans (of_decide_eq_true hsecond)

/-- A member that handles a packet that is new to it. -/
theorem Simulates.deliver_new (h : Simulates links start net abstract) (hdistinct : Injective start.number)
    (htext : (net.said o)[abstract.last v o]? = some text)
    (hlink : net.link u v =
      messagePacket (start.number o) (start.numberAt o (abstract.last v o + 1)) text.messageId text.data :: rest)
    {now : UInt64} {alloc : ℕ → Bool} {closeIndex index : ℕ} {calls : List GroupCall}
    (hindex : (net.member v).group.getPeerIndex (start.number o) = some index)
    (hhandled : (net.member v).group.handleMessagePacketGroup
      (textPacket (start.number o) (start.numberAt o (abstract.last v o + 1)) text now alloc closeIndex) =
      (group, calls))
    (hsame : ((net.member v).group.setLast index (start.numberAt o (abstract.last v o + 1))).SameNumbers group)
    (hchats : ∀ i, calls.filterMap (GroupCall.chat i) = if index = i then [text].filter GroupText.isChat else [])
    (hclose : calls.filterMap GroupCall.toAllClose =
      [messagePacket (start.number o) (start.numberAt o (abstract.last v o + 1)) text.messageId text.data])
    (hnew : abstract.deliver links u v =
      ((abstract.pop u v).advance v o (abstract.last v o + 1)).push links v (o, abstract.last v o + 1)) :
    Simulates links start (net.deliver links u v now alloc closeIndex) (abstract.deliver links u v) ∧
      (net.deliver links u v now alloc closeIndex).said = net.said := by
  have hdeliver : net.deliver links u v now alloc closeIndex =
      { net with
        member := update net.member v { net.member v with group := group }
        link := update net.link u (update (net.link u) v rest)
        told := update net.told v (net.told v ++ calls) }.send links v calls := by
    rw [GroupNet.deliver, hlink]
    dsimp only
    rw [show (⟨now, alloc,
      messagePacket (start.number o) (start.numberAt o (abstract.last v o + 1)) text.messageId text.data,
      closeIndex⟩ :
        GroupPacket) = textPacket (start.number o) (start.numberAt o (abstract.last v o + 1)) text now alloc closeIndex
      from rfl, hhandled]
  have hflooded := h.flooded.deliver u v
  rw [hnew] at hflooded ⊢
  rw [hdeliver]
  have hpacket : packet start net (o, abstract.last v o + 1) =
      messagePacket (start.number o) (start.numberAt o (abstract.last v o + 1)) text.messageId text.data := by
    rw [packet, Nat.add_sub_cancel, getD_eq_getElem?_getD, htext, getD_some]
  refine ⟨⟨hflooded, h.sent, ?_, ?_, h.passes, ?_⟩, rfl⟩
  · intro y
    change MemberAt start y _ (update abstract.last v (update (abstract.last v) o (abstract.last v o + 1)) y)
      (update net.member v { net.member v with group := group } y)
    by_cases hy : y = v
    · subst hy
      rw [update_self, update_self]
      exact ((h.member y).setLast hdistinct hindex (abstract.last y o + 1)).same hsame
    · rw [update_of_ne hy, update_of_ne hy]
      exact h.member y
  · intro x y
    have hpopped := h.link_pop hlink x y
    change (if x = v ∧ y ∈ links v then
        update net.link u (update (net.link u) v rest) x y ++ calls.filterMap GroupCall.toAllClose
        else update net.link u (update (net.link u) v rest) x y) =
      List.map (packet start net) (if x = v ∧
        y ∈ links v then (abstract.pop u v).queue x y ++ [(o, abstract.last v o + 1)]
        else (abstract.pop u v).queue x y)
    rw [hpopped, hclose]
    split
    · rw [map_append, map_singleton, hpacket]
    · rfl
  · intro y o' i hi
    change List.filterMap (GroupCall.chat i) (update net.told v (net.told v ++ calls) y) =
      ((net.said o').take
        (update abstract.last v (update (abstract.last v) o (abstract.last v o + 1)) y o')).filter
        GroupText.isChat
    by_cases hy : y = v
    · subst hy
      rw [update_self, update_self, filterMap_append, hchats, h.told y o' i hi]
      have hi' := ((h.member y).index o').trans hi
      by_cases ho : o' = o
      · subst ho
        rw [update_self, if_pos (some.inj (hindex.symm.trans hi')), take_add_one, htext,
          filter_append]
        rfl
      · rw [update_of_ne ho, if_neg, append_nil]
        rintro rfl
        exact ho (hdistinct (getPeerIndex_inj hi' hindex))
    · rw [update_of_ne hy, update_of_ne hy]
      exact h.told y o' i hi

/-- A member that handles the oldest packet from another. -/
theorem Simulates.deliver (h : Simulates links start net abstract) (hdistinct : Injective start.number)
    (hbound : ∀ o, (net.said o).length ≤ 2 ^ 32 - 66) (u v : ι) (now : UInt64) (alloc : ℕ → Bool) (closeIndex : ℕ) :
    Simulates links start (net.deliver links u v now alloc closeIndex) (abstract.deliver links u v) ∧
      (net.deliver links u v now alloc closeIndex).said = net.said := by
  cases hlink : net.link u v with
  | nil =>
    have hqueue : abstract.queue u v = [] := map_eq_nil_iff.mp ((h.link u v).symm.trans hlink)
    rw [GroupNet.deliver, hlink, Net.deliver, hqueue]
    exact ⟨h, rfl⟩
  | cons head rest =>
    obtain ⟨o, k, more, hqueue, hpositive, hle, text, htext, hpasses, rfl⟩ := h.head hlink
    by_cases hnew : abstract.last v o < k
    · obtain rfl := h.flooded.next hqueue hnew
      have haccepts : ∃ last, (net.member v).group.lastNumber (start.number o) = some last ∧
          acceptsNumber last (start.numberAt o (abstract.last v o + 1)) = true := by
        rcases (h.member v).last o with hlast | ⟨-, hlast⟩
        · refine ⟨_, hlast, ?_⟩
          rw [numberAt, numberAt, Function.iterate_succ_apply']
          exact acceptsNumber_next _
        · exact ⟨0, hlast, if_pos rfl⟩
      obtain ⟨last, hlast, haccepts⟩ := haccepts
      obtain ⟨index, hindex, -⟩ := bind_eq_some_iff.mp hlast
      obtain ⟨group, calls, hhandled, hsame, hchats, hclose⟩ := GroupC.handle_text_accepted (start.number o)
        (start.numberAt o (abstract.last v o + 1)) text now alloc closeIndex hlast hpasses haccepts hindex
      apply h.deliver_new hdistinct htext hlink hindex hhandled hsame hchats hclose
      rw [Net.deliver, hqueue]
      exact if_pos hnew
    · have hold : k ≤ abstract.last v o := Nat.le_of_not_lt hnew
      have hrejects : (net.member v).group.handleMessagePacketGroup
          (textPacket (start.number o) (start.numberAt o k) text now alloc closeIndex) =
          ((net.member v).group, []) := by
        rcases (h.member v).last o with hlast | ⟨hzero, -⟩
        · have hlength : abstract.last v o ≤ 2 ^ 32 - 66 :=
            ((h.flooded.made.last v o).trans_eq (h.sent o)).trans (hbound o)
          exact GroupC.handle_text_rejected _ _ _ _ _ _ hlast (acceptsNumber_old hpositive hold hlength)
        · omega
      apply h.deliver_old hlink hrejects
      rw [Net.deliver, hqueue]
      exact if_neg hnew

/-- A step does not make what was said less. -/
theorem said_length_le_step (links : ι → Finset ι) (net : GroupNet ι) (o : ι) (s : GroupStep ι) :
    (net.said o).length ≤ ((net.step links s).said o).length := by
  cases s with
  | say u text =>
    have hsaid : (net.step links (.say u text)).said = if ((net.member u).say text).2 = [] then net.said
      else update net.said u (net.said u ++ [text]) := rfl
    rw [hsaid]
    split
    · exact le_refl _
    · rw [update_apply]
      split
      · rename_i ho
        rw [ho, length_append]
        exact Nat.le_add_right _ _
      · exact le_refl _
  | deliver u v now alloc closeIndex =>
    rw [step, GroupNet.deliver]
    split <;> exact le_refl _

/-- What was said stays said. -/
theorem said_length_le_run (links : ι → Finset ι) (net : GroupNet ι) (o : ι) (steps : List (GroupStep ι)) :
    (net.said o).length ≤ ((net.run links steps).said o).length := by
  induction steps generalizing net with
  | nil => exact le_refl _
  | cons s steps ih => exact (said_length_le_step links net o s).trans (ih _)

/-- Nobody says an empty message or an empty action. -/
def Speaking (steps : List (GroupStep ι)) : Prop :=
  ∀ o text, GroupStep.say o text ∈ steps → text.isChat = true → text.data ≠ []

variable [Fintype ι]

/-- The packets that a message of a member is at most in, on all links. -/
def copies (links : ι → Finset ι) (o : ι) : ℕ := (links o).card + ∑ v, (links v).card

/-- A group floods over a run, and the work of the net goes down with every packet that is handled. -/
theorem Simulates.run (h : Simulates links start net abstract) (hdistinct : Injective start.number)
    (steps : List (GroupStep ι)) (hspeaking : Speaking steps)
    (hbound : ∀ o, ((net.run links steps).said o).length ≤ 2 ^ 32 - 66) :
    ∃ abstract', Simulates links start (net.run links steps) abstract' ∧
      net.deliveries links steps + Net.work links abstract' + ∑ o, (net.said o).length * copies links o =
        Net.work links abstract + ∑ o, ((net.run links steps).said o).length * copies links o := by
  induction steps generalizing net abstract with
  | nil => exact ⟨abstract, h, by rw [deliveries, Nat.zero_add]; rfl⟩
  | cons s steps ih =>
    have hrest : Speaking steps := fun o text hmem => hspeaking o text (mem_cons_of_mem s hmem)
    cases s with
    | say o text =>
      have hwords := hspeaking o text mem_cons_self
      rcases (net.member o).say_cases (h.member o).status hwords with
        ⟨group, hsame, hsay⟩ | ⟨group, hsame, hpasses, hsay⟩
      · obtain ⟨hnext, hsaid⟩ := h.say_nothing hsame hsay
        obtain ⟨abstract', hrun, hwork⟩ := ih hnext hrest hbound
        rw [hsaid] at hwork
        exact ⟨abstract', hrun, hwork⟩
      · obtain ⟨hnext, hsaid⟩ := h.say_sent hsame hpasses hsay
        obtain ⟨abstract', hrun, hwork⟩ := ih hnext hrest hbound
        refine ⟨abstract', hrun, ?_⟩
        have hmore (o' : ι) : ((net.say links o text).said o').length * copies links o' =
            (net.said o').length * copies links o' + if o' = o then copies links o' else 0 := by
          rw [hsaid, update_apply]
          split
          · rename_i ho
            rw [ho, length_append, length_singleton, Nat.succ_mul]
          · rfl
        rw [h.flooded.work_send] at hwork
        simp only [hmore, Finset.sum_add_distrib, Finset.sum_ite_eq', Finset.mem_univ, if_true] at hwork
        change net.deliveries links (.say o text :: steps) + _ + _ = _
        rw [deliveries]
        have hrunSaid : net.run links (.say o text :: steps) = (net.say links o text).run links steps := rfl
        rw [hrunSaid]
        unfold copies at hwork ⊢
        omega
    | deliver u v now alloc closeIndex =>
      have hnow (o : ι) : (net.said o).length ≤ 2 ^ 32 - 66 := (said_length_le_run links net o _).trans (hbound o)
      obtain ⟨hnext, hsaid⟩ := h.deliver hdistinct hnow u v now alloc closeIndex
      obtain ⟨abstract', hrun, hwork⟩ := ih hnext hrest hbound
      refine ⟨abstract', hrun, ?_⟩
      rw [hsaid] at hwork
      have hrunSaid : net.run links (.deliver u v now alloc closeIndex :: steps) =
          (net.deliver links u v now alloc closeIndex).run links steps := rfl
      rw [hrunSaid, deliveries]
      by_cases hempty : net.link u v = []
      · have hqueue : abstract.queue u v = [] := map_eq_nil_iff.mp ((h.link u v).symm.trans hempty)
        have hsame : abstract.deliver links u v = abstract := by rw [Net.deliver, hqueue]
        rw [hsame] at hwork
        rw [if_pos hempty]
        omega
      · have hqueue : abstract.queue u v ≠ [] := fun hnil => hempty ((h.link u v).trans (map_eq_nil_iff.mpr hnil))
        have hless := h.flooded.work_deliver hqueue
        rw [if_neg hempty]
        omega

/-- The messages and actions of a member come to every other in the order in which they were said, none is left out
and none comes twice. Once nothing is on its way, whoever the member is connected to by way of others has all of
them. -/
theorem group_texts_in_order (links : ι → Finset ι) (net : GroupNet ι) (hstarts : net.Starts)
    (steps : List (GroupStep ι))
    (hspeaking : Speaking steps) (hbound : ∀ o, ((net.run links steps).said o).length ≤ 2 ^ 32 - 66) (v o : ι)
    (index : ℕ) (hindex : (net.member v).group.getPeerIndex (net.number o) = some index) :
    ((net.run links steps).told v).filterMap (GroupCall.chat index) <+:
        ((net.run links steps).said o).filter GroupText.isChat ∧
      ((∀ x, ∀ y ∈ links x, (net.run links steps).link x y = []) → Relation.TransGen (fun x y => y ∈ links x) o v →
        ((net.run links steps).told v).filterMap (GroupCall.chat index) =
          ((net.run links steps).said o).filter GroupText.isChat) := by
  have hstart : Simulates links net net ⟨fun _ => 0, fun _ _ => 0, fun _ _ => []⟩ := hstarts.simulates
  obtain ⟨abstract, hsimulates, -⟩ := hstart.run hstarts.distinct steps hspeaking hbound
  have htold := hsimulates.told v o index hindex
  constructor
  · rw [htold]
    exact (List.take_prefix _ _).filter _
  · intro hempty hreached
    have hqueues : ∀ x, ∀ y ∈ links x, abstract.queue x y = [] := by
      intro x y hy
      exact map_eq_nil_iff.mp ((hsimulates.link x y).symm.trans (hempty x y hy))
    rw [htold, hsimulates.flooded.complete hqueues hreached, hsimulates.sent, take_length]

/-- A message is sent on once by every member that it comes to, and once more by the one that said it: there are at
most so many packets to handle, however long the group runs. -/
theorem group_deliveries_le (links : ι → Finset ι) (net : GroupNet ι) (hstarts : net.Starts)
    (steps : List (GroupStep ι))
    (hspeaking : Speaking steps) (hbound : ∀ o, ((net.run links steps).said o).length ≤ 2 ^ 32 - 66) :
    net.deliveries links steps ≤ ∑ o,
      ((net.run links steps).said o).length * ((links o).card + ∑ v, (links v).card) := by
  have hsimulates : Simulates links net net ⟨fun _ => 0, fun _ _ => 0, fun _ _ => []⟩ := hstarts.simulates
  obtain ⟨abstract, -, hwork⟩ := hsimulates.run hstarts.distinct steps hspeaking hbound
  have hstart : Net.work links (⟨fun _ => 0, fun _ _ => 0, fun _ _ => []⟩ : Net ι) = 0 := by
    simp [Net.work]
  rw [hstart, Nat.zero_add] at hwork
  exact (Nat.le_add_right _ _).trans ((Nat.le_add_right _ _).trans hwork.le)

end Simulation

/-- A new group of three, where the members know each other by their numbers 0, 1 and 2. -/
def ofThree : GroupNet (Fin 3) where
  member v :=
    ⟨⟨.connected, List.Vector.replicate groupIdentifierLength 0,
      [⟨List.Vector.replicate 32 0, PublicKey.zero, 0, 0, [], 0⟩,
        ⟨List.Vector.replicate 32 1, PublicKey.zero, 0, 0, [], 1⟩,
        ⟨List.Vector.replicate 32 2, PublicKey.zero, 0, 0, [], 2⟩],
      UInt16.ofNat v, [], by decide, by decide⟩, 0⟩
  link _ _ := []
  said _ := []
  told _ := []

/-- The member in the middle is connected to the other two. -/
def line : Fin 3 → Finset (Fin 3)
  | 0 => {1}
  | 1 => {0, 2}
  | 2 => {1}

/-- The member at one end says something, and all packets are handled. -/
def lineSteps : List (GroupStep (Fin 3)) :=
  [.say 0 (.message [104, 105]), .deliver 0 1 0 (fun _ => true) 0, .deliver 1 2 0 (fun _ => true) 0,
    .deliver 1 0 0 (fun _ => true) 0, .deliver 0 1 0 (fun _ => true) 0, .deliver 2 1 0 (fun _ => true) 0]

/-- The group of three starts. -/
theorem ofThree_starts : ofThree.Starts where
  status _ := rfl
  distinct := by decide
  last := by decide
  link _ _ := rfl
  said _ := rfl
  told _ := rfl

/-- No text is empty. -/
theorem lineSteps_speaking : Speaking lineSteps := by
  intro o text hmem _
  simp only [lineSteps, mem_cons, GroupStep.say.injEq, reduceCtorEq, not_mem_nil, or_false] at hmem
  rw [hmem.2]
  exact cons_ne_nil _ _

/-- The member at the other end hears it. -/
theorem group_texts_in_order_line :
    ((ofThree.run line lineSteps).told 2).filterMap (GroupCall.chat 0) = [.message [104, 105]] := by
  have hall := (group_texts_in_order line ofThree ofThree_starts lineSteps lineSteps_speaking (by decide +kernel) 2 0 0
    (by decide +kernel)).2 (by decide +kernel)
    (Relation.TransGen.tail (Relation.TransGen.single (show (1 : Fin 3) ∈ line 0 by decide)) (show (2 : Fin 3) ∈
      line 1 by decide))
  exact hall.trans (by decide +kernel)

/-- The five packets are as many as there can be. -/
theorem group_deliveries_le_line : ofThree.deliveries line lineSteps = 5 ∧ ofThree.deliveries line lineSteps ≤ 5 := by
  have hle := group_deliveries_le line ofThree ofThree_starts lineSteps lineSteps_speaking (by decide +kernel)
  exact ⟨by decide +kernel, hle.trans (by decide +kernel)⟩

end GroupNet

end Toxcore
