import Toxcore.Groups.Messages

/-!
# The peer list of a group chat

A peer that asks for the list is sent the peers in as many packets as it takes, one record for each: its number, its
two keys and its name. A packet is sent when the next record would not fit. The receiver adds the peers record by
record.
-/

namespace Toxcore

open ByteStrings List

/-- `PEER_KILL_ID`. -/
def peerKillId : UInt8 := 1

/-- `PEER_QUERY_ID`. -/
def peerQueryId : UInt8 := 8

/-- `PEER_RESPONSE_ID`. -/
def peerResponseId : UInt8 := 9

/-- `PEER_TITLE_ID`. -/
def peerTitleId : UInt8 := 10

/-- The size of `packet` in `send_peers`. -/
abbrev peersPacketSize : ℕ := maxCryptoDataSize - (1 + 2)

/-- The length of a record without the name. -/
abbrev peerRecordLength : ℕ := 2 + 32 * 2 + 1

/-! ## Sending -/

/-- The record of a peer. -/
def GroupPeer.record (peer : GroupPeer) : Bytes :=
  beBytes 2 peer.peerNumber.toNat ++ (peer.realPk.toList ++ (peer.tempPk.toList ++
    UInt8.ofNat peer.nick.length :: peer.nick))

/-- The packet that is filled by `send_peers`, up to `p`, how many peers were sent, and the packets that were. -/
structure PeerPackets where
  packet : Bytes
  sent : UInt16
  packets : List Bytes

/-- The loop of `send_peers`, from a peer on; an error is a return from it. `send` is the outcome of
`send_packet_group_peer`. -/
def sendPeersLoop (send : Bytes → Bool) : ℕ → List GroupPeer → PeerPackets → Except PeerPackets PeerPackets
  | _, [], s => .ok s
  | i, peer :: peers, s =>
    if s.packet.length + peerRecordLength + peer.nick.length > peersPacketSize then
      if send s.packet then
        sendPeersLoop send (i + 1) peers ⟨peerResponseId :: peer.record, UInt16.ofNat i, s.packets ++ [s.packet]⟩
      else .error s
    else sendPeersLoop send (i + 1) peers { s with packet := s.packet ++ peer.record }

/-- `send_peers` for a group that exists: how many peers were sent, and the packets that were. -/
def GroupC.sendPeers (send : Bytes → Bool) (g : GroupC) : UInt16 × List Bytes :=
  match sendPeersLoop send 0 g.group ⟨[peerResponseId], 0, []⟩ with
  | .error s => (s.sent, s.packets)
  | .ok s =>
    let (sent, packets) :=
      if s.sent.toNat ≠ g.group.length ∧ send s.packet then (UInt16.ofNat g.group.length, s.packets ++ [s.packet])
      else (s.sent, s.packets)
    (sent, if g.title.length ≠ 0 ∧ send (peerTitleId :: g.title) then packets ++ [peerTitleId :: g.title] else packets)

/-! ## Receiving -/

/-- What `handle_send_peers` does with a peer that was added, where it is ourselves. -/
def GroupC.joinAs (selfPk : PublicKey) (g : GroupC) (realPk : PublicKey)
    (peerNumber : UInt16) : GroupC × List GroupCall :=
  if g.status = .valid ∧
    realPk = selfPk then ({ g with peerNumber := peerNumber, status := .connected }, [.groupNameSend])
  else (g, [])

/-- The loop of `handle_send_peers`: `true` for 0, the group, and the calls. -/
def GroupC.handlePeerRecords (selfPk : PublicKey) (now : UInt64) (alloc : ℕ → Bool) (g : GroupC) (data : Bytes) :
    Bool × GroupC × List GroupCall :=
  if data.length < peerRecordLength then (true, g, [])
  else
    match g.addpeer now alloc (slice 32 data 2) (slice 32 data (2 + 32)) (networkUInt16 data) with
    | (none, g, added) => (false, g, added)
    | (some peerIndex, g, added) =>
      let (g, joined) := g.joinAs selfPk (slice 32 data 2) (networkUInt16 data)
      let nameLength := (data.getD 66 0).toNat
      let rest := data.drop peerRecordLength
      if nameLength > rest.length ∨ nameLength > maxNameLength then (false, g, added ++ joined)
      else
        let (g, named) := (g.setnick peerIndex (rest.take nameLength)).getD (g, [])
        let (returned, g, calls) := handlePeerRecords selfPk now alloc g (rest.drop nameLength)
        (returned, g, added ++ joined ++ named ++ calls)
termination_by data.length
decreasing_by
  have hrecord : peerRecordLength = 67 := rfl
  simp only [length_drop]
  omega

/-- `handle_send_peers` for a group that exists. -/
def GroupC.handleSendPeers (selfPk : PublicKey) (now : UInt64) (alloc : ℕ → Bool) (g : GroupC) (data : Bytes) :
    Bool × GroupC × List GroupCall :=
  if data.length = 0 then (false, g, []) else g.handlePeerRecords selfPk now alloc data

/-- `handle_direct_packet` for a group that exists. The length of a title is passed as a `uint8_t`. -/
def GroupC.handleDirectPacket (selfPk : PublicKey) (g : GroupC) (packet : GroupPacket) : GroupC × List GroupCall :=
  match packet.data with
  | [] => (g, [])
  | id :: data =>
    if id = peerKillId then (g, [.killClose packet.closeIndex])
    else if id = peerQueryId then (g, [.sendPeers packet.closeIndex])
    else if id = peerResponseId then (g.handleSendPeers selfPk packet.now packet.alloc data).2
    else if id = peerTitleId then (g.settitle (-1) (data.take (data.length % 256))).getD (g, [])
    else (g, [])

/-- The group after some packets for `handle_direct_packet`. -/
def GroupC.receiveDirect (selfPk : PublicKey) (g : GroupC) (packets : List GroupPacket) : GroupC :=
  packets.foldl (fun g packet => (g.handleDirectPacket selfPk packet).1) g

/-- Every call of `handle_send_peers` for some packets returns 0. -/
def GroupC.ReceivesPeers (selfPk : PublicKey) : GroupC → List GroupPacket → Prop
  | _, [] => True
  | g, packet :: packets =>
    (∀ data, packet.data = peerResponseId :: data → (g.handleSendPeers selfPk packet.now packet.alloc data).1 = true) ∧
      ReceivesPeers selfPk (g.handleDirectPacket selfPk packet).1 packets

variable (selfPk : PublicKey) (g : GroupC)

theorem GroupC.receiveDirect_append (front packets : List GroupPacket) :
    g.receiveDirect selfPk (front ++ packets) = (g.receiveDirect selfPk front).receiveDirect selfPk packets :=
  foldl_append ..

/-- Two parts of a run in which all calls return 0. -/
theorem GroupC.ReceivesPeers.append {selfPk : PublicKey} {g : GroupC} {front packets : List GroupPacket}
    (hfront : g.ReceivesPeers selfPk front) (hpackets : (g.receiveDirect selfPk front).ReceivesPeers selfPk packets) :
    g.ReceivesPeers selfPk (front ++ packets) := by
  induction front generalizing g with
  | nil => exact hpackets
  | cons packet front ih => exact ⟨hfront.1, ih hfront.2 hpackets⟩

/-! ## What is sent -/

/-- The packet with the records of some peers. -/
def peersPacket (peers : List GroupPeer) : Bytes := peerResponseId :: peers.flatMap GroupPeer.record

theorem GroupPeer.record_length (peer : GroupPeer) : peer.record.length = peerRecordLength + peer.nick.length := by
  rw [record, length_append, length_append, length_append, beBytes_length, List.Vector.toList_length,
    List.Vector.toList_length, length_cons]
  have hrecord : peerRecordLength = 67 := rfl
  omega

/-- The packet after one more record. -/
theorem peersPacket_append (peers : List GroupPeer) (peer : GroupPeer) :
    peersPacket peers ++ peer.record = peersPacket (peers ++ [peer]) := by
  rw [peersPacket, peersPacket, flatMap_append, flatMap_singleton, cons_append]

variable {peer : GroupPeer}

/-- A packet that has no room for a peer has peers in it. -/
theorem peersPacket_full {peers : List GroupPeer} (hnick : peer.nick.length ≤ maxNameLength)
    (h : (peersPacket peers).length + peerRecordLength + peer.nick.length > peersPacketSize) : peers ≠ [] := by
  rintro rfl
  have hlength : (peersPacket []).length = 1 := rfl
  have hrecord : peerRecordLength = 67 := rfl
  have hsize : peersPacketSize = 1370 := rfl
  have hmax : maxNameLength = 128 := rfl
  omega

/-- The loop of `send_peers` splits the peers into packets, none of them empty; only the last one is left to send, and
with it at least one peer if there are any. -/
theorem sendPeersLoop_split (peers : List GroupPeer) (hnicks : ∀ peer ∈ peers, peer.nick.length ≤ maxNameLength) (i : ℕ)
    (current : List GroupPeer) (s : PeerPackets) (hpacket : s.packet = peersPacket current)
    (hsent : s.sent.toNat + current.length ≤ i) :
    ∃ (s' : PeerPackets) (chunks : List (List GroupPeer)) (last : List GroupPeer),
      sendPeersLoop (fun _ => true) i peers s = .ok s' ∧ current ++ peers = chunks.flatten ++ last ∧
      (∀ chunk ∈ chunks, chunk ≠ []) ∧ s'.packets = s.packets ++ chunks.map peersPacket ∧ s'.packet = peersPacket last ∧
      s'.sent.toNat + last.length ≤ i + peers.length ∧ (last = [] → current ++ peers = []) := by
  induction peers generalizing i current s with
  | nil => exact ⟨s, [], current, rfl, by simp, by simp, by simp, hpacket, hsent, by simp⟩
  | cons peer peers ih =>
    obtain ⟨hnick, hnicks⟩ := forall_mem_cons.mp hnicks
    rw [sendPeersLoop]
    split
    · rename_i hfull
      rw [hpacket] at hfull
      have hcurrent := peersPacket_full hnick hfull
      rw [if_pos rfl]
      obtain ⟨s', chunks, last, hloop, hsplit, hchunks, hpackets, hlast, hcount, hempty⟩ :=
        ih hnicks (i + 1) [peer] ⟨peerResponseId :: peer.record, UInt16.ofNat i, s.packets ++ [s.packet]⟩
          (by rw [peersPacket, flatMap_singleton])
          (by
            have hle : (UInt16.ofNat i).toNat ≤ i := by
              rw [UInt16.toNat_ofNat']
              exact Nat.mod_le ..
            exact Nat.add_le_add_right hle 1)
      refine ⟨s', current :: chunks, last, hloop, ?_, forall_mem_cons.mpr ⟨hcurrent, hchunks⟩, ?_, hlast, ?_, ?_⟩
      · rw [flatten_cons, append_assoc, ← hsplit]
        rfl
      · rw [hpackets, hpacket, map_cons, append_assoc]
        rfl
      · rw [length_cons]
        omega
      · intro hnone
        exact absurd (hempty hnone) (by simp)
    · obtain ⟨s', chunks, last, hloop, hsplit, hchunks, hpackets, hlast, hcount, hempty⟩ :=
        ih hnicks (i + 1) (current ++ [peer]) { s with packet := s.packet ++ peer.record }
          (by rw [hpacket, peersPacket_append])
          (by
            rw [length_append, length_singleton]
            exact Nat.add_le_add_right hsent 1)
      refine ⟨s', chunks, last, hloop, ?_, hchunks, hpackets, hlast, ?_, ?_⟩
      · rw [← hsplit, append_assoc]
        rfl
      · rw [length_cons]
        omega
      · intro hnone
        exact absurd (hempty hnone) (by simp)

/-- Where all sends succeed, all peers are sent, in order, and then the title if there is one. -/
theorem GroupC.sendPeers_split (hnicks : ∀ peer ∈ g.group, peer.nick.length ≤ maxNameLength) :
    ∃ chunks : List (List GroupPeer), chunks.flatten = g.group ∧ (∀ chunk ∈ chunks, chunk ≠ []) ∧
      (g.sendPeers fun _ => true).2 =
        chunks.map peersPacket ++ if g.title = [] then [] else [peerTitleId :: g.title] := by
  obtain ⟨s, chunks, last, hloop, hsplit, hchunks, hpackets, hlast, hcount, hempty⟩ :=
    sendPeersLoop_split g.group hnicks 0 [] ⟨[peerResponseId], 0, []⟩ rfl (Nat.le_refl 0)
  rw [nil_append] at hsplit hempty hpackets
  have htitle : (packets : List Bytes) →
    (if g.title.length ≠ 0 ∧ true = true then packets ++ [peerTitleId :: g.title] else
      packets) = packets ++ if g.title = [] then [] else [peerTitleId :: g.title] := by
    intro packets
    by_cases h : g.title = []
    · simp [h]
    · simp [h]
  rw [sendPeers, hloop]
  dsimp only
  rw [htitle, hpackets]
  by_cases hnone : last = []
  · have hgroup := hempty hnone
    have hsent : s.sent.toNat = g.group.length := by
      rw [hgroup, length_nil]
      rw [hgroup, length_nil] at hcount
      omega
    rw [if_neg (by simp [hsent])]
    refine ⟨chunks, ?_, hchunks, rfl⟩
    rw [hsplit, hnone, append_nil]
  · have hsent : s.sent.toNat ≠ g.group.length := by
      have hpos := length_pos_iff.mpr hnone
      omega
    rw [if_pos ⟨hsent, rfl⟩]
    refine ⟨chunks ++ [last], ?_, ?_, ?_⟩
    · rw [flatten_append, flatten_singleton, hsplit]
    · intro chunk hchunk
      rcases mem_append.mp hchunk with hfront | hend
      · exact hchunks chunk hfront
      · rw [mem_singleton.mp hend]
        exact hnone
    · rw [map_append, map_singleton, hlast]

/-! ## What is received -/

/-- What a record says of a peer. -/
def GroupPeer.shared (peer : GroupPeer) : UInt16 × PublicKey × PublicKey × Bytes :=
  (peer.peerNumber, peer.realPk, peer.tempPk, peer.nick)

/-- A record is read back. -/
theorem GroupPeer.record_read (peer : GroupPeer) (hnick : peer.nick.length ≤ maxNameLength) (rest : Bytes) :
    networkUInt16 (peer.record ++ rest) = peer.peerNumber ∧ slice 32 (peer.record ++ rest) 2 = peer.realPk ∧
      slice 32 (peer.record ++ rest) (2 + 32) = peer.tempPk ∧
      ((peer.record ++ rest).getD 66 0).toNat = peer.nick.length ∧
      (peer.record ++ rest).drop peerRecordLength = peer.nick ++ rest := by
  have hmax : maxNameLength = 128 := rfl
  have hwritten : peer.record ++ rest = beBytes 2 peer.peerNumber.toNat ++ (peer.realPk.toList ++ (peer.tempPk.toList ++
      UInt8.ofNat peer.nick.length :: (peer.nick ++ rest))) := by
    simp [record]
  have hnumber : (beBytes 2 peer.peerNumber.toNat).length = 2 := beBytes_length ..
  have htail : (peer.record ++ rest).drop 66 = UInt8.ofNat peer.nick.length :: (peer.nick ++ rest) := by
    rw [hwritten, show 66 = 2 + (32 + (32 + 0)) from rfl, ← drop_drop, drop_left' hnumber, drop_skip, drop_skip,
      drop_zero]
  refine ⟨?_, ?_, ?_, ?_, ?_⟩
  · rw [networkUInt16, hwritten, take_left' hnumber, beNat_beBytes_of_lt peer.peerNumber.toNat_lt, UInt16.ofNat_toNat]
  · rw [hwritten]
    exact slice_at _ _ _ hnumber
  · rw [hwritten, ← append_assoc]
    exact slice_at _ _ _ (by simp)
  · have hhead : (peer.record ++ rest).getD 66 0 = UInt8.ofNat peer.nick.length := by
      have hdropped : ((peer.record ++ rest).drop 66)[0]? = (peer.record ++ rest)[66 + 0]? := getElem?_drop
      rw [htail] at hdropped
      rw [getD_eq_getElem?_getD, ← hdropped]
      rfl
    rw [hhead, UInt8.toNat_ofNat', Nat.mod_eq_of_lt (by omega)]
  · rw [show peerRecordLength = 66 + 1 from rfl, ← drop_drop, htail]
    rfl

/-- `addpeer` of a peer with a new key and a new number, where the allocation succeeds. -/
theorem GroupC.addpeer_new {g : GroupC} {realPk : PublicKey} {peerNumber : UInt16} (now : UInt64) (tempPk : PublicKey)
    (hkey : realPk ∉ g.group.map GroupPeer.realPk) (hnumber : peerNumber ∉ g.group.map GroupPeer.peerNumber) :
    ∃ g' calls, g.addpeer now (fun _ => true) realPk tempPk peerNumber = (some g.group.length, g', calls) ∧
      g'.group = g.group ++ [⟨realPk, tempPk, now, 0, [], peerNumber⟩] ∧ g'.status = g.status ∧
      g'.peerNumber = g.peerNumber := by
  have hchat : g.peerInChat realPk = none := by
    apply findIdx?_eq_none_iff.mpr
    intro peer hpeer
    rw [decide_eq_false_iff_not]
    intro hsame
    exact hkey (mem_map.mpr ⟨peer, hpeer, hsame⟩)
  have hfree : g.getPeerIndex peerNumber = none := by
    apply findIdx?_eq_none_iff.mpr
    intro peer hpeer
    rw [decide_eq_false_iff_not]
    intro hsame
    exact hnumber (mem_map.mpr ⟨peer, hpeer, hsame⟩)
  rw [addpeer]
  split
  · rename_i hfound
    rw [hchat] at hfound
    contradiction
  · split
    · rename_i hfound
      rw [hfree] at hfound
      contradiction
    · exact ⟨_, _, rfl, rfl, rfl, rfl⟩

/-- `setnick` of the last peer. -/
theorem GroupC.setnick_last {g : GroupC} {front : List GroupPeer} (hgroup : g.group = front ++ [peer])
    {nick : Bytes} (hnick : nick.length ≤ maxNameLength) :
    ∃ g' calls, (g.setnick front.length nick).getD (g, []) = (g', calls) ∧
      g'.group = front ++ [{ peer with nick := nick }] ∧ g'.status = g.status ∧ g'.peerNumber = g.peerNumber := by
  have hlast : g.group[front.length]? = some peer := by
    rw [hgroup, getElem?_append_right (Nat.le_refl _), Nat.sub_self]
    rfl
  rw [setnick, if_neg (Nat.not_lt.mpr hnick), hlast, Option.map_some]
  split
  · rename_i hsame
    refine ⟨g, [], rfl, ?_, rfl, rfl⟩
    rw [hgroup, ← Option.some.inj hsame]
  · refine ⟨_, _, rfl, ?_, rfl, rfl⟩
    change g.group.modify front.length _ = _
    have hlt : front.length < (front ++ [peer]).length := by simp
    rw [hgroup, modify_eq_take_cons_drop hlt]
    simp

/-- A joining group has received some peers: its peers are these, and it is connected if we are one of them. -/
structure GroupC.Received (selfPk : PublicKey) (g : GroupC) (peers : List GroupPeer) : Prop where
  shared : g.group.map GroupPeer.shared = peers.map GroupPeer.shared
  status : g.status = if selfPk ∈ peers.map GroupPeer.realPk then .connected else .valid
  number : ∀ peer ∈ peers, peer.realPk = selfPk → g.peerNumber = peer.peerNumber

namespace GroupC.Received

variable {selfPk : PublicKey} {g : GroupC} {peers : List GroupPeer}

section

variable (h : g.Received selfPk peers)
include h

theorem keys : g.group.map GroupPeer.realPk = peers.map GroupPeer.realPk := by
  have hkeys := congrArg (List.map fun shared => shared.2.1) h.shared
  rw [map_map, map_map] at hkeys
  exact hkeys

theorem numbers : g.group.map GroupPeer.peerNumber = peers.map GroupPeer.peerNumber := by
  have hnumbers := congrArg (List.map fun shared => shared.1) h.shared
  rw [map_map, map_map] at hnumbers
  exact hnumbers

/-- A group that has received a new peer, and joins as it if it is ourselves. -/
theorem joinAs (hkey : peer.realPk ∉ peers.map GroupPeer.realPk) {added : GroupC} (hstatus : added.status = g.status)
    (hnumber : added.peerNumber = g.peerNumber) :
    ∃ g' calls, added.joinAs selfPk peer.realPk peer.peerNumber = (g', calls) ∧ g'.group = added.group ∧
      (g'.status = if selfPk ∈ (peers ++ [peer]).map GroupPeer.realPk then .connected else .valid) ∧
      ∀ other ∈ peers ++ [peer], other.realPk = selfPk → g'.peerNumber = other.peerNumber := by
  rw [GroupC.joinAs, hstatus, h.status, map_append, map_singleton]
  by_cases hself : peer.realPk = selfPk
  · have hnotYet : selfPk ∉ peers.map GroupPeer.realPk := hself ▸ hkey
    rw [if_neg hnotYet, if_pos ⟨rfl, hself⟩]
    refine ⟨_, _, rfl, rfl, ?_, ?_⟩
    · rw [if_pos (mem_append_right _ (mem_singleton.mpr hself.symm))]
    · intro other hother hsame
      rcases mem_append.mp hother with hold | hnew
      · exact absurd (mem_map.mpr ⟨other, hold, hsame⟩) hnotYet
      · rw [mem_singleton.mp hnew]
  · rw [if_neg (fun hboth => hself hboth.2)]
    have hmem : selfPk ∈ peers.map GroupPeer.realPk ++ [peer.realPk] ↔ selfPk ∈ peers.map GroupPeer.realPk := by
      rw [mem_append, mem_singleton]
      exact or_iff_left (Ne.symm hself)
    refine ⟨added, [], rfl, rfl, ?_, ?_⟩
    · rw [hstatus, h.status]
      simp only [hmem]
    · intro other hother hsame
      rcases mem_append.mp hother with hold | hnew
      · rw [hnumber]
        exact h.number other hold hsame
      · rw [mem_singleton.mp hnew] at hsame
        exact absurd hsame hself

/-- The loop of `handle_send_peers` adds the peer of a record. -/
theorem record (hnick : peer.nick.length ≤ maxNameLength) (hkey : peer.realPk ∉ peers.map GroupPeer.realPk)
    (hnumber : peer.peerNumber ∉ peers.map GroupPeer.peerNumber) (now : UInt64) (rest : Bytes) :
    ∃ g' : GroupC, g'.Received selfPk (peers ++ [peer]) ∧
      (g.handlePeerRecords selfPk now (fun _ => true) (peer.record ++ rest)).1 =
        (g'.handlePeerRecords selfPk now (fun _ => true) rest).1 ∧
      (g.handlePeerRecords selfPk now (fun _ => true) (peer.record ++ rest)).2.1 =
        (g'.handlePeerRecords selfPk now (fun _ => true) rest).2.1 := by
  obtain ⟨hreadNumber, hreadKey, hreadTemp, hreadLength, hreadRest⟩ := peer.record_read hnick rest
  obtain ⟨g₁, added, hadded, hgroup₁, hstatus₁, hnumber₁⟩ :=
    addpeer_new now peer.tempPk (h.keys ▸ hkey) (h.numbers ▸ hnumber)
  obtain ⟨g₂, joined, hjoined, hgroup₂, hstatus₂, hnumber₂⟩ := h.joinAs hkey hstatus₁ hnumber₁
  obtain ⟨g₃, named, hnamed, hgroup₃, hstatus₃, hnumber₃⟩ := setnick_last (hgroup₂.trans hgroup₁) hnick
  have hlength : ¬(peer.record ++ rest).length < peerRecordLength := by
    rw [length_append, peer.record_length]
    omega
  have hbounds : ¬(peer.nick.length > (peer.nick ++ rest).length ∨ peer.nick.length > maxNameLength) := by
    rw [length_append]
    omega
  refine ⟨g₃, ⟨?_, ?_, ?_⟩, ?_⟩
  · rw [hgroup₃, map_append, map_append, h.shared]
    rfl
  · rw [hstatus₃, hstatus₂]
  · intro other hother hsame
    rw [hnumber₃]
    exact hnumber₂ other hother hsame
  · rw [handlePeerRecords.eq_def _ _ _ g, if_neg hlength, hreadNumber, hreadKey, hreadTemp, hadded]
    dsimp only
    rw [hjoined]
    dsimp only
    rw [hreadLength, hreadRest, if_neg hbounds, take_left, hnamed, drop_left]
    exact ⟨rfl, rfl⟩

/-- The loop of `handle_send_peers` adds the peers of all records. -/
theorem records (chunk : List GroupPeer) (hnicks : ∀ peer ∈ chunk, peer.nick.length ≤ maxNameLength)
    (hkeys : ((peers ++ chunk).map GroupPeer.realPk).Nodup)
    (hnumbers : ((peers ++ chunk).map GroupPeer.peerNumber).Nodup) (now : UInt64) :
    (g.handlePeerRecords selfPk now (fun _ => true) (chunk.flatMap GroupPeer.record)).1 = true ∧
      (g.handlePeerRecords selfPk now (fun _ =>
        true) (chunk.flatMap GroupPeer.record)).2.1.Received selfPk (peers ++ chunk) := by
  induction chunk generalizing g peers with
  | nil =>
    rw [flatMap_nil, handlePeerRecords, if_pos (by decide), append_nil]
    exact ⟨rfl, h⟩
  | cons peer chunk ih =>
    obtain ⟨hnick, hnicks⟩ := forall_mem_cons.mp hnicks
    have hkey : peer.realPk ∉ peers.map GroupPeer.realPk := by
      intro hmem
      rw [map_append, nodup_append] at hkeys
      exact hkeys.2.2 _ hmem _ (mem_map_of_mem mem_cons_self) rfl
    have hnumber : peer.peerNumber ∉ peers.map GroupPeer.peerNumber := by
      intro hmem
      rw [map_append, nodup_append] at hnumbers
      exact hnumbers.2.2 _ hmem _ (mem_map_of_mem mem_cons_self) rfl
    obtain ⟨g', hreceived, hreturned, hgroup⟩ := h.record hnick hkey hnumber now (chunk.flatMap GroupPeer.record)
    rw [flatMap_cons, hreturned, hgroup]
    rw [append_cons] at hkeys hnumbers ⊢
    exact ih hreceived hnicks hkeys hnumbers

/-- Handling a packet with the records of some peers. -/
theorem packet {chunk : List GroupPeer} (hne : chunk ≠ []) (hnicks : ∀ peer ∈ chunk, peer.nick.length ≤ maxNameLength)
    (hkeys : ((peers ++ chunk).map GroupPeer.realPk).Nodup)
    (hnumbers : ((peers ++ chunk).map GroupPeer.peerNumber).Nodup) {packet : GroupPacket}
    (hdata : packet.data = peersPacket chunk) (halloc : packet.alloc = fun _ => true) :
    (∀ data, packet.data = peerResponseId :: data → (g.handleSendPeers selfPk packet.now packet.alloc data).1 = true) ∧
      (g.handleDirectPacket selfPk packet).1.Received selfPk (peers ++ chunk) := by
  obtain ⟨hreturned, hreceived⟩ := h.records chunk hnicks hkeys hnumbers packet.now
  have hlength : (chunk.flatMap GroupPeer.record).length ≠ 0 := by
    obtain ⟨peer, chunk, rfl⟩ := exists_cons_of_ne_nil hne
    rw [flatMap_cons, length_append, peer.record_length]
    have hrecord : peerRecordLength = 67 := rfl
    omega
  constructor
  · intro data hbody
    obtain rfl : chunk.flatMap GroupPeer.record = data := (List.cons.inj (hdata.symm.trans hbody)).2
    rw [handleSendPeers, if_neg hlength, halloc]
    exact hreturned
  · rw [handleDirectPacket, hdata, peersPacket]
    dsimp only
    rw [if_neg (by decide), if_neg (by decide), if_pos rfl, handleSendPeers, if_neg hlength, halloc]
    exact hreceived

/-- Handling the packets with all peers. -/
theorem packets (chunks : List (List GroupPeer)) (hne : ∀ chunk ∈ chunks, chunk ≠ [])
    (hnicks : ∀ peer ∈ chunks.flatten, peer.nick.length ≤ maxNameLength)
    (hkeys : ((peers ++ chunks.flatten).map GroupPeer.realPk).Nodup)
    (hnumbers : ((peers ++ chunks.flatten).map GroupPeer.peerNumber).Nodup) {packets : List GroupPacket}
    (hdata : packets.map GroupPacket.data = chunks.map peersPacket)
    (halloc : ∀ packet ∈ packets, packet.alloc = fun _ => true) :
    g.ReceivesPeers selfPk packets ∧ (g.receiveDirect selfPk packets).Received selfPk (peers ++ chunks.flatten) := by
  induction chunks generalizing g peers packets with
  | nil =>
    obtain rfl := map_eq_nil_iff.mp hdata
    rw [flatten_nil, append_nil]
    exact ⟨trivial, h⟩
  | cons chunk chunks ih =>
    obtain ⟨packet, packets, rfl, hhead, htail⟩ := map_eq_cons_iff.mp hdata
    obtain ⟨hchunk, hchunks⟩ := forall_mem_cons.mp hne
    obtain ⟨hfirst, hrest⟩ := forall_mem_cons.mp halloc
    rw [flatten_cons] at hnicks hkeys hnumbers ⊢
    rw [← append_assoc] at hkeys hnumbers ⊢
    have hkeysNow : ((peers ++ chunk).map GroupPeer.realPk).Nodup := by
      rw [map_append] at hkeys
      exact (nodup_append.mp hkeys).1
    have hnumbersNow : ((peers ++ chunk).map GroupPeer.peerNumber).Nodup := by
      rw [map_append] at hnumbers
      exact (nodup_append.mp hnumbers).1
    obtain ⟨hreturned, hreceived⟩ := h.packet hchunk (fun peer hpeer => hnicks peer (mem_append_left _ hpeer)) hkeysNow
      hnumbersNow hhead hfirst
    obtain ⟨hothers, hall⟩ :=
      ih hreceived hchunks (fun peer hpeer => hnicks peer (mem_append_right _ hpeer)) hkeys hnumbers htail hrest
    exact ⟨⟨hreturned, hothers⟩, hall⟩

end

end GroupC.Received

/-- Handling the packet with the title. -/
theorem GroupC.handleDirectPacket_title {title : Bytes} (hne : title ≠ []) (htitle : title.length ≤ maxNameLength)
    {packet : GroupPacket} (hdata : packet.data = peerTitleId :: title) :
    (∀ data, packet.data = peerResponseId :: data → (g.handleSendPeers selfPk packet.now packet.alloc data).1 = true) ∧
      (g.handleDirectPacket selfPk packet).1 = { g with title := title } := by
  have hmax : maxNameLength = 128 := rfl
  have hpos := length_pos_iff.mpr hne
  constructor
  · intro data hbody
    exact absurd (List.cons.inj (hdata.symm.trans hbody)).1 (by decide)
  · rw [handleDirectPacket, hdata]
    dsimp only
    rw [if_neg (by decide), if_neg (by decide), if_neg (by decide), if_pos rfl, Nat.mod_eq_of_lt (by omega),
      take_length, settitle, if_neg (by omega)]
    split
    · rename_i hsame
      rw [← hsame]
      rfl
    · rfl

/-- Handling the packet with the title, if there is one. -/
theorem GroupC.receiveDirect_title {title : Bytes} (htitle : title.length ≤ maxNameLength)
    {packets : List GroupPacket}
    (hdata : packets.map GroupPacket.data = if title = [] then [] else [peerTitleId :: title]) :
    g.ReceivesPeers selfPk packets ∧ (g.receiveDirect selfPk packets).group = g.group ∧
      (g.receiveDirect selfPk packets).status = g.status ∧ (g.receiveDirect selfPk packets).peerNumber = g.peerNumber ∧
      (title ≠ [] → (g.receiveDirect selfPk packets).title = title) := by
  by_cases hne : title = []
  · rw [if_pos hne] at hdata
    obtain rfl := map_eq_nil_iff.mp hdata
    exact ⟨trivial, rfl, rfl, rfl, fun hsome => absurd hne hsome⟩
  · rw [if_neg hne] at hdata
    obtain ⟨packet, rest, rfl, hpacket, hrest⟩ := map_eq_cons_iff.mp hdata
    obtain rfl := map_eq_nil_iff.mp hrest
    obtain ⟨hreturned, hset⟩ := g.handleDirectPacket_title selfPk hne htitle hpacket
    have hrun : g.receiveDirect selfPk [packet] = { g with title := title } := hset
    rw [hrun]
    exact ⟨⟨hreturned, trivial⟩, rfl, rfl, rfl, fun _ => rfl⟩

/-- The transfer of a peer list: whatever the number of the peers and the lengths of their names, the packets of
`send_peers` make every call of `handle_send_peers` of a group that has no peers yet return 0, and leave it with the
same peers in the same order, the same title, if there is one, and connected with our number exactly if we are among
the peers. -/
theorem peer_list_transfer (selfPk : PublicKey) (sender joining : GroupC) (packets : List GroupPacket)
    (hsent : packets.map GroupPacket.data = (sender.sendPeers fun _ => true).2)
    (halloc : ∀ packet ∈ packets, packet.alloc = fun _ => true)
    (hnicks : ∀ peer ∈ sender.group, peer.nick.length ≤ maxNameLength) (htitle : sender.title.length ≤ maxNameLength)
    (hstatus : joining.status = .valid) (hempty : joining.group = []) :
    joining.ReceivesPeers selfPk packets ∧
      (joining.receiveDirect selfPk packets).group.map GroupPeer.shared = sender.group.map GroupPeer.shared ∧
      (sender.title ≠ [] → (joining.receiveDirect selfPk packets).title = sender.title) ∧
      ((joining.receiveDirect selfPk packets).status = .connected ↔ selfPk ∈ sender.group.map GroupPeer.realPk) ∧
      ∀ peer ∈ sender.group, peer.realPk = selfPk →
        (joining.receiveDirect selfPk packets).peerNumber = peer.peerNumber := by
  obtain ⟨chunks, hflatten, hne, hpackets⟩ := sender.sendPeers_split hnicks
  have hstart : joining.Received selfPk [] := ⟨by rw [hempty], by rw [hstatus]; rfl, by simp⟩
  rw [hpackets, map_eq_append_iff] at hsent
  obtain ⟨lists, titles, rfl, hlists, htitles⟩ := hsent
  have hnumbers := sender.distinct
  have hkeys := sender.distinctKeys
  rw [← hflatten] at hkeys hnicks hnumbers ⊢
  obtain ⟨hlistsReturned, hreceived⟩ := hstart.packets chunks hne hnicks hkeys hnumbers hlists
    fun packet hpacket => halloc packet (mem_append_left _ hpacket)
  obtain ⟨hreturned, hgroup, hjoined, hnumber, htitled⟩ :=
    GroupC.receiveDirect_title selfPk (joining.receiveDirect selfPk lists) htitle htitles
  rw [GroupC.receiveDirect_append, hgroup, hjoined, hnumber]
  refine ⟨GroupC.ReceivesPeers.append hlistsReturned hreturned, hreceived.shared, htitled, ?_, hreceived.number⟩
  rw [hreceived.status, nil_append]
  split
  · rename_i hmem
    exact iff_of_true rfl hmem
  · rename_i hnotMem
    exact iff_of_false (by decide) hnotMem

/-- A group with a title, of nine peers with names of 128 bytes. -/
def ninePeers : GroupC where
  status := .connected
  identifier := List.Vector.replicate groupIdentifierLength 0
  group := (List.range 9).map fun i =>
    ⟨List.Vector.replicate 32 (UInt8.ofNat i), PublicKey.zero, 0, 7, List.replicate 128 65, UInt16.ofNat i⟩
  peerNumber := 2
  title := [84]
  distinct := by decide
  distinctKeys := by decide +kernel

/-- A group that was joined and has no peers yet. -/
def joiningGroup : GroupC :=
  ⟨.valid, List.Vector.replicate groupIdentifierLength 0, [], 0, [], nodup_nil, nodup_nil⟩

/-- The third of the peers asks for the list, which takes two packets, and the title one more. -/
theorem peer_list_transfer_nine :
    let packets := (ninePeers.sendPeers fun _ => true).2.map fun data => (⟨0, fun _ => true, data, 0⟩ : GroupPacket)
    let joined := joiningGroup.receiveDirect (List.Vector.replicate 32 2) packets
    packets.length = 3 ∧ joined.group.map GroupPeer.shared = ninePeers.group.map GroupPeer.shared ∧
      joined.title = [84] ∧ joined.status = .connected ∧ joined.peerNumber = 2 := by
  intro packets joined
  have hsent : packets.map GroupPacket.data = (ninePeers.sendPeers fun _ => true).2 := by
    rw [map_map]
    exact map_id _
  have halloc : ∀ packet ∈ packets, packet.alloc = fun _ => true := by
    intro packet hpacket
    obtain ⟨data, -, rfl⟩ := mem_map.mp hpacket
    rfl
  obtain ⟨-, hgroup, htitle, hstatus, hnumber⟩ :=
    peer_list_transfer (List.Vector.replicate 32 2) ninePeers joiningGroup packets
    hsent halloc (by decide +kernel) (by decide) rfl rfl
  exact ⟨by decide +kernel, hgroup, htitle (by decide), hstatus.mpr (by decide +kernel),
    hnumber _ (mem_map_of_mem (mem_range.mpr (by decide : 2 < 9))) rfl⟩

end Toxcore
