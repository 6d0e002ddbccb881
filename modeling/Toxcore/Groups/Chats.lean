import Mathlib.Data.List.DropRight
import Toxcore.Groups.PeerList

/-!
# The group chats

The array of the groups, and what adds and removes groups and peers. A friend that answers an invite is given a number
that no peer has, added to the peers, and announced to the group. It is announced as well where it was not added:
where it is a peer already, then under another number.
-/

namespace Toxcore

open ByteStrings List Option

/-- `INVITE_ID`. -/
def inviteId : UInt8 := 0

/-- `INVITE_PACKET_SIZE`. -/
abbrev invitePacketSize : ℕ := 1 + 2 + groupIdentifierLength

/-- `INVITE_RESPONSE_ID`. -/
def inviteResponseId : UInt8 := 1

/-- `INVITE_RESPONSE_PACKET_SIZE`. -/
abbrev inviteResponsePacketSize : ℕ := 1 + 2 * 2 + groupIdentifierLength

/-- `GROUP_PING_INTERVAL`. -/
def groupPingInterval : UInt64 := 20

/-! ## The array -/

/-- A group whose memory is zero. -/
def GroupC.zero : GroupC := ⟨.none, List.Vector.replicate groupIdentifierLength 0, [], 0, [], nodup_nil, nodup_nil⟩

/-- `get_group_c`, `none` for NULL. -/
def getGroupC (chats : List GroupC) (groupnumber : ℕ) : Option GroupC :=
  chats[groupnumber]?.filter fun g => g.status ≠ .none

/-- `create_group_chat`, `none` for -1. `alloc` is the outcome of the allocation. -/
def createGroupChat (alloc : Bool) (chats : List GroupC) : Option (ℕ × List GroupC) :=
  match chats.findIdx? fun g => g.status = .none with
  | some i => some (i, chats)
  | none => if alloc then some (chats.length, chats ++ [GroupC.zero]) else none

/-- `wipe_group_chat` of a group that exists. -/
def wipeGroupChat (chats : List GroupC) (groupnumber : ℕ) : List GroupC :=
  (chats.set groupnumber GroupC.zero).rdropWhile fun g => g.status = .none

/-- `get_group_num`, `none` for -1. -/
def getGroupNum (chats : List GroupC) (identifier : Block groupIdentifierLength) : Option ℕ :=
  chats.findIdx? fun g => g.identifier = identifier

/-- A call that a function of the group chats makes: one for a group, of the callback of invites, of
`add_conn_to_groupchat` for a friend that has joined, of `group_new_peer_send`, or of the part of `del_groupchat` that
tells the group and lets its connections go. -/
inductive ChatCall where
  | group (groupnumber : ℕ) (call : GroupCall)
  | inviteCallback (type : UInt8) (data : Bytes)
  | addConnToGroupchat (groupnumber : ℕ) (otherGroupnum : UInt16)
  | groupNewPeerSend (groupnumber : ℕ) (peerNumber : UInt16) (realPk tempPk : PublicKey)
  | leave (groupnumber : ℕ) (peerNumber : UInt16)
  deriving DecidableEq

/-- A call of a function of one group, where it exists. -/
def onGroup (chats : List GroupC) (groupnumber : ℕ)
    (f : GroupC → GroupC × List GroupCall) : List GroupC × List ChatCall :=
  match getGroupC chats groupnumber with
  | none => (chats, [])
  | some g => (chats.set groupnumber (f g).1, (f g).2.map (.group groupnumber))

/-! ## Groups -/

/-- `add_groupchat`: the array and the calls. -/
def addGroupchat (now : UInt64) (allocChats : Bool) (alloc : ℕ → Bool) (identifier : Block groupIdentifierLength)
    (selfPk tempPk : PublicKey) (name : Bytes) (chats : List GroupC) : List GroupC × List ChatCall :=
  match createGroupChat allocChats chats with
  | none => (chats, [])
  | some (groupnumber, chats) =>
    match chats[groupnumber]? with
    | none => (chats, [])
    | some g =>
      let g := { g with status := .connected, identifier := identifier, peerNumber := 0 }
      match g.addpeer now alloc selfPk tempPk 0 with
      | (none, g, calls) => (chats.set groupnumber g, calls.map (.group groupnumber))
      | (some peerIndex, g, calls) =>
        let (g, named) := (g.setnick peerIndex name).getD (g, [])
        (chats.set groupnumber g, (calls ++ named).map (.group groupnumber))

/-- `join_groupchat`: the array and the calls. `friendExists` is whether the friend has a connection number, and
`sent` the outcome of `send_group_invite_packet`. -/
def joinGroupchat (allocChats friendExists sent : Bool) (expectedType : UInt8) (data : Bytes) (chats : List GroupC) :
    List GroupC × List ChatCall :=
  if data.length ≠ 2 + groupIdentifierLength then (chats, [])
  else if data.getD 2 0 ≠ expectedType then (chats, [])
  else if !friendExists then (chats, [])
  else if (getGroupNum chats (slice groupIdentifierLength data 2)).isSome then (chats, [])
  else
    match createGroupChat allocChats chats with
    | none => (chats, [])
    | some (groupnumber, chats) =>
      if sent then
        (chats.modify groupnumber fun g =>
            { g with status := .valid, identifier := slice groupIdentifierLength data 2 },
          [.addConnToGroupchat groupnumber (networkUInt16 data)])
      else (chats.modify groupnumber fun g => { g with status := .none }, [])

/-- `del_groupchat`: the array and the calls. -/
def delGroupchat (groupnumber : ℕ) (chats : List GroupC) : List GroupC × List ChatCall :=
  match getGroupC chats groupnumber with
  | none => (chats, [])
  | some g =>
    (wipeGroupChat chats groupnumber, .leave groupnumber g.peerNumber ::
      (List.range g.group.length).map fun i => .group groupnumber (.peerOnLeave i))

/-- The packet that invites into a group. -/
def GroupC.invitePacket (g : GroupC) (groupnumber : ℕ) : Bytes :=
  inviteId :: (beBytes 2 groupnumber ++ g.identifier.toList)

/-- `invite_friend`, with the return value 0 as `true`: the array. `send` is the outcome of `send_group_invite_packet`
for the friend. -/
def inviteFriend (groupnumber : ℕ) (send : Bytes → Bool) (chats : List GroupC) : Bool × List GroupC :=
  match getGroupC chats groupnumber with
  | none => (false, chats)
  | some g => if send (g.invitePacket groupnumber) then (true, chats) else (false, wipeGroupChat chats groupnumber)

variable {g : GroupC}

/-- A group that is wiped is not there any more. -/
theorem wipeGroupChat_ne {chats : List GroupC} {groupnumber : ℕ} (h : getGroupC chats groupnumber = some g) :
    wipeGroupChat chats groupnumber ≠ chats := by
  intro hsame
  obtain ⟨hfound, hstatus⟩ := filter_eq_some_iff.mp h
  obtain ⟨hlt, hat⟩ := List.getElem?_eq_some_iff.mp hfound
  have hfront : wipeGroupChat chats groupnumber <+: chats.set groupnumber GroupC.zero := rdropWhile_prefix _ _
  rw [hsame] at hfront
  have hset := hfront.eq_of_length (by rw [length_set])
  have hzero : chats[groupnumber] = GroupC.zero := by
    have hget := getElem_set_self (l := chats) (i := groupnumber) (a := GroupC.zero) (by rw [length_set]; exact hlt)
    rw [← hget]
    congr 1
  rw [← hat, hzero] at hstatus
  exact absurd hstatus (by decide)

/-- A failed invite leaves the groups as they are exactly if there is no such group: where the packet cannot be sent,
the group is wiped. -/
theorem failed_invite_keeps_iff (groupnumber : ℕ) (send : Bytes → Bool) (chats : List GroupC) :
    ((inviteFriend groupnumber send chats).1 = false → (inviteFriend groupnumber send chats).2 = chats) ↔
      ∀ g, getGroupC chats groupnumber = some g → send (g.invitePacket groupnumber) = true := by
  rw [inviteFriend]
  cases hgroup : getGroupC chats groupnumber with
  | none => exact iff_of_true (fun _ => rfl) (by simp)
  | some g =>
    dsimp only
    cases hsent : send (g.invitePacket groupnumber) with
    | true =>
      refine iff_of_true (fun _ => rfl) ?_
      rintro _ ⟨rfl⟩
      exact hsent
    | false =>
      refine iff_of_false ?_ ?_
      · intro hkeeps
        exact wipeGroupChat_ne hgroup (hkeeps rfl)
      · intro hall
        rw [hall g rfl] at hsent
        contradiction

/-- An invite that cannot be sent wipes the only group. -/
theorem failed_invite_wipes : ∃ chats : List GroupC, chats.length = 1 ∧
    (inviteFriend 0 (fun _ => false) chats).1 = false ∧
    (inviteFriend 0 (fun _ => false) chats).2.length = 0 :=
  ⟨[{ GroupC.zero with status := .connected }], rfl, rfl, rfl⟩

/-- The loop of `groupchat_clear_timedout`, from an index on. -/
def GroupC.clearTimedoutLoop (now : UInt64) (alloc : ℕ → Bool) : ℕ → ℕ → GroupC → GroupC × List GroupCall
  | 0, _, g => (g, [])
  | fuel + 1, i, g =>
    if h : i < g.group.length then
      let (g, deleted) :=
        if g.peerNumber ≠ g.group[i].peerNumber ∧ isTimeout now g.group[i].lastRecv (groupPingInterval * 3) then
          g.delpeer alloc i h
        else (g, [])
      let (g, calls) := clearTimedoutLoop now alloc fuel (i + 1) g
      (g, deleted ++ calls)
    else (g, [])

/-- `groupchat_clear_timedout` for a group that exists. Each round moves on, and no round adds a peer. -/
def GroupC.clearTimedout (now : UInt64) (alloc : ℕ → Bool) (g : GroupC) : GroupC × List GroupCall :=
  g.clearTimedoutLoop now alloc g.group.length 0

/-! ## Invites -/

/-- An invite packet of a friend with its keys, the clock, the outcome of an allocation for a number of peers, and the
values that `rand` returns. -/
structure InvitePacket where
  now : UInt64
  alloc : ℕ → Bool
  rand : ℕ → UInt16
  realPk : PublicKey
  tempPk : PublicKey
  data : Bytes

/-- The group that a response is for: its number has to be that of a group with its identifier. -/
def respondedGroup (chats : List GroupC) (data : Bytes) : Option (ℕ × GroupC) :=
  if data.length ≠ inviteResponsePacketSize then none
  else
    let groupnum := (networkUInt16 (data.drop (1 + 2))).toNat
    (getGroupC chats groupnum).bind fun g =>
      if slice groupIdentifierLength data (1 + 2 * 2) ≠ g.identifier then none else some (groupnum, g)

/-- The number that is drawn for a new peer: the first one that is free, of the 33 that are tried. -/
def GroupC.drawPeerNumber (g : GroupC) (rand : ℕ → UInt16) : Option UInt16 :=
  ((List.range 33).map rand).find? fun peerNumber => (g.getPeerIndex peerNumber).isNone

/-- `handle_friend_invite_packet`: the array and the calls. What `addpeer` returns is not looked at. -/
def handleFriendInvitePacket (chats : List GroupC) (packet : InvitePacket) : List GroupC × List ChatCall :=
  if packet.data.length ≤ 1 then (chats, [])
  else if packet.data.getD 0 0 = inviteId then
    if packet.data.length ≠ invitePacketSize then (chats, [])
    else if (getGroupNum chats (slice groupIdentifierLength packet.data (1 + 2))).isSome then (chats, [])
    else (chats, [.inviteCallback (packet.data.getD 3 0) packet.data.tail])
  else if packet.data.getD 0 0 = inviteResponseId then
    match respondedGroup chats packet.data with
    | none => (chats, [])
    | some (groupnum, g) =>
      match g.drawPeerNumber packet.rand with
      | none => (chats, [])
      | some peerNumber =>
        let (_, g, calls) := g.addpeer packet.now packet.alloc packet.realPk packet.tempPk peerNumber
        (chats.set groupnum g, calls.map (.group groupnum) ++
          [.addConnToGroupchat groupnum (networkUInt16 (packet.data.drop 1)),
            .groupNewPeerSend groupnum peerNumber packet.realPk packet.tempPk])
  else (chats, [])

/-! ## Announcements -/

/-- The peers of a group include one with a number and a key. -/
def GroupC.Lists (g : GroupC) (peerNumber : UInt16) (realPk : PublicKey) : Prop :=
  ∃ peer ∈ g.group, peer.peerNumber = peerNumber ∧ peer.realPk = realPk

/-- `addpeer` with a number that is free lists the key under it exactly if the key is new and the allocation
succeeds. -/
theorem GroupC.addpeer_lists_iff {peerNumber : UInt16} (hfree : g.getPeerIndex peerNumber = none) (now : UInt64)
    (alloc : ℕ → Bool) (realPk tempPk : PublicKey) :
    (g.addpeer now alloc realPk tempPk peerNumber).2.1.Lists peerNumber realPk ↔
      g.peerInChat realPk = none ∧ alloc (g.group.length + 1) = true := by
  have hnobody : ∀ peer ∈ g.group, peer.peerNumber ≠ peerNumber := by
    intro peer hpeer hnumber
    exact getPeerIndex_none hfree (List.mem_map.mpr ⟨peer, hpeer, hnumber⟩)
  rw [addpeer]
  split
  · rename_i hknown
    refine iff_of_false ?_ ?_
    · rintro ⟨peer', hpeer', hnumber, -⟩
      dsimp only at hpeer'
      rcases mem_of_mem_modify _ hpeer' with hold | ⟨peer, hpeer, rfl⟩
      · exact hnobody peer' hold hnumber
      · exact hnobody peer hpeer hnumber
    · rintro ⟨hnone, -⟩
      rw [hknown] at hnone
      contradiction
  · rename_i hnew
    split
    · rename_i hfound
      rw [hfree] at hfound
      contradiction
    · split
      · rename_i hfailed
        refine iff_of_false ?_ ?_
        · rintro ⟨peer, hpeer, hnumber, -⟩
          exact hnobody peer hpeer hnumber
        · rintro ⟨-, halloc⟩
          rw [halloc] at hfailed
          contradiction
      · rename_i hsucceeded
        refine iff_of_true ?_ ⟨hnew, ?_⟩
        · exact ⟨_, mem_append_right _ (mem_singleton.mpr rfl), rfl, rfl⟩
        · rw [Bool.not_eq_true', Bool.not_eq_false] at hsucceeded
          exact hsucceeded

/-- A number that was drawn is free. -/
theorem GroupC.drawPeerNumber_free {rand : ℕ → UInt16} {peerNumber : UInt16}
    (h : g.drawPeerNumber rand = some peerNumber) : g.getPeerIndex peerNumber = none := by
  have hnone := (find?_eq_some_iff_append.mp h).1
  exact isNone_iff_eq_none.mp hnone

/-- A group that a response is for is in the array. -/
theorem respondedGroup_lt {chats : List GroupC} {data : Bytes} {groupnum : ℕ}
    (h : respondedGroup chats data = some (groupnum, g)) : groupnum < chats.length := by
  rw [respondedGroup] at h
  split at h
  · contradiction
  · obtain ⟨found, hfound, hresult⟩ := bind_eq_some_iff.mp h
    split at hresult
    · contradiction
    · obtain ⟨rfl, -⟩ := Prod.mk.inj (some.inj hresult)
      obtain ⟨hsome, -⟩ := filter_eq_some_iff.mp hfound
      exact (List.getElem?_eq_some_iff.mp hsome).1

/-- The peer that a call announces is one of the peers of the group. -/
def Truthful (chats : List GroupC) (call : ChatCall) : Prop :=
  ∀ groupnumber peerNumber realPk tempPk, call = .groupNewPeerSend groupnumber peerNumber realPk tempPk →
    ∃ g, chats[groupnumber]? = some g ∧ g.Lists peerNumber realPk

/-- A response is that of a new peer: where it is for a group, and a number is drawn, the friend is not a peer
already, and the allocation for one more peer succeeds. -/
def InvitePacket.OfNewPeer (packet : InvitePacket) (chats : List GroupC) : Prop :=
  packet.data.getD 0 0 = inviteResponseId →
    ∀ groupnum g peerNumber, respondedGroup chats packet.data = some (groupnum, g) →
    g.drawPeerNumber packet.rand = some peerNumber →
      g.peerInChat packet.realPk = none ∧ packet.alloc (g.group.length + 1) = true

/-- The calls for one group announce nothing. -/
theorem announcement_not_mem (groupnumber announced : ℕ) (calls : List GroupCall) (peerNumber : UInt16)
    (realPk tempPk : PublicKey) :
    ChatCall.groupNewPeerSend announced peerNumber realPk tempPk ∉ calls.map (.group groupnumber) := by
  intro hmem
  obtain ⟨call, -, hcall⟩ := List.mem_map.mp hmem
  contradiction

/-- `handle_friend_invite_packet` announces a peer that is one exactly if the response is that of a new peer. -/
theorem handleFriendInvitePacket_truthful (chats : List GroupC) (packet : InvitePacket) :
    (∀ call ∈ (handleFriendInvitePacket chats packet).2, Truthful (handleFriendInvitePacket chats packet).1 call) ↔
      packet.OfNewPeer chats := by
  rw [handleFriendInvitePacket]
  split
  · rename_i hshort
    refine iff_of_true (by simp) ?_
    intro hid groupnum g peerNumber hgroup hdrawn
    have hsize : inviteResponsePacketSize = 38 := rfl
    rw [respondedGroup, if_pos (by omega)] at hgroup
    contradiction
  split
  · rename_i hid
    refine iff_of_true ?_ ?_
    · split
      · simp
      split
      · simp
      · simp [Truthful]
    · intro hresponse
      rw [hid] at hresponse
      contradiction
  split
  · rename_i hid
    split
    · rename_i hnone
      refine iff_of_true (by simp) ?_
      intro _ groupnum g peerNumber hgroup
      rw [hnone] at hgroup
      contradiction
    · rename_i groupnum g hgroup
      split
      · rename_i hnone
        refine iff_of_true (by simp) ?_
        intro _ groupnum' g' peerNumber hgroup' hdrawn
        obtain ⟨rfl, rfl⟩ := Prod.mk.inj (some.inj (hgroup.symm.trans hgroup'))
        rw [hnone] at hdrawn
        contradiction
      · rename_i peerNumber hdrawn
        have hlists :=
          GroupC.addpeer_lists_iff (GroupC.drawPeerNumber_free hdrawn) packet.now packet.alloc packet.realPk
          packet.tempPk
        have hstored := getElem?_set_self (respondedGroup_lt hgroup)
          (a := (g.addpeer packet.now packet.alloc packet.realPk packet.tempPk peerNumber).2.1)
        constructor
        · intro htruthful _ groupnum' g' peerNumber' hgroup' hdrawn'
          obtain ⟨rfl, rfl⟩ := Prod.mk.inj (some.inj (hgroup.symm.trans hgroup'))
          obtain rfl := some.inj (hdrawn.symm.trans hdrawn')
          obtain ⟨stored, hfound, hlisted⟩ :=
            htruthful (.groupNewPeerSend groupnum peerNumber packet.realPk packet.tempPk) (by simp) _ _ _ _ rfl
          rw [hstored] at hfound
          rw [← some.inj hfound] at hlisted
          exact hlists.mp hlisted
        · intro hnew call hcall groupnum' peerNumber' realPk tempPk hannounced
          subst hannounced
          rcases mem_append.mp hcall with hinner | hlast
          · exact (announcement_not_mem _ _ _ _ _ _ hinner).elim
          · have hcall : ChatCall.groupNewPeerSend groupnum' peerNumber' realPk tempPk =
                .groupNewPeerSend groupnum peerNumber packet.realPk packet.tempPk := by
              simpa using hlast
            obtain ⟨rfl, rfl, rfl, rfl⟩ := ChatCall.groupNewPeerSend.inj hcall
            exact ⟨_, hstored, hlists.mpr (hnew hid _ _ _ hgroup hdrawn)⟩
  · rename_i hid
    refine iff_of_true (by simp) ?_
    intro hresponse
    exact absurd hresponse hid

/-! ## Runs -/

/-- What happens to the group chats. -/
inductive ChatsOp where
  | addGroupchat (now : UInt64) (allocChats : Bool) (alloc : ℕ → Bool) (identifier : Block groupIdentifierLength)
      (tempPk : PublicKey) (name : Bytes)
  | joinGroupchat (allocChats friendExists sent : Bool) (expectedType : UInt8) (data : Bytes)
  | delGroupchat (groupnumber : ℕ)
  | inviteFriend (groupnumber : ℕ) (send : Bytes → Bool)
  | invite (packet : InvitePacket)
  | message (groupnumber : ℕ) (packet : GroupPacket)
  | direct (groupnumber : ℕ) (packet : GroupPacket)
  | clearTimedout (groupnumber : ℕ) (now : UInt64) (alloc : ℕ → Bool)

/-- The array after an operation, and the calls. -/
def chatsStep (selfPk : PublicKey) (chats : List GroupC) : ChatsOp → List GroupC × List ChatCall
  | .addGroupchat now allocChats alloc identifier tempPk name =>
    addGroupchat now allocChats alloc identifier selfPk tempPk name chats
  | .joinGroupchat allocChats friendExists sent expectedType data =>
    joinGroupchat allocChats friendExists sent expectedType data chats
  | .delGroupchat groupnumber => delGroupchat groupnumber chats
  | .inviteFriend groupnumber send => ((inviteFriend groupnumber send chats).2, [])
  | .invite packet => handleFriendInvitePacket chats packet
  | .message groupnumber packet => onGroup chats groupnumber fun g => g.handleMessagePacketGroup packet
  | .direct groupnumber packet => onGroup chats groupnumber fun g => g.handleDirectPacket selfPk packet
  | .clearTimedout groupnumber now alloc => onGroup chats groupnumber fun g => g.clearTimedout now alloc

/-- The array after a run. -/
def chatsRun (selfPk : PublicKey) (chats : List GroupC) (ops : List ChatsOp) : List GroupC :=
  ops.foldl (fun chats op => (chatsStep selfPk chats op).1) chats

/-- Every peer that is announced in a run is one of the peers at that moment. -/
def AllTruthful (selfPk : PublicKey) : List GroupC → List ChatsOp → Prop
  | _, [] => True
  | chats, op :: ops =>
    (∀ call ∈ (chatsStep selfPk chats op).2, Truthful (chatsStep selfPk chats op).1 call) ∧
      AllTruthful selfPk (chatsStep selfPk chats op).1 ops

/-- Every response in a run is that of a new peer. -/
def AllOfNewPeers (selfPk : PublicKey) : List GroupC → List ChatsOp → Prop
  | _, [] => True
  | chats, op :: ops =>
    (∀ packet, op = .invite packet → packet.OfNewPeer chats) ∧ AllOfNewPeers selfPk (chatsStep selfPk chats op).1 ops

/-- A call on a group tells the truth about it. -/
theorem onGroup_truthful (chats after : List GroupC) (groupnumber : ℕ) (f : GroupC → GroupC × List GroupCall) :
    ∀ call ∈ (onGroup chats groupnumber f).2, Truthful after call := by
  rintro call hcall announced peerNumber realPk tempPk rfl
  rw [onGroup] at hcall
  split at hcall
  · contradiction
  · exact (announcement_not_mem _ _ _ _ _ _ hcall).elim

/-- So does a group that is made. -/
theorem addGroupchat_truthful (now : UInt64) (allocChats : Bool) (alloc : ℕ → Bool)
    (identifier : Block groupIdentifierLength)
    (selfPk tempPk : PublicKey) (name : Bytes) (chats after : List GroupC) :
    ∀ call ∈ (addGroupchat now allocChats alloc identifier selfPk tempPk name chats).2, Truthful after call := by
  rintro call hcall announced peerNumber realPk tempPk rfl
  rw [addGroupchat] at hcall
  split at hcall
  · contradiction
  split at hcall
  · contradiction
  dsimp only at hcall
  split at hcall
  · exact (announcement_not_mem _ _ _ _ _ _ hcall).elim
  · exact (announcement_not_mem _ _ _ _ _ _ hcall).elim

/-- So does a group that is joined. -/
theorem joinGroupchat_truthful (allocChats friendExists sent : Bool) (expectedType : UInt8) (data : Bytes)
    (chats after : List GroupC) :
    ∀ call ∈ (joinGroupchat allocChats friendExists sent expectedType data chats).2, Truthful after call := by
  rintro call hcall announced peerNumber realPk tempPk rfl
  rw [joinGroupchat] at hcall
  split at hcall
  · contradiction
  split at hcall
  · contradiction
  split at hcall
  · contradiction
  split at hcall
  · contradiction
  split at hcall
  · contradiction
  split at hcall
  · simp at hcall
  · contradiction

/-- So does a group that is deleted. -/
theorem delGroupchat_truthful (groupnumber : ℕ) (chats after : List GroupC) :
    ∀ call ∈ (delGroupchat groupnumber chats).2, Truthful after call := by
  rintro call hcall announced peerNumber realPk tempPk rfl
  rw [delGroupchat] at hcall
  split at hcall
  · contradiction
  · simp at hcall

/-- One operation announces the truth exactly if it is not the response of a friend that is a peer already. -/
theorem chatsStep_truthful (selfPk : PublicKey) (chats : List GroupC) (op : ChatsOp) :
    (∀ call ∈ (chatsStep selfPk chats op).2, Truthful (chatsStep selfPk chats op).1 call) ↔
      ∀ packet, op = .invite packet → packet.OfNewPeer chats := by
  cases op with
  | addGroupchat now allocChats alloc identifier tempPk name =>
    exact iff_of_true (addGroupchat_truthful _ _ _ _ _ _ _ _ _) (by simp)
  | joinGroupchat allocChats friendExists sent expectedType data =>
    exact iff_of_true (joinGroupchat_truthful _ _ _ _ _ _ _) (by simp)
  | delGroupchat groupnumber => exact iff_of_true (delGroupchat_truthful _ _ _) (by simp)
  | inviteFriend groupnumber send => exact iff_of_true (by simp [chatsStep]) (by simp)
  | invite packet =>
    rw [chatsStep, handleFriendInvitePacket_truthful]
    constructor
    · rintro hnew _ ⟨rfl⟩
      exact hnew
    · intro hnew
      exact hnew packet rfl
  | message groupnumber packet => exact iff_of_true (onGroup_truthful _ _ _ _) (by simp)
  | direct groupnumber packet => exact iff_of_true (onGroup_truthful _ _ _ _) (by simp)
  | clearTimedout groupnumber now alloc => exact iff_of_true (onGroup_truthful _ _ _ _) (by simp)

/-- Peer tables are consistent: after every run the peers of every group have pairwise distinct keys and pairwise
distinct numbers; and every peer that is announced in the run is one of the peers, under its number, exactly if every
response in it is that of a new peer. -/
theorem group_peers_consistent (selfPk : PublicKey) (chats : List GroupC) (ops : List ChatsOp) :
    (∀ g ∈ chatsRun selfPk chats ops, (g.group.map GroupPeer.realPk).Nodup ∧ (g.group.map GroupPeer.peerNumber).Nodup) ∧
      (AllTruthful selfPk chats ops ↔ AllOfNewPeers selfPk chats ops) := by
  refine ⟨fun g _ => ⟨g.distinctKeys, g.distinct⟩, ?_⟩
  induction ops generalizing chats with
  | nil => exact Iff.rfl
  | cons op ops ih => exact and_congr (chatsStep_truthful selfPk chats op) (ih _)

/-- The response of a friend with a key of ones to the invite into the first group, whose identifier is zero; `rand`
returns one value. -/
def responseDrawing (peerNumber : UInt16) : InvitePacket :=
  ⟨0, fun _ => true, fun _ => peerNumber, List.Vector.replicate 32 1, PublicKey.zero,
    inviteResponseId :: List.replicate (inviteResponsePacketSize - 1) 0⟩

/-- A group is founded, and a friend answers the invite into it twice. -/
def invitedTwice : List ChatsOp :=
  [.addGroupchat 0 true (fun _ => true) (List.Vector.replicate groupIdentifierLength 0) PublicKey.zero [],
    .invite (responseDrawing 5), .invite (responseDrawing 6)]

/-- A friend that answers twice was added with the number 5 and is announced with the number 6, which no peer has. -/
theorem invited_twice_announces_unlisted : ¬AllTruthful PublicKey.zero [] invitedTwice := by
  rintro ⟨-, -, htruthful, -⟩
  have hunused : ∀ g ∈ (chatsRun PublicKey.zero [] invitedTwice)[0]?, ∀ peer ∈ g.group, peer.peerNumber ≠ 6 := by decide
  obtain ⟨g, hg, peer, hpeer, hnumber, -⟩ :=
    htruthful (.groupNewPeerSend 0 6 (List.Vector.replicate 32 1) PublicKey.zero) (by decide) _ _ _ _ rfl
  exact hunused g hg peer hpeer hnumber

end Toxcore
