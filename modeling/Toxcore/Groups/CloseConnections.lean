import Mathlib.Algebra.Order.BigOperators.Group.Finset
import Mathlib.Data.Fintype.Fin
import Toxcore.Groups.Chats

/-!
# The close connections of groups

A group has up to 16 close connections, which are friend connections: to the friend that invited us, to friends that
answered an invite, and to the four peers whose keys are closest to ours. A close connection holds its friend
connection from when it is added until it is let go.

The peers of the groups are in `Chats.lean`, and what the functions there call is run here, as far as it changes
connections. The packets that are sent change only `Net_Crypto`, and are left out; so are the callbacks.
-/

namespace Toxcore

open ByteStrings Function

/-- `DESIRED_CLOSE_CONNECTIONS`. -/
abbrev desiredCloseConnections : ℕ := 4

/-- `MAX_GROUP_CONNECTIONS`. -/
abbrev maxGroupConnections : ℕ := 16

/-- `PACKET_ID_ONLINE_PACKET`. -/
def packetIdOnlinePacket : UInt8 := 97

/-- `PACKET_ID_DIRECT_GROUPCHAT`. -/
def packetIdDirectGroupchat : UInt8 := 98

/-- `PACKET_ID_MESSAGE_GROUPCHAT`. -/
def packetIdMessageGroupchat : UInt8 := 99

/-- `ONLINE_PACKET_DATA_SIZE`. -/
abbrev onlinePacketDataSize : ℕ := 2 + groupIdentifierLength

/-- `GROUPCHAT_CLOSE_*`. -/
inductive GroupchatClose where
  | none
  | connection
  | online
  deriving DecidableEq

/-- `GROUPCHAT_CLOSEST_*`. -/
inductive GroupchatClosest where
  | none
  | added
  | removed
  deriving DecidableEq

/-- An entry of `close`. The number is that of a friend connection. -/
structure CloseConnection where
  type : GroupchatClose
  closest : Bool
  number : ℕ
  groupNumber : UInt16

/-- An entry of `closest_peers`. -/
structure ClosestPeer where
  entry : Bool
  realPk : PublicKey
  tempPk : PublicKey

/-- The connections of a `Group_c`, with `none` for a `number_joined` of -1. -/
structure GroupConnections where
  close : Fin maxGroupConnections → CloseConnection
  closestPeers : Fin desiredCloseConnections → ClosestPeer
  changed : GroupchatClosest
  numberJoined : Option ℕ

/-- The first eight bytes of a key as a number. -/
def keyHead (pk : PublicKey) : UInt64 := UInt64.ofNat (beNat (pk.toList.take 8))

/-- `calculate_comp_value`. -/
def calculateCompValue (pk1 pk2 : PublicKey) : UInt64 := keyHead pk1 - keyHead pk2

/-- How far a key is from ours at a place of `closest_peers`: the first half is for the keys below ours, the second
half for those above. -/
def compValueAt (selfPk : PublicKey) (i : Fin desiredCloseConnections) (realPk : PublicKey) : UInt64 :=
  if i.val < desiredCloseConnections / 2 then calculateCompValue selfPk realPk else calculateCompValue realPk selfPk

namespace GroupConnections

/-- Connections whose memory is zero. -/
def zero : GroupConnections where
  close _ := ⟨.none, false, 0, 0⟩
  closestPeers _ := ⟨false, PublicKey.zero, PublicKey.zero⟩
  changed := .none
  numberJoined := some 0

variable (c : GroupConnections)

/-- Write an entry of `close`. -/
def setClose (i : Fin maxGroupConnections) (conn : CloseConnection) : GroupConnections :=
  { c with close := update c.close i conn }

/-- Write an entry of `closest_peers`. -/
def setClosest (i : Fin desiredCloseConnections) (peer : ClosestPeer) : GroupConnections :=
  { c with closestPeers := update c.closestPeers i peer }

/-- `friend_in_close`. -/
def friendInClose (friendconId : ℕ) : Option (Fin maxGroupConnections) :=
  (List.finRange maxGroupConnections).find? fun i => (c.close i).type ≠ .none ∧ (c.close i).number = friendconId

/-- The entry that `add_conn_to_groupchat` takes: the last one that is free. -/
def freeClose : Option (Fin maxGroupConnections) :=
  (List.finRange maxGroupConnections).reverse.find? fun i => (c.close i).type = .none

/-- `count_close_connected`. -/
def countCloseConnected : ℕ := (List.finRange maxGroupConnections).countP fun i => (c.close i).type = .online

/-- `pk_in_closest_peers`. -/
def pkInClosestPeers (realPk : PublicKey) : Bool :=
  (List.finRange desiredCloseConnections).any fun i => (c.closestPeers i).entry ∧ (c.closestPeers i).realPk = realPk

/-! ## The closest peers -/

/-- The peer that is the farthest of those that a key is closer than, in the loops of `add_to_closest` over a full
list. -/
def farthest (selfPk realPk : PublicKey) : Option (Fin desiredCloseConnections) :=
  ((List.finRange desiredCloseConnections).foldl (fun (found : Option (Fin desiredCloseConnections) × UInt64) i =>
    let comp := compValueAt selfPk i (c.closestPeers i).realPk
    if comp > compValueAt selfPk i realPk ∧ comp > found.2 then (some i, comp) else found) (none, 0)).1

/-- The place that `add_to_closest` finds for a key. -/
def closestPlace (selfPk realPk : PublicKey) : Option (Fin desiredCloseConnections) :=
  match (List.finRange desiredCloseConnections).find? fun i => (c.closestPeers i).entry = false with
  | some i => some i
  | none => c.farthest selfPk realPk

/-- How far all closest peers are. -/
def spread (selfPk : PublicKey) : ℕ :=
  ∑ i : Fin desiredCloseConnections, (compValueAt selfPk i (c.closestPeers i).realPk).toNat

variable {c} in
/-- A key is closer than the peer that it takes the place of. -/
theorem farthest_closer {selfPk realPk : PublicKey} {i : Fin desiredCloseConnections}
    (h : c.farthest selfPk realPk = some i) :
    compValueAt selfPk i realPk < compValueAt selfPk i (c.closestPeers i).realPk := by
  have hloop (places : List (Fin desiredCloseConnections)) (found : Option (Fin desiredCloseConnections) × UInt64)
      (hfound : ∀ j, found.1 = some j → compValueAt selfPk j realPk < compValueAt selfPk j (c.closestPeers j).realPk) :
      ∀ j, (places.foldl (fun (found : Option (Fin desiredCloseConnections) × UInt64) i =>
          let comp := compValueAt selfPk i (c.closestPeers i).realPk
          if comp > compValueAt selfPk i realPk ∧ comp > found.2 then (some i, comp) else found) found).1 = some j →
        compValueAt selfPk j realPk < compValueAt selfPk j (c.closestPeers j).realPk := by
    induction places generalizing found with
    | nil => exact hfound
    | cons place places ih =>
      apply ih
      dsimp only
      split
      · rename_i hcloser
        intro j hj
        obtain rfl := Option.some_inj.mp hj
        exact hcloser.1
      · exact hfound
  exact hloop _ (none, 0) nofun i h

variable {c} in
/-- Where a peer is replaced, all of them together are closer than before. -/
theorem spread_setClosest {selfPk realPk tempPk : PublicKey} {i : Fin desiredCloseConnections}
    (h : c.closestPlace selfPk realPk = some i) (hentry : (c.closestPeers i).entry = true) :
    (c.setClosest i ⟨true, realPk, tempPk⟩).spread selfPk < c.spread selfPk := by
  have hfarthest : c.farthest selfPk realPk = some i := by
    unfold closestPlace at h
    split at h
    · rename_i j hfree
      obtain rfl := Option.some_inj.mp h
      have hnone := List.find?_some hfree
      simp only [hentry, Bool.true_eq_false, decide_false, Bool.false_eq_true] at hnone
    · exact h
  have hcloser := UInt64.lt_iff_toNat_lt.mp (farthest_closer hfarthest)
  apply Finset.sum_lt_sum
  · intro j _
    by_cases hj : j = i
    · subst hj
      simp only [setClosest, update_self]
      exact Nat.le_of_lt hcloser
    · simp only [setClosest, update_of_ne hj, Nat.le_refl]
  · refine ⟨i, Finset.mem_univ i, ?_⟩
    simp only [setClosest, update_self]
    exact hcloser

/-- `add_to_closest`. A peer that is replaced is added again, and may replace another one. -/
def addToClosest (selfPk : PublicKey) (c : GroupConnections) (realPk tempPk : PublicKey) : GroupConnections :=
  if selfPk = realPk then c
  else if c.pkInClosestPeers realPk then c
  else
    match _ : c.closestPlace selfPk realPk with
    | none => c
    | some index =>
      let old := c.closestPeers index
      let c := c.setClosest index ⟨true, realPk, tempPk⟩
      let c := if _ : old.entry = true then addToClosest selfPk c old.realPk old.tempPk else c
      if c.changed = .none then { c with changed := .added } else c
termination_by c.spread selfPk
decreasing_by exact spread_setClosest ‹_› ‹_›

/-- The start of `delpeer`: a peer is taken off the closest ones. -/
def removeClosest (realPk : PublicKey) : GroupConnections :=
  match (List.finRange desiredCloseConnections).find? fun i =>
      (c.closestPeers i).entry ∧ (c.closestPeers i).realPk = realPk with
  | none => c
  | some i => { c.setClosest i { c.closestPeers i with entry := false } with changed := .removed }

end GroupConnections

/-! ## The groups and the messenger -/

/-- `Group_Chats`, with the messenger. What a group has of connections is beside its peers, at the same place. -/
structure GroupChats where
  m : Messenger
  chats : List GroupC
  conns : List GroupConnections

namespace GroupChats

variable (sodium : Sodium) (s : GroupChats)

/-- `new_groupchats`. -/
def new (m : Messenger) : GroupChats := ⟨m, [], []⟩

/-- `self_public_key`. -/
def selfPk : PublicKey := s.m.world.net.selfPublicKey

/-- Write `Net_Crypto` and the friend connections. -/
def setWorld (world : FriendWorld) : GroupChats := { s with m := { s.m with world := world } }

/-- The connections of a group that exists. -/
def getConns (groupnumber : ℕ) : Option GroupConnections := (getGroupC s.chats groupnumber).bind fun _ =>
    s.conns[groupnumber]?

/-- Write the connections of a group. -/
def setConns (groupnumber : ℕ) (c : GroupConnections) : GroupChats := { s with conns := s.conns.set groupnumber c }

/-- Write the peers of all groups. The array may have grown by a group whose memory is zero. -/
def setChats (chats : List GroupC) : GroupChats :=
  { s with chats := chats, conns := s.conns ++ List.replicate (chats.length - s.conns.length) .zero }

/-- `wipe_group_chat`. -/
def wipeGroup (groupnumber : ℕ) : GroupChats :=
  { s with
    chats := wipeGroupChat s.chats groupnumber
    conns := (s.conns.set groupnumber .zero).take (wipeGroupChat s.chats groupnumber).length }

/-! ### Holding friend connections -/

/-- `add_conn_to_groupchat`: the index, and the state. The callbacks of the friend connection are not part of the
model. -/
def addConnToGroupchat (friendconId groupnumber : ℕ) (closest lock : Bool) :
    Option (Fin maxGroupConnections) × GroupChats :=
  match s.getConns groupnumber with
  | none => (none, s)
  | some c =>
    match c.friendInClose friendconId with
    | some i => (some i, s.setConns groupnumber (c.setClose i { c.close i with closest := closest }))
    | none =>
      match c.freeClose with
      | none => (none, s)
      | some ind =>
        let s := if lock then s.setWorld
          { s.m.world with app := (s.m.world.app.friendConnectionLock friendconId).2 } else s
        (some ind, s.setConns groupnumber (c.setClose ind
          { c.close ind with type := .connection, number := friendconId, closest := closest }))

/-- A close connection of a group is let go. -/
def letGo (env : FriendEnv) (groupnumber : ℕ) (c : GroupConnections) (i : Fin maxGroupConnections) : GroupChats :=
  (s.setConns groupnumber (c.setClose i { c.close i with type := .none })).setWorld
    (killFriendConnection sodium env s.m.world (c.close i).number).2

/-- `remove_close_conn`. -/
def removeCloseConn (env : FriendEnv) (groupnumber friendconId : ℕ) : GroupChats :=
  match s.getConns groupnumber with
  | none => s
  | some c =>
    match c.friendInClose friendconId with
    | none => s
    | some i => s.letGo sodium env groupnumber c i

/-- The part of `delpeer` that forgets the connections of a peer. -/
def forgetConnections (env : FriendEnv) (groupnumber : ℕ) (realPk : PublicKey) : GroupChats :=
  match s.getConns groupnumber with
  | none => s
  | some c =>
    let s := s.setConns groupnumber (c.removeClosest realPk)
    match s.m.world.app.getfriendConnIdPk realPk with
    | none => s
    | some friendconId => s.removeCloseConn sodium env groupnumber friendconId

/-- The part of `handle_direct_packet` for a peer that lets us go. -/
def killClose (env : FriendEnv) (groupnumber closeIndex : ℕ) : GroupChats :=
  match s.getConns groupnumber with
  | none => s
  | some c =>
    if h : closeIndex < maxGroupConnections then
      if (c.close ⟨closeIndex, h⟩).closest then s else s.letGo sodium env groupnumber c ⟨closeIndex, h⟩
    else s

/-- All close connections of a group are let go, from an index on. -/
def letAllGo (env : ℕ → FriendEnv) (groupnumber : ℕ) : List (Fin maxGroupConnections) → GroupChats → GroupChats
  | [], s => s
  | i :: rest, s =>
    match s.getConns groupnumber with
    | none => s
    | some c =>
      if (c.close i).type = .none then letAllGo env groupnumber rest s
      else letAllGo env groupnumber rest (s.letGo sodium (env i) groupnumber c i)

/-! ### What the groups call -/

/-- A call that a group makes, as far as it changes connections. -/
def execGroupCall (env : FriendEnv) (groupnumber : ℕ) : GroupCall → GroupChats
  | .addToClosest realPk tempPk =>
    match s.getConns groupnumber with
    | none => s
    | some c => s.setConns groupnumber (c.addToClosest s.selfPk realPk tempPk)
  | .forgetConnections realPk => s.forgetConnections sodium env groupnumber realPk
  | .killClose closeIndex => s.killClose sodium env groupnumber closeIndex
  | _ => s

/-- The calls that a group makes. -/
def execGroupCalls (env : ℕ → FriendEnv) (groupnumber : ℕ) (calls : List GroupCall) : GroupChats :=
  calls.zipIdx.foldl (fun s call => s.execGroupCall sodium (env call.2) groupnumber call.1) s

/-- A friend has joined, or we have joined through a friend: its connection is added to those of the group. -/
def addJoined (friendconId groupnumber : ℕ) (otherGroupnum : UInt16) (joined : Bool) : GroupChats :=
  match s.addConnToGroupchat friendconId groupnumber false true with
  | (none, s) => s
  | (some i, s) =>
    match s.getConns groupnumber with
    | none => s
    | some c =>
      s.setConns groupnumber { c.setClose i { c.close i with groupNumber := otherGroupnum, type := .online } with
        numberJoined := if joined then some friendconId else c.numberJoined }

/-- A call that the groups make for a friend, as far as it changes connections. -/
def execChatCall (env : FriendEnv) (friendconId : ℕ) (joined : Bool) : ChatCall → GroupChats
  | .group groupnumber call => s.execGroupCall sodium env groupnumber call
  | .addConnToGroupchat groupnumber otherGroupnum => s.addJoined friendconId groupnumber otherGroupnum joined
  | _ => s

/-- The calls that the groups make for a friend. -/
def execChatCalls (env : ℕ → FriendEnv) (friendconId : ℕ) (joined : Bool) (calls : List ChatCall) : GroupChats :=
  calls.zipIdx.foldl (fun s call => s.execChatCall sodium (env call.2) friendconId joined call.1) s

/-! ### Groups -/

/-- A group was created at a place, and nobody has invited us to it. -/
def startGroup (groupnumber : ℕ) : GroupChats :=
  { s with conns := s.conns.modify groupnumber fun c => { c with numberJoined := none } }

/-- `add_groupchat`. -/
def addGroupchat (env : ℕ → FriendEnv) (now : UInt64) (allocChats : Bool) (alloc : ℕ → Bool)
    (identifier : Block groupIdentifierLength) (tempPk : PublicKey) : GroupChats :=
  match createGroupChat allocChats s.chats with
  | none => s
  | some (groupnumber, _) =>
    let (chats, calls) := Toxcore.addGroupchat now allocChats alloc identifier s.selfPk tempPk s.m.name s.chats
    ((s.setChats chats).startGroup groupnumber).execChatCalls sodium env 0 false calls

/-- `join_groupchat`. `sent` is the outcome of `send_group_invite_packet`. -/
def joinGroupchat (allocChats sent : Bool) (friendnumber : ℕ) (expectedType : UInt8) (data : Bytes) : GroupChats :=
  match s.m.getfriendconId friendnumber with
  | none => s
  | some friendconId =>
    match Toxcore.joinGroupchat allocChats true sent expectedType data s.chats with
    | (chats, [.addConnToGroupchat groupnumber otherGroupnum]) =>
      ((s.setChats chats).startGroup groupnumber).addJoined friendconId groupnumber otherGroupnum true
    | (chats, _) => s.setChats chats

/-- `del_groupchat`. -/
def delGroupchat (env : ℕ → FriendEnv) (groupnumber : ℕ) : GroupChats :=
  match s.getConns groupnumber with
  | none => s
  | some _ => (letAllGo sodium env groupnumber (List.finRange maxGroupConnections) s).wipeGroup groupnumber

/-- `invite_friend`. `send` is the outcome of `send_group_invite_packet`: where it fails, the group is wiped. -/
def inviteFriend (groupnumber : ℕ) (send : Bytes → Bool) : GroupChats :=
  match getGroupC s.chats groupnumber with
  | none => s
  | some g => if send (g.invitePacket groupnumber) then s else s.wipeGroup groupnumber

/-- `groupchat_clear_timedout`. -/
def clearTimedout (env : ℕ → FriendEnv) (groupnumber : ℕ) (now : UInt64) (alloc : ℕ → Bool) : GroupChats :=
  match getGroupC s.chats groupnumber with
  | none => s
  | some g =>
    let (g, calls) := g.clearTimedout now alloc
    (s.setChats (s.chats.set groupnumber g)).execGroupCalls sodium env groupnumber calls

/-! ### Packets -/

/-- `handle_friend_invite_packet` for a friend, with its keys. `Messenger` drops packets of friends that are not
online. Where there are no keys, they are what is on the stack. -/
def handleFriendInvitePacket (env : ℕ → FriendEnv) (friendnumber : ℕ) (stackPks : PublicKey × PublicKey) (now : UInt64)
    (alloc : ℕ → Bool) (rand : ℕ → UInt16) (data : Bytes) : GroupChats :=
  match s.m.getFriend friendnumber with
  | none => s
  | some friend =>
    if friend.status ≠ .online then s
    else
      let (realPk, tempPk) := (s.m.world.app.getFriendconPublicKeys friend.friendconId).getD stackPks
      let (chats, calls) := Toxcore.handleFriendInvitePacket s.chats ⟨now, alloc, rand, realPk, tempPk, data⟩
      (s.setChats chats).execChatCalls sodium env friend.friendconId false calls

/-- `handle_packet_online`. -/
def handlePacketOnline (env : FriendEnv) (friendconId : ℕ) (data : Bytes) : GroupChats :=
  if data.length ≠ onlinePacketDataSize then s
  else
    match getGroupNum s.chats (slice groupIdentifierLength data 2) with
    | none => s
    | some groupnumber =>
      match s.getConns groupnumber with
      | none => s
      | some c =>
        match c.friendInClose friendconId with
        | none => s
        | some index =>
          if (c.close index).type = .online then s
          else
            let c := c.setClose index { c.close index with groupNumber := networkUInt16 data, type := .online }
            let s := s.setConns groupnumber c
            match c.numberJoined with
            | none => s
            | some numberJoined =>
              if c.countCloseConnected < desiredCloseConnections then s
              else
                match c.friendInClose numberJoined with
                | none => s
                | some frCloseIndex =>
                  if (c.close frCloseIndex).closest then s
                  else s.letGo sodium env groupnumber { c with numberJoined := none } frCloseIndex

/-- `handle_packet` for a friend connection. -/
def handlePacket (env : ℕ → FriendEnv) (friendconId : ℕ) (now : UInt64) (alloc : ℕ → Bool)
    (data : Bytes) : GroupChats :=
  if data.length < 1 + 2 + 1 then s
  else if data.getD 0 0 = packetIdOnlinePacket then s.handlePacketOnline sodium (env 0) friendconId data.tail
  else if data.getD 0 0 ≠ packetIdDirectGroupchat ∧ data.getD 0 0 ≠ packetIdMessageGroupchat then s
  else
    let groupnumber := (networkUInt16 data.tail).toNat
    match getGroupC s.chats groupnumber, s.getConns groupnumber with
    | some g, some c =>
      match c.friendInClose friendconId with
      | none => s
      | some index =>
        let packet : GroupPacket := ⟨now, alloc, data.drop (1 + 2), index⟩
        let (g, calls) :=
          if data.getD 0 0 = packetIdDirectGroupchat then g.handleDirectPacket s.selfPk packet
          else g.handleMessagePacketGroup packet
        (s.setChats (s.chats.set groupnumber g)).execGroupCalls sodium env groupnumber calls
    | _, _ => s

/-- `handle_status`: a close connection that goes offline is not online any more. -/
def handleStatus (friendconId : ℕ) (status : Bool) : GroupChats :=
  if status then s
  else
    { s with
      conns := s.conns.map fun c =>
        { c with close := fun i =>
          if (c.close i).type ≠ .none ∧ (c.close i).number = friendconId then { c.close i with type := .connection }
          else c.close i } }

/-! ### The closest peers -/

/-- The first loop of `connect_to_closest`: a closest peer that is not one any more is let go. Where a friend
connection has no key, it is what is on the stack. -/
def dropConnections (env : ℕ → FriendEnv) (stackPk : PublicKey) (groupnumber : ℕ) :
    List (Fin maxGroupConnections) → GroupChats → GroupChats
  | [], s => s
  | i :: rest, s =>
    match s.getConns groupnumber with
    | none => s
    | some c =>
      let realPk := ((s.m.world.app.getFriendconPublicKeys (c.close i).number).map Prod.fst).getD stackPk
      if (c.close i).type = .none ∨ (c.close i).closest = false ∨ c.pkInClosestPeers realPk then
        dropConnections env stackPk groupnumber rest s
      else dropConnections env stackPk groupnumber rest (s.letGo sodium (env i) groupnumber c i)

/-- The body of the second loop of `connect_to_closest`. -/
def connectPeer (env : FriendEnv) (groupnumber : ℕ) (peer : ClosestPeer) : GroupChats :=
  if peer.entry = false then s
  else
    match s.m.world.app.getfriendConnIdPk peer.realPk with
    | some friendconId => (s.addConnToGroupchat friendconId groupnumber true true).2
    | none =>
      match s.m.world.app.newFriendConnection env peer.realPk with
      | (none, frC) => s.setWorld { s.m.world with app := frC }
      | (some friendconId, frC) =>
        let s := s.setWorld (setDhtTempPk sodium env { s.m.world with app := frC } friendconId peer.tempPk)
        (s.addConnToGroupchat friendconId groupnumber true false).2

/-- The second loop of `connect_to_closest`. -/
def connectPeers (env : ℕ → FriendEnv) (groupnumber : ℕ) (c : GroupConnections) :
    List (Fin desiredCloseConnections) → GroupChats → GroupChats
  | [], s => s
  | i :: rest, s => connectPeers env groupnumber c rest (s.connectPeer sodium (env i) groupnumber (c.closestPeers i))

/-- The start of `connect_to_closest`: where a closest peer was removed, all peers are offered again. -/
def refillClosest (g : GroupC) (c : GroupConnections) : GroupConnections :=
  if c.changed = .removed then
    g.group.foldl (fun c peer => c.addToClosest s.selfPk peer.realPk peer.tempPk) c
  else c

/-- `connect_to_closest`, up to the second loop. -/
def beforeConnecting (env : ℕ → FriendEnv) (stackPk : PublicKey) (groupnumber : ℕ) (g : GroupC) (c : GroupConnections) :
    GroupChats :=
  dropConnections sodium env stackPk groupnumber (List.finRange maxGroupConnections)
    (s.setConns groupnumber (s.refillClosest g c))

/-- `connect_to_closest`. What the two loops observe is in `envDrop` and `envConnect`. -/
def connectToClosest (envDrop envConnect : ℕ → FriendEnv) (stackPk : PublicKey) (groupnumber : ℕ) : GroupChats :=
  match getGroupC s.chats groupnumber, s.getConns groupnumber with
  | some g, some c =>
    if c.changed = .none then s
    else
      let connected :=
        connectPeers sodium envConnect groupnumber (s.refillClosest g c) (List.finRange desiredCloseConnections)
        (s.beforeConnecting sodium envDrop stackPk groupnumber g c)
      { connected with conns := connected.conns.modify groupnumber fun c => { c with changed := .none } }
  | _, _ => s

end GroupChats

end Toxcore
