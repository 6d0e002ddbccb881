import Toxcore.Friends.Connections
import Toxcore.NetCrypto.Ticks

/-!
# Key announcements, and the operations on friend connections

A friend announces its DHT key in a packet that comes through the onion. Each announcement has a number, and one that
is not above the last one taken is refused. An announcement that is taken is handed to the friend connection, which
may lose its crypto connection over it.

The rest of this module puts together what can happen to friend connections: calls from the layers above, the main
loop, callbacks of the DHT and the onion client, and packets for `Net_Crypto`. The layers above are handed with each
operation, and may run operations themselves.
-/

namespace Toxcore

open ByteStrings

/-- `DHTPK_DATA_MIN_LENGTH`. -/
abbrev dhtpkDataMinLength : ℕ := 1 + 8 + 32

/-- `DHTPK_DATA_MAX_LENGTH`. -/
abbrev dhtpkDataMaxLength : ℕ := dhtpkDataMinLength + 64 * maxSentNodes

/-- How `handle_dhtpk_announce` returns: with 0 where the packet was handled, and with 1 otherwise. -/
inductive AnnounceReturn where
  | badLength
  | notFriend
  | replayed
  | badNodes
  | handled
  deriving DecidableEq

/-- The announcement passed the check of its number. -/
def AnnounceReturn.Accepted (result : AnnounceReturn) : Prop := result = .badNodes ∨ result = .handled

instance (result : AnnounceReturn) : Decidable result.Accepted := inferInstanceAs (Decidable (_ ∨ _))

/-- The number of an announcement. -/
def announcedNoReplay (data : Bytes) : UInt64 := UInt64.ofNat (beNat (slice 8 data 1).toList)

/-- The DHT key of an announcement. -/
def announcedKey (data : Bytes) : PublicKey := slice 32 data 9

/-- Write some fields of a friend of the onion client. -/
def FriendConnections.modifyOnionFriend (frC : FriendConnections) (friendNum : ℕ) (f : OnionFriend → OnionFriend) :
    FriendConnections :=
  { frC with onionC := { frC.onionC with friendsList := frC.onionC.friendsList.modify friendNum f } }

/-- A node of an announcement: a TCP relay is handed to the friend connection. The DHT is asked about the others,
which does not change its lists. -/
def FriendConnections.takeAnnouncedNode (friendNum : ℕ) (frC : FriendConnections)
    (node : NodeFormat) : FriendConnections :=
  if node.ipPort.ip.family = tcpInet ∨ node.ipPort.ip.family = tcpInet6 then
    match frC.onionC.friendsList[friendNum]?.bind OnionFriend.tcpRelayNodeCallback with
    | none => frC
    | some number => frC.tcpRelayNodeCallback number.toNat node.ipPort node.publicKey
  else frC

section Announcements

variable (sodium : Sodium) (env : FriendEnv)

/-- The middle of `handle_dhtpk_announce`: the number and the key of an announcement are taken. -/
def takeAnnouncement (w : FriendWorld) (friendNum : ℕ) (friend : OnionFriend) (data : Bytes) : FriendWorld :=
  let w := { w with
    app := w.app.modifyOnionFriend friendNum fun friend => { friend with lastNoreplay := announcedNoReplay data } }
  let w := match friend.dhtPkCallback with
    | none => w
    | some number => dhtPkCallback sodium env w number.toNat (announcedKey data)
  let frC := { w.app with
    onionC := onionSetFriendDhtPubkey env.net.unixTime w.app.onionC friendNum (announcedKey data) }
  { w with app := frC.modifyOnionFriend friendNum fun friend => { friend with lastSeen := env.net.unixTime } }

/-- The end of `handle_dhtpk_announce`: the nodes of an announcement. -/
def takeAnnouncedNodes (w : FriendWorld) (friendNum : ℕ) (data : Bytes) : AnnounceReturn × FriendWorld :=
  if data.length - dhtpkDataMinLength = 0 then (.handled, w)
  else
    match unpackNodes env.stackNodes (UInt16.ofNat maxSentNodes) (data.drop dhtpkDataMinLength)
        (UInt16.ofNat (data.length - dhtpkDataMinLength)) true with
    | some (some (node :: nodes, _)) =>
      (.handled, { w with app := (node :: nodes).foldl (FriendConnections.takeAnnouncedNode friendNum) w.app })
    | _ => (.badNodes, w)

/-- `handle_dhtpk_announce`. -/
def handleDhtpkAnnounce (w : FriendWorld) (sourcePubkey : PublicKey) (data : Bytes) : AnnounceReturn × FriendWorld :=
  if data.length < dhtpkDataMinLength then (.badLength, w)
  else if data.length > dhtpkDataMaxLength then (.badLength, w)
  else
    match onionFriendNum w.app.onionC sourcePubkey with
    | none => (.notFriend, w)
    | some friendNum =>
      let friend := w.app.onionC.friendsList.getD friendNum .zero
      if announcedNoReplay data ≤ friend.lastNoreplay then (.replayed, w)
      else takeAnnouncedNodes env (takeAnnouncement sodium env w friendNum friend data) friendNum data

end Announcements

/-! ## Operations -/

/-- What can happen to friend connections, with what each call observes. For a packet that `Net_Crypto` handles,
`inner` is what the callbacks observe. -/
inductive FriendOperation where
  | newFriendConnection (env : FriendEnv) (realPublicKey : PublicKey)
  | killFriendConnection (env : FriendEnv) (friendconId : ℕ)
  | setDhtTempPk (env : FriendEnv) (friendconId : ℕ) (dhtTempPk : PublicKey)
  | doFriendConnections (env : ℕ → FriendEnv) (tempTime : UInt64)
  | dhtIpCallback (env : FriendEnv) (number : ℕ) (ipPort : IpPort)
  | dhtPkCallback (env : FriendEnv) (number : ℕ) (dhtPublicKey : PublicKey)
  | handleDhtpkAnnounce (env : FriendEnv) (sourcePubkey : PublicKey) (data : Bytes)
  | handleNewConnections (env : FriendEnv) (nC : NewConnection)
  | handleNewConnectionHandshake (env : Env) (inner : FriendEnv) (source : IpPort) (data : Bytes)
  | handlePacketConnection (env : Env) (inner : FriendEnv) (id : ℕ) (packet : Bytes) (udp : Bool)
  | udpHandlePacket (env : Env) (inner : FriendEnv) (source : IpPort) (packet : Bytes)
  | connectionKill (env : Env) (inner : FriendEnv) (id : ℕ)
  | killTimedout (env : Env) (inner : FriendEnv)

/-- The world after an operation. -/
def FriendOperation.exec (sodium : Sodium) (above : LayerAbove) (op : FriendOperation)
    (w : FriendWorld) : FriendWorld :=
  match op with
  | .newFriendConnection env realPublicKey => { w with app := (w.app.newFriendConnection env realPublicKey).2 }
  | .killFriendConnection env friendconId => (Toxcore.killFriendConnection sodium env w friendconId).2
  | .setDhtTempPk env friendconId dhtTempPk => Toxcore.setDhtTempPk sodium env w friendconId dhtTempPk
  | .doFriendConnections env tempTime => Toxcore.doFriendConnections sodium env tempTime w
  | .dhtIpCallback env number ipPort => Toxcore.dhtIpCallback sodium env w number ipPort
  | .dhtPkCallback env number dhtPublicKey => Toxcore.dhtPkCallback sodium env w number dhtPublicKey
  | .handleDhtpkAnnounce env sourcePubkey data => (Toxcore.handleDhtpkAnnounce sodium env w sourcePubkey data).2
  | .handleNewConnections env nC => (Toxcore.handleNewConnections sodium env w nC).2
  | .handleNewConnectionHandshake env inner source data =>
    (NetCrypto.handleNewConnectionHandshake sodium (friendCallbacks above sodium inner) env w source data).2
  | .handlePacketConnection env inner id packet udp =>
    (NetCrypto.handlePacketConnection sodium (friendCallbacks above sodium inner) env w id packet udp).2
  | .udpHandlePacket env inner source packet =>
    (NetCrypto.udpHandlePacket sodium (friendCallbacks above sodium inner) env w source packet).2
  | .connectionKill env inner id => NetCrypto.connectionKill sodium (friendCallbacks above sodium inner) env w id
  | .killTimedout env inner => NetCrypto.killTimedout sodium (friendCallbacks above sodium inner) env w

/-- The worlds reached from one to another by operations, each with the layers above. -/
abbrev FriendReaches (sodium : Sodium) : FriendWorld → FriendWorld → Prop :=
  Reentrant.Reaches (fun above op w => FriendOperation.exec sodium above op w) LayerAbove.Calls fun _ _ => True

/-- An operation under layers above that set no callbacks. -/
theorem FriendReaches.step_unset {sodium : Sodium} {start w : FriendWorld} (h : FriendReaches sodium start w)
    (op : FriendOperation) : FriendReaches sodium start (op.exec sodium .unset w) :=
  Reentrant.Reaches.step_quiet h LayerAbove.unset op (fun _ _ => LayerAbove.unset_calls) trivial

/-- `new_friend_connections`, over a new `Net_Crypto`. -/
def FriendWorld.new (dhtKeys : DhtKeys) (selfPublicKey : PublicKey) (selfSecretKey : SecretKey)
    (secretSymmetricKey : SharedKey) (onionC : OnionClient) (dht : Dht) : FriendWorld :=
  ⟨.new dhtKeys selfPublicKey selfSecretKey secretSymmetricKey, ⟨[], onionC, dht, 0⟩⟩

end Toxcore
