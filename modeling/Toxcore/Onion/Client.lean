import Mathlib.Data.List.DropRight
import Toxcore.Onion.Announce

/-!
# Friends of the onion client

The client keeps for each friend the nodes that may have stored the friend's announcement, what is known of its DHT key,
and the highest number seen in the friend's key announcements. Data for a friend is encrypted twice: for its real key,
and for the key it announced.

A callback of a friend is the number it was registered with.
-/

namespace Toxcore

open ByteStrings

/-- `MAX_ONION_CLIENTS`. -/
abbrev maxOnionClients : ℕ := 8

/-- `ONION_NODE_TIMEOUT`, in seconds. -/
def onionNodeTimeout : UInt64 := 15 * 3

/-- `ONION_DATA_IN_RESPONSE_MIN_SIZE`. -/
abbrev onionDataInResponseMinSize : ℕ := 32 + macBytes

/-- `ONION_CLIENT_MAX_DATA_SIZE`. -/
abbrev onionClientMaxDataSize : ℕ := maxDataRequestSize - onionDataInResponseMinSize

/-- What `Onion_Node` says about a node that data is sent to. -/
structure OnionNode where
  publicKey : PublicKey
  ipPort : IpPort
  dataPublicKey : PublicKey
  isStored : Bool
  timestamp : UInt64

/-- A node cleared to zero bytes. -/
def OnionNode.zero : OnionNode := ⟨.zero, .zero, .zero, false, 0⟩

/-- `Onion_Friend`. -/
structure OnionFriend where
  status : Bool
  isOnline : Bool
  knowDhtPublicKey : Bool
  dhtPublicKey : PublicKey
  realPublicKey : PublicKey
  clientsList : Fin maxOnionClients → OnionNode
  lastNoreplay : UInt64
  lastSeen : UInt64
  tcpRelayNodeCallback : Option UInt32
  dhtPkCallback : Option UInt32
  runCount : UInt32

/-- A friend cleared to zero bytes. -/
def OnionFriend.zero : OnionFriend :=
  ⟨false, false, false, .zero, .zero, fun _ => .zero, 0, 0, none, none, 0⟩

/-- The friends, the temporary key pair and the registered handlers of an `Onion_Client`. The length of `friendsList` is
`num_friends`, a number of 16 bits. -/
structure OnionClient where
  friendsList : List OnionFriend
  tempPublicKey : PublicKey
  tempSecretKey : SecretKey
  onionDataHandlers : UInt8 → Option ℕ

/-! ## The list of friends -/

/-- `onion_friend_num`, `none` for -1. -/
def onionFriendNum (onionC : OnionClient) (publicKey : PublicKey) : Option ℕ :=
  onionC.friendsList.findIdx? fun friend => friend.status = true ∧ friend.realPublicKey = publicKey

/-- `onion_addfriend`. `alloc` is the outcome of the allocation. The number of friends wraps at 16 bits. -/
def onionAddfriend (alloc : Bool) (onionC : OnionClient) (publicKey : PublicKey) : Option ℕ × OnionClient :=
  match onionFriendNum onionC publicKey with
  | some num => (some num, onionC)
  | none =>
    match onionC.friendsList.findIdx? fun friend => friend.status = false with
    | some index =>
      (some index, { onionC with
        friendsList := onionC.friendsList.modify index fun friend =>
          { friend with status := true, realPublicKey := publicKey } })
    | none =>
      if !alloc then (none, onionC)
      else
        let friends := onionC.friendsList ++ [{ OnionFriend.zero with status := true, realPublicKey := publicKey }]
        (some onionC.friendsList.length, { onionC with friendsList := friends.take (friends.length % 2 ^ 16) })

/-- `onion_delfriend`: clear a friend and cut the free ones off the end of the list. -/
def onionDelfriend (onionC : OnionClient) (friendNum : ℕ) : OnionClient :=
  if friendNum ≥ onionC.friendsList.length then onionC
  else { onionC with
    friendsList := (onionC.friendsList.set friendNum .zero).rdropWhile fun friend => friend.status = false }

/-- `recv_tcp_relay_handler`. -/
def recvTcpRelayHandler (onionC : OnionClient) (friendNum : ℕ) (number : UInt32) : OnionClient :=
  { onionC with
    friendsList := onionC.friendsList.modify friendNum fun friend =>
      { friend with tcpRelayNodeCallback := some number } }

/-- `onion_dht_pk_callback`. -/
def onionDhtPkCallback (onionC : OnionClient) (friendNum : ℕ) (number : UInt32) : OnionClient :=
  { onionC with
    friendsList := onionC.friendsList.modify friendNum fun friend => { friend with dhtPkCallback := some number } }

/-- `onion_set_friend_DHT_pubkey` at the clock value `now`. -/
def onionSetFriendDhtPubkey (now : UInt64) (onionC : OnionClient) (friendNum : ℕ) (dhtKey : PublicKey) : OnionClient :=
  { onionC with
    friendsList := onionC.friendsList.modify friendNum fun friend =>
      if friend.status = false then friend
      else if friend.knowDhtPublicKey = true ∧ dhtKey = friend.dhtPublicKey then friend
      else { friend with lastSeen := now, knowDhtPublicKey := true, dhtPublicKey := dhtKey } }

/-- `onion_set_friend_online` at the clock value `now`. A friend that goes offline starts its numbers over. -/
def onionSetFriendOnline (now : UInt64) (onionC : OnionClient) (friendNum : ℕ) (isOnline : Bool) : OnionClient :=
  { onionC with
    friendsList := onionC.friendsList.modify friendNum fun friend =>
      { friend with
        lastSeen := if isOnline = false ∧ friend.isOnline = true then now else friend.lastSeen
        isOnline := isOnline
        lastNoreplay := if isOnline then friend.lastNoreplay else 0
        runCount := if isOnline then friend.runCount else 0 } }

/-! ## Data for friends -/

/-- What `send_onion_data` observes: the clock, a random nonce, and for each node the path that `random_path` finds
and the key pair that is drawn. -/
structure OnionDataEnv (sodium : Sodium) where
  unixTime : UInt64
  nonce : Nonce
  randomPath : ℕ → Option OnionPath
  keyPair : ℕ → KeyPair sodium

/-- The nodes of a friend that are not timed out. -/
def OnionFriend.listNodes (now : UInt64) (friend : OnionFriend) : List OnionNode :=
  (List.ofFn friend.clientsList).filter fun node => !isTimeout now node.timestamp onionNodeTimeout

/-- The array `packet` of `send_onion_data`: the own key, and the data for the real key of the friend. -/
def onionDataPacket (sodium : Sodium) (self : KeyPair sodium) (realPublicKey : PublicKey) (nonce : Nonce)
    (data : Bytes) :
    Option Bytes :=
  match encryptData sodium realPublicKey self.secretKey nonce data with
  | none => none
  | some encrypted =>
    if encrypted.length + 32 ≠ onionDataInResponseMinSize + data.length then none
    else some (self.publicKey.toList ++ encrypted)

/-- `send_onion_data`: the requests it hands to `send_onion_packet_tcp_udp`, each with its path and destination. -/
def sendOnionData (sodium : Sodium) (env : OnionDataEnv sodium) (onionC : OnionClient) (self : KeyPair sodium)
    (friendNum : ℕ) (data : Bytes) : Option (List (OnionPath × IpPort × Bytes)) :=
  match onionC.friendsList[friendNum]? with
  | none => none
  | some friend =>
    if data.length + onionDataInResponseMinSize > maxDataRequestSize then none
    else if data.length = 0 then none
    else
      let listNodes := friend.listNodes env.unixTime
      let goodNodes := listNodes.filter OnionNode.isStored
      if goodNodes.length < listNodes.length / 4 + 1 then none
      else
        (onionDataPacket sodium self friend.realPublicKey env.nonce data).map fun packet =>
          goodNodes.zipIdx.filterMap fun (node, i) =>
            (env.randomPath i).bind fun path =>
              (createDataRequest sodium (env.keyPair i) onionMaxPacketSize friend.realPublicKey node.dataPublicKey
                env.nonce packet).map fun request => (path, node.ipPort, request)

/-- A call of a handler registered for onion data: the object it was registered with, the key of the sender, the
data. -/
structure OnionDataCall where
  object : ℕ
  sourcePubkey : PublicKey
  data : Bytes

/-- `handle_data_response`: the handler it calls. -/
def handleDataResponse (sodium : Sodium) (onionC : OnionClient) (selfSecretKey : SecretKey) (packet : Bytes) :
    Option OnionDataCall :=
  if packet.length ≤ onionDataResponseMinSize + onionDataInResponseMinSize then none
  else if packet.length > maxDataRequestSize then none
  else
    (decryptData sodium (slice 32 packet 25) onionC.tempSecretKey (slice 24 packet 1) (packet.drop 57)).bind
      fun tempPlain =>
        if tempPlain.length ≠ packet.length - onionDataResponseMinSize then none
        else
          (decryptData sodium (slice 32 tempPlain 0) selfSecretKey (slice 24 packet 1) (tempPlain.drop 32)).bind
            fun plain =>
              if plain.length ≠ tempPlain.length - onionDataInResponseMinSize then none
              else (onionC.onionDataHandlers (plain.headD 0)).map fun object => ⟨object, slice 32 tempPlain 0, plain⟩

end Toxcore
