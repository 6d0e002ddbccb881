import Toxcore.DHT.CloseNodes
import Toxcore.DHT.SavedState
import Toxcore.NetCrypto.Handshake
import Toxcore.PingArray

/-!
# Asking nodes

A node asks others in two ways: with a ping request, and with a get nodes request that may name a third node the
answer is passed on to. What was asked is kept in three ping arrays, as the bytes of a `Node_format`, and an answer
has to carry the id of such an entry, come from its address and be encrypted with the key of its node. A get nodes
request is looked up in the array of plain requests first, and in the one of requests for a third node if nothing of
the right size was found there; the entry that was found is gone, whatever follows.

The handlers return what they send and which other functions they call; what these do to the lists is modelled
elsewhere.
-/

namespace Toxcore

open ByteStrings

/-! ## Stored nodes -/

/-- `PING_TIMEOUT`. -/
def pingTimeout : UInt32 := 5

/-- `DHT_PING_ARRAY_SIZE`, and `PING_NUM_MAX` of `ping.c`. -/
def dhtPingArraySize : UInt32 := 512

/-- `NET_PACKET_PING_REQUEST`. -/
def netPacketPingRequest : UInt8 := 0

/-- `NET_PACKET_PING_RESPONSE`. -/
def netPacketPingResponse : UInt8 := 1

/-- `NET_PACKET_GET_NODES`. -/
def netPacketGetNodes : UInt8 := 2

/-- `NET_PACKET_SEND_NODES_IPV6`. -/
def netPacketSendNodesIpv6 : UInt8 := 4

/-- The bytes of a `Node_format`. -/
def NodeFormat.stored (node : NodeFormat) : Bytes := node.publicKey.toList ++ node.ipPort.stored

/-- The address in the bytes of an `IP_Port`. -/
def IpPort.ofStored (bytes : Bytes) : IpPort where
  ip := ⟨bytes.getD 0 0, slice 7 bytes 1, slice 16 bytes 8⟩
  port := UInt16.ofNat (beNat (slice 2 bytes 24).toList)
  padding := slice 6 bytes 26

/-- The node in the bytes of a `Node_format`. -/
def NodeFormat.ofStored (bytes : Bytes) : NodeFormat := ⟨slice 32 bytes 0, IpPort.ofStored (bytes.drop 32)⟩

theorem NodeFormat.stored_length (node : NodeFormat) : node.stored.length = sizeofNodeFormat := by
  rw [stored, List.length_append, node.publicKey.toList_length, node.ipPort.stored_length]

theorem IpPort.ofStored_stored (ipPort : IpPort) (rest : Bytes) : IpPort.ofStored (ipPort.stored ++ rest) = ipPort := by
  obtain ⟨⟨family, padding, bytes⟩, port, padding'⟩ := ipPort
  have hport : UInt16.ofNat (beNat (beBlock 2 port.toNat).toList) = port := by
    rw [beBlock_toList, beNat_beBytes_of_lt port.toNat_lt, UInt16.ofNat_toNat]
  simp only [stored, ofStored, List.cons_append, List.append_assoc, List.getD_cons_zero, IpPort.mk.injEq, Ip.mk.injEq,
    true_and, ← beBlock_toList]
  refine ⟨⟨?_, ?_⟩, ?_, ?_⟩
  · rw [slice_cons, slice_block]
  · rw [slice_cons, slice_at _ _ _ padding.toList_length]
  · rw [slice_cons, show 23 = 7 + 16 from rfl, slice_skip, slice_at _ _ _ bytes.toList_length, hport]
  · rw [slice_cons, show 25 = 7 + (16 + 2) from rfl, slice_skip, slice_skip,
      slice_at _ _ _ (List.Vector.toList_length _)]

/-- A stored node is read back, whatever stands behind it. -/
theorem NodeFormat.ofStored_stored (node : NodeFormat) (rest : Bytes) :
    NodeFormat.ofStored (node.stored ++ rest) = node := by
  rw [ofStored, stored, List.append_assoc, slice_block, List.drop_left' node.publicKey.toList_length,
    IpPort.ofStored_stored]

/-! ## The node -/

/-- The part of a `DHT` and its `PING` that requests and answers use. -/
structure DhtNode where
  dht : Dht
  selfSecretKey : SecretKey
  sharedKeysRecv : SharedKeys
  sharedKeysSent : SharedKeys
  dhtPingArray : PingArray
  dhtHardenPingArray : PingArray
  pingArray : PingArray

/-- What a call gets from outside: the clock, a random number, whether the allocation succeeds, and a new nonce. -/
structure DhtDraw where
  now : UInt64
  rand : UInt64
  alloc : Bool
  nonce : Nonce

/-- The own public key. -/
abbrev DhtNode.selfPublicKey (node : DhtNode) : PublicKey := node.dht.selfPublicKey

/-- `DHT_get_shared_key_sent`. -/
def DhtNode.getSharedKeySent (node : DhtNode) (sodium : Sodium) (now : UInt64)
    (publicKey : PublicKey) : SharedKey × DhtNode :=
  let (sharedKey, keys) := getSharedKey sodium now node.sharedKeysSent node.selfSecretKey publicKey
  (sharedKey, { node with sharedKeysSent := keys })

/-- `DHT_get_shared_key_recv`. -/
def DhtNode.getSharedKeyRecv (node : DhtNode) (sodium : Sodium) (now : UInt64)
    (publicKey : PublicKey) : SharedKey × DhtNode :=
  let (sharedKey, keys) := getSharedKey sodium now node.sharedKeysRecv node.selfSecretKey publicKey
  (sharedKey, { node with sharedKeysRecv := keys })

/-- The bytes that are kept of a request. -/
def askedData (receiver : NodeFormat) : PingData :=
  ⟨receiver.stored, by rw [receiver.stored_length]; norm_num⟩

/-- The bytes that are kept of a request for a third node. -/
def askedForData (receiver sendbackNode : NodeFormat) : PingData :=
  ⟨receiver.stored ++
    sendbackNode.stored, by rw [List.length_append, receiver.stored_length, sendbackNode.stored_length]; norm_num⟩

/-! ## Pings -/

/-- `DHT_PING_SIZE`. -/
abbrev dhtPingSize : ℕ := 1 + 32 + 24 + (1 + 8) + macBytes

/-- `send_ping_request`: the packet that is sent. -/
def sendPingRequest (sodium : Sodium) (draw : DhtDraw) (node : DhtNode) (ipp : IpPort) (publicKey : PublicKey) :
    Option Bytes × DhtNode :=
  if publicKey = node.selfPublicKey then (none, node)
  else
    let (sharedKey, node) := node.getSharedKeySent sodium draw.now publicKey
    let (pingId, pings) := pingArrayAdd draw.now draw.rand draw.alloc node.pingArray (askedData ⟨publicKey, ipp⟩)
    let node := { node with pingArray := pings }
    if pingId = 0 then (none, node)
    else
      match encryptDataSymmetric sodium sharedKey draw.nonce (netPacketPingRequest :: (hostBytes pingId).toList) with
      | none => (none, node)
      | some encrypt =>
        (some (netPacketPingRequest :: (node.selfPublicKey.toList ++ (draw.nonce.toList ++ encrypt))), node)

/-- A call of `addto_lists`, with the id that the answer carried. -/
structure AddtoCall where
  ipPort : IpPort
  publicKey : PublicKey
  pingId : UInt64
  deriving DecidableEq

/-- The tests of `handle_ping_response` on the outcome of its lookup. -/
def pingChecked (node : DhtNode) (source : IpPort) (publicKey : PublicKey) (pingId : UInt64) (check : PingCheck) :
    Option AddtoCall × DhtNode :=
  let node := { node with pingArray := check.array }
  if check.result ≠ Int32.ofNat sizeofNodeFormat then (none, node)
  else
    let asked := NodeFormat.ofStored (check.copied.getD [])
    if publicKey ≠ asked.publicKey then (none, node)
    else if !ipportEqual asked.ipPort source then (none, node)
    else (some ⟨source, publicKey, pingId⟩, node)

/-- `handle_ping_response`: the call of `addto_lists` where it returns 0. -/
def handlePingResponse (sodium : Sodium) (now : UInt64) (node : DhtNode) (source : IpPort) (packet : Bytes) :
    Option AddtoCall × DhtNode :=
  let publicKey := slice 32 packet 1
  if packet.length ≠ dhtPingSize then (none, node)
  else if publicKey = node.selfPublicKey then (none, node)
  else
    let (sharedKey, node) := node.getSharedKeySent sodium now publicKey
    match decryptDataSymmetric sodium sharedKey (slice 24 packet 33) (packet.drop 57) with
    | none => (none, node)
    | some pingPlain =>
      if pingPlain.getD 0 0 ≠ netPacketPingResponse then (none, node)
      else
        let pingId := ofHostBytes (slice 8 pingPlain 1)
        pingChecked node source publicKey pingId
          (pingArrayCheck now (UInt32.ofNat sizeofNodeFormat) node.pingArray pingId)

/-! ## Get nodes requests -/

/-- The part of `getnodes` behind the add. -/
def sendGetnodes (sodium : Sodium) (draw : DhtDraw) (node : DhtNode) (publicKey clientId : PublicKey)
    (pingId : UInt64) :
    Option Bytes × DhtNode :=
  if pingId = 0 then (none, node)
  else
    let (sharedKey, node) := node.getSharedKeySent sodium draw.now publicKey
    match encryptDataSymmetric sodium sharedKey draw.nonce (clientId.toList ++ (hostBytes pingId).toList) with
    | none => (none, node)
    | some encrypt => (some (netPacketGetNodes :: (node.selfPublicKey.toList ++ (draw.nonce.toList ++ encrypt))), node)

/-- `getnodes`: the packet that is sent. -/
def getnodes (sodium : Sodium) (draw : DhtDraw) (node : DhtNode) (ipPort : IpPort) (publicKey clientId : PublicKey)
    (sendbackNode : Option NodeFormat) : Option Bytes × DhtNode :=
  if publicKey = node.selfPublicKey then (none, node)
  else
    let receiver : NodeFormat := ⟨publicKey, ipPort⟩
    match sendbackNode with
    | some sendbackNode =>
      let (pingId, pings) :=
        pingArrayAdd draw.now draw.rand draw.alloc node.dhtHardenPingArray (askedForData receiver sendbackNode)
      sendGetnodes sodium draw { node with dhtHardenPingArray := pings } publicKey clientId pingId
    | none =>
      let (pingId, pings) := pingArrayAdd draw.now draw.rand draw.alloc node.dhtPingArray (askedData receiver)
      sendGetnodes sodium draw { node with dhtPingArray := pings } publicKey clientId pingId

/-- The packed nodes of `sendnodes_ipv6`. -/
def packFound (found : NodesFound) : Option Bytes :=
  if found.numNodes = 0 then some []
  else
    match packNodes (UInt16.ofNat (sizeofNodeFormat * maxSentNodes)) found.nodesList (UInt16.ofNat found.numNodes) with
    | (none, _) => none
    | (some nodesLength, written) => if nodesLength = 0 then none else some (written.take nodesLength)

/-- `sendnodes_ipv6`: the packet that is sent. -/
def sendnodesIpv6 (sodium : Sodium) (draw : DhtDraw) (node : DhtNode) (ipPort : IpPort) (publicKey clientId : PublicKey)
    (sendbackData : Bytes) (sharedEncryptionKey : SharedKey) : Option Bytes :=
  if publicKey = node.selfPublicKey then none
  else if sendbackData.length ≠ 8 then none
  else
    let found := getCloseNodes draw.now clientId 0 (lanIp ipPort.ip) node.dht true
    (packFound found).bind fun nodesData =>
      (encryptDataSymmetric sodium sharedEncryptionKey draw.nonce
        (UInt8.ofNat found.numNodes :: (nodesData ++ sendbackData))).map fun encrypt =>
          netPacketSendNodesIpv6 :: (node.selfPublicKey.toList ++ (draw.nonce.toList ++ encrypt))

/-- What `handle_getnodes` sends, and its call of `add_to_ping`. -/
structure GetnodesAnswer where
  sent : Option Bytes
  addToPing : PublicKey × IpPort
  deriving DecidableEq

/-- `handle_getnodes`, `none` where it returns 1. -/
def handleGetnodes (sodium : Sodium) (draw : DhtDraw) (node : DhtNode) (source : IpPort) (packet : Bytes) :
    Option GetnodesAnswer × DhtNode :=
  let publicKey := slice 32 packet 1
  if packet.length ≠ 1 + 32 + 24 + 32 + 8 + macBytes then (none, node)
  else if publicKey = node.selfPublicKey then (none, node)
  else
    let (sharedKey, node) := node.getSharedKeyRecv sodium draw.now publicKey
    match decryptDataSymmetric sodium sharedKey (slice 24 packet 33) (packet.drop 57) with
    | none => (none, node)
    | some plain =>
      (some ⟨sendnodesIpv6 sodium draw node source publicKey (slice 32 plain 0) (plain.drop 32) sharedKey,
        (publicKey, source)⟩, node)

/-! ## Answers with nodes -/

/-- The test of `sent_getnode_to_node` on the data that was found. -/
def testAsked (publicKey : PublicKey) (nodeIpPort : IpPort) (data : Bytes)
    (sendbackNode : NodeFormat) : Option NodeFormat :=
  let asked := NodeFormat.ofStored data
  if !ipportEqual asked.ipPort nodeIpPort ∨ asked.publicKey ≠ publicKey then none else some sendbackNode

/-- `sent_getnode_to_node` with the outcomes of its two lookups. The second one is made only where the first one does
not find a plain request. -/
def getnodeChecked (node : DhtNode) (publicKey : PublicKey) (nodeIpPort : IpPort) (plain harden : PingCheck) :
    Option NodeFormat × DhtNode :=
  let node := { node with dhtPingArray := plain.array }
  if plain.result = Int32.ofNat sizeofNodeFormat then
    (testAsked publicKey nodeIpPort (plain.copied.getD []) .zero, node)
  else
    let node := { node with dhtHardenPingArray := harden.array }
    if harden.result = Int32.ofNat (sizeofNodeFormat * 2) then
      (testAsked publicKey nodeIpPort (harden.copied.getD [])
        (NodeFormat.ofStored ((harden.copied.getD []).drop sizeofNodeFormat)), node)
    else (none, node)

/-- `sent_getnode_to_node`: the node to pass the answer on to, zero for none. -/
def sentGetnodeToNode (now : UInt64) (node : DhtNode) (publicKey : PublicKey) (nodeIpPort : IpPort) (pingId : UInt64) :
    Option NodeFormat × DhtNode :=
  getnodeChecked node publicKey nodeIpPort
    (pingArrayCheck now (UInt32.ofNat (sizeofNodeFormat * 2)) node.dhtPingArray pingId)
    (pingArrayCheck now (UInt32.ofNat (sizeofNodeFormat * 2)) node.dhtHardenPingArray pingId)

/-- What `handle_sendnodes_core` yields where it returns 0: its call of `addto_lists`, the nodes, and the call of
`send_hardening_getnode_res`. -/
structure SendnodesAccepted where
  addto : AddtoCall
  plainNodes : List NodeFormat
  hardening : NodeFormat × PublicKey × Bytes
  deriving DecidableEq

/-- The checks of `handle_sendnodes_core` that follow the lookup. -/
def acceptNodes (array : ℕ → NodeFormat) (source : IpPort) (publicKey : PublicKey) (plain : Bytes) (dataSize : ℕ)
    (pingId : UInt64) (sendbackNode : NodeFormat) : Option SendnodesAccepted :=
  match unpackNodes array (plain.getD 0 0).toUInt16 (plain.drop 1) (UInt16.ofNat dataSize) false with
  | some (some (plainNodes, lengthNodes)) =>
    if lengthNodes ≠ dataSize then none
    else if plainNodes.length ≠ (plain.getD 0 0).toNat then none
    else some ⟨⟨source, publicKey, pingId⟩, plainNodes, sendbackNode, publicKey, (plain.drop 1).take dataSize⟩
  | _ => none

/-- `handle_sendnodes_core`, `none` where it returns 1. `array` is the array of nodes of the caller before the call. -/
def handleSendnodesCore (sodium : Sodium) (now : UInt64) (node : DhtNode) (source : IpPort) (packet : Bytes)
    (array : ℕ → NodeFormat) (sizePlainNodes : UInt16) : Option SendnodesAccepted × DhtNode :=
  let cidSize := 1 + 32 + 24 + 1 + 8 + macBytes
  let publicKey := slice 32 packet 1
  if packet.length < cidSize then (none, node)
  else
    let dataSize := packet.length - cidSize
    if dataSize = 0 then (none, node)
    else if dataSize > sizeofNodeFormat * maxSentNodes then (none, node)
    else
      let (sharedKey, node) := node.getSharedKeySent sodium now publicKey
      match decryptDataSymmetric sodium sharedKey (slice 24 packet 33) (packet.drop 57) with
      | none => (none, node)
      | some plain =>
        if (plain.getD 0 0).toUInt16 > sizePlainNodes then (none, node)
        else
          let pingId := ofHostBytes (slice 8 plain (1 + dataSize))
          match sentGetnodeToNode now node publicKey source pingId with
          | (none, node) => (none, node)
          | (some sendbackNode, node) => (acceptNodes array source publicKey plain dataSize pingId sendbackNode, node)

/-! ## The arrays of requests -/

/-- A check fails and changes nothing, or it finds the entry in the slot of the id, which is gone afterwards. -/
theorem pingArrayCheck_cases (now : UInt64) (length : UInt32) (array : PingArray) (pingId : UInt64) :
    pingArrayCheck now length array pingId = ⟨-1, none, array⟩ ∨
      ∃ data, (array.entries (slotOf array.totalSize pingId)).data = some data ∧
        (array.entries (slotOf array.totalSize pingId)).pingId = pingId ∧
        isTimeout now (array.entries (slotOf array.totalSize pingId)).time array.timeout.toUInt64 = false ∧
        pingArrayCheck now length array pingId =
          ⟨(array.entries (slotOf array.totalSize pingId)).length.toInt32, some data,
            clearEntry array (slotOf array.totalSize pingId)⟩ := by
  rw [pingArrayCheck]
  rw [show (pingId % array.totalSize.toUInt64).toNat = slotOf array.totalSize pingId from rfl]
  split
  · exact Or.inl rfl
  split
  · exact Or.inl rfl
  rename_i hid
  split
  · exact Or.inl rfl
  rename_i htimeout
  split
  · exact Or.inl rfl
  split
  · exact Or.inl rfl
  · rename_i data hdata
    exact Or.inr ⟨data, hdata, not_not.mp hid, Bool.eq_false_iff.mpr htimeout, rfl⟩

/-- A cleared entry holds no data. -/
theorem clearEntry_data (array : PingArray) (index : ℕ) : ((clearEntry array index).entries index).data = none := by
  simp [clearEntry, PingArrayEntry.empty]

/-- An add whose allocation fails returns no id. -/
theorem pingArrayAdd_failed (now rand : UInt64) (array : PingArray) (data : PingData) :
    (pingArrayAdd now rand false array data).1 = 0 := rfl

/-- What an array holds after an add was there before, or is the entry of the add. -/
theorem pingArrayAdd_entry {array : PingArray} (hsize : PowerOfTwo array.totalSize) (now rand : UInt64) (alloc : Bool)
    (data : PingData) {i : ℕ} (hdata : ((pingArrayAdd now rand alloc array data).2.entries i).data ≠ none) :
    (pingArrayAdd now rand alloc array data).2.entries i = array.entries i ∨
      (pingArrayAdd now rand alloc array data).1 ≠ 0 ∧
        slotOf array.totalSize (pingArrayAdd now rand alloc array data).1 = i ∧
        (pingArrayAdd now rand alloc array data).2.entries i =
          PingRecord.entry ⟨(pingArrayAdd now rand alloc array data).1, data, now⟩ := by
  have heffect := LoggedPings.pingArrayAdd_effect now rand alloc array data
  have hindex : (array.lastAdded % array.totalSize).toNat < array.totalSize.toNat := by
    rw [UInt32.toNat_mod]
    exact Nat.mod_lt _ hsize.pos
  obtain ⟨hnonzero, hslot⟩ := newPingId_spec hsize rand hindex
  by_cases hi : i = (array.lastAdded % array.totalSize).toNat
  · subst hi
    cases alloc with
    | true =>
      obtain ⟨hid, hentry⟩ := heffect.added rfl
      rw [← hid] at hnonzero hslot
      exact Or.inr ⟨hnonzero, hslot, hentry⟩
    | false =>
      rcases heffect.failed rfl with hempty | ⟨hsame, -⟩
      · exact absurd (by rw [hempty]; rfl) hdata
      · exact Or.inl hsame
  · rcases heffect.others i hi with hsame | ⟨hempty, -⟩
    · exact Or.inl hsame
    · exact absurd (by rw [hempty]; rfl) hdata

/-- The entry of an add that returned an id. -/
theorem pingArrayAdd_issued {array : PingArray} (hsize : PowerOfTwo array.totalSize) {now rand : UInt64} {alloc : Bool}
    {data : PingData} (hid : (pingArrayAdd now rand alloc array data).1 ≠ 0) :
    (pingArrayAdd now rand alloc array data).2.entries
        (slotOf array.totalSize (pingArrayAdd now rand alloc array data).1) =
      PingRecord.entry ⟨(pingArrayAdd now rand alloc array data).1, data, now⟩ := by
  have heffect := LoggedPings.pingArrayAdd_effect now rand alloc array data
  have hindex : (array.lastAdded % array.totalSize).toNat < array.totalSize.toNat := by
    rw [UInt32.toNat_mod]
    exact Nat.mod_lt _ hsize.pos
  obtain ⟨-, hslot⟩ := newPingId_spec hsize rand hindex
  cases alloc with
  | true =>
    obtain ⟨hnew, hentry⟩ := heffect.added rfl
    rw [hnew, hslot, hentry, hnew]
  | false => exact absurd (pingArrayAdd_failed now rand array data) hid

/-- A check finds an entry that is not timed out. -/
theorem pingArrayCheck_entry {now : UInt64} {array : PingArray} {record : PingRecord} (hid : record.pingId ≠ 0)
    (hentry : array.entries (slotOf array.totalSize record.pingId) = record.entry)
    (htime : isTimeout now record.time array.timeout.toUInt64 = false) {length : UInt32}
    (hlength : record.data.length ≤ length) :
    pingArrayCheck now length array record.pingId =
      ⟨record.data.length.toInt32, some record.data.val, clearEntry array (slotOf array.totalSize record.pingId)⟩ := by
  have hslot : array.entries (record.pingId % array.totalSize.toUInt64).toNat = record.entry := hentry
  rw [pingArrayCheck, hslot, if_neg hid, if_neg (show ¬record.entry.pingId ≠ record.pingId from not_not_intro rfl),
    if_neg (by rw [show record.entry.time = record.time from rfl, htime]; simp),
    if_neg (show ¬record.entry.length > length from UInt32.not_lt.mpr hlength)]
  rfl

/-- The three kinds of requests. -/
inductive AskKind where
  | ping
  | plain
  | harden
  deriving DecidableEq

/-- The array of a kind of requests. -/
def DhtNode.pings (node : DhtNode) : AskKind → PingArray
  | .ping => node.pingArray
  | .plain => node.dhtPingArray
  | .harden => node.dhtHardenPingArray

/-- Nothing is added to an array. -/
structure PingArray.Forgets (array array' : PingArray) : Prop where
  size : array'.totalSize = array.totalSize
  timeout : array'.timeout = array.timeout
  entries : ∀ i, (array'.entries i).data ≠ none → array'.entries i = array.entries i

theorem PingArray.Forgets.refl (array : PingArray) : array.Forgets array := ⟨rfl, rfl, fun _ _ => rfl⟩

/-- Nothing is added to the arrays of a node. -/
def DhtNode.Forgets (node node' : DhtNode) : Prop := ∀ kind, (node.pings kind).Forgets (node'.pings kind)

theorem DhtNode.Forgets.refl (node : DhtNode) : node.Forgets node := fun _ => .refl _

theorem DhtNode.Forgets.of_arrays {node node' : DhtNode} (hping : node.pingArray.Forgets node'.pingArray)
    (hplain : node.dhtPingArray.Forgets node'.dhtPingArray)
    (hharden : node.dhtHardenPingArray.Forgets node'.dhtHardenPingArray) : node.Forgets node'
  | .ping => hping
  | .plain => hplain
  | .harden => hharden

/-- A check adds nothing. -/
theorem pingArrayCheck_forgets (now : UInt64) (length : UInt32) (array : PingArray) (pingId : UInt64) :
    array.Forgets (pingArrayCheck now length array pingId).array := by
  rcases pingArrayCheck_cases now length array pingId with hnone | ⟨data, -, -, -, hcheck⟩
  · rw [hnone]
    exact ⟨rfl, rfl, fun _ _ => rfl⟩
  · rw [hcheck]
    refine ⟨rfl, rfl, fun i hdata => ?_⟩
    by_cases hi : i = slotOf array.totalSize pingId
    · rw [hi] at hdata
      exact absurd (clearEntry_data array _) hdata
    · exact Function.update_of_ne hi ..

end Toxcore
