import Toxcore.DHT.Friends

/-!
# Requests that are relayed

`create_request` encrypts a request for a key, and `handle_request` opens it. A node that gets a request for another
key sends it on to the node with that key in its close list, as it is; so whatever nodes a request passes, the one it
is for handles what was asked, by the one that asked, and no other node handles it.
-/

namespace Toxcore

open ByteStrings List

/-- `NET_PACKET_CRYPTO`. -/
def netPacketCrypto : UInt8 := 32

/-- `MAX_CRYPTO_REQUEST_SIZE`. -/
abbrev maxCryptoRequestSize : ℕ := 1024

section Requests

variable (sodium : Sodium)

/-- `create_request`, with the nonce that is drawn. -/
def createRequest (sendPublicKey : PublicKey) (sendSecretKey : SecretKey) (nonce : Nonce) (recvPublicKey : PublicKey)
    (data : Bytes) (requestId : UInt8) : Option Bytes :=
  if maxCryptoRequestSize < data.length + 1 + 32 * 2 + 24 + 1 + macBytes then none
  else
    (encryptData sodium recvPublicKey sendSecretKey nonce (requestId :: data)).map fun encrypted =>
      netPacketCrypto :: (recvPublicKey.toList ++ (sendPublicKey.toList ++ (nonce.toList ++ encrypted)))

/-- `handle_request`: the key of the sender, the id of the request and its data. -/
def handleRequest (selfPublicKey : PublicKey) (selfSecretKey : SecretKey) (packet : Bytes) :
    Option (PublicKey × UInt8 × Bytes) :=
  if packet.length ≤ 32 * 2 + 24 + 1 + macBytes ∨ packet.length > maxCryptoRequestSize then none
  else if slice 32 packet 1 ≠ selfPublicKey then none
  else
    let publicKey : PublicKey := slice 32 packet (1 + 32)
    match decryptData sodium publicKey selfSecretKey (slice 24 packet (1 + 32 * 2)) (packet.drop (1 + 32 * 2 + 24)) with
    | none => none
    | some [] => none
    | some (requestId :: data) => some (publicKey, requestId, data)

/-- `route_packet`: the address that a packet for a key is sent to. -/
def routePacket (dht : Dht) (publicKey : PublicKey) : Option IpPort :=
  ((List.ofFn dht.closeClientlist).find? fun client => client.publicKey = publicKey).bind fun client =>
    if ipIsset client.assoc6.ipPort.ip then some client.assoc6.ipPort
    else if ipIsset client.assoc4.ipPort.ip then some client.assoc4.ipPort
    else none

/-- A `DHT` with its secret key, and the requests that a handler is registered for. -/
structure CryptoNode where
  dht : Dht
  selfSecretKey : SecretKey
  cryptopackethandlers : UInt8 → Bool

/-- What a node does with a packet that it does not drop: call the handler of a request, or send the packet on. -/
inductive CryptoAction where
  | handle (publicKey : PublicKey) (number : UInt8) (data : Bytes)
  | route (ipPort : IpPort)

/-- `cryptopacket_handle`. -/
def cryptopacketHandle (node : CryptoNode) (packet : Bytes) : Option CryptoAction :=
  if packet.head? ≠ some netPacketCrypto then none
  else if packet.length ≤ 32 * 2 + 24 + 1 + macBytes ∨ packet.length > maxCryptoRequestSize + macBytes then none
  else if slice 32 packet 1 = node.dht.selfPublicKey then
    match handleRequest sodium node.dht.selfPublicKey node.selfSecretKey packet with
    | none => none
    | some (publicKey, number, data) =>
      if data.length = 0 then none
      else if node.cryptopackethandlers number = false then none
      else some (.handle publicKey number data)
  else (routePacket node.dht (slice 32 packet 1)).map .route

end Requests

/-! ## What is created is handled -/

/-- The parts of a request. -/
def requestFormat (receiver sender : PublicKey) (nonce : Nonce) (encrypted : Bytes) : Bytes :=
  netPacketCrypto :: (receiver.toList ++ (sender.toList ++ (nonce.toList ++ encrypted)))

section Format

variable (receiver sender : PublicKey) (nonce : Nonce) (encrypted : Bytes)

theorem requestFormat_length : (requestFormat receiver sender nonce encrypted).length = 89 + encrypted.length := by
  simp only [requestFormat, length_cons, length_append, List.Vector.toList_length]
  omega

theorem requestFormat_head : (requestFormat receiver sender nonce encrypted).head? = some netPacketCrypto := rfl

theorem requestFormat_receiver : slice 32 (requestFormat receiver sender nonce encrypted) 1 = receiver :=
  slice_at [netPacketCrypto] receiver _ rfl

theorem requestFormat_sender : slice 32 (requestFormat receiver sender nonce encrypted) (1 + 32) = sender :=
  slice_at (netPacketCrypto :: receiver.toList) sender _ (by simp)

theorem requestFormat_nonce : slice 24 (requestFormat receiver sender nonce encrypted) (1 + 32 * 2) = nonce := by
  have hfront : (netPacketCrypto :: (receiver.toList ++ sender.toList)).length = 1 + 32 * 2 := by simp
  have h := slice_at _ nonce encrypted hfront
  rw [cons_append, append_assoc] at h
  exact h

theorem requestFormat_encrypted :
    (requestFormat receiver sender nonce encrypted).drop (1 + 32 * 2 + 24) = encrypted := by
  have hfront :
    (netPacketCrypto :: (receiver.toList ++ (sender.toList ++ nonce.toList))).length = 1 + 32 * 2 + 24 := by simp
  have h : (netPacketCrypto :: (receiver.toList ++ (sender.toList ++ nonce.toList)) ++ encrypted).drop (1 + 32 *
    2 + 24) =
    encrypted := drop_left' hfront
  simp only [cons_append, append_assoc] at h
  exact h

end Format

section Created

variable {sodium : Sodium} {sendSecretKey : SecretKey} {nonce : Nonce} {receiver : PublicKey} {data packet : Bytes}
  {requestId : UInt8}

/-- A request that is created has the parts of one, with what the receiver opens at the end. -/
theorem createRequest_some (hsodium : sodium.Lawful) {sender : PublicKey}
    (h : createRequest sodium sender sendSecretKey nonce receiver data requestId = some packet) :
    packet.length = data.length + 106 ∧ packet.length ≤ maxCryptoRequestSize ∧ ∃ encrypted,
      packet = requestFormat receiver sender nonce encrypted ∧
        decryptDataSymmetric sodium (sodium.beforenm receiver sendSecretKey) nonce encrypted =
          some (requestId :: data) := by
  have hmac : macBytes = 16 := rfl
  rw [createRequest] at h
  split at h
  · contradiction
  rename_i hsize
  obtain ⟨encrypted, hencrypt, rfl⟩ := Option.map_eq_some_iff.mp h
  obtain ⟨encrypted', hencrypt', hlength, hdecrypt⟩ :=
    hsodium.encrypt_decrypt (sodium.beforenm receiver sendSecretKey) nonce (show (requestId :: data).length ≠
      0 from Nat.succ_ne_zero _)
  rw [encryptData, hencrypt'] at hencrypt
  obtain rfl := Option.some.inj hencrypt
  rw [length_cons] at hlength
  have htotal := requestFormat_length receiver sender nonce encrypted'
  change (requestFormat receiver sender nonce encrypted').length = _ ∧
    (requestFormat receiver sender nonce encrypted').length ≤ _ ∧ _
  exact ⟨by omega, by omega, encrypted', rfl, hdecrypt⟩

/-- The size up to which a request is created. -/
theorem createRequest_isSome (hsodium : sodium.Lawful) (sender : PublicKey) (sendSecretKey : SecretKey)
    (nonce : Nonce) (receiver : PublicKey) (requestId : UInt8) (hsize : data.length + 106 ≤ maxCryptoRequestSize) :
    ∃ packet, createRequest sodium sender sendSecretKey nonce receiver data requestId = some packet := by
  have hmac : macBytes = 16 := rfl
  obtain ⟨encrypted, hencrypt, -, -⟩ :=
    hsodium.encrypt_decrypt (sodium.beforenm receiver sendSecretKey) nonce (show (requestId :: data).length ≠
      0 from Nat.succ_ne_zero _)
  rw [createRequest, if_neg (by omega), encryptData, hencrypt]
  exact ⟨_, rfl⟩

/-- The receiver of a request opens it. -/
theorem handleRequest_created (hsodium : sodium.Lawful) {recvSecretKey : SecretKey}
    (h : createRequest sodium (sodium.scalarmultBase sendSecretKey) sendSecretKey nonce
      (sodium.scalarmultBase recvSecretKey) data
      requestId = some packet) :
    handleRequest sodium (sodium.scalarmultBase recvSecretKey) recvSecretKey packet =
      some (sodium.scalarmultBase sendSecretKey, requestId, data) := by
  obtain ⟨hlength, hsmall, encrypted, rfl, hdecrypt⟩ := createRequest_some hsodium h
  have hmac : macBytes = 16 := rfl
  rw [hsodium.beforenm_comm] at hdecrypt
  rw [handleRequest, if_neg (by omega), if_neg (not_not_intro (requestFormat_receiver _ _ _ _))]
  dsimp only
  rw [requestFormat_sender, requestFormat_nonce, requestFormat_encrypted, decryptData, hdecrypt]

/-- A node whose keys are a pair. -/
def CryptoNode.Keyed (sodium : Sodium) (node : CryptoNode) : Prop :=
  node.dht.selfPublicKey = sodium.scalarmultBase node.selfSecretKey

/-- What a node does with a request for another one. -/
theorem cryptopacketHandle_route (hsodium : sodium.Lawful) {sender : PublicKey}
    (h : createRequest sodium sender sendSecretKey nonce receiver data requestId = some packet) {node : CryptoNode}
    (hother : node.dht.selfPublicKey ≠ receiver) :
    cryptopacketHandle sodium node packet = (routePacket node.dht receiver).map .route := by
  obtain ⟨hlength, hsmall, encrypted, rfl, -⟩ := createRequest_some hsodium h
  have hmac : macBytes = 16 := rfl
  rw [cryptopacketHandle, if_neg (not_not_intro (requestFormat_head _ _ _ _)), if_neg (by omega),
    requestFormat_receiver,
    if_neg hother.symm]

/-- What the node does that a request is for. -/
theorem cryptopacketHandle_handle (hsodium : sodium.Lawful) {node : CryptoNode} (hnode : node.Keyed sodium)
    (h : createRequest sodium (sodium.scalarmultBase sendSecretKey) sendSecretKey nonce node.dht.selfPublicKey data
      requestId =
      some packet) :
    cryptopacketHandle sodium node packet =
      if data.length = 0 then none
      else if node.cryptopackethandlers requestId = false then none
      else some (.handle (sodium.scalarmultBase sendSecretKey) requestId data) := by
  have hopened : handleRequest sodium node.dht.selfPublicKey node.selfSecretKey packet =
      some (sodium.scalarmultBase sendSecretKey, requestId, data) := by
    rw [hnode] at h ⊢
    exact handleRequest_created hsodium h
  obtain ⟨hlength, hsmall, encrypted, rfl, -⟩ := createRequest_some hsodium h
  have hmac : macBytes = 16 := rfl
  rw [cryptopacketHandle, if_neg (not_not_intro (requestFormat_head _ _ _ _)), if_neg (by omega),
    if_pos (requestFormat_receiver _ _ _ _), hopened]

end Created

/-! ## Requests among nodes -/

/-- A request that a node was asked to create. -/
structure RequestRecord where
  sender : PublicKey
  receiver : PublicKey
  requestId : UInt8
  data : Bytes

/-- Nodes with the packets that are on their way, the requests that were created, and those that were handled. -/
structure RequestNet (ι : Type*) where
  node : ι → CryptoNode
  packets : List Bytes
  created : List RequestRecord
  handled : List RequestRecord

namespace RequestNet

variable {ι : Type*} [DecidableEq ι]

/-- A node creates a request, any node gets a packet that is on its way, or something else happens to a node that
keeps its keys. Packets stay on their way: they are lost, delayed and delivered twice. -/
inductive Step (sodium : Sodium) : RequestNet ι → RequestNet ι → Prop
  | create {net : RequestNet ι} (i : ι) (nonce : Nonce) (receiver : PublicKey) (requestId : UInt8) (data : Bytes)
      {packet : Bytes}
      (hpacket : createRequest sodium (net.node i).dht.selfPublicKey (net.node i).selfSecretKey nonce receiver data
        requestId =
        some packet) :
      Step sodium net { net with
        packets := packet :: net.packets
        created := ⟨(net.node i).dht.selfPublicKey, receiver, requestId, data⟩ :: net.created }
  | handle {net : RequestNet ι} (i : ι) {packet : Bytes} (hpacket : packet ∈ net.packets) {publicKey : PublicKey}
      {number : UInt8}
      {data : Bytes} (haction : cryptopacketHandle sodium (net.node i) packet = some (.handle publicKey number data)) :
      Step sodium net { net with handled := ⟨publicKey, (net.node i).dht.selfPublicKey, number, data⟩ :: net.handled }
  | route {net : RequestNet ι} (i : ι) {packet : Bytes} (hpacket : packet ∈ net.packets) {ipPort : IpPort}
      (haction : cryptopacketHandle sodium (net.node i) packet = some (.route ipPort)) :
      Step sodium net { net with packets := packet :: net.packets }
  | change {net : RequestNet ι} (i : ι) (node : CryptoNode)
      (hpublic : node.dht.selfPublicKey = (net.node i).dht.selfPublicKey)
      (hsecret : node.selfSecretKey = (net.node i).selfSecretKey) :
      Step sodium net { net with node := Function.update net.node i node }

/-- What steps reach from nodes whose keys are pairs. -/
inductive Run (sodium : Sodium) : RequestNet ι → Prop
  | start (node : ι → CryptoNode) (hnode : ∀ i, (node i).Keyed sodium) : Run sodium ⟨node, [], [], []⟩
  | step {net net' : RequestNet ι} (h : Run sodium net) (hstep : net.Step sodium net') : Run sodium net'

/-- Every packet is a request that was created, and every handled request was created. -/
structure Sound (sodium : Sodium) (net : RequestNet ι) : Prop where
  keyed : ∀ i, (net.node i).Keyed sodium
  packets : ∀ packet ∈ net.packets, ∃ sendSecretKey nonce receiver data requestId,
    createRequest sodium (sodium.scalarmultBase sendSecretKey) sendSecretKey nonce receiver data requestId =
      some packet ∧
      ⟨sodium.scalarmultBase sendSecretKey, receiver, requestId, data⟩ ∈ net.created
  handled : ∀ record ∈ net.handled, record ∈ net.created

variable {sodium : Sodium} {net net' : RequestNet ι}

omit [DecidableEq ι] in
/-- A packet that a node handles is a request that was created for it. -/
theorem Sound.handles (h : net.Sound sodium) (hsodium : sodium.Lawful) {i : ι} {packet : Bytes}
    (hpacket : packet ∈ net.packets) {publicKey : PublicKey} {number : UInt8} {data : Bytes}
    (haction : cryptopacketHandle sodium (net.node i) packet = some (.handle publicKey number data)) :
    ⟨publicKey, (net.node i).dht.selfPublicKey, number, data⟩ ∈ net.created := by
  obtain ⟨sendSecretKey, nonce, receiver, data', requestId, hcreated, hrecord⟩ := h.packets packet hpacket
  by_cases hself : (net.node i).dht.selfPublicKey = receiver
  · subst hself
    rw [cryptopacketHandle_handle hsodium (h.keyed i) hcreated] at haction
    split_ifs at haction
    obtain ⟨rfl, rfl, rfl⟩ := CryptoAction.handle.inj (Option.some.inj haction)
    exact hrecord
  · rw [cryptopacketHandle_route hsodium hcreated hself] at haction
    obtain ⟨ipPort, -, hroute⟩ := Option.map_eq_some_iff.mp haction
    cases hroute

/-- A step keeps the network sound. -/
theorem Sound.step (h : net.Sound sodium) (hsodium : sodium.Lawful)
    (hstep : net.Step sodium net') : net'.Sound sodium := by
  cases hstep with
  | create i nonce receiver requestId data hpacket =>
    have hkeyed : (net.node i).dht.selfPublicKey = sodium.scalarmultBase (net.node i).selfSecretKey := h.keyed i
    refine ⟨h.keyed, fun packet hmem => ?_, fun record hmem => mem_cons_of_mem _ (h.handled record hmem)⟩
    rcases mem_cons.mp hmem with rfl | hmem
    · rw [hkeyed] at hpacket ⊢
      exact ⟨_, nonce, receiver, data, requestId, hpacket, mem_cons_self⟩
    · obtain ⟨sendSecretKey, nonce, receiver, data, requestId, hcreated, hrecord⟩ := h.packets packet hmem
      exact ⟨sendSecretKey, nonce, receiver, data, requestId, hcreated, mem_cons_of_mem _ hrecord⟩
  | handle i hpacket haction =>
    refine ⟨h.keyed, h.packets, fun record hmem => ?_⟩
    rcases mem_cons.mp hmem with rfl | hmem
    · exact h.handles hsodium hpacket haction
    · exact h.handled record hmem
  | route i hpacket haction =>
    refine ⟨h.keyed, fun packet hmem => ?_, h.handled⟩
    rcases mem_cons.mp hmem with rfl | hmem
    · exact h.packets packet hpacket
    · exact h.packets packet hmem
  | change i node hpublic hsecret =>
    refine ⟨fun j => ?_, h.packets, h.handled⟩
    by_cases hj : j = i
    · subst hj
      dsimp only
      rw [Function.update_self, CryptoNode.Keyed, hpublic, hsecret]
      exact h.keyed j
    · dsimp only
      rw [Function.update_of_ne hj]
      exact h.keyed j

/-- A run keeps the network sound. -/
theorem Run.sound (h : Run sodium net) (hsodium : sodium.Lawful) : net.Sound sodium := by
  induction h with
  | start node hnode => exact ⟨hnode, fun _ h => absurd h not_mem_nil, fun _ h => absurd h not_mem_nil⟩
  | step _ hstep ih => exact ih.step hsodium hstep

/-- Whatever nodes send requests on, every request that a node handles was created for it, by the node with the key
that is given for the sender, with the same id and data. -/
theorem handled_were_created (h : Run sodium net) (hsodium : sodium.Lawful) :
    ∀ record ∈ net.handled, record ∈ net.created :=
  (h.sound hsodium).handled

/-- Two nodes that handle every request, by their keys. -/
def exampleNode (i : Bool) : CryptoNode :=
  ⟨.new (List.Vector.replicate 32 (if i then 1 else 0)), List.Vector.replicate 32 (if i then 1 else 0), fun _ => true⟩

/-- A request that one node creates for the other is handled. -/
theorem handled_were_created_one : ∃ net : RequestNet Bool, Run .plain net ∧ net.handled ≠ [] ∧
    ∀ record ∈ net.handled, record ∈ net.created := by
  obtain ⟨packet, hpacket⟩ :=
    createRequest_isSome Sodium.plain_lawful (Sodium.plain.scalarmultBase (exampleNode false).selfSecretKey)
    (exampleNode false).selfSecretKey (List.Vector.replicate 24 0) (exampleNode true).dht.selfPublicKey 254
    (show [(7 : UInt8)].length + 106 ≤ maxCryptoRequestSize by decide)
  have hstart : Run .plain ⟨exampleNode, [], [], []⟩ := .start exampleNode fun _ => rfl
  have hkeyed : (exampleNode true).Keyed .plain := rfl
  have hhandled := cryptopacketHandle_handle Sodium.plain_lawful hkeyed hpacket
  have hcreated := hstart.step (.create false _ _ 254 [7] hpacket)
  have hrun := hcreated.step (.handle true mem_cons_self hhandled)
  exact ⟨_, hrun, cons_ne_nil _ _, handled_were_created hrun Sodium.plain_lawful⟩

end RequestNet

end Toxcore
