import Toxcore.DHT.PackedNodes
import Toxcore.DHT.SharedKeys

/-!
# Onion packets

A request is wrapped in three layers, one for each node of a path. A node opens its layer, forwards the rest to the
address in it and appends the address the packet came from, encrypted with a key only this node has. The last node
sends the request and these return addresses to the destination. A response travels back along them.

The handlers differ in the layer they open and in the length of the return part. What a handler does is the packet
that it hands to `sendpacket`; its return value is 0 if all of that packet is sent. A local variable `send_to` is not
initialised: its old contents are part of the environment.
-/

namespace Toxcore

open ByteStrings

/-- `SIZE_IPPORT`: the family, `SIZE_IP6` bytes and the port. -/
abbrev sizeIpport : ℕ := 1 + 16 + 2

/-- `ONION_MAX_PACKET_SIZE`. -/
abbrev onionMaxPacketSize : ℕ := 1400

/-- `ONION_RETURN_1`. -/
abbrev onionReturn1 : ℕ := 24 + sizeIpport + macBytes

/-- `ONION_RETURN_2`. -/
abbrev onionReturn2 : ℕ := 24 + sizeIpport + macBytes + onionReturn1

/-- `ONION_RETURN_3`. -/
abbrev onionReturn3 : ℕ := 24 + sizeIpport + macBytes + onionReturn2

/-- `ONION_SEND_BASE`. -/
abbrev onionSendBase : ℕ := 32 + sizeIpport + macBytes

/-- `ONION_SEND_3`. -/
abbrev onionSend3 : ℕ := 24 + onionSendBase + onionReturn2

/-- `ONION_SEND_2`. -/
abbrev onionSend2 : ℕ := 24 + onionSendBase * 2 + onionReturn1

/-- `ONION_SEND_1`. -/
abbrev onionSend1Size : ℕ := 24 + onionSendBase * 3

/-- `ONION_MAX_DATA_SIZE`. -/
abbrev onionMaxDataSize : ℕ := onionMaxPacketSize - (onionSend1Size + 1)

/-- `ONION_RESPONSE_MAX_DATA_SIZE`. -/
abbrev onionResponseMaxDataSize : ℕ := onionMaxPacketSize - (1 + onionReturn3)

/-- `KEY_REFRESH_INTERVAL`, in seconds. -/
def keyRefreshInterval : UInt64 := 2 * 60 * 60

/-- `NET_PACKET_ONION_SEND_INITIAL`. -/
def netPacketOnionSendInitial : UInt8 := 128

/-- `NET_PACKET_ONION_SEND_1`. -/
def netPacketOnionSend1 : UInt8 := 129

/-- `NET_PACKET_ONION_SEND_2`. -/
def netPacketOnionSend2 : UInt8 := 130

/-- `NET_PACKET_ANNOUNCE_REQUEST`. -/
def netPacketAnnounceRequest : UInt8 := 131

/-- `NET_PACKET_ANNOUNCE_RESPONSE`. -/
def netPacketAnnounceResponse : UInt8 := 132

/-- `NET_PACKET_ONION_DATA_REQUEST`. -/
def netPacketOnionDataRequest : UInt8 := 133

/-- `NET_PACKET_ONION_DATA_RESPONSE`. -/
def netPacketOnionDataResponse : UInt8 := 134

/-- `NET_PACKET_ONION_RECV_3`. -/
def netPacketOnionRecv3 : UInt8 := 140

/-- `NET_PACKET_ONION_RECV_2`. -/
def netPacketOnionRecv2 : UInt8 := 141

/-- `NET_PACKET_ONION_RECV_1`. -/
def netPacketOnionRecv1 : UInt8 := 142

/-! ## Addresses -/

/-- `to_net_family`. -/
def toNetFamily (family : UInt8) : UInt8 :=
  if family = afInet then toxAfInet else if family = afInet6 then toxAfInet6 else family

/-- `to_host_family`, `none` for -1. -/
def toHostFamily (family : UInt8) : Option UInt8 :=
  if family = toxAfInet then some afInet else if family = toxAfInet6 then some afInet6 else none

/-- `ip_pack`. -/
def ipPack (source : Ip) : Bytes :=
  let family := toNetFamily source.family
  family :: (if family = toxAfInet ∨ family = toxTcpInet then source.ip4.toList ++ List.replicate 12 0
    else source.bytes.toList)

/-- `ip_unpack`, into a variable with old contents. -/
def ipUnpack (target : Ip) (data : Bytes) (dataSize : ℕ) (disableFamilyCheck : Bool) : Option Ip :=
  if dataSize < 1 + 16 then none
  else
    let family := data.headD 0
    let size := if family = toxAfInet ∨ family = toxTcpInet then 4 else 16
    let bytes : Block 16 := slice 16 ((data.drop 1).take size ++ target.bytes.toList.drop size) 0
    match toHostFamily family with
    | some family => some { target with family := family, bytes := bytes }
    | none => if disableFamilyCheck then some { target with family := family, bytes := bytes } else none

/-- `ipport_pack`. -/
def ipportPack (source : IpPort) : Bytes := ipPack source.ip ++ beBytes 2 source.port.toNat

/-- `ipport_unpack`, into a variable with old contents. -/
def ipportUnpack (target : IpPort) (data : Bytes) (dataSize : ℕ) (disableFamilyCheck : Bool) : Option IpPort :=
  if dataSize < sizeIpport then none
  else (ipUnpack target.ip data dataSize disableFamilyCheck).map fun ip =>
    { target with ip := ip, port := UInt16.ofNat (beNat (slice 2 data 17).toList) }

/-! ## Paths -/

/-- A key pair of `crypto_box_keypair`. -/
structure KeyPair (sodium : Sodium) where
  publicKey : PublicKey
  secretKey : SecretKey
  valid : publicKey = sodium.scalarmultBase secretKey

/-- A key pair of the library that keeps everything plain. -/
def plainKeyPair (byte : UInt8) : KeyPair Sodium.plain :=
    ⟨List.Vector.replicate 32 byte, List.Vector.replicate 32 byte, rfl⟩

/-- `Onion_Path`. -/
structure OnionPath where
  sharedKey1 : SharedKey
  sharedKey2 : SharedKey
  sharedKey3 : SharedKey
  publicKey1 : PublicKey
  publicKey2 : PublicKey
  publicKey3 : PublicKey
  ipPort1 : IpPort
  nodePublicKey1 : PublicKey
  ipPort2 : IpPort
  nodePublicKey2 : PublicKey
  ipPort3 : IpPort
  nodePublicKey3 : PublicKey

/-- `create_onion_path`, with the key pair of the DHT and two random ones. -/
def createOnionPath (sodium : Sodium) (self random2 random3 : KeyPair sodium) (node1 node2 node3 : NodeFormat) :
    OnionPath where
  sharedKey1 := sodium.beforenm node1.publicKey self.secretKey
  sharedKey2 := sodium.beforenm node2.publicKey random2.secretKey
  sharedKey3 := sodium.beforenm node3.publicKey random3.secretKey
  publicKey1 := self.publicKey
  publicKey2 := random2.publicKey
  publicKey3 := random3.publicKey
  ipPort1 := node1.ipPort
  nodePublicKey1 := node1.publicKey
  ipPort2 := node2.ipPort
  nodePublicKey2 := node2.publicKey
  ipPort3 := node3.ipPort
  nodePublicKey3 := node3.publicKey

/-- One layer: the address of a node, a key, and what only this node can read. -/
def onionLayer (sodium : Sodium) (address : IpPort) (publicKey : PublicKey) (sharedKey : SharedKey) (nonce : Nonce)
    (plain : Bytes) : Option Bytes :=
  match encryptDataSymmetric sodium sharedKey nonce plain with
  | none => none
  | some encrypted =>
    if encrypted.length ≠ plain.length + macBytes then none
    else some (ipportPack address ++ (publicKey.toList ++ encrypted))

/-- The array `step3` of `create_onion_packet`: the layers for the second and the third node. -/
def onionStep3 (sodium : Sodium) (path : OnionPath) (nonce : Nonce) (dest : IpPort) (data : Bytes) : Option Bytes :=
  let step1 := ipportPack dest ++ data
  (onionLayer sodium path.ipPort3 path.publicKey3 path.sharedKey3 nonce step1).bind fun step2 =>
    onionLayer sodium path.ipPort2 path.publicKey2 path.sharedKey2 nonce step2

/-- `create_onion_packet`, with the nonce it draws. -/
def createOnionPacket (sodium : Sodium) (nonce : Nonce) (maxPacketLength : ℕ) (path : OnionPath) (dest : IpPort)
    (data : Bytes) : Option Bytes :=
  if 1 + data.length + onionSend1Size > maxPacketLength ∨ data.length = 0 then none
  else
    (onionStep3 sodium path nonce dest data).bind fun step3 =>
      match encryptDataSymmetric sodium path.sharedKey1 nonce step3 with
      | none => none
      | some encrypted =>
        if encrypted.length ≠ sizeIpport + onionSendBase * 2 + data.length + macBytes then none
        else some (netPacketOnionSendInitial :: (nonce.toList ++ (path.publicKey1.toList ++ encrypted)))

/-- `create_onion_packet_tcp`, with the nonce it draws. -/
def createOnionPacketTcp (sodium : Sodium) (nonce : Nonce) (maxPacketLength : ℕ) (path : OnionPath) (dest : IpPort)
    (data : Bytes) : Option Bytes :=
  if 24 + sizeIpport + onionSendBase * 2 + data.length > maxPacketLength ∨ data.length = 0 then none
  else (onionStep3 sodium path nonce dest data).map fun step3 => nonce.toList ++ step3

/-- `send_onion_response`: the packet it sends. -/
def sendOnionResponse (data ret : Bytes) : Option Bytes :=
  if data.length > onionResponseMaxDataSize ∨ data.length = 0 then none
  else some (netPacketOnionRecv3 :: ((slice onionReturn3 ret 0).toList ++ data))

/-! ## Nodes -/

/-- `Onion`, with the secret key of its DHT. `recv1Function` says whether a function for responses over TCP is set. -/
structure Onion where
  selfSecretKey : SecretKey
  secretSymmetricKey : SharedKey
  timestamp : UInt64
  sharedKeys1 : SharedKeys
  sharedKeys2 : SharedKeys
  sharedKeys3 : SharedKeys
  recv1Function : Bool

/-- What a handler observes: the clock, a new symmetric key, a new nonce, and the old contents of `send_to`. -/
structure OnionEnv where
  unixTime : UInt64
  symmetricKey : SharedKey
  nonce : Nonce
  sendTo : IpPort

/-- What a handler does with a packet that it accepts. -/
inductive OnionAction where
  | sendpacket (dest : IpPort) (data : Bytes)
  | recv1Function (dest : IpPort) (data : Bytes)

/-- `change_symmetric_key`. -/
def changeSymmetricKey (env : OnionEnv) (onion : Onion) : Onion :=
  if isTimeout env.unixTime onion.timestamp keyRefreshInterval then
    { onion with secretSymmetricKey := env.symmetricKey, timestamp := env.unixTime }
  else onion

/-- The bytes in front of the encrypted part of a request: the type, the nonce and a key. -/
abbrev onionHeader : ℕ := 1 + 24 + 32

/-- The contents of the layer of a request, in front of a return part. -/
def openLayer (sodium : Sodium) (sharedKey : SharedKey) (packet : Bytes) (returnSize : ℕ) : Option Bytes :=
  match decryptDataSymmetric sodium sharedKey (slice 24 packet 1)
    ((packet.drop onionHeader).take (packet.length - (onionHeader + returnSize))) with
  | none => none
  | some plain => if plain.length ≠ packet.length - (onionHeader + returnSize + macBytes) then none else some plain

/-- The return part of a request: a new nonce and the encrypted source address and previous return part. -/
def returnPart (sodium : Sodium) (env : OnionEnv) (onion : Onion) (source : IpPort) (previous : Bytes) : Option Bytes :=
  match encryptDataSymmetric sodium onion.secretSymmetricKey env.nonce (ipportPack source ++ previous) with
  | none => none
  | some encrypted =>
    if encrypted.length ≠ sizeIpport + previous.length + macBytes then none else some (env.nonce.toList ++ encrypted)

/-- `onion_send_1`. -/
def onionSend1 (sodium : Sodium) (env : OnionEnv) (onion : Onion) (plain : Bytes) (source : IpPort) (nonce : Nonce) :
    Option OnionAction :=
  if plain.length > onionMaxPacketSize + sizeIpport - (1 + 24 + onionReturn1) then none
  else if plain.length ≤ sizeIpport + onionSendBase * 2 then none
  else
    (ipportUnpack env.sendTo plain plain.length false).bind fun sendTo =>
      (returnPart sodium env onion source []).map fun ret =>
        .sendpacket sendTo (netPacketOnionSend1 :: (nonce.toList ++ (plain.drop sizeIpport ++ ret)))

/-- `handle_send_initial`. -/
def handleSendInitial (sodium : Sodium) (env : OnionEnv) (onion : Onion) (source : IpPort) (packet : Bytes) :
    Option OnionAction × Onion :=
  if packet.length > onionMaxPacketSize then (none, onion)
  else if packet.length ≤ 1 + onionSend1Size then (none, onion)
  else
    let onion := changeSymmetricKey env onion
    let shared := getSharedKey sodium env.unixTime onion.sharedKeys1 onion.selfSecretKey (slice 32 packet 25)
    let onion := { onion with sharedKeys1 := shared.2 }
    ((openLayer sodium shared.1 packet 0).bind fun plain =>
      onionSend1 sodium env onion plain source (slice 24 packet 1), onion)

/-- `handle_send_1`. -/
def handleSend1 (sodium : Sodium) (env : OnionEnv) (onion : Onion) (source : IpPort) (packet : Bytes) :
    Option OnionAction × Onion :=
  if packet.length > onionMaxPacketSize then (none, onion)
  else if packet.length ≤ 1 + onionSend2 then (none, onion)
  else
    let onion := changeSymmetricKey env onion
    let shared := getSharedKey sodium env.unixTime onion.sharedKeys2 onion.selfSecretKey (slice 32 packet 25)
    let onion := { onion with sharedKeys2 := shared.2 }
    ((openLayer sodium shared.1 packet onionReturn1).bind fun plain =>
      (ipportUnpack env.sendTo plain plain.length false).bind fun sendTo =>
        (returnPart sodium env onion source (packet.drop (packet.length - onionReturn1))).map fun ret =>
          .sendpacket sendTo
            (netPacketOnionSend2 :: ((slice 24 packet 1).toList ++ (plain.drop sizeIpport ++ ret))), onion)

/-- `handle_send_2`. -/
def handleSend2 (sodium : Sodium) (env : OnionEnv) (onion : Onion) (source : IpPort) (packet : Bytes) :
    Option OnionAction × Onion :=
  if packet.length > onionMaxPacketSize then (none, onion)
  else if packet.length ≤ 1 + onionSend3 then (none, onion)
  else
    let onion := changeSymmetricKey env onion
    let shared := getSharedKey sodium env.unixTime onion.sharedKeys3 onion.selfSecretKey (slice 32 packet 25)
    let onion := { onion with sharedKeys3 := shared.2 }
    ((openLayer sodium shared.1 packet onionReturn2).bind fun plain =>
      if plain.length ≤ sizeIpport then none
      else if plain.getD sizeIpport 0 ≠ netPacketAnnounceRequest ∧
        plain.getD sizeIpport 0 ≠ netPacketOnionDataRequest then
        none
      else
        (ipportUnpack env.sendTo plain plain.length false).bind fun sendTo =>
          (returnPart sodium env onion source (packet.drop (packet.length - onionReturn2))).map fun ret =>
            .sendpacket sendTo (plain.drop sizeIpport ++ ret), onion)

/-- The checks of a response and what its return part says: the plain text and the response. -/
def openReturn (sodium : Sodium) (onion : Onion) (packet : Bytes) (returnSize : ℕ) : Option (Bytes × Bytes) :=
  let data := packet.drop (1 + returnSize)
  (decryptDataSymmetric sodium onion.secretSymmetricKey (slice 24 packet 1)
    ((packet.drop (1 + 24)).take (returnSize - 24))).bind fun plain =>
      if plain.length ≠ returnSize - 24 - macBytes then none else some (plain, data)

/-- The type of a response is one that is forwarded. -/
def forwardedResponse (packet : Bytes) (returnSize : ℕ) : Bool :=
  packet.getD (1 + returnSize) 0 == netPacketAnnounceResponse || packet.getD (1 +
    returnSize) 0 == netPacketOnionDataResponse

/-- `handle_recv_3` and `handle_recv_2`, for the type of the forwarded packet and the length of the return part. -/
def handleRecvForward (sodium : Sodium) (type : UInt8) (returnSize : ℕ) (env : OnionEnv) (onion : Onion)
    (packet : Bytes) : Option OnionAction × Onion :=
  if packet.length > onionMaxPacketSize then (none, onion)
  else if packet.length ≤ 1 + returnSize then (none, onion)
  else if !forwardedResponse packet returnSize then (none, onion)
  else
    let onion := changeSymmetricKey env onion
    ((openReturn sodium onion packet returnSize).bind fun (plain, data) =>
      (ipportUnpack env.sendTo plain plain.length false).map fun sendTo =>
        .sendpacket sendTo (type :: (plain.drop sizeIpport ++ data)), onion)

/-- `handle_recv_3`. -/
def handleRecv3 (sodium : Sodium) (env : OnionEnv) (onion : Onion) (packet : Bytes) : Option OnionAction × Onion :=
  handleRecvForward sodium netPacketOnionRecv2 onionReturn3 env onion packet

/-- `handle_recv_2`. -/
def handleRecv2 (sodium : Sodium) (env : OnionEnv) (onion : Onion) (packet : Bytes) : Option OnionAction × Onion :=
  handleRecvForward sodium netPacketOnionRecv1 onionReturn2 env onion packet

/-- `handle_recv_1`. The family of the address is not checked. -/
def handleRecv1 (sodium : Sodium) (env : OnionEnv) (onion : Onion) (packet : Bytes) : Option OnionAction × Onion :=
  if packet.length > onionMaxPacketSize then (none, onion)
  else if packet.length ≤ 1 + onionReturn1 then (none, onion)
  else if !forwardedResponse packet onionReturn1 then (none, onion)
  else
    let onion := changeSymmetricKey env onion
    ((openReturn sodium onion packet onionReturn1).bind fun (plain, data) =>
      (ipportUnpack env.sendTo plain plain.length true).map fun sendTo =>
        if onion.recv1Function ∧ sendTo.ip.family ≠ afInet ∧ sendTo.ip.family ≠ afInet6 then .recv1Function sendTo data
        else .sendpacket sendTo data, onion)

/-! ## Runs of one node -/

/-- `new_onion`: the caches are cleared, no function is set. -/
def newOnion (selfSecretKey : SecretKey) (unixTime : UInt64) (symmetricKey : SharedKey) : Onion where
  selfSecretKey := selfSecretKey
  secretSymmetricKey := symmetricKey
  timestamp := unixTime
  sharedKeys1 := fun _ => .zero
  sharedKeys2 := fun _ => .zero
  sharedKeys3 := fun _ => .zero
  recv1Function := false

/-- The calls that change a node: a packet for one of its handlers, or `set_callback_handle_recv_1`. -/
inductive OnionCall where
  | sendInitial (source : IpPort) (packet : Bytes)
  | send1 (source : IpPort) (packet : Bytes)
  | send2 (source : IpPort) (packet : Bytes)
  | recv3 (packet : Bytes)
  | recv2 (packet : Bytes)
  | recv1 (packet : Bytes)
  | setCallbackHandleRecv1 (set : Bool)

/-- The state after a call. -/
def OnionCall.exec (sodium : Sodium) (env : OnionEnv) (onion : Onion) : OnionCall → Onion
  | .sendInitial source packet => (handleSendInitial sodium env onion source packet).2
  | .send1 source packet => (handleSend1 sodium env onion source packet).2
  | .send2 source packet => (handleSend2 sodium env onion source packet).2
  | .recv3 packet => (handleRecv3 sodium env onion packet).2
  | .recv2 packet => (handleRecv2 sodium env onion packet).2
  | .recv1 packet => (handleRecv1 sodium env onion packet).2
  | .setCallbackHandleRecv1 set => { onion with recv1Function := set }

/-- The states of a node after any calls. -/
inductive OnionReaches (sodium : Sodium) (selfSecretKey : SecretKey) : Onion → Prop where
  | new (unixTime : UInt64) (symmetricKey : SharedKey) :
      OnionReaches sodium selfSecretKey (newOnion selfSecretKey unixTime symmetricKey)
  | exec {onion : Onion} (env : OnionEnv) (call : OnionCall) :
      OnionReaches sodium selfSecretKey onion → OnionReaches sodium selfSecretKey (call.exec sodium env onion)

/-- The cached keys are the computed ones. -/
structure Onion.Valid (sodium : Sodium) (selfSecretKey : SecretKey) (onion : Onion) : Prop where
  secretKey : onion.selfSecretKey = selfSecretKey
  sharedKeys1 : onion.sharedKeys1.Valid sodium selfSecretKey
  sharedKeys2 : onion.sharedKeys2.Valid sodium selfSecretKey
  sharedKeys3 : onion.sharedKeys3.Valid sodium selfSecretKey

variable {onion : Onion} {selfSecretKey : SecretKey} {sodium : Sodium}

theorem Onion.Valid.changeSymmetricKey (h : onion.Valid sodium selfSecretKey) (env : OnionEnv) :
    (changeSymmetricKey env onion).Valid sodium selfSecretKey := by
  unfold Toxcore.changeSymmetricKey
  split
  · exact ⟨h.secretKey, h.sharedKeys1, h.sharedKeys2, h.sharedKeys3⟩
  · exact h

/-- A response is forwarded. -/
theorem Onion.Valid.handleRecvForward (h : onion.Valid sodium selfSecretKey) (type : UInt8) (returnSize : ℕ)
    (env : OnionEnv) (packet : Bytes) :
    (handleRecvForward sodium type returnSize env onion packet).2.Valid sodium selfSecretKey := by
  unfold Toxcore.handleRecvForward
  split
  · exact h
  · split
    · exact h
    · split
      · exact h
      · dsimp only
        exact h.changeSymmetricKey env

/-- Every call keeps the caches valid. -/
theorem Onion.Valid.exec (h : onion.Valid sodium selfSecretKey) (env : OnionEnv) (call : OnionCall) :
    (call.exec sodium env onion).Valid sodium selfSecretKey := by
  have hkey := h.changeSymmetricKey env
  cases call with
  | sendInitial source packet =>
    simp only [OnionCall.exec, handleSendInitial]
    split
    · exact h
    · split
      · exact h
      · generalize Toxcore.changeSymmetricKey env onion = onion at hkey ⊢
        refine ⟨hkey.secretKey, ?_, hkey.sharedKeys2, hkey.sharedKeys3⟩
        dsimp only
        rw [hkey.secretKey]
        exact (hkey.sharedKeys1.getSharedKey _ _).2
  | send1 source packet =>
    simp only [OnionCall.exec, handleSend1]
    split
    · exact h
    · split
      · exact h
      · generalize Toxcore.changeSymmetricKey env onion = onion at hkey ⊢
        refine ⟨hkey.secretKey, hkey.sharedKeys1, ?_, hkey.sharedKeys3⟩
        dsimp only
        rw [hkey.secretKey]
        exact (hkey.sharedKeys2.getSharedKey _ _).2
  | send2 source packet =>
    simp only [OnionCall.exec, handleSend2]
    split
    · exact h
    · split
      · exact h
      · generalize Toxcore.changeSymmetricKey env onion = onion at hkey ⊢
        refine ⟨hkey.secretKey, hkey.sharedKeys1, hkey.sharedKeys2, ?_⟩
        dsimp only
        rw [hkey.secretKey]
        exact (hkey.sharedKeys3.getSharedKey _ _).2
  | recv3 packet => exact h.handleRecvForward _ _ env packet
  | recv2 packet => exact h.handleRecvForward _ _ env packet
  | recv1 packet =>
    simp only [OnionCall.exec, handleRecv1]
    split
    · exact h
    · split
      · exact h
      · split
        · exact h
        · dsimp only
          exact hkey
  | setCallbackHandleRecv1 set => exact ⟨h.secretKey, h.sharedKeys1, h.sharedKeys2, h.sharedKeys3⟩

/-- The caches of a node are valid after any calls. -/
theorem OnionReaches.valid (h : OnionReaches sodium selfSecretKey onion) : onion.Valid sodium selfSecretKey := by
  induction h with
  | new unixTime symmetricKey =>
    refine ⟨rfl, ?_, ?_, ?_⟩ <;> intro index hstored <;> cases hstored
  | exec env call _ ih => exact ih.exec env call

end Toxcore
