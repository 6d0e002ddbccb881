import Toxcore.DHT.CloseNodes
import Toxcore.NetCrypto.Handshake
import Toxcore.Onion.Packets

/-!
# Announcements

A node stores who can be reached over which return path. Whoever asks it gets a ping id, made from the time, the key
and the address of the request; a request that presents the ping id of this or of the next period is stored. Data
requests for a stored key are relayed along its return path.

The hash of the crypto library is a parameter. The order in which `qsort` leaves entries that compare equal is up to
the library.
-/

namespace Toxcore

open ByteStrings

/-- `ONION_ANNOUNCE_MAX_ENTRIES`. -/
abbrev onionAnnounceMaxEntries : ℕ := 160

/-- `ONION_ANNOUNCE_TIMEOUT`, in seconds. -/
def onionAnnounceTimeout : UInt64 := 300

/-- `PING_ID_TIMEOUT`, in seconds. -/
def pingIdTimeout : UInt64 := 20

/-- `ONION_PING_ID_SIZE`. -/
abbrev onionPingIdSize : ℕ := 32

/-- `ONION_ANNOUNCE_SENDBACK_DATA_LENGTH`. -/
abbrev onionAnnounceSendbackDataLength : ℕ := 8

/-- The length of the plain text of an announce request. -/
abbrev announcePlainSize : ℕ := onionPingIdSize + 32 + 32 + onionAnnounceSendbackDataLength

/-- `ONION_ANNOUNCE_REQUEST_SIZE`. -/
abbrev onionAnnounceRequestSize : ℕ := 1 + 24 + 32 + announcePlainSize + macBytes

/-- `ANNOUNCE_REQUEST_SIZE_RECV`. -/
abbrev announceRequestSizeRecv : ℕ := onionAnnounceRequestSize + onionReturn3

/-- `ONION_DATA_RESPONSE_MIN_SIZE`. -/
abbrev onionDataResponseMinSize : ℕ := 1 + 24 + 32 + macBytes

/-- `ONION_DATA_REQUEST_MIN_SIZE`. -/
abbrev onionDataRequestMinSize : ℕ := 1 + 32 + 24 + 32 + macBytes

/-- `DATA_REQUEST_MIN_SIZE_RECV`. -/
abbrev dataRequestMinSizeRecv : ℕ := onionDataRequestMinSize + onionReturn3

/-- `MAX_DATA_REQUEST_SIZE`. -/
abbrev maxDataRequestSize : ℕ := onionMaxDataSize - onionDataRequestMinSize

/-- The length of the array that nodes are packed into. -/
def nodesListSize : UInt16 := 64 * 4

/-- `Onion_Announce_Entry`. -/
structure OnionAnnounceEntry where
  publicKey : PublicKey
  retIpPort : IpPort
  ret : Block onionReturn3
  dataPublicKey : PublicKey
  time : UInt64

/-- An entry cleared to zero bytes. -/
def OnionAnnounceEntry.zero : OnionAnnounceEntry := ⟨.zero, .zero, List.Vector.replicate _ 0, .zero, 0⟩

/-- The array of entries. -/
abbrev OnionAnnounceEntries := Fin onionAnnounceMaxEntries → OnionAnnounceEntry

/-- `Onion_Announce`, with the secret key of its DHT. -/
structure OnionAnnounce where
  dht : Dht
  selfSecretKey : SecretKey
  entries : OnionAnnounceEntries
  secretBytes : SharedKey
  sharedKeysRecv : SharedKeys

/-- What a call observes: the clock, a random nonce, and the permutation by which `qsort` sorts the entries. -/
structure AnnounceEnv where
  unixTime : UInt64
  nonce : Nonce
  qsort : (OnionAnnounceEntry → OnionAnnounceEntry → Ordering) → OnionAnnounceEntries →
    Equiv.Perm (Fin onionAnnounceMaxEntries)

/-- `new_onion_announce`, with the random key it draws. -/
def newOnionAnnounce (dht : Dht) (selfSecretKey : SecretKey) (secretBytes : SharedKey) : OnionAnnounce :=
  ⟨dht, selfSecretKey, fun _ => .zero, secretBytes, fun _ => .zero⟩

/-! ## Entries -/

/-- The entry is timed out. -/
def OnionAnnounceEntry.timedout (now : UInt64) (entry : OnionAnnounceEntry) : Bool :=
  isTimeout now entry.time onionAnnounceTimeout

/-- `in_entries`, `none` for -1. -/
def inEntries (now : UInt64) (entries : OnionAnnounceEntries) (publicKey : PublicKey) :
    Option (Fin onionAnnounceMaxEntries) :=
  (List.finRange onionAnnounceMaxEntries).find? fun i =>
    !(entries i).timedout now && decide ((entries i).publicKey = publicKey)

/-- `cmp_entry`: timed out entries first, then farther ones before closer ones. -/
def cmpEntry (now : UInt64) (cmpPublicKey : PublicKey) (entry1 entry2 : OnionAnnounceEntry) : Ordering :=
  let t1 := entry1.timedout now
  let t2 := entry2.timedout now
  if t1 && t2 then .eq
  else if t1 then .lt
  else if t2 then .gt
  else (idClosest cmpPublicKey entry1.publicKey entry2.publicKey).swap

/-- The variable `pos` of `add_to_entries`: where the key is, else the last entry that is timed out, else the first one
if the key is closer to ours. -/
def entryPosition (now : UInt64) (selfPublicKey : PublicKey) (entries : OnionAnnounceEntries) (publicKey : PublicKey) :
    Option (Fin onionAnnounceMaxEntries) :=
  match inEntries now entries publicKey with
  | some pos => some pos
  | none =>
    match (List.finRange onionAnnounceMaxEntries).reverse.find? fun i => (entries i).timedout now with
    | some pos => some pos
    | none => if idClosest selfPublicKey publicKey (entries 0).publicKey = .lt then some 0 else none

/-- `add_to_entries`. -/
def addToEntries (env : AnnounceEnv) (selfPublicKey : PublicKey) (entries : OnionAnnounceEntries)
    (retIpPort : IpPort) (publicKey dataPublicKey : PublicKey) (ret : Block onionReturn3) :
    Option (Fin onionAnnounceMaxEntries) × OnionAnnounceEntries :=
  match entryPosition env.unixTime selfPublicKey entries publicKey with
  | none => (none, entries)
  | some pos =>
    let entries := Function.update entries pos ⟨publicKey, retIpPort, ret, dataPublicKey, env.unixTime⟩
    let entries := entries ∘ env.qsort (cmpEntry env.unixTime selfPublicKey) entries
    (inEntries env.unixTime entries publicKey, entries)

/-! ## Data requests -/

/-- `create_data_request`, with the key pair it draws. -/
def createDataRequest (sodium : Sodium) (random : KeyPair sodium) (maxPacketLength : ℕ)
    (publicKey encryptPublicKey : PublicKey) (nonce : Nonce) (data : Bytes) : Option Bytes :=
  if onionDataRequestMinSize + data.length > maxPacketLength then none
  else if onionDataRequestMinSize + data.length > onionMaxDataSize then none
  else
    match encryptData sodium encryptPublicKey random.secretKey nonce data with
    | none => none
    | some encrypted =>
      if 1 + 32 + 24 + 32 + encrypted.length ≠ onionDataRequestMinSize + data.length then none
      else
        some (netPacketOnionDataRequest ::
          (publicKey.toList ++ (nonce.toList ++ (random.publicKey.toList ++ encrypted))))

/-- `handle_data_request`: the packet it sends, and where. -/
def handleDataRequest (now : UInt64) (onionA : OnionAnnounce) (packet : Bytes) : Option (IpPort × Bytes) :=
  if packet.length ≤ dataRequestMinSizeRecv then none
  else if packet.length > onionMaxPacketSize then none
  else
    match inEntries now onionA.entries (slice 32 packet 1) with
    | none => none
    | some index =>
      let data := netPacketOnionDataResponse ::
        ((packet.drop (1 + 32)).take (packet.length - (1 + 32 + onionReturn3)))
      (sendOnionResponse data (onionA.entries index).ret.toList).map fun sent =>
        ((onionA.entries index).retIpPort, sent)

/-! ## Announce requests -/

section

variable (sodium : Sodium) (sha256 : Bytes → Block onionPingIdSize)

/-- What is hashed for a ping id. -/
def pingIdInput (secretBytes : SharedKey) (period : UInt64) (publicKey : PublicKey) (retIpPort : IpPort) : Bytes :=
  secretBytes.toList ++ ((hostBytes period).toList ++ (publicKey.toList ++ retIpPort.stored))

/-- `generate_ping_id`. -/
def generatePingId (onionA : OnionAnnounce) (time : UInt64) (publicKey : PublicKey) (retIpPort : IpPort) :
    Block onionPingIdSize :=
  sha256 (pingIdInput onionA.secretBytes (time / pingIdTimeout) publicKey retIpPort)

/-- A request that was decrypted: its key and the shared key, the fields of its plain text, and the return part. -/
structure AnnounceRequest where
  publicKey : PublicKey
  sharedKey : SharedKey
  pingId : Block onionPingIdSize
  searchedKey : PublicKey
  dataPublicKey : PublicKey
  sendback : Block onionAnnounceSendbackDataLength
  ret : Block onionReturn3

/-- `create_announce_request`, with the nonce it draws. -/
def createAnnounceRequest (nonce : Nonce) (maxPacketLength : ℕ) (destClientId : PublicKey) (pair : KeyPair sodium)
    (pingId : Block onionPingIdSize) (clientId dataPublicKey : PublicKey)
    (sendback : Block onionAnnounceSendbackDataLength) : Option Bytes :=
  if maxPacketLength < onionAnnounceRequestSize then none
  else
    let plain := pingId.toList ++ (clientId.toList ++ (dataPublicKey.toList ++ sendback.toList))
    match encryptData sodium destClientId pair.secretKey nonce plain with
    | none => none
    | some encrypted =>
      if encrypted.length + 1 + 24 + 32 ≠ onionAnnounceRequestSize then none
      else some (netPacketAnnounceRequest :: (nonce.toList ++ (pair.publicKey.toList ++ encrypted)))

/-- The first part of `handle_announce_request`, up to the decryption. -/
def openAnnounceRequest (now : UInt64) (onionA : OnionAnnounce) (packet : Bytes) :
    Option AnnounceRequest × OnionAnnounce :=
  if packet.length ≠ announceRequestSizeRecv then (none, onionA)
  else
    let publicKey : PublicKey := slice 32 packet 25
    let shared := getSharedKey sodium now onionA.sharedKeysRecv onionA.selfSecretKey publicKey
    let onionA := { onionA with sharedKeysRecv := shared.2 }
    ((decryptDataSymmetric sodium shared.1 (slice 24 packet 1)
        ((packet.drop onionHeader).take (announcePlainSize + macBytes))).bind fun plain =>
      if plain.length ≠ announcePlainSize then none
      else some ⟨publicKey, shared.1, slice _ plain 0, slice _ plain onionPingIdSize,
        slice _ plain (onionPingIdSize + 32), slice _ plain (onionPingIdSize + 32 + 32),
        slice _ packet (announceRequestSizeRecv - onionReturn3)⟩, onionA)

/-- The request presents the ping id of this or of the next period, so `add_to_entries` is called. -/
def presentsPingId (now : UInt64) (onionA : OnionAnnounce) (source : IpPort) (request : AnnounceRequest) : Bool :=
  generatePingId sha256 onionA now request.publicKey source = request.pingId ||
    generatePingId sha256 onionA (now + pingIdTimeout) request.publicKey source = request.pingId

/-- The variable `index` of `handle_announce_request`, and the entries. -/
def announceIndex (env : AnnounceEnv) (onionA : OnionAnnounce) (source : IpPort) (request : AnnounceRequest) :
    Option (Fin onionAnnounceMaxEntries) × OnionAnnounceEntries :=
  if presentsPingId sha256 env.unixTime onionA source request then
    addToEntries env onionA.dht.selfPublicKey onionA.entries source request.publicKey request.dataPublicKey request.ret
  else (inEntries env.unixTime onionA.entries request.searchedKey, onionA.entries)

/-- The first bytes of a response: whether the key is stored, and a ping id or the data key of the searched key. -/
def announceAnswer (env : AnnounceEnv) (onionA : OnionAnnounce) (source : IpPort) (request : AnnounceRequest)
    (index : Option (Fin onionAnnounceMaxEntries)) : UInt8 × Block 32 :=
  let pingId2 := generatePingId sha256 onionA (env.unixTime + pingIdTimeout) request.publicKey source
  match index with
  | none => (0, pingId2)
  | some index =>
    if (onionA.entries index).publicKey = request.publicKey then
      if (onionA.entries index).dataPublicKey ≠ request.dataPublicKey then (0, pingId2) else (2, pingId2)
    else (1, (onionA.entries index).dataPublicKey)

/-- The nodes of a response, `none` if they cannot be packed. -/
def announceNodes (now : UInt64) (onionA : OnionAnnounce) (source : IpPort)
    (request : AnnounceRequest) : Option Bytes :=
  let found := getCloseNodes now request.searchedKey 0 (lanIp source.ip) onionA.dht true
  if found.numNodes = 0 then some []
  else
    match packNodes nodesListSize found.nodes (UInt16.ofNat found.numNodes) with
    | (none, _) => none
    | (some length, packed) => if length = 0 then none else some packed

/-- The packet of a response. -/
def announceResponse (env : AnnounceEnv) (request : AnnounceRequest) (answer : UInt8 × Block 32) (nodes : Bytes) :
    Option Bytes :=
  let plain := answer.1 :: (answer.2.toList ++ nodes)
  match encryptDataSymmetric sodium request.sharedKey env.nonce plain with
  | none => none
  | some encrypted =>
    if encrypted.length ≠ 1 + onionPingIdSize + nodes.length + macBytes then none
    else
      sendOnionResponse
        (netPacketAnnounceResponse :: (request.sendback.toList ++ (env.nonce.toList ++ encrypted))) request.ret.toList

/-- The rest of `handle_announce_request`: what the response says first, the packet that is sent, and the node. -/
def answerAnnounceRequest (env : AnnounceEnv) (onionA : OnionAnnounce) (source : IpPort) (request : AnnounceRequest) :
    Option ((UInt8 × Block 32) × Bytes) × OnionAnnounce :=
  let (index, entries) := announceIndex sha256 env onionA source request
  let onionA := { onionA with entries := entries }
  let answer := announceAnswer sha256 env onionA source request index
  (((announceNodes env.unixTime onionA source request).bind fun nodes =>
    announceResponse sodium env request answer nodes).map fun packet => (answer, packet), onionA)

/-- `handle_announce_request`: the packet that is sent to the source, and the node. -/
def handleAnnounceRequest (env : AnnounceEnv) (onionA : OnionAnnounce) (source : IpPort) (packet : Bytes) :
    Option Bytes × OnionAnnounce :=
  match openAnnounceRequest sodium env.unixTime onionA packet with
  | (none, onionA) => (none, onionA)
  | (some request, onionA) =>
    let (sent, onionA) := answerAnnounceRequest sodium sha256 env onionA source request
    (sent.map Prod.snd, onionA)

end

end Toxcore
