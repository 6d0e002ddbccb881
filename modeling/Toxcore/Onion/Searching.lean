import Toxcore.DHT.Getnodes
import Toxcore.Onion.Announce

/-!
# Announcing and searching

The client asks nodes about itself under its real key, and about each friend under a temporary key that it drew for
the friend. Every request has an id in the ping array of the client, under which the client keeps what the request was
for and where it went; a response names only the id.

The 32 bytes behind the first one of a response are a ping id or the data key of a friend. Which of them the node
writes depends on whether the entry it found is the one of the key that the request came from.
-/

namespace Toxcore

open ByteStrings

/-! ## The client -/

/-- `ANNOUNCE_ARRAY_SIZE`. -/
def announceArraySize : UInt32 := 256

/-- `ANNOUNCE_TIMEOUT`, in seconds. -/
def announceTimeout : UInt32 := 10

/-- `ONION_ANNOUNCE_RESPONSE_MIN_SIZE`. -/
abbrev onionAnnounceResponseMinSize : ℕ := 1 + onionAnnounceSendbackDataLength + 24 + 1 + onionPingIdSize + macBytes

/-- `ONION_ANNOUNCE_RESPONSE_MAX_SIZE`. -/
abbrev onionAnnounceResponseMaxSize : ℕ := onionAnnounceResponseMinSize + sizeofNodeFormat * maxSentNodes

/-- The keys of an `Onion_Friend`, with the temporary pair that `onion_addfriend` draws. -/
structure SearchedFriend (sodium : Sodium) where
  status : Bool
  realPublicKey : PublicKey
  tempKeys : KeyPair sodium

/-- The part of an `Onion_Client` that requests and responses use, with the key pair of its `Net_Crypto`. The length of
`friendsList` is `num_friends`, a number of 16 bits. -/
structure AnnounceClient (sodium : Sodium) where
  selfKeys : KeyPair sodium
  tempPublicKey : PublicKey
  friendsList : List (SearchedFriend sodium)
  announcePingArray : PingArray

/-- What a request gets from outside: the clock, a random number, whether the allocation succeeds, a new nonce, and
the path with its number that `random_path` finds among the own paths or those for friends. -/
structure AnnounceDraw where
  now : UInt64
  rand : UInt64
  alloc : Bool
  nonce : Nonce
  randomPath : Bool → UInt32 → Option (OnionPath × UInt32)

/-! ## Sendbacks -/

/-- What `new_sendback` keeps of a request: its number, the key and the address of the node, and the number of the
path. -/
structure Sendback where
  num : UInt32
  publicKey : PublicKey
  ipPort : IpPort
  pathNum : UInt32

/-- The length of the array `data` of `new_sendback`. -/
abbrev sendbackSize : ℕ := 4 + 32 + 32 + 4

/-- The array `data` of `new_sendback`. -/
def Sendback.stored (sendback : Sendback) : Bytes :=
  (hostBytes32 sendback.num).toList ++ (sendback.publicKey.toList ++ (sendback.ipPort.stored ++
    (hostBytes32 sendback.pathNum).toList))

/-- What `check_sendback` reads from the array `data`. -/
def Sendback.ofStored (data : Bytes) : Sendback :=
  ⟨ofHostBytes32 (slice 4 data 0), slice 32 data 4, IpPort.ofStored (data.drop 36), ofHostBytes32 (slice 4 data 68)⟩

theorem Sendback.stored_length (sendback : Sendback) : sendback.stored.length = sendbackSize := by
  simp only [stored, List.length_append, List.Vector.toList_length, IpPort.stored_length]

/-- What is kept is read back. -/
theorem Sendback.ofStored_stored (sendback : Sendback) : ofStored sendback.stored = sendback := by
  obtain ⟨num, publicKey, ipPort, pathNum⟩ := sendback
  have hlast : (slice 4 (stored ⟨num, publicKey, ipPort, pathNum⟩) 68 : Block 4) = hostBytes32 pathNum := by
    rw [stored, ← List.append_assoc, ← List.append_assoc]
    apply slice_at_end
    simp only [List.length_append, List.Vector.toList_length, IpPort.stored_length]
  have hipPort :
    (stored ⟨num, publicKey, ipPort, pathNum⟩).drop 36 = ipPort.stored ++ (hostBytes32 pathNum).toList := by
    rw [stored, show 36 = 4 + 32 from rfl, drop_skip, List.drop_left' publicKey.toList_length]
  rw [ofStored, hlast, hipPort, IpPort.ofStored_stored, ofHostBytes32_hostBytes32, stored, slice_block,
    ofHostBytes32_hostBytes32, slice_at _ _ _ (List.Vector.toList_length _)]

/-- The bytes that are kept of a request. -/
def Sendback.data (sendback : Sendback) : PingData := ⟨sendback.stored, by rw [sendback.stored_length]; norm_num⟩

/-- `new_sendback`, `none` for -1. -/
def newSendback {sodium : Sodium} (draw : AnnounceDraw) (onionC : AnnounceClient sodium) (sendback : Sendback) :
    Option UInt64 × AnnounceClient sodium :=
  let (id, pings) := pingArrayAdd draw.now draw.rand draw.alloc onionC.announcePingArray sendback.data
  (if id = 0 then none else some id, { onionC with announcePingArray := pings })

/-- `check_sendback`, `none` for ~0, which is no number of a friend. -/
def checkSendback {sodium : Sodium} (now : UInt64) (onionC : AnnounceClient sodium)
    (sendback : Block onionAnnounceSendbackDataLength) : Option Sendback × AnnounceClient sodium :=
  let check := pingArrayCheck now (UInt32.ofNat sendbackSize) onionC.announcePingArray (ofHostBytes sendback)
  (if check.result ≠ Int32.ofNat sendbackSize then none else some (Sendback.ofStored (check.copied.getD [])),
    { onionC with announcePingArray := check.array })

/-! ## Requests -/

/-- The arguments of `create_announce_request` that depend on the number of a request. -/
structure AnnounceAsking (sodium : Sodium) where
  keys : KeyPair sodium
  clientId : PublicKey
  dataPublicKey : PublicKey

/-- The two calls of `create_announce_request`: for ourselves with the real keys and the temporary data key, for a
friend with the temporary keys and zero bytes. -/
def AnnounceClient.asking {sodium : Sodium} (onionC : AnnounceClient sodium) (num : UInt32) :
    Option (AnnounceAsking sodium) :=
  if num = 0 then some ⟨onionC.selfKeys, onionC.selfKeys.publicKey, onionC.tempPublicKey⟩
  else onionC.friendsList[num.toNat - 1]?.map fun friend => ⟨friend.tempKeys, friend.realPublicKey, .zero⟩

/-- A request that is handed to `send_onion_packet_tcp_udp`: the path with its number, the destination, the packet,
and its id. -/
structure AnnounceSending where
  path : OnionPath
  pathNum : UInt32
  dest : IpPort
  request : Bytes
  sendback : UInt64

/-- `client_send_announce_request`, up to `send_onion_packet_tcp_udp`. -/
def clientSendAnnounceRequest (sodium : Sodium) (draw : AnnounceDraw) (onionC : AnnounceClient sodium) (num : UInt32)
    (dest : IpPort) (destPubkey : PublicKey) (pingId : Option (Block onionPingIdSize)) (pathnum : UInt32) :
    Option AnnounceSending × AnnounceClient sodium :=
  if num.toNat > onionC.friendsList.length then (none, onionC)
  else
    match draw.randomPath (num = 0) pathnum with
    | none => (none, onionC)
    | some (path, pathNum) =>
      match newSendback draw onionC ⟨num, destPubkey, dest, pathNum⟩ with
      | (none, onionC) => (none, onionC)
      | (some sendback, onionC) =>
        ((onionC.asking num).bind fun asking =>
          (createAnnounceRequest sodium draw.nonce onionAnnounceRequestSize destPubkey asking.keys
            (pingId.getD (List.Vector.replicate _ 0)) asking.clientId asking.dataPublicKey (hostBytes sendback)).map
              fun request => ⟨path, pathNum, dest, request, sendback⟩, onionC)

/-! ## Responses -/

/-- A call of `client_add_to_list`. -/
structure ClientAddToList where
  num : UInt32
  publicKey : PublicKey
  ipPort : IpPort
  isStored : UInt8
  pingidOrKey : Block 32
  pathNum : UInt32

/-- The secret key that a response is decrypted with, `none` for a friend that was deleted. -/
def AnnounceClient.openingKey {sodium : Sodium} (onionC : AnnounceClient sodium) (num : UInt32) : Option SecretKey :=
  if num = 0 then some onionC.selfKeys.secretKey
  else onionC.friendsList[num.toNat - 1]?.bind fun friend =>
    if friend.status then some friend.tempKeys.secretKey else none

/-- The part of `handle_announce_response` behind the lookup of the sendback. -/
def openAnnounceResponse {sodium : Sodium} (onionC : AnnounceClient sodium) (packet : Bytes) (sendback : Sendback) :
    Option ClientAddToList :=
  if sendback.num.toNat > onionC.friendsList.length then none
  else
    (onionC.openingKey sendback.num).bind fun secretKey =>
      (decryptData sodium sendback.publicKey secretKey (slice 24 packet (1 + onionAnnounceSendbackDataLength))
        (packet.drop (1 + onionAnnounceSendbackDataLength + 24))).bind fun plain =>
          if plain.length ≠ 1 + onionPingIdSize + (packet.length - onionAnnounceResponseMinSize) then none
          else some ⟨sendback.num, sendback.publicKey, sendback.ipPort, plain.getD 0 0, slice 32 plain 1,
            sendback.pathNum⟩

/-- `handle_announce_response`, up to its call of `client_add_to_list`. -/
def handleAnnounceResponse {sodium : Sodium} (now : UInt64) (onionC : AnnounceClient sodium) (packet : Bytes) :
    Option ClientAddToList × AnnounceClient sodium :=
  if packet.length < onionAnnounceResponseMinSize ∨ packet.length > onionAnnounceResponseMaxSize then (none, onionC)
  else
    let (sendback, onionC) := checkSendback now onionC (slice onionAnnounceSendbackDataLength packet 1)
    (sendback.bind (openAnnounceResponse onionC packet), onionC)

end Toxcore
