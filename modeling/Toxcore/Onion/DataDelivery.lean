import Toxcore.Onion.Client

/-!
# Delivery of onion data

A message of `send_onion_data` goes to a node that stored the friend's announcement, and from there to the friend. Each
layer adds its own bytes to the message and each function checks the length with its own constant. The check in
`handle_data_response` compares the whole packet with `MAX_DATA_REQUEST_SIZE`, which bounds its contents only, so the
longest messages that can be sent are dropped by the friend.
-/

namespace Toxcore

open ByteStrings List Option

/-- The friend receives what stands behind the return part of a relayed packet, and calls its handler with the key of
the sender and the data. -/
def Delivers (sodium : Sodium) (now : UInt64) (onionA : OnionAnnounce) (onionC : OnionClient)
    (selfSecretKey : SecretKey) (request : Bytes) (call : OnionDataCall) : Prop :=
  ∀ ret : Block onionReturn3, ∃ dest sent, handleDataRequest now onionA (request ++ ret.toList) = some (dest, sent) ∧
    handleDataResponse sodium onionC selfSecretKey (sent.drop (1 + onionReturn3)) = some call

/-- The longest message that the friend accepts. -/
abbrev deliveredDataSize : ℕ := maxDataRequestSize - (onionDataResponseMinSize + onionDataInResponseMinSize)

/-- What one key pair encrypts for another, the other decrypts. -/
theorem Sodium.Lawful.encryptData_decryptData {sodium : Sodium} (h : sodium.Lawful) (source dest : KeyPair sodium)
    (nonce : Nonce) {plain : Bytes} (hplain : plain.length ≠ 0) :
    ∃ encrypted, encryptData sodium dest.publicKey source.secretKey nonce plain = some encrypted ∧
      encrypted.length = plain.length + macBytes ∧
      decryptData sodium source.publicKey dest.secretKey nonce encrypted = some plain := by
  have hkey : sodium.beforenm dest.publicKey source.secretKey = sodium.beforenm source.publicKey dest.secretKey := by
    rw [dest.valid, source.valid, h.beforenm_comm]
  rw [encryptData, hkey]
  exact h.encrypt_decrypt (sodium.beforenm source.publicKey dest.secretKey) nonce hplain

section

variable {sodium : Sodium} {self real temp random : KeyPair sodium} {nonce : Nonce} {data packet request : Bytes}

/-- The packet inside a request. -/
theorem onionDataPacket_eq (h : sodium.Lawful) (hdata : data.length ≠ 0)
    (hpacket : onionDataPacket sodium self real.publicKey nonce data = some packet) :
    ∃ encrypted, packet = self.publicKey.toList ++ encrypted ∧ encrypted.length = data.length + macBytes ∧
      decryptData sodium self.publicKey real.secretKey nonce encrypted = some data := by
  obtain ⟨encrypted, hencrypt, hlength, hdecrypt⟩ := h.encryptData_decryptData self real nonce hdata
  have hsize : ¬encrypted.length + 32 ≠ onionDataInResponseMinSize + data.length := by
    rw [hlength]
    change ¬data.length + 16 + 32 ≠ 48 + data.length
    omega
  rw [onionDataPacket, hencrypt] at hpacket
  simp only at hpacket
  rw [if_neg hsize, some.injEq] at hpacket
  exact ⟨encrypted, hpacket.symm, hlength, hdecrypt⟩

/-- A request around a packet. -/
theorem createDataRequest_eq (h : sodium.Lawful) (hpacket : packet.length ≠ 0) {maxPacketLength : ℕ}
    (hrequest : createDataRequest sodium random maxPacketLength real.publicKey temp.publicKey nonce packet =
      some request) :
    ∃ encrypted, request = netPacketOnionDataRequest ::
        (real.publicKey.toList ++ (nonce.toList ++ (random.publicKey.toList ++ encrypted))) ∧
      encrypted.length = packet.length + macBytes ∧ packet.length ≤ maxDataRequestSize ∧
      decryptData sodium random.publicKey temp.secretKey nonce encrypted = some packet := by
  obtain ⟨encrypted, hencrypt, hlength, hdecrypt⟩ := h.encryptData_decryptData random temp nonce hpacket
  have hsize : ¬1 + 32 + 24 + 32 + encrypted.length ≠ onionDataRequestMinSize + packet.length := by
    rw [hlength]
    change ¬89 + (packet.length + 16) ≠ 105 + packet.length
    omega
  rw [createDataRequest, hencrypt] at hrequest
  simp only at hrequest
  split at hrequest
  · contradiction
  · split at hrequest
    · contradiction
    · rename_i hmax
      rw [some.injEq] at hrequest
      refine ⟨encrypted, hrequest.symm, hlength, ?_, hdecrypt⟩
      change packet.length ≤ 1174 - 105
      change ¬105 + packet.length > 1174 at hmax
      omega

/-- A stored key gets the request as a response, without its key. -/
theorem handleDataRequest_relays {now : UInt64} {onionA : OnionAnnounce} {publicKey : PublicKey} {rest : Bytes}
    (hentry : inEntries now onionA.entries publicKey ≠ none) (hmin : 24 + 32 + macBytes < rest.length)
    (hmax : 1 + 32 + rest.length ≤ onionMaxDataSize) (ret : Block onionReturn3) :
    ∃ dest stored, handleDataRequest now onionA
        ((netPacketOnionDataRequest :: (publicKey.toList ++ rest)) ++ ret.toList) =
      some (dest, netPacketOnionRecv3 :: (stored ++ (netPacketOnionDataResponse :: rest))) ∧
      stored.length = onionReturn3 := by
  obtain ⟨index, hindex⟩ := ne_none_iff_exists'.mp hentry
  have hmax' : 33 + rest.length ≤ 1174 := hmax
  have hmin' : 72 < rest.length := hmin
  set packet := (netPacketOnionDataRequest :: (publicKey.toList ++ rest)) ++ ret.toList with hpacket
  have hlength : packet.length = 33 + rest.length + 177 := by
    simp only [hpacket, length_append, length_cons, List.Vector.toList_length]
    change 32 + rest.length + 1 + 177 = _
    omega
  have hkey : slice 32 packet 1 = publicKey := by
    rw [hpacket, cons_append, slice_cons, append_assoc, slice_block]
  have hrest : (packet.drop (1 + 32)).take (packet.length - (1 + 32 + onionReturn3)) = rest := by
    have hsize : packet.length - (1 + 32 + onionReturn3) = rest.length := by
      change packet.length - 210 = _
      omega
    have hdrop : packet.drop (1 + 32) = rest ++ ret.toList := by
      rw [hpacket, cons_append, Nat.add_comm, drop_succ_cons, append_assoc,
        drop_left' publicKey.toList_length]
    rw [hsize, hdrop, take_left' rfl]
  have hfits : ¬((netPacketOnionDataResponse :: rest).length > onionResponseMaxDataSize ∨
      (netPacketOnionDataResponse :: rest).length = 0) := by
    rw [length_cons]
    change ¬(rest.length + 1 > 1222 ∨ rest.length + 1 = 0)
    omega
  have hshort : ¬packet.length ≤ dataRequestMinSizeRecv := by
    change ¬packet.length ≤ 282
    omega
  have hlong : ¬packet.length > onionMaxPacketSize := by
    change ¬packet.length > 1400
    omega
  refine ⟨(onionA.entries index).retIpPort, (slice onionReturn3 (onionA.entries index).ret.toList 0).toList, ?_,
    List.Vector.toList_length _⟩
  rw [handleDataRequest, if_neg hshort, if_neg hlong, hkey, hindex]
  simp only
  rw [hrest, sendOnionResponse, if_neg hfits, map_some]

variable {onionC : OnionClient}

/-- A response that is not too long is decrypted twice and handed to its handler. -/
theorem handleDataResponse_eq {object : ℕ} {encrypted inner : Bytes} (htemp : onionC.tempSecretKey = temp.secretKey)
    (hhandler : onionC.onionDataHandlers (data.headD 0) = some object)
    (hinner : decryptData sodium self.publicKey real.secretKey nonce inner = some data)
    (hencrypted : decryptData sodium random.publicKey temp.secretKey nonce encrypted =
      some (self.publicKey.toList ++ inner)) (hdata : data.length ≠ 0) (hmax : data.length ≤ deliveredDataSize) :
    handleDataResponse sodium onionC real.secretKey
        (netPacketOnionDataResponse :: (nonce.toList ++ (random.publicKey.toList ++ encrypted))) =
      some ⟨object, self.publicKey, data⟩ := by
  have hmac : macBytes = 16 := rfl
  have hmax' : data.length ≤ 948 := hmax
  have hlengthInner := decryptDataSymmetric_length hinner
  have hlengthEncrypted := decryptDataSymmetric_length hencrypted
  rw [length_append, List.Vector.toList_length] at hlengthEncrypted
  set packet := netPacketOnionDataResponse :: (nonce.toList ++ (random.publicKey.toList ++ encrypted)) with hpacket
  have hlength : packet.length = 57 + encrypted.length := by
    simp only [hpacket, length_cons, length_append, List.Vector.toList_length]
    omega
  have hnonce : slice 24 packet 1 = nonce := by rw [hpacket, slice_cons, slice_block]
  have hkey : slice 32 packet 25 = random.publicKey := by
    rw [hpacket, slice_cons _ _ 24, slice_at _ _ _ nonce.toList_length]
  have hdrop : packet.drop 57 = encrypted := by
    rw [hpacket, drop_succ_cons, drop_skip nonce _ 32, drop_left' random.publicKey.toList_length]
  have hshort : ¬packet.length ≤ onionDataResponseMinSize + onionDataInResponseMinSize := by
    change ¬packet.length ≤ 121
    omega
  have hlong : ¬packet.length > maxDataRequestSize := by
    change ¬packet.length > 1069
    omega
  have hplain1 : ¬(self.publicKey.toList ++ inner).length ≠ packet.length - onionDataResponseMinSize := by
    rw [length_append, List.Vector.toList_length]
    change ¬_ ≠ packet.length - 73
    omega
  have hplain2 : ¬data.length ≠ (self.publicKey.toList ++ inner).length - onionDataInResponseMinSize := by
    rw [length_append, List.Vector.toList_length]
    change ¬_ ≠ 32 + inner.length - 48
    omega
  rw [handleDataResponse, if_neg hshort, if_neg hlong, hnonce, hkey, hdrop, htemp, hencrypted, bind_some,
    if_neg hplain1, slice_block, drop_left' self.publicKey.toList_length, hinner, bind_some,
    if_neg hplain2, hhandler, map_some]

/-- A response that is too long is dropped. -/
theorem handleDataResponse_drops {secretKey : SecretKey} (hmax : maxDataRequestSize < packet.length) :
    handleDataResponse sodium onionC secretKey packet = none := by
  have hshort : ¬packet.length ≤ onionDataResponseMinSize + onionDataInResponseMinSize := by
    change 1069 < packet.length at hmax
    change ¬packet.length ≤ 121
    omega
  rw [handleDataResponse, if_neg hshort, if_pos hmax]

/-- A request reaches its friend exactly if the message in it is not too long for the friend. -/
theorem delivers_iff (h : sodium.Lawful) (hdata : data.length ≠ 0)
    (hpacket : onionDataPacket sodium self real.publicKey nonce data = some packet) {maxPacketLength : ℕ}
    (hrequest : createDataRequest sodium random maxPacketLength real.publicKey temp.publicKey nonce packet =
      some request) {now : UInt64} {onionA : OnionAnnounce}
    (hentry : inEntries now onionA.entries real.publicKey ≠ none) (htemp : onionC.tempSecretKey = temp.secretKey)
    {object : ℕ} (hhandler : onionC.onionDataHandlers (data.headD 0) = some object) :
    Delivers sodium now onionA onionC real.secretKey request ⟨object, self.publicKey, data⟩ ↔
      data.length ≤ deliveredDataSize := by
  obtain ⟨inner, rfl, hlengthInner, hinner⟩ := onionDataPacket_eq h hdata hpacket
  have hlengthPacket : (self.publicKey.toList ++ inner).length = 32 + inner.length := by
    rw [length_append, List.Vector.toList_length]
  obtain ⟨encrypted, rfl, hlengthEncrypted, hfits, hencrypted⟩ := createDataRequest_eq h (by omega) hrequest
  have hmac : macBytes = 16 := rfl
  have hfits' : (self.publicKey.toList ++ inner).length ≤ 1069 := hfits
  set response := nonce.toList ++ (random.publicKey.toList ++ encrypted) with hresponse
  have hlength : response.length = 120 + data.length := by
    simp only [hresponse, length_append, List.Vector.toList_length]
    omega
  have hrelays := handleDataRequest_relays hentry
    (by change 72 < _; omega : 24 + 32 + macBytes < response.length) (by change 33 + _ ≤ 1174; omega)
  have hdrop (stored : Bytes) (hstored : stored.length = onionReturn3) :
      (netPacketOnionRecv3 :: (stored ++ (netPacketOnionDataResponse :: response))).drop (1 + onionReturn3) =
        netPacketOnionDataResponse :: response := by
    rw [Nat.add_comm, drop_succ_cons, drop_left' hstored]
  constructor
  · intro hdelivers
    by_contra hlong
    obtain ⟨dest, sent, hsent, hcall⟩ := hdelivers (List.Vector.replicate _ 0)
    obtain ⟨dest', stored, hsent', hstored⟩ := hrelays (List.Vector.replicate _ 0)
    rw [hsent, some.injEq, Prod.mk.injEq] at hsent'
    have hlong' : maxDataRequestSize < (netPacketOnionDataResponse :: response).length := by
      rw [length_cons]
      change ¬data.length ≤ 948 at hlong
      change 1069 < _
      omega
    rw [hsent'.2, hdrop stored hstored, handleDataResponse_drops hlong'] at hcall
    contradiction
  · intro hmax ret
    obtain ⟨dest, stored, hsent, hstored⟩ := hrelays ret
    refine ⟨dest, _, hsent, ?_⟩
    rw [hdrop stored hstored]
    exact handleDataResponse_eq htemp hhandler hinner hencrypted hdata hmax

/-- The requests that are sent for a message: each is made from the same packet for one of the stored nodes. -/
theorem sendOnionData_mem {env : OnionDataEnv sodium} {friendNum : ℕ} {friend : OnionFriend}
    (hfriend : onionC.friendsList[friendNum]? = some friend) {requests : List (OnionPath × IpPort × Bytes)}
    (hsend : sendOnionData sodium env onionC self friendNum data = some requests) {path : OnionPath} {dest : IpPort}
    (hrequest : (path, dest, request) ∈ requests) :
    data.length ≠ 0 ∧ ∃ packet i node, onionDataPacket sodium self friend.realPublicKey env.nonce data = some packet ∧
      node ∈ List.ofFn friend.clientsList ∧ node.isStored = true ∧
      createDataRequest sodium (env.keyPair i) onionMaxPacketSize friend.realPublicKey node.dataPublicKey env.nonce
        packet = some request := by
  rw [sendOnionData, hfriend] at hsend
  simp only at hsend
  split at hsend
  · contradiction
  · split at hsend
    · contradiction
    · rename_i hdata
      split at hsend
      · contradiction
      · obtain ⟨packet, hpacket, rfl⟩ := map_eq_some_iff.mp hsend
        obtain ⟨⟨node, i⟩, hnode, hmade⟩ := mem_filterMap.mp hrequest
        obtain ⟨path', -, hmade⟩ := bind_eq_some_iff.mp hmade
        obtain ⟨request', hrequest', heq⟩ := map_eq_some_iff.mp hmade
        obtain ⟨-, -, rfl⟩ : path' = path ∧ node.ipPort = dest ∧ request' = request := by simpa using heq
        obtain ⟨hgood, hstored⟩ := mem_filter.mp (fst_mem_of_mem_zipIdx hnode)
        exact ⟨hdata, packet, i, node, hpacket, (mem_filter.mp hgood).1, hstored, hrequest'⟩

/-- Every message of an accepted length is sent, if enough nodes are stored and there is a path. -/
theorem sendOnionData_sends (h : sodium.Lawful) {env : OnionDataEnv sodium} {friendNum : ℕ} {friend : OnionFriend}
    (hfriend : onionC.friendsList[friendNum]? = some friend) (hreal : friend.realPublicKey = real.publicKey)
    (hpos : 1 ≤ data.length) (hmax : data.length ≤ onionClientMaxDataSize)
    (hgood : (friend.listNodes env.unixTime).length / 4 + 1 ≤
      ((friend.listNodes env.unixTime).filter OnionNode.isStored).length)
    (hkeys : ∀ node ∈ List.ofFn friend.clientsList, node.isStored = true → node.dataPublicKey = temp.publicKey)
    {path : OnionPath} (hpath : env.randomPath 0 = some path) :
    ∃ requests request, sendOnionData sodium env onionC self friendNum data = some requests ∧ request ∈ requests := by
  have hmax' : data.length ≤ 1021 := hmax
  have hmac : macBytes = 16 := rfl
  obtain ⟨inner, hinner, hlengthInner, -⟩ := h.encryptData_decryptData self real env.nonce (by omega : data.length ≠ 0)
  have hsize : ¬inner.length + 32 ≠ onionDataInResponseMinSize + data.length := by
    change ¬_ ≠ 48 + data.length
    omega
  set packet := self.publicKey.toList ++ inner with hpacketEq
  have hpacket : onionDataPacket sodium self real.publicKey env.nonce data = some packet := by
    rw [onionDataPacket, hinner]
    simp only
    rw [if_neg hsize]
  have hlengthPacket : packet.length = 48 + data.length := by
    rw [hpacketEq, length_append, List.Vector.toList_length]
    omega
  obtain ⟨encrypted, hencrypted, hlengthEncrypted, -⟩ :=
    h.encryptData_decryptData (env.keyPair 0) temp env.nonce (by omega : packet.length ≠ 0)
  obtain ⟨node, rest, hnodes⟩ :
    ∃ node rest, (friend.listNodes env.unixTime).filter OnionNode.isStored = node :: rest := by
    cases hnodes : (friend.listNodes env.unixTime).filter OnionNode.isStored with
    | nil =>
      rw [hnodes, length_nil] at hgood
      omega
    | cons node rest => exact ⟨node, rest, rfl⟩
  have hnode : node ∈ (friend.listNodes env.unixTime).filter OnionNode.isStored := hnodes ▸ mem_cons_self
  obtain ⟨hlist, hstored⟩ := mem_filter.mp hnode
  have hkey := hkeys node (mem_filter.mp hlist).1 hstored
  obtain ⟨request, hrequest⟩ : ∃ request, createDataRequest sodium (env.keyPair 0) onionMaxPacketSize real.publicKey
      temp.publicKey env.nonce packet = some request := by
    have hfits1 : ¬onionDataRequestMinSize + packet.length > onionMaxPacketSize := by
      change ¬105 + packet.length > 1400
      omega
    have hfits2 : ¬onionDataRequestMinSize + packet.length > onionMaxDataSize := by
      change ¬105 + packet.length > 1174
      omega
    have hsize2 : ¬1 + 32 + 24 + 32 + encrypted.length ≠ onionDataRequestMinSize + packet.length := by
      change ¬89 + encrypted.length ≠ 105 + packet.length
      omega
    rw [createDataRequest, if_neg hfits1, if_neg hfits2, hencrypted]
    simp only
    rw [if_neg hsize2]
    exact ⟨_, rfl⟩
  have hlong : ¬data.length + onionDataInResponseMinSize > maxDataRequestSize := by
    change ¬data.length + 48 > 1069
    omega
  rw [sendOnionData, hfriend]
  simp only
  rw [if_neg hlong, if_neg (by omega), if_neg (by omega), hreal, hpacket, map_some]
  refine ⟨_, (path, node.ipPort, request), rfl, ?_⟩
  apply mem_filterMap.mpr
  refine ⟨(node, 0), ?_, ?_⟩
  · rw [hnodes, zipIdx_cons]
    exact mem_cons_self
  · simp only [hpath, bind_some, hkey, hrequest, map_some]

end

/-- Of the messages that are sent, those that reach the friend are the ones of at most `deliveredDataSize` bytes. -/
theorem onionData_delivered_iff {sodium : Sodium} (h : sodium.Lawful) (env : OnionDataEnv sodium) (sender : OnionClient)
    (self real temp : KeyPair sodium) (friendNum : ℕ) (friend : OnionFriend)
    (hfriend : sender.friendsList[friendNum]? = some friend) (hreal : friend.realPublicKey = real.publicKey)
    (hkeys : ∀ node ∈ List.ofFn friend.clientsList, node.isStored = true → node.dataPublicKey = temp.publicKey)
    (data : Bytes) (requests : List (OnionPath × IpPort × Bytes))
    (hsend : sendOnionData sodium env sender self friendNum data = some requests) (now : UInt64)
    (onionA : OnionAnnounce) (hentry : inEntries now onionA.entries real.publicKey ≠ none) (receiver : OnionClient)
    (htemp : receiver.tempSecretKey = temp.secretKey) (object : ℕ)
    (hhandler : receiver.onionDataHandlers (data.headD 0) = some object) :
    ∀ request ∈ requests, Delivers sodium now onionA receiver real.secretKey request.2.2
      ⟨object, self.publicKey, data⟩ ↔ data.length ≤ deliveredDataSize := by
  rintro ⟨path, dest, request⟩ hrequest
  obtain ⟨hdata, packet, i, node, hpacket, hnode, hstored, hmade⟩ := sendOnionData_mem hfriend hsend hrequest
  rw [hreal] at hpacket hmade
  rw [hkeys node hnode hstored] at hmade
  exact delivers_iff h hdata hpacket hmade hentry htemp hhandler

/-- A friend whose announcement all nodes stored. -/
def plainFriend : OnionFriend :=
  { OnionFriend.zero with
    status := true
    realPublicKey := (plainKeyPair 1).publicKey
    clientsList := fun _ => { OnionNode.zero with isStored := true, dataPublicKey := (plainKeyPair 2).publicKey } }

/-- A client with this friend, and a handler for every first byte. -/
def plainClient : OnionClient :=
    ⟨[plainFriend], (plainKeyPair 2).publicKey, (plainKeyPair 2).secretKey, fun _ => some 0⟩

/-- A path that exists. -/
def plainPath : OnionPath :=
  createOnionPath Sodium.plain (plainKeyPair 0) (plainKeyPair 0) (plainKeyPair 0) .zero .zero .zero

/-- The clock at zero, and a path for each node. -/
def plainDataEnv : OnionDataEnv Sodium.plain :=
  ⟨0, List.Vector.replicate 24 0, fun _ => some plainPath, fun _ => plainKeyPair 3⟩

/-- A node that stored the announcement of the friend. -/
def plainAnnounce : OnionAnnounce :=
  { newOnionAnnounce (Dht.new .zero) (plainKeyPair 4).secretKey (plainKeyPair 5).secretKey with
    entries := fun _ => { OnionAnnounceEntry.zero with publicKey := (plainKeyPair 1).publicKey } }

theorem plainAnnounce_entry : inEntries 0 plainAnnounce.entries (plainKeyPair 1).publicKey ≠ none := by
  rw [inEntries, finRange_succ, find?_cons_of_pos]
  · exact some_ne_none _
  · decide

theorem plainFriend_listNodes : (plainFriend.listNodes plainDataEnv.unixTime).length / 4 + 1 ≤
    ((plainFriend.listNodes plainDataEnv.unixTime).filter OnionNode.isStored).length := by
  decide

theorem plainFriend_keys : ∀ node ∈ List.ofFn plainFriend.clientsList, node.isStored = true →
    node.dataPublicKey = (plainKeyPair 2).publicKey := by
  intro node hnode _
  obtain ⟨i, rfl⟩ := mem_ofFn.mp hnode
  rfl

/-- Every message of an accepted length is sent. -/
theorem plainClient_sends {data : Bytes} (hpos : 1 ≤ data.length) (hmax : data.length ≤ onionClientMaxDataSize) :
    ∃ requests request, sendOnionData Sodium.plain plainDataEnv plainClient (plainKeyPair 0) 0 data = some requests ∧
      request ∈ requests :=
  sendOnionData_sends Sodium.plain_lawful (show plainClient.friendsList[0]? = some plainFriend from rfl)
    (show plainFriend.realPublicKey = (plainKeyPair 1).publicKey from rfl) hpos hmax plainFriend_listNodes
    plainFriend_keys (show plainDataEnv.randomPath 0 = some plainPath from rfl)

/-- A message of one byte reaches the friend. -/
theorem onionData_delivered_iff_oneByte : ∃ requests request,
    sendOnionData Sodium.plain plainDataEnv plainClient (plainKeyPair 0) 0 [1] = some requests ∧ request ∈ requests ∧
      Delivers Sodium.plain 0 plainAnnounce plainClient (plainKeyPair 1).secretKey request.2.2
        ⟨0, (plainKeyPair 0).publicKey, [1]⟩ := by
  obtain ⟨requests, request, hsend, hrequest⟩ := plainClient_sends (by decide : 1 ≤ [(1 : UInt8)].length) (by decide)
  refine ⟨requests, request, hsend, hrequest, ?_⟩
  exact (onionData_delivered_iff Sodium.plain_lawful plainDataEnv plainClient (plainKeyPair 0) (plainKeyPair 1)
    (plainKeyPair 2) 0 plainFriend rfl rfl plainFriend_keys [1] requests hsend 0 plainAnnounce plainAnnounce_entry
    plainClient rfl 0 rfl request hrequest).mpr (by decide)

/-- The longest message that can be sent does not reach the friend. -/
theorem longestOnionData_not_delivered : ∃ requests request,
    sendOnionData Sodium.plain plainDataEnv plainClient (plainKeyPair 0) 0 (List.replicate onionClientMaxDataSize 1) =
      some requests ∧ request ∈ requests ∧
      ¬Delivers Sodium.plain 0 plainAnnounce plainClient (plainKeyPair 1).secretKey request.2.2
        ⟨0, (plainKeyPair 0).publicKey, List.replicate onionClientMaxDataSize 1⟩ := by
  have hlength : (List.replicate onionClientMaxDataSize (1 : UInt8)).length = onionClientMaxDataSize :=
    length_replicate
  obtain ⟨requests, ⟨path, dest, request⟩, hsend, hrequest⟩ :=
    plainClient_sends (by rw [hlength]; decide : 1 ≤ (List.replicate onionClientMaxDataSize (1 : UInt8)).length)
      hlength.le
  refine ⟨requests, (path, dest, request), hsend, hrequest, ?_⟩
  obtain ⟨hdata, packet, i, node, hpacket, hnode, hstored, hmade⟩ :=
    sendOnionData_mem (show plainClient.friendsList[0]? = some plainFriend from rfl) hsend hrequest
  rw [plainFriend_keys node hnode hstored] at hmade
  intro hdelivers
  have hshort := (delivers_iff Sodium.plain_lawful hdata hpacket hmade plainAnnounce_entry
    (show plainClient.tempSecretKey = (plainKeyPair 2).secretKey from rfl) rfl).mp hdelivers
  rw [hlength] at hshort
  exact absurd hshort (by decide)

end Toxcore
