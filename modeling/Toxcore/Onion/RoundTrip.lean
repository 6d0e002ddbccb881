import Toxcore.Onion.Packets

/-!
# The way of a request and of its response

A request passes three nodes: each opens one layer and adds itself to the return part. `IsReturn` says what a node put
there; a response finds it again as long as the node keeps its key. The lengths that the handlers check are met by every
request and every response that the two ends may send.
-/

namespace Toxcore

open ByteStrings List Option

/-! ## Addresses -/

/-- The families of the addresses of nodes. -/
def IpPort.HostFamily (address : IpPort) : Prop := address.ip.family = afInet ∨ address.ip.family = afInet6

/-- What an address says: its family, the bytes of the address of the family, and the port. -/
def IpPort.fields (address : IpPort) : UInt8 × Bytes × UInt16 :=
  (address.ip.family, address.ip.bytes.toList.take (sizeIp (isIpv6 address.ip.family)), address.port)

theorem ipPack_length (ip : Ip) : (ipPack ip).length = 1 + 16 := by
  simp only [ipPack]
  split <;> simp

theorem ipportPack_length (address : IpPort) : (ipportPack address).length = sizeIpport := by
  rw [ipportPack, length_append, ipPack_length, beBytes_length]

/-- The bytes at the front of the union after they were written over old contents. -/
theorem take_overwritten (size : ℕ) (hsize : size ≤ 16) (written : Bytes) (hwritten : written.length = size)
    (old : Block 16) :
    (slice 16 (written ++ old.toList.drop size) 0).toList.take size = written := by
  rw [slice_toList (by simp only [length_append, length_drop, List.Vector.toList_length]; omega),
    drop_zero, take_take, Nat.min_eq_left hsize, take_left' hwritten]

variable {size : ℕ} {sodium : Sodium}

/-- Unpacking where the family is known. -/
theorem ipUnpack_cons {family host : UInt8} (h : toHostFamily family = some host) (target : Ip) (data : Bytes)
    (hsize : 1 + 16 ≤ size) (disableFamilyCheck : Bool) {width : ℕ}
    (hwidth : (if family = toxAfInet ∨ family = toxTcpInet then 4 else 16) = width) :
    ipUnpack target (family :: data) size disableFamilyCheck = some { target with
      family := host, bytes := slice 16 (data.take width ++ target.bytes.toList.drop width) 0 } := by
  subst hwidth
  rw [ipUnpack, if_neg (by omega)]
  simp only [headD_cons, drop_one, tail_cons, h]
  rfl

/-- An address that is packed and unpacked has the same family and bytes. -/
theorem ipUnpack_ipPack {source : Ip} (h : source.family = afInet ∨ source.family = afInet6) (target : Ip)
    (rest : Bytes) (hsize : 1 + 16 ≤ size) (disableFamilyCheck : Bool) :
    ∃ ip, ipUnpack target (ipPack source ++ rest) size disableFamilyCheck = some ip ∧ ip.family = source.family ∧
      ip.bytes.toList.take (sizeIp (isIpv6 source.family)) =
        source.bytes.toList.take (sizeIp (isIpv6 source.family)) := by
  rcases h with h | h
  · have hip4 : source.ip4.toList = source.bytes.toList.take 4 := slice_toList (by simp)
    have hpack : ipPack source = toxAfInet :: (source.ip4.toList ++ List.replicate 12 0) := by
      rw [ipPack, h]
      rfl
    have hsizeIp : sizeIp (isIpv6 afInet) = 4 := by decide
    rw [hpack, cons_append,
      ipUnpack_cons (by decide : toHostFamily toxAfInet = some afInet) target _ hsize _ (by decide : _ = 4),
      append_assoc, take_left' source.ip4.toList_length]
    refine ⟨_, rfl, h.symm, ?_⟩
    rw [h, hsizeIp, take_overwritten 4 (by decide) _ source.ip4.toList_length, hip4]
  · have hpack : ipPack source = toxAfInet6 :: source.bytes.toList := by
      rw [ipPack, h]
      rfl
    have hsizeIp : sizeIp (isIpv6 afInet6) = 16 := by decide
    rw [hpack, cons_append,
      ipUnpack_cons (by decide : toHostFamily toxAfInet6 = some afInet6) target _ hsize _ (by decide : _ = 16),
      take_left' source.bytes.toList_length]
    refine ⟨_, rfl, h.symm, ?_⟩
    rw [h, hsizeIp, take_overwritten 16 (le_refl 16) _ source.bytes.toList_length,
      take_of_length_le (by rw [List.Vector.toList_length])]

variable {address source : IpPort} {plain : Bytes} {returnSize : ℕ}

/-- An address that is packed and unpacked says the same. -/
theorem ipportUnpack_ipportPack (h : source.HostFamily) (target : IpPort) (rest : Bytes) (hsize : sizeIpport ≤ size)
    (disableFamilyCheck : Bool) :
    ∃ address, ipportUnpack target (ipportPack source ++ rest) size disableFamilyCheck = some address ∧
      address.fields = source.fields := by
  have hsize' : 19 ≤ size := hsize
  obtain ⟨ip, hip, hfamily, hbytes⟩ := ipUnpack_ipPack h target.ip (beBytes 2 source.port.toNat ++ rest)
    (by omega : 1 + 16 ≤ size) disableFamilyCheck
  have hport : UInt16.ofNat (beNat (slice 2 (ipportPack source ++ rest) 17).toList) = source.port := by
    rw [ipportPack, append_assoc, ← beBlock_toList, slice_at _ _ _ (ipPack_length source.ip), beBlock_toList,
      beNat_beBytes_of_lt source.port.toNat_lt, UInt16.ofNat_toNat]
  refine ⟨{ target with ip := ip, port := source.port }, ?_, ?_⟩
  · rw [ipportUnpack, if_neg (by omega), hport, ipportPack, append_assoc, hip, map_some]
  · simp only [IpPort.fields, hfamily, hbytes]

/-! ## Layers and return parts -/

/-- A handler sends these bytes to an address that says the same as `dest`. -/
def SendsTo (action : Option OnionAction) (dest : IpPort) (data : Bytes) : Prop :=
  ∃ sendTo, action = some (.sendpacket sendTo data) ∧ sendTo.fields = dest.fields

/-- The clock does not yet ask for a new symmetric key. -/
def Onion.Keeps (onion : Onion) (env : OnionEnv) : Prop :=
  isTimeout env.unixTime onion.timestamp keyRefreshInterval = false

theorem Onion.Keeps.changeSymmetricKey {onion : Onion} {env : OnionEnv} (h : onion.Keeps env) :
    changeSymmetricKey env onion = onion := by
  rw [Toxcore.changeSymmetricKey, h]
  rfl

/-- A layer is opened by whoever has its key. -/
theorem openLayer_eq {sharedKey : SharedKey} {nonce : Nonce} {encrypted : Bytes}
    (h : decryptDataSymmetric sodium sharedKey nonce encrypted = some plain) (type : UInt8) (publicKey : PublicKey)
    (ret : Bytes) (hret : ret.length = returnSize) :
    openLayer sodium sharedKey (type :: (nonce.toList ++ (publicKey.toList ++ (encrypted ++ ret)))) returnSize =
      some plain := by
  have hplain := decryptDataSymmetric_length h
  have hlength : (type :: (nonce.toList ++ (publicKey.toList ++ (encrypted ++ ret)))).length =
      onionHeader + encrypted.length + returnSize := by
    simp only [length_cons, length_append, List.Vector.toList_length, hret, onionHeader]
    omega
  have hnonce : slice 24 (type :: (nonce.toList ++ (publicKey.toList ++ (encrypted ++ ret)))) 1 = nonce := by
    rw [slice_cons, slice_block]
  have hdrop : (type :: (nonce.toList ++ (publicKey.toList ++ (encrypted ++ ret)))).drop onionHeader =
      encrypted ++ ret := by
    change List.drop (24 + 32) (nonce.toList ++ (publicKey.toList ++ (encrypted ++ ret))) = _
    rw [drop_skip nonce, drop_left' publicKey.toList_length]
  have hsize : onionHeader + encrypted.length + returnSize - (onionHeader + returnSize) = encrypted.length := by omega
  rw [openLayer, hnonce, hdrop, hlength, hsize, take_left' rfl, h]
  simp only
  rw [if_neg (by omega)]

/-- What a node with this key put in front of a packet: the source and what was there before. -/
structure IsReturn (sodium : Sodium) (key : SharedKey) (source : IpPort) (previous ret : Bytes) : Prop where
  length : ret.length = 24 + (sizeIpport + previous.length + macBytes)
  opens : ∀ onion : Onion, onion.secretSymmetricKey = key → ∀ type data,
    openReturn sodium onion (type :: (ret ++ data)) ret.length = some (ipportPack source ++ previous, data)

/-- A return part is made for every source, and opened with the same key. -/
theorem Sodium.Lawful.returnPart (h : sodium.Lawful) (env : OnionEnv) (onion : Onion) (source : IpPort)
    (previous : Bytes) :
    ∃ ret, returnPart sodium env onion source previous = some ret ∧
      IsReturn sodium onion.secretSymmetricKey source previous ret := by
  have hplain : (ipportPack source ++ previous).length = sizeIpport + previous.length := by
    rw [length_append, ipportPack_length]
  have hpos : (ipportPack source ++ previous).length ≠ 0 := by
    rw [hplain, sizeIpport]
    omega
  obtain ⟨encrypted, hencrypt, hlength, hdecrypt⟩ := h.encrypt_decrypt onion.secretSymmetricKey env.nonce hpos
  have hsize : (env.nonce.toList ++ encrypted).length = 24 + encrypted.length := by
    rw [length_append, List.Vector.toList_length]
  refine ⟨env.nonce.toList ++ encrypted, ?_, by rw [hsize, hlength, hplain], ?_⟩
  · rw [Toxcore.returnPart, hencrypt]
    simp only
    rw [if_neg (by omega)]
  · intro later hkey type data
    have hnonce : slice 24 (type :: (env.nonce.toList ++ encrypted ++ data)) 1 = env.nonce := by
      rw [slice_cons, append_assoc, slice_block]
    have hdrop : (type :: (env.nonce.toList ++ encrypted ++ data)).drop (1 + 24) = encrypted ++ data := by
      change List.drop 24 (env.nonce.toList ++ encrypted ++ data) = _
      rw [append_assoc, drop_left' env.nonce.toList_length]
    have hdata : (type :: (env.nonce.toList ++ encrypted ++ data)).drop
        (1 + (env.nonce.toList ++ encrypted).length) = data := by
      rw [Nat.add_comm, drop_succ_cons, drop_left' rfl]
    rw [openReturn, hdata, hnonce, hdrop, hsize, Nat.add_sub_cancel_left, take_left' rfl, hkey, hdecrypt]
    simp only [bind_some]
    rw [if_neg (by omega)]

/-- A layer is made for every nonempty text, and opened with the same key. -/
theorem Sodium.Lawful.onionLayer (h : sodium.Lawful) (address : IpPort) (publicKey : PublicKey)
    (sharedKey : SharedKey) (nonce : Nonce) (hplain : plain.length ≠ 0) :
    ∃ encrypted, onionLayer sodium address publicKey sharedKey nonce plain =
        some (ipportPack address ++ (publicKey.toList ++ encrypted)) ∧
      encrypted.length = plain.length + macBytes ∧
      decryptDataSymmetric sodium sharedKey nonce encrypted = some plain := by
  obtain ⟨encrypted, hencrypt, hlength, hdecrypt⟩ := h.encrypt_decrypt sharedKey nonce hplain
  refine ⟨encrypted, ?_, hlength, hdecrypt⟩
  rw [Toxcore.onionLayer, hencrypt]
  simp only
  rw [if_neg (by omega)]

/-! ## The handlers -/

variable (type : UInt8) (nonce : Nonce) (publicKey : PublicKey)

theorem slice_requestKey (rest : Bytes) :
    slice 32 (type :: (nonce.toList ++ (publicKey.toList ++ rest))) 25 = publicKey := by
  rw [slice_cons _ _ 24, slice_at _ _ _ nonce.toList_length]

theorem request_length (rest : Bytes) :
    (type :: (nonce.toList ++ (publicKey.toList ++ rest))).length = 57 + rest.length := by
  simp only [length_cons, length_append, List.Vector.toList_length]
  omega

/-- The return part at the end of a request. -/
theorem drop_request (encrypted previous : Bytes) (h : previous.length = size) :
    (type :: (nonce.toList ++ (publicKey.toList ++ (encrypted ++ previous)))).drop
      ((type :: (nonce.toList ++ (publicKey.toList ++ (encrypted ++ previous)))).length - size) = previous := by
  have hassoc : type :: (nonce.toList ++ (publicKey.toList ++ (encrypted ++ previous))) =
      (type :: (nonce.toList ++ (publicKey.toList ++ encrypted))) ++ previous := by
    simp only [cons_append, append_assoc]
  rw [hassoc, length_append, h, Nat.add_sub_cancel, drop_left' rfl]

/-- An address is read back from the front of a text. -/
theorem unpack_front (h : address.HostFamily) (target : IpPort) (rest : Bytes) (disableFamilyCheck : Bool) :
    ∃ sendTo, ipportUnpack target (ipportPack address ++ rest) (ipportPack address ++ rest).length disableFamilyCheck =
      some sendTo ∧ sendTo.fields = address.fields := by
  have hsize : sizeIpport ≤ (ipportPack address ++ rest).length := by
    rw [length_append, ipportPack_length]
    exact Nat.le_add_right _ _
  exact ipportUnpack_ipportPack h target rest hsize disableFamilyCheck

/-- The first node forwards a layer that has the length of a request. -/
theorem Sodium.Lawful.onionSend1 (h : sodium.Lawful) (env : OnionEnv) (onion : Onion) (haddress : address.HostFamily)
    {rest : Bytes} (hmin : onionSendBase * 2 < rest.length)
    (hmax : 1 + 24 + rest.length + onionReturn1 ≤ onionMaxPacketSize) (source : IpPort) (nonce : Nonce) :
    ∃ ret, SendsTo (onionSend1 sodium env onion (ipportPack address ++ rest) source nonce) address
        (netPacketOnionSend1 :: (nonce.toList ++ (rest ++ ret))) ∧
      IsReturn sodium onion.secretSymmetricKey source [] ret := by
  have hlength : (ipportPack address ++ rest).length = sizeIpport + rest.length := by
    rw [length_append, ipportPack_length]
  have hlong : ¬(ipportPack address ++ rest).length > onionMaxPacketSize + sizeIpport - (1 + 24 + onionReturn1) := by
    omega
  have hshort : ¬(ipportPack address ++ rest).length ≤ sizeIpport + onionSendBase * 2 := by omega
  obtain ⟨sendTo, hunpack, hfields⟩ := unpack_front haddress env.sendTo rest false
  obtain ⟨ret, hret, hreturn⟩ := h.returnPart env onion source []
  refine ⟨ret, ⟨sendTo, ?_, hfields⟩, hreturn⟩
  rw [Toxcore.onionSend1, if_neg hlong, if_neg hshort, hunpack, hret, bind_some, map_some,
    drop_left' (ipportPack_length address)]

section

variable {sodium : Sodium} {secretKey : SecretKey} {onion : Onion} {env : OnionEnv}

variable {data encrypted packet previous ret : Bytes} {nonce : Nonce} {publicKey : PublicKey} {type : UInt8}

/-- What a node reads of a request: the nonce, the key of the sender, its layer and the return part at the end. -/
theorem request_opened {key : SharedKey}
    (hpacket : packet = type :: (nonce.toList ++ (publicKey.toList ++ (encrypted ++ previous))))
    (hdecrypt : decryptDataSymmetric sodium key nonce encrypted = some plain)
    (hprevious : previous.length = returnSize) :
    slice 24 packet 1 = nonce ∧ slice 32 packet 25 = publicKey ∧ openLayer sodium key packet returnSize = some plain ∧
      packet.drop (packet.length - returnSize) = previous := by
  subst hpacket
  exact ⟨by rw [slice_cons, slice_block], slice_requestKey _ _ _ _,
    openLayer_eq hdecrypt type publicKey previous hprevious,
    drop_request _ _ _ _ _ hprevious⟩

/-- The first node opens its layer. -/
theorem handleSendInitial_eq (hvalid : onion.Valid sodium secretKey) (hkeeps : onion.Keeps env)
    (hpacket : packet = type :: (nonce.toList ++ (publicKey.toList ++ encrypted)))
    (hdecrypt : decryptDataSymmetric sodium (sodium.beforenm publicKey secretKey) nonce encrypted = some plain)
    (hmin : 1 + onionSend1Size < packet.length) (hmax : packet.length ≤ onionMaxPacketSize) (source : IpPort) :
    (handleSendInitial sodium env onion source packet).1 = onionSend1 sodium env onion plain source nonce := by
  rw [← append_nil encrypted] at hpacket
  obtain ⟨hnonce, hkey, hlayer, -⟩ := request_opened hpacket hdecrypt length_nil
  rw [handleSendInitial, if_neg hmax.not_gt, if_neg hmin.not_ge]
  simp only [hkeeps.changeSymmetricKey, hkey, hnonce, hvalid.secretKey]
  rw [(hvalid.sharedKeys1.getSharedKey env.unixTime publicKey).1, hlayer]
  rfl

/-- The second node opens its layer, forwards what is in it and extends the return part. -/
theorem handleSend1_sends (h : sodium.Lawful) (hvalid : onion.Valid sodium secretKey) (hkeeps : onion.Keeps env)
    {rest : Bytes} (hpacket : packet = type :: (nonce.toList ++ (publicKey.toList ++ (encrypted ++ previous))))
    (haddress : address.HostFamily)
    (hdecrypt : decryptDataSymmetric sodium (sodium.beforenm publicKey secretKey) nonce encrypted =
      some (ipportPack address ++ rest)) (hprevious : previous.length = onionReturn1)
    (hmin : 1 + onionSend2 < packet.length) (hmax : packet.length ≤ onionMaxPacketSize) (source : IpPort) :
    ∃ ret, SendsTo (handleSend1 sodium env onion source packet).1 address
        (netPacketOnionSend2 :: (nonce.toList ++ (rest ++ ret))) ∧
      IsReturn sodium onion.secretSymmetricKey source previous ret := by
  obtain ⟨hnonce, hkey, hlayer, hlast⟩ := request_opened hpacket hdecrypt hprevious
  obtain ⟨sendTo, hunpack, hfields⟩ := unpack_front haddress env.sendTo rest false
  obtain ⟨ret, hret, hreturn⟩ := h.returnPart env onion source previous
  refine ⟨ret, ⟨sendTo, ?_, hfields⟩, hreturn⟩
  rw [handleSend1, if_neg hmax.not_gt, if_neg hmin.not_ge]
  simp only [hkeeps.changeSymmetricKey, hkey, hnonce, hvalid.secretKey]
  rw [(hvalid.sharedKeys2.getSharedKey env.unixTime publicKey).1, hlayer, bind_some, hunpack, bind_some,
    hlast, drop_left' (ipportPack_length address)]
  change Option.map _ (returnPart sodium env onion source previous) = _
  rw [hret, map_some]

/-- The third node opens its layer, sends the request to its destination and extends the return part. -/
theorem handleSend2_sends (h : sodium.Lawful) (hvalid : onion.Valid sodium secretKey) (hkeeps : onion.Keeps env)
    (hpacket : packet = type :: (nonce.toList ++ (publicKey.toList ++ (encrypted ++ previous)))) {dest : IpPort}
    (hdest : dest.HostFamily)
    (hdecrypt : decryptDataSymmetric sodium (sodium.beforenm publicKey secretKey) nonce encrypted =
      some (ipportPack dest ++ data))
    (hdata : data.head? = some netPacketAnnounceRequest ∨ data.head? = some netPacketOnionDataRequest)
    (hprevious : previous.length = onionReturn2) (hmin : 1 + onionSend3 < packet.length)
    (hmax : packet.length ≤ onionMaxPacketSize) (source : IpPort) :
    ∃ ret, SendsTo (handleSend2 sodium env onion source packet).1 dest (data ++ ret) ∧
      IsReturn sodium onion.secretSymmetricKey source previous ret := by
  obtain ⟨-, hkey, hlayer, hlast⟩ := request_opened hpacket hdecrypt hprevious
  obtain ⟨first, tail, rfl⟩ : ∃ first tail, data = first :: tail := by
    cases data with
    | nil => simp at hdata
    | cons first tail => exact ⟨first, tail, rfl⟩
  have hlong : ¬(ipportPack dest ++ first :: tail).length ≤ sizeIpport := by
    rw [length_append, ipportPack_length, length_cons]
    omega
  have hfirst : (ipportPack dest ++ first :: tail).getD sizeIpport 0 = first := by
    rw [getD_append_right _ _ _ _ (ipportPack_length dest).le, ipportPack_length, Nat.sub_self,
      getD_cons_zero]
  have htype : ¬(first ≠ netPacketAnnounceRequest ∧ first ≠ netPacketOnionDataRequest) := by
    simp only [head?_cons, some.injEq] at hdata
    rintro ⟨hannounce, hrequest⟩
    exact hdata.elim hannounce hrequest
  obtain ⟨sendTo, hunpack, hfields⟩ := unpack_front hdest env.sendTo (first :: tail) false
  obtain ⟨ret, hret, hreturn⟩ := h.returnPart env onion source previous
  refine ⟨ret, ⟨sendTo, ?_, hfields⟩, hreturn⟩
  rw [handleSend2, if_neg hmax.not_gt, if_neg hmin.not_ge]
  simp only [hkeeps.changeSymmetricKey, hkey, hvalid.secretKey]
  rw [(hvalid.sharedKeys3.getSharedKey env.unixTime publicKey).1, hlayer, bind_some, if_neg hlong, hfirst,
    if_neg htype, hunpack, bind_some, hlast, drop_left' (ipportPack_length dest)]
  change Option.map _ (returnPart sodium env onion source previous) = _
  rw [hret, map_some]

/-- The type of a response, behind a return part. -/
theorem forwardedResponse_eq (hret : ret.length = returnSize)
    (hdata : data.head? = some netPacketAnnounceResponse ∨ data.head? = some netPacketOnionDataResponse)
    (type : UInt8) : forwardedResponse (type :: (ret ++ data)) returnSize = true := by
  have hfirst : (type :: (ret ++ data)).getD (1 + returnSize) 0 = data.getD 0 0 := by
    rw [Nat.add_comm, getD_cons_succ, getD_append_right _ _ _ _ hret.le, hret, Nat.sub_self]
  cases data with
  | nil => simp at hdata
  | cons first tail =>
    rw [forwardedResponse, hfirst]
    simpa using hdata

/-- The lengths of a response behind its return part. -/
theorem response_lengths (hret : ret.length = returnSize)
    (hdata : data.head? = some netPacketAnnounceResponse ∨ data.head? = some netPacketOnionDataResponse)
    (received : UInt8) :
    (received :: (ret ++ data)).length = 1 + returnSize + data.length ∧ data.length ≠ 0 := by
  refine ⟨by rw [length_cons, length_append, hret]; omega, fun hnil => ?_⟩
  rw [length_eq_zero_iff] at hnil
  simp [hnil] at hdata

/-- A node sends a response back to where the request came from. -/
theorem handleRecvForward_sends {key : SharedKey} (hkey : onion.secretSymmetricKey = key) (hkeeps : onion.Keeps env)
    (hsource : source.HostFamily) (hreturn : IsReturn sodium key source previous ret) (hret : ret.length = returnSize)
    (hdata : data.head? = some netPacketAnnounceResponse ∨ data.head? = some netPacketOnionDataResponse)
    (hmax : 1 + returnSize + data.length ≤ onionMaxPacketSize) (received type : UInt8) :
    SendsTo (handleRecvForward sodium type returnSize env onion (received :: (ret ++ data))).1 source
      (type :: (previous ++ data)) := by
  obtain ⟨hlength, hpos⟩ := response_lengths hret hdata received
  obtain ⟨sendTo, hunpack, hfields⟩ := unpack_front hsource env.sendTo previous false
  refine ⟨sendTo, ?_, hfields⟩
  rw [handleRecvForward, if_neg (by omega), if_neg (by omega), forwardedResponse_eq hret hdata]
  simp only [Bool.not_true, Bool.false_eq_true, if_false, hkeeps.changeSymmetricKey]
  rw [← hret, hreturn.opens onion hkey, bind_some]
  simp only
  rw [hunpack, map_some, drop_left' (ipportPack_length source)]

/-- The first node sends the response itself. -/
theorem handleRecv1_sends {key : SharedKey} (hkey : onion.secretSymmetricKey = key) (hkeeps : onion.Keeps env)
    (hsource : source.HostFamily) (hreturn : IsReturn sodium key source [] ret) (hret : ret.length = onionReturn1)
    (hdata : data.head? = some netPacketAnnounceResponse ∨ data.head? = some netPacketOnionDataResponse)
    (hmax : 1 + onionReturn1 + data.length ≤ onionMaxPacketSize) (received : UInt8) :
    SendsTo (handleRecv1 sodium env onion (received :: (ret ++ data))).1 source data := by
  obtain ⟨hlength, hpos⟩ := response_lengths hret hdata received
  obtain ⟨sendTo, hunpack, hfields⟩ := unpack_front hsource env.sendTo [] true
  have hfamily : sendTo.ip.family = source.ip.family := congrArg Prod.fst hfields
  have hhost : ¬(onion.recv1Function = true ∧ sendTo.ip.family ≠ afInet ∧ sendTo.ip.family ≠ afInet6) := by
    rw [hfamily]
    rcases hsource with hsource | hsource <;> simp [hsource]
  refine ⟨sendTo, ?_, hfields⟩
  rw [handleRecv1, if_neg (by omega), if_neg (by omega), forwardedResponse_eq hret hdata]
  simp only [Bool.not_true, Bool.false_eq_true, if_false, hkeeps.changeSymmetricKey]
  rw [← hret, hreturn.opens onion hkey, bind_some]
  simp only
  rw [hunpack, map_some, if_neg hhost]

end

/-! ## The trip -/

/-- A node of a path when the request arrives: its key pair, its state after any calls, and where the packet came
from. -/
structure Hop (sodium : Sodium) (publicKey : PublicKey) where
  secretKey : SecretKey
  publicKey_eq : publicKey = sodium.scalarmultBase secretKey
  onion : Onion
  reaches : OnionReaches sodium secretKey onion
  env : OnionEnv
  keeps : onion.Keeps env
  source : IpPort
  hostFamily : source.HostFamily

/-- The same node when the response arrives. Its symmetric key was not refreshed in between. -/
structure Hop.Later {sodium : Sodium} {publicKey : PublicKey} (hop : Hop sodium publicKey) where
  onion : Onion
  reaches : OnionReaches sodium hop.secretKey onion
  key_eq : onion.secretSymmetricKey = hop.onion.secretSymmetricKey
  env : OnionEnv
  keeps : onion.Keeps env

/-- The key a sender computes for a node is the key the node computes. -/
theorem Sodium.Lawful.sharedKey_hop (h : sodium.Lawful) {publicKey : PublicKey} (hop : Hop sodium publicKey)
    (pair : KeyPair sodium) :
    sodium.beforenm publicKey pair.secretKey = sodium.beforenm pair.publicKey hop.secretKey := by
  calc sodium.beforenm publicKey pair.secretKey
      = sodium.beforenm (sodium.scalarmultBase hop.secretKey) pair.secretKey :=
        congrArg (sodium.beforenm · pair.secretKey) hop.publicKey_eq
    _ = sodium.beforenm (sodium.scalarmultBase pair.secretKey) hop.secretKey := h.beforenm_comm _ _
    _ = sodium.beforenm pair.publicKey hop.secretKey := by rw [pair.valid]

/-- The layers of a request: what each node reads, and the packet around them. -/
theorem Sodium.Lawful.onionStep3 (h : sodium.Lawful) (path : OnionPath) (nonce : Nonce) (dest : IpPort) (data : Bytes) :
    ∃ encrypted2 encrypted3, onionStep3 sodium path nonce dest data =
        some (ipportPack path.ipPort2 ++ (path.publicKey2.toList ++ encrypted2)) ∧
      decryptDataSymmetric sodium path.sharedKey2 nonce encrypted2 =
        some (ipportPack path.ipPort3 ++ (path.publicKey3.toList ++ encrypted3)) ∧
      decryptDataSymmetric sodium path.sharedKey3 nonce encrypted3 = some (ipportPack dest ++ data) ∧
      encrypted2.length = 102 + data.length ∧ encrypted3.length = 35 + data.length := by
  have hmac : macBytes = 16 := rfl
  have hsize : sizeIpport = 19 := rfl
  have hstep1 : (ipportPack dest ++ data).length = 19 + data.length := by
    rw [length_append, ipportPack_length]
  obtain ⟨encrypted3, hlayer3, hlength3, hdecrypt3⟩ := h.onionLayer path.ipPort3 path.publicKey3 path.sharedKey3 nonce
    (by omega : (ipportPack dest ++ data).length ≠ 0)
  have hstep2 :
    (ipportPack path.ipPort3 ++ (path.publicKey3.toList ++ encrypted3)).length = 51 + encrypted3.length := by
    simp only [length_append, ipportPack_length, List.Vector.toList_length]
    omega
  obtain ⟨encrypted2, hlayer2, hlength2, hdecrypt2⟩ := h.onionLayer path.ipPort2 path.publicKey2 path.sharedKey2 nonce
    (by omega : (ipportPack path.ipPort3 ++ (path.publicKey3.toList ++ encrypted3)).length ≠ 0)
  refine ⟨encrypted2, encrypted3, ?_, hdecrypt2, hdecrypt3, by omega, by omega⟩
  rw [Toxcore.onionStep3, hlayer3, bind_some, hlayer2]

/-- The return parts the three nodes of a path add to a request. -/
structure ReturnPath {sodium : Sodium} {publicKey1 publicKey2 publicKey3 : PublicKey} (hop1 : Hop sodium publicKey1)
    (hop2 : Hop sodium publicKey2) (hop3 : Hop sodium publicKey3) (ret1 ret2 ret3 : Bytes) : Prop where
  first : IsReturn sodium hop1.onion.secretSymmetricKey hop1.source [] ret1
  second : IsReturn sodium hop2.onion.secretSymmetricKey hop2.source ret1 ret2
  third : IsReturn sodium hop3.onion.secretSymmetricKey hop3.source ret2 ret3

namespace ReturnPath

variable {sodium : Sodium} {publicKey1 publicKey2 publicKey3 : PublicKey} {hop1 : Hop sodium publicKey1}
  {hop2 : Hop sodium publicKey2} {hop3 : Hop sodium publicKey3} {ret1 ret2 ret3 : Bytes}

section

variable (h : ReturnPath hop1 hop2 hop3 ret1 ret2 ret3)
include h

theorem length1 : ret1.length = onionReturn1 := h.first.length

theorem length2 : ret2.length = onionReturn2 := by
  have hmac : macBytes = 16 := rfl
  have hsize : sizeIpport = 19 := rfl
  have hlength1 : ret1.length = 59 := h.length1
  have hlength2 := h.second.length
  change _ = 118
  omega

theorem length3 : ret3.length = onionReturn3 := by
  have hmac : macBytes = 16 := rfl
  have hsize : sizeIpport = 19 := rfl
  have hlength2 : ret2.length = 118 := h.length2
  have hlength3 := h.third.length
  change _ = 177
  omega

/-- Every response of an allowed length is sent back to the source of the request. -/
theorem response {data : Bytes} (hpos : 1 ≤ data.length) (hmax : data.length ≤ onionResponseMaxDataSize)
    (htype : data.head? = some netPacketAnnounceResponse ∨ data.head? = some netPacketOnionDataResponse)
    (later1 : hop1.Later) (later2 : hop2.Later) (later3 : hop3.Later) :
    sendOnionResponse data ret3 = some (netPacketOnionRecv3 :: (ret3 ++ data)) ∧
      SendsTo (handleRecv3 sodium later3.env later3.onion (netPacketOnionRecv3 :: (ret3 ++ data))).1 hop3.source
        (netPacketOnionRecv2 :: (ret2 ++ data)) ∧
      SendsTo (handleRecv2 sodium later2.env later2.onion (netPacketOnionRecv2 :: (ret2 ++ data))).1 hop2.source
        (netPacketOnionRecv1 :: (ret1 ++ data)) ∧
      SendsTo (handleRecv1 sodium later1.env later1.onion (netPacketOnionRecv1 :: (ret1 ++ data))).1 hop1.source
        data := by
  have hmax' : data.length ≤ 1222 := hmax
  refine ⟨?_, ?_, ?_, ?_⟩
  · have hret : (slice onionReturn3 ret3 0).toList = ret3 := by
      rw [slice_toList (by rw [h.length3]; exact le_of_eq (Nat.zero_add _)), drop_zero,
        take_of_length_le h.length3.le]
    rw [sendOnionResponse, if_neg (by omega), hret]
  · exact handleRecvForward_sends later3.key_eq later3.keeps hop3.hostFamily h.third h.length3 htype
      (by change 178 + data.length ≤ 1400; omega) _ _
  · exact handleRecvForward_sends later2.key_eq later2.keeps hop2.hostFamily h.second h.length2 htype
      (by change 119 + data.length ≤ 1400; omega) _ _
  · exact handleRecv1_sends later1.key_eq later1.keeps hop1.hostFamily h.first h.length1 htype
      (by change 60 + data.length ≤ 1400; omega) _

end

end ReturnPath

/-- The packets of a request on its way: to the first, the second and the third node. -/
theorem onion_request (h : sodium.Lawful) (self random2 random3 : KeyPair sodium)
    (node1 node2 node3 : NodeFormat) (hop1 : Hop sodium node1.publicKey) (hop2 : Hop sodium node2.publicKey)
    (hop3 : Hop sodium node3.publicKey) (hnode2 : node2.ipPort.HostFamily) (hnode3 : node3.ipPort.HostFamily)
    (dest : IpPort) (hdest : dest.HostFamily) (nonce : Nonce) (data : Bytes) (hpos : 1 ≤ data.length)
    (hmax : data.length ≤ onionMaxDataSize)
    (htype : data.head? = some netPacketAnnounceRequest ∨ data.head? = some netPacketOnionDataRequest) :
    let path := createOnionPath sodium self random2 random3 node1 node2 node3
    ∃ packet step3 ret1 ret2 ret3 packet1 packet2, ReturnPath hop1 hop2 hop3 ret1 ret2 ret3 ∧
      createOnionPacket sodium nonce onionMaxPacketSize path dest data = some packet ∧
      createOnionPacketTcp sodium nonce onionMaxPacketSize path dest data = some (nonce.toList ++ step3) ∧
      (handleSendInitial sodium hop1.env hop1.onion hop1.source packet).1 =
        onionSend1 sodium hop1.env hop1.onion step3 hop1.source nonce ∧
      SendsTo (onionSend1 sodium hop1.env hop1.onion step3 hop1.source nonce) node2.ipPort packet1 ∧
      SendsTo (handleSend1 sodium hop2.env hop2.onion hop2.source packet1).1 node3.ipPort packet2 ∧
      SendsTo (handleSend2 sodium hop3.env hop3.onion hop3.source packet2).1 dest (data ++ ret3) ∧
      packet.length = 226 + data.length ∧ packet1.length = 218 + data.length ∧ packet2.length = 210 + data.length := by
  intro path
  have hmac : macBytes = 16 := rfl
  have hsize : sizeIpport = 19 := rfl
  have hdataMax : data.length ≤ 1174 := hmax
  have hkey1 : path.sharedKey1 = sodium.beforenm path.publicKey1 hop1.secretKey := h.sharedKey_hop hop1 self
  have hkey2 : path.sharedKey2 = sodium.beforenm path.publicKey2 hop2.secretKey := h.sharedKey_hop hop2 random2
  have hkey3 : path.sharedKey3 = sodium.beforenm path.publicKey3 hop3.secretKey := h.sharedKey_hop hop3 random3
  obtain ⟨encrypted2, encrypted3, hstep3, hdecrypt2, hdecrypt3, hlength2, hlength3⟩ := h.onionStep3 path nonce dest data
  set step3 := ipportPack path.ipPort2 ++ (path.publicKey2.toList ++ encrypted2) with hstep3eq
  have hstep3length : step3.length = 153 + data.length := by
    simp only [hstep3eq, length_append, ipportPack_length, List.Vector.toList_length]
    omega
  obtain ⟨encrypted1, hencrypt1, hlength1, hdecrypt1⟩ :=
    h.encrypt_decrypt path.sharedKey1 nonce (by omega : step3.length ≠ 0)
  rw [hkey1] at hdecrypt1
  rw [hkey2] at hdecrypt2
  rw [hkey3] at hdecrypt3
  set packet := netPacketOnionSendInitial :: (nonce.toList ++ (path.publicKey1.toList ++ encrypted1)) with hpacket
  have hpacketLength : packet.length = 226 + data.length := by
    rw [hpacket, request_length]
    omega
  have hinitial := handleSendInitial_eq hop1.reaches.valid hop1.keeps hpacket hdecrypt1
    (by change 226 < _; omega) (by change _ ≤ 1400; omega) hop1.source
  have hrest2 : (path.publicKey2.toList ++ encrypted2).length = 134 + data.length := by
    rw [length_append, List.Vector.toList_length]
    omega
  obtain ⟨ret1, hsend1, hreturn1⟩ := h.onionSend1 hop1.env hop1.onion hnode2
    (by change 134 < _; omega : onionSendBase * 2 < (path.publicKey2.toList ++ encrypted2).length)
    (by change 25 + _ + 59 ≤ 1400; omega) hop1.source nonce
  rw [append_assoc] at hsend1
  set packet1 := netPacketOnionSend1 :: (nonce.toList ++ (path.publicKey2.toList ++ (encrypted2 ++ ret1))) with hpacket1
  have hret1 : ret1.length = 59 := hreturn1.length
  have hpacket1Length : packet1.length = 218 + data.length := by
    rw [hpacket1, request_length, length_append]
    omega
  obtain ⟨ret2, hsend2, hreturn2⟩ := handleSend1_sends h hop2.reaches.valid hop2.keeps hpacket1 hnode3 hdecrypt2 hret1
    (by change 218 < _; omega) (by change _ ≤ 1400; omega) hop2.source
  rw [append_assoc] at hsend2
  set packet2 := netPacketOnionSend2 :: (nonce.toList ++ (path.publicKey3.toList ++ (encrypted3 ++ ret2))) with hpacket2
  have hret2 : ret2.length = 118 := by
    rw [hreturn2.length]
    omega
  have hpacket2Length : packet2.length = 210 + data.length := by
    rw [hpacket2, request_length, length_append]
    omega
  obtain ⟨ret3, hsend3, hreturn3⟩ := handleSend2_sends h hop3.reaches.valid hop3.keeps hpacket2 hdest hdecrypt3 htype
    hret2 (by change 210 < _; omega) (by change _ ≤ 1400; omega) hop3.source
  refine ⟨packet, step3, ret1, ret2, ret3, packet1, packet2, ⟨hreturn1, hreturn2, hreturn3⟩, ?_, ?_, hinitial, hsend1,
    hsend2, hsend3, hpacketLength, hpacket1Length, hpacket2Length⟩
  · have hfits : ¬(1 + data.length + onionSend1Size > onionMaxPacketSize ∨ data.length = 0) := by
      change ¬(1 + data.length + 225 > 1400 ∨ data.length = 0)
      omega
    have hlong : ¬encrypted1.length ≠ sizeIpport + onionSendBase * 2 + data.length + macBytes := by
      change ¬_ ≠ 153 + data.length + 16
      omega
    rw [createOnionPacket, if_neg hfits, hstep3, bind_some, hencrypt1]
    simp only
    rw [if_neg hlong]
  · have hfits : ¬(24 + sizeIpport + onionSendBase * 2 + data.length > onionMaxPacketSize ∨ data.length = 0) := by
      change ¬(177 + data.length > 1400 ∨ data.length = 0)
      omega
    rw [createOnionPacketTcp, if_neg hfits, hstep3, map_some]

/-- A request reaches its destination with a return part, over UDP and over TCP, and every response finds its way back
along the same nodes. No packet on the way is too long. -/
theorem onion_round_trip {sodium : Sodium} (h : sodium.Lawful) (self random2 random3 : KeyPair sodium)
    (node1 node2 node3 : NodeFormat) (hop1 : Hop sodium node1.publicKey) (hop2 : Hop sodium node2.publicKey)
    (hop3 : Hop sodium node3.publicKey) (hnode2 : node2.ipPort.HostFamily) (hnode3 : node3.ipPort.HostFamily)
    (dest : IpPort) (hdest : dest.HostFamily) (nonce : Nonce) (data : Bytes) (hpos : 1 ≤ data.length)
    (hmax : data.length ≤ onionMaxDataSize)
    (htype : data.head? = some netPacketAnnounceRequest ∨ data.head? = some netPacketOnionDataRequest) :
    let path := createOnionPath sodium self random2 random3 node1 node2 node3
    ∃ packet packet1 packet2 ret tcpPacket,
      createOnionPacket sodium nonce onionMaxPacketSize path dest data = some packet ∧
      SendsTo (handleSendInitial sodium hop1.env hop1.onion hop1.source packet).1 node2.ipPort packet1 ∧
      SendsTo (handleSend1 sodium hop2.env hop2.onion hop2.source packet1).1 node3.ipPort packet2 ∧
      SendsTo (handleSend2 sodium hop3.env hop3.onion hop3.source packet2).1 dest (data ++ ret) ∧
      ret.length = onionReturn3 ∧
      (∀ sent ∈ [packet, packet1, packet2, data ++ ret], sent.length ≤ onionMaxPacketSize) ∧
      createOnionPacketTcp sodium nonce onionMaxPacketSize path dest data = some tcpPacket ∧
      onionSend1 sodium hop1.env hop1.onion (tcpPacket.drop 24) hop1.source (slice 24 tcpPacket 0) =
        (handleSendInitial sodium hop1.env hop1.onion hop1.source packet).1 ∧
      ∀ (response : Bytes) (later1 : hop1.Later) (later2 : hop2.Later) (later3 : hop3.Later), 1 ≤ response.length →
        response.length ≤ onionResponseMaxDataSize →
        (response.head? = some netPacketAnnounceResponse ∨ response.head? = some netPacketOnionDataResponse) →
        ∃ back3 back2 back1, sendOnionResponse response ret = some back3 ∧
          SendsTo (handleRecv3 sodium later3.env later3.onion back3).1 hop3.source back2 ∧
          SendsTo (handleRecv2 sodium later2.env later2.onion back2).1 hop2.source back1 ∧
          SendsTo (handleRecv1 sodium later1.env later1.onion back1).1 hop1.source response ∧
          ∀ sent ∈ [back3, back2, back1], sent.length ≤ onionMaxPacketSize := by
  obtain ⟨packet, step3, ret1, ret2, ret3, packet1, packet2, hreturns, hpacket, htcp, hinitial, hsend1, hsend2, hsend3,
    hlength, hlength1, hlength2⟩ := onion_request h self random2 random3 node1 node2 node3 hop1 hop2 hop3 hnode2 hnode3
      dest hdest nonce data hpos hmax htype
  have hdataMax : data.length ≤ 1174 := hmax
  have hret1 : ret1.length = 59 := hreturns.length1
  have hret2 : ret2.length = 118 := hreturns.length2
  have hret3 : ret3.length = 177 := hreturns.length3
  refine ⟨packet, packet1, packet2, ret3, nonce.toList ++ step3, hpacket, hinitial ▸ hsend1, hsend2, hsend3,
    hreturns.length3, ?_, htcp, ?_, ?_⟩
  · intro sent hsent
    change sent.length ≤ 1400
    simp only [mem_cons, not_mem_nil, or_false] at hsent
    obtain rfl | rfl | rfl | rfl := hsent
    · omega
    · omega
    · omega
    · rw [length_append]
      omega
  · rw [drop_left' nonce.toList_length, slice_block, hinitial]
  · intro response later1 later2 later3 hresponse hresponseMax hresponseType
    have hresponseMax' : response.length ≤ 1222 := hresponseMax
    obtain ⟨hresponded, hrecv3, hrecv2, hrecv1⟩ :=
      hreturns.response hresponse hresponseMax hresponseType later1 later2 later3
    refine ⟨_, _, _, hresponded, hrecv3, hrecv2, hrecv1, ?_⟩
    intro sent hsent
    change sent.length ≤ 1400
    simp only [mem_cons, not_mem_nil, or_false] at hsent
    obtain rfl | rfl | rfl := hsent <;> rw [length_cons, length_append] <;> omega

/-- An IPv4 address that ends in a byte. -/
def plainAddress (byte : UInt8) : IpPort :=
  { IpPort.zero with ip := { Ip.zero with family := afInet, bytes := List.Vector.replicate 16 byte }, port := 33445 }

/-- A node at such an address. -/
def plainNodeFormat (byte : UInt8) : NodeFormat := ⟨(plainKeyPair byte).publicKey, plainAddress byte⟩

/-- A new node that receives a packet from another address. -/
def plainHop (byte source : UInt8) : Hop Sodium.plain (plainNodeFormat byte).publicKey where
  secretKey := (plainKeyPair byte).secretKey
  publicKey_eq := rfl
  onion := newOnion (plainKeyPair byte).secretKey 0 (List.Vector.replicate 32 byte)
  reaches := .new 0 _
  env := ⟨0, List.Vector.replicate 32 byte, List.Vector.replicate 24 byte, IpPort.zero⟩
  keeps := (by decide : isTimeout 0 0 keyRefreshInterval = false)
  source := plainAddress source
  hostFamily := Or.inl rfl

/-- The same node right after the request. -/
def plainLater (byte source : UInt8) : (plainHop byte source).Later where
  onion := (plainHop byte source).onion
  reaches := (plainHop byte source).reaches
  key_eq := rfl
  env := (plainHop byte source).env
  keeps := (plainHop byte source).keeps

/-- A request of one byte and a response of one byte. -/
theorem onion_round_trip_oneByte :
    ∃ packet2 ret back1,
      SendsTo (handleSend2 Sodium.plain (plainHop 3 2).env (plainHop 3 2).onion (plainAddress 2) packet2).1
        (plainAddress 4) ([netPacketAnnounceRequest] ++ ret) ∧ ret.length = onionReturn3 ∧
      SendsTo (handleRecv1 Sodium.plain (plainHop 1 0).env (plainHop 1 0).onion back1).1 (plainAddress 0)
        [netPacketAnnounceResponse] := by
  obtain ⟨_, _, packet2, ret, _, _, _, _, hsend, hlength, _, _, _, hback⟩ :=
    onion_round_trip Sodium.plain_lawful (plainKeyPair 0) (plainKeyPair 5) (plainKeyPair 6) (plainNodeFormat 1)
      (plainNodeFormat 2) (plainNodeFormat 3) (plainHop 1 0) (plainHop 2 1) (plainHop 3 2) (Or.inl rfl) (Or.inl rfl)
      (plainAddress 4) (Or.inl rfl) (List.Vector.replicate 24 7) [netPacketAnnounceRequest] (by decide) (by decide)
      (Or.inl rfl)
  obtain ⟨_, _, back1, _, _, _, hrecv, _⟩ := hback [netPacketAnnounceResponse] (plainLater 1 0) (plainLater 2 1)
    (plainLater 3 2) (by decide) (by decide) (Or.inl rfl)
  exact ⟨packet2, ret, back1, hsend, hlength, hrecv⟩

end Toxcore
