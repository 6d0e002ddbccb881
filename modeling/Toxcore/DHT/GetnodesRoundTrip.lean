import Toxcore.DHT.Answered

/-!
# Get nodes requests and their answers

A request is answered with the nodes closest to the key it asks for, as packed nodes behind their number and with the
id of the request behind them. `handle_sendnodes_core` finds the size of the packed nodes from the size of the packet.
An answer without nodes is built and sent, and `handle_sendnodes_ipv6` provides for one, but `handle_sendnodes_core`
drops it.
-/

namespace Toxcore

open ByteStrings List Option

/-! ## Packed nodes of an answer -/

variable {entries : List PackedNode} {clientId publicKey : PublicKey} {draw : DhtDraw}
  {ipPort source : IpPort} {node : DhtNode} {sendbackNode : Option NodeFormat} {sodium : Sodium}
  {now : UInt64}

/-- A TCP relay among packed nodes is not read where these are not expected. -/
theorem PackedNode.readMany_tcp {limit : ℕ} (hlimit : entries.length ≤ limit)
    (htcp : ∃ entry ∈ entries, entry.tcp = true) :
    (PackedNode.format false).readMany limit (entries.flatMap PackedNode.write) = none := by
  induction entries generalizing limit with
  | nil => simp at htcp
  | cons entry entries ih =>
    obtain ⟨limit, rfl⟩ : ∃ rest, limit = rest + 1 := ⟨limit - 1, by simp at hlimit; omega⟩
    rw [flatMap_cons]
    cases hentry : entry.tcp with
    | true =>
      have hread : (PackedNode.format false).read (entry.write ++ entries.flatMap PackedNode.write) = none := by
        change PackedNode.read false (entry.write ++ entries.flatMap PackedNode.write) = none
        have hhead : (entry.write ++ entries.flatMap PackedNode.write).headD 0 = typeOf entry.ipv6 true := by
          rw [← hentry]
          rfl
        have hhost : hostFamily false (typeOf entry.ipv6 true) = none := by
          cases entry.ipv6 <;> decide
        rw [PackedNode.read, hhead, hhost]
      obtain ⟨byte, rest, hbytes⟩ : ∃ byte rest, entry.write ++ entries.flatMap PackedNode.write = byte :: rest :=
        ⟨_, _, cons_append ..⟩
      rw [hbytes] at hread ⊢
      rw [EntryFormat.readMany, hread]
    | false =>
      have hpermitted : (PackedNode.format false).Permitted entry := by
        intro htrue
        rw [hentry] at htrue
        exact absurd htrue (by simp)
      have hread := (PackedNode.format false).read_write hpermitted (entries.flatMap PackedNode.write)
      have hrest : ∃ other ∈ entries, other.tcp = true := by
        obtain ⟨other, hother, htrue⟩ := htcp
        rcases mem_cons.mp hother with rfl | hother
        · rw [hentry] at htrue
          exact absurd htrue (by simp)
        · exact ⟨other, hother, htrue⟩
      have hmany := @EntryFormat.readMany_succ _ _ (PackedNode.format false) limit _ _ _ hread
      rw [ih (Nat.le_of_succ_le_succ hlimit) hrest] at hmany
      exact hmany

/-- The address of a node is one that answers to get nodes requests may hold. -/
def NodeFormat.IsUdp (node : NodeFormat) : Prop := node.ipPort.ip.family = afInet ∨ node.ipPort.ip.family = afInet6

/-- A node with the fields of an entry is no TCP relay exactly if the entry is none. -/
theorem isUdp_iff_of_fields {node : NodeFormat} {entry : PackedNode} (h : node.fields = entry.fields) :
    node.IsUdp ↔ entry.tcp = false := by
  have hfamily : node.ipPort.ip.family = familyOf entry.ipv6 entry.tcp := congrArg Prod.fst h
  rw [NodeFormat.IsUdp, hfamily]
  cases entry.ipv6 <;> cases entry.tcp <;> decide

/-- All nodes have addresses for UDP exactly if no entry is a TCP relay. -/
theorem forall_isUdp_iff {nodes : List NodeFormat} (h : nodes.map NodeFormat.fields = entries.map PackedNode.fields) :
    (∀ node ∈ nodes, node.IsUdp) ↔ ∀ entry ∈ entries, entry.tcp = false := by
  induction nodes generalizing entries with
  | nil =>
    obtain rfl : entries = [] := by simpa using h
    simp
  | cons node nodes ih =>
    cases entries with
    | nil => exact absurd h (by simp)
    | cons entry entries =>
      simp only [map_cons, List.cons.injEq] at h
      rw [forall_mem_cons, forall_mem_cons, isUdp_iff_of_fields h.1, ih h.2]

/-- The checks behind the lookup accept packed nodes exactly if no TCP relay is among them, and yield the nodes. -/
theorem acceptNodes_packed (array : ℕ → NodeFormat) (source : IpPort) (publicKey : PublicKey)
    {nodes : List NodeFormat} (hfields : nodes.map NodeFormat.fields = entries.map PackedNode.fields)
    (hcount : nodes.length ≤ maxSentNodes)
    (hsize : (entries.flatMap PackedNode.write).length ≤ sizeofNodeFormat * maxSentNodes) (rest : Bytes)
    (pingId : UInt64) (sendbackNode : NodeFormat) :
    (∃ accepted, acceptNodes array source publicKey
        (UInt8.ofNat nodes.length :: (entries.flatMap PackedNode.write ++ rest))
        (entries.flatMap PackedNode.write).length pingId
        sendbackNode = some accepted ∧ accepted.plainNodes.map NodeFormat.fields = nodes.map NodeFormat.fields) ∧
        (∀ node ∈ nodes, node.IsUdp) ∨
      acceptNodes array source publicKey
        (UInt8.ofNat nodes.length :: (entries.flatMap PackedNode.write ++ rest))
        (entries.flatMap PackedNode.write).length pingId
        sendbackNode = none ∧ ¬∀ node ∈ nodes, node.IsUdp := by
  have hmax : nodes.length < 2 ^ 8 := lt_of_le_of_lt hcount (by norm_num)
  have hlength :
    (UInt16.ofNat (entries.flatMap PackedNode.write).length).toNat = (entries.flatMap PackedNode.write).length :=
    UInt16.toNat_ofNat_of_lt' (lt_of_le_of_lt hsize (by norm_num))
  have hnumber : (UInt8.ofNat nodes.length).toUInt16.toNat = nodes.length := by
    rw [UInt8.toNat_toUInt16, UInt8.toNat_ofNat_of_lt' hmax]
  have hentries : entries.length = nodes.length := by
    have hsame := congrArg List.length hfields
    rwa [length_map, length_map, eq_comm] at hsame
  obtain ⟨result, hresult, hread⟩ := unpackNodesLoop_eq array
    (show (entries.flatMap PackedNode.write).length ≤ (entries.flatMap PackedNode.write ++ rest).length by simp) false
    nodes.length 0 (Nat.zero_le _)
  rw [take_left, drop_zero] at hread
  have hunpack :
    unpackNodes array ((UInt8.ofNat nodes.length :: (entries.flatMap PackedNode.write ++ rest)).getD 0 0).toUInt16
      ((UInt8.ofNat nodes.length :: (entries.flatMap PackedNode.write ++ rest)).drop 1)
      (UInt16.ofNat (entries.flatMap PackedNode.write).length) false = some result := by
    rw [unpackNodes, hlength, getD_cons_zero, hnumber]
    exact hresult
  rw [forall_isUdp_iff hfields]
  rw [acceptNodes, hunpack]
  by_cases htcp : ∀ entry ∈ entries, entry.tcp = false
  · refine Or.inl ⟨?_, htcp⟩
    have hmany := (PackedNode.format false).readMany_writeMany entries
      (fun entry hentry htrue => absurd (htcp entry hentry) (by simp [htrue])) hentries.le
    rw [show (PackedNode.format false).writeMany entries = entries.flatMap PackedNode.write from rfl] at hmany
    rw [hmany, map_some, map_eq_some_iff] at hread
    obtain ⟨⟨unpacked, processed⟩, rfl, heq⟩ := hread
    simp only [length_nil, Nat.sub_zero, Prod.mk.injEq] at heq
    obtain ⟨hunpacked, rfl⟩ := heq
    have hlen : unpacked.length = nodes.length := by
      have hsame := congrArg List.length hunpacked
      rwa [length_map, length_map, hentries] at hsame
    dsimp only
    rw [if_neg (not_not_intro rfl), getD_cons_zero, UInt8.toNat_ofNat_of_lt' hmax, if_neg (not_not_intro hlen)]
    exact ⟨_, rfl, hunpacked.trans hfields.symm⟩
  · refine Or.inr ⟨?_, htcp⟩
    simp only [not_forall, Bool.not_eq_false] at htcp
    obtain ⟨entry, hentry, htrue⟩ := htcp
    rw [PackedNode.readMany_tcp hentries.le ⟨entry, hentry, htrue⟩, map_none, map_eq_none_iff] at hread
    rw [hread]

/-! ## The request -/

/-- The caches of a node give the precomputed keys, and its keys are a pair. -/
structure DhtNode.Keyed (sodium : Sodium) (node : DhtNode) : Prop where
  pair : node.selfPublicKey = sodium.scalarmultBase node.selfSecretKey
  sent : ∀ now publicKey, (node.getSharedKeySent sodium now publicKey).1 = sodium.beforenm publicKey node.selfSecretKey
  recv : ∀ now publicKey, (node.getSharedKeyRecv sodium now publicKey).1 = sodium.beforenm publicKey node.selfSecretKey

/-- The arrays of a node are those of `new_DHT` and `new_ping`. -/
structure DhtNode.Sized (node : DhtNode) : Prop where
  size : ∀ kind, (node.pings kind).totalSize = dhtPingArraySize
  timeout : ∀ kind, (node.pings kind).timeout = pingTimeout

/-- A node later, with the same keys, whose entry for a request was not overwritten. -/
structure DhtNode.Awaits (sodium : Sodium) (node later : DhtNode) (kind : AskKind) (record : PingRecord) : Prop where
  keyed : later.Keyed sodium
  sized : later.Sized
  key : later.selfSecretKey = node.selfSecretKey
  entry : (later.pings kind).entries (slotOf dhtPingArraySize record.pingId) = record.entry

/-- The bytes of a request. -/
def getnodesPacket (selfPublicKey : PublicKey) (nonce : Nonce) (encrypt : Bytes) : Bytes :=
  netPacketGetNodes :: (selfPublicKey.toList ++ (nonce.toList ++ encrypt))

/-- The id a get nodes request draws, with its data. -/
def getnodesRecord (draw : DhtDraw) (node : DhtNode) (ipPort : IpPort) (publicKey : PublicKey)
    (sendbackNode : Option NodeFormat) : PingRecord :=
  ⟨(pingArrayAdd draw.now draw.rand draw.alloc (node.pings (getnodesKind sendbackNode))
    (getnodesData ⟨publicKey, ipPort⟩ sendbackNode)).1, getnodesData ⟨publicKey, ipPort⟩ sendbackNode, draw.now⟩

/-- The packet of a request. -/
theorem sendGetnodes_sent {sodium : Sodium} {draw : DhtDraw} {node : DhtNode} {publicKey clientId : PublicKey}
    {pingId : UInt64} {request : Bytes}
    (hsent : (node.getSharedKeySent sodium draw.now publicKey).1 = sodium.beforenm publicKey node.selfSecretKey)
    (h : (sendGetnodes sodium draw node publicKey clientId pingId).1 = some request) :
    pingId ≠ 0 ∧ ∃ encrypt, encryptDataSymmetric sodium (sodium.beforenm publicKey node.selfSecretKey) draw.nonce
      (clientId.toList ++ (hostBytes pingId).toList) = some encrypt ∧
      request = getnodesPacket node.selfPublicKey draw.nonce encrypt := by
  rw [sendGetnodes] at h
  split at h
  · exact absurd h (by simp)
  rename_i hid
  refine ⟨hid, ?_⟩
  have hself : (node.getSharedKeySent sodium draw.now publicKey).2.selfPublicKey = node.selfPublicKey := rfl
  rcases hkeyed : node.getSharedKeySent sodium draw.now publicKey with ⟨sharedKey, keyed⟩
  rw [hkeyed] at h hsent hself
  dsimp only at h hsent hself
  rw [← hsent]
  cases hencrypt : encryptDataSymmetric sodium sharedKey draw.nonce (clientId.toList ++ (hostBytes pingId).toList) with
  | none =>
    rw [hencrypt] at h
    exact absurd h (by simp)
  | some encrypt =>
    rw [hencrypt] at h
    refine ⟨encrypt, rfl, ?_⟩
    rw [← some.inj h, hself]
    rfl

/-- What `getnodes` sends: the searched key and the id that was drawn. -/
theorem getnodes_sent (hkeyed : node.Keyed sodium) {request : Bytes}
    (h : (getnodes sodium draw node ipPort publicKey clientId sendbackNode).1 = some request) :
    publicKey ≠ node.selfPublicKey ∧ (getnodesRecord draw node ipPort publicKey sendbackNode).pingId ≠ 0 ∧
      ∃ encrypt, encryptDataSymmetric sodium (sodium.beforenm publicKey node.selfSecretKey) draw.nonce
        (clientId.toList ++ (hostBytes (getnodesRecord draw node ipPort publicKey sendbackNode).pingId).toList) =
          some encrypt ∧
        request = getnodesPacket node.selfPublicKey draw.nonce encrypt := by
  rw [getnodes] at h
  split at h
  · exact absurd h (by simp)
  rename_i hother
  refine ⟨hother, ?_⟩
  cases sendbackNode with
  | some sendbackNode =>
    rw [getnodesRecord, show node.pings (getnodesKind (some sendbackNode)) = node.dhtHardenPingArray from rfl,
      show getnodesData ⟨publicKey, ipPort⟩ (some sendbackNode) =
        askedForData ⟨publicKey, ipPort⟩ sendbackNode from rfl]
    dsimp only at h ⊢
    rcases hadd : pingArrayAdd draw.now draw.rand draw.alloc node.dhtHardenPingArray
      (askedForData ⟨publicKey, ipPort⟩ sendbackNode) with ⟨pingId, pings⟩
    rw [hadd] at h
    exact @sendGetnodes_sent sodium draw { node with dhtHardenPingArray := pings } publicKey clientId pingId request
      (hkeyed.sent draw.now publicKey) h
  | none =>
    rw [getnodesRecord, show node.pings (getnodesKind none) = node.dhtPingArray from rfl,
      show getnodesData ⟨publicKey, ipPort⟩ none = askedData ⟨publicKey, ipPort⟩ from rfl]
    dsimp only at h ⊢
    rcases hadd :
      pingArrayAdd draw.now draw.rand draw.alloc node.dhtPingArray (askedData ⟨publicKey, ipPort⟩) with ⟨pingId, pings⟩
    rw [hadd] at h
    exact @sendGetnodes_sent sodium draw { node with dhtPingArray := pings } publicKey clientId pingId request
      (hkeyed.sent draw.now publicKey) h

/-- Right after the request the array holds its entry. -/
theorem getnodes_entry (sodium : Sodium) (hsized : node.Sized) (ipPort : IpPort) (clientId : PublicKey)
    (hother : publicKey ≠ node.selfPublicKey)
    (hid : (getnodesRecord draw node ipPort publicKey sendbackNode).pingId ≠ 0) :
    ((getnodes sodium draw node ipPort publicKey clientId sendbackNode).2.pings (getnodesKind sendbackNode)).entries
      (slotOf dhtPingArraySize (getnodesRecord draw node ipPort publicKey sendbackNode).pingId) =
        (getnodesRecord draw node ipPort publicKey sendbackNode).entry := by
  have hsize := hsized.size (getnodesKind sendbackNode)
  have hissued := @pingArrayAdd_issued (node.pings (getnodesKind sendbackNode))
    (by rw [hsize]; exact dhtPingArraySize_powerOfTwo) draw.now draw.rand draw.alloc
    (getnodesData ⟨publicKey, ipPort⟩ sendbackNode) hid
  rw [(getnodes_asks sodium draw node ipPort clientId sendbackNode hother).added, ← hsize]
  exact hissued

/-! ## The answer -/

/-- The bytes of an answer. -/
def sendnodesPacket (selfPublicKey : PublicKey) (nonce : Nonce) (encrypt : Bytes) : Bytes :=
  netPacketSendNodesIpv6 :: (selfPublicKey.toList ++ (nonce.toList ++ encrypt))

/-- The key, the nonce and the rest of a packet of either kind. -/
theorem packet_parts (type : UInt8) (publicKey : PublicKey) (nonce : Nonce) (encrypt : Bytes) :
    slice 32 (type :: (publicKey.toList ++ (nonce.toList ++ encrypt))) 1 = publicKey ∧
      slice 24 (type :: (publicKey.toList ++ (nonce.toList ++ encrypt))) 33 = nonce ∧
      (type :: (publicKey.toList ++ (nonce.toList ++ encrypt))).drop 57 = encrypt ∧
      (type :: (publicKey.toList ++ (nonce.toList ++ encrypt))).length = 57 + encrypt.length := by
  refine ⟨?_, ?_, ?_, ?_⟩
  · rw [slice_cons, slice_block]
  · rw [slice_cons, slice_at _ _ _ publicKey.toList_length]
  · rw [show 57 = (32 + 24) + 1 from rfl, drop_succ_cons, ← drop_drop, drop_left' publicKey.toList_length,
      drop_left' nonce.toList_length]
  · simp only [length_cons, length_append, List.Vector.toList_length]
    omega

/-- Encryption and decryption with the same key. -/
theorem Sodium.Lawful.decrypt_of_encrypt (h : sodium.Lawful) {key : SharedKey} {nonce : Nonce} {plain encrypt : Bytes}
    (hencrypt : encryptDataSymmetric sodium key nonce plain = some encrypt) :
    decryptDataSymmetric sodium key nonce encrypt = some plain := by
  have hplain : plain.length ≠ 0 := by
    intro hzero
    rw [encryptDataSymmetric, if_pos hzero] at hencrypt
    exact absurd hencrypt (by simp)
  obtain ⟨other, hother, -, hdecrypt⟩ := h.encrypt_decrypt key nonce hplain
  rw [some.inj (hencrypt.symm.trans hother)]
  exact hdecrypt

/-- The nodes of an answer. -/
def answeredNodes (now : UInt64) (responder : DhtNode) (source : IpPort) (clientId : PublicKey) : List NodeFormat :=
  (getCloseNodes now clientId 0 (lanIp source.ip) responder.dht true).nodes

/-- `handle_getnodes` answers a request of a keyed node for the searched key, with the id of the request. -/
theorem handleGetnodes_request {sodium : Sodium} (hlawful : sodium.Lawful) {draw : DhtDraw} (drawB : DhtDraw)
    {node responder : DhtNode} (hnode : node.Keyed sodium) (hresponder : responder.Keyed sodium) {ipPort : IpPort}
    (source : IpPort) {clientId : PublicKey} {sendbackNode : Option NodeFormat} {request : Bytes}
    (hrequest : (getnodes sodium draw node ipPort responder.selfPublicKey clientId sendbackNode).1 = some request) :
    responder.selfPublicKey ≠ node.selfPublicKey ∧
      ∃ keyed : DhtNode, keyed.selfPublicKey = responder.selfPublicKey ∧
      answeredNodes drawB.now keyed source clientId = answeredNodes drawB.now responder source clientId ∧
      (handleGetnodes sodium drawB responder source request).1 =
        some ⟨sendnodesIpv6 sodium drawB keyed source node.selfPublicKey clientId
          (hostBytes (getnodesRecord draw node ipPort responder.selfPublicKey sendbackNode).pingId).toList
          (sodium.beforenm responder.selfPublicKey node.selfSecretKey), (node.selfPublicKey, source)⟩ := by
  obtain ⟨hother, -, encrypt, hencrypt, rfl⟩ := getnodes_sent hnode hrequest
  obtain ⟨hkey, hnonce, hrest, hlength⟩ := packet_parts netPacketGetNodes node.selfPublicKey draw.nonce encrypt
  have hcomm : sodium.beforenm node.selfPublicKey responder.selfSecretKey =
      sodium.beforenm responder.selfPublicKey node.selfSecretKey := by
    rw [hnode.pair, hresponder.pair]
    exact hlawful.beforenm_comm _ _
  have hsize : encrypt.length = 40 + macBytes := by
    rw [encryptDataSymmetric_length hencrypt, length_append, List.Vector.toList_length, List.Vector.toList_length]
  have hrecv := hresponder.recv drawB.now node.selfPublicKey
  rw [hcomm] at hrecv
  have hdht : (responder.getSharedKeyRecv sodium drawB.now node.selfPublicKey).2.dht = responder.dht := rfl
  rw [getnodesPacket, handleGetnodes, if_neg (not_not_intro (by rw [hlength, hsize]; omega)), hkey, if_neg hother.symm,
    hnonce, hrest]
  rcases hkeyed : responder.getSharedKeyRecv sodium drawB.now node.selfPublicKey with ⟨sharedKey, keyed⟩
  rw [hkeyed] at hrecv hdht
  dsimp only at hrecv hdht ⊢
  rw [hrecv, hlawful.decrypt_of_encrypt hencrypt]
  refine ⟨hother, keyed, congrArg Dht.selfPublicKey hdht, by rw [answeredNodes, hdht, answeredNodes], ?_⟩
  dsimp only
  rw [slice_block, drop_left' clientId.toList_length]

/-- What is packed of the nodes found are their entries. -/
theorem packFound_some {found : NodesFound} {nodesData : Bytes} (hle : found.numNodes ≤ maxSentNodes)
    (hlength : found.nodes.length = found.numNodes) (h : packFound found = some nodesData) :
    ∃ entries : List PackedNode, found.nodes.map NodeFormat.fields = entries.map PackedNode.fields ∧
      (entries.flatMap PackedNode.write).length ≤ sizeofNodeFormat * maxSentNodes ∧
      nodesData = entries.flatMap PackedNode.write := by
  rw [packFound] at h
  split at h
  · rename_i hzero
    obtain rfl := some.inj h
    have hnil : found.nodes = [] := length_eq_zero_iff.mp (hlength.trans hzero)
    exact ⟨[], by rw [hnil]; rfl, by simp, rfl⟩
  · have hnumber : (UInt16.ofNat found.numNodes).toNat = found.numNodes :=
      UInt16.toNat_ofNat_of_lt' (lt_of_le_of_lt hle (by norm_num))
    rw [packNodes, hnumber, show found.nodesList.take found.numNodes = found.nodes from rfl] at h
    rcases hloop :
      packNodesLoop (UInt16.ofNat (sizeofNodeFormat * maxSentNodes)).toNat found.nodes 0 with ⟨result, written⟩
    rw [hloop] at h
    cases result with
    | none => exact absurd h (by simp)
    | some nodesLength =>
      dsimp only at h
      split at h
      · exact absurd h (by simp)
      · obtain rfl := some.inj h
        obtain ⟨entries, hfields, rfl, hsize, hfits⟩ := packNodesLoop_some (Nat.zero_le _) hloop
        rw [Nat.zero_add] at hsize
        rw [hsize, take_length]
        rw [hsize] at hfits
        exact ⟨entries, hfields, hfits, rfl⟩

/-- What `sendnodes_ipv6` sends: the number of the nodes it found, their entries, and the id. -/
theorem sendnodesIpv6_sent {responder : DhtNode} {sendbackData response : Bytes} {key : SharedKey}
    (h : sendnodesIpv6 sodium draw responder source publicKey clientId sendbackData key = some response) :
    (answeredNodes draw.now responder source clientId).length ≤ maxSentNodes ∧ sendbackData.length = 8 ∧
      ∃ (entries : List PackedNode) (encrypt : Bytes),
        (answeredNodes draw.now responder source clientId).map NodeFormat.fields = entries.map PackedNode.fields ∧
        (entries.flatMap PackedNode.write).length ≤ sizeofNodeFormat * maxSentNodes ∧
        encryptDataSymmetric sodium key draw.nonce
          (UInt8.ofNat (answeredNodes draw.now responder source clientId).length ::
          (entries.flatMap PackedNode.write ++ sendbackData)) = some encrypt ∧
        response = sendnodesPacket responder.selfPublicKey draw.nonce encrypt := by
  rw [answeredNodes]
  rw [sendnodesIpv6] at h
  obtain ⟨hnum, hlength, -⟩ :=
    getCloseNodes_closest draw.now responder.dht clientId 0 (lanIp source.ip) true (Or.inl rfl)
  revert h hnum hlength
  generalize getCloseNodes draw.now clientId 0 (lanIp source.ip) responder.dht true = found
  intro h hnum hlength
  split at h
  · exact absurd h (by simp)
  split at h
  · exact absurd h (by simp)
  rename_i hsendback
  have hle : found.numNodes ≤ maxSentNodes := by
    rw [hnum]
    exact Nat.min_le_left _ _
  refine ⟨hlength.trans_le hle, not_not.mp hsendback, ?_⟩
  rw [hlength]
  obtain ⟨nodesData, hpacked, hmap⟩ := bind_eq_some_iff.mp h
  obtain ⟨encrypt, hencrypt, hresponse⟩ := map_eq_some_iff.mp hmap
  obtain ⟨entries, hfields, hfits, rfl⟩ := packFound_some hle hlength hpacked
  exact ⟨entries, encrypt, hfields, hfits, hencrypt, hresponse.symm⟩

/-- The entries of at most four nodes fit. -/
theorem flatMap_write_length_le (entries : List PackedNode) :
    (entries.flatMap PackedNode.write).length ≤ 51 * entries.length := by
  induction entries with
  | nil => simp
  | cons entry entries ih =>
    have hsize : packedNodeSizeIp entry.ipv6 ≤ 51 := by cases entry.ipv6 <;> decide
    rw [flatMap_cons, length_append, PackedNode.write_length, length_cons]
    omega

/-- A node whose nodes have addresses that can be packed answers. -/
theorem sendnodesIpv6_succeeds {sodium : Sodium} (hlawful : sodium.Lawful) (draw : DhtDraw) {responder : DhtNode}
    {source : IpPort}
    {publicKey clientId : PublicKey} (hother : publicKey ≠ responder.selfPublicKey) (pingId : UInt64) (key : SharedKey)
    {entries : List PackedNode}
    (hfields : (answeredNodes draw.now responder source clientId).map NodeFormat.fields =
      entries.map PackedNode.fields) :
    ∃ response, sendnodesIpv6 sodium draw responder source publicKey clientId (hostBytes pingId).toList key =
      some response := by
  rw [answeredNodes] at hfields
  obtain ⟨hnum, hlength, -⟩ :=
    getCloseNodes_closest draw.now responder.dht clientId 0 (lanIp source.ip) true (Or.inl rfl)
  rw [sendnodesIpv6, if_neg hother, if_neg (not_not_intro (hostBytes pingId).toList_length)]
  revert hfields hnum hlength
  generalize getCloseNodes draw.now clientId 0 (lanIp source.ip) responder.dht true = found
  intro hfields hnum hlength
  have hle : found.numNodes ≤ maxSentNodes := by
    rw [hnum]
    exact Nat.min_le_left _ _
  have hcount : entries.length = found.numNodes := by
    have hsame := congrArg List.length hfields
    rw [length_map, length_map, hlength] at hsame
    exact hsame.symm
  have hsize := flatMap_write_length_le entries
  have hpacked : ∃ nodesData, packFound found = some nodesData := by
    rw [packFound]
    split
    · exact ⟨_, rfl⟩
    · rename_i hnonzero
      have hnumber : (UInt16.ofNat found.numNodes).toNat = found.numNodes :=
        UInt16.toNat_ofNat_of_lt' (lt_of_le_of_lt hle (by norm_num))
      rw [packNodes, hnumber, show found.nodesList.take found.numNodes = found.nodes from rfl,
        packNodesLoop_of_fields hfields (by
          change 0 + (entries.flatMap PackedNode.write).length ≤ 256
          have hfour : found.numNodes ≤ 4 := hle
          omega)]
      dsimp only
      rw [if_neg]
      · exact ⟨_, rfl⟩
      · intro hzero
        cases entries with
        | nil => exact hnonzero hcount.symm
        | cons entry entries =>
          rw [flatMap_cons, length_append, PackedNode.write_length, packedNodeSizeIp] at hzero
          omega
  obtain ⟨nodesData, hnodesData⟩ := hpacked
  obtain ⟨encrypt, hencrypt, -, -⟩ := hlawful.encrypt_decrypt key draw.nonce
    (show (UInt8.ofNat found.numNodes :: (nodesData ++ (hostBytes pingId).toList)).length ≠ 0 by simp)
  dsimp only
  rw [hnodesData, bind_some, hencrypt]
  exact ⟨_, rfl⟩

/-! ## The lookup -/

/-- The array of plain requests holds other data under an id, which is looked at first. -/
def DhtNode.Shadowed (node : DhtNode) (now : UInt64) (publicKey : PublicKey) (source : IpPort)
    (pingId : UInt64) : Prop :=
  ∃ data, pingArrayCheck now (UInt32.ofNat (sizeofNodeFormat * 2)) node.dhtPingArray pingId =
      ⟨Int32.ofNat sizeofNodeFormat, some data,
        clearEntry node.dhtPingArray (slotOf node.dhtPingArray.totalSize pingId)⟩ ∧
    testAsked publicKey source data .zero = none

/-- A response comes from the node that was asked. -/
theorem testAsked_stored (hsource : ipportEqual ipPort source = true) (rest : Bytes) (sendbackNode : NodeFormat) :
    testAsked publicKey source ((⟨publicKey, ipPort⟩ : NodeFormat).stored ++ rest) sendbackNode =
      some sendbackNode := by
  rw [testAsked, NodeFormat.ofStored_stored]
  simp [hsource]

/-- The lookup of an answer that is not late fails only if the id of a request for a third node is shadowed. -/
theorem sentGetnodeToNode_awaited {requester : DhtNode} (hsized : node.Sized)
    (hid : (getnodesRecord draw requester ipPort publicKey sendbackNode).pingId ≠ 0)
    (hentry : (node.pings (getnodesKind sendbackNode)).entries
      (slotOf dhtPingArraySize (getnodesRecord draw requester ipPort publicKey sendbackNode).pingId) =
        (getnodesRecord draw requester ipPort publicKey sendbackNode).entry)
    (htime : isTimeout now draw.now pingTimeout.toUInt64 = false) (hsource : ipportEqual ipPort source = true) :
    (sentGetnodeToNode now node publicKey source (getnodesRecord draw requester ipPort publicKey sendbackNode).pingId).1
      = none ↔
      getnodesKind sendbackNode = .harden ∧
        node.Shadowed now publicKey source (getnodesRecord draw requester ipPort publicKey sendbackNode).pingId := by
  have hrecord : (getnodesRecord draw requester ipPort publicKey sendbackNode).data =
      getnodesData ⟨publicKey, ipPort⟩ sendbackNode := rfl
  have htime' :
    isTimeout now (getnodesRecord draw requester ipPort publicKey sendbackNode).time pingTimeout.toUInt64 =
      false := htime
  generalize getnodesRecord draw requester ipPort publicKey sendbackNode = record at *
  rw [sentGetnodeToNode]
  cases sendbackNode with
  | none =>
    have hlength : record.data.length ≤ UInt32.ofNat (sizeofNodeFormat * 2) := by
      rw [hrecord, PingData.length, getnodesData, askedData, NodeFormat.stored_length]
      decide
    have hcheck := pingArrayCheck_entry hid (by rw [hsized.size .plain]; exact hentry)
      (by rw [hsized.timeout .plain]; exact htime') hlength
    rw [show node.pings .plain = node.dhtPingArray from rfl] at hcheck
    have hresult : record.data.length.toInt32 = Int32.ofNat sizeofNodeFormat := by
      rw [hrecord, PingData.length, getnodesData, askedData, NodeFormat.stored_length]
      decide
    have hdata : record.data.val = (⟨publicKey, ipPort⟩ : NodeFormat).stored ++ [] := by
      rw [hrecord, append_nil]
      rfl
    rw [hcheck, getnodeChecked, if_pos hresult, getD_some, hdata, testAsked_stored hsource]
    simp [getnodesKind]
  | some sendbackNode =>
    have hlength : record.data.length ≤ UInt32.ofNat (sizeofNodeFormat * 2) := by
      rw [hrecord, PingData.length, getnodesData, askedForData, length_append, NodeFormat.stored_length,
        NodeFormat.stored_length]
      decide
    have hcheck := pingArrayCheck_entry hid (by rw [hsized.size .harden]; exact hentry)
      (by rw [hsized.timeout .harden]; exact htime') hlength
    rw [show node.pings .harden = node.dhtHardenPingArray from rfl] at hcheck
    have hresult : record.data.length.toInt32 = Int32.ofNat (sizeofNodeFormat * 2) := by
      rw [hrecord, PingData.length, getnodesData, askedForData, length_append, NodeFormat.stored_length,
        NodeFormat.stored_length]
      decide
    have hdata : record.data.val = (⟨publicKey, ipPort⟩ : NodeFormat).stored ++ sendbackNode.stored := by
      rw [hrecord]
      rfl
    rw [hcheck, DhtNode.Shadowed]
    have hcases := pingArrayCheck_cases now (UInt32.ofNat (sizeofNodeFormat * 2)) node.dhtPingArray record.pingId
    generalize pingArrayCheck now (UInt32.ofNat (sizeofNodeFormat * 2)) node.dhtPingArray record.pingId =
      check at hcases ⊢
    rw [getnodeChecked]
    dsimp only
    split
    · rename_i hfirst
      rcases hcases with hnone | ⟨data, -, -, -, hsome⟩
      · rw [hnone] at hfirst
        have hfailed : (-1 : Int32) ≠ Int32.ofNat sizeofNodeFormat := by decide
        exact absurd hfirst hfailed
      · rw [hsome] at hfirst ⊢
        dsimp only at hfirst ⊢
        rw [hfirst, getD_some]
        constructor
        · intro htest
          exact ⟨rfl, data, rfl, htest⟩
        · rintro ⟨-, other, heq, htest⟩
          obtain rfl : data = other := some.inj (congrArg PingCheck.copied heq)
          exact htest
    · rename_i hfirst
      rw [getD_some, hdata, testAsked_stored hsource]
      constructor
      · intro hnone
        exact absurd hnone (by simp)
      · rintro ⟨-, data, heq, -⟩
        rw [heq] at hfirst
        exact absurd rfl hfirst

/-! ## The round trip -/

/-- What `handle_sendnodes_core` does with an answer that a keyed node made for it: an answer without nodes is
dropped. -/
theorem handleSendnodesCore_answer (hlawful : sodium.Lawful) (hnode : node.Keyed sodium) {nonce : Nonce}
    {number : UInt8} {nodesData encrypt : Bytes} {pingId : UInt64}
    (hencrypt : encryptDataSymmetric sodium (sodium.beforenm publicKey node.selfSecretKey) nonce
      (number :: (nodesData ++ (hostBytes pingId).toList)) = some encrypt)
    (hsize : nodesData.length ≤ sizeofNodeFormat * maxSentNodes) (hnumber : number.toUInt16 ≤ 4) (now : UInt64)
    (source : IpPort) (array : ℕ → NodeFormat) :
    (handleSendnodesCore sodium now node source (sendnodesPacket publicKey nonce encrypt) array 4).1 =
      if nodesData.length = 0 then none
      else (sentGetnodeToNode now (node.getSharedKeySent sodium now publicKey).2 publicKey source pingId).1.bind
        (acceptNodes array source publicKey (number :: (nodesData ++ (hostBytes pingId).toList)) nodesData.length
          pingId) := by
  obtain ⟨hkey, hnonce, hrest, hlength⟩ := packet_parts netPacketSendNodesIpv6 publicKey nonce encrypt
  have hlen : encrypt.length = nodesData.length + 9 + macBytes := by
    rw [encryptDataSymmetric_length hencrypt, length_cons, length_append, List.Vector.toList_length]
  have hdata : 57 + encrypt.length - (1 + 32 + 24 + 1 + 8 + macBytes) = nodesData.length := by
    rw [hlen]
    omega
  have hid : ofHostBytes (slice 8 (number :: (nodesData ++ (hostBytes pingId).toList)) (1 + nodesData.length)) =
    pingId := by
    rw [Nat.add_comm, slice_cons, slice_at_end _ _ rfl, ofHostBytes_hostBytes]
  rw [sendnodesPacket, handleSendnodesCore, hlength, if_neg (by rw [hlen]; omega)]
  dsimp only
  rw [hdata, hkey, hnonce, hrest]
  split
  · rfl
  · rw [if_neg (Nat.not_lt.mpr hsize)]
    have hsent := hnode.sent now publicKey
    rcases hkeyed : node.getSharedKeySent sodium now publicKey with ⟨sharedKey, keyed⟩
    rw [hkeyed] at hsent
    dsimp only at hsent ⊢
    rw [hsent, hlawful.decrypt_of_encrypt hencrypt]
    dsimp only
    rw [getD_cons_zero, if_neg (UInt16.not_lt.mpr hnumber), hid]
    rcases sentGetnodeToNode now keyed publicKey source pingId with ⟨sent, checked⟩
    cases sent <;> rfl

/-- The parts of the answer to a request. -/
theorem answer_parts {sodium : Sodium} (hlawful : sodium.Lawful) {draw drawB : DhtDraw} {requester responder : DhtNode}
    (hrequester : requester.Keyed sodium) (hresponder : responder.Keyed sodium) {ipPort source : IpPort}
    {clientId : PublicKey} {sendbackNode : Option NodeFormat} {request response : Bytes} {answer : GetnodesAnswer}
    (hrequest : (getnodes sodium draw requester ipPort responder.selfPublicKey clientId sendbackNode).1 = some request)
    (hanswer : (handleGetnodes sodium drawB responder source request).1 = some answer)
    (hresponse : answer.sent = some response) :
    (answeredNodes drawB.now responder source clientId).length ≤ maxSentNodes ∧
      ∃ (entries : List PackedNode) (encrypt : Bytes),
        (answeredNodes drawB.now responder source clientId).map NodeFormat.fields = entries.map PackedNode.fields ∧
        (entries.flatMap PackedNode.write).length ≤ sizeofNodeFormat * maxSentNodes ∧
        encryptDataSymmetric sodium (sodium.beforenm responder.selfPublicKey requester.selfSecretKey) drawB.nonce
          (UInt8.ofNat (answeredNodes drawB.now responder source clientId).length ::
            (entries.flatMap PackedNode.write ++
            (hostBytes (getnodesRecord draw requester ipPort responder.selfPublicKey sendbackNode).pingId).toList)) =
              some encrypt ∧
        response = sendnodesPacket responder.selfPublicKey drawB.nonce encrypt := by
  obtain ⟨-, keyedB, hkey, hnodes, hhandled⟩ :=
    handleGetnodes_request hlawful drawB hrequester hresponder source hrequest
  obtain rfl := some.inj (hhandled.symm.trans hanswer)
  obtain ⟨hcount, -, hparts⟩ := sendnodesIpv6_sent hresponse
  rw [hnodes, hkey] at hparts
  exact ⟨hnodes ▸ hcount, hparts⟩

/-- The round trip of a get nodes request. The answer of the responder, arriving in time from the address that was
asked while the entry of the request is there, is accepted, with a call of `addto_lists` for the responder and the
nodes that it found, exactly if there are such nodes, none of them is a TCP relay, and the id of a request for a third
node is not shadowed. -/
theorem getnodes_roundTrip_iff {sodium : Sodium} (hlawful : sodium.Lawful) {draw drawB : DhtDraw}
    {requester responder later : DhtNode} (hrequester : requester.Keyed sodium) (hresponder : responder.Keyed sodium)
    {ipPort source answerSource : IpPort} {clientId : PublicKey} {sendbackNode : Option NodeFormat}
    {request response : Bytes} {answer : GetnodesAnswer}
    (hrequest : (getnodes sodium draw requester ipPort responder.selfPublicKey clientId sendbackNode).1 = some request)
    (hanswer : (handleGetnodes sodium drawB responder source request).1 = some answer)
    (hresponse : answer.sent = some response)
    (hawaits : requester.Awaits sodium later (getnodesKind sendbackNode)
      (getnodesRecord draw requester ipPort responder.selfPublicKey sendbackNode)) {now : UInt64}
    (htime : isTimeout now draw.now pingTimeout.toUInt64 = false) (hsource : ipportEqual ipPort answerSource = true)
    (array : ℕ → NodeFormat) :
    (∃ accepted, (handleSendnodesCore sodium now later answerSource response array 4).1 = some accepted ∧
        accepted.addto.ipPort = answerSource ∧ accepted.addto.publicKey = responder.selfPublicKey ∧
        accepted.plainNodes.map NodeFormat.fields =
          (answeredNodes drawB.now responder source clientId).map NodeFormat.fields) ↔
      answeredNodes drawB.now responder source clientId ≠ [] ∧
        (∀ node ∈ answeredNodes drawB.now responder source clientId, node.IsUdp) ∧
        ¬(getnodesKind sendbackNode = .harden ∧ later.Shadowed now responder.selfPublicKey answerSource
          (getnodesRecord draw requester ipPort responder.selfPublicKey sendbackNode).pingId) := by
  obtain ⟨-, hid, -⟩ := getnodes_sent hrequester hrequest
  obtain ⟨hcount, entries, encryptB, hfields, hfits, hencryptB, rfl⟩ :=
    answer_parts hlawful hrequester hresponder hrequest hanswer hresponse
  have hentries : (entries.flatMap PackedNode.write).length = 0 ↔
    answeredNodes drawB.now responder source clientId = [] := by
    constructor
    · intro hzero
      cases entries with
      | nil => simpa using hfields
      | cons entry entries =>
        rw [flatMap_cons, length_append, PackedNode.write_length, packedNodeSizeIp] at hzero
        omega
    · intro hnil
      rw [hnil, map_nil, eq_comm, map_eq_nil_iff] at hfields
      rw [hfields]
      rfl
  have hnumber : (UInt8.ofNat (answeredNodes drawB.now responder source clientId).length).toUInt16 ≤ 4 := by
    rw [UInt16.le_iff_toNat_le, UInt8.toNat_toUInt16, UInt8.toNat_ofNat_of_lt' (lt_of_le_of_lt hcount (by norm_num))]
    exact hcount
  rw [← hawaits.key] at hencryptB
  rw [handleSendnodesCore_answer hlawful hawaits.keyed hencryptB hfits hnumber]
  have hpings := DhtNode.getSharedKeySent_pings sodium now later responder.selfPublicKey
  generalize (later.getSharedKeySent sodium now responder.selfPublicKey).2 = keyed at hpings ⊢
  have hsized : keyed.Sized := ⟨fun kind => by rw [hpings kind, hawaits.sized.size kind],
    fun kind => by rw [hpings kind, hawaits.sized.timeout kind]⟩
  have hlookup := sentGetnodeToNode_awaited hsized hid (by rw [hpings]; exact hawaits.entry) htime hsource
  have hshadowed : keyed.Shadowed = later.Shadowed := by
    funext
    rw [DhtNode.Shadowed, show keyed.dhtPingArray = later.dhtPingArray from hpings .plain, DhtNode.Shadowed]
  rw [hshadowed] at hlookup
  rw [← hlookup]
  by_cases hzero : (entries.flatMap PackedNode.write).length = 0
  · rw [if_pos hzero]
    constructor
    · rintro ⟨accepted, haccepted, -⟩
      exact absurd haccepted (by simp)
    · rintro ⟨hne, -⟩
      exact absurd (hentries.mp hzero) hne
  · rw [if_neg hzero]
    cases hsent : (sentGetnodeToNode now keyed responder.selfPublicKey answerSource
      (getnodesRecord draw requester ipPort responder.selfPublicKey sendbackNode).pingId).1 with
    | none => simp
    | some sendback =>
      rw [bind_some]
      have hne := mt hentries.mpr hzero
      rcases acceptNodes_packed array answerSource responder.selfPublicKey hfields hcount hfits
        (hostBytes (getnodesRecord draw requester ipPort responder.selfPublicKey sendbackNode).pingId).toList
        (getnodesRecord draw requester ipPort responder.selfPublicKey sendbackNode).pingId sendback with
        ⟨⟨accepted, haccepted, hyield⟩, hudp⟩ | ⟨hnone, hudp⟩
      · have haddto := acceptNodes_addto haccepted
        refine ⟨fun _ => ⟨hne, hudp, by simp⟩, fun _ => ⟨accepted, haccepted, ?_, ?_, hyield⟩⟩
        · rw [haddto]
        · rw [haddto]
      · constructor
        · rintro ⟨accepted, haccepted, -⟩
          exact absurd (hnone.symm.trans haccepted) (by simp)
        · rintro ⟨-, hall, -⟩
          exact absurd hall hudp

/-- The caches of a node hold only precomputed keys, and its keys are a pair. -/
structure DhtNode.CachesValid (sodium : Sodium) (node : DhtNode) : Prop where
  pair : node.selfPublicKey = sodium.scalarmultBase node.selfSecretKey
  sent : node.sharedKeysSent.Valid sodium node.selfSecretKey
  recv : node.sharedKeysRecv.Valid sodium node.selfSecretKey

/-- Valid caches give the precomputed keys. -/
theorem DhtNode.CachesValid.keyed (h : node.CachesValid sodium) : node.Keyed sodium :=
  ⟨h.pair, fun now publicKey => (h.sent.getSharedKey now publicKey).1, fun now publicKey =>
    (h.recv.getSharedKey now publicKey).1⟩

/-- Sending a request keeps the caches valid. -/
theorem DhtNode.CachesValid.sendGetnodes {sodium : Sodium} {node : DhtNode} (h : node.CachesValid sodium)
    (draw : DhtDraw) (publicKey clientId : PublicKey) (pingId : UInt64) :
    (sendGetnodes sodium draw node publicKey clientId pingId).2.CachesValid sodium ∧
      (Toxcore.sendGetnodes sodium draw node publicKey clientId pingId).2.selfSecretKey = node.selfSecretKey := by
  rw [Toxcore.sendGetnodes]
  split
  · exact ⟨h, rfl⟩
  · have hvalid : (node.getSharedKeySent sodium draw.now publicKey).2.CachesValid sodium :=
      ⟨h.pair, (h.sent.getSharedKey draw.now publicKey).2, h.recv⟩
    have hkey : (node.getSharedKeySent sodium draw.now publicKey).2.selfSecretKey = node.selfSecretKey := rfl
    rcases hkeyed : node.getSharedKeySent sodium draw.now publicKey with ⟨sharedKey, keyed⟩
    rw [hkeyed] at hvalid hkey
    dsimp only
    split <;> exact ⟨hvalid, hkey⟩

/-- After a request that was sent a node awaits the answer. -/
theorem getnodes_awaits (hvalid : node.CachesValid sodium) (hsized : node.Sized) {request : Bytes}
    (h : (getnodes sodium draw node ipPort publicKey clientId sendbackNode).1 = some request) :
    node.Awaits sodium (getnodes sodium draw node ipPort publicKey clientId sendbackNode).2 (getnodesKind sendbackNode)
      (getnodesRecord draw node ipPort publicKey sendbackNode) := by
  obtain ⟨hother, hid, -⟩ := getnodes_sent hvalid.keyed h
  have hasks := getnodes_asks sodium draw node ipPort clientId sendbackNode hother
  have heffect := LoggedPings.pingArrayAdd_effect draw.now draw.rand draw.alloc (node.pings (getnodesKind sendbackNode))
    (getnodesData ⟨publicKey, ipPort⟩ sendbackNode)
  have hcaches : (getnodes sodium draw node ipPort publicKey clientId sendbackNode).2.CachesValid sodium ∧
      (getnodes sodium draw node ipPort publicKey clientId sendbackNode).2.selfSecretKey = node.selfSecretKey := by
    rw [getnodes, if_neg hother]
    cases sendbackNode with
    | some sendbackNode =>
      dsimp only
      rcases pingArrayAdd draw.now draw.rand draw.alloc node.dhtHardenPingArray
        (askedForData ⟨publicKey, ipPort⟩ sendbackNode) with ⟨pingId, pings⟩
      exact @DhtNode.CachesValid.sendGetnodes sodium { node with dhtHardenPingArray := pings }
        ⟨hvalid.pair, hvalid.sent, hvalid.recv⟩ draw publicKey clientId pingId
    | none =>
      dsimp only
      rcases pingArrayAdd draw.now draw.rand draw.alloc node.dhtPingArray (askedData ⟨publicKey,
        ipPort⟩) with ⟨pingId, pings⟩
      exact @DhtNode.CachesValid.sendGetnodes sodium { node with dhtPingArray := pings }
        ⟨hvalid.pair, hvalid.sent, hvalid.recv⟩ draw publicKey clientId pingId
  refine ⟨hcaches.1.keyed, ⟨fun kind => ?_, fun kind => ?_⟩, hcaches.2,
    getnodes_entry sodium hsized ipPort clientId hother hid⟩
  · by_cases hkind : kind = getnodesKind sendbackNode
    · rw [hkind, hasks.added, heffect.size, hsized.size]
    · rw [hasks.others kind hkind, hsized.size]
  · by_cases hkind : kind = getnodesKind sendbackNode
    · rw [hkind, hasks.added, heffect.timeout, hsized.timeout]
    · rw [hasks.others kind hkind, hsized.timeout]

/-- A keyed responder whose nodes can be packed answers a request. -/
theorem handleGetnodes_answers {sodium : Sodium} (hlawful : sodium.Lawful) {draw : DhtDraw} (drawB : DhtDraw)
    {requester responder : DhtNode} (hrequester : requester.Keyed sodium) (hresponder : responder.Keyed sodium)
    {ipPort : IpPort} (source : IpPort) {clientId : PublicKey} {sendbackNode : Option NodeFormat} {request : Bytes}
    (hrequest : (getnodes sodium draw requester ipPort responder.selfPublicKey clientId sendbackNode).1 = some request)
    {entries : List PackedNode}
    (hfields : (answeredNodes drawB.now responder source clientId).map NodeFormat.fields =
      entries.map PackedNode.fields) :
    ∃ answer response, (handleGetnodes sodium drawB responder source request).1 = some answer ∧
      answer.sent = some response := by
  obtain ⟨hother, keyedB, hkey, hnodes, hhandled⟩ :=
    handleGetnodes_request hlawful drawB hrequester hresponder source hrequest
  obtain ⟨response, hresponse⟩ :=
    @sendnodesIpv6_succeeds sodium hlawful drawB keyedB source requester.selfPublicKey clientId
    (by rw [hkey]; exact hother.symm) (getnodesRecord draw requester ipPort responder.selfPublicKey sendbackNode).pingId
    (sodium.beforenm responder.selfPublicKey requester.selfSecretKey) entries (by rw [hnodes]; exact hfields)
  exact ⟨_, response, hhandled, hresponse⟩

/-- A node with a key of bytes 2 and a close list whose first entry is given. -/
def peerNode (first : ClientData) : DhtNode :=
  { newNode with
    dht := { Dht.new (List.Vector.replicate 32 2) with closeClientlist := fun i => if i.val = 0 then first else .zero }
    selfSecretKey := List.Vector.replicate 32 2 }

/-- The clock, the random number and the nonce of the examples. -/
def sampleDraw : DhtDraw := ⟨2000, 0, true, List.Vector.replicate 24 0⟩

/-- The request of the new node for a key of bytes 5. -/
def sampleRequest : Option Bytes × DhtNode :=
  getnodes Sodium.plain sampleDraw newNode publicAddress (List.Vector.replicate 32 2) (List.Vector.replicate 32 5) none

theorem newNode_cachesValid : newNode.CachesValid Sodium.plain :=
  ⟨rfl, fun _ h => absurd h (by simp [newNode, SharedKeyEntry.zero]), fun _ h =>
    absurd h (by simp [newNode, SharedKeyEntry.zero])⟩

theorem newNode_sized : newNode.Sized := ⟨fun kind => by cases kind <;> rfl, fun kind => by cases kind <;> rfl⟩

theorem peerNode_cachesValid (first : ClientData) : (peerNode first).CachesValid Sodium.plain :=
  ⟨rfl, fun _ h => absurd h (by simp [peerNode, newNode, SharedKeyEntry.zero]),
    fun _ h => absurd h (by simp [peerNode, newNode, SharedKeyEntry.zero])⟩

/-- Entries of zero bytes offer nothing while the array is not full. -/
theorem foldl_considerClient_zero {isLan : Bool} {found : NodesFound}
    (h : clientInNodelist found.nodesList .zero = true) (count : ℕ) :
    (List.replicate count ClientData.zero).foldl (considerClient now publicKey 0 isLan false) found = found := by
  induction count with
  | zero => rfl
  | succ count ih =>
    rw [replicate_succ, foldl_cons, considerClient,
      if_pos (show clientInNodelist found.nodesList ClientData.zero.publicKey = true from h)]
    exact ih

/-- What the peer finds. -/
theorem answeredNodes_peer {first : ClientData}
    (h : clientInNodelist (considerClient now clientId 0 (lanIp source.ip) false .empty first).nodesList .zero = true) :
    answeredNodes now (peerNode first) source clientId =
      (considerClient now clientId 0 (lanIp source.ip) false .empty first).nodes := by
  have hlist : List.ofFn (peerNode first).dht.closeClientlist = first :: List.replicate 1023 .zero := by
    have hrest : (fun i : Fin 1023 => (peerNode first).dht.closeClientlist i.succ) = fun _ => ClientData.zero :=
      funext fun i =>
        show (if (i.succ : Fin 1024).val = 0 then first else ClientData.zero) = _ from if_neg (Nat.succ_ne_zero i)
    rw [@ofFn_succ _ 1023 (peerNode first).dht.closeClientlist, hrest, ofFn_const]
    rfl
  rw [answeredNodes, getCloseNodes, getSomewhatCloseNodes, getCloseNodesInner, if_neg (by decide), hlist, foldl_cons,
    foldl_considerClient_zero h]
  rfl

/-- The request of the new node was sent. -/
theorem sampleRequest_sent : ∃ request, sampleRequest.1 = some request :=
  isSome_iff_exists.mp (by decide +kernel)

/-- The answer of a peer whose lists are empty is dropped. -/
theorem empty_answer_dropped :
    newNode.CachesValid Sodium.plain ∧ (peerNode .zero).CachesValid Sodium.plain ∧ ∃ request answer response,
      sampleRequest.1 = some request ∧
        (handleGetnodes Sodium.plain sampleDraw (peerNode .zero) publicAddress request).1 = some answer ∧
        answer.sent = some response ∧
          ∀ array, (handleSendnodesCore Sodium.plain 2001 sampleRequest.2 publicAddress response array 4).1 = none := by
  obtain ⟨request, hrequest⟩ := sampleRequest_sent
  have hnil : answeredNodes sampleDraw.now (peerNode .zero) publicAddress (List.Vector.replicate 32 5) = [] := by
    rw [answeredNodes_peer (by decide +kernel)]
    decide +kernel
  obtain ⟨answer, response, hanswer, hresponse⟩ :=
    @handleGetnodes_answers Sodium.plain Sodium.plain_lawful sampleDraw sampleDraw
    newNode (peerNode .zero) newNode_cachesValid.keyed (peerNode_cachesValid _).keyed publicAddress publicAddress
    (List.Vector.replicate 32 5) none request hrequest [] (by rw [hnil]; rfl)
  refine ⟨newNode_cachesValid, peerNode_cachesValid _, request, answer, response, hrequest, hanswer, hresponse,
    fun array => ?_⟩
  obtain ⟨-, entries, encrypt, hfields, hfits, hencrypt, rfl⟩ :=
    @answer_parts Sodium.plain Sodium.plain_lawful sampleDraw sampleDraw
    newNode (peerNode .zero) newNode_cachesValid.keyed (peerNode_cachesValid _).keyed publicAddress publicAddress
    (List.Vector.replicate 32 5) none request response answer hrequest hanswer hresponse
  rw [hnil, map_nil, eq_comm, map_eq_nil_iff] at hfields
  rw [hnil, hfields] at hencrypt
  have hawaits := getnodes_awaits newNode_cachesValid newNode_sized hrequest
  rw [← hawaits.key] at hencrypt
  exact (handleSendnodesCore_answer Sodium.plain_lawful hawaits.keyed hencrypt (by simp)
    (by decide) 2001 publicAddress array).trans rfl

/-- An entry of the close list that was heard of recently. -/
def freshClient : ClientData :=
    ⟨List.Vector.replicate 32 3, { IpptsPng.zero with ipPort := publicAddress, timestamp := 1999 }, .zero⟩

/-- The answer of a peer with one node is accepted. -/
theorem getnodes_roundTrip_iff_one :
    ∃ response accepted,
      (handleSendnodesCore Sodium.plain 2001 sampleRequest.2 publicAddress response (fun _ => .zero) 4).1 =
        some accepted ∧ accepted.addto.publicKey = (peerNode freshClient).selfPublicKey ∧
      accepted.plainNodes.map NodeFormat.fields = [(sentNode 0 freshClient).fields] := by
  obtain ⟨request, hrequest⟩ := sampleRequest_sent
  have hnodes : answeredNodes sampleDraw.now (peerNode freshClient) publicAddress (List.Vector.replicate 32 5) =
      [sentNode 0 freshClient] := by
    rw [answeredNodes_peer (by decide +kernel)]
    decide +kernel
  obtain ⟨entry, hentry, -⟩ := @exists_entry_of_family (sentNode 0 freshClient) false false (by decide +kernel)
  obtain ⟨answer, response, hanswer, hresponse⟩ :=
    @handleGetnodes_answers Sodium.plain Sodium.plain_lawful sampleDraw sampleDraw
    newNode (peerNode freshClient) newNode_cachesValid.keyed (peerNode_cachesValid _).keyed publicAddress publicAddress
    (List.Vector.replicate 32 5) none request hrequest [entry] (by rw [hnodes, map_singleton, hentry]; rfl)
  have hiff := @getnodes_roundTrip_iff Sodium.plain Sodium.plain_lawful sampleDraw sampleDraw newNode
    (peerNode freshClient)
    sampleRequest.2 newNode_cachesValid.keyed (peerNode_cachesValid _).keyed publicAddress publicAddress publicAddress
    (List.Vector.replicate 32 5) none request response answer hrequest hanswer hresponse
    (getnodes_awaits newNode_cachesValid newNode_sized hrequest) 2001 (by decide +kernel)
    (by decide +kernel) fun _ => .zero
  rw [hnodes] at hiff
  obtain ⟨accepted, haccepted, -, hkey, hyield⟩ := hiff.mpr
    ⟨by simp, fun node hnode => Or.inl (by rw [mem_singleton.mp hnode]; decide +kernel), fun hkind =>
      absurd hkind.1 (by decide)⟩
  exact ⟨response, accepted, haccepted, hkey, hyield⟩

end Toxcore
