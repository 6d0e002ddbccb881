import Toxcore.DHT.GetnodesRoundTrip
import Toxcore.Onion.PingIds
import Toxcore.Onion.Searching

/-!
# Announce and search agree

A node looks a request up under the key it came from if the request presents a valid ping id, and under the searched
key otherwise. For our own announcement these are the same key. A search comes from a temporary key: where that is not
the key of the friend and the search presents no valid ping id, the entry found is one of another key, so the response
says 1 and carries its data key.

The client needs no more than the id in the response to know what it asked and whom.
-/

namespace Toxcore

open ByteStrings Function List Option

/-! ## What a node holds -/

/-- The live entry that a node holds for a key, the one that data requests for the key are relayed by. -/
def OnionAnnounce.held (now : UInt64) (onionA : OnionAnnounce) (publicKey : PublicKey) : Option OnionAnnounceEntry :=
  (inEntries now onionA.entries publicKey).map onionA.entries

variable {entries : OnionAnnounceEntries} {now now' : UInt64} {publicKey selfPublicKey : PublicKey}
  {entry : OnionAnnounceEntry} {onionA : OnionAnnounce} {env : AnnounceEnv}
  {sha256 : Bytes → Block onionPingIdSize} {sodium : Sodium} {source : IpPort} {nodes : Bytes}
  {sendback : Sendback} {draw : AnnounceDraw} {num : UInt32}

/-- What is found is a live entry of the key. -/
theorem inEntries_some {i : Fin onionAnnounceMaxEntries} (h : inEntries now entries publicKey = some i) :
    (entries i).timedout now = false ∧ (entries i).publicKey = publicKey := by
  have hfound := find?_some h
  simpa using hfound

/-- A held entry is one of the key. -/
theorem OnionAnnounce.held_publicKey (h : onionA.held now publicKey = some entry) : entry.publicKey = publicKey := by
  obtain ⟨i, hfound, rfl⟩ := map_eq_some_iff.mp h
  exact (inEntries_some hfound).2

/-- No two live entries have this key. -/
def LiveOnce (now : UInt64) (entries : OnionAnnounceEntries) (publicKey : PublicKey) : Prop :=
  ∀ i j, (entries i).timedout now = false → (entries j).timedout now = false →
    (entries i).publicKey = publicKey → (entries j).publicKey = publicKey → i = j

/-- No two live entries have one key. -/
def LiveDistinct (now : UInt64) (entries : OnionAnnounceEntries) : Prop :=
  ∀ i j, (entries i).timedout now = false → (entries j).timedout now = false →
    (entries i).publicKey = (entries j).publicKey → i = j

/-- No live key twice. -/
theorem liveDistinct_iff : LiveDistinct now entries ↔ ∀ publicKey, LiveOnce now entries publicKey := by
  constructor
  · intro h publicKey i j hi hj hikey hjkey
    exact h i j hi hj (hikey.trans hjkey.symm)
  · intro h i j hi hj hkey
    exact h (entries j).publicKey i j hi hj hkey rfl

/-- An entry is held if and only if it is in the list, where no two live entries have one key. -/
theorem OnionAnnounce.held_eq_some_iff (hdistinct : LiveDistinct now onionA.entries) :
    onionA.held now publicKey = some entry ↔
      ∃ i, onionA.entries i = entry ∧ entry.timedout now = false ∧ entry.publicKey = publicKey := by
  rw [held, map_eq_some_iff]
  constructor
  · rintro ⟨i, hfound, rfl⟩
    exact ⟨i, rfl, inEntries_some hfound⟩
  · rintro ⟨i, rfl, hlive, hkey⟩
    cases hfound : inEntries now onionA.entries publicKey with
    | none =>
      have hnone := find?_eq_none.mp hfound i (mem_finRange i)
      simp [hlive, hkey] at hnone
    | some j =>
      obtain ⟨hlive', hkey'⟩ := inEntries_some hfound
      exact ⟨j, rfl, by rw [hdistinct j i hlive' hlive (hkey'.trans hkey.symm)]⟩

/-- A new list has no live entries. -/
theorem LiveDistinct.new (h : onionAnnounceTimeout ≤ now) : LiveDistinct now fun _ => .zero := by
  intro i j hi
  rw [OnionAnnounceEntry.zero_timedout h] at hi
  contradiction

/-- An entry that is timed out stays so. -/
theorem OnionAnnounceEntry.timedout_later (h : entry.timedout now = true) (hle : now ≤ now') :
    entry.timedout now' = true := by
  rw [OnionAnnounceEntry.timedout, isTimeout, decide_eq_true_eq] at h ⊢
  exact UInt64.le_trans h hle

/-- An entry that is live was live before. -/
theorem OnionAnnounceEntry.live_before (h : entry.timedout now' = false) (hle : now ≤ now') :
    entry.timedout now = false := by
  cases hbefore : entry.timedout now with
  | false => rfl
  | true => exact absurd (timedout_later hbefore hle) (by simp [h])

/-- A key stays live once while time passes. -/
theorem LiveOnce.later (h : LiveOnce now entries publicKey) (hle : now ≤ now') : LiveOnce now' entries publicKey :=
  fun i j hi hj => h i j (OnionAnnounceEntry.live_before hi hle) (OnionAnnounceEntry.live_before hj hle)

/-- The live entries stay distinct while time passes. -/
theorem LiveDistinct.later (h : LiveDistinct now entries) (hle : now ≤ now') : LiveDistinct now' entries :=
  liveDistinct_iff.mpr fun publicKey => (liveDistinct_iff.mp h publicKey).later hle

/-- The position where an entry is stored is the only live one of its key. -/
theorem entryPosition_unique (h : LiveOnce now entries publicKey) {pos j : Fin onionAnnounceMaxEntries}
    (hpos : entryPosition now selfPublicKey entries publicKey = some pos) (hlive : (entries j).timedout now = false)
    (hkey : (entries j).publicKey = publicKey) : j = pos := by
  rw [entryPosition] at hpos
  split at hpos
  · rename_i found hfound
    obtain rfl := some.inj hpos
    obtain ⟨hlive', hkey'⟩ := inEntries_some hfound
    exact h j found hlive hlive' hkey hkey'
  · rename_i hnone
    have hskipped := find?_eq_none.mp hnone j (mem_finRange j)
    simp [hlive, hkey] at hskipped

/-- `add_to_entries` keeps a key live once, whichever key it adds. -/
theorem LiveOnce.addToEntries {key : PublicKey} (h : LiveOnce env.unixTime entries key) (selfPublicKey : PublicKey)
    (retIpPort : IpPort) (publicKey dataPublicKey : PublicKey) (ret : Block onionReturn3) :
    LiveOnce env.unixTime (addToEntries env selfPublicKey entries retIpPort publicKey dataPublicKey ret).2 key := by
  rw [Toxcore.addToEntries]
  split
  · exact h
  · rename_i pos hpos
    set updated := update entries pos ⟨publicKey, retIpPort, ret, dataPublicKey, env.unixTime⟩ with hupdated
    have honly (j : Fin onionAnnounceMaxEntries) (hadded : publicKey = key)
      (hj : (updated j).timedout env.unixTime = false)
        (hkey : (updated j).publicKey = key) : j = pos := by
      by_contra hjpos
      rw [hupdated, update_of_ne hjpos] at hj hkey
      exact hjpos (entryPosition_unique (hadded ▸ h) hpos hj (hkey.trans hadded.symm))
    have honce : LiveOnce env.unixTime updated key := by
      intro i j hi hj hikey hjkey
      by_cases hadded : publicKey = key
      · rw [honly i hadded hi hikey, honly j hadded hj hjkey]
      · have hother (k : Fin onionAnnounceMaxEntries) (hk : (updated k).publicKey = key) : updated k = entries k := by
          rw [hupdated]
          apply update_of_ne
          rintro rfl
          rw [hupdated, update_self] at hk
          exact hadded hk
        rw [hother i hikey] at hi hikey
        rw [hother j hjkey] at hj hjkey
        exact h i j hi hj hikey hjkey
    intro i j hi hj hikey hjkey
    exact (env.qsort (cmpEntry env.unixTime selfPublicKey) updated).injective (honce _ _ hi hj hikey hjkey)

/-- `add_to_entries` keeps the live entries distinct. -/
theorem LiveDistinct.addToEntries (h : LiveDistinct env.unixTime entries) (selfPublicKey : PublicKey)
    (retIpPort : IpPort) (publicKey dataPublicKey : PublicKey) (ret : Block onionReturn3) :
    LiveDistinct env.unixTime (addToEntries env selfPublicKey entries retIpPort publicKey dataPublicKey ret).2 :=
  liveDistinct_iff.mpr fun key =>
    (liveDistinct_iff.mp h key).addToEntries selfPublicKey retIpPort publicKey dataPublicKey ret

/-- `add_to_entries` returns what a lookup of the key finds afterwards, whether or not there was room. -/
theorem addToEntries_index (env : AnnounceEnv) (selfPublicKey : PublicKey) (entries : OnionAnnounceEntries)
    (retIpPort : IpPort) (publicKey dataPublicKey : PublicKey) (ret : Block onionReturn3) :
    (addToEntries env selfPublicKey entries retIpPort publicKey dataPublicKey ret).1 =
      inEntries env.unixTime (addToEntries env selfPublicKey entries retIpPort publicKey dataPublicKey ret).2
        publicKey := by
  rw [addToEntries]
  split
  · rename_i hposition
    rw [entryPosition] at hposition
    split at hposition
    · exact absurd hposition (by simp)
    · rename_i hnone
      exact hnone.symm
  · rfl

/-- An entry that is stored is found afterwards. -/
theorem addToEntries_found (hroom : entryPosition env.unixTime selfPublicKey entries publicKey ≠ none)
    (hclock : isTimeout env.unixTime env.unixTime onionAnnounceTimeout = false) (retIpPort : IpPort)
    (dataPublicKey : PublicKey) (ret : Block onionReturn3) :
    inEntries env.unixTime (addToEntries env selfPublicKey entries retIpPort publicKey dataPublicKey ret).2 publicKey ≠
      none := by
  obtain ⟨pos, hpos⟩ := ne_none_iff_exists'.mp hroom
  intro hnone
  rw [addToEntries, hpos] at hnone
  dsimp only at hnone
  set updated := update entries pos ⟨publicKey, retIpPort, ret, dataPublicKey, env.unixTime⟩ with hupdated
  set sorted := env.qsort (cmpEntry env.unixTime selfPublicKey) updated
  have hskipped := find?_eq_none.mp hnone (sorted.symm pos) (mem_finRange _)
  rw [Function.comp_apply, Equiv.apply_symm_apply, hupdated, update_self, OnionAnnounceEntry.timedout] at hskipped
  simp [hclock] at hskipped

/-- The node takes a ping id that comes from a key and an address. -/
def OnionAnnounce.takesPingId (sha256 : Bytes → Block onionPingIdSize) (onionA : OnionAnnounce) (now : UInt64)
    (publicKey : PublicKey) (source : IpPort) (pingId : Block onionPingIdSize) : Bool :=
  generatePingId sha256 onionA now publicKey source = pingId ||
    generatePingId sha256 onionA (now + pingIdTimeout) publicKey source = pingId

/-- The key under which a node looks a request up. -/
def lookupKey (sha256 : Bytes → Block onionPingIdSize) (now : UInt64) (onionA : OnionAnnounce) (source : IpPort)
    (request : AnnounceRequest) : PublicKey :=
  if onionA.takesPingId sha256 now request.publicKey source request.pingId then request.publicKey
    else request.searchedKey

/-- The variable `index` is what a lookup finds in the list after the request. -/
theorem announceIndex_eq (sha256 : Bytes → Block onionPingIdSize) (env : AnnounceEnv) (onionA : OnionAnnounce)
    (source : IpPort) (request : AnnounceRequest) :
    (announceIndex sha256 env onionA source request).1 =
      inEntries env.unixTime (announceIndex sha256 env onionA source request).2
        (lookupKey sha256 env.unixTime onionA source request) := by
  rw [announceIndex, lookupKey, show presentsPingId sha256 env.unixTime onionA source request =
    onionA.takesPingId sha256 env.unixTime request.publicKey source request.pingId from rfl]
  split
  · exact addToEntries_index ..
  · rfl

/-- A request keeps the live entries distinct. -/
theorem LiveDistinct.announceIndex (h : LiveDistinct env.unixTime onionA.entries)
    (sha256 : Bytes → Block onionPingIdSize) (source : IpPort) (request : AnnounceRequest) :
    LiveDistinct env.unixTime (announceIndex sha256 env onionA source request).2 := by
  rw [Toxcore.announceIndex]
  split
  · exact h.addToEntries _ _ _ _ _
  · exact h

/-- A call keeps the live entries distinct. -/
theorem LiveDistinct.exec (sodium : Sodium) (sha256 : Bytes → Block onionPingIdSize) {s : AnnounceTrace}
    (h : LiveDistinct s.clock s.onionA.entries) (call : AnnounceCall) (hclock : s.clock ≤ call.env.unixTime) :
    LiveDistinct call.env.unixTime (s.exec sodium sha256 call).onionA.entries := by
  have hopen := (openAnnounceRequest_onionA sodium call.env.unixTime (s.node call) call.packet).1
  have hentries : (s.node call).entries = s.onionA.entries := rfl
  rw [hentries] at hopen
  have hopened : LiveDistinct call.env.unixTime
      (openAnnounceRequest sodium call.env.unixTime (s.node call) call.packet).2.entries := by
    rw [hopen]
    exact h.later hclock
  cases hrequest : s.request sodium call with
  | none =>
    rw [AnnounceTrace.exec_of_none hrequest]
    exact hopened
  | some request =>
    rw [AnnounceTrace.exec_of_some sha256 hrequest rfl,
      (answerAnnounceRequest_spec sodium sha256 call.env _ _ request).1]
    exact hopened.announceIndex _ _ _

/-- A run of calls in time keeps the live entries distinct. -/
theorem AnnounceTrace.liveDistinct_run (sodium : Sodium) (sha256 : Bytes → Block onionPingIdSize)
    (calls : List AnnounceCall) {s : AnnounceTrace} (h : LiveDistinct s.clock s.onionA.entries)
    (hclock : (s.clock :: calls.map fun call => call.env.unixTime).IsChain (· ≤ ·)) :
    LiveDistinct (calls.foldl (exec sodium sha256) s).clock (calls.foldl (exec sodium sha256) s).onionA.entries := by
  induction calls generalizing s with
  | nil => exact h
  | cons call calls ih =>
    rw [map_cons, isChain_cons_cons] at hclock
    have hnext : (s.exec sodium sha256 call).clock = call.env.unixTime := by
      rw [exec]
      split <;> rfl
    apply ih
    · rw [hnext]
      exact h.exec sodium sha256 call hclock.1
    · rw [hnext]
      exact hclock.2

/-- The live entries of a new node are distinct after every run of calls in time. -/
theorem newOnionAnnounce_liveDistinct (sodium : Sodium) (sha256 : Bytes → Block onionPingIdSize) (dht : Dht)
    (selfSecretKey : SecretKey) (secretBytes : SharedKey) {clock : UInt64} (hclock : onionAnnounceTimeout ≤ clock)
    (calls : List AnnounceCall) (hcalls : (clock :: calls.map fun call => call.env.unixTime).IsChain (· ≤ ·)) :
    LiveDistinct (calls.foldl (AnnounceTrace.exec sodium sha256)
        ⟨newOnionAnnounce dht selfSecretKey secretBytes, [], clock⟩).clock
      (calls.foldl (AnnounceTrace.exec sodium sha256)
        ⟨newOnionAnnounce dht selfSecretKey secretBytes, [], clock⟩).onionA.entries :=
  AnnounceTrace.liveDistinct_run sodium sha256 calls (LiveDistinct.new hclock) hcalls

/-- The packet of a request that presents the ping id of zeros, from a node with a key of this byte. -/
def storedRequest (byte : UInt8) : Bytes :=
  (createAnnounceRequest .plain (List.Vector.replicate 24 0) onionAnnounceRequestSize PublicKey.zero (plainKeyPair byte)
    (List.Vector.replicate _ 0)
    (plainKeyPair byte).publicKey (plainKeyPair (byte + 1)).publicKey (List.Vector.replicate _ 0)).getD [] ++
    List.replicate onionReturn3 0

/-- A call with such a packet. The entries are in order as they are written. -/
def storedCall (now : UInt64) (byte : UInt8) : AnnounceCall :=
    ⟨plainAnnounceEnv now, Dht.new .zero, .zero, storedRequest byte⟩

/-- A new node after requests. -/
def storedTrace (calls : List AnnounceCall) : AnnounceTrace :=
  calls.foldl (AnnounceTrace.exec .plain fun _ => PublicKey.zero)
    ⟨newOnionAnnounce (Dht.new .zero) PublicKey.zero PublicKey.zero, [], 1000⟩

/-- Two nodes are stored, and the first once more: both are live, and no other entry is. -/
theorem newOnionAnnounce_liveDistinct_stored :
    LiveDistinct 1100 (storedTrace [storedCall 1000 3, storedCall 1001 9, storedCall 1100 3]).onionA.entries ∧
      (List.finRange onionAnnounceMaxEntries).filterMap (fun i =>
        let entry := (storedTrace [storedCall 1000 3, storedCall 1001 9, storedCall 1100 3]).onionA.entries i
        if entry.timedout 1100 then none else some (entry.publicKey, entry.time)) =
          [((plainKeyPair 9).publicKey, 1001), ((plainKeyPair 3).publicKey, 1100)] := by
  have hclock :
    (storedTrace [storedCall 1000 3, storedCall 1001 9, storedCall 1100 3]).clock = 1100 := by decide +kernel
  have hrun (calls : List AnnounceCall) (hcalls : (1000 :: calls.map fun call => call.env.unixTime).IsChain (· ≤ ·)) :
      LiveDistinct (storedTrace calls).clock (storedTrace calls).onionA.entries :=
    newOnionAnnounce_liveDistinct .plain (fun _ =>
      PublicKey.zero) (Dht.new .zero) PublicKey.zero PublicKey.zero (by decide) calls
      hcalls
  have hdistinct := hrun [storedCall 1000 3, storedCall 1001 9, storedCall 1100 3] (by decide)
  rw [hclock] at hdistinct
  exact ⟨hdistinct, by decide +kernel⟩

/-- What the response says first, by what the node then holds. -/
def heldAnswer (sha256 : Bytes → Block onionPingIdSize) (env : AnnounceEnv) (onionA : OnionAnnounce) (source : IpPort)
    (request : AnnounceRequest) : Option OnionAnnounceEntry → UInt8 × Block 32
  | none => (0, generatePingId sha256 onionA (env.unixTime + pingIdTimeout) request.publicKey source)
  | some entry =>
    if entry.publicKey = request.publicKey then
      (if entry.dataPublicKey ≠ request.dataPublicKey then 0 else 2,
        generatePingId sha256 onionA (env.unixTime + pingIdTimeout) request.publicKey source)
    else (1, entry.dataPublicKey)

/-- The node after a request, and the response it sends. -/
theorem answerAnnounceRequest_held {request : AnnounceRequest} {answered : (UInt8 × Block 32) × Bytes}
    {after : OnionAnnounce}
    (h : answerAnnounceRequest sodium sha256 env onionA source request = (some answered, after)) :
    after = { onionA with entries := (announceIndex sha256 env onionA source request).2 } ∧
      answered.1 = heldAnswer sha256 env onionA source request
        (after.held env.unixTime (lookupKey sha256 env.unixTime onionA source request)) ∧
      ∃ nodes, announceNodes env.unixTime onionA source request = some nodes ∧
        announceResponse sodium env request answered.1 nodes = some answered.2 := by
  have hafter : after = { onionA with entries := (announceIndex sha256 env onionA source request).2 } :=
    (congrArg Prod.snd h).symm
  set answer :=
    announceAnswer sha256 env { onionA with entries := (announceIndex sha256 env onionA source request).2 } source
    request (announceIndex sha256 env onionA source request).1 with hanswer
  have hanswered : ((announceNodes env.unixTime onionA source request).bind fun nodes =>
      announceResponse sodium env request answer nodes).map (fun packet => (answer, packet)) = some answered :=
    congrArg Prod.fst h
  obtain ⟨packet, hpacket, rfl⟩ := map_eq_some_iff.mp hanswered
  obtain ⟨nodes, hnodes, hresponse⟩ := bind_eq_some_iff.mp hpacket
  refine ⟨hafter, ?_, nodes, hnodes, hresponse⟩
  rw [hafter, OnionAnnounce.held]
  dsimp only
  rw [hanswer, announceIndex_eq]
  cases hfound : inEntries env.unixTime (announceIndex sha256 env onionA source request).2
      (lookupKey sha256 env.unixTime onionA source request) with
  | none => rfl
  | some i =>
    rw [map_some, heldAnswer, announceAnswer]
    dsimp only
    split
    · split <;> rfl
    · rfl

/-! ## The response -/

/-- The nodes of a response fit where the client reads them. -/
theorem announceNodes_length_le {request : AnnounceRequest} (h : announceNodes now onionA source request = some nodes) :
    nodes.length ≤ sizeofNodeFormat * maxSentNodes := by
  rw [announceNodes] at h
  split at h
  · obtain rfl := some.inj h
    exact Nat.zero_le _
  · rw [packNodes] at h
    split at h
    · exact absurd h (by simp)
    · rename_i length packed hloop
      split at h
      · exact absurd h (by simp)
      · obtain rfl := some.inj h
        obtain ⟨-, -, -, hlength, hle⟩ := packNodesLoop_some (Nat.zero_le _) hloop
        change length ≤ 256 at hle
        change packed.length ≤ 256
        omega

/-- What is sent along one return part determines what it carries. -/
theorem sendOnionResponse_inj {data data' ret packet : Bytes} (h : sendOnionResponse data ret = some packet)
    (h' : sendOnionResponse data' ret = some packet) : data = data' := by
  rw [sendOnionResponse] at h h'
  split at h
  · exact absurd h (by simp)
  split at h'
  · exact absurd h' (by simp)
  have hbytes := some.inj (h.trans h'.symm)
  exact append_cancel_left (List.cons.inj hbytes).2

/-- The bytes that a response carries to the client. -/
def announceResponseBytes (sendback : Block onionAnnounceSendbackDataLength) (nonce : Nonce)
    (encrypted : Bytes) : Bytes :=
  netPacketAnnounceResponse :: (sendback.toList ++ (nonce.toList ++ encrypted))

/-- What a response carries. -/
theorem announceResponse_carries {request : AnnounceRequest} {answer : UInt8 × Block 32} {packet response : Bytes}
    (h : announceResponse sodium env request answer nodes = some packet)
    (hcarried : sendOnionResponse response request.ret.toList = some packet) :
    ∃ encrypted, encryptDataSymmetric sodium request.sharedKey env.nonce (answer.1 :: (answer.2.toList ++ nodes)) =
      some encrypted ∧
      response = announceResponseBytes request.sendback env.nonce encrypted := by
  rw [announceResponse] at h
  split at h
  · exact absurd h (by simp)
  · rename_i encrypted hencrypt
    split at h
    · exact absurd h (by simp)
    · exact ⟨encrypted, hencrypt, sendOnionResponse_inj hcarried h⟩

variable {asked onionC : AnnounceClient sodium} {asking : AnnounceAsking sodium}

/-- The client reads what the node wrote, for the request whose id is in the response. -/
theorem handleAnnounceResponse_bytes (hlawful : sodium.Lawful) {id : Block onionAnnounceSendbackDataLength}
    {secretKey : SecretKey} {nonce : Nonce} {answer : UInt8 × Block 32} {encrypted : Bytes}
    (hcheck : (checkSendback now onionC id).1 = some sendback) (hnum : sendback.num.toNat ≤ onionC.friendsList.length)
    (hkey : onionC.openingKey sendback.num = some secretKey)
    (hencrypt : encryptDataSymmetric sodium (sodium.beforenm sendback.publicKey secretKey) nonce
      (answer.1 :: (answer.2.toList ++ nodes)) = some encrypted)
    (hnodes : nodes.length ≤ sizeofNodeFormat * maxSentNodes) :
    (handleAnnounceResponse now onionC (announceResponseBytes id nonce encrypted)).1 =
      some ⟨sendback.num, sendback.publicKey, sendback.ipPort, answer.1, answer.2, sendback.pathNum⟩ := by
  have hlengthPlain : (answer.1 :: (answer.2.toList ++ nodes)).length = 33 + nodes.length := by
    rw [length_cons, length_append, List.Vector.toList_length]
    omega
  have hlength : (announceResponseBytes id nonce encrypted).length = onionAnnounceResponseMinSize + nodes.length := by
    rw [announceResponseBytes, length_cons, length_append, length_append, List.Vector.toList_length,
      List.Vector.toList_length, encryptDataSymmetric_length hencrypt, hlengthPlain]
    change 8 + (24 + (33 + nodes.length + 16)) + 1 = 82 + nodes.length
    omega
  have hid : slice onionAnnounceSendbackDataLength (announceResponseBytes id nonce encrypted) 1 = id := by
    rw [announceResponseBytes, slice_cons, slice_block]
  have hnonce : slice 24 (announceResponseBytes id nonce encrypted) (1 + onionAnnounceSendbackDataLength) = nonce := by
    rw [announceResponseBytes, Nat.add_comm, slice_cons, slice_at _ _ _ id.toList_length]
  have hrest : (announceResponseBytes id nonce encrypted).drop (1 + onionAnnounceSendbackDataLength + 24) =
    encrypted := by
    rw [announceResponseBytes, show 1 + onionAnnounceSendbackDataLength + 24 =
      onionAnnounceSendbackDataLength + 24 + 1 from rfl,
      drop_succ_cons, drop_skip, drop_left' nonce.toList_length]
  have hsize : ¬((announceResponseBytes id nonce encrypted).length < onionAnnounceResponseMinSize ∨
      (announceResponseBytes id nonce encrypted).length > onionAnnounceResponseMaxSize) := by
    rw [hlength]
    change ¬(82 + nodes.length < 82 ∨ 82 + nodes.length > 82 + 256)
    change nodes.length ≤ 256 at hnodes
    omega
  have hopen : openAnnounceResponse (checkSendback now onionC id).2 (announceResponseBytes id nonce encrypted)
    sendback =
      some ⟨sendback.num, sendback.publicKey, sendback.ipPort, answer.1, answer.2, sendback.pathNum⟩ := by
    have hfriends : (checkSendback now onionC id).2.friendsList = onionC.friendsList := rfl
    have hopening : (checkSendback now onionC id).2.openingKey sendback.num = some secretKey := hkey
    rw [openAnnounceResponse, hfriends, if_neg (Nat.not_lt.mpr hnum), hopening, bind_some, hnonce, hrest, decryptData,
      hlawful.decrypt_of_encrypt hencrypt, bind_some, hlength, if_neg, getD_cons_zero, slice_cons, slice_block]
    rw [hlengthPlain, Nat.add_sub_cancel_left]
    exact not_not_intro rfl
  rw [handleAnnounceResponse, if_neg hsize, hid]
  dsimp only
  rw [hcheck, bind_some]
  exact hopen

/-! ## The request -/

/-- The ping id that a request presents: zero bytes if it was given none. -/
def presentedId (pingId : Option (Block onionPingIdSize)) : Block onionPingIdSize :=
    pingId.getD (List.Vector.replicate _ 0)

/-- A request that was given no ping id presents none that a node takes. -/
theorem OnionAnnounce.takesPingId_none {inputs : Set Bytes} (hash : IdealHash sha256 inputs)
    (hinputs : ∀ time ∈ [now, now + pingIdTimeout],
      pingIdInput onionA.secretBytes (time / pingIdTimeout) publicKey source ∈ inputs) :
    onionA.takesPingId sha256 now publicKey source (presentedId none) = false := by
  have hzero (time : UInt64) (htime : time ∈ [now, now + pingIdTimeout]) :
      generatePingId sha256 onionA time publicKey source ≠ PublicKey.zero :=
    fun heq => hash.zero_notMem ⟨_, hinputs time htime, heq⟩
  rw [takesPingId, Bool.or_eq_false_iff]
  exact ⟨decide_eq_false (hzero now (by simp)), decide_eq_false (hzero (now + pingIdTimeout) (by simp))⟩

/-- What a request that is sent is made of, and what the client keeps of it. -/
structure AnnounceSending.Made {sodium : Sodium} (draw : AnnounceDraw) (onionC : AnnounceClient sodium) (num : UInt32)
    (dest : IpPort) (destPubkey : PublicKey) (pingId : Option (Block onionPingIdSize)) (sending : AnnounceSending)
    (asked : AnnounceClient sodium) (asking : AnnounceAsking sodium) : Prop where
  num_le : num.toNat ≤ onionC.friendsList.length
  issued : sending.sendback ≠ 0
  added : pingArrayAdd draw.now draw.rand draw.alloc onionC.announcePingArray
    (Sendback.data ⟨num, destPubkey, dest, sending.pathNum⟩) = (sending.sendback, asked.announcePingArray)
  asking_eq : onionC.asking num = some asking
  created : createAnnounceRequest sodium draw.nonce onionAnnounceRequestSize destPubkey asking.keys (presentedId pingId)
    asking.clientId asking.dataPublicKey (hostBytes sending.sendback) = some sending.request

/-- A new sendback is an add to the ping array. -/
theorem newSendback_eq (draw : AnnounceDraw) (onionC : AnnounceClient sodium) (sendback : Sendback) :
    newSendback draw onionC sendback =
      (if (pingArrayAdd draw.now draw.rand draw.alloc onionC.announcePingArray sendback.data).1 = 0 then none
        else some (pingArrayAdd draw.now draw.rand draw.alloc onionC.announcePingArray sendback.data).1,
        { onionC with announcePingArray :=
          (pingArrayAdd draw.now draw.rand draw.alloc onionC.announcePingArray sendback.data).2 }) := rfl

/-- What is known of a new sendback. -/
theorem newSendback_some {id : UInt64} (h : newSendback draw onionC sendback = (some id, asked)) :
    id ≠ 0 ∧ asked = { onionC with announcePingArray := asked.announcePingArray } ∧
      pingArrayAdd draw.now draw.rand draw.alloc onionC.announcePingArray sendback.data =
        (id, asked.announcePingArray) := by
  rw [newSendback_eq] at h
  set added := pingArrayAdd draw.now draw.rand draw.alloc onionC.announcePingArray sendback.data with hadded
  have hid : (if added.1 = 0 then none else some added.1) = some id := congrArg Prod.fst h
  have hasked : asked = { onionC with announcePingArray := added.2 } := (congrArg Prod.snd h).symm
  split at hid
  · exact absurd hid (by simp)
  · rename_i hnonzero
    obtain rfl := some.inj hid
    refine ⟨hnonzero, by rw [hasked], ?_⟩
    rw [hasked]

/-- A request that was sent. -/
theorem clientSendAnnounceRequest_some {dest : IpPort} {destPubkey : PublicKey}
    {pingId : Option (Block onionPingIdSize)} {pathnum : UInt32} {sending : AnnounceSending}
    (h : clientSendAnnounceRequest sodium draw onionC num dest destPubkey pingId pathnum = (some sending, asked)) :
    ∃ asking, sending.Made draw onionC num dest destPubkey pingId asked asking := by
  rw [clientSendAnnounceRequest] at h
  split at h
  · exact absurd (congrArg Prod.fst h) (by simp)
  rename_i hnum
  split at h
  · exact absurd (congrArg Prod.fst h) (by simp)
  rename_i path pathNum _
  split at h
  · exact absurd (congrArg Prod.fst h) (by simp)
  rename_i sendback stored hstored
  obtain ⟨hissued, hasked, hadded⟩ := newSendback_some hstored
  obtain ⟨hsending, rfl⟩ := Prod.mk.inj h
  obtain ⟨asking, hasking, hmap⟩ := bind_eq_some_iff.mp hsending
  obtain ⟨request, hcreated, rfl⟩ := map_eq_some_iff.mp hmap
  rw [hasked] at hasking
  exact ⟨asking, Nat.not_lt.mp hnum, hissued, hadded, hasking, hcreated⟩

/-! ## The exchange -/

/-- The sendback of a request is still live: its entry is still there, and it is not timed out. -/
structure AnnounceClient.Awaits {sodium : Sodium} (now : UInt64) (asked later : AnnounceClient sodium) (id : UInt64) :
    Prop where
  size : later.announcePingArray.totalSize = announceArraySize
  entry : later.announcePingArray.entries (slotOf announceArraySize id) =
    asked.announcePingArray.entries (slotOf announceArraySize id)
  inTime : isTimeout now (asked.announcePingArray.entries (slotOf announceArraySize id)).time
    later.announcePingArray.timeout.toUInt64 = false

theorem announceArraySize_powerOfTwo : PowerOfTwo announceArraySize := ⟨8, rfl⟩

/-- A live sendback is found, with what was kept under it. -/
theorem checkSendback_awaited {later : AnnounceClient sodium} {id : UInt64}
    (hsize : onionC.announcePingArray.totalSize = announceArraySize) (hid : id ≠ 0)
    (hadded : pingArrayAdd draw.now draw.rand draw.alloc onionC.announcePingArray sendback.data =
      (id, asked.announcePingArray)) (hawaits : asked.Awaits now later id) :
    (checkSendback now later (hostBytes id)).1 = some sendback := by
  have hissued :=
    @pingArrayAdd_issued onionC.announcePingArray (hsize ▸ announceArraySize_powerOfTwo) draw.now draw.rand
    draw.alloc sendback.data (by rw [hadded]; exact hid)
  rw [hadded, hsize] at hissued
  have hentry := hawaits.entry
  have hinTime := hawaits.inTime
  rw [hissued] at hentry hinTime
  have hlength : (Sendback.data sendback).length = UInt32.ofNat sendbackSize := by
    rw [PingData.length, Sendback.data, Sendback.stored_length]
  have hcheck := @pingArrayCheck_entry now later.announcePingArray ⟨id, sendback.data, draw.now⟩ hid
    (by rw [hawaits.size]; exact hentry) hinTime (UInt32.ofNat sendbackSize) (by rw [hlength]; exact UInt32.le_refl _)
  rw [checkSendback, ofHostBytes_hostBytes, hcheck]
  dsimp only
  rw [hlength, if_neg (by decide), getD_some]
  exact congrArg some sendback.ofStored_stored

/-- The keys of a node are a pair, and its cache holds computed keys. -/
structure OnionAnnounce.Keyed (sodium : Sodium) (onionA : OnionAnnounce) : Prop where
  pair : onionA.dht.selfPublicKey = sodium.scalarmultBase onionA.selfSecretKey
  cache : onionA.sharedKeysRecv.Valid sodium onionA.selfSecretKey

/-- A request of a client that reaches a node with a return part, the response of the node, and the client when the
onion hands it what the response carries. The keys and the friends of the client are the same, and the sendback is
live. -/
structure AnnounceExchange (sodium : Sodium) (sha256 : Bytes → Block onionPingIdSize) where
  draw : AnnounceDraw
  client : AnnounceClient sodium
  num : UInt32
  dest : IpPort
  pingId : Option (Block onionPingIdSize)
  pathnum : UInt32
  sending : AnnounceSending
  asked : AnnounceClient sodium
  env : AnnounceEnv
  onionA : OnionAnnounce
  source : IpPort
  ret : Block onionReturn3
  packet : Bytes
  after : OnionAnnounce
  response : Bytes
  now : UInt64
  later : AnnounceClient sodium
  size_eq : client.announcePingArray.totalSize = announceArraySize
  keyed : onionA.Keyed sodium
  sent : clientSendAnnounceRequest sodium draw client num dest onionA.dht.selfPublicKey pingId pathnum =
    (some sending, asked)
  answered : handleAnnounceRequest sodium sha256 env onionA source (sending.request ++ ret.toList) =
    (some packet, after)
  carried : sendOnionResponse response ret.toList = some packet
  selfKeys_eq : later.selfKeys = client.selfKeys
  tempPublicKey_eq : later.tempPublicKey = client.tempPublicKey
  friendsList_eq : later.friendsList = client.friendsList
  awaits : asked.Awaits now later sending.sendback

namespace AnnounceExchange

variable {sodium : Sodium} {sha256 : Bytes → Block onionPingIdSize}

/-- The node holds an entry for our real key with our temporary key. -/
def Announced (x : AnnounceExchange sodium sha256) : Prop :=
  ∃ entry, x.after.held x.env.unixTime x.later.selfKeys.publicKey = some entry ∧
    entry.dataPublicKey = x.later.tempPublicKey

/-- The node holds an entry for the real key of the friend that is searched. -/
def FriendHeld (x : AnnounceExchange sodium sha256) (entry : OnionAnnounceEntry) : Prop :=
  ∃ friend, x.later.friendsList[x.num.toNat - 1]? = some friend ∧
    x.after.held x.env.unixTime friend.realPublicKey = some entry

/-- The node takes a ping id from the key and the address of the request, at once and for one period. -/
def WillBeTaken (x : AnnounceExchange sodium sha256) (pingId : Block onionPingIdSize) : Prop :=
  ∃ asking, x.later.asking x.num = some asking ∧
    x.after.takesPingId sha256 x.env.unixTime asking.keys.publicKey x.source pingId = true ∧
    ∀ time : UInt64, x.env.unixTime.toNat ≤ time.toNat → time.toNat ≤ x.env.unixTime.toNat + pingIdTimeout.toNat →
      time.toNat < 2 ^ 63 → x.after.takesPingId sha256 time asking.keys.publicKey x.source pingId = true

/-- The call of `client_add_to_list` says what the node holds after the request. -/
structure Agrees (x : AnnounceExchange sodium sha256) (call : ClientAddToList) : Prop where
  num_eq : call.num = x.num
  publicKey_eq : call.publicKey = x.onionA.dht.selfPublicKey
  ipPort_eq : call.ipPort = x.dest
  announced : x.num = 0 → (call.isStored = 2 ↔ x.Announced)
  held : x.num ≠ 0 → (call.isStored = 1 ↔ ∃ entry, x.FriendHeld entry)
  dataKey : x.num ≠ 0 → ∀ entry, x.FriendHeld entry → call.pingidOrKey = entry.dataPublicKey
  otherwise : ¬(x.num = 0 ∧ x.Announced) → ¬(x.num ≠ 0 ∧ ∃ entry, x.FriendHeld entry) →
    call.isStored = 0 ∧ x.WillBeTaken call.pingidOrKey

/-- The friend that is searched was not deleted. -/
def FriendInUse (x : AnnounceExchange sodium sha256) : Prop :=
  x.num ≠ 0 → ∀ friend, x.client.friendsList[x.num.toNat - 1]? = some friend → friend.status = true

/-- A search comes from another key than that of the friend, and presents no ping id that the node takes. -/
def PlainSearch (x : AnnounceExchange sodium sha256) : Prop :=
  x.num ≠ 0 → ∀ friend, x.client.friendsList[x.num.toNat - 1]? = some friend →
    friend.tempKeys.publicKey ≠ friend.realPublicKey ∧
      x.onionA.takesPingId sha256 x.env.unixTime friend.tempKeys.publicKey x.source (presentedId x.pingId) = false

/-- The request that the node reads. -/
def request (x : AnnounceExchange sodium sha256) (asking : AnnounceAsking sodium) : AnnounceRequest :=
  ⟨asking.keys.publicKey, sodium.beforenm asking.keys.publicKey x.onionA.selfSecretKey, presentedId x.pingId,
    asking.clientId,
    asking.dataPublicKey, hostBytes x.sending.sendback, x.ret⟩

/-- What the response says first. -/
def answer (x : AnnounceExchange sodium sha256) (asking : AnnounceAsking sodium) : UInt8 × Block 32 :=
  heldAnswer sha256 x.env x.onionA x.source (x.request asking)
    (x.after.held x.env.unixTime (lookupKey sha256 x.env.unixTime x.onionA x.source (x.request asking)))

end AnnounceExchange

/-- A ping id depends on a node by its secret only. -/
theorem generatePingId_congr (sha256 : Bytes → Block onionPingIdSize) {onionA' : OnionAnnounce}
    (h : onionA.secretBytes = onionA'.secretBytes) :
    generatePingId sha256 onionA = generatePingId sha256 onionA' := by
  funext time publicKey source
  rw [generatePingId, generatePingId, h]

/-- What a node takes, looks up and answers depends on it by its secret and by what it holds. -/
theorem heldAnswer_congr (sha256 : Bytes → Block onionPingIdSize) {onionA' : OnionAnnounce}
    (hentries : onionA.entries = onionA'.entries) (hsecret : onionA.secretBytes = onionA'.secretBytes)
    (hdht : onionA.dht = onionA'.dht) (env : AnnounceEnv) (source : IpPort) (request : AnnounceRequest) :
    announceIndex sha256 env onionA source request = announceIndex sha256 env onionA' source request ∧
      heldAnswer sha256 env onionA source request = heldAnswer sha256 env onionA' source request ∧
      lookupKey sha256 env.unixTime onionA source request = lookupKey sha256 env.unixTime onionA' source request := by
  have hpingId := generatePingId_congr sha256 hsecret
  refine ⟨?_, ?_, ?_⟩
  · rw [announceIndex, announceIndex, presentsPingId, presentsPingId, hpingId, hentries, hdht]
  · funext entry
    cases entry with
    | none => rw [heldAnswer, heldAnswer, hpingId]
    | some entry => rw [heldAnswer, heldAnswer, hpingId]
  · rw [lookupKey, lookupKey, OnionAnnounce.takesPingId, OnionAnnounce.takesPingId, hpingId]

/-- A response is decrypted with the secret key of the pair that the request came from. -/
theorem AnnounceClient.openingKey_asking (h : onionC.asking num = some asking)
    (hstatus : num ≠ 0 → ∀ friend, onionC.friendsList[num.toNat - 1]? = some friend → friend.status = true) :
    onionC.openingKey num = some asking.keys.secretKey := by
  rw [AnnounceClient.asking] at h
  rw [openingKey]
  split at h
  · rename_i hzero
    obtain rfl := some.inj h
    rw [if_pos hzero]
  · rename_i hzero
    obtain ⟨friend, hfriend, rfl⟩ := map_eq_some_iff.mp h
    rw [if_neg hzero, hfriend, bind_some, if_pos (hstatus hzero friend hfriend)]

namespace AnnounceExchange

variable {sodium : Sodium} {sha256 : Bytes → Block onionPingIdSize}

variable (x : AnnounceExchange sodium sha256)

/-- The client later asks in the same way. -/
theorem asking_later : x.later.asking x.num = x.client.asking x.num := by
  rw [AnnounceClient.asking, AnnounceClient.asking, x.selfKeys_eq, x.tempPublicKey_eq, x.friendsList_eq]

/-- The client calls `client_add_to_list` with what it kept of the request and what the response says first. -/
theorem call_eq (hlawful : sodium.Lawful) (x : AnnounceExchange sodium sha256) (hstatus : x.FriendInUse) :
    ∃ asking, x.client.asking x.num = some asking ∧ x.after.secretBytes = x.onionA.secretBytes ∧
      x.after.entries = (announceIndex sha256 x.env x.onionA x.source (x.request asking)).2 ∧
      (handleAnnounceResponse x.now x.later x.response).1 =
        some ⟨x.num, x.onionA.dht.selfPublicKey, x.dest, (x.answer asking).1, (x.answer asking).2,
          x.sending.pathNum⟩ := by
  obtain ⟨asking, hmade⟩ := clientSendAnnounceRequest_some x.sent
  obtain ⟨request, hcreated, hopen⟩ :=
    openAnnounceRequest_create hlawful x.keyed.cache x.env.unixTime x.draw.nonce asking.keys
    (presentedId x.pingId) asking.clientId asking.dataPublicKey (hostBytes x.sending.sendback)
  rw [← x.keyed.pair] at hcreated
  obtain rfl : x.sending.request = request := some.inj (hmade.created.symm.trans hcreated)
  obtain ⟨hentries, hsecret, hdht⟩ :=
    openAnnounceRequest_onionA sodium x.env.unixTime x.onionA (x.sending.request ++ x.ret.toList)
  have hanswered := x.answered
  have hopened := hopen x.ret
  rw [handleAnnounceRequest] at hanswered
  rcases hpair :
    openAnnounceRequest sodium x.env.unixTime x.onionA (x.sending.request ++ x.ret.toList) with ⟨opening, opened⟩
  rw [hpair] at hopened hentries hsecret hdht hanswered
  dsimp only at hopened hentries hsecret hdht
  rw [hopened] at hanswered
  dsimp only at hanswered
  rw [show (⟨asking.keys.publicKey, sodium.beforenm asking.keys.publicKey x.onionA.selfSecretKey, presentedId x.pingId,
    asking.clientId, asking.dataPublicKey, hostBytes x.sending.sendback, x.ret⟩ :
      AnnounceRequest) = x.request asking from rfl]
    at hanswered
  rcases hresult : answerAnnounceRequest sodium sha256 x.env opened x.source (x.request asking) with ⟨sent, after⟩
  rw [hresult] at hanswered
  obtain ⟨hpacket, hafter⟩ := Prod.mk.inj hanswered
  obtain ⟨answered, rfl, hanswer⟩ := map_eq_some_iff.mp hpacket
  obtain ⟨hnode, hheld, nodes, hnodes, hresponse⟩ := answerAnnounceRequest_held hresult
  change after = x.after at hafter
  rw [hafter] at hnode hheld
  rw [hanswer] at hresponse
  obtain ⟨encrypted, hencrypt, hbytes⟩ := announceResponse_carries hresponse x.carried
  obtain ⟨hsameIndex, hsameAnswer, hsameKey⟩ :=
    heldAnswer_congr sha256 hentries hsecret hdht x.env x.source (x.request asking)
  rw [hsameAnswer, hsameKey] at hheld
  have hshared : (x.request asking).sharedKey = sodium.beforenm x.onionA.dht.selfPublicKey asking.keys.secretKey := by
    rw [x.keyed.pair, request, asking.keys.valid]
    exact hlawful.beforenm_comm _ _
  have hopening : x.later.openingKey x.num = some asking.keys.secretKey := by
    apply AnnounceClient.openingKey_asking (x.asking_later.trans hmade.asking_eq)
    rw [x.friendsList_eq]
    exact hstatus
  have hnum : x.num.toNat ≤ x.later.friendsList.length := by
    rw [x.friendsList_eq]
    exact hmade.num_le
  have hcheck := checkSendback_awaited x.size_eq hmade.issued hmade.added x.awaits
  rw [hshared] at hencrypt
  have hcall := handleAnnounceResponse_bytes hlawful hcheck hnum hopening hencrypt (announceNodes_length_le hnodes)
  refine ⟨asking, hmade.asking_eq, by rw [hnode]; exact hsecret, by rw [hnode, ← hsameIndex], ?_⟩
  rw [hbytes, show (x.request asking).sendback = hostBytes x.sending.sendback from rfl, hcall, answer, ← hheld]

variable {asking : AnnounceAsking sodium}

/-- The ping id of the next period is taken. -/
theorem willBeTaken_next (hasking : x.client.asking x.num = some asking)
    (hsecret : x.after.secretBytes = x.onionA.secretBytes) :
    x.WillBeTaken
      (generatePingId sha256 x.onionA (x.env.unixTime + pingIdTimeout) (x.request asking).publicKey x.source) := by
  have hpingId := generatePingId_congr sha256 hsecret
  refine ⟨asking, x.asking_later.trans hasking, ?_, ?_⟩
  · rw [OnionAnnounce.takesPingId, hpingId, Bool.or_eq_true_iff]
    right
    exact decide_eq_true rfl
  · intro time horder hage hclock
    rw [OnionAnnounce.takesPingId, hpingId, Bool.or_eq_true_iff]
    rcases period_of_age_le hclock horder hage with hnow | hnext
    · left
      rw [decide_eq_true_iff, generatePingId, generatePingId, hnow]
      rfl
    · right
      rw [decide_eq_true_iff, generatePingId, generatePingId, hnext]
      rfl

/-- One entry at most is held for a friend. -/
theorem friendHeld_unique {other : OnionAnnounceEntry} (h : x.FriendHeld entry) (hother : x.FriendHeld other) :
    entry = other := by
  obtain ⟨friend, hfriend, hentry⟩ := h
  obtain ⟨friend', hfriend', hentry'⟩ := hother
  obtain rfl : friend = friend' := some.inj (hfriend.symm.trans hfriend')
  exact some.inj (hentry.symm.trans hentry')

/-- What the response to our own announcement says. -/
theorem answer_self (hnum : x.num = 0) (hasking : x.client.asking x.num = some asking) :
    x.Announced ∧ (x.answer asking).1 = 2 ∨
      ¬x.Announced ∧ x.answer asking =
        (0, generatePingId sha256 x.onionA (x.env.unixTime + pingIdTimeout) (x.request asking).publicKey x.source) := by
  rw [AnnounceClient.asking, if_pos hnum] at hasking
  obtain rfl := some.inj hasking
  have hkey : lookupKey sha256 x.env.unixTime x.onionA x.source
      (x.request ⟨x.client.selfKeys, x.client.selfKeys.publicKey, x.client.tempPublicKey⟩) =
        x.client.selfKeys.publicKey := by
    rw [lookupKey]
    split <;> rfl
  rw [answer, hkey, Announced, x.selfKeys_eq, x.tempPublicKey_eq]
  cases hheld : x.after.held x.env.unixTime x.client.selfKeys.publicKey with
  | none =>
    right
    constructor
    · rintro ⟨entry, hentry, -⟩
      exact absurd hentry (by simp)
    · rfl
  | some entry =>
    have hown : entry.publicKey =
        (x.request ⟨x.client.selfKeys, x.client.selfKeys.publicKey, x.client.tempPublicKey⟩).publicKey :=
      OnionAnnounce.held_publicKey hheld
    rw [heldAnswer, if_pos hown]
    by_cases hdata : entry.dataPublicKey = x.client.tempPublicKey
    · left
      exact ⟨⟨entry, rfl, hdata⟩, if_neg (not_not_intro hdata)⟩
    · right
      constructor
      · rintro ⟨other, hother, hsame⟩
        obtain rfl := some.inj hother
        exact hdata hsame
      · rw [if_pos]
        exact hdata

/-- What the response to a search says that presents no valid ping id. -/
theorem answer_friend (hnum : x.num ≠ 0) (hplain : x.PlainSearch) (hasking : x.client.asking x.num = some asking) :
    (∃ entry, x.FriendHeld entry ∧ x.answer asking = (1, entry.dataPublicKey)) ∨
      (¬∃ entry, x.FriendHeld entry) ∧ x.answer asking =
        (0, generatePingId sha256 x.onionA (x.env.unixTime + pingIdTimeout) (x.request asking).publicKey x.source) := by
  rw [AnnounceClient.asking, if_neg hnum] at hasking
  obtain ⟨friend, hfriend, rfl⟩ := map_eq_some_iff.mp hasking
  obtain ⟨hother, htakes⟩ := hplain hnum friend hfriend
  have hkey : lookupKey sha256 x.env.unixTime x.onionA x.source
      (x.request ⟨friend.tempKeys, friend.realPublicKey, .zero⟩) = friend.realPublicKey := by
    rw [lookupKey, if_neg]
    · rfl
    · rw [Bool.not_eq_true]
      exact htakes
  have hholds (entry : OnionAnnounceEntry) :
      x.FriendHeld entry ↔ x.after.held x.env.unixTime friend.realPublicKey = some entry := by
    rw [FriendHeld, x.friendsList_eq, hfriend]
    constructor
    · rintro ⟨same, hsame, hentry⟩
      obtain rfl := some.inj hsame
      exact hentry
    · intro hentry
      exact ⟨friend, rfl, hentry⟩
  rw [answer, hkey]
  cases hheld : x.after.held x.env.unixTime friend.realPublicKey with
  | none =>
    right
    constructor
    · rintro ⟨entry, hentry⟩
      rw [hholds, hheld] at hentry
      exact absurd hentry (by simp)
    · rfl
  | some entry =>
    left
    refine ⟨entry, (hholds entry).mpr hheld, ?_⟩
    rw [heldAnswer, OnionAnnounce.held_publicKey hheld, if_neg]
    exact hother.symm

/-- Our own announcement agrees. -/
theorem agrees_self (hnum : x.num = 0) (hasking : x.client.asking x.num = some asking)
    (hsecret : x.after.secretBytes = x.onionA.secretBytes) (pathNum : UInt32) :
    x.Agrees ⟨x.num, x.onionA.dht.selfPublicKey, x.dest, (x.answer asking).1, (x.answer asking).2, pathNum⟩ := by
  refine ⟨rfl, rfl, rfl, ?_, fun hother => absurd hnum hother, fun hother => absurd hnum hother, ?_⟩
  · intro _
    rcases x.answer_self hnum hasking with ⟨hannounced, hanswer⟩ | ⟨hannounced, hanswer⟩
    · exact iff_of_true hanswer hannounced
    · rw [hanswer]
      exact iff_of_false (by decide : (0 : UInt8) ≠ 2) hannounced
  · intro hnot _
    rcases x.answer_self hnum hasking with ⟨hannounced, -⟩ | ⟨-, hanswer⟩
    · exact absurd ⟨hnum, hannounced⟩ hnot
    · rw [hanswer]
      exact ⟨rfl, x.willBeTaken_next hasking hsecret⟩

/-- A search that presents no valid ping id agrees. -/
theorem agrees_friend (hnum : x.num ≠ 0) (hplain : x.PlainSearch) (hasking : x.client.asking x.num = some asking)
    (hsecret : x.after.secretBytes = x.onionA.secretBytes) (pathNum : UInt32) :
    x.Agrees ⟨x.num, x.onionA.dht.selfPublicKey, x.dest, (x.answer asking).1, (x.answer asking).2, pathNum⟩ := by
  refine ⟨rfl, rfl, rfl, fun hzero => absurd hzero hnum, ?_, ?_, ?_⟩
  · intro _
    rcases x.answer_friend hnum hplain hasking with ⟨entry, hheld, hanswer⟩ | ⟨hheld, hanswer⟩
    · rw [hanswer]
      exact iff_of_true rfl ⟨entry, hheld⟩
    · rw [hanswer]
      exact iff_of_false (by decide : (0 : UInt8) ≠ 1) hheld
  · intro _ entry hentry
    rcases x.answer_friend hnum hplain hasking with ⟨other, hheld, hanswer⟩ | ⟨hheld, -⟩
    · rw [hanswer, x.friendHeld_unique hheld hentry]
    · exact absurd ⟨entry, hentry⟩ hheld
  · intro _ hnot
    rcases x.answer_friend hnum hplain hasking with ⟨entry, hheld, -⟩ | ⟨-, hanswer⟩
    · exact absurd ⟨hnum, entry, hheld⟩ hnot
    · rw [hanswer]
      exact ⟨rfl, x.willBeTaken_next hasking hsecret⟩

end AnnounceExchange

/-- Announce and search agree: for a friend that was not deleted, searched from a key of its own and without a valid
ping id, or for ourselves, the client calls `client_add_to_list` with the key and the address it asked, and with what
the node then holds. -/
theorem announce_search_agree {sodium : Sodium} (hlawful : sodium.Lawful) {sha256 : Bytes → Block onionPingIdSize}
    (x : AnnounceExchange sodium sha256) (hstatus : x.FriendInUse) (hplain : x.PlainSearch) :
    ∃ call, (handleAnnounceResponse x.now x.later x.response).1 = some call ∧ x.Agrees call := by
  obtain ⟨asking, hasking, hsecret, -, hcall⟩ := x.call_eq hlawful hstatus
  refine ⟨_, hcall, ?_⟩
  by_cases hnum : x.num = 0
  · exact x.agrees_self hnum hasking hsecret _
  · exact x.agrees_friend hnum hplain hasking hsecret _

/-- Where no two live entries of the node have one key, it holds our announcement if and only if that is in its list. -/
theorem AnnounceExchange.announced_iff (hlawful : sodium.Lawful) (x : AnnounceExchange sodium sha256)
    (hstatus : x.FriendInUse) (h : LiveDistinct x.env.unixTime x.onionA.entries) :
    x.Announced ↔ ∃ i, (x.after.entries i).timedout x.env.unixTime = false ∧
      (x.after.entries i).publicKey = x.later.selfKeys.publicKey ∧
      (x.after.entries i).dataPublicKey = x.later.tempPublicKey := by
  obtain ⟨asking, -, -, hentries, -⟩ := x.call_eq hlawful hstatus
  have hdistinct : LiveDistinct x.env.unixTime x.after.entries := by
    rw [hentries]
    exact h.announceIndex _ _ _
  constructor
  · rintro ⟨entry, hheld, hdata⟩
    obtain ⟨i, rfl, hlive, hkey⟩ := (OnionAnnounce.held_eq_some_iff hdistinct).mp hheld
    exact ⟨i, hlive, hkey, hdata⟩
  · rintro ⟨i, hlive, hkey, hdata⟩
    exact ⟨_, (OnionAnnounce.held_eq_some_iff hdistinct).mpr ⟨i, rfl, hlive, hkey⟩, hdata⟩

/-- A search that was given no ping id is plain, where the key of the friend is not the one that was drawn for it. -/
theorem AnnounceExchange.plainSearch_of_none {inputs : Set Bytes} (hash : IdealHash sha256 inputs)
    (x : AnnounceExchange sodium sha256) (hnone : x.pingId = none)
    (hkeys : ∀ friend ∈ x.client.friendsList, friend.tempKeys.publicKey ≠ friend.realPublicKey)
    (hinputs : ∀ friend ∈ x.client.friendsList, ∀ time ∈ [x.env.unixTime, x.env.unixTime + pingIdTimeout],
      pingIdInput x.onionA.secretBytes (time / pingIdTimeout) friend.tempKeys.publicKey x.source ∈ inputs) :
    x.PlainSearch := by
  intro _ friend hfriend
  have hmem := mem_of_getElem? hfriend
  refine ⟨hkeys friend hmem, ?_⟩
  rw [hnone]
  exact OnionAnnounce.takesPingId_none hash (hinputs friend hmem)

/-! ## Exchanges with a node that knows nobody -/

/-- A draw with a path to everyone. -/
def openDraw (path : OnionPath) : AnnounceDraw := ⟨0, 0, true, List.Vector.replicate 24 0, fun _ _ => some (path, 0)⟩

/-- A client sends every request that it can make, and awaits its response. -/
theorem clientSendAnnounceRequest_open (hlawful : sodium.Lawful) (path : OnionPath)
    (hsize : onionC.announcePingArray.totalSize = announceArraySize)
    (htimeout : onionC.announcePingArray.timeout = announceTimeout) (hnum : num.toNat ≤ onionC.friendsList.length)
    (hasking : onionC.asking num = some asking) (hkeyed : onionA.Keyed sodium) (dest : IpPort)
    (pingId : Option (Block onionPingIdSize)) :
    ∃ sending asked,
      clientSendAnnounceRequest sodium (openDraw path) onionC num dest onionA.dht.selfPublicKey pingId 0 =
        (some sending, asked) ∧ asked.selfKeys = onionC.selfKeys ∧ asked.tempPublicKey = onionC.tempPublicKey ∧
      asked.friendsList = onionC.friendsList ∧ asked.Awaits 0 asked sending.sendback := by
  set sendback : Sendback := ⟨num, onionA.dht.selfPublicKey, dest, 0⟩ with hsendback
  set added := pingArrayAdd 0 0 true onionC.announcePingArray sendback.data with hadded
  have heffect := LoggedPings.pingArrayAdd_effect 0 0 true onionC.announcePingArray sendback.data
  have hpower : PowerOfTwo onionC.announcePingArray.totalSize := hsize ▸ announceArraySize_powerOfTwo
  have hindex : (onionC.announcePingArray.lastAdded % onionC.announcePingArray.totalSize).toNat <
      onionC.announcePingArray.totalSize.toNat := by
    rw [UInt32.toNat_mod]
    exact Nat.mod_lt _ hpower.pos
  have hid : added.1 ≠ 0 := by
    rw [(heffect.added rfl).1]
    exact (newPingId_spec hpower 0 hindex).1
  have hissued := @pingArrayAdd_issued onionC.announcePingArray hpower 0 0 true sendback.data hid
  obtain ⟨request, hcreated, -⟩ :=
    openAnnounceRequest_create hlawful hkeyed.cache 0 (List.Vector.replicate 24 0) asking.keys
    (presentedId pingId) asking.clientId asking.dataPublicKey (hostBytes added.1)
  rw [← hkeyed.pair] at hcreated
  refine ⟨⟨path, 0, dest, request, added.1⟩, { onionC with announcePingArray := added.2 }, ?_, rfl, rfl, rfl,
    heffect.size.trans hsize, rfl, ?_⟩
  · have hstored : newSendback (openDraw path) onionC sendback =
        (some added.1, { onionC with announcePingArray := added.2 }) := by
      rw [newSendback_eq]
      exact Prod.ext (if_neg hid) rfl
    have hsame : ({ onionC with announcePingArray := added.2 } : AnnounceClient sodium).asking num =
      some asking := hasking
    rw [clientSendAnnounceRequest, if_neg (Nat.not_lt.mpr hnum)]
    simp only [openDraw]
    rw [show (⟨0, 0, true, List.Vector.replicate 24 0, fun _ _ => some (path, 0)⟩ : AnnounceDraw) =
      openDraw path from rfl,
      hstored]
    dsimp only
    rw [hsame, bind_some, show pingId.getD (List.Vector.replicate _ 0) = presentedId pingId from rfl, hcreated]
    rfl
  · change isTimeout 0 (added.2.entries (slotOf announceArraySize added.1)).time added.2.timeout.toUInt64 = false
    rw [← hsize, hissued, heffect.timeout, htimeout]
    rfl

/-- Every request that a client can make is answered by a node that knows nobody. -/
theorem AnnounceExchange.exists_unused (hlawful : sodium.Lawful) (sha256 : Bytes → Block onionPingIdSize)
    (path : OnionPath) {client : AnnounceClient sodium}
    (hsize : client.announcePingArray.totalSize = announceArraySize)
    (htimeout : client.announcePingArray.timeout = announceTimeout) (hnum : num.toNat ≤ client.friendsList.length)
    (hasking : client.asking num = some asking) (hkeyed : onionA.Keyed sodium)
    (hfriends : onionA.dht.friendsList = []) (hclose : ∀ i, onionA.dht.closeClientlist i = .zero) (env : AnnounceEnv)
    (dest source : IpPort) (pingId : Option (Block onionPingIdSize)) :
    ∃ x : AnnounceExchange sodium sha256, x.client = client ∧ x.num = num ∧ x.pingId = pingId ∧ x.onionA = onionA ∧
      x.env = env ∧ x.source = source := by
  obtain ⟨sending, asked, hsent, hself, htemp, hlist, hawaits⟩ :=
    clientSendAnnounceRequest_open hlawful path hsize htimeout hnum hasking hkeyed dest pingId
  obtain ⟨made, hmade⟩ := clientSendAnnounceRequest_some hsent
  obtain ⟨request, hcreated, hopen⟩ :=
    openAnnounceRequest_create hlawful hkeyed.cache env.unixTime (List.Vector.replicate 24 0)
    made.keys (presentedId pingId) made.clientId made.dataPublicKey (hostBytes sending.sendback)
  rw [← hkeyed.pair] at hcreated
  obtain rfl : sending.request = request := some.inj (hmade.created.symm.trans hcreated)
  set ret : Block onionReturn3 := List.Vector.replicate _ 0
  have hopened := hopen ret
  obtain ⟨-, -, hdht⟩ := openAnnounceRequest_onionA sodium env.unixTime onionA (sending.request ++ ret.toList)
  rcases hpair : openAnnounceRequest sodium env.unixTime onionA (sending.request ++ ret.toList) with ⟨opening, opened⟩
  rw [hpair] at hopened hdht
  dsimp only at hopened hdht
  have hnobody : opened.dht.friendsList = [] := by rw [hdht, hfriends]
  obtain ⟨response, packet, hcarried, hanswer⟩ := answerAnnounceRequest_unused hlawful sha256 env source
    ⟨made.keys.publicKey, sodium.beforenm made.keys.publicKey onionA.selfSecretKey, presentedId pingId, made.clientId,
      made.dataPublicKey, hostBytes sending.sendback, ret⟩ hnobody (by rw [hdht]; exact hclose)
  have hanswered :
    (handleAnnounceRequest sodium sha256 env onionA source (sending.request ++ ret.toList)).1 = some packet := by
    rw [handleAnnounceRequest, hpair, hopened]
    dsimp only
    rw [hanswer]
    rfl
  rcases hresult :
    handleAnnounceRequest sodium sha256 env onionA source (sending.request ++ ret.toList) with ⟨sent, after⟩
  rw [hresult] at hanswered
  dsimp only at hanswered
  rw [hanswered] at hresult
  exact ⟨⟨openDraw path, client, num, dest, pingId, 0, sending, asked, env, onionA, source, ret, packet, after,
    response, 0,
    asked, hsize, hkeyed, hsent, hresult, hcarried, hself, htemp, hlist, hawaits⟩, rfl, rfl, rfl, rfl, rfl, rfl⟩

/-! ## One friend -/

/-- A client that searches one friend with the temporary key of bytes 3. -/
def searchingClient (realPublicKey : PublicKey) : AnnounceClient Sodium.plain where
  selfKeys := plainKeyPair 1
  tempPublicKey := (plainKeyPair 6).publicKey
  friendsList := [⟨true, realPublicKey, plainKeyPair 3⟩]
  announcePingArray := ⟨fun _ => .empty, 0, 0, announceArraySize, announceTimeout⟩

/-- A node that knows nobody, with one and the same entry everywhere. -/
def searchedNode (entry : OnionAnnounceEntry) : OnionAnnounce :=
  { newOnionAnnounce (Dht.new (plainKeyPair 4).publicKey) (plainKeyPair 4).secretKey (plainKeyPair 5).secretKey with
    entries := fun _ => entry }

/-- The entry of a key, stored at 1000. -/
def searchedEntry (publicKey : PublicKey) : OnionAnnounceEntry :=
  ⟨publicKey, .zero, List.Vector.replicate _ 0, (plainKeyPair 7).publicKey, 1000⟩

/-- The client searches, and the node answers. -/
theorem searchingClient_asks (realPublicKey : PublicKey) (entry : OnionAnnounceEntry)
    (pingId : Option (Block onionPingIdSize)) :
    ∃ x : AnnounceExchange Sodium.plain markedHash, x.client = searchingClient realPublicKey ∧ x.num = 1 ∧
      x.pingId = pingId ∧ x.onionA = searchedNode entry ∧ x.env = plainAnnounceEnv 1000 ∧ x.source = .zero := by
  have hkeyed : (searchedNode entry).Keyed Sodium.plain := by
    refine ⟨rfl, ?_⟩
    intro index hstored
    cases hstored
  have hasking : (searchingClient realPublicKey).asking 1 = some ⟨plainKeyPair 3, realPublicKey, .zero⟩ := rfl
  exact AnnounceExchange.exists_unused Sodium.plain_lawful markedHash
    (createOnionPath Sodium.plain (plainKeyPair 0) (plainKeyPair 0)
      (plainKeyPair 0) .zero .zero .zero) rfl rfl (le_refl 1)
    hasking hkeyed rfl (fun _ => rfl) (plainAnnounceEnv 1000) .zero .zero pingId

/-- A request without a valid ping id leaves the entries alone. -/
theorem announceIndex_keeps {request : AnnounceRequest}
    (h : onionA.takesPingId sha256 env.unixTime request.publicKey source request.pingId = false) :
    (announceIndex sha256 env onionA source request).2 = onionA.entries := by
  rw [announceIndex, show presentsPingId sha256 env.unixTime onionA source request = false from h]
  rfl

/-- A node that has one live entry everywhere holds it. -/
theorem held_everywhere (hentries : onionA.entries = fun _ => entry) (hlive : entry.timedout now = false) :
    onionA.held now entry.publicKey = some entry := by
  rw [OnionAnnounce.held, hentries, inEntries, finRange_succ, find?_cons_of_pos]
  · rfl
  · rw [hlive, decide_eq_true rfl]
    rfl

/-- The searched node takes no zero bytes. -/
theorem searchedNode_takes_none (entry : OnionAnnounceEntry) :
    (searchedNode entry).takesPingId markedHash 1000 (plainKeyPair 3).publicKey .zero (presentedId none) = false := by
  apply OnionAnnounce.takesPingId_none (markedHash_ideal (plainKeyPair 5).secretKey (plainKeyPair 3).publicKey .zero)
  intro time _
  exact ⟨time / pingIdTimeout, rfl⟩

/-- The friend of a client that searches one. -/
theorem searchingClient_friend {x : AnnounceExchange Sodium.plain markedHash} {realPublicKey : PublicKey}
    (hclient : x.client = searchingClient realPublicKey) (hnum : x.num = 1) :
    x.FriendInUse ∧ x.later.friendsList[x.num.toNat - 1]? = some ⟨true, realPublicKey, plainKeyPair 3⟩ ∧
      x.client.asking x.num = some ⟨plainKeyPair 3, realPublicKey, .zero⟩ := by
  refine ⟨?_, ?_, ?_⟩
  · intro _ friend hfriend
    rw [hclient, hnum] at hfriend
    obtain rfl := some.inj hfriend
    rfl
  · rw [x.friendsList_eq, hclient, hnum]
    rfl
  · rw [hclient, hnum]
    rfl

/-- A friend is not found that is searched from its own key. -/
theorem search_from_own_key : ∃ x : AnnounceExchange Sodium.plain markedHash, x.FriendInUse ∧ x.pingId = none ∧
    ∀ call, (handleAnnounceResponse x.now x.later x.response).1 = some call → ¬x.Agrees call := by
  obtain ⟨x, hclient, hnum, hpingId, honionA, henv, hsource⟩ :=
    searchingClient_asks (plainKeyPair 3).publicKey (searchedEntry (plainKeyPair 3).publicKey) none
  obtain ⟨hstatus, hfriend, hasks⟩ := searchingClient_friend hclient hnum
  refine ⟨x, hstatus, hpingId, ?_⟩
  intro call hcall hagrees
  obtain ⟨asking, hasking, -, hentries, hmade⟩ := x.call_eq Sodium.plain_lawful hstatus
  obtain rfl := some.inj (hcall.symm.trans hmade)
  obtain rfl := some.inj (hasks.symm.trans hasking)
  have htaken :
    x.onionA.takesPingId markedHash x.env.unixTime (plainKeyPair 3).publicKey x.source (presentedId x.pingId) =
      false := by
    rw [honionA, henv, hsource, hpingId]
    exact searchedNode_takes_none _
  rw [announceIndex_keeps htaken, honionA] at hentries
  have hheld : x.after.held x.env.unixTime (plainKeyPair 3).publicKey =
    some (searchedEntry (plainKeyPair 3).publicKey) := by
    rw [henv]
    exact held_everywhere hentries rfl
  have hkey : lookupKey markedHash x.env.unixTime x.onionA x.source
      (x.request ⟨plainKeyPair 3, (plainKeyPair 3).publicKey, .zero⟩) = (plainKeyPair 3).publicKey := by
    rw [lookupKey]
    split <;> rfl
  have hanswer : (x.answer ⟨plainKeyPair 3, (plainKeyPair 3).publicKey, .zero⟩).1 = 0 := by
    rw [AnnounceExchange.answer, hkey, hheld]
    rfl
  have hfound := (hagrees.held (by rw [hnum]; decide)).mpr ⟨_, _, hfriend, hheld⟩
  rw [hanswer] at hfound
  exact absurd hfound (by decide : (0 : UInt8) ≠ 1)

/-- There is room in an unused list. -/
theorem entryPosition_zero (h : onionAnnounceTimeout ≤ now) (selfPublicKey publicKey : PublicKey) :
    entryPosition now selfPublicKey (fun _ => .zero) publicKey ≠ none := by
  rw [entryPosition, inEntries_zero h]
  dsimp only
  split
  · exact some_ne_none _
  · rename_i hnone
    have hskipped := find?_eq_none.mp hnone 0 (by rw [mem_reverse]; exact mem_finRange 0)
    exact absurd (OnionAnnounceEntry.zero_timedout h) hskipped

/-- After the first entry was stored in an unused list, it is the only one that is held. -/
theorem held_first {dataPublicKey : PublicKey} {retIpPort : IpPort} {ret : Block onionReturn3}
    (htime : onionAnnounceTimeout ≤ env.unixTime)
    (hclock : isTimeout env.unixTime env.unixTime onionAnnounceTimeout = false) (hentries : onionA.entries =
      (addToEntries env selfPublicKey (fun _ => .zero) retIpPort publicKey dataPublicKey ret).2) :
    onionA.held env.unixTime publicKey = some ⟨publicKey, retIpPort, ret, dataPublicKey, env.unixTime⟩ ∧
      ∀ other, other ≠ publicKey → onionA.held env.unixTime other = none := by
  have hlive (i : Fin onionAnnounceMaxEntries) (hi : (onionA.entries i).timedout env.unixTime = false) :
      onionA.entries i = ⟨publicKey, retIpPort, ret, dataPublicKey, env.unixTime⟩ := by
    rw [hentries] at hi ⊢
    rcases addToEntries_entry env selfPublicKey (fun _ => .zero) retIpPort publicKey dataPublicKey ret i with
      ⟨j, hold⟩ | hnew
    · rw [hold, OnionAnnounceEntry.zero_timedout htime] at hi
      contradiction
    · exact hnew
  constructor
  · have hfound :=
      addToEntries_found (entryPosition_zero htime selfPublicKey publicKey) hclock retIpPort dataPublicKey ret
    rw [← hentries] at hfound
    obtain ⟨i, hi⟩ := ne_none_iff_exists'.mp hfound
    rw [OnionAnnounce.held, hi, map_some, hlive i (inEntries_some hi).1]
  · intro other hother
    rw [OnionAnnounce.held, map_eq_none_iff, eq_none_iff_forall_ne_some]
    intro i hi
    obtain ⟨hilive, hkey⟩ := inEntries_some hi
    rw [hlive i hilive] at hkey
    exact hother hkey.symm

/-- A search that presents a valid ping id is stored under its own key, and the response says 2. -/
theorem search_with_pingId : ∃ x : AnnounceExchange Sodium.plain markedHash, x.FriendInUse ∧
    (∀ friend ∈ x.client.friendsList, friend.tempKeys.publicKey ≠ friend.realPublicKey) ∧
    ∀ call, (handleAnnounceResponse x.now x.later x.response).1 = some call → ¬x.Agrees call := by
  obtain ⟨x, hclient, hnum, hpingId, honionA, henv, hsource⟩ := searchingClient_asks (plainKeyPair 2).publicKey .zero
    (some (generatePingId markedHash (searchedNode .zero) 1000 (plainKeyPair 3).publicKey .zero))
  obtain ⟨hstatus, hfriend, hasks⟩ := searchingClient_friend hclient hnum
  refine ⟨x, hstatus, ?_, ?_⟩
  · rw [hclient]
    intro friend hmem
    obtain rfl := mem_singleton.mp hmem
    change (plainKeyPair 3).publicKey ≠ (plainKeyPair 2).publicKey
    decide
  intro call hcall hagrees
  obtain ⟨asking, hasking, -, hentries, hmade⟩ := x.call_eq Sodium.plain_lawful hstatus
  obtain rfl := some.inj (hcall.symm.trans hmade)
  obtain rfl := some.inj (hasks.symm.trans hasking)
  have htaken :
    x.onionA.takesPingId markedHash x.env.unixTime (plainKeyPair 3).publicKey x.source (presentedId x.pingId) =
      true := by
    rw [honionA, henv, hsource, hpingId, OnionAnnounce.takesPingId, Bool.or_eq_true_iff]
    left
    exact decide_eq_true rfl
  have hstored : x.after.entries =
      (addToEntries x.env x.onionA.dht.selfPublicKey (fun _ =>
        .zero) x.source (plainKeyPair 3).publicKey .zero x.ret).2 := by
    rw [hentries, announceIndex, if_pos]
    · rw [honionA]
      rfl
    · exact htaken
  obtain ⟨hheld, hothers⟩ := held_first (by rw [henv]; decide) (by rw [henv]; rfl) hstored
  have hnotFound : ¬∃ entry, x.FriendHeld entry := by
    rintro ⟨entry, friend, hsame, hfriendHeld⟩
    obtain rfl := some.inj (hfriend.symm.trans hsame)
    rw [hothers _ (by decide)] at hfriendHeld
    exact absurd hfriendHeld (by simp)
  have hkey : lookupKey markedHash x.env.unixTime x.onionA x.source
      (x.request ⟨plainKeyPair 3, (plainKeyPair 2).publicKey, .zero⟩) = (plainKeyPair 3).publicKey := by
    rw [lookupKey, if_pos]
    · rfl
    · exact htaken
  have hanswer : (x.answer ⟨plainKeyPair 3, (plainKeyPair 2).publicKey, .zero⟩).1 = 2 := by
    rw [AnnounceExchange.answer, hkey, hheld]
    rfl
  have hzero :=
    (hagrees.otherwise (fun hself => absurd hself.1 (by rw [hnum]; decide)) fun hother => hnotFound hother.2).1
  rw [hanswer] at hzero
  exact absurd hzero (by decide : (2 : UInt8) ≠ 0)

/-- Searches from the key of the friend, and searches with a valid ping id, do not agree. -/
theorem search_disagrees :
    (∃ x : AnnounceExchange Sodium.plain markedHash, x.FriendInUse ∧ x.pingId = none ∧
      ∀ call, (handleAnnounceResponse x.now x.later x.response).1 = some call → ¬x.Agrees call) ∧
    ∃ x : AnnounceExchange Sodium.plain markedHash, x.FriendInUse ∧
      (∀ friend ∈ x.client.friendsList, friend.tempKeys.publicKey ≠ friend.realPublicKey) ∧
      ∀ call, (handleAnnounceResponse x.now x.later x.response).1 = some call → ¬x.Agrees call :=
  ⟨search_from_own_key, search_with_pingId⟩

/-- A friend is found whose entry the node holds. -/
theorem announce_search_agree_found : ∃ (x : AnnounceExchange Sodium.plain markedHash) (call : ClientAddToList),
    x.FriendInUse ∧ x.PlainSearch ∧ (handleAnnounceResponse x.now x.later x.response).1 = some call ∧ x.Agrees call ∧
      call.isStored = 1 ∧ call.pingidOrKey = (plainKeyPair 7).publicKey := by
  obtain ⟨x, hclient, hnum, hpingId, honionA, henv, hsource⟩ :=
    searchingClient_asks (plainKeyPair 2).publicKey (searchedEntry (plainKeyPair 2).publicKey) none
  obtain ⟨hstatus, hfriend, hasks⟩ := searchingClient_friend hclient hnum
  have hplain : x.PlainSearch := by
    apply x.plainSearch_of_none (markedHash_ideal (plainKeyPair 5).secretKey (plainKeyPair 3).publicKey .zero) hpingId
    · rw [hclient]
      intro friend hmem
      obtain rfl := mem_singleton.mp hmem
      change (plainKeyPair 3).publicKey ≠ (plainKeyPair 2).publicKey
      decide
    · rw [hclient, honionA, hsource]
      intro friend hmem time _
      obtain rfl := mem_singleton.mp hmem
      exact ⟨time / pingIdTimeout, rfl⟩
  obtain ⟨call, hcall, hagrees⟩ := announce_search_agree Sodium.plain_lawful x hstatus hplain
  obtain ⟨asking, hasking, -, hentries, -⟩ := x.call_eq Sodium.plain_lawful hstatus
  obtain rfl := some.inj (hasks.symm.trans hasking)
  have htaken :
    x.onionA.takesPingId markedHash x.env.unixTime (plainKeyPair 3).publicKey x.source (presentedId x.pingId) =
      false := by
    rw [honionA, henv, hsource, hpingId]
    exact searchedNode_takes_none _
  rw [announceIndex_keeps htaken, honionA] at hentries
  have hheld : x.FriendHeld (searchedEntry (plainKeyPair 2).publicKey) := by
    refine ⟨_, hfriend, ?_⟩
    rw [henv]
    exact held_everywhere hentries rfl
  have hother : x.num ≠ 0 := by
    rw [hnum]
    decide
  exact ⟨x, call, hstatus, hplain, hcall, hagrees, (hagrees.held hother).mpr ⟨_, hheld⟩, hagrees.dataKey hother _ hheld⟩

end Toxcore
