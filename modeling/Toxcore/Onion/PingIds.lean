import Toxcore.Onion.Announce

/-!
# Who may announce

A ping id names the period it is for, a key and an address. A node hands out the id of the next period and takes the ids
of this and of the next one. So an id is taken for at least one period after it was handed out and for less than two.

The hash is idealised for the inputs of a run: it is injective on them, and a request names a hash of such an input only
if the node sent it before. That a node sends data keys too, which come from earlier requests, is no way around this: by
induction over the run the first response with a hash in it is one that was made for the key and the address.
-/

namespace Toxcore

open ByteStrings Function List Option

/-! ## Periods -/

theorem hostBytes_injective : Injective hostBytes := by
  intro a b h
  rw [← ofHostBytes_hostBytes a, h, ofHostBytes_hostBytes]

/-- The input of a ping id determines the period, the key and the address. -/
theorem pingIdInput_inj {secretBytes : SharedKey} {period period' : UInt64} {publicKey publicKey' : PublicKey}
    {source source' : IpPort}
    (h : pingIdInput secretBytes period publicKey source = pingIdInput secretBytes period' publicKey' source') :
    period = period' ∧ publicKey = publicKey' ∧ source = source' := by
  have hrest := append_cancel_left h
  obtain ⟨hperiod, hrest⟩ := append_inj hrest (by simp)
  obtain ⟨hkey, hsource⟩ := append_inj hrest (by simp)
  exact ⟨hostBytes_injective (List.Vector.toList_injective hperiod), List.Vector.toList_injective hkey,
    IpPort.stored_injective hsource⟩

/-- The period of a time, as a number. -/
theorem period_toNat (time : UInt64) : (time / pingIdTimeout).toNat = time.toNat / 20 := UInt64.toNat_div _ _

/-- The period after the one of a time. -/
theorem nextPeriod_toNat {time : UInt64} (h : time.toNat < 2 ^ 63) :
    ((time + pingIdTimeout) / pingIdTimeout).toNat = time.toNat / 20 + 1 := by
  have hsum : (time + pingIdTimeout).toNat = time.toNat + 20 := by
    rw [UInt64.toNat_add]
    change (time.toNat + 20) % 2 ^ 64 = _
    omega
  rw [period_toNat, hsum]
  omega

variable {now : UInt64} {onionA : OnionAnnounce} {sodium : Sodium}

/-- An id that is taken was handed out less than two periods ago. -/
theorem age_lt_of_period {issued : UInt64} (hissued : issued.toNat < 2 ^ 63) (hnow : now.toNat < 2 ^ 63)
    (h : (issued + pingIdTimeout) / pingIdTimeout = now / pingIdTimeout ∨
      (issued + pingIdTimeout) / pingIdTimeout = (now + pingIdTimeout) / pingIdTimeout) :
    now.toNat < issued.toNat + 2 * pingIdTimeout.toNat := by
  change now.toNat < issued.toNat + 40
  rcases h with h | h
  · have hperiod := congrArg UInt64.toNat h
    rw [nextPeriod_toNat hissued, period_toNat] at hperiod
    omega
  · have hperiod := congrArg UInt64.toNat h
    rw [nextPeriod_toNat hissued, nextPeriod_toNat hnow] at hperiod
    omega

/-- An id that was handed out at most one period ago is taken. -/
theorem period_of_age_le {issued : UInt64} (hnow : now.toNat < 2 ^ 63) (horder : issued.toNat ≤ now.toNat)
    (h : now.toNat ≤ issued.toNat + pingIdTimeout.toNat) :
    now / pingIdTimeout = (issued + pingIdTimeout) / pingIdTimeout ∨
      (now + pingIdTimeout) / pingIdTimeout = (issued + pingIdTimeout) / pingIdTimeout := by
  change now.toNat ≤ issued.toNat + 20 at h
  have hissued : issued.toNat < 2 ^ 63 := by omega
  by_cases hsame : now.toNat / 20 = issued.toNat / 20
  · right
    apply UInt64.toNat_inj.mp
    rw [nextPeriod_toNat hissued, nextPeriod_toNat hnow, hsame]
  · left
    apply UInt64.toNat_inj.mp
    rw [nextPeriod_toNat hissued, period_toNat]
    omega

/-! ## Runs -/

/-- A response that was sent: when, to whom, and its first bytes. -/
structure AnnounceSent where
  time : UInt64
  publicKey : PublicKey
  source : IpPort
  isStored : UInt8
  value : Block onionPingIdSize

/-- The response carries a ping id. -/
def AnnounceSent.CarriesPingId (sent : AnnounceSent) : Prop := sent.isStored ≠ 1

/-- A node with the responses it sent and the time of its last call. -/
structure AnnounceTrace where
  onionA : OnionAnnounce
  sent : List AnnounceSent
  clock : UInt64

/-- A packet for `handle_announce_request`, with what the call observes. The lists of the DHT are those of the
moment. -/
structure AnnounceCall where
  env : AnnounceEnv
  dht : Dht
  source : IpPort
  packet : Bytes

namespace AnnounceTrace

variable (sodium : Sodium) (sha256 : Bytes → Block onionPingIdSize)

/-- The node when a call is made. -/
def node (s : AnnounceTrace) (call : AnnounceCall) : OnionAnnounce := { s.onionA with dht := call.dht }

/-- The request in a packet, if it can be decrypted. -/
def request (s : AnnounceTrace) (call : AnnounceCall) : Option AnnounceRequest :=
  (openAnnounceRequest sodium call.env.unixTime (s.node call) call.packet).1

/-- The trace after a call. -/
def exec (s : AnnounceTrace) (call : AnnounceCall) : AnnounceTrace :=
  match openAnnounceRequest sodium call.env.unixTime (s.node call) call.packet with
  | (none, onionA) => { s with onionA := onionA, clock := call.env.unixTime }
  | (some request, onionA) =>
    let result := answerAnnounceRequest sodium sha256 call.env onionA call.source request
    { onionA := result.2
      sent := s.sent ++ (result.1.map fun answered =>
        ⟨call.env.unixTime, request.publicKey, call.source, answered.1.1, answered.1.2⟩).toList
      clock := call.env.unixTime }

/-- A call that may be made: the clock does not go back, the hashed inputs are among those of the run, and what the
request names of their hashes was sent before. -/
structure Allowed (inputs : Set Bytes) (s : AnnounceTrace) (call : AnnounceCall) : Prop where
  clock_le : s.clock ≤ call.env.unixTime
  clock_lt : call.env.unixTime.toNat < 2 ^ 63
  hashed : ∀ request, s.request sodium call = some request →
    ∀ time ∈ [call.env.unixTime, call.env.unixTime + pingIdTimeout],
      pingIdInput s.onionA.secretBytes (time / pingIdTimeout) request.publicKey call.source ∈ inputs
  unguessable : ∀ request, s.request sodium call = some request → ∀ value ∈ [request.pingId, request.dataPublicKey],
    value ∈ Set.image sha256 inputs → ∃ sent ∈ s.sent, sent.value = value

/-- The traces of a node under any allowed calls. -/
inductive Reaches (inputs : Set Bytes) : AnnounceTrace → Prop where
  | new (dht : Dht) (selfSecretKey : SecretKey) (secretBytes : SharedKey) (clock : UInt64) :
      Reaches inputs ⟨newOnionAnnounce dht selfSecretKey secretBytes, [], clock⟩
  | exec {s : AnnounceTrace} (call : AnnounceCall) :
      Reaches inputs s → Allowed sodium sha256 inputs s call → Reaches inputs (s.exec sodium sha256 call)

end AnnounceTrace

/-- The hash for the inputs of a run: injective, and never the value that unused entries have. -/
structure IdealHash (sha256 : Bytes → Block onionPingIdSize) (inputs : Set Bytes) : Prop where
  injOn : Set.InjOn sha256 inputs
  zero_notMem : PublicKey.zero ∉ Set.image sha256 inputs

/-! ## One call -/

section

variable (sodium : Sodium) (sha256 : Bytes → Block onionPingIdSize)

/-- Decryption changes nothing but the key cache. -/
theorem openAnnounceRequest_onionA (now : UInt64) (onionA : OnionAnnounce) (packet : Bytes) :
    (openAnnounceRequest sodium now onionA packet).2.entries = onionA.entries ∧
      (openAnnounceRequest sodium now onionA packet).2.secretBytes = onionA.secretBytes ∧
      (openAnnounceRequest sodium now onionA packet).2.dht = onionA.dht := by
  unfold openAnnounceRequest
  split <;> exact ⟨rfl, rfl, rfl⟩

variable (env : AnnounceEnv)

/-- The entries after `add_to_entries` are old ones or the new one. -/
theorem addToEntries_entry (selfPublicKey : PublicKey) (entries : OnionAnnounceEntries) (retIpPort : IpPort)
    (publicKey dataPublicKey : PublicKey) (ret : Block onionReturn3) (i : Fin onionAnnounceMaxEntries) :
    (∃ j, (addToEntries env selfPublicKey entries retIpPort publicKey dataPublicKey ret).2 i = entries j) ∨
      (addToEntries env selfPublicKey entries retIpPort publicKey dataPublicKey ret).2 i =
        ⟨publicKey, retIpPort, ret, dataPublicKey, env.unixTime⟩ := by
  unfold addToEntries
  split
  · exact .inl ⟨i, rfl⟩
  · rename_i pos _
    dsimp only [Function.comp_apply]
    set j := env.qsort (cmpEntry env.unixTime selfPublicKey)
      (update entries pos ⟨publicKey, retIpPort, ret, dataPublicKey, env.unixTime⟩) i
    by_cases hj : j = pos
    · right
      rw [hj, update_self]
    · left
      exact ⟨j, update_of_ne hj _ _⟩

/-- The entries after a request: without a valid ping id they stay, and with one only the entry of the request is
new. -/
theorem announceIndex_entry (onionA : OnionAnnounce) (source : IpPort) (request : AnnounceRequest)
    (i : Fin onionAnnounceMaxEntries) :
    (∃ j, (announceIndex sha256 env onionA source request).2 i = onionA.entries j) ∨
      (presentsPingId sha256 env.unixTime onionA source request = true ∧
        (announceIndex sha256 env onionA source request).2 i =
          ⟨request.publicKey, source, request.ret, request.dataPublicKey, env.unixTime⟩) := by
  unfold announceIndex
  split
  · rename_i hpresents
    rcases addToEntries_entry env onionA.dht.selfPublicKey onionA.entries source request.publicKey request.dataPublicKey
      request.ret i with hold | hnew
    · exact .inl hold
    · exact .inr ⟨hpresents, hnew⟩
  · exact .inl ⟨i, rfl⟩

/-- A response carries the ping id of the next period, or the data key of an entry. -/
theorem announceAnswer_cases (onionA : OnionAnnounce) (source : IpPort) (request : AnnounceRequest)
    (index : Option (Fin onionAnnounceMaxEntries)) :
    ((announceAnswer sha256 env onionA source request index).1 ≠ 1 ∧
        (announceAnswer sha256 env onionA source request index).2 =
          generatePingId sha256 onionA (env.unixTime + pingIdTimeout) request.publicKey source) ∨
      ((announceAnswer sha256 env onionA source request index).1 = 1 ∧
        ∃ i, (announceAnswer sha256 env onionA source request index).2 = (onionA.entries i).dataPublicKey) := by
  unfold announceAnswer
  cases index with
  | none => exact .inl ⟨(by decide : (0 : UInt8) ≠ 1), rfl⟩
  | some i =>
    dsimp only
    split
    · split
      · exact .inl ⟨(by decide : (0 : UInt8) ≠ 1), rfl⟩
      · exact .inl ⟨(by decide : (2 : UInt8) ≠ 1), rfl⟩
    · exact .inr ⟨rfl, i, rfl⟩

/-- The node after a request was answered, and what the response says first. -/
theorem answerAnnounceRequest_spec (onionA : OnionAnnounce) (source : IpPort) (request : AnnounceRequest) :
    (answerAnnounceRequest sodium sha256 env onionA source request).2 =
        { onionA with entries := (announceIndex sha256 env onionA source request).2 } ∧
      ∀ answered, (answerAnnounceRequest sodium sha256 env onionA source request).1 = some answered →
        (answered.1.1 ≠ 1 ∧ answered.1.2 =
          generatePingId sha256 onionA (env.unixTime + pingIdTimeout) request.publicKey source) ∨
        (answered.1.1 = 1 ∧
          ∃ i, answered.1.2 = ((announceIndex sha256 env onionA source request).2 i).dataPublicKey) := by
  refine ⟨rfl, ?_⟩
  intro answered hanswered
  obtain ⟨packet, -, rfl⟩ := map_eq_some_iff.mp hanswered
  exact announceAnswer_cases sha256 env
    { onionA with entries := (announceIndex sha256 env onionA source request).2 } source
    request (announceIndex sha256 env onionA source request).1

end

/-- A node reads what `create_announce_request` wrote for its key. -/
theorem openAnnounceRequest_create (h : sodium.Lawful)
    (hcache : onionA.sharedKeysRecv.Valid sodium onionA.selfSecretKey) (now : UInt64) (nonce : Nonce)
    (pair : KeyPair sodium) (pingId : Block onionPingIdSize) (clientId dataPublicKey : PublicKey)
    (sendback : Block onionAnnounceSendbackDataLength) :
    ∃ packet, createAnnounceRequest sodium nonce onionAnnounceRequestSize
      (sodium.scalarmultBase onionA.selfSecretKey) pair
        pingId clientId dataPublicKey sendback = some packet ∧
      ∀ ret : Block onionReturn3, (openAnnounceRequest sodium now onionA (packet ++ ret.toList)).1 =
        some ⟨pair.publicKey, sodium.beforenm pair.publicKey onionA.selfSecretKey, pingId, clientId, dataPublicKey,
          sendback, ret⟩ := by
  set plain := pingId.toList ++ (clientId.toList ++ (dataPublicKey.toList ++ sendback.toList)) with hplain
  have hlengthPlain : plain.length = 104 := by
    simp only [hplain, length_append, List.Vector.toList_length]
    rfl
  have hkey : sodium.beforenm (sodium.scalarmultBase onionA.selfSecretKey) pair.secretKey =
      sodium.beforenm pair.publicKey onionA.selfSecretKey := by
    rw [pair.valid, h.beforenm_comm]
  obtain ⟨encrypted, hencrypt, hlength, hdecrypt⟩ :=
    h.encrypt_decrypt (sodium.beforenm pair.publicKey onionA.selfSecretKey) nonce (by omega : plain.length ≠ 0)
  have hlengthEncrypted : encrypted.length = 120 := by rw [hlength, hlengthPlain, macBytes]
  refine ⟨netPacketAnnounceRequest :: (nonce.toList ++ (pair.publicKey.toList ++ encrypted)), ?_, ?_⟩
  · have hsize : ¬encrypted.length + 1 + 24 + 32 ≠ onionAnnounceRequestSize := by
      change ¬_ ≠ 177
      omega
    have hencrypted : encryptData sodium (sodium.scalarmultBase onionA.selfSecretKey) pair.secretKey nonce plain =
        some encrypted := by
      rw [encryptData, hkey, hencrypt]
    rw [createAnnounceRequest, if_neg (lt_irrefl _)]
    simp only [← hplain, hencrypted]
    rw [if_neg hsize]
  · intro ret
    set packet := netPacketAnnounceRequest :: (nonce.toList ++ (pair.publicKey.toList ++ encrypted)) ++ ret.toList
      with hpacket
    have hassoc : packet =
        netPacketAnnounceRequest :: (nonce.toList ++ (pair.publicKey.toList ++ (encrypted ++ ret.toList))) := by
      simp only [hpacket, cons_append, append_assoc]
    have hlengthPacket : ¬packet.length ≠ announceRequestSizeRecv := by
      simp only [hassoc, length_cons, length_append, List.Vector.toList_length, hlengthEncrypted]
      decide
    have hnonce : slice 24 packet 1 = nonce := by rw [hassoc, slice_cons, slice_block]
    have hpublicKey : slice 32 packet 25 = pair.publicKey := by
      rw [hassoc, slice_cons _ _ 24, slice_at _ _ _ nonce.toList_length]
    have hbody : (packet.drop onionHeader).take (announcePlainSize + macBytes) = encrypted := by
      rw [hassoc]
      change List.take 120 (List.drop (24 + 32)
        (nonce.toList ++ (pair.publicKey.toList ++ (encrypted ++ ret.toList)))) = _
      rw [drop_skip nonce, drop_left' pair.publicKey.toList_length, take_left' hlengthEncrypted]
    have hret : slice onionReturn3 packet (announceRequestSizeRecv - onionReturn3) = ret := by
      rw [hpacket]
      apply slice_at_end
      simp only [length_cons, length_append, List.Vector.toList_length, hlengthEncrypted]
      decide
    have hclientId : slice 32 plain onionPingIdSize = clientId := by
      rw [hplain, slice_at _ _ _ pingId.toList_length]
    have hdataKey : slice 32 plain (onionPingIdSize + 32) = dataPublicKey := by
      rw [hplain, slice_skip pingId, slice_at _ _ _ clientId.toList_length]
    have hsendback : slice onionAnnounceSendbackDataLength plain (onionPingIdSize + 32 + 32) = sendback := by
      rw [hplain, Nat.add_assoc, slice_skip pingId, slice_skip clientId, slice_at_end _ _ dataPublicKey.toList_length]
    rw [openAnnounceRequest, if_neg hlengthPacket]
    simp only [hnonce, hpublicKey, hbody]
    rw [(hcache.getSharedKey now pair.publicKey).1, hdecrypt, bind_some,
      if_neg (by change ¬plain.length ≠ 104; omega), hret, hclientId, hdataKey, hsendback, hplain, slice_block]

/-! ## All calls -/

namespace AnnounceTrace

variable {sodium : Sodium} {sha256 : Bytes → Block onionPingIdSize} {inputs : Set Bytes}

/-- A value was sent as a ping id. -/
def Issued (s : AnnounceTrace) (value : Block onionPingIdSize) : Prop :=
  ∃ first ∈ s.sent, first.CarriesPingId ∧ first.value = value

/-- What holds in every run: ping ids that were sent are hashes made for the receiver, and every other hash that the
node sends or keeps was sent as a ping id before. -/
structure Valid (sha256 : Bytes → Block onionPingIdSize) (inputs : Set Bytes) (s : AnnounceTrace) : Prop where
  times : ∀ sent ∈ s.sent, sent.time ≤ s.clock ∧ sent.time.toNat < 2 ^ 63
  made : ∀ sent ∈ s.sent, sent.CarriesPingId →
    pingIdInput s.onionA.secretBytes ((sent.time + pingIdTimeout) / pingIdTimeout) sent.publicKey sent.source ∈ inputs ∧
      sent.value =
        sha256 (pingIdInput s.onionA.secretBytes ((sent.time + pingIdTimeout) / pingIdTimeout) sent.publicKey
          sent.source)
  sent_issued : ∀ sent ∈ s.sent, sent.value ∈ Set.image sha256 inputs → s.Issued sent.value
  entries_issued : ∀ i, (s.onionA.entries i).dataPublicKey ∈ Set.image sha256 inputs →
    s.Issued (s.onionA.entries i).dataPublicKey

/-- A new node has handed out no id. -/
theorem Valid.new (hash : IdealHash sha256 inputs) (dht : Dht) (selfSecretKey : SecretKey) (secretBytes : SharedKey)
    (clock : UInt64) : Valid sha256 inputs ⟨newOnionAnnounce dht selfSecretKey secretBytes, [], clock⟩ where
  times sent hsent := by cases hsent
  made sent hsent := by cases hsent
  sent_issued sent hsent := by cases hsent
  entries_issued i hzero := absurd hzero hash.zero_notMem

variable {onionA : OnionAnnounce} {s : AnnounceTrace} {call : AnnounceCall}

/-- A call that sends nothing and keeps the entries. -/
theorem Valid.quiet (h : s.Valid sha256 inputs) {clock : UInt64} (hclock : s.clock ≤ clock)
    (hentries : onionA.entries = s.onionA.entries) (hsecret : onionA.secretBytes = s.onionA.secretBytes) :
    Valid sha256 inputs ⟨onionA, s.sent, clock⟩ where
  times sent hsent := ⟨UInt64.le_trans (h.times sent hsent).1 hclock, (h.times sent hsent).2⟩
  made sent hsent hcarries := by
    simp only [hsecret]
    exact h.made sent hsent hcarries
  sent_issued := h.sent_issued
  entries_issued i := by
    simp only [hentries]
    exact h.entries_issued i

/-- A response is added that carries a ping id made for its receiver, or a value that was issued or is no hash. -/
theorem Valid.send (h : s.Valid sha256 inputs) (response : AnnounceSent) (htime : response.time = s.clock)
    (hlt : response.time.toNat < 2 ^ 63) (hmade : response.CarriesPingId →
      pingIdInput s.onionA.secretBytes ((response.time + pingIdTimeout) / pingIdTimeout) response.publicKey
          response.source ∈ inputs ∧
        response.value = sha256 (pingIdInput s.onionA.secretBytes ((response.time + pingIdTimeout) / pingIdTimeout)
          response.publicKey response.source))
    (hissued : ¬response.CarriesPingId → response.value ∈ Set.image sha256 inputs → s.Issued response.value) :
    Valid sha256 inputs { s with sent := s.sent ++ [response] } := by
  have hkeep : ∀ value, s.Issued value → Issued { s with sent := s.sent ++ [response] } value := by
    rintro value ⟨first, hfirst, hcarries, hvalue⟩
    exact ⟨first, mem_append_left _ hfirst, hcarries, hvalue⟩
  refine ⟨?_, ?_, ?_, fun i hi => hkeep _ (h.entries_issued i hi)⟩
  · intro sent hsent
    rcases mem_append.mp hsent with hold | hnew
    · exact h.times sent hold
    · rw [mem_singleton.mp hnew]
      exact ⟨htime ▸ UInt64.le_refl _, hlt⟩
  · intro sent hsent hcarries
    rcases mem_append.mp hsent with hold | hnew
    · exact h.made sent hold hcarries
    · rw [mem_singleton.mp hnew] at hcarries ⊢
      exact hmade hcarries
  · intro sent hsent himage
    rcases mem_append.mp hsent with hold | hnew
    · exact hkeep _ (h.sent_issued sent hold himage)
    · rw [mem_singleton.mp hnew] at himage ⊢
      by_cases hcarries : response.CarriesPingId
      · exact ⟨response, mem_append_right _ (mem_singleton_self _), hcarries, rfl⟩
      · exact hkeep _ (hissued hcarries himage)

/-- A call without a request in it. -/
theorem exec_of_none (h : s.request sodium call = none) :
    s.exec sodium sha256 call = ⟨(openAnnounceRequest sodium call.env.unixTime (s.node call) call.packet).2, s.sent,
      call.env.unixTime⟩ := by
  unfold request at h
  unfold exec
  split
  · rename_i onionA heq
    rw [heq]
  · rename_i request onionA heq
    rw [heq] at h
    contradiction

/-- A call with a request in it. -/
theorem exec_of_some (sha256 : Bytes → Block onionPingIdSize) {request : AnnounceRequest}
    (h : s.request sodium call = some request)
    (honionA : (openAnnounceRequest sodium call.env.unixTime (s.node call) call.packet).2 = onionA) :
    s.exec sodium sha256 call =
      ⟨(answerAnnounceRequest sodium sha256 call.env onionA call.source request).2,
        s.sent ++ ((answerAnnounceRequest sodium sha256 call.env onionA call.source request).1.map fun answered =>
          (⟨call.env.unixTime, request.publicKey, call.source, answered.1.1, answered.1.2⟩ : AnnounceSent)).toList,
        call.env.unixTime⟩ := by
  unfold AnnounceTrace.request at h
  unfold exec
  split
  · rename_i onionA' heq
    rw [heq] at h
    contradiction
  · rename_i request' onionA' heq
    rw [heq] at h honionA
    obtain rfl := some_inj.mp h
    rw [← honionA]

/-- A hash that a request names was issued. -/
theorem Valid.issued_of_named (h : s.Valid sha256 inputs) (hallowed : Allowed sodium sha256 inputs s call)
    {request : AnnounceRequest} (hrequest : s.request sodium call = some request) {value : Block onionPingIdSize}
    (hvalue : value ∈ [request.pingId, request.dataPublicKey]) (himage : value ∈ Set.image sha256 inputs) :
    s.Issued value := by
  obtain ⟨sent, hsent, rfl⟩ := hallowed.unguessable request hrequest value hvalue himage
  exact h.sent_issued sent hsent himage

/-- The entries after a request hold no hash that was not issued. -/
theorem Valid.entries_of_request (h : s.Valid sha256 inputs) (hallowed : Allowed sodium sha256 inputs s call)
    {request : AnnounceRequest} (hrequest : s.request sodium call = some request)
    (hentries : onionA.entries = s.onionA.entries) (i : Fin onionAnnounceMaxEntries)
    (himage : ((announceIndex sha256 call.env onionA call.source request).2 i).dataPublicKey ∈
      Set.image sha256 inputs) :
    s.Issued ((announceIndex sha256 call.env onionA call.source request).2 i).dataPublicKey := by
  rcases announceIndex_entry sha256 call.env onionA call.source request i with ⟨j, hold⟩ | ⟨-, hnew⟩
  · rw [hold, hentries] at himage ⊢
    exact h.entries_issued j himage
  · rw [hnew] at himage ⊢
    exact h.issued_of_named hallowed hrequest (mem_cons_of_mem _ (mem_singleton_self _)) himage

/-- Every allowed call keeps the trace valid. -/
theorem Valid.exec (h : s.Valid sha256 inputs) (call : AnnounceCall) (hallowed : Allowed sodium sha256 inputs s call) :
    (s.exec sodium sha256 call).Valid sha256 inputs := by
  cases hrequest : s.request sodium call with
  | none =>
    have hopen := openAnnounceRequest_onionA sodium call.env.unixTime (s.node call) call.packet
    rw [exec_of_none hrequest]
    exact h.quiet hallowed.clock_le hopen.1 hopen.2.1
  | some request =>
    obtain ⟨hentries, hsecret, -⟩ := openAnnounceRequest_onionA sodium call.env.unixTime (s.node call) call.packet
    rw [exec_of_some sha256 hrequest rfl]
    set onionA := (openAnnounceRequest sodium call.env.unixTime (s.node call) call.packet).2
    change onionA.entries = s.onionA.entries at hentries
    change onionA.secretBytes = s.onionA.secretBytes at hsecret
    obtain ⟨hnode, hanswer⟩ :=
      answerAnnounceRequest_spec sodium sha256 call.env onionA call.source request
    have hstored := h.entries_of_request hallowed hrequest hentries
    have hafter : Valid sha256 inputs
        ⟨(answerAnnounceRequest sodium sha256 call.env onionA call.source request).2, s.sent, call.env.unixTime⟩ := by
      rw [hnode]
      refine ⟨fun sent hsent => ⟨UInt64.le_trans (h.times sent hsent).1 hallowed.clock_le, (h.times sent hsent).2⟩, ?_,
        h.sent_issued, hstored⟩
      intro sent hsent hcarries
      simp only [hsecret]
      exact h.made sent hsent hcarries
    cases hanswered : (answerAnnounceRequest sodium sha256 call.env onionA call.source request).1 with
    | none =>
      rw [map_none, toList_none, append_nil]
      exact hafter
    | some answered =>
      rw [map_some, toList_some]
      apply hafter.send _ rfl hallowed.clock_lt
      · intro hcarries
        rcases hanswer answered hanswered with ⟨-, hvalue⟩ | ⟨hdata, -⟩
        · simp only [hnode, hvalue, generatePingId, hsecret, and_true]
          exact hallowed.hashed request hrequest _ (mem_cons_of_mem _ (mem_singleton_self _))
        · exact absurd hdata hcarries
      · intro hcarries himage
        rcases hanswer answered hanswered with ⟨hping, -⟩ | ⟨-, i, hvalue⟩
        · exact absurd hping hcarries
        · simp only [hvalue] at himage ⊢
          exact hstored i himage

/-- The trace of every run is valid. -/
theorem Reaches.valid (hash : IdealHash sha256 inputs) (h : Reaches sodium sha256 inputs s) :
    s.Valid sha256 inputs := by
  induction h with
  | new dht selfSecretKey secretBytes clock => exact Valid.new hash dht selfSecretKey secretBytes clock
  | exec call _ hallowed ih => exact ih.exec call hallowed

end AnnounceTrace

/-- Announcements are authorised: only a request with a valid ping id changes the entries, and only the entry of its key
and address; the ping id was sent to that key and address less than two periods ago; and every ping id that was sent to
them at most one period ago is valid. -/
theorem announce_authorised {sodium : Sodium} {sha256 : Bytes → Block onionPingIdSize} {inputs : Set Bytes}
    (hash : IdealHash sha256 inputs) {s : AnnounceTrace} (h : AnnounceTrace.Reaches sodium sha256 inputs s)
    (call : AnnounceCall) (hallowed : AnnounceTrace.Allowed sodium sha256 inputs s call) :
    (∀ i, (∃ j, (s.exec sodium sha256 call).onionA.entries i = s.onionA.entries j) ∨
      ∃ request, s.request sodium call = some request ∧
        presentsPingId sha256 call.env.unixTime s.onionA call.source request = true ∧
        (s.exec sodium sha256 call).onionA.entries i =
          ⟨request.publicKey, call.source, request.ret, request.dataPublicKey, call.env.unixTime⟩) ∧
    ∀ request, s.request sodium call = some request →
      (presentsPingId sha256 call.env.unixTime s.onionA call.source request = true →
        ∃ sent ∈ s.sent, sent.CarriesPingId ∧ sent.publicKey = request.publicKey ∧ sent.source = call.source ∧
          sent.value = request.pingId ∧ sent.time ≤ call.env.unixTime ∧
          call.env.unixTime.toNat < sent.time.toNat + 2 * pingIdTimeout.toNat) ∧
      ((∃ sent ∈ s.sent, sent.CarriesPingId ∧ sent.publicKey = request.publicKey ∧ sent.source = call.source ∧
          sent.value = request.pingId ∧ call.env.unixTime.toNat ≤ sent.time.toNat + pingIdTimeout.toNat) →
        presentsPingId sha256 call.env.unixTime s.onionA call.source request = true) := by
  have hvalid := h.valid hash
  refine ⟨?_, ?_⟩
  · intro i
    cases hrequest : s.request sodium call with
    | none =>
      have hopen := openAnnounceRequest_onionA sodium call.env.unixTime (s.node call) call.packet
      rw [AnnounceTrace.exec_of_none hrequest]
      exact .inl ⟨i, congrFun hopen.1 i⟩
    | some request =>
      obtain ⟨hentries, hsecret, -⟩ := openAnnounceRequest_onionA sodium call.env.unixTime (s.node call) call.packet
      rw [AnnounceTrace.exec_of_some sha256 hrequest rfl]
      set onionA := (openAnnounceRequest sodium call.env.unixTime (s.node call) call.packet).2
      change onionA.entries = s.onionA.entries at hentries
      change onionA.secretBytes = s.onionA.secretBytes at hsecret
      rcases announceIndex_entry sha256 call.env onionA call.source request i with ⟨j, hold⟩ | ⟨hpresents, hnew⟩
      · exact .inl ⟨j, by rw [← hentries]; exact hold⟩
      · refine .inr ⟨request, rfl, ?_, hnew⟩
        rw [presentsPingId, generatePingId, generatePingId, hsecret] at hpresents
        exact hpresents
  · intro request hrequest
    refine ⟨?_, ?_⟩
    · intro hpresents
      obtain ⟨period, hperiod, hinput, hpingId⟩ : ∃ period, (period = call.env.unixTime / pingIdTimeout ∨
          period = (call.env.unixTime + pingIdTimeout) / pingIdTimeout) ∧
          pingIdInput s.onionA.secretBytes period request.publicKey call.source ∈ inputs ∧
          sha256 (pingIdInput s.onionA.secretBytes period request.publicKey call.source) = request.pingId := by
        rcases Bool.or_eq_true_iff.mp hpresents with hnow | hnext
        · exact ⟨_, .inl rfl, hallowed.hashed request hrequest _ mem_cons_self, of_decide_eq_true hnow⟩
        · exact ⟨_, .inr rfl, hallowed.hashed request hrequest _ (mem_cons_of_mem _ (mem_singleton_self _)),
            of_decide_eq_true hnext⟩
      obtain ⟨sent, hsent, hcarries, hvalue⟩ := hvalid.issued_of_named hallowed hrequest mem_cons_self
        ⟨_, hinput, hpingId⟩
      obtain ⟨hmadeInput, hmade⟩ := hvalid.made sent hsent hcarries
      have hsame := hash.injOn hmadeInput hinput (by rw [← hmade, hvalue, hpingId])
      obtain ⟨hperiods, hkey, hsource⟩ := pingIdInput_inj hsame
      obtain ⟨htime, hlt⟩ := hvalid.times sent hsent
      refine ⟨sent, hsent, hcarries, hkey, hsource, hvalue, UInt64.le_trans htime hallowed.clock_le, ?_⟩
      apply age_lt_of_period hlt hallowed.clock_lt
      rw [hperiods]
      exact hperiod
    · rintro ⟨sent, hsent, hcarries, hkey, hsource, hvalue, hage⟩
      obtain ⟨-, hmade⟩ := hvalid.made sent hsent hcarries
      have horder := UInt64.le_trans (hvalid.times sent hsent).1 hallowed.clock_le
      rw [hkey, hsource, hvalue] at hmade
      apply Bool.or_eq_true_iff.mpr
      rcases period_of_age_le hallowed.clock_lt (UInt64.le_iff_toNat_le.mp horder) hage with hnow | hnext
      · left
        rw [decide_eq_true_iff, generatePingId, hnow, ← hmade]
      · right
        rw [decide_eq_true_iff, generatePingId, hnext, ← hmade]

/-! ## A run -/

/-- The key cache stays valid. -/
theorem AnnounceTrace.exec_cache (sha256 : Bytes → Block onionPingIdSize) {s : AnnounceTrace}
    (h : s.onionA.sharedKeysRecv.Valid sodium s.onionA.selfSecretKey) (call : AnnounceCall) :
    (s.exec sodium sha256 call).onionA.selfSecretKey = s.onionA.selfSecretKey ∧
      (s.exec sodium sha256 call).onionA.sharedKeysRecv.Valid sodium s.onionA.selfSecretKey := by
  have hopen : (openAnnounceRequest sodium call.env.unixTime (s.node call) call.packet).2.selfSecretKey =
        s.onionA.selfSecretKey ∧
      (openAnnounceRequest sodium call.env.unixTime (s.node call) call.packet).2.sharedKeysRecv.Valid sodium
        s.onionA.selfSecretKey := by
    unfold openAnnounceRequest
    split
    · exact ⟨rfl, h⟩
    · exact ⟨rfl, (h.getSharedKey _ _).2⟩
  unfold AnnounceTrace.exec
  split <;> rename_i heq <;> rw [heq] at hopen <;> exact hopen

/-- An unused entry is timed out. -/
theorem OnionAnnounceEntry.zero_timedout (h : onionAnnounceTimeout ≤ now) :
    OnionAnnounceEntry.zero.timedout now = true := by
  change decide (0 + onionAnnounceTimeout ≤ now) = true
  rw [UInt64.zero_add, decide_eq_true h]

/-- Nothing is found among unused entries. -/
theorem inEntries_zero (h : onionAnnounceTimeout ≤ now) (publicKey : PublicKey) :
    inEntries now (fun _ => .zero) publicKey = none := by
  rw [inEntries, find?_eq_none]
  intro i _
  rw [OnionAnnounceEntry.zero_timedout h]
  simp

/-- An empty DHT has no nodes to send. -/
theorem getCloseNodes_unused {dht : Dht} (hfriends : dht.friendsList = []) (hclose : ∀ i, dht.closeClientlist i = .zero)
    (now : UInt64) (publicKey : PublicKey) (isLan : Bool) : getCloseNodes now publicKey 0 isLan dht true = .empty := by
  have hloop : ∀ clients : List ClientData, (∀ client ∈ clients, client = .zero) →
      clients.foldl (considerClient now publicKey 0 isLan false) .empty = .empty := by
    intro clients hclients
    induction clients with
    | nil => rfl
    | cons client rest ih =>
      have hskip : considerClient now publicKey 0 isLan false .empty client = .empty := by
        rw [hclients client mem_cons_self]
        exact if_pos (by decide)
      rw [foldl_cons, hskip]
      exact ih fun client hclient => hclients client (mem_cons_of_mem _ hclient)
  rw [getCloseNodes, getSomewhatCloseNodes, hfriends, foldl_nil, getCloseNodesInner, if_neg (by decide)]
  apply hloop
  intro client hclient
  obtain ⟨i, rfl⟩ := mem_ofFn.mp hclient
  exact hclose i

/-- A node that knows nobody sends no nodes. -/
theorem announceNodes_unused (hfriends : onionA.dht.friendsList = [])
    (hclose : ∀ i, onionA.dht.closeClientlist i = .zero) (now : UInt64) (source : IpPort) (request : AnnounceRequest) :
    announceNodes now onionA source request = some [] := by
  rw [announceNodes, getCloseNodes_unused hfriends hclose]
  rfl

/-- Every answer without nodes is sent. -/
theorem announceResponse_some (h : sodium.Lawful) (env : AnnounceEnv) (request : AnnounceRequest)
    (answer : UInt8 × Block 32) :
    ∃ response packet, sendOnionResponse response request.ret.toList = some packet ∧
      announceResponse sodium env request answer [] = some packet := by
  obtain ⟨encrypted, hencrypt, hlength, -⟩ := h.encrypt_decrypt request.sharedKey env.nonce
    (by simp : (answer.1 :: (answer.2.toList ++ [])).length ≠ 0)
  have hsize : encrypted.length = 49 := by
    rw [hlength]
    simp only [length_cons, length_append, List.Vector.toList_length, length_nil]
    rfl
  have hfits : ¬encrypted.length ≠ 1 + onionPingIdSize + ([] : Bytes).length + macBytes := by
    change ¬_ ≠ 49
    omega
  have hshort : ¬((netPacketAnnounceResponse :: (request.sendback.toList ++ (env.nonce.toList ++ encrypted))).length >
      onionResponseMaxDataSize ∨
      (netPacketAnnounceResponse :: (request.sendback.toList ++ (env.nonce.toList ++ encrypted))).length = 0) := by
    simp only [length_cons, length_append, List.Vector.toList_length, hsize]
    decide
  refine ⟨netPacketAnnounceResponse :: (request.sendback.toList ++ (env.nonce.toList ++ encrypted)), _,
    if_neg hshort, ?_⟩
  rw [announceResponse, hencrypt]
  simp only
  rw [if_neg hfits, sendOnionResponse, if_neg hshort]

/-- A node that knows nobody answers every request. -/
theorem answerAnnounceRequest_unused (h : sodium.Lawful) (sha256 : Bytes → Block onionPingIdSize) (env : AnnounceEnv)
    (source : IpPort) (request : AnnounceRequest) (hfriends : onionA.dht.friendsList = [])
    (hclose : ∀ i, onionA.dht.closeClientlist i = .zero) :
    ∃ response packet, sendOnionResponse response request.ret.toList = some packet ∧
      (answerAnnounceRequest sodium sha256 env onionA source request).1 =
        some (announceAnswer sha256 env
          { onionA with entries := (announceIndex sha256 env onionA source request).2 } source
          request (announceIndex sha256 env onionA source request).1, packet) := by
  obtain ⟨response, packet, hsend, hresponse⟩ := announceResponse_some h env request
    (announceAnswer sha256 env { onionA with entries := (announceIndex sha256 env onionA source request).2 }
      source request
      (announceIndex sha256 env onionA source request).1)
  refine ⟨response, packet, hsend, ?_⟩
  rw [answerAnnounceRequest]
  change Option.map _ ((announceNodes env.unixTime onionA source request).bind fun nodes =>
    announceResponse sodium env request _ nodes) = _
  rw [announceNodes_unused hfriends hclose, bind_some, hresponse, map_some]

/-- A request without a valid ping id, to a node that knows nobody, is answered with a ping id. -/
theorem answerAnnounceRequest_unknown (h : sodium.Lawful) {sha256 : Bytes → Block onionPingIdSize} {env : AnnounceEnv}
    {source : IpPort} {request : AnnounceRequest} (hfriends : onionA.dht.friendsList = [])
    (hclose : ∀ i, onionA.dht.closeClientlist i = .zero) (hentries : onionA.entries = fun _ => .zero)
    (htime : onionAnnounceTimeout ≤ env.unixTime)
    (hpresents : presentsPingId sha256 env.unixTime onionA source request = false) :
    ∃ packet, (answerAnnounceRequest sodium sha256 env onionA source request).1 =
      some ((0, generatePingId sha256 onionA (env.unixTime + pingIdTimeout) request.publicKey source), packet) := by
  have hindex : announceIndex sha256 env onionA source request = (none, onionA.entries) := by
    rw [announceIndex, hpresents, hentries, inEntries_zero htime]
    rfl
  obtain ⟨-, packet, -, hanswer⟩ := answerAnnounceRequest_unused h sha256 env source request hfriends hclose
  rw [hindex] at hanswer
  exact ⟨packet, hanswer⟩

/-- A hash that keeps what follows the secret, behind a byte that is not zero. -/
def markedHash (input : Bytes) : Block onionPingIdSize := slice 32 (1 :: input.drop 32) 0

/-- The inputs that are hashed for one key and one address. -/
def inputsFor (secretBytes : SharedKey) (publicKey : PublicKey) (source : IpPort) : Set Bytes :=
  Set.range fun period => pingIdInput secretBytes period publicKey source

/-- The bytes of a marked hash. -/
theorem markedHash_toList (secretBytes : SharedKey) (period : UInt64) (publicKey : PublicKey) (source : IpPort) :
    (markedHash (pingIdInput secretBytes period publicKey source)).toList =
      1 :: ((hostBytes period).toList ++ publicKey.toList.take 23) := by
  have hdrop : (pingIdInput secretBytes period publicKey source).drop 32 =
      (hostBytes period).toList ++ (publicKey.toList ++ source.stored) := drop_left' secretBytes.toList_length
  rw [markedHash, hdrop, slice_toList (by simp [IpPort.stored_length, onionPingIdSize]), drop_zero, take_succ_cons,
    take_append, take_of_length_le (by simp), List.Vector.toList_length, take_append_of_le_length (by simp)]

/-- The marked hash is ideal where only the period varies. -/
theorem markedHash_ideal (secretBytes : SharedKey) (publicKey : PublicKey) (source : IpPort) :
    IdealHash markedHash (inputsFor secretBytes publicKey source) where
  injOn := by
    rintro _ ⟨period, rfl⟩ _ ⟨period', rfl⟩ h
    have hbytes := congrArg List.Vector.toList h
    rw [markedHash_toList, markedHash_toList] at hbytes
    have hperiod := (append_inj (List.cons.inj hbytes).2 (by simp)).1
    rw [hostBytes_injective (List.Vector.toList_injective hperiod)]
  zero_notMem := by
    rintro ⟨_, ⟨period, rfl⟩, h⟩
    have hbytes := congrArg List.Vector.toList h
    rw [markedHash_toList] at hbytes
    exact absurd (List.cons.inj hbytes).1 (by decide)

/-- The surroundings of a call at a time. -/
def plainAnnounceEnv (time : UInt64) : AnnounceEnv := ⟨time, List.Vector.replicate 24 0, fun _ _ => Equiv.refl _⟩

/-- A new node that knows nobody. -/
def plainTrace : AnnounceTrace :=
  ⟨newOnionAnnounce (Dht.new .zero) (plainKeyPair 4).secretKey (plainKeyPair 5).secretKey, [], 0⟩

/-- The inputs of the run. -/
abbrev plainInputs : Set Bytes := inputsFor (plainKeyPair 5).secretKey (plainKeyPair 1).publicKey .zero

/-- The first request is answered with a ping id. -/
theorem plainTrace_answers : ∃ s pingId, AnnounceTrace.Reaches Sodium.plain markedHash plainInputs s ∧
    s.onionA.sharedKeysRecv.Valid Sodium.plain s.onionA.selfSecretKey ∧
    (⟨1000, (plainKeyPair 1).publicKey, .zero, 0, pingId⟩ : AnnounceSent) ∈ s.sent ∧ s.clock = 1000 ∧
    s.onionA.secretBytes = (plainKeyPair 5).secretKey := by
  have hash := markedHash_ideal (plainKeyPair 5).secretKey (plainKeyPair 1).publicKey .zero
  have hcache : plainTrace.onionA.sharedKeysRecv.Valid Sodium.plain plainTrace.onionA.selfSecretKey := by
    intro index hstored
    cases hstored
  obtain ⟨packet, -, hopen⟩ := openAnnounceRequest_create Sodium.plain_lawful hcache 1000 (List.Vector.replicate 24 0)
    (plainKeyPair 1) PublicKey.zero PublicKey.zero PublicKey.zero (List.Vector.replicate _ 0)
  set first : AnnounceCall :=
    ⟨plainAnnounceEnv 1000, Dht.new .zero, .zero, packet ++ (List.Vector.replicate onionReturn3 0).toList⟩ with hfirst
  have hrequest := hopen (List.Vector.replicate onionReturn3 0)
  change plainTrace.request Sodium.plain first = _ at hrequest
  have hallowed : AnnounceTrace.Allowed Sodium.plain markedHash
      plainInputs plainTrace first := by
    refine ⟨(by decide : (0 : UInt64) ≤ 1000), (by decide : (1000 : UInt64).toNat < 2 ^ 63), ?_, ?_⟩
    · intro request hsome time _
      rw [hrequest, some.injEq] at hsome
      rw [← hsome]
      exact ⟨_, rfl⟩
    · intro request hsome value hvalue himage
      rw [hrequest, some.injEq] at hsome
      rw [← hsome] at hvalue
      obtain rfl : value = PublicKey.zero := by simpa using hvalue
      exact absurd himage hash.zero_notMem
  have hreaches := AnnounceTrace.Reaches.exec first (.new (Dht.new .zero) _ _ 0) hallowed
  obtain ⟨hentries, hsecret, hdht⟩ :=
    openAnnounceRequest_onionA Sodium.plain first.env.unixTime (plainTrace.node first) first.packet
  set opened :=
    (openAnnounceRequest Sodium.plain first.env.unixTime (plainTrace.node first) first.packet).2 with hopened
  have hhash (time : UInt64) :
      generatePingId markedHash opened time (plainKeyPair 1).publicKey .zero ≠ PublicKey.zero := by
    intro heq
    rw [generatePingId, hsecret] at heq
    exact hash.zero_notMem ⟨_, ⟨_, rfl⟩, heq⟩
  have hpresents : presentsPingId markedHash first.env.unixTime opened first.source
      ⟨(plainKeyPair 1).publicKey, Sodium.plain.beforenm (plainKeyPair 1).publicKey plainTrace.onionA.selfSecretKey,
        PublicKey.zero, PublicKey.zero, PublicKey.zero, List.Vector.replicate _ 0, List.Vector.replicate _ 0⟩ =
          false := by
    rw [presentsPingId, decide_eq_false (hhash _), decide_eq_false (hhash _), Bool.or_false]
  obtain ⟨answer, hanswer⟩ := answerAnnounceRequest_unknown Sodium.plain_lawful (by rw [hdht]; rfl)
    (by rw [hdht]; exact fun _ => rfl) hentries (by decide : onionAnnounceTimeout ≤ (plainAnnounceEnv 1000).unixTime)
    hpresents
  have hexec := AnnounceTrace.exec_of_some markedHash hrequest hopened.symm
  change (answerAnnounceRequest Sodium.plain markedHash first.env opened first.source _).1 = _ at hanswer
  rw [hanswer] at hexec
  obtain ⟨hself, hcache'⟩ := AnnounceTrace.exec_cache markedHash hcache first
  set s := plainTrace.exec Sodium.plain markedHash first with hs
  set pingId := generatePingId markedHash opened (first.env.unixTime + pingIdTimeout) (plainKeyPair 1).publicKey .zero
  have hsent : (⟨1000, (plainKeyPair 1).publicKey, .zero, 0, pingId⟩ : AnnounceSent) ∈ s.sent := by
    rw [hexec]
    exact mem_singleton_self _
  have hclock : s.clock = 1000 := by rw [hexec]; rfl
  have hsecret' : s.onionA.secretBytes = (plainKeyPair 5).secretKey := by
    rw [hexec]
    exact hsecret
  exact ⟨s, pingId, hreaches, hself ▸ hcache', hsent, hclock, hsecret'⟩

/-- The ping id of the answer is taken ten seconds later. -/
theorem announce_authorised_twoRequests : ∃ s call request,
    AnnounceTrace.Reaches Sodium.plain markedHash plainInputs s ∧ s.request Sodium.plain call = some request ∧
      presentsPingId markedHash call.env.unixTime s.onionA call.source request = true ∧
      ∃ sent ∈ s.sent, sent.publicKey = request.publicKey ∧ sent.source = call.source ∧ sent.value = request.pingId ∧
        call.env.unixTime.toNat < sent.time.toNat + 2 * pingIdTimeout.toNat := by
  have hash := markedHash_ideal (plainKeyPair 5).secretKey (plainKeyPair 1).publicKey .zero
  obtain ⟨s, pingId, hreaches, hcache, hsent, hclock, hsecret⟩ := plainTrace_answers
  let node : OnionAnnounce := { s.onionA with dht := Dht.new .zero }
  have hnode : node.sharedKeysRecv.Valid Sodium.plain node.selfSecretKey := hcache
  obtain ⟨packet, -, hopen⟩ := openAnnounceRequest_create Sodium.plain_lawful hnode 1010 (List.Vector.replicate 24 0)
    (plainKeyPair 1) pingId PublicKey.zero PublicKey.zero (List.Vector.replicate _ 0)
  have hrequest := hopen (List.Vector.replicate onionReturn3 0)
  set second : AnnounceCall :=
    ⟨plainAnnounceEnv 1010, Dht.new .zero, .zero, packet ++ (List.Vector.replicate onionReturn3 0).toList⟩
  change s.request Sodium.plain second = _ at hrequest
  have hallowed : AnnounceTrace.Allowed Sodium.plain markedHash plainInputs s second := by
    refine ⟨hclock ▸ (by decide : (1000 : UInt64) ≤ 1010), (by decide : (1010 : UInt64).toNat < 2 ^ 63), ?_, ?_⟩
    · intro request hsome time _
      rw [hrequest, some.injEq] at hsome
      rw [← hsome, hsecret]
      exact ⟨_, rfl⟩
    · intro request hsome value hvalue himage
      rw [hrequest, some.injEq] at hsome
      rw [← hsome] at hvalue
      rcases mem_cons.mp hvalue with rfl | hvalue
      · exact ⟨_, hsent, rfl⟩
      · obtain rfl : value = PublicKey.zero := mem_singleton.mp hvalue
        exact absurd himage hash.zero_notMem
  obtain ⟨hissued, htaken⟩ := (announce_authorised hash hreaches second hallowed).2 _ hrequest
  have hpresents := htaken ⟨_, hsent, (by decide : (0 : UInt8) ≠ 1), rfl, rfl, rfl,
    (by decide : (1010 : UInt64).toNat ≤ (1000 : UInt64).toNat + pingIdTimeout.toNat)⟩
  obtain ⟨sent, hmem, -, hkey, hsource, hvalue, -, hage⟩ := hissued hpresents
  exact ⟨s, second, _, hreaches, hrequest, hpresents, sent, hmem, hkey, hsource, hvalue, hage⟩

end Toxcore
