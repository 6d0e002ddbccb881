import Toxcore.Messenger.FriendList
import Toxcore.Dns.Base32

/-!
# The requests and answers of `toxdns.c`

An object holds one temporary key pair, the key it shares with the server, and a 32-bit counter that is the nonce and
the id of the next request. The counter starts at a random value and wraps around; when it comes back to its start,
the call that used the last value draws a new key pair before it returns. No nonce is used twice with one key. That
call is also the one whose answer can no longer be read, since the object holds the new shared key from then on.
-/

namespace Toxcore

open ByteStrings List Option

/-! ## The object -/

/-- `DNS_Object`. -/
structure DnsObject where
  tempPk : PublicKey
  tempSk : SecretKey
  serverPublicKey : PublicKey
  sharedKey : SharedKey
  nonce : UInt32
  nonceStart : UInt32

/-- What the random source gives for one new key pair. -/
structure DnsDraw where
  randomInt : UInt32
  secretKey : SecretKey

/-- `dns_new_temp_keys`. -/
def dnsNewTempKeys (sodium : Sodium) (draw : DnsDraw) (d : DnsObject) : DnsObject :=
  { d with
    nonce := draw.randomInt
    nonceStart := draw.randomInt
    tempPk := sodium.scalarmultBase draw.secretKey
    tempSk := draw.secretKey
    sharedKey := sodium.beforenm d.serverPublicKey draw.secretKey }

/-- `tox_dns3_new`. -/
def toxDns3New (sodium : Sodium) (draw : DnsDraw) (serverPublicKey : PublicKey) : DnsObject :=
  dnsNewTempKeys sodium draw
    { tempPk := List.Vector.replicate 32 0, tempSk := List.Vector.replicate 32 0, serverPublicKey
      sharedKey := List.Vector.replicate 32 0, nonce := 0, nonceStart := 0 }

/-- The nonce for an id: the id and the marker, which is zero in requests and one in responses. -/
def dnsNonce (requestId : UInt32) (marker : UInt8) : Nonce :=
  ⟨(hostBytes32 requestId).toList ++ marker :: List.replicate 19 0, by simp⟩

/-- `DOT_INTERVAL`. -/
abbrev dotInterval : ℕ := 6 * 5

/-! ## Requests -/

/-- The length `end_len` of the string for `base` bytes. -/
def endLen (base : ℕ) : ℕ :=
  base * 8 / 5 + base / dotInterval + (if base % 5 = 0 then 0 else 1) - (if base % dotInterval = 0 then 1 else 0)

/-- How often the loop of `tox_generate_dns3_string` puts a dot. -/
def dotRounds (totalLen : ℕ) : ℕ := totalLen / dotInterval - (if totalLen % dotInterval = 0 then 1 else 0)

/-- The loop of `tox_generate_dns3_string`: the string so far, and `buff` and `bits` behind it. -/
def dottedLoop : ℕ → Bytes → ℕ → Bytes × Bytes × ℕ
  | 0, buff, bits => ([], buff, bits)
  | rounds + 1, buff, bits =>
    let (chars, buff, bits) := encodeLoop dotInterval buff bits
    let (string, buff, bits) := dottedLoop rounds buff bits
    (chars ++ 46 :: string, buff, bits)

/-- The string for the bytes of a request. -/
def dottedString (buffer : Bytes) : Bytes :=
  let (string, buff, bits) := dottedLoop (dotRounds buffer.length) buffer 0
  string ++ (encodeLoop (buffer.length - (buffer.length - buff.length)) buff bits).1

/-- The counter after a request, with the new keys where it came back to its start. -/
def dnsAdvance (sodium : Sodium) (draw : DnsDraw) (d : DnsObject) : DnsObject :=
  let d := { d with nonce := d.nonce + 1 }
  if d.nonce = d.nonceStart then dnsNewTempKeys sodium draw d else d

/-- `tox_generate_dns3_string`: the string with the request id on success, and the object afterwards. -/
def toxGenerateDns3String (sodium : Sodium) (draw : DnsDraw) (d : DnsObject) (stringMaxLen : UInt16) (name : Bytes) :
    Option (Bytes × UInt32) × DnsObject :=
  let base := 4 + 32 + name.length + macBytes
  if endLen base > stringMaxLen.toNat then (none, d)
  else
    match encryptDataSymmetric sodium d.sharedKey (dnsNonce d.nonce 0) name with
    | none => (none, d)
    | some encrypted =>
      let string := dottedString ((hostBytes32 d.nonce).toList ++ d.tempPk.toList ++ encrypted)
      if endLen base ≠ string.length then (none, dnsAdvance sodium draw d)
      else (some (string, d.nonce), dnsAdvance sodium draw d)

/-! ## Answers -/

/-- `tox_decrypt_dns3_TXT`: `tox_id` on success. -/
def toxDecryptDns3Txt (sodium : Sodium) (d : DnsObject) (idRecord : Bytes) (requestId : UInt32) : Option Bytes :=
  if idRecord.length ≠ 87 then none
  else (decode idRecord).bind fun data =>
    (decryptDataSymmetric sodium d.sharedKey (dnsNonce requestId 1) data).bind fun toxId =>
      if toxId.length ≠ friendAddressSize then none else some toxId

/-- What a server answers to a request: the id of the user under the key shared with the temporary public key and the
nonce of the request with the marker of responses, encoded. -/
def serverAnswer (sodium : Sodium) (serverSk : SecretKey) (tempPk : PublicKey) (requestId : UInt32) (toxId : Bytes) :
    Option Bytes :=
  (encryptDataSymmetric sodium (sodium.beforenm tempPk serverSk) (dnsNonce requestId 1) toxId).map fun encrypted =>
    (encodeLoop encrypted.length encrypted 0).1

/-! ## The string has the expected length -/

/-- Thirty bytes are forty-eight characters, and none of the next byte is written. -/
theorem encodeLoop_dotInterval (buff : Bytes) : (encodeLoop dotInterval buff 0).2 = (buff.drop dotInterval, 0) ∧
    (encodeLoop dotInterval buff 0).1.length = 48 := by
  obtain ⟨hbuff, hbits, hcount⟩ := encodeLoop_counts dotInterval buff (Nat.zero_le 4)
  rw [show 8 * dotInterval = 240 from rfl] at hcount
  have hzero : (encodeLoop dotInterval buff 0).2.2 = 0 := by omega
  exact ⟨Prod.ext hbuff hzero, by omega⟩

/-- A round of the loop. -/
theorem dottedLoop_succ (rounds : ℕ) (buff : Bytes) : dottedLoop (rounds + 1) buff 0 =
    ((encodeLoop dotInterval buff 0).1 ++ 46 :: (dottedLoop rounds (buff.drop dotInterval) 0).1,
      (dottedLoop rounds (buff.drop dotInterval) 0).2) := by
  have hrest := (encodeLoop_dotInterval buff).1
  have hbuff : (encodeLoop dotInterval buff 0).2.1 = buff.drop dotInterval := congrArg Prod.fst hrest
  have hzero : (encodeLoop dotInterval buff 0).2.2 = 0 := congrArg Prod.snd hrest
  rw [← hbuff]
  conv_rhs => rw [← hzero]
  rfl

/-- Each round takes thirty bytes and leaves none of the next one written. -/
theorem dottedLoop_counts (rounds : ℕ) (buff : Bytes) :
    (dottedLoop rounds buff 0).2.1 = buff.drop (dotInterval * rounds) ∧ (dottedLoop rounds buff 0).2.2 = 0 ∧
      (dottedLoop rounds buff 0).1.length = 49 * rounds := by
  induction rounds generalizing buff with
  | zero => simp [dottedLoop]
  | succ rounds ih =>
    obtain ⟨hrest, hbits', hlen⟩ := ih (buff.drop dotInterval)
    rw [dottedLoop_succ]
    refine ⟨?_, hbits', ?_⟩
    · rw [hrest, drop_drop, Nat.mul_succ, Nat.add_comm]
    · simp only [length_append, length_cons, (encodeLoop_dotInterval buff).2, hlen]
      omega

/-- The rounds leave between one and thirty bytes. -/
theorem dotRounds_spec {totalLen : ℕ} (hpos : 0 < totalLen) :
    30 * dotRounds totalLen < totalLen ∧ totalLen ≤ 30 * dotRounds totalLen + 30 := by
  rw [dotRounds, show dotInterval = 30 from rfl]
  split <;> omega

/-- `end_len` by the dots and the bytes behind the last one. -/
theorem endLen_eq {base : ℕ} (hpos : 0 < base) :
    endLen base = 49 * dotRounds base + (8 * (base - 30 * dotRounds base) + 4) / 5 := by
  have hceil : ∀ n, (8 * n + 4) / 5 = n * 8 / 5 + (if n % 5 = 0 then 0 else 1) := by
    intro n
    have hmod : n % 5 = 0 ∨ n % 5 = 1 ∨ n % 5 = 2 ∨ n % 5 = 3 ∨ n % 5 = 4 := by omega
    rcases hmod with hmod | hmod | hmod | hmod | hmod <;> simp only [hmod] <;> norm_num <;> omega
  rw [hceil, endLen, dotRounds, show dotInterval = 30 from rfl]
  split <;> split <;> split <;> omega

/-- The rounds do not take more bytes than there are. -/
theorem dotRounds_fits (totalLen : ℕ) : dotInterval * dotRounds totalLen ≤ totalLen := by
  have hround : dotRounds totalLen ≤ totalLen / dotInterval := Nat.sub_le _ _
  exact (Nat.mul_le_mul_left dotInterval hround).trans (Nat.mul_div_le totalLen dotInterval)

/-- The rounds of the loop, and behind the last dot the bytes that are left. -/
theorem dottedString_eq (buffer : Bytes) : dottedString buffer = (dottedLoop (dotRounds buffer.length) buffer 0).1 ++
    (encodeLoop (buffer.length - dotInterval * dotRounds buffer.length)
      (buffer.drop (dotInterval * dotRounds buffer.length)) 0).1 := by
  obtain ⟨hbuff, hbits, -⟩ := dottedLoop_counts (dotRounds buffer.length) buffer
  rw [dottedString]
  dsimp only
  rw [hbuff, hbits, length_drop, Nat.sub_sub_self (dotRounds_fits buffer.length)]

/-- `end_len` is the length of the string. -/
theorem dottedString_length {buffer : Bytes} (hpos : 0 < buffer.length) :
    (dottedString buffer).length = endLen buffer.length := by
  obtain ⟨-, -, hlen⟩ := dottedLoop_counts (dotRounds buffer.length) buffer
  obtain ⟨hlow, hhigh⟩ := dotRounds_spec hpos
  rw [dottedString_eq, length_append, hlen, endLen_eq hpos, show dotInterval = 30 from rfl]
  obtain ⟨-, hfour, hchars⟩ := encodeLoop_counts (buffer.length - 30 * dotRounds buffer.length)
    (buffer.drop (30 * dotRounds buffer.length)) (Nat.zero_le 4)
  omega

/-- The bytes of a request whose name was encrypted. -/
def dnsBuffer (d : DnsObject) (encrypted : Bytes) : Bytes :=
    (hostBytes32 d.nonce).toList ++ d.tempPk.toList ++ encrypted

variable {sodium : Sodium} {d : DnsObject}

/-- The length of these bytes. -/
theorem dnsBuffer_length (d : DnsObject) {key : SharedKey} {nonce : Nonce} {name encrypted : Bytes}
    (hencrypt : encryptDataSymmetric sodium key nonce name = some encrypted) :
    (dnsBuffer d encrypted).length = 4 + 32 + name.length + macBytes := by
  rw [dnsBuffer, length_append, length_append, encryptDataSymmetric_length hencrypt, List.Vector.toList_length,
    List.Vector.toList_length]
  omega

/-- A call that fits and encrypts gives the counter as the id and advances the counter. -/
theorem toxGenerateDns3String_succeeds (draw : DnsDraw) {stringMaxLen : UInt16} {name encrypted : Bytes}
    (hfits : endLen (4 + 32 + name.length + macBytes) ≤ stringMaxLen.toNat)
    (hencrypt : encryptDataSymmetric sodium d.sharedKey (dnsNonce d.nonce 0) name = some encrypted) :
    toxGenerateDns3String sodium draw d stringMaxLen name =
      (some (dottedString (dnsBuffer d encrypted), d.nonce), dnsAdvance sodium draw d) := by
  have hbuffer := dnsBuffer_length d hencrypt
  have hstring := dottedString_length (by omega : 0 < (dnsBuffer d encrypted).length)
  rw [hbuffer] at hstring
  rw [toxGenerateDns3String, if_neg (Nat.not_lt.mpr hfits), hencrypt]
  exact if_neg (not_not_intro hstring.symm)

/-- A call fails and leaves the object, or it succeeds and advances the counter. -/
theorem toxGenerateDns3String_cases (sodium : Sodium) (draw : DnsDraw) (d : DnsObject) (stringMaxLen : UInt16)
    (name : Bytes) :
    toxGenerateDns3String sodium draw d stringMaxLen name = (none, d) ∨
      ∃ string, toxGenerateDns3String sodium draw d stringMaxLen name =
        (some (string, d.nonce), dnsAdvance sodium draw d) := by
  by_cases hfits : endLen (4 + 32 + name.length + macBytes) ≤ stringMaxLen.toNat
  · cases hencrypt : encryptDataSymmetric sodium d.sharedKey (dnsNonce d.nonce 0) name with
    | none =>
      rw [toxGenerateDns3String, if_neg (Nat.not_lt.mpr hfits), hencrypt]
      exact Or.inl rfl
    | some encrypted => exact Or.inr ⟨_, toxGenerateDns3String_succeeds draw hfits hencrypt⟩
  · exact Or.inl (if_pos (Nat.not_le.mp hfits))

/-! ## Reading an answer -/

/-- Ids have different nonces. -/
theorem dnsNonce_injective {a b : UInt32} {marker : UInt8} (h : dnsNonce a marker = dnsNonce b marker) : a = b := by
  have hbytes :
    (hostBytes32 a).toList ++ marker :: List.replicate 19 0 = (hostBytes32 b).toList ++ marker :: List.replicate 19 0 :=
    congrArg List.Vector.toList h
  have hrev : (beBytes 4 a.toNat).reverse = (beBytes 4 b.toNat).reverse := append_cancel_right hbytes
  have hnat := congrArg beNat (reverse_injective hrev)
  rw [beNat_beBytes_of_lt a.toNat_lt, beNat_beBytes_of_lt b.toNat_lt] at hnat
  exact UInt32.toNat_inj.mp hnat

/-- An object that holds the key of the request reads the answer of the server. -/
theorem toxDecryptDns3Txt_serverAnswer (hlawful : sodium.Lawful) {serverSk : SecretKey} {tempPk : PublicKey}
    (hkey : d.sharedKey = sodium.beforenm tempPk serverSk) (requestId : UInt32) {toxId : Bytes}
    (hlen : toxId.length = friendAddressSize) :
    ∃ answer, serverAnswer sodium serverSk tempPk requestId toxId = some answer ∧
      toxDecryptDns3Txt sodium d answer requestId = some toxId := by
  have hid : toxId.length = 38 := hlen
  obtain ⟨encrypted, hencrypt, hencrypted, hdecrypt⟩ :=
    hlawful.encrypt_decrypt (sodium.beforenm tempPk serverSk) (dnsNonce requestId 1) (by omega : toxId.length ≠ 0)
  obtain ⟨-, hfour, hcount⟩ := encodeLoop_counts encrypted.length encrypted (Nat.zero_le 4)
  have hchars : (encodeLoop encrypted.length encrypted 0).1.length = 87 := by
    have hmac : macBytes = 16 := rfl
    rw [hencrypted, hid] at hcount hfour ⊢
    omega
  refine ⟨(encodeLoop encrypted.length encrypted 0).1, by rw [serverAnswer, hencrypt, map_some], ?_⟩
  rw [toxDecryptDns3Txt, if_neg (not_not_intro hchars), decode_encodeLoop, bind_some, hkey, hdecrypt, bind_some,
    if_neg (not_not_intro hlen)]

/-! ## Runs of one object -/

/-- A request that was made: the object that made it and the id it was given. -/
structure DnsRequest where
  before : DnsObject
  requestId : UInt32

/-- The key and the nonce a request is encrypted under. -/
def DnsRequest.encryptedUnder (request : DnsRequest) : SharedKey × Nonce :=
  (request.before.sharedKey, dnsNonce request.before.nonce 0)

/-- An object with the temporary public keys it has drawn and the requests it has made, the latest first. -/
structure DnsRun where
  object : DnsObject
  drawn : List PublicKey
  requests : List DnsRequest

/-- One call of `tox_generate_dns3_string`. -/
def dnsCall (sodium : Sodium) (draw : DnsDraw) (stringMaxLen : UInt16) (name : Bytes) (run : DnsRun) : DnsRun :=
  match toxGenerateDns3String sodium draw run.object stringMaxLen name with
  | (none, d) => { run with object := d }
  | (some (_, requestId), d) =>
    { object := d
      drawn := if run.object.nonce + 1 =
        run.object.nonceStart then sodium.scalarmultBase draw.secretKey :: run.drawn else run.drawn
      requests := ⟨run.object, requestId⟩ :: run.requests }

/-- The runs of an object for the server with a public key. -/
inductive DnsReaches (sodium : Sodium) (serverPk : PublicKey) : DnsRun → Prop
  | start (draw : DnsDraw) :
      DnsReaches sodium serverPk ⟨toxDns3New sodium draw serverPk, [sodium.scalarmultBase draw.secretKey], []⟩
  | call {run : DnsRun} (draw : DnsDraw) (stringMaxLen : UInt16) (name : Bytes)
      (hrun : DnsReaches sodium serverPk run) :
      DnsReaches sodium serverPk (dnsCall sodium draw stringMaxLen name run)

/-- Key pairs with different public keys share different keys with a server. -/
def Sodium.SharesApart (sodium : Sodium) : Prop :=
  ∀ serverSk a b, sodium.beforenm (sodium.scalarmultBase serverSk) a =
    sodium.beforenm (sodium.scalarmultBase serverSk) b →
    sodium.scalarmultBase a = sodium.scalarmultBase b

/-- The run after a call that succeeds. -/
def DnsRun.requested (sodium : Sodium) (draw : DnsDraw) (run : DnsRun) : DnsRun :=
  { object := dnsAdvance sodium draw run.object
    drawn := if run.object.nonce + 1 =
      run.object.nonceStart then sodium.scalarmultBase draw.secretKey :: run.drawn else run.drawn
    requests := ⟨run.object, run.object.nonce⟩ :: run.requests }

/-- The keys are renewed where the nonce comes back. -/
theorem dnsAdvance_renewed (sodium : Sodium) (draw : DnsDraw) (h : d.nonce + 1 = d.nonceStart) :
    dnsAdvance sodium draw d = dnsNewTempKeys sodium draw { d with nonce := d.nonce + 1 } := if_pos h

/-- They are kept elsewhere. -/
theorem dnsAdvance_kept (sodium : Sodium) (draw : DnsDraw) (h : d.nonce + 1 ≠ d.nonceStart) :
    dnsAdvance sodium draw d = { d with nonce := d.nonce + 1 } := if_neg h

/-- A request that does not renew the keys counts on. -/
theorem DnsRun.requested_kept (sodium : Sodium) (draw : DnsDraw) {run : DnsRun}
    (hkept : run.object.nonce + 1 ≠ run.object.nonceStart) :
    run.requested sodium draw =
      ⟨{ run.object with nonce := run.object.nonce + 1 }, run.drawn,
        ⟨run.object, run.object.nonce⟩ :: run.requests⟩ := by
  rw [DnsRun.requested, dnsAdvance_kept sodium draw hkept, if_neg hkept]

theorem dnsCall_cases (sodium : Sodium) (draw : DnsDraw) (stringMaxLen : UInt16) (name : Bytes) (run : DnsRun) :
    dnsCall sodium draw stringMaxLen name run = run ∨
      dnsCall sodium draw stringMaxLen name run = run.requested sodium draw := by
  rw [dnsCall]
  rcases toxGenerateDns3String_cases sodium draw run.object stringMaxLen name with hfail | ⟨string, hsome⟩
  · rw [hfail]
    exact Or.inl rfl
  · rw [hsome]
    exact Or.inr rfl

/-- The object holds a key pair and the key it shares with the server. -/
structure DnsObject.Keyed (sodium : Sodium) (serverPk : PublicKey) (d : DnsObject) : Prop where
  server : d.serverPublicKey = serverPk
  pair : d.tempPk = sodium.scalarmultBase d.tempSk
  shared : d.sharedKey = sodium.beforenm serverPk d.tempSk

/-- What holds in every run: the object and those that made the requests are keyed with drawn keys, the requests with
the current keys have ids between the start and the counter, and no two requests use the same key and nonce. -/
structure DnsRun.Sound (sodium : Sodium) (serverPk : PublicKey) (run : DnsRun) : Prop where
  keyed : run.object.Keyed sodium serverPk
  current : run.object.tempPk ∈ run.drawn
  made : ∀ request ∈ run.requests, request.before.Keyed sodium serverPk ∧ request.before.tempPk ∈ run.drawn
  counted : ∀ request ∈ run.requests, request.before.tempPk = run.object.tempPk →
    (request.before.nonce - run.object.nonceStart).toNat < (run.object.nonce - run.object.nonceStart).toNat
  apart : (run.requests.map DnsRequest.encryptedUnder).Nodup
  latest : ∀ request ∈ run.requests.head?, request.requestId = request.before.nonce ∧
    (request.before.nonce + 1 = request.before.nonceStart → run.object.tempPk ≠ request.before.tempPk) ∧
    (request.before.nonce + 1 ≠ request.before.nonceStart → run.object.sharedKey = request.before.sharedKey)

/-- The distance of a counter from its start grows by one while the counter does not come back. -/
theorem counter_sub_succ {nonce nonceStart : UInt32} (h : nonce + 1 ≠ nonceStart) :
    (nonce + 1 - nonceStart).toNat = (nonce - nonceStart).toNat + 1 := by
  have hsum : nonce + 1 - nonceStart = (nonce - nonceStart) + 1 := by grind
  have hne : (nonce - nonceStart) + 1 ≠ 0 := by grind
  have hnat : ((nonce - nonceStart) + 1).toNat ≠ 0 := fun hzero => hne (UInt32.toNat_inj.mp hzero)
  have hlt := (nonce - nonceStart).toNat_lt
  have hone : (1 : UInt32).toNat = 1 := rfl
  rw [hsum]
  rw [UInt32.toNat_add] at hnat ⊢
  omega

/-- New keys leave the object keyed. -/
theorem DnsObject.Keyed.renew {serverPk : PublicKey} (hserver : d.serverPublicKey = serverPk) (draw : DnsDraw) :
    (dnsNewTempKeys sodium draw d).Keyed sodium serverPk where
  server := hserver
  pair := rfl
  shared := congrArg (sodium.beforenm · draw.secretKey) hserver

section Steps

variable {sodium : Sodium} {serverSk : SecretKey} {run : DnsRun}

/-- The key and the nonce of the next request were not used. -/
theorem DnsRun.Sound.unused (h : run.Sound sodium (sodium.scalarmultBase serverSk)) (hdistinct : sodium.SharesApart)
    {request : DnsRequest} (hmem : request ∈ run.requests) :
    request.encryptedUnder ≠ (run.object.sharedKey, dnsNonce run.object.nonce 0) := by
  intro heq
  obtain ⟨hkey, hnonce⟩ := Prod.ext_iff.mp heq
  have hkeyed := (h.made request hmem).1
  have hpk : request.before.tempPk = run.object.tempPk := by
    rw [hkeyed.pair, h.keyed.pair]
    apply hdistinct serverSk
    rw [← hkeyed.shared, ← h.keyed.shared]
    exact hkey
  have hlt := h.counted request hmem hpk
  rw [dnsNonce_injective hnonce] at hlt
  exact lt_irrefl _ hlt

/-- A new object is sound. -/
theorem DnsRun.Sound.start (sodium : Sodium) (draw : DnsDraw) (serverPk : PublicKey) :
    DnsRun.Sound sodium serverPk ⟨toxDns3New sodium draw serverPk, [sodium.scalarmultBase draw.secretKey], []⟩ where
  keyed := ⟨rfl, rfl, rfl⟩
  current := mem_singleton_self _
  made _ hmem := absurd hmem not_mem_nil
  counted _ hmem := absurd hmem not_mem_nil
  apart := nodup_nil
  latest _ hmem := absurd hmem (by simp)

/-- A request that does not renew the keys keeps the run sound. -/
theorem DnsRun.Sound.kept (h : run.Sound sodium (sodium.scalarmultBase serverSk)) (hdistinct : sodium.SharesApart)
    (draw : DnsDraw) (hkept : run.object.nonce + 1 ≠ run.object.nonceStart) :
    (run.requested sodium draw).Sound sodium (sodium.scalarmultBase serverSk) := by
  rw [DnsRun.requested_kept sodium draw hkept]
  constructor
  · exact ⟨h.keyed.server, h.keyed.pair, h.keyed.shared⟩
  · exact h.current
  · intro request hmem
    rcases mem_cons.mp hmem with rfl | hmem
    · exact ⟨h.keyed, h.current⟩
    · exact h.made request hmem
  · intro request hmem hpk
    change _ < (run.object.nonce + 1 - run.object.nonceStart).toNat
    rw [counter_sub_succ hkept]
    rcases mem_cons.mp hmem with rfl | hmem
    · exact Nat.lt_succ_self _
    · exact (h.counted request hmem hpk).trans (Nat.lt_succ_self _)
  · refine nodup_cons.mpr ⟨?_, h.apart⟩
    intro hused
    obtain ⟨request, hmem, heq⟩ := List.mem_map.mp hused
    exact h.unused hdistinct hmem heq
  · intro request hlatest
    obtain rfl : (⟨run.object, run.object.nonce⟩ : DnsRequest) = request := some_inj.mp hlatest
    exact ⟨rfl, fun hrenews => absurd hrenews hkept, fun _ => rfl⟩

/-- A request that renews the keys keeps the run sound when the new public key was not drawn before. -/
theorem DnsRun.Sound.renewed (h : run.Sound sodium (sodium.scalarmultBase serverSk)) (hdistinct : sodium.SharesApart)
    (draw : DnsDraw) (hrenews : run.object.nonce + 1 = run.object.nonceStart)
    (hnew : sodium.scalarmultBase draw.secretKey ∉ run.drawn) :
    (run.requested sodium draw).Sound sodium (sodium.scalarmultBase serverSk) := by
  have hobject := dnsAdvance_renewed sodium draw hrenews
  have hpk : (run.requested sodium draw).object.tempPk = sodium.scalarmultBase draw.secretKey := by
    rw [DnsRun.requested, hobject]
    rfl
  have hdrawn : (run.requested sodium draw).drawn = sodium.scalarmultBase draw.secretKey :: run.drawn := if_pos hrenews
  have hbefore : ∀ request ∈ (run.requested sodium draw).requests,
      request.before.Keyed sodium (sodium.scalarmultBase serverSk) ∧ request.before.tempPk ∈ run.drawn := by
    intro request hmem
    rcases mem_cons.mp hmem with rfl | hmem
    · exact ⟨h.keyed, h.current⟩
    · exact h.made request hmem
  constructor
  · rw [DnsRun.requested, hobject]
    exact DnsObject.Keyed.renew h.keyed.server draw
  · rw [hdrawn, hpk]
    exact mem_cons_self
  · intro request hmem
    rw [hdrawn]
    exact ⟨(hbefore request hmem).1, mem_cons_of_mem _ (hbefore request hmem).2⟩
  · intro request hmem heq
    rw [hpk] at heq
    exact absurd (heq ▸ (hbefore request hmem).2) hnew
  · refine nodup_cons.mpr ⟨?_, h.apart⟩
    intro hused
    obtain ⟨request, hmem, heq⟩ := List.mem_map.mp hused
    exact h.unused hdistinct hmem heq
  · intro request hlatest
    have hmem := hbefore request (mem_of_mem_head? hlatest)
    obtain rfl : (⟨run.object, run.object.nonce⟩ : DnsRequest) = request := some_inj.mp hlatest
    refine ⟨rfl, fun _ heq => ?_, fun hkept => absurd hrenews hkept⟩
    rw [hpk] at heq
    exact hnew (heq ▸ hmem.2)

/-- While no public key is drawn twice, every run is sound. -/
theorem DnsReaches.sound (hdistinct : sodium.SharesApart)
    (hrun : DnsReaches sodium (sodium.scalarmultBase serverSk) run)
    (hfresh : run.drawn.Nodup) : run.Sound sodium (sodium.scalarmultBase serverSk) := by
  induction hrun with
  | start draw => exact DnsRun.Sound.start sodium draw _
  | @call run draw stringMaxLen name hrun ih =>
    rcases dnsCall_cases sodium draw stringMaxLen name run with hsame | hrequested
    · rw [hsame] at hfresh ⊢
      exact ih hfresh
    · rw [hrequested] at hfresh ⊢
      by_cases hrenews : run.object.nonce + 1 = run.object.nonceStart
      · rw [show (run.requested sodium draw).drawn =
          sodium.scalarmultBase draw.secretKey :: run.drawn from if_pos hrenews,
          nodup_cons] at hfresh
        exact (ih hfresh.2).renewed hdistinct draw hrenews hfresh.1
      · rw [show (run.requested sodium draw).drawn = run.drawn from if_neg hrenews] at hfresh
        exact (ih hfresh).kept hdistinct draw hrenews

end Steps

/-- No two requests of a run are encrypted under the same key and nonce. The object holds the key of its latest
request exactly when that request did not bring the counter back to its start, and then it reads the answer to it. -/
theorem dnsReaches_fresh_and_answered {sodium : Sodium} (hlawful : sodium.Lawful) (hdistinct : sodium.SharesApart)
    {serverSk : SecretKey} {run : DnsRun} (hrun : DnsReaches sodium (sodium.scalarmultBase serverSk) run)
    (hfresh : run.drawn.Nodup) :
    (run.requests.map DnsRequest.encryptedUnder).Nodup ∧
      ∀ latest ∈ run.requests.head?,
        (run.object.sharedKey = latest.before.sharedKey ↔ latest.requestId + 1 ≠ latest.before.nonceStart) ∧
          (latest.requestId + 1 ≠ latest.before.nonceStart → ∀ toxId : Bytes, toxId.length = friendAddressSize →
            ∃ answer, serverAnswer sodium serverSk latest.before.tempPk latest.requestId toxId = some answer ∧
              toxDecryptDns3Txt sodium run.object answer latest.requestId = some toxId) := by
  have hsound := hrun.sound hdistinct hfresh
  refine ⟨hsound.apart, fun latest hlatest => ?_⟩
  obtain ⟨hid, hrenewed, hkept⟩ := hsound.latest latest hlatest
  have hkeyed := (hsound.made latest (mem_of_mem_head? hlatest)).1
  rw [hid]
  refine ⟨⟨fun hkey hrenews => hrenewed hrenews ?_, hkept⟩, fun hne toxId hlen => ?_⟩
  · rw [hkeyed.pair, hsound.keyed.pair]
    apply hdistinct serverSk
    rw [← hkeyed.shared, ← hsound.keyed.shared, hkey]
  · apply toxDecryptDns3Txt_serverAnswer hlawful _ _ hlen
    rw [hkept hne, hkeyed.shared, hkeyed.pair]
    exact hlawful.beforenm_comm serverSk latest.before.tempSk

/-! ## The request that renews the keys -/

/-- A library whose authenticator is the first half of the key, which it checks. -/
def Sodium.tagged : Sodium :=
  { Sodium.plain with
    afternm := fun key _ plain => some ⟨plain ++ key.toList.take macBytes, by simp [macBytes]⟩
    openAfternm := fun key _ encrypted =>
      if encrypted.drop (encrypted.length - macBytes) = key.toList.take macBytes then
        some ⟨encrypted.take (encrypted.length - macBytes), take_macBytes_length encrypted⟩
      else none }

theorem Sodium.tagged_lawful : Sodium.tagged.Lawful where
  beforenm_comm := Sodium.plain_lawful.beforenm_comm
  afternm_open key nonce plain := by
    refine ⟨_, rfl, ?_⟩
    have hlen : (plain ++ key.toList.take macBytes).length - macBytes = plain.length := by simp [macBytes]
    change Option.map List.Vector.toList (if (plain ++ key.toList.take macBytes).drop
      ((plain ++ key.toList.take macBytes).length - macBytes) = key.toList.take macBytes then some _ else none) =
        some plain
    rw [if_pos (by rw [hlen, drop_left])]
    change some ((plain ++ key.toList.take macBytes).take ((plain ++ key.toList.take macBytes).length - macBytes)) =
      some plain
    rw [hlen, take_left]

theorem Sodium.tagged_sharesApart : Sodium.tagged.SharesApart := by
  intro serverSk a b heq
  apply List.Vector.ext
  intro i
  have hget := congrArg (fun key => List.Vector.get key i) heq
  simp only [Sodium.tagged, Sodium.plain, id, List.Vector.get_map₂] at hget
  exact UInt8.xor_right_inj _ |>.mp hget

/-- Every object can make another request. -/
theorem DnsReaches.requested (hlawful : sodium.Lawful) (draw : DnsDraw) {serverPk : PublicKey} {run : DnsRun}
    (hrun : DnsReaches sodium serverPk run) : DnsReaches sodium serverPk (run.requested sodium draw) := by
  obtain ⟨encrypted, hencrypt, -, -⟩ :=
    hlawful.encrypt_decrypt run.object.sharedKey (dnsNonce run.object.nonce 0) (by decide : ([1] : Bytes).length ≠ 0)
  have hcall := DnsReaches.call draw 65535 [1] hrun
  rw [dnsCall, toxGenerateDns3String_succeeds draw (by decide) hencrypt] at hcall
  exact hcall

/-- An object can make requests until only one value of the counter is left. -/
theorem DnsReaches.counting (hlawful : sodium.Lawful) (draw : DnsDraw) (serverPk : PublicKey) {count : ℕ}
    (hcount : count < 2 ^ 32) :
    ∃ requests, DnsReaches sodium serverPk
      ⟨{ toxDns3New sodium draw serverPk with nonce := draw.randomInt + UInt32.ofNat count },
        [sodium.scalarmultBase draw.secretKey], requests⟩ := by
  induction count with
  | zero =>
    refine ⟨[], ?_⟩
    rw [show draw.randomInt + UInt32.ofNat 0 = draw.randomInt by simp]
    exact DnsReaches.start draw
  | succ count ih =>
    obtain ⟨requests, hrun⟩ := ih (by omega)
    have hcall := hrun.requested hlawful draw
    have hnext : draw.randomInt + UInt32.ofNat count + 1 = draw.randomInt + UInt32.ofNat (count + 1) := by
      rw [UInt32.ofNat_add, ← UInt32.add_assoc]
      rfl
    have hkept : draw.randomInt + UInt32.ofNat count + 1 ≠ draw.randomInt := by
      intro hback
      rw [hnext] at hback
      have hnat := congrArg UInt32.toNat (UInt32.add_eq_left.mp hback)
      rw [UInt32.toNat_ofNat_of_lt' hcount] at hnat
      exact Nat.succ_ne_zero count hnat
    rw [DnsRun.requested_kept sodium draw hkept] at hcall
    exact ⟨_, by simpa only [hnext] using hcall⟩

/-- The id of the examples. -/
def dnsSampleId : Bytes := List.replicate 38 9

/-- The answer to the first request of an object is read. -/
theorem dnsReaches_fresh_and_answered_first :
    ∃ run, ∃ latest ∈ run.requests.head?, DnsReaches Sodium.tagged (List.Vector.replicate 32 5) run ∧
      (run.requests.map DnsRequest.encryptedUnder).Nodup ∧
      ∃ answer, serverAnswer Sodium.tagged (List.Vector.replicate 32 5) latest.before.tempPk latest.requestId
        dnsSampleId = some answer ∧
        toxDecryptDns3Txt Sodium.tagged run.object answer latest.requestId = some dnsSampleId := by
  have hrun := (@DnsReaches.start Sodium.tagged (List.Vector.replicate 32 5) ⟨7,
    List.Vector.replicate 32 0⟩).requested Sodium.tagged_lawful ⟨8, List.Vector.replicate 32 1⟩
  have hmain := @dnsReaches_fresh_and_answered Sodium.tagged Sodium.tagged_lawful Sodium.tagged_sharesApart
    (List.Vector.replicate 32 5) _ hrun (by decide)
  exact ⟨_, _, rfl, hrun, hmain.1, (hmain.2 _ rfl).2 (by decide) dnsSampleId (by decide)⟩

/-- The request that brings the counter back to its start renews the keys, and its answer is not read. -/
theorem wrapped_request_unanswered :
    ¬ ∀ (sodium : Sodium), sodium.Lawful → sodium.SharesApart → ∀ (serverSk : SecretKey) (run : DnsRun),
      DnsReaches sodium (sodium.scalarmultBase serverSk) run → run.drawn.Nodup → ∀ latest ∈ run.requests.head?,
      ∀ toxId : Bytes, toxId.length = friendAddressSize →
        ∃ answer, serverAnswer sodium serverSk latest.before.tempPk latest.requestId toxId = some answer ∧
          toxDecryptDns3Txt sodium run.object answer latest.requestId = some toxId := by
  intro hall
  obtain ⟨requests, hrun⟩ :=
    DnsReaches.counting Sodium.tagged_lawful ⟨7, List.Vector.replicate 32 0⟩ (List.Vector.replicate 32 5)
    (by norm_num : 2 ^ 32 - 1 < 2 ^ 32)
  have hfresh : ([List.Vector.replicate 32 1, List.Vector.replicate 32 0] : List PublicKey).Nodup := by decide
  obtain ⟨answer, hanswer, hread⟩ :=
    hall Sodium.tagged Sodium.tagged_lawful Sodium.tagged_sharesApart (List.Vector.replicate 32 5) _
    (hrun.requested Sodium.tagged_lawful ⟨8, List.Vector.replicate 32 1⟩) hfresh _ rfl dnsSampleId (by decide)
  have hanswer' : some (encodeLoop 54 (dnsSampleId ++ List.replicate 16 5) 0).1 = some answer := hanswer
  rw [← some_inj.mp hanswer'] at hread
  have hlost : toxDecryptDns3Txt Sodium.tagged (dnsAdvance Sodium.tagged ⟨8, List.Vector.replicate 32 1⟩
      { toxDns3New Sodium.tagged ⟨7, List.Vector.replicate 32 0⟩ (List.Vector.replicate 32 5) with
        nonce := 7 + UInt32.ofNat (2 ^ 32 - 1) })
      (encodeLoop 54 (dnsSampleId ++ List.replicate 16 5) 0).1 (7 + UInt32.ofNat (2 ^ 32 - 1)) ≠ some dnsSampleId := by
    decide +kernel
  exact hlost hread

end Toxcore
