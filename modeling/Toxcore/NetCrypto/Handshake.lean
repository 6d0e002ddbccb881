import Toxcore.NetCrypto.State

/-!
# Cookies and handshakes

The builders and parsers of the four packets that open a connection. A is given a cookie by B, sealed
with B's symmetric key and naming A's keys and the time; A's handshake carries that cookie back,
together with a cookie of its own naming B's keys. Builders return the bytes they write, parsers
`none` where the source returns -1.

`uint64_t` values are copied in host order, which is taken to be little-endian.
-/

namespace Toxcore

open ByteStrings List Option

/-- `COOKIE_TIMEOUT`, in seconds. -/
def cookieTimeout : UInt64 := 15

/-- `COOKIE_DATA_LENGTH`. -/
abbrev cookieDataLength : ℕ := 32 * 2

/-- `COOKIE_LENGTH`. -/
abbrev cookieLength : ℕ := 24 + (8 + cookieDataLength) + macBytes

/-- `COOKIE_REQUEST_PLAIN_LENGTH`. -/
abbrev cookieRequestPlainLength : ℕ := cookieDataLength + 8

/-- `COOKIE_REQUEST_LENGTH`. -/
abbrev cookieRequestLength : ℕ := 1 + 32 + 24 + cookieRequestPlainLength + macBytes

/-- `COOKIE_RESPONSE_LENGTH`. -/
abbrev cookieResponseLength : ℕ := 1 + 24 + cookieLength + 8 + macBytes

/-- `HANDSHAKE_PACKET_LENGTH`. -/
abbrev handshakePacketLength : ℕ := 1 + cookieLength + 24 + 24 + 32 + 64 + cookieLength + macBytes

/-- A cookie. -/
abbrev Cookie := Block cookieLength

/-- The bytes of a `uint64_t` in memory. -/
def hostBytes (value : UInt64) : Block 8 := ⟨(beBytes 8 value.toNat).reverse, by simp⟩

/-- The `uint64_t` stored in eight bytes. -/
def ofHostBytes (bytes : Block 8) : UInt64 := UInt64.ofNat (beNat bytes.toList.reverse)

@[simp] theorem ofHostBytes_hostBytes (value : UInt64) : ofHostBytes (hostBytes value) = value := by
  have hlt : value.toNat < 256 ^ 8 := value.toNat_lt
  change UInt64.ofNat (beNat (beBytes 8 value.toNat).reverse.reverse) = value
  rw [reverse_reverse, beNat_beBytes_of_lt hlt, UInt64.ofNat_toNat]

/-- The bytes of a `uint32_t` in host order. -/
def hostBytes32 (value : UInt32) : Block 4 := ⟨(beBytes 4 value.toNat).reverse, by simp⟩

/-- The `uint32_t` stored in four bytes. -/
def ofHostBytes32 (bytes : Block 4) : UInt32 := UInt32.ofNat (beNat bytes.toList.reverse)

@[simp] theorem ofHostBytes32_hostBytes32 (value : UInt32) : ofHostBytes32 (hostBytes32 value) = value := by
  have hlt : value.toNat < 256 ^ 4 := value.toNat_lt
  change UInt32.ofNat (beNat (beBytes 4 value.toNat).reverse.reverse) = value
  rw [reverse_reverse, beNat_beBytes_of_lt hlt, UInt32.ofNat_toNat]

/-- What a cookie names: the real and the DHT public key of a peer. -/
def cookieData (realPk dhtPublicKey : PublicKey) : Block cookieDataLength :=
  ⟨realPk.toList ++ dhtPublicKey.toList, by simp⟩

@[simp] theorem cookieData_realPk (realPk dhtPublicKey : PublicKey) :
    slice 32 (cookieData realPk dhtPublicKey).toList 0 = realPk :=
  slice_block realPk dhtPublicKey.toList

@[simp] theorem cookieData_dhtPublicKey (realPk dhtPublicKey : PublicKey) :
    slice 32 (cookieData realPk dhtPublicKey).toList 32 = dhtPublicKey :=
  slice_at_end realPk.toList dhtPublicKey realPk.toList_length

/-- `DHT_get_shared_key_sent`. -/
def dhtGetSharedKeySent (sodium : Sodium) (env : Env) (c : NetCrypto) (publicKey : PublicKey) :
    SharedKey × NetCrypto :=
  let (sharedKey, keys) :=
    getSharedKey sodium env.unixTime c.dht.sharedKeysSent c.dht.selfSecretKey publicKey
  (sharedKey, { c with dht := { c.dht with sharedKeysSent := keys } })

/-- `create_cookie_request`: the packet and the key it was encrypted with. -/
def createCookieRequest (sodium : Sodium) (env : Env) (c : NetCrypto) (dhtPublicKey : PublicKey)
    (number : UInt64) : Option Bytes × SharedKey × NetCrypto :=
  let plain := c.selfPublicKey.toList ++ (List.replicate 32 0 ++ (hostBytes number).toList)
  let (sharedKey, c) := dhtGetSharedKeySent sodium env c dhtPublicKey
  let packet := (encryptDataSymmetric sodium sharedKey env.packetNonce plain).map fun encrypted =>
    netPacketCookieRequest :: (c.dht.selfPublicKey.toList ++ (env.packetNonce.toList ++ encrypted))
  (packet, sharedKey, c)

/-- A cookie request changes nothing but the key cache. -/
theorem createCookieRequest_net (sodium : Sodium) (env : Env) (c : NetCrypto) (dhtPublicKey : PublicKey)
    (number : UInt64) :
    ∃ dht, (createCookieRequest sodium env c dhtPublicKey number).2.2 = { c with dht := dht } :=
  ⟨_, rfl⟩

/-- `create_cookie`. -/
def createCookie (sodium : Sodium) (env : Env) (bytes : Block cookieDataLength) (encryptionKey : SharedKey) :
    Option Bytes :=
  let contents := (hostBytes env.unixTime).toList ++ bytes.toList
  (encryptDataSymmetric sodium encryptionKey env.cookieNonce contents).map fun encrypted =>
    env.cookieNonce.toList ++ encrypted

/-- `open_cookie`. The sum wraps. -/
def openCookie (sodium : Sodium) (env : Env) (cookie : Cookie) (encryptionKey : SharedKey) :
    Option (Block cookieDataLength) :=
  match decryptDataSymmetric sodium encryptionKey (slice 24 cookie.toList 0) (cookie.toList.drop 24) with
  | none => none
  | some contents =>
    let cookieTime := ofHostBytes (slice 8 contents 0)
    if cookieTime + cookieTimeout < env.unixTime ∨ env.unixTime < cookieTime then none
    else some (slice cookieDataLength contents 8)

/-- `create_cookie_response`. -/
def createCookieResponse (sodium : Sodium) (env : Env) (c : NetCrypto) (requestPlain : Bytes)
    (sharedKey : SharedKey) (dhtPublicKey : PublicKey) : Option Bytes :=
  let cookiePlain := cookieData (slice 32 requestPlain 0) dhtPublicKey
  match createCookie sodium env cookiePlain c.secretSymmetricKey with
  | none => none
  | some cookie =>
    let plain := cookie ++ (slice 8 requestPlain cookieDataLength).toList
    (encryptDataSymmetric sodium sharedKey env.packetNonce plain).map fun encrypted =>
      netPacketCookieResponse :: (env.packetNonce.toList ++ encrypted)

/-- `handle_cookie_request`: what was in the request, the key it was encrypted with and the DHT key
of the peer. -/
def handleCookieRequest (sodium : Sodium) (env : Env) (c : NetCrypto) (packet : Bytes) :
    Option (Bytes × SharedKey × PublicKey) × NetCrypto :=
  if packet.length ≠ cookieRequestLength then (none, c)
  else
    let dhtPublicKey : PublicKey := slice 32 packet 1
    let (sharedKey, c) := dhtGetSharedKeySent sodium env c dhtPublicKey
    let plain := decryptDataSymmetric sodium sharedKey (slice 24 packet (1 + 32)) (packet.drop (1 + 32 + 24))
    (plain.map fun requestPlain => (requestPlain, sharedKey, dhtPublicKey), c)

/-- `handle_cookie_response`: the cookie and the number of the request. -/
def handleCookieResponse (sodium : Sodium) (packet : Bytes) (sharedKey : SharedKey) :
    Option (Cookie × UInt64) :=
  if packet.length ≠ cookieResponseLength then none
  else
    (decryptDataSymmetric sodium sharedKey (slice 24 packet 1) (packet.drop (1 + 24))).map fun plain =>
      (slice cookieLength plain 0, ofHostBytes (slice 8 plain cookieLength))

/-- `create_crypto_handshake`. -/
def createCryptoHandshake (sodium : Sodium) (env : Env) (c : NetCrypto) (cookie : Cookie) (nonce : Nonce)
    (sessionPk peerRealPk peerDhtPubkey : PublicKey) : Option Bytes :=
  let cookiePlain := cookieData peerRealPk peerDhtPubkey
  match createCookie sodium env cookiePlain c.secretSymmetricKey with
  | none => none
  | some ownCookie =>
    let plain := nonce.toList ++ (sessionPk.toList ++ ((sodium.sha512 cookie.toList).toList ++ ownCookie))
    (encryptData sodium peerRealPk c.selfSecretKey env.packetNonce plain).map fun encrypted =>
      netPacketCryptoHs :: (cookie.toList ++ (env.packetNonce.toList ++ encrypted))

variable {sodium : Sodium}

/-- A handshake packet is built whenever encryption succeeds. -/
theorem Sodium.Encrypts.createCryptoHandshake (h : sodium.Encrypts) (env : Env) (c : NetCrypto) (cookie : Cookie)
    (nonce : Nonce) (sessionPk peerRealPk peerDhtPubkey : PublicKey) :
    ∃ packet, Toxcore.createCryptoHandshake sodium env c cookie nonce sessionPk peerRealPk peerDhtPubkey =
      some packet ∧ packet.length = handshakePacketLength := by
  obtain ⟨ownCookie, hcookie, hownlen⟩ := h.encryptDataSymmetric c.secretSymmetricKey env.cookieNonce
    (show ((hostBytes env.unixTime).toList ++ (cookieData peerRealPk peerDhtPubkey).toList).length ≠ 0 by simp)
  obtain ⟨encrypted, hencrypt, hlen⟩ := h.encryptDataSymmetric (sodium.beforenm peerRealPk c.selfSecretKey)
    env.packetNonce (show (nonce.toList ++ (sessionPk.toList ++ ((sodium.sha512 cookie.toList).toList ++
      (env.cookieNonce.toList ++ ownCookie)))).length ≠ 0 by simp)
  refine ⟨netPacketCryptoHs :: (cookie.toList ++ (env.packetNonce.toList ++ encrypted)), ?_, ?_⟩
  · simp only [Toxcore.createCryptoHandshake, createCookie, hcookie, map_some, encryptData, hencrypt]
  · simp only [length_append, List.Vector.toList_length] at hlen hownlen
    simp only [length_cons, length_append, List.Vector.toList_length, hlen, hownlen]
    rfl

/-- What a handshake packet tells about its sender. -/
structure Handshake where
  nonce : Nonce
  sessionPk : PublicKey
  peerRealPk : PublicKey
  dhtPublicKey : PublicKey
  cookie : Cookie
  deriving DecidableEq

/-- `handle_crypto_handshake`; `expectedRealPk` is `none` for a null pointer. -/
def handleCryptoHandshake (sodium : Sodium) (env : Env) (c : NetCrypto) (packet : Bytes)
    (expectedRealPk : Option PublicKey) : Option Handshake :=
  if packet.length ≠ handshakePacketLength then none
  else
    let cookie : Cookie := slice cookieLength packet 1
    match openCookie sodium env cookie c.secretSymmetricKey with
    | none => none
    | some cookiePlain =>
      let realPk : PublicKey := slice 32 cookiePlain.toList 0
      if expectedRealPk ≠ none ∧ expectedRealPk ≠ some realPk then none
      else
        match decryptData sodium realPk c.selfSecretKey (slice 24 packet (1 + cookieLength))
            (packet.drop (1 + cookieLength + 24)) with
        | none => none
        | some plain =>
          if sodium.sha512 cookie.toList ≠ slice 64 plain (24 + 32) then none
          else some
            { nonce := slice 24 plain 0
              sessionPk := slice 32 plain 24
              peerRealPk := realPk
              dhtPublicKey := slice 32 cookiePlain.toList 32
              cookie := slice cookieLength plain (24 + 32 + 64) }

/-! ## The parsers undo the builders -/

/-- The clock values at which `open_cookie` takes a cookie made at `made`. -/
def CookieFresh (made now : UInt64) : Prop := ¬(made + cookieTimeout < now ∨ now < made)

instance (made now : UInt64) : Decidable (CookieFresh made now) := inferInstanceAs (Decidable ¬_)

/-- The key pairs of a node belong together and its key cache is valid. -/
structure NetCrypto.KeysValid (sodium : Sodium) (c : NetCrypto) : Prop where
  real : c.selfPublicKey = sodium.scalarmultBase c.selfSecretKey
  dht : c.dht.selfPublicKey = sodium.scalarmultBase c.dht.selfSecretKey
  cache : c.dht.sharedKeysSent.Valid sodium c.dht.selfSecretKey

/-- The node has the keys of another state of it. -/
structure NetCrypto.SameKeys (c c' : NetCrypto) : Prop where
  selfPublicKey : c'.selfPublicKey = c.selfPublicKey
  selfSecretKey : c'.selfSecretKey = c.selfSecretKey
  secretSymmetricKey : c'.secretSymmetricKey = c.secretSymmetricKey
  dhtPublicKey : c'.dht.selfPublicKey = c.dht.selfPublicKey

/-- A handshake is parsed with the keys of the node. -/
theorem NetCrypto.SameKeys.handleCryptoHandshake {c c' : NetCrypto} (h : c.SameKeys c') (env : Env) (packet : Bytes)
    (expected : Option PublicKey) :
    Toxcore.handleCryptoHandshake sodium env c' packet expected =
      Toxcore.handleCryptoHandshake sodium env c packet expected := by
  unfold Toxcore.handleCryptoHandshake
  rw [h.secretSymmetricKey, h.selfSecretKey]

/-- The DHT key of a peer comes out of the cache right, and only the cache changes. -/
theorem NetCrypto.KeysValid.dhtGetSharedKeySent {c : NetCrypto} (h : c.KeysValid sodium) (env : Env)
    (publicKey : PublicKey) :
    ∃ keys, dhtGetSharedKeySent sodium env c publicKey =
      (sodium.beforenm publicKey c.dht.selfSecretKey, { c with dht := { c.dht with sharedKeysSent := keys } }) ∧
      keys.Valid sodium c.dht.selfSecretKey := by
  obtain ⟨hkey, hvalid⟩ := h.cache.getSharedKey env.unixTime publicKey
  refine ⟨_, ?_, hvalid⟩
  rw [← hkey]
  rfl

/-- A asks B for a cookie: the request, B's answer and the cookie A finds in it, with the number of
the request and the nodes afterwards. -/
def exchangeCookie (sodium : Sodium) (envA envB : Env) (a b : NetCrypto) (number : UInt64) :
    Option (Cookie × UInt64 × NetCrypto × NetCrypto) :=
  match createCookieRequest sodium envA a b.dht.selfPublicKey number with
  | (none, _, _) => none
  | (some request, sharedKey, a) =>
    match handleCookieRequest sodium envB b request with
    | (none, _) => none
    | (some (requestPlain, requestKey, dhtPublicKey), b) =>
      match createCookieResponse sodium envB b requestPlain requestKey dhtPublicKey with
      | none => none
      | some response =>
        (handleCookieResponse sodium response sharedKey).map fun (cookie, echoed) => (cookie, echoed, a, b)

section Lawful

variable {sodium : Sodium} (h : sodium.Lawful)

include h

/-- A cookie is created, and opens to its bytes while it is fresh. -/
theorem Sodium.Lawful.createCookie (env : Env) (bytes : Block cookieDataLength) (key : SharedKey) :
    ∃ cookie : Cookie, Toxcore.createCookie sodium env bytes key = some cookie.toList ∧
      ∀ env', openCookie sodium env' cookie key =
        if CookieFresh env.unixTime env'.unixTime then some bytes else none := by
  obtain ⟨encrypted, hencrypt, hlen, hdecrypt⟩ := h.encrypt_decrypt key env.cookieNonce
    (show ((hostBytes env.unixTime).toList ++ bytes.toList).length ≠ 0 by simp)
  have hcookie : (env.cookieNonce.toList ++ encrypted).length = cookieLength := by
    simp only [length_append, List.Vector.toList_length, hlen]
    rfl
  refine ⟨⟨env.cookieNonce.toList ++ encrypted, hcookie⟩, ?_, fun env' => ?_⟩
  · rw [Toxcore.createCookie, hencrypt]
    rfl
  · have hdrop : (env.cookieNonce.toList ++ encrypted).drop 24 = encrypted := by
      rw [drop_append, env.cookieNonce.toList_length]
      simp
    have hbytes : slice cookieDataLength ((hostBytes env.unixTime).toList ++ bytes.toList) 8 = bytes :=
      slice_at_end _ bytes (List.Vector.toList_length _)
    simp only [openCookie, List.Vector.toList_mk, slice_block, hdrop, hdecrypt, hbytes, ofHostBytes_hostBytes]
    by_cases hfresh : CookieFresh env.unixTime env'.unixTime
    · rw [if_pos hfresh, if_neg hfresh]
    · rw [if_neg hfresh, if_pos (not_not.mp hfresh)]

variable {a b : NetCrypto}

/-- A cookie request is built, and read back by the node it is for. -/
theorem Sodium.Lawful.cookieRequest (ha : a.KeysValid sodium) (hb : b.KeysValid sodium) (envA envB : Env)
    (number : UInt64) :
    ∃ request keysA keysB, createCookieRequest sodium envA a b.dht.selfPublicKey number =
        (some request, sodium.beforenm b.dht.selfPublicKey a.dht.selfSecretKey,
          { a with dht := { a.dht with sharedKeysSent := keysA } }) ∧
      handleCookieRequest sodium envB b request =
        (some (a.selfPublicKey.toList ++ (List.replicate 32 0 ++ (hostBytes number).toList),
            sodium.beforenm b.dht.selfPublicKey a.dht.selfSecretKey, a.dht.selfPublicKey),
          { b with dht := { b.dht with sharedKeysSent := keysB } }) ∧
      keysA.Valid sodium a.dht.selfSecretKey ∧ keysB.Valid sodium b.dht.selfSecretKey := by
  obtain ⟨keysA, hkeyA, hvalidA⟩ := ha.dhtGetSharedKeySent envA b.dht.selfPublicKey
  obtain ⟨keysB, hkeyB, hvalidB⟩ := hb.dhtGetSharedKeySent envB a.dht.selfPublicKey
  have hshared : sodium.beforenm a.dht.selfPublicKey b.dht.selfSecretKey =
      sodium.beforenm b.dht.selfPublicKey a.dht.selfSecretKey := by
    rw [ha.dht, hb.dht, h.beforenm_comm]
  rw [hshared] at hkeyB
  set sharedKey := sodium.beforenm b.dht.selfPublicKey a.dht.selfSecretKey
  set plain := a.selfPublicKey.toList ++ (List.replicate 32 0 ++ (hostBytes number).toList) with hplain
  have hplainlen : plain.length = cookieRequestPlainLength := by simp [plain]
  obtain ⟨encrypted, hencrypt, hlen, hdecrypt⟩ := h.encrypt_decrypt sharedKey envA.packetNonce
    (show plain.length ≠ 0 by rw [hplainlen]; decide)
  set packet := netPacketCookieRequest :: (a.dht.selfPublicKey.toList ++
    (envA.packetNonce.toList ++ encrypted)) with hpacket
  have hlength : packet.length = cookieRequestLength := by
    simp only [packet, length_cons, length_append, List.Vector.toList_length, hlen, hplainlen]
    rfl
  have hkey : slice 32 packet 1 = a.dht.selfPublicKey := by
    rw [hpacket, slice_cons _ _ 0, slice_block]
  have hnonce : slice 24 packet (1 + 32) = envA.packetNonce := by
    rw [hpacket, Nat.add_comm 1 32, slice_cons, slice_skip _ _ 0, slice_block]
  have hrest : packet.drop (1 + 32 + 24) = encrypted := by
    change (a.dht.selfPublicKey.toList ++ (envA.packetNonce.toList ++ encrypted)).drop (32 + (24 + 0)) = encrypted
    rw [drop_skip, drop_skip, drop_zero]
  refine ⟨packet, keysA, keysB, ?_, ?_, hvalidA, hvalidB⟩
  · simp only [createCookieRequest, hkeyA, ← hplain, hencrypt, map_some, ← hpacket]
  · simp only [handleCookieRequest, hlength, ne_eq, not_true_eq_false, if_false, hkey, hnonce, hrest, hkeyB,
      hdecrypt, map_some]

/-- A cookie response is built, and read back by the node that asked. -/
theorem Sodium.Lawful.cookieResponse (env : Env) (c : NetCrypto) (realPk dhtPublicKey : PublicKey)
    (number : UInt64) (sharedKey : SharedKey) :
    ∃ (response : Bytes) (cookie : Cookie), createCookieResponse sodium env c
        (realPk.toList ++ (List.replicate 32 0 ++ (hostBytes number).toList)) sharedKey dhtPublicKey =
          some response ∧
      handleCookieResponse sodium response sharedKey = some (cookie, number) ∧
      Toxcore.createCookie sodium env (cookieData realPk dhtPublicKey) c.secretSymmetricKey = some cookie.toList := by
  obtain ⟨cookie, hcookie, -⟩ := h.createCookie env (cookieData realPk dhtPublicKey) c.secretSymmetricKey
  set plain := cookie.toList ++ (hostBytes number).toList with hplain
  have hplainlen : plain.length = cookieLength + 8 := by simp [plain]
  obtain ⟨encrypted, hencrypt, hlen, hdecrypt⟩ := h.encrypt_decrypt sharedKey env.packetNonce
    (show plain.length ≠ 0 by rw [hplainlen]; decide)
  set packet := netPacketCookieResponse :: (env.packetNonce.toList ++ encrypted) with hpacket
  have hlength : packet.length = cookieResponseLength := by
    simp only [packet, length_cons, length_append, List.Vector.toList_length, hlen, hplainlen]
    rfl
  have hnonce : slice 24 packet 1 = env.packetNonce := by
    rw [hpacket, slice_cons _ _ 0, slice_block]
  have hrest : packet.drop (1 + 24) = encrypted := by
    change (env.packetNonce.toList ++ encrypted).drop (24 + 0) = encrypted
    rw [drop_skip, drop_zero]
  have hreal : slice 32 (realPk.toList ++ (List.replicate 32 0 ++ (hostBytes number).toList)) 0 = realPk :=
    slice_block _ _
  have hnumber : slice 8 (realPk.toList ++ (List.replicate 32 0 ++ (hostBytes number).toList)) cookieDataLength =
      hostBytes number := by
    rw [← append_assoc]
    exact slice_at_end _ _ (by simp)
  refine ⟨packet, cookie, ?_, ?_, hcookie⟩
  · simp only [createCookieResponse, hreal, hnumber, hcookie, ← hplain, hencrypt, map_some, ← hpacket]
  · have hcookiePart : slice cookieLength plain 0 = cookie := slice_block _ _
    have hnumberPart : slice 8 plain cookieLength = hostBytes number := slice_at_end _ _ cookie.toList_length
    simp only [handleCookieResponse, hlength, ne_eq, not_true_eq_false, if_false, hnonce, hrest, hdecrypt,
      map_some, hcookiePart, hnumberPart, ofHostBytes_hostBytes]

/-- Every cookie request is answered with a cookie naming the keys of the node that asked, and the nodes keep their
keys. -/
theorem Sodium.Lawful.exchangeCookie (ha : a.KeysValid sodium) (hb : b.KeysValid sodium) (envA envB : Env)
    (number : UInt64) :
    ∃ cookie a' b', Toxcore.exchangeCookie sodium envA envB a b number = some (cookie, number, a', b') ∧
      (a'.KeysValid sodium ∧ a.SameKeys a') ∧ (b'.KeysValid sodium ∧ b.SameKeys b') ∧
      Toxcore.createCookie sodium envB (cookieData a.selfPublicKey a.dht.selfPublicKey) b.secretSymmetricKey =
        some cookie.toList := by
  obtain ⟨request, keysA, keysB, hrequest, hhandled, hvalidA, hvalidB⟩ := h.cookieRequest ha hb envA envB number
  obtain ⟨response, cookie, hresponse, hcookie, hmade⟩ := h.cookieResponse envB
    { b with dht := { b.dht with sharedKeysSent := keysB } } a.selfPublicKey a.dht.selfPublicKey number
    (sodium.beforenm b.dht.selfPublicKey a.dht.selfSecretKey)
  refine ⟨cookie, { a with dht := { a.dht with sharedKeysSent := keysA } },
    { b with dht := { b.dht with sharedKeysSent := keysB } }, ?_, ⟨⟨ha.real, ha.dht, hvalidA⟩, ⟨rfl, rfl, rfl, rfl⟩⟩,
    ⟨⟨hb.real, hb.dht, hvalidB⟩, ⟨rfl, rfl, rfl, rfl⟩⟩, hmade⟩
  simp only [Toxcore.exchangeCookie, hrequest, hhandled, hresponse, hcookie, map_some]

/-- The handshake A builds around a cookie it got from B is taken by B exactly while the cookie is
fresh and A is whom B expects, and tells B what A put in. -/
theorem Sodium.Lawful.cryptoHandshake (ha : a.KeysValid sodium) (hb : b.KeysValid sodium) {cookie : Cookie}
    {made : UInt64} (hcookie : ∀ env, openCookie sodium env cookie b.secretSymmetricKey =
      if CookieFresh made env.unixTime then some (cookieData a.selfPublicKey a.dht.selfPublicKey) else none)
    (env : Env) (nonce : Nonce) (sessionPk : PublicKey) :
    ∃ (packet : Bytes) (ownCookie : Cookie), createCryptoHandshake sodium env a cookie nonce sessionPk
        b.selfPublicKey b.dht.selfPublicKey = some packet ∧
      (∀ env' expected, handleCryptoHandshake sodium env' b packet expected =
        if CookieFresh made env'.unixTime ∧ (expected = none ∨ expected = some a.selfPublicKey) then
          some ⟨nonce, sessionPk, a.selfPublicKey, a.dht.selfPublicKey, ownCookie⟩
        else none) ∧
      ∀ env', openCookie sodium env' ownCookie a.secretSymmetricKey =
        if CookieFresh env.unixTime env'.unixTime then some (cookieData b.selfPublicKey b.dht.selfPublicKey)
        else none := by
  obtain ⟨ownCookie, hown, hopen⟩ := h.createCookie env (cookieData b.selfPublicKey b.dht.selfPublicKey)
    a.secretSymmetricKey
  have hshared : sodium.beforenm a.selfPublicKey b.selfSecretKey =
      sodium.beforenm b.selfPublicKey a.selfSecretKey := by
    rw [ha.real, hb.real, h.beforenm_comm]
  set hash := sodium.sha512 cookie.toList with hhash
  set plain := nonce.toList ++ (sessionPk.toList ++ (hash.toList ++ ownCookie.toList)) with hplain
  have hplainlen : plain.length = 24 + (32 + (64 + cookieLength)) := by simp [plain]
  obtain ⟨encrypted, hencrypt, hlen, hdecrypt⟩ := h.encrypt_decrypt
    (sodium.beforenm b.selfPublicKey a.selfSecretKey) env.packetNonce
    (show plain.length ≠ 0 by rw [hplainlen]; decide)
  set packet := netPacketCryptoHs :: (cookie.toList ++ (env.packetNonce.toList ++ encrypted)) with hpacket
  have hlength : packet.length = handshakePacketLength := by
    simp only [packet, length_cons, length_append, List.Vector.toList_length, hlen, hplainlen]
    rfl
  have hcookiePart : slice cookieLength packet 1 = cookie := by
    rw [hpacket, slice_cons _ _ 0, slice_block]
  have hnonce : slice 24 packet (1 + cookieLength) = env.packetNonce := by
    rw [hpacket, Nat.add_comm 1 cookieLength, slice_cons]
    exact slice_at _ _ _ cookie.toList_length
  have hrest : packet.drop (1 + cookieLength + 24) = encrypted := by
    change (cookie.toList ++ (env.packetNonce.toList ++ encrypted)).drop (cookieLength + (24 + 0)) = encrypted
    rw [drop_skip, drop_skip, drop_zero]
  have hnoncePart : slice 24 plain 0 = nonce := slice_block _ _
  have hsessionPart : slice 32 plain 24 = sessionPk := by
    rw [hplain, slice_skip nonce _ 0, slice_block]
  have hhashPart : slice 64 plain (24 + 32) = hash := by
    rw [hplain, slice_skip nonce, slice_skip sessionPk _ 0, slice_block]
  have hownPart : slice cookieLength plain (24 + 32 + 64) = ownCookie := by
    rw [hplain, Nat.add_assoc 24, slice_skip nonce, slice_skip sessionPk, slice_skip hash _ 0, slice_self]
  refine ⟨packet, ownCookie, ?_, fun env' expected => ?_, hopen⟩
  · simp only [createCryptoHandshake, hown, ← hhash, ← hplain, encryptData, hencrypt, map_some, ← hpacket]
  · simp only [handleCryptoHandshake, hlength, ne_eq, not_true_eq_false, if_false, hcookiePart, hcookie]
    by_cases hfresh : CookieFresh made env'.unixTime
    · simp only [hfresh, if_true, true_and, cookieData_realPk, cookieData_dhtPublicKey, decryptData, hnonce, hrest,
        hshared, hdecrypt, hhashPart, ← hhash, not_true_eq_false, if_false, hnoncePart, hsessionPart, hownPart]
      by_cases hexpected : expected = none ∨ expected = some a.selfPublicKey
      · rw [if_pos hexpected, if_neg (by tauto)]
      · rw [if_neg hexpected, if_pos (by tauto)]
    · simp only [hfresh, if_false, false_and]

end Lawful

end Toxcore
