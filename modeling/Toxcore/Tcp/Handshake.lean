import Toxcore.Tcp.Stream

/-!
# The handshake of a TCP connection

`generate_handshake` and `handle_handshake` of `TCP_client.c`, and `handle_TCP_handshake` of `TCP_server.c`. The
client sends its public key and, encrypted with the key it shares with the server, a new public key and the nonce it
starts with; the server answers in the same way, and from then on both use the key that belongs to the two new key
pairs.
-/

namespace Toxcore

open ByteStrings List

/-- `TCP_HANDSHAKE_PLAIN_SIZE`. -/
abbrev tcpHandshakePlainSize : ℕ := 32 + 24

/-- `TCP_SERVER_HANDSHAKE_SIZE`. -/
abbrev tcpServerHandshakeSize : ℕ := 24 + tcpHandshakePlainSize + macBytes

/-- `TCP_CLIENT_HANDSHAKE_SIZE`. -/
abbrev tcpClientHandshakeSize : ℕ := 32 + tcpServerHandshakeSize

/-- What one side draws at random: a new secret key, the nonce it starts with and the nonce of its handshake. -/
structure HandshakeDraws where
  tempSecretKey : SecretKey
  sentNonce : Nonce
  packetNonce : Nonce

/-- `TCP_Client_Connection`, as far as the handshake uses it. -/
structure TcpClientHandshake where
  publicKey : PublicKey
  selfPublicKey : PublicKey
  sharedKey : SharedKey
  tempSecretKey : SecretKey
  sentNonce : Nonce
  recvNonce : Nonce
  lastPacket : Bytes
  lastPacketLength : ℕ
  lastPacketSent : ℕ

/-- `TCP_Secure_Connection` with the nonce of what is received. -/
structure TcpIncoming extends TcpSecureConnection where
  recvNonce : Nonce

section Packets

variable (sodium : Sodium) (draws : HandshakeDraws)

/-- The plain text of a handshake. -/
def HandshakeDraws.plain : Bytes := (sodium.scalarmultBase draws.tempSecretKey).toList ++ draws.sentNonce.toList

/-- `generate_handshake`, with the return value 0 as `true`. -/
def generateHandshake (conn : TcpClientHandshake) : Bool × TcpClientHandshake :=
  let start := conn.selfPublicKey.toList ++ draws.packetNonce.toList
  let conn := { conn with
    tempSecretKey := draws.tempSecretKey
    sentNonce := draws.sentNonce
    lastPacket := start ++ conn.lastPacket.drop start.length }
  match encryptDataSymmetric sodium conn.sharedKey draws.packetNonce (draws.plain sodium) with
  | none => (false, conn)
  | some encrypted =>
    let conn := { conn with lastPacket := start ++ encrypted ++ conn.lastPacket.drop (start ++ encrypted).length }
    if encrypted.length ≠ (draws.plain sodium).length + macBytes then (false, conn)
    else (true, { conn with lastPacketLength := 32 + 24 + (draws.plain sodium).length + macBytes, lastPacketSent := 0 })

/-- `handle_handshake`, with the return value 0 as `true`. -/
def handleHandshake (conn : TcpClientHandshake) (data : Bytes) : Bool × TcpClientHandshake :=
  match decryptDataSymmetric sodium conn.sharedKey (slice 24 data 0)
    (slice (tcpServerHandshakeSize - 24) data 24).toList with
  | none => (false, conn)
  | some plain =>
    if plain.length ≠ tcpHandshakePlainSize then (false, conn)
    else
      (true, { conn with
        recvNonce := slice 24 plain 32
        sharedKey := sodium.beforenm (slice 32 plain 0) conn.tempSecretKey
        tempSecretKey := slice 32 [] 0 })

/-- `handle_TCP_handshake`: the return value 1 as `true`, the response, unless it was not sent as a whole, and the
connection. -/
def handleTcpHandshake (sends : Bool) (con : TcpIncoming) (data : Bytes) (selfSecretKey : SecretKey) :
    Bool × Option Bytes × TcpIncoming :=
  if data.length ≠ tcpClientHandshakeSize then (false, none, con)
  else if con.status ≠ .connected then (false, none, con)
  else
    let sharedKey := sodium.beforenm (slice 32 data 0) selfSecretKey
    match decryptDataSymmetric sodium sharedKey (slice 24 data 32)
        (slice (tcpHandshakePlainSize + macBytes) data (32 + 24)).toList with
    | none => (false, none, con)
    | some plain =>
      if plain.length ≠ tcpHandshakePlainSize then (false, none, con)
      else
        let con := { con with
          publicKey := slice 32 data 0, sentNonce := draws.sentNonce, recvNonce := slice 24 plain 32 }
        match encryptDataSymmetric sodium sharedKey draws.packetNonce (draws.plain sodium) with
        | none => (false, none, con)
        | some encrypted =>
          if encrypted.length ≠ tcpHandshakePlainSize + macBytes then (false, none, con)
          else if sends then
            (true, some (draws.packetNonce.toList ++ encrypted), { con with
              sharedKey := sodium.beforenm (slice 32 plain 0) draws.tempSecretKey, status := .unconfirmed })
          else (false, none, con)

end Packets

/-- `new_TCP_connection` for a client with some secret key and a server with some public key, up to the handshake. -/
def TcpClientHandshake.new (sodium : Sodium) (selfSecretKey : SecretKey) (publicKey : PublicKey) :
    TcpClientHandshake where
  publicKey := publicKey
  selfPublicKey := sodium.scalarmultBase selfSecretKey
  sharedKey := sodium.beforenm publicKey selfSecretKey
  tempSecretKey := slice 32 [] 0
  sentNonce := slice 24 [] 0
  recvNonce := slice 24 [] 0
  lastPacket := List.replicate (2 + tcpMaxPacketSize) 0
  lastPacketLength := 0
  lastPacketSent := 0

/-- The packet that is to be sent. -/
def TcpClientHandshake.packet (conn : TcpClientHandshake) : Bytes := conn.lastPacket.take conn.lastPacketLength

/-! ## What is sent -/

section Handshakes

variable {sodium : Sodium} {draws : HandshakeDraws} {conn client : TcpClientHandshake}

@[simp] theorem HandshakeDraws.plain_length (sodium : Sodium) (draws : HandshakeDraws) :
    (draws.plain sodium).length = tcpHandshakePlainSize := by
  rw [plain, length_append, List.Vector.toList_length, List.Vector.toList_length]

/-- The new public key is in front. -/
theorem HandshakeDraws.slice_plain_zero (sodium : Sodium) (draws : HandshakeDraws) :
    slice 32 (draws.plain sodium) 0 = sodium.scalarmultBase draws.tempSecretKey := slice_block _ _

/-- The nonce is behind it. -/
theorem HandshakeDraws.slice_plain (sodium : Sodium) (draws : HandshakeDraws) :
    slice 24 (draws.plain sodium) 32 = draws.sentNonce := slice_at_end _ _ (List.Vector.toList_length _)

/-- A handshake that was generated is the public key, the nonce and the encrypted plain text. -/
theorem generateHandshake_packet (h : generateHandshake sodium draws conn = (true, client)) : ∃ encrypted,
    encryptDataSymmetric sodium conn.sharedKey draws.packetNonce (draws.plain sodium) = some encrypted ∧
      client.packet = conn.selfPublicKey.toList ++ (draws.packetNonce.toList ++ encrypted) ∧
      client.sharedKey = conn.sharedKey ∧ client.tempSecretKey = draws.tempSecretKey ∧
        client.sentNonce = draws.sentNonce := by
  unfold generateHandshake at h
  dsimp only at h
  cases hencrypt : encryptDataSymmetric sodium conn.sharedKey draws.packetNonce (draws.plain sodium) with
  | none =>
    rw [hencrypt] at h
    nomatch (Prod.mk.inj h).1
  | some encrypted =>
    rw [hencrypt] at h
    have hlength := encryptDataSymmetric_length hencrypt
    dsimp only at h
    rw [if_neg (not_not.mpr hlength)] at h
    obtain rfl := (Prod.mk.inj h).2
    refine ⟨encrypted, rfl, ?_, rfl, rfl, rfl⟩
    rw [TcpClientHandshake.packet]
    dsimp only
    have hwhole : 32 + 24 + (draws.plain sodium).length + macBytes =
        (conn.selfPublicKey.toList ++ draws.packetNonce.toList ++ encrypted).length := by
      rw [length_append, length_append, List.Vector.toList_length, List.Vector.toList_length, hlength]
      omega
    rw [hwhole, take_left, append_assoc]

/-- Where the library encrypts, a handshake is generated. -/
theorem generateHandshake_succeeds (h : sodium.Lawful) (draws : HandshakeDraws) (conn : TcpClientHandshake) :
    (generateHandshake sodium draws conn).1 = true := by
  have hplain : (draws.plain sodium).length ≠ 0 := by
    rw [draws.plain_length]
    decide
  obtain ⟨encrypted, hencrypt, hlength⟩ := h.encrypts.encryptDataSymmetric conn.sharedKey draws.packetNonce hplain
  rw [generateHandshake]
  dsimp only
  rw [hencrypt]
  dsimp only
  rw [if_neg (not_not.mpr hlength)]

/-! ## What is received -/

variable {encrypted : Bytes} {nonce : Nonce}

/-- What the server cuts out of a handshake. -/
theorem slice_handshake (publicKey : PublicKey) (nonce : Nonce)
    (hlength : encrypted.length = tcpHandshakePlainSize + macBytes) :
    slice 32 (publicKey.toList ++ (nonce.toList ++ encrypted)) 0 = publicKey ∧
      slice 24 (publicKey.toList ++ (nonce.toList ++ encrypted)) 32 = nonce ∧
      (slice (tcpHandshakePlainSize + macBytes) (publicKey.toList ++ (nonce.toList ++ encrypted)) (32 + 24)).toList =
        encrypted := by
  refine ⟨slice_block _ _, slice_at _ _ _ (List.Vector.toList_length _), ?_⟩
  rw [slice_skip publicKey]
  exact slice_rest nonce hlength

variable {clientDraws serverDraws : HandshakeDraws}

/-- The server accepts a handshake that it can decrypt, and answers with the key of the two new key pairs. -/
theorem handleTcpHandshake_accepts (h : sodium.Lawful) {con : TcpIncoming} (hstatus : con.status = .connected)
    {publicKey : PublicKey} {selfSecretKey : SecretKey}
    (hdecrypt : decryptDataSymmetric sodium (sodium.beforenm publicKey selfSecretKey) nonce encrypted =
      some (clientDraws.plain sodium)) : ∃ answer,
    encryptDataSymmetric sodium (sodium.beforenm publicKey selfSecretKey) draws.packetNonce (draws.plain sodium) =
      some answer ∧
      answer.length = tcpHandshakePlainSize + macBytes ∧
      handleTcpHandshake sodium draws true con (publicKey.toList ++ (nonce.toList ++ encrypted)) selfSecretKey =
        (true, some (draws.packetNonce.toList ++ answer), { con with
          publicKey := publicKey
          sentNonce := draws.sentNonce
          recvNonce := clientDraws.sentNonce
          sharedKey := sodium.beforenm (sodium.scalarmultBase clientDraws.tempSecretKey) draws.tempSecretKey
          status := .unconfirmed }) := by
  have hplain : (draws.plain sodium).length ≠ 0 := by
    rw [draws.plain_length]
    decide
  obtain ⟨answer, hanswer, hanswerLength⟩ :=
    h.encrypts.encryptDataSymmetric (sodium.beforenm publicKey selfSecretKey) draws.packetNonce hplain
  rw [draws.plain_length] at hanswerLength
  have hlength := decryptDataSymmetric_length hdecrypt
  rw [clientDraws.plain_length] at hlength
  obtain ⟨hkey, hnonce, hbox⟩ := slice_handshake publicKey nonce hlength.symm
  refine ⟨answer, hanswer, hanswerLength, ?_⟩
  have hwhole : (publicKey.toList ++ (nonce.toList ++ encrypted)).length = tcpClientHandshakeSize := by
    rw [length_append, length_append, List.Vector.toList_length, List.Vector.toList_length, ← hlength]
    rfl
  rw [handleTcpHandshake, if_neg (not_not.mpr hwhole), if_neg (not_not.mpr hstatus)]
  dsimp only
  rw [hkey, hnonce, hbox, hdecrypt]
  dsimp only
  rw [if_neg (not_not.mpr (clientDraws.plain_length sodium)), hanswer]
  dsimp only
  rw [if_neg (not_not.mpr hanswerLength), if_pos rfl, clientDraws.slice_plain, clientDraws.slice_plain_zero]

/-- The client accepts an answer that it can decrypt. -/
theorem handleHandshake_accepts {answer : Bytes}
    (hdecrypt : decryptDataSymmetric sodium conn.sharedKey nonce answer = some (serverDraws.plain sodium)) :
    handleHandshake sodium conn (nonce.toList ++ answer) = (true, { conn with
      recvNonce := serverDraws.sentNonce
      sharedKey := sodium.beforenm (sodium.scalarmultBase serverDraws.tempSecretKey) conn.tempSecretKey
      tempSecretKey := slice 32 [] 0 }) := by
  have hlength := decryptDataSymmetric_length hdecrypt
  rw [serverDraws.plain_length] at hlength
  have hbox : (slice (tcpServerHandshakeSize - 24) (nonce.toList ++ answer) 24).toList = answer :=
    slice_rest nonce hlength.symm
  rw [handleHandshake, slice_block, hbox, hdecrypt]
  dsimp only
  rw [if_neg (not_not.mpr (serverDraws.plain_length sodium)), serverDraws.slice_plain, serverDraws.slice_plain_zero]

/-! ## The exchange -/

/-- What was encrypted decrypts to what it was. -/
theorem Sodium.Lawful.decrypts (h : sodium.Lawful) {key : SharedKey} {plain : Bytes}
    (hencrypt : encryptDataSymmetric sodium key nonce plain = some encrypted) :
    decryptDataSymmetric sodium key nonce encrypted = some plain := by
  have hplain : plain.length ≠ 0 := by
    intro hempty
    rw [encryptDataSymmetric, if_pos hempty] at hencrypt
    contradiction
  obtain ⟨encrypted', hencrypt', -, hdecrypt⟩ := h.encrypt_decrypt key nonce hplain
  rw [hencrypt] at hencrypt'
  exact Option.some_inj.mp hencrypt' ▸ hdecrypt

/-- A client connection with the key pair of some secret key, to a server with some public key. -/
structure TcpClientHandshake.Uses (sodium : Sodium) (conn : TcpClientHandshake) (selfSecretKey : SecretKey)
    (publicKey : PublicKey) : Prop where
  server : conn.publicKey = publicKey
  self : conn.selfPublicKey = sodium.scalarmultBase selfSecretKey
  shared : conn.sharedKey = sodium.beforenm publicKey selfSecretKey

/-- Encryption is authenticated: what opens with a key and a nonce was encrypted with them. -/
def Sodium.Authentic (sodium : Sodium) : Prop :=
  ∀ key nonce encrypted plain, decryptDataSymmetric sodium key nonce encrypted = some plain →
    encryptDataSymmetric sodium key nonce plain = some encrypted

/-- The box of a handshake is an encryption with some key and the nonce in front of it. -/
def SealedWith (sodium : Sodium) (key : SharedKey) (data : Bytes) : Prop :=
  ∃ plain, encryptDataSymmetric sodium key (slice 24 data 32) plain =
    some (slice (tcpHandshakePlainSize + macBytes) data (32 + 24)).toList

/-- The server accepts a handshake for its key, the client accepts the answer, and both go on with the same key and
nonces. -/
theorem handshake_accepted (h : sodium.Lawful) {clientSecret serverSecret : SecretKey}
    (clientDraws serverDraws : HandshakeDraws)
    (hconn : conn.Uses sodium clientSecret (sodium.scalarmultBase serverSecret)) {con : TcpIncoming}
    (hstatus : con.status = .connected) : ∃ client data server client',
    generateHandshake sodium clientDraws conn = (true, client) ∧
      handleTcpHandshake sodium serverDraws true con client.packet serverSecret = (true, some data, server) ∧
      server.status = .unconfirmed ∧ server.publicKey = sodium.scalarmultBase clientSecret ∧
      data.length = tcpServerHandshakeSize ∧ handleHandshake sodium client data = (true, client') ∧
      client'.sharedKey = server.sharedKey ∧ client'.recvNonce = server.sentNonce ∧
        server.recvNonce = client'.sentNonce := by
  have hgenerated := generateHandshake_succeeds h clientDraws conn
  obtain ⟨client, hclient⟩ : ∃ client, generateHandshake sodium clientDraws conn = (true, client) :=
    ⟨_, Prod.ext hgenerated rfl⟩
  obtain ⟨encrypted, hencrypt, hpacket, hkey, htemp, hsent⟩ := generateHandshake_packet hclient
  have hshared : conn.sharedKey = sodium.beforenm (sodium.scalarmultBase clientSecret) serverSecret :=
    hconn.shared.trans (h.beforenm_comm _ _)
  rw [hshared] at hencrypt hkey
  have hdecrypt := h.decrypts hencrypt
  obtain ⟨answer, hanswer, hlength, hhandled⟩ := handleTcpHandshake_accepts h hstatus hdecrypt
  have hanswered := h.decrypts hanswer
  rw [← hkey] at hanswered
  rw [hconn.self] at hpacket
  refine ⟨client, _, _, _,
    hclient, by rw [hpacket]; exact hhandled, rfl, rfl, ?_, handleHandshake_accepts hanswered, ?_, rfl,
    hsent.symm⟩
  · rw [length_append, List.Vector.toList_length, hlength]
    rfl
  · dsimp only
    rw [htemp]
    exact h.beforenm_comm _ _

/-- A handshake whose box was not encrypted for this server, with the nonce in front of it, is rejected. -/
theorem handshake_rejected (h : sodium.Authentic) {clientSecret serverSecret otherSecret : SecretKey}
    (hconn : conn.Uses sodium clientSecret (sodium.scalarmultBase otherSecret))
    (hclient : generateHandshake sodium clientDraws conn = (true, client)) {data : Bytes}
    (hkey : data.take 32 = client.packet.take 32) (hsealed : data.length = tcpClientHandshakeSize →
      ¬SealedWith sodium (sodium.beforenm (sodium.scalarmultBase clientSecret) serverSecret) data) (sends : Bool)
    (con : TcpIncoming) : handleTcpHandshake sodium serverDraws sends con data serverSecret = (false, none, con) := by
  obtain ⟨encrypted, -, hpacket, -, -, -⟩ := generateHandshake_packet hclient
  rw [hconn.self] at hpacket
  rw [handleTcpHandshake]
  by_cases hlength : data.length = tcpClientHandshakeSize
  · have hpublicKey : slice 32 data 0 = sodium.scalarmultBase clientSecret := by
      apply List.Vector.toList_injective
      rw [slice_toList (by rw [hlength]; decide), drop_zero, hkey, hpacket,
        take_left' (List.Vector.toList_length _)]
    have hopens : decryptDataSymmetric sodium (sodium.beforenm (slice 32 data 0) serverSecret) (slice 24 data 32)
        (slice (tcpHandshakePlainSize + macBytes) data (32 + 24)).toList = none := by
      rw [hpublicKey, Option.eq_none_iff_forall_ne_some]
      exact fun plain hplain => hsealed hlength ⟨plain, h _ _ _ _ hplain⟩
    rw [if_neg (not_not.mpr hlength)]
    dsimp only
    rw [hopens, ite_self]
  · rw [if_pos hlength]

theorem tcpClientHandshake_new (sodium : Sodium) (selfSecretKey : SecretKey) (publicKey : PublicKey) :
    (TcpClientHandshake.new sodium selfSecretKey publicKey).Uses sodium selfSecretKey publicKey := ⟨rfl, rfl, rfl⟩

/-- The authenticator of a library that adds up all bytes. -/
def sumOf (key : SharedKey) (nonce : Nonce) (plain : Bytes) : Bytes :=
  List.replicate macBytes ((key.toList ++ nonce.toList ++ plain).foldl (· + ·) 0)

/-- A library that appends the sum of all bytes, and checks it. -/
def Sodium.summed : Sodium :=
  { Sodium.plain with
    afternm := fun key nonce plain => some ⟨plain ++ sumOf key nonce plain, by simp [sumOf]⟩
    openAfternm := fun key nonce encrypted =>
      if encrypted.drop (encrypted.length - macBytes) =
        sumOf key nonce (encrypted.take (encrypted.length - macBytes)) then
        some ⟨encrypted.take (encrypted.length - macBytes), take_macBytes_length encrypted⟩
      else none }

/-- The library with sums is lawful. -/
theorem Sodium.summed_lawful : Sodium.summed.Lawful where
  beforenm_comm := Sodium.plain_lawful.beforenm_comm
  afternm_open key nonce plain := by
    refine ⟨_, rfl, ?_⟩
    have hlength : (plain ++ sumOf key nonce plain).length - macBytes = plain.length := by simp [sumOf]
    have htake : (plain ++ sumOf key nonce plain).take ((plain ++ sumOf key nonce plain).length - macBytes) =
      plain := by
      rw [hlength, take_left]
    have hdrop : (plain ++ sumOf key nonce plain).drop ((plain ++ sumOf key nonce plain).length - macBytes) =
        sumOf key nonce plain := by
      rw [hlength, drop_left]
    simp only [Sodium.summed, List.Vector.toList_mk]
    rw [if_pos (by rw [hdrop, htake])]
    exact congrArg some htake

/-- It opens only what it sealed. -/
theorem Sodium.summed_authentic : Sodium.summed.Authentic := by
  intro key nonce encrypted plain h
  unfold decryptDataSymmetric at h
  split at h
  · contradiction
  · rename_i hlong
    simp only [Sodium.summed] at h
    split at h
    · rename_i hsum
      obtain rfl := Option.some_inj.mp h
      rw [encryptDataSymmetric, if_neg (by simp only [List.Vector.toList_mk, length_take]; omega)]
      refine congrArg some (Eq.trans ?_ (take_append_drop (encrypted.length - macBytes) encrypted))
      exact congrArg _ hsum.symm
    · contradiction

/-- A handshake between a client and the server whose key it uses is agreed on: the server records the key of the
client, and both have the same key and each the nonce of the other. A handshake that was made for another server, or
altered behind the public key, is rejected, and nothing changes: its box is no encryption with the key that the client
shares with this server. -/
theorem tcp_handshake_agrees (sodium : Sodium) (h : sodium.Lawful) (clientSecret serverSecret : SecretKey)
    (clientDraws serverDraws : HandshakeDraws) (con : TcpIncoming) :
    (con.status = .connected → ∀ conn : TcpClientHandshake,
      conn.Uses sodium clientSecret (sodium.scalarmultBase serverSecret) → ∃ client data server client',
        generateHandshake sodium clientDraws conn = (true, client) ∧
          handleTcpHandshake sodium serverDraws true con client.packet serverSecret = (true, some data, server) ∧
          server.status = .unconfirmed ∧ server.publicKey = sodium.scalarmultBase clientSecret ∧
          data.length = tcpServerHandshakeSize ∧ handleHandshake sodium client data = (true, client') ∧
          client'.sharedKey = server.sharedKey ∧ client'.recvNonce = server.sentNonce ∧
          server.recvNonce = client'.sentNonce) ∧
    (sodium.Authentic → ∀ (otherSecret : SecretKey) (conn client : TcpClientHandshake),
      conn.Uses sodium clientSecret (sodium.scalarmultBase otherSecret) →
      generateHandshake sodium clientDraws conn = (true, client) →
      ∀ data : Bytes, data.take 32 = client.packet.take 32 →
        (data.length = tcpClientHandshakeSize →
          ¬SealedWith sodium (sodium.beforenm (sodium.scalarmultBase clientSecret) serverSecret) data) →
        ∀ sends, handleTcpHandshake sodium serverDraws sends con data serverSecret = (false, none, con)) :=
  ⟨fun hstatus _ hconn => handshake_accepted h clientDraws serverDraws hconn hstatus,
    fun hauthentic _ _ _ hconn hclient _ hkey hsealed sends =>
      handshake_rejected hauthentic hconn hclient hkey hsealed sends con⟩

/-- Draws that the client and the server both make. -/
def sampleDraws : HandshakeDraws := ⟨slice 32 [1] 0, slice 24 [2] 0, slice 24 [3] 0⟩

/-- A connection that was accepted. -/
def sampleIncoming : TcpIncoming := ⟨{ TcpSecureConnection.zero with status := .connected }, slice 24 [] 0⟩

/-- The connection of the client with the secret key 4 to the server with some key, after its handshake was
generated. -/
def sampleClient (serverSecret : SecretKey) : TcpClientHandshake :=
  (generateHandshake .summed sampleDraws (.new .summed (slice 32 [4] 0) serverSecret)).2

/-- A handshake does not have the sum of the bytes where the library does not open it. -/
theorem summed_not_sealed {key : SharedKey} {data : Bytes} (h : decryptDataSymmetric .summed key (slice 24 data 32)
    (slice (tcpHandshakePlainSize + macBytes) data (32 + 24)).toList = none) : ¬SealedWith .summed key data := by
  rintro ⟨plain, hplain⟩
  rw [Sodium.summed_lawful.decrypts hplain] at h
  contradiction

/-- A handshake of the client 4 with the server 5. The same handshake with another nonce, and one for the server 6,
are rejected. -/
theorem tcp_handshake_agrees_sample :
    (∃ client data server client',
      generateHandshake .summed sampleDraws (.new .summed (slice 32 [4] 0) (slice 32 [5] 0)) = (true, client) ∧
        handleTcpHandshake .summed sampleDraws true sampleIncoming client.packet (slice 32 [5] 0) =
          (true, some data, server) ∧
        server.status = .unconfirmed ∧ server.publicKey = slice 32 [4] 0 ∧ data.length = tcpServerHandshakeSize ∧
        handleHandshake .summed client data = (true, client') ∧ client'.sharedKey = server.sharedKey ∧
        client'.recvNonce = server.sentNonce ∧ server.recvNonce = client'.sentNonce) ∧
      handleTcpHandshake .summed sampleDraws true sampleIncoming ((sampleClient (slice 32 [5] 0)).packet.set 40 7)
        (slice 32 [5] 0) = (false, none, sampleIncoming) ∧
      handleTcpHandshake .summed sampleDraws true sampleIncoming (sampleClient (slice 32 [6] 0)).packet
        (slice 32 [5] 0) = (false, none, sampleIncoming) := by
  have hagrees := tcp_handshake_agrees .summed Sodium.summed_lawful (slice 32 [4] 0) (slice 32 [5] 0) sampleDraws
    sampleDraws sampleIncoming
  refine ⟨hagrees.1 rfl _ (tcpClientHandshake_new _ _ _), ?_, ?_⟩
  · exact hagrees.2 Sodium.summed_authentic (slice 32 [5] 0) _ _ (tcpClientHandshake_new _ _ _) (Prod.ext rfl rfl) _
      (by decide +kernel) (fun _ => summed_not_sealed (by decide +kernel)) true
  · exact hagrees.2 Sodium.summed_authentic (slice 32 [6] 0) _ _ (tcpClientHandshake_new _ _ _) (Prod.ext rfl rfl) _
      rfl (fun _ => summed_not_sealed (by decide +kernel)) true

end Handshakes

end Toxcore
