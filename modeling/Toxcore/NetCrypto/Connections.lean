import Mathlib.Data.List.DropRight
import Toxcore.NetCrypto.Handshake
import Toxcore.NetCrypto.DataPackets

/-!
# The table of crypto connections

Connections are created in the first free slot, killed by wiping their slot, and the table shrinks
from its end only. `ip_port_list` is the reverse index from the direct addresses of connections.

Some of these functions call the application. A `World` pairs the state of `Net_Crypto` with that of
the application, and the callbacks take worlds to worlds: they may call back into `Net_Crypto`. A
callback that is not set is one that leaves the world alone.
-/

namespace Toxcore

open ByteStrings

/-- `New_Connection`; the length field is the length of `cookie`. -/
structure NewConnection where
  source : IpPort
  publicKey : PublicKey
  dhtPublicKey : PublicKey
  recvNonce : Nonce
  peersessionPublicKey : PublicKey
  cookie : Bytes

/-- The state of `Net_Crypto` and that of the application. -/
structure World (α : Type) where
  net : NetCrypto
  app : α

/-- Write through a pointer to a connection. -/
def World.write {α : Type} (w : World α) (id : ℕ) (conn : CryptoConnection) : World α :=
  { w with net := w.net.setConnection id conn }

variable {conn : CryptoConnection}

theorem World.write_get {α : Type} {w : World α} {id : ℕ} {old : CryptoConnection}
    (hold : w.net.cryptoConnections[id]? = some old) (hlive : conn.status ≠ .noConnection) :
    (w.write id conn).net.getCryptoConnection id = some conn :=
  NetCrypto.setConnection_get hold hlive

/-- Write some fields of a connection in place. -/
def World.modify {α : Type} (w : World α) (id : ℕ) (f : CryptoConnection → CryptoConnection) : World α :=
  { w with net := w.net.modifyConnection id f }

/-- The callbacks of the application, given the id of the connection they are about. -/
structure Callbacks (α : Type) where
  connectionStatus : World α → ℕ → Bool → World α
  connectionData : World α → ℕ → Bytes → World α
  connectionLossyData : World α → ℕ → Bytes → World α
  dhtPk : World α → ℕ → PublicKey → World α
  newConnection : World α → NewConnection → Bool × World α

/-- One of the callbacks takes a world to another. -/
inductive Callbacks.Calls {α : Type} (callbacks : Callbacks α) : World α → World α → Prop
  | connectionStatus (w : World α) (id : ℕ) (status : Bool) : Calls callbacks w (callbacks.connectionStatus w id status)
  | connectionData (w : World α) (id : ℕ) (data : Bytes) : Calls callbacks w (callbacks.connectionData w id data)
  | connectionLossyData (w : World α) (id : ℕ) (data : Bytes) :
      Calls callbacks w (callbacks.connectionLossyData w id data)
  | dhtPk (w : World α) (id : ℕ) (dhtPublicKey : PublicKey) : Calls callbacks w (callbacks.dhtPk w id dhtPublicKey)
  | newConnection (w : World α) (nC : NewConnection) : Calls callbacks w (callbacks.newConnection w nC).2

/-- The callbacks of an application that sets none. -/
def Callbacks.unset {α : Type} : Callbacks α where
  connectionStatus w _ _ := w
  connectionData w _ _ := w
  connectionLossyData w _ _ := w
  dhtPk w _ _ := w
  newConnection w _ := (false, w)

/-- `PACKET_ID_KILL`. -/
def packetIdKill : UInt8 := 2

namespace NetCrypto

/-- `add_ip_port_connection`: a new address is added to the index before the old one is removed. -/
def addIpPortConnection (env : Env) (c : NetCrypto) (id : ℕ) (ipPort : IpPort) : Bool × NetCrypto :=
  match c.getCryptoConnection id with
  | none => (false, c)
  | some conn =>
    if ipPort.ip.family = afInet then
      if ipportEqual ipPort conn.ipPortv4 = false ∧ lanIp conn.ipPortv4.ip = false then
        match bsListAdd (env.alloc .indexGrow) c.ipPortList ipPort.stored id with
        | (false, _) => (false, c)
        | (true, list) =>
          let list := (bsListRemove (env.alloc .indexShrink) list conn.ipPortv4.stored id).2
          (true, { c with ipPortList := list }.setConnection id { conn with ipPortv4 := ipPort })
      else (false, c)
    else if ipPort.ip.family = afInet6 then
      if ipportEqual ipPort conn.ipPortv6 = false then
        match bsListAdd (env.alloc .indexGrow) c.ipPortList ipPort.stored id with
        | (false, _) => (false, c)
        | (true, list) =>
          let list := (bsListRemove (env.alloc .indexShrink) list conn.ipPortv6.stored id).2
          (true, { c with ipPortList := list }.setConnection id { conn with ipPortv6 := ipPort })
      else (false, c)
    else (false, c)

/-- The time of the last direct packet, written for the family of an address. -/
def setDirectLastrecvTime (time : UInt64) (ipPort : IpPort) (conn : CryptoConnection) : CryptoConnection :=
  if ipPort.ip.family = afInet then { conn with directLastrecvTimev4 := time }
  else { conn with directLastrecvTimev6 := time }

/-- `crypto_connection_add_source`: `some 0` for a direct source, `some 1` for a relay. -/
def cryptoConnectionAddSource (env : Env) (c : NetCrypto) (id : ℕ) (source : IpPort) :
    Option ℕ × NetCrypto :=
  match c.getCryptoConnection id with
  | none => (none, c)
  | some conn =>
    if source.ip.family = afInet ∨ source.ip.family = afInet6 then
      let (ok, c) := addIpPortConnection env c id source
      if ok then (some 0, c.modifyConnection id (setDirectLastrecvTime env.unixTime source)) else (none, c)
    else if source.ip.family = tcpFamily ∧
        env.addTcpNumberRelayConnection conn.connectionNumberTcp source.ip.ip4 then (some 1, c)
    else (none, c)

/-- `set_direct_ip_port`. -/
def setDirectIpPort (env : Env) (c : NetCrypto) (id : ℕ) (ipPort : IpPort) (connected : Bool) :
    Bool × NetCrypto :=
  match c.getCryptoConnection id with
  | none => (false, c)
  | some _ =>
    let (ok, c) := addIpPortConnection env c id ipPort
    if ok then
      (true, c.modifyConnection id (setDirectLastrecvTime (if connected then env.unixTime else 0) ipPort))
    else (false, c)

/-- `create_crypto_connection`: a free slot, or a new one at the end. -/
def createCryptoConnection (env : Env) (c : NetCrypto) : Option ℕ × NetCrypto :=
  match c.cryptoConnections.findIdx? fun conn => conn.status = .noConnection with
  | some id => (some id, c)
  | none =>
    if env.alloc .table = false then (none, c)
    else
      let id := c.cryptoConnections.length
      let c := { c with cryptoConnections := c.cryptoConnections ++ [.zero] }
      (if env.alloc .mutex then some id else none, c)

variable {c c' : NetCrypto} {env : Env} {id : ℕ} {sodium : Sodium}

/-- A connection is created in a free slot, which may be a new one at the end. -/
theorem createCryptoConnection_spec {result : Option ℕ} (h : createCryptoConnection env c = (result, c')) :
    (c' = c ∨ c' = { c with cryptoConnections := c.cryptoConnections ++ [.zero] }) ∧
      ∀ id, result = some id → ∃ conn, c'.cryptoConnections[id]? = some conn ∧ conn.status = .noConnection := by
  unfold createCryptoConnection at h
  split at h
  · rename_i i hfree
    obtain ⟨rfl, rfl⟩ := Prod.mk.inj h
    refine ⟨.inl rfl, fun id hid => ?_⟩
    obtain rfl := Option.some_inj.mp hid
    obtain ⟨hlt, hstatus, -⟩ := List.findIdx?_eq_some_iff_getElem.mp hfree
    exact ⟨_, List.getElem?_eq_getElem hlt, of_decide_eq_true hstatus⟩
  · split at h
    · obtain ⟨rfl, rfl⟩ := Prod.mk.inj h
      exact ⟨.inl rfl, nofun⟩
    · obtain ⟨rfl, rfl⟩ := Prod.mk.inj h
      refine ⟨.inr rfl, fun id hid => ⟨.zero, ?_, rfl⟩⟩
      split at hid
      · obtain rfl := Option.some_inj.mp hid
        exact List.getElem?_concat_length
      · contradiction

/-- `wipe_crypto_connection`: clear a slot and cut the free slots off the end of the table. -/
def wipeCryptoConnection (c : NetCrypto) (id : ℕ) : NetCrypto :=
  { c with
    cryptoConnections :=
      (c.cryptoConnections.set id .zero).rdropWhile fun conn => conn.status = .noConnection }

/-- `getcryptconnection_id`. -/
def getcryptconnectionId (c : NetCrypto) (publicKey : PublicKey) : Option ℕ :=
  c.cryptoConnections.findIdx? fun conn => conn.status ≠ .noConnection ∧ conn.publicKey = publicKey

/-- The connection that is found has the key. -/
theorem getcryptconnectionId_some {publicKey : PublicKey} (h : getcryptconnectionId c publicKey = some id) :
    ∃ conn, c.getCryptoConnection id = some conn ∧ conn.publicKey = publicKey := by
  obtain ⟨hlt, hfound, -⟩ := List.findIdx?_eq_some_iff_getElem.mp h
  obtain ⟨hlive, hkey⟩ := of_decide_eq_true hfound
  exact ⟨_, getCryptoConnection_eq_some.mpr ⟨List.getElem?_eq_getElem hlt, hlive⟩, hkey⟩

/-- Where none is found, none has the key. -/
theorem getcryptconnectionId_none {publicKey : PublicKey} (h : getcryptconnectionId c publicKey = none)
    (hmem : conn ∈ c.cryptoConnections) (hlive : conn.status ≠ .noConnection) : conn.publicKey ≠ publicKey := by
  intro hkey
  have hnot := List.findIdx?_eq_none_iff.mp h conn hmem
  exact of_decide_eq_false hnot ⟨hlive, hkey⟩

/-- `create_send_handshake`. -/
def createSendHandshake (sodium : Sodium) (env : Env) (c : NetCrypto) (id : ℕ) (cookie : Cookie)
    (dhtPublicKey : PublicKey) : Bool × NetCrypto :=
  match c.getCryptoConnection id with
  | none => (false, c)
  | some conn =>
    match createCryptoHandshake sodium env c cookie conn.sentNonce conn.sessionPublicKey conn.publicKey
        dhtPublicKey with
    | none => (false, c)
    | some packet =>
      let (ok, c) := newTempPacket env c id packet
      if ok then (true, (sendTempPacket env c id).2) else (false, c)

/-- A handshake is made and sent. -/
theorem createSendHandshake_sendsOnly (sodium : Sodium) (env : Env) (c : NetCrypto) (id : ℕ) (cookie : Cookie)
    (dhtPublicKey : PublicKey) : SendsOnly c (createSendHandshake sodium env c id cookie dhtPublicKey).2 := by
  unfold createSendHandshake
  split
  · exact .refl c
  · split
    · exact .refl c
    · rename_i packet _
      have hnew := newTempPacket_sendsOnly env c id packet
      dsimp only
      split
      · exact hnew.trans (sendTempPacket_sendsOnly env _ id)
      · exact hnew

/-- Whatever it returns. -/
theorem createSendHandshake_sent {cookie : Cookie} {dhtPublicKey : PublicKey} {ok : Bool}
    (h : createSendHandshake sodium env c id cookie dhtPublicKey = (ok, c')) : SendsOnly c c' := by
  have hsends := createSendHandshake_sendsOnly sodium env c id cookie dhtPublicKey
  rwa [h] at hsends

/-- A handshake is sent for a live connection only. -/
theorem createSendHandshake_live {cookie : Cookie} {dhtPublicKey : PublicKey}
    (h : createSendHandshake sodium env c id cookie dhtPublicKey = (true, c')) :
    SendsOnly c c' ∧ ∃ conn conn', c.getCryptoConnection id = some conn ∧
      c'.getCryptoConnection id = some conn' ∧ quiet conn' = quiet conn := by
  have hsends := createSendHandshake_sent h
  cases hconn : c.getCryptoConnection id with
  | none =>
    rw [createSendHandshake, hconn] at h
    exact absurd (Prod.mk.inj h).1 Bool.false_ne_true
  | some conn =>
    obtain ⟨conn', hconn', hquiet⟩ := hsends.getCryptoConnection hconn
    exact ⟨hsends, conn, conn', rfl, hconn', hquiet⟩

/-- With memory for it the handshake of a live connection is sent. -/
theorem createSendHandshake_succeeds (h : sodium.Encrypts) (hconn : c.getCryptoConnection id = some conn)
    (halloc : env.alloc .tempPacket = true) (cookie : Cookie) (dhtPublicKey : PublicKey) :
    (createSendHandshake sodium env c id cookie dhtPublicKey).1 = true := by
  obtain ⟨packet, hpacket, hlen⟩ := h.createCryptoHandshake env c cookie conn.sentNonce conn.sessionPublicKey
    conn.publicKey dhtPublicKey
  have hnew : (newTempPacket env c id packet).1 = true := by
    have hsize : ¬(packet.length = 0 ∨ packet.length > maxCryptoPacketSize) := by rw [hlen]; decide
    simp only [newTempPacket, if_neg hsize, hconn, halloc, Bool.true_eq_false, if_false]
  simp only [createSendHandshake, hconn, hpacket, hnew, if_true]

/-- The counters a new connection starts with. -/
def startCounters (conn : CryptoConnection) : CryptoConnection :=
  { conn with packetsLeft := cryptoMinQueueLength, rttTime := defaultPingConnection }

/-- The connection `accept_crypto_connection` makes of a slot. -/
def acceptedConnection (sodium : Sodium) (env : Env) (nC : NewConnection) (connectionNumberTcp : UInt32)
    (conn : CryptoConnection) : CryptoConnection :=
  { conn with
    connectionNumberTcp := connectionNumberTcp
    publicKey := nC.publicKey
    recvNonce := nC.recvNonce
    peersessionPublicKey := nC.peersessionPublicKey
    sentNonce := env.sentNonce
    sessionPublicKey := sodium.scalarmultBase env.sessionSecretKey
    sessionSecretKey := env.sessionSecretKey
    sharedKey := sodium.beforenm nC.peersessionPublicKey env.sessionSecretKey
    status := .notConfirmed }

/-- `accept_crypto_connection`. -/
def acceptCryptoConnection (sodium : Sodium) (env : Env) (c : NetCrypto) (nC : NewConnection) :
    Option ℕ × NetCrypto :=
  if getcryptconnectionId c nC.publicKey ≠ none then (none, c)
  else
    match createCryptoConnection env c with
    | (none, c) => (none, c)
    | (some id, c) =>
      if nC.cookie.length ≠ cookieLength then (none, c)
      else
        match env.newTcpConnectionTo nC.dhtPublicKey id with
        | none => (none, c)
        | some connectionNumberTcp =>
          let c := c.modifyConnection id (acceptedConnection sodium env nC connectionNumberTcp)
          match createSendHandshake sodium env c id (slice cookieLength nC.cookie 0) nC.dhtPublicKey with
          | (false, c) => (none, c.modifyConnection id fun conn => { conn with status := .noConnection })
          | (true, c) =>
            let c := c.modifyConnection id fun conn =>
              startCounters { conn with dhtPublicKey := nC.dhtPublicKey }
            (some id, (cryptoConnectionAddSource env c id nC.source).2)

/-- The connection `new_crypto_connection` makes of a slot. -/
def requestingConnection (sodium : Sodium) (env : Env) (realPublicKey dhtPublicKey : PublicKey)
    (connectionNumberTcp : UInt32) (sharedKey : SharedKey) (conn : CryptoConnection) : CryptoConnection :=
  startCounters
    { conn with
      connectionNumberTcp := connectionNumberTcp
      publicKey := realPublicKey
      sentNonce := env.sentNonce
      sessionPublicKey := sodium.scalarmultBase env.sessionSecretKey
      sessionSecretKey := env.sessionSecretKey
      status := .cookieRequesting
      dhtPublicKey := dhtPublicKey
      cookieRequestNumber := env.cookieRequestNumber
      sharedKey := sharedKey }

/-- `new_crypto_connection`. -/
def newCryptoConnection (sodium : Sodium) (env : Env) (c : NetCrypto) (realPublicKey dhtPublicKey : PublicKey) :
    Option ℕ × NetCrypto :=
  match getcryptconnectionId c realPublicKey with
  | some id => (some id, c)
  | none =>
    match createCryptoConnection env c with
    | (none, c) => (none, c)
    | (some id, c) =>
      match env.newTcpConnectionTo dhtPublicKey id with
      | none => (none, c)
      | some connectionNumberTcp =>
        let (request, sharedKey, c) :=
          createCookieRequest sodium env c dhtPublicKey env.cookieRequestNumber
        let c := c.modifyConnection id
          (requestingConnection sodium env realPublicKey dhtPublicKey connectionNumberTcp sharedKey)
        match request with
        | none => (none, c.modifyConnection id fun conn => { conn with status := .noConnection })
        | some packet =>
          match newTempPacket env c id packet with
          | (false, c) => (none, c.modifyConnection id fun conn => { conn with status := .noConnection })
          | (true, c) => (some id, c)

/-! ## What becomes of the slot of a new connection -/

/-- A slot is found for a new connection and filled, and its first packet is prepared; where that fails, the slot is
given up again. -/
inductive Fills (env : Env) (c : NetCrypto) (fill : CryptoConnection → CryptoConnection) : Option ℕ → NetCrypto → Prop
  | unfilled {result : Option ℕ} {c' : NetCrypto} (created : createCryptoConnection env c = (result, c')) :
    Fills env c fill none c'
  | givenUp {id : ℕ} {c₁ c₃ : NetCrypto} (dht : DhtKeys) (created : createCryptoConnection env c = (some id, c₁))
    (sends : SendsOnly ({ c₁ with dht := dht }.modifyConnection id fill) c₃) :
    Fills env c fill none (c₃.modifyConnection id fun conn => { conn with status := .noConnection })
  | filled {id : ℕ} {c₁ c₃ : NetCrypto} (dht : DhtKeys) (created : createCryptoConnection env c = (some id, c₁))
    (sends : SendsOnly ({ c₁ with dht := dht }.modifyConnection id fill) c₃) : Fills env c fill (some id) c₃

variable {result : Option ℕ}

/-- A connection of a peer is accepted in a free place, or nothing changes. -/
theorem acceptCryptoConnection_cases {nC : NewConnection} (h : acceptCryptoConnection sodium env c nC = (result, c')) :
    (result = none ∧ c' = c) ∨ getcryptconnectionId c nC.publicKey = none ∧
      ∃ number c₃, Fills env c (acceptedConnection sodium env nC number) result c₃ ∧
        ((result = none ∧ c' = c₃) ∨ ∃ id, result = some id ∧ c' = (cryptoConnectionAddSource env
          (c₃.modifyConnection id fun conn =>
            startCounters { conn with dhtPublicKey := nC.dhtPublicKey }) id nC.source).2) := by
  unfold acceptCryptoConnection at h
  split at h
  · exact .inl (by obtain ⟨rfl, rfl⟩ := Prod.mk.inj h; exact ⟨rfl, rfl⟩)
  · rename_i hnone
    refine .inr ⟨not_not.mp hnone, ?_⟩
    split at h
    · rename_i c₁ hcreate
      obtain ⟨rfl, rfl⟩ := Prod.mk.inj h
      exact ⟨0, _, .unfilled hcreate, .inl ⟨rfl, rfl⟩⟩
    · rename_i id c₁ hcreate
      split at h
      · obtain ⟨rfl, rfl⟩ := Prod.mk.inj h
        exact ⟨0, _, .unfilled hcreate, .inl ⟨rfl, rfl⟩⟩
      · split at h
        · obtain ⟨rfl, rfl⟩ := Prod.mk.inj h
          exact ⟨0, _, .unfilled hcreate, .inl ⟨rfl, rfl⟩⟩
        · rename_i number _
          dsimp only at h
          split at h
          · rename_i hsend
            obtain ⟨rfl, rfl⟩ := Prod.mk.inj h
            exact ⟨number, _, .givenUp c₁.dht hcreate (createSendHandshake_sent hsend), .inl ⟨rfl, rfl⟩⟩
          · rename_i hsend
            obtain ⟨rfl, rfl⟩ := Prod.mk.inj h
            exact ⟨number, _, .filled c₁.dht hcreate (createSendHandshake_sent hsend), .inr ⟨id, rfl, rfl⟩⟩

/-- A connection is there, is requested in a free place, or nothing changes. -/
theorem newCryptoConnection_cases {realPublicKey dhtPublicKey : PublicKey}
    (h : newCryptoConnection sodium env c realPublicKey dhtPublicKey = (result, c')) :
    (∃ id, getcryptconnectionId c realPublicKey = some id ∧ c' = c) ∨ getcryptconnectionId c realPublicKey = none ∧
      ∃ number sharedKey,
        Fills env c (requestingConnection sodium env realPublicKey dhtPublicKey number sharedKey) result c' := by
  unfold newCryptoConnection at h
  split at h
  · rename_i id hid
    obtain ⟨-, rfl⟩ := Prod.mk.inj h
    exact .inl ⟨id, hid, rfl⟩
  · rename_i hnone
    refine .inr ⟨hnone, ?_⟩
    split at h
    · rename_i c₁ hcreate
      obtain ⟨rfl, rfl⟩ := Prod.mk.inj h
      exact ⟨0, realPublicKey, .unfilled hcreate⟩
    · rename_i id c₁ hcreate
      split at h
      · obtain ⟨rfl, rfl⟩ := Prod.mk.inj h
        exact ⟨0, realPublicKey, .unfilled hcreate⟩
      · rename_i number _
        obtain ⟨dht, hnet⟩ := createCookieRequest_net sodium env c₁ dhtPublicKey env.cookieRequestNumber
        refine ⟨number, (createCookieRequest sodium env c₁ dhtPublicKey env.cookieRequestNumber).2.1, ?_⟩
        dsimp only at h
        rw [hnet] at h
        split at h
        · obtain ⟨rfl, rfl⟩ := Prod.mk.inj h
          exact .givenUp dht hcreate (.refl _)
        · rename_i packet _
          have hsends :=
            newTempPacket_sendsOnly env ({ c₁ with dht := dht }.modifyConnection id (requestingConnection sodium
            env realPublicKey dhtPublicKey number
              (createCookieRequest sodium env c₁ dhtPublicKey env.cookieRequestNumber).2.1))
            id packet
          split at h
          · rename_i hsend
            obtain ⟨rfl, rfl⟩ := Prod.mk.inj h
            rw [hsend] at hsends
            exact .givenUp dht hcreate hsends
          · rename_i hsend
            obtain ⟨rfl, rfl⟩ := Prod.mk.inj h
            rw [hsend] at hsends
            exact .filled dht hcreate hsends

/-- Register a callback of a live connection. -/
def setCallback (c : NetCrypto) (id : ℕ) (register : CryptoConnection → CryptoConnection) : Bool × NetCrypto :=
  match c.getCryptoConnection id with
  | none => (false, c)
  | some conn => (true, c.setConnection id (register conn))

/-- `connection_status_handler`. -/
def connectionStatusHandler (c : NetCrypto) (id number : ℕ) : Bool × NetCrypto :=
  setCallback c id fun conn => { conn with connectionStatusCallback := some number }

/-- `connection_data_handler`. -/
def connectionDataHandler (c : NetCrypto) (id number : ℕ) : Bool × NetCrypto :=
  setCallback c id fun conn => { conn with connectionDataCallback := some number }

/-- `connection_lossy_data_handler`. -/
def connectionLossyDataHandler (c : NetCrypto) (id number : ℕ) : Bool × NetCrypto :=
  setCallback c id fun conn => { conn with connectionLossyDataCallback := some number }

/-- `nc_dht_pk_callback`. -/
def ncDhtPkCallback (c : NetCrypto) (id number : ℕ) : Bool × NetCrypto :=
  setCallback c id fun conn => { conn with dhtPkCallback := some number }

/-- `send_kill_packet`. -/
def sendKillPacket (sodium : Sodium) (env : Env) (c : NetCrypto) (id : ℕ) : Bool × NetCrypto :=
  match c.getCryptoConnection id with
  | none => (false, c)
  | some conn =>
    sendDataPacketHelper sodium env c id conn.recvArray.bufferStart conn.sendArray.bufferEnd [packetIdKill]

/-- A kill packet is sent. -/
theorem sendKillPacket_sendsOnly (sodium : Sodium) (env : Env) (c : NetCrypto) (id : ℕ) :
    SendsOnly c (sendKillPacket sodium env c id).2 := by
  unfold sendKillPacket
  split
  · exact .refl c
  · exact sendDataPacketHelper_sendsOnly sodium env c id _ _ _

/-- `crypto_kill`. The temporary packet and the packet arrays it frees are wiped with the slot. -/
def cryptoKill (sodium : Sodium) (env : Env) (c : NetCrypto) (id : ℕ) : Bool × NetCrypto :=
  match c.getCryptoConnection id with
  | none => (false, c)
  | some conn =>
    let c := if conn.status = .established then (sendKillPacket sodium env c id).2 else c
    let list := (bsListRemove (env.alloc .indexShrink) c.ipPortList conn.ipPortv4.stored id).2
    let list := (bsListRemove (env.alloc .indexShrink) list conn.ipPortv6.stored id).2
    (true, wipeCryptoConnection { c with ipPortList := list } id)

/-- At most a notice is sent before a slot is wiped. -/
theorem killNotice_sendsOnly (sodium : Sodium) (env : Env) (c : NetCrypto) (id : ℕ) (conn : CryptoConnection) :
    SendsOnly c (if conn.status = .established then (sendKillPacket sodium env c id).2 else c) := by
  split
  · exact sendKillPacket_sendsOnly sodium env c id
  · exact .refl c

/-- `connection_kill`. -/
def connectionKill {α : Type} (sodium : Sodium) (callbacks : Callbacks α) (env : Env) (w : World α) (id : ℕ) :
    World α :=
  match w.net.getCryptoConnection id with
  | none => w
  | some _ =>
    let w := callbacks.connectionStatus w id false
    { w with net := (cryptoKill sodium env w.net id).2 }

/-- `handle_new_connection_handshake`. -/
def handleNewConnectionHandshake {α : Type} (sodium : Sodium) (callbacks : Callbacks α) (env : Env)
    (w : World α) (source : IpPort) (data : Bytes) : Bool × World α :=
  if env.alloc .cookie = false then (false, w)
  else
    match handleCryptoHandshake sodium env w.net data none with
    | none => (false, w)
    | some handshake =>
      let nC : NewConnection :=
        ⟨source, handshake.peerRealPk, handshake.dhtPublicKey, handshake.nonce, handshake.sessionPk,
          handshake.cookie.toList⟩
      match getcryptconnectionId w.net nC.publicKey with
      | none => callbacks.newConnection w nC
      | some id =>
        match w.net.getCryptoConnection id with
        | none => (false, w)
        | some conn =>
          if nC.dhtPublicKey ≠ conn.dhtPublicKey then
            callbacks.newConnection (connectionKill sodium callbacks env w id) nC
          else if conn.status = .cookieRequesting ∨ conn.status = .handshakeSent then
            let c := w.net.setConnection id
              { conn with
                recvNonce := nC.recvNonce
                peersessionPublicKey := nC.peersessionPublicKey
                sharedKey := sodium.beforenm nC.peersessionPublicKey conn.sessionSecretKey }
            let c := (cryptoConnectionAddSource env c id source).2
            match createSendHandshake sodium env c id handshake.cookie nC.dhtPublicKey with
            | (false, c) => (false, { w with net := c })
            | (true, c) =>
              (true, { w with net := c.modifyConnection id fun conn => { conn with status := .notConfirmed } })
          else (false, w)

end NetCrypto

end Toxcore
