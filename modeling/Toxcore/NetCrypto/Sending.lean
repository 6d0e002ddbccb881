import Toxcore.NetCrypto.State

/-!
# Sending to the peer of a connection

`send_packet_to`, and the packet that is sent repeatedly until the connection moves on. Sending writes
a handful of bookkeeping fields of the connection; `quiet` clears them, and `SendsOnly` says that a
call changed nothing else.
-/

namespace Toxcore

open ByteStrings List

namespace NetCrypto

/-- The IP_Port that should be used to send to the peer, of family 0 on failure. -/
def returnIpPortConnection (env : Env) (conn : CryptoConnection) : IpPort :=
  let v4 := udpDirectTimeout + conn.directLastrecvTimev4 > env.unixTime
  let v6 := udpDirectTimeout + conn.directLastrecvTimev6 > env.unixTime
  if v4 ∧ lanIp conn.ipPortv4.ip then conn.ipPortv4
  else if v6 ∧ conn.ipPortv6.ip.family = afInet6 then conn.ipPortv6
  else if conn.ipPortv4.ip.family = afInet then conn.ipPortv4
  else .zero

/-- The value `crypto_connection_status` puts in `direct_connected`. -/
def directConnected (env : Env) (conn : CryptoConnection) : Bool :=
  udpDirectTimeout + conn.directLastrecvTimev4 > env.unixTime ||
    udpDirectTimeout + conn.directLastrecvTimev6 > env.unixTime

/-- `send_packet_to`: directly where the peer was heard lately, otherwise through TCP, with a direct
attempt for the packets that may open a direct connection. -/
def sendPacketTo (env : Env) (c : NetCrypto) (id : ℕ) (data : Bytes) : Bool × NetCrypto :=
  match c.getCryptoConnection id with
  | none => (false, c)
  | some conn =>
    let c := { c with sent := c.sent ++ [(id, data)] }
    let ipPort := returnIpPortConnection env conn
    if ipPort.ip.family ≠ 0 ∧ directConnected env conn then (env.sendpacket ipPort data, c)
    else
      let attempt := ipPort.ip.family ≠ 0 ∧
        ((udpDirectTimeout / 2 + conn.directSendAttemptTime > env.unixTime ∧ data.length < 96) ∨
          data.head? = some netPacketCookieRequest ∨ data.head? = some netPacketCryptoHs)
      let directSendAttempt := decide attempt && env.sendpacket ipPort data
      let ret := env.sendPacketTcpConnection conn.connectionNumberTcp data
      (ret || directSendAttempt, c.setConnection id
        { conn with
          directSendAttemptTime := if directSendAttempt then env.unixTime else conn.directSendAttemptTime
          lastTcpSent := if ret then env.monotonicTime else conn.lastTcpSent })

/-! ## The packet sent repeatedly -/

/-- `new_temp_packet`. -/
def newTempPacket (env : Env) (c : NetCrypto) (id : ℕ) (packet : Bytes) : Bool × NetCrypto :=
  if packet.length = 0 ∨ packet.length > maxCryptoPacketSize then (false, c)
  else
    match c.getCryptoConnection id with
    | none => (false, c)
    | some conn =>
      if env.alloc .tempPacket = false then (false, c)
      else (true, c.setConnection id
        { conn with tempPacket := some packet, tempPacketSentTime := 0, tempPacketNumSent := 0 })

/-- The fields `clear_temp_packet` clears. -/
def clearTempPacket (conn : CryptoConnection) : CryptoConnection :=
  { conn with tempPacket := none, tempPacketSentTime := 0, tempPacketNumSent := 0 }

/-- `send_temp_packet`. -/
def sendTempPacket (env : Env) (c : NetCrypto) (id : ℕ) : Bool × NetCrypto :=
  match c.getCryptoConnection id with
  | none => (false, c)
  | some conn =>
    match conn.tempPacket with
    | none => (false, c)
    | some packet =>
      let (ok, c) := sendPacketTo env c id packet
      if ok = false then (false, c)
      else
        match c.getCryptoConnection id with
        | none => (true, c)
        | some conn => (true, c.setConnection id
          { conn with
            tempPacketSentTime := env.monotonicTime, tempPacketNumSent := conn.tempPacketNumSent + 1 })

/-! ## What sending leaves alone -/

/-- A connection without the fields that sending writes. -/
def quiet (conn : CryptoConnection) : CryptoConnection :=
  { conn with
    sentNonce := CryptoConnection.zero.sentNonce
    directSendAttemptTime := 0
    lastTcpSent := 0
    tempPacket := none
    tempPacketSentTime := 0
    tempPacketNumSent := 0 }

/-- A call that only sends: it may write the bookkeeping of connections and the list of packets. -/
structure SendsOnly (c c' : NetCrypto) : Prop where
  connections : c'.cryptoConnections.map quiet = c.cryptoConnections.map quiet
  ipPortList : c'.ipPortList = c.ipPortList
  selfPublicKey : c'.selfPublicKey = c.selfPublicKey
  selfSecretKey : c'.selfSecretKey = c.selfSecretKey
  secretSymmetricKey : c'.secretSymmetricKey = c.secretSymmetricKey
  dht : c'.dht = c.dht

theorem SendsOnly.refl (c : NetCrypto) : SendsOnly c c := ⟨rfl, rfl, rfl, rfl, rfl, rfl⟩

variable {c c' : NetCrypto} {conn : CryptoConnection} {id : ℕ}

theorem SendsOnly.trans {c'' : NetCrypto} (h : SendsOnly c c') (h' : SendsOnly c' c'') : SendsOnly c c'' :=
  ⟨h'.connections.trans h.connections, h'.ipPortList.trans h.ipPortList,
    h'.selfPublicKey.trans h.selfPublicKey, h'.selfSecretKey.trans h.selfSecretKey,
    h'.secretSymmetricKey.trans h.secretSymmetricKey, h'.dht.trans h.dht⟩

/-- Writing back a connection whose bookkeeping alone changed. -/
theorem SendsOnly.setConnection (h : SendsOnly c c') {conn' : CryptoConnection}
    (hconn : c'.cryptoConnections[id]? = some conn) (hquiet : quiet conn' = quiet conn) :
    SendsOnly c (c'.setConnection id conn') := by
  refine ⟨?_, h.ipPortList, h.selfPublicKey, h.selfSecretKey, h.secretSymmetricKey, h.dht⟩
  change (c'.cryptoConnections.set id conn').map quiet = _
  rw [← h.connections, map_set, hquiet]
  apply ext_getElem?
  intro j
  by_cases hj : id = j
  · subst hj
    obtain ⟨hlt, -⟩ := List.getElem?_eq_some_iff.mp hconn
    rw [getElem?_set_self (by simpa using hlt), getElem?_map, hconn, Option.map_some]
  · rw [getElem?_set_ne hj]

/-- A connection after a call that only sends. -/
theorem SendsOnly.get (h : SendsOnly c c') (hconn : c.cryptoConnections[id]? = some conn) :
    ∃ conn', c'.cryptoConnections[id]? = some conn' ∧ quiet conn' = quiet conn := by
  have hmap := congrArg (·[id]?) h.connections
  simp only [getElem?_map, hconn, Option.map_some] at hmap
  exact Option.map_eq_some_iff.mp hmap

/-- A live connection stays live. -/
theorem SendsOnly.getCryptoConnection (h : SendsOnly c c') (hconn : c.getCryptoConnection id = some conn) :
    ∃ conn', c'.getCryptoConnection id = some conn' ∧ quiet conn' = quiet conn := by
  obtain ⟨hget, hlive⟩ := getCryptoConnection_eq_some.mp hconn
  obtain ⟨conn', hget', hquiet⟩ := h.get hget
  have hstatus : (quiet conn').status = (quiet conn).status := congrArg (·.status) hquiet
  refine ⟨conn', getCryptoConnection_eq_some.mpr ⟨hget', ?_⟩, hquiet⟩
  change (quiet conn').status ≠ .noConnection
  rw [hstatus]
  exact hlive

variable (env : Env)

/-- A packet is sent to a connection. -/
theorem sendPacketTo_sendsOnly (c : NetCrypto) (id : ℕ) (data : Bytes) :
    SendsOnly c (sendPacketTo env c id data).2 := by
  unfold sendPacketTo
  split
  · exact .refl c
  · rename_i conn hconn
    have hsent : SendsOnly c { c with sent := c.sent ++ [(id, data)] } := ⟨rfl, rfl, rfl, rfl, rfl, rfl⟩
    dsimp only
    split
    · exact hsent
    · exact hsent.setConnection (getCryptoConnection_eq_some.mp hconn).1 rfl

/-- Sending to a live connection hands over the packet and keeps the connection and its nonce. -/
theorem sendPacketTo_live (data : Bytes) (hconn : c.getCryptoConnection id = some conn) :
    (sendPacketTo env c id data).2.sent = c.sent ++ [(id, data)] ∧
      ∃ conn', (sendPacketTo env c id data).2.getCryptoConnection id = some conn' ∧
        conn'.sentNonce = conn.sentNonce ∧ quiet conn' = quiet conn := by
  obtain ⟨hget, hlive⟩ := getCryptoConnection_eq_some.mp hconn
  unfold sendPacketTo
  simp only [hconn]
  split
  · exact ⟨rfl, conn, hconn, rfl, rfl⟩
  · exact ⟨rfl, _, setConnection_get hget hlive, rfl, rfl⟩

/-- A packet is kept to be sent again. -/
theorem newTempPacket_sendsOnly (c : NetCrypto) (id : ℕ) (packet : Bytes) :
    SendsOnly c (newTempPacket env c id packet).2 := by
  unfold newTempPacket
  split
  · exact .refl c
  · split
    · exact .refl c
    · rename_i conn hconn
      split
      · exact .refl c
      · exact (SendsOnly.refl c).setConnection (getCryptoConnection_eq_some.mp hconn).1 rfl

/-- It is sent again. -/
theorem sendTempPacket_sendsOnly (c : NetCrypto) (id : ℕ) : SendsOnly c (sendTempPacket env c id).2 := by
  unfold sendTempPacket
  split
  · exact .refl c
  · split
    · exact .refl c
    · rename_i packet _
      have hsend := sendPacketTo_sendsOnly env c id packet
      dsimp only
      split
      · exact hsend
      · split
        · exact hsend
        · rename_i conn hconn
          exact hsend.setConnection (getCryptoConnection_eq_some.mp hconn).1 rfl

/-! ## What sending for one connection leaves alone -/

/-- A call that acts on one connection only: the other connections are untouched, the connection stays as live as
it was, and only packets for it are sent. -/
structure ActsOn (id : ℕ) (c c' : NetCrypto) : Prop where
  others : ∀ j, j ≠ id → c'.getCryptoConnection j = c.getCryptoConnection j
  live : c'.getCryptoConnection id = none ↔ c.getCryptoConnection id = none
  sent : ∃ packets, c'.sent = c.sent ++ packets ∧ ∀ entry ∈ packets, entry.1 = id

theorem ActsOn.refl (id : ℕ) (c : NetCrypto) : ActsOn id c c := ⟨fun _ _ => rfl, .rfl, [], by simp, nofun⟩

theorem ActsOn.trans {c'' : NetCrypto} (h : ActsOn id c c') (h' : ActsOn id c' c'') : ActsOn id c c'' := by
  obtain ⟨packets, hsent, hown⟩ := h.sent
  obtain ⟨packets', hsent', hown'⟩ := h'.sent
  refine ⟨fun j hj => (h'.others j hj).trans (h.others j hj), h'.live.trans h.live, packets ++ packets', ?_, ?_⟩
  · rw [hsent', hsent, append_assoc]
  · intro entry hmem
    rcases mem_append.mp hmem with hmem | hmem
    · exact hown entry hmem
    · exact hown' entry hmem

/-- The other connections stay. -/
theorem getCryptoConnection_setConnection_ne (c : NetCrypto) {j : ℕ} (hj : j ≠ id) (conn : CryptoConnection) :
    (c.setConnection id conn).getCryptoConnection j = c.getCryptoConnection j := by
  unfold getCryptoConnection setConnection
  rw [getElem?_set_ne (Ne.symm hj)]

/-- Writing a live connection as a live one. -/
theorem ActsOn.setConnection (h : ActsOn id c c') {conn' : CryptoConnection}
    (hconn : c'.getCryptoConnection id = some conn) (hlive : conn'.status ≠ .noConnection) :
    ActsOn id c (c'.setConnection id conn') := by
  refine h.trans ⟨fun j hj => getCryptoConnection_setConnection_ne c' hj conn', ?_, [], ?_, nofun⟩
  · rw [setConnection_get (getCryptoConnection_eq_some.mp hconn).1 hlive, hconn]
    simp
  · rw [append_nil]
    rfl

/-- Writing fields of a connection other than its status. -/
theorem ActsOn.modifyConnection (h : ActsOn id c c') (f : CryptoConnection → CryptoConnection)
    (hf : ∀ conn, (f conn).status = conn.status) : ActsOn id c (c'.modifyConnection id f) := by
  refine modifyConnection_kept h fun conn hconn => ?_
  by_cases hlive : conn.status = .noConnection
  · have hget (c' : NetCrypto) (conn : CryptoConnection) (hconn : c'.cryptoConnections[id]? = some conn)
        (hdead : conn.status = .noConnection) : c'.getCryptoConnection id = none := by
      rw [getCryptoConnection, hconn]
      exact if_pos hdead
    have hset : (c'.setConnection id (f conn)).cryptoConnections[id]? = some (f conn) :=
      getElem?_set_self (List.getElem?_eq_some_iff.mp hconn).1
    refine h.trans ⟨fun j hj => getCryptoConnection_setConnection_ne c' hj _, ?_, [], ?_, by simp⟩
    · rw [hget _ _ hset ((hf conn).trans hlive), hget _ _ hconn hlive]
    · rw [append_nil]
      rfl
  · exact h.setConnection (getCryptoConnection_eq_some.mpr ⟨hconn, hlive⟩) (by rwa [hf conn])

theorem sendPacketTo_actsOn (c : NetCrypto) (id : ℕ) (data : Bytes) : ActsOn id c (sendPacketTo env c id data).2 := by
  unfold sendPacketTo
  split
  · exact .refl id c
  · rename_i conn hconn
    have hsent : ActsOn id c { c with sent := c.sent ++ [(id, data)] } :=
      ⟨fun _ _ => rfl, .rfl, [(id, data)], rfl, by simp⟩
    dsimp only
    split
    · exact hsent
    · exact hsent.setConnection hconn (getCryptoConnection_eq_some.mp hconn).2

theorem sendTempPacket_actsOn (c : NetCrypto) (id : ℕ) : ActsOn id c (sendTempPacket env c id).2 := by
  unfold sendTempPacket
  split
  · exact .refl id c
  · split
    · exact .refl id c
    · rename_i packet _
      have hsend := sendPacketTo_actsOn env c id packet
      dsimp only
      split
      · exact hsend
      · split
        · exact hsend
        · rename_i conn hconn
          exact hsend.setConnection hconn (getCryptoConnection_eq_some.mp hconn).2

/-- The temporary packet of a connection is handed over. -/
theorem sendTempPacket_sent {packet : Bytes} (hconn : c.getCryptoConnection id = some conn)
    (hpacket : conn.tempPacket = some packet) : (sendTempPacket env c id).2.sent = c.sent ++ [(id, packet)] := by
  have hsent := (sendPacketTo_live env packet hconn).1
  simp only [sendTempPacket, hconn, hpacket]
  split
  · exact hsent
  · split <;> exact hsent

end NetCrypto

end Toxcore
