import Toxcore.NetCrypto.Connections

/-!
# Packets received for a connection

`handle_data_packet_helper` and the functions above it. The pointer to the connection that the source
keeps across a callback is looked up again here, and the packet is dropped where the callback killed
the connection: there the source would go on with freed memory.
-/

namespace Toxcore

open ByteStrings

namespace NetCrypto

variable {α : Type} (sodium : Sodium) (callbacks : Callbacks α) (env : Env)

/-- Drop the packets the peer has according to the start of its receive buffer. Returns the time the
first of them was sent, for the round trip time, and the connection. -/
def acknowledge (conn : CryptoConnection) (bufferStart : UInt32) : Option (UInt64 × CryptoConnection) :=
  if bufferStart = conn.sendArray.bufferStart then some (0, conn)
  else
    let rttCalcTime := match getDataPointer conn.sendArray conn.sendArray.bufferStart with
      | some (some packet) => packet.sentTime
      | _ => 0
    (clearBufferUntil conn.sendArray bufferStart).map fun sendArray =>
      (rttCalcTime, { conn with sendArray := sendArray })

/-- An acknowledgement writes the send array only. -/
theorem acknowledge_eq {conn conn' : CryptoConnection} {bufferStart : UInt32} {rttCalcTime : UInt64}
    (h : acknowledge conn bufferStart = some (rttCalcTime, conn')) :
    ∃ sendArray, conn' = { conn with sendArray := sendArray } := by
  unfold acknowledge at h
  split at h
  · obtain ⟨-, rfl⟩ := Prod.mk.inj (Option.some_inj.mp h)
    exact ⟨conn.sendArray, rfl⟩
  · obtain ⟨sendArray, -, heq⟩ := Option.map_eq_some_iff.mp h
    obtain ⟨-, rfl⟩ := Prod.mk.inj heq
    exact ⟨sendArray, rfl⟩

/-- Update the round trip time of the connection. -/
def updateRtt (w : World α) (id : ℕ) (rttCalcTime : UInt64) : World α :=
  w.modify id fun conn =>
    if rttCalcTime ≠ 0 ∧ env.monotonicTime - rttCalcTime < conn.rttTime then
      { conn with rttTime := env.monotonicTime - rttCalcTime }
    else conn

/-- Hand the packets at the start of the receive buffer to the application, in order. The fuel is one more
than the packets in the buffer. The number of a packet goes through an `int`, so the number `2 ^ 32 - 1`
looks like the end of the buffer. -/
def deliverLoop : ℕ → World α → ℕ → Bool × World α
  | 0, w, _ => (true, w)
  | fuel + 1, w, id =>
    match w.net.getCryptoConnection id with
    | none => (false, w)
    | some conn =>
      match readDataBegBuffer conn.recvArray with
      | none => (true, w)
      | some (number, packet, recvArray) =>
        let w := w.write id { conn with recvArray := recvArray }
        if number = 0 - 1 then (true, w)
        else deliverLoop fuel (callbacks.connectionData w id packet.data) id

/-- What `handle_data_packet_helper` does with the data of a packet, by its first byte. -/
def handleRealData (w : World α) (id : ℕ) (num : UInt32) (realData : Bytes) (rttCalcTime : UInt64) (udp : Bool) :
    Bool × World α :=
  match w.net.getCryptoConnection id, realData.head? with
  | some conn, some packetId =>
    if packetId = packetIdRequest then
      let rttTime := if udp then conn.rttTime else defaultTcpPingConnection
      let (sendArray, requested, rttCalcTime) :=
        handleRequestPacket conn.sendArray realData rttCalcTime rttTime env.monotonicTime
      match requested with
      | none => (false, w.write id { conn with sendArray := sendArray })
      | some _ =>
        let recvArray := (setBufferEnd conn.recvArray num).getD conn.recvArray
        let w := w.write id { conn with sendArray := sendArray, recvArray := recvArray }
        (true, updateRtt env w id rttCalcTime)
    else if IsLossless packetId then
      match addDataToBuffer (env.alloc .packet) conn.recvArray num ⟨0, realData⟩ with
      | none => (false, w)
      | some recvArray =>
        let w := w.write id { conn with recvArray := recvArray }
        match deliverLoop callbacks (numPacketsArray recvArray + 1) w id with
        | (false, w) => (false, w)
        | (true, w) =>
          let w := w.modify id fun conn => { conn with packetCounter := conn.packetCounter + 1 }
          (true, updateRtt env w id rttCalcTime)
    else if IsLossy packetId then
      let recvArray := (setBufferEnd conn.recvArray num).getD conn.recvArray
      let w := w.write id { conn with recvArray := recvArray }
      let w := callbacks.connectionLossyData w id realData
      (true, updateRtt env w id rttCalcTime)
    else (false, w)
  | _, _ => (false, w)

/-! ### What handling data writes -/

/-- A connection without the fields that handling the data of a packet writes. -/
def dataQuiet (conn : CryptoConnection) : CryptoConnection :=
  { conn with sendArray := .emptyAt 0, recvArray := .emptyAt 0, packetCounter := 0, rttTime := 0 }

/-- A property of worlds that does not look at the fields handling data writes. -/
def IgnoresData (P : World α → Prop) : Prop :=
  ∀ (w : World α) (id : ℕ) (conn conn' : CryptoConnection), w.net.cryptoConnections[id]? = some conn →
    dataQuiet conn' = dataQuiet conn → P w → P (w.write id conn')

variable {callbacks env} {P : World α → Prop}

variable {w : World α}

/-- The data of a connection is changed. -/
theorem IgnoresData.modify (hP : IgnoresData P) (h : P w) (id : ℕ) {f : CryptoConnection → CryptoConnection}
    (hf : ∀ conn, dataQuiet (f conn) = dataQuiet conn) : P (w.modify id f) :=
  modifyConnection_kept (P := fun net => P { w with net := net }) h fun conn hconn =>
    hP w id conn (f conn) hconn (hf conn) h

/-- The round trip time is updated. -/
theorem IgnoresData.updateRtt (hP : IgnoresData P) (h : P w) (id : ℕ) (rttCalcTime : UInt64) :
    P (updateRtt env w id rttCalcTime) := by
  apply hP.modify h id
  intro conn
  split <;> rfl

/-- Packets are delivered. -/
theorem IgnoresData.deliverLoop (hP : IgnoresData P)
    (hdata : ∀ w id data, P w → P (callbacks.connectionData w id data)) (fuel : ℕ) (h : P w) (id : ℕ) :
    P (deliverLoop callbacks fuel w id).2 := by
  induction fuel generalizing w with
  | zero => exact h
  | succ fuel ih =>
    unfold NetCrypto.deliverLoop
    split
    · exact h
    · rename_i conn hconn
      split
      · exact h
      · rename_i number packet recvArray _
        have hset := hP w id conn { conn with recvArray := recvArray }
          (getCryptoConnection_eq_some.mp hconn).1 rfl h
        dsimp only
        split
        · exact hset
        · exact ih (hdata _ id packet.data hset)

/-- Handling the data of a packet keeps what the callbacks keep and data does not touch. -/
theorem IgnoresData.handleRealData (hP : IgnoresData P)
    (hdata : ∀ w id data, P w → P (callbacks.connectionData w id data))
    (hlossy : ∀ w id data, P w → P (callbacks.connectionLossyData w id data)) (h : P w) (id : ℕ) (num : UInt32)
    (realData : Bytes) (rttCalcTime : UInt64) (udp : Bool) :
    P (handleRealData callbacks env w id num realData rttCalcTime udp).2 := by
  unfold NetCrypto.handleRealData
  split
  · rename_i conn packetId hconn _
    have hset (sendArray recvArray : PacketsArray) :
        P (w.write id { conn with sendArray := sendArray, recvArray := recvArray }) :=
      hP w id conn _ (getCryptoConnection_eq_some.mp hconn).1 rfl h
    split
    · dsimp only
      split
      · exact hset _ conn.recvArray
      · apply hP.updateRtt
        exact hset _ _
    · split
      · split
        · exact h
        · rename_i recvArray _
          have hdeliver := hP.deliverLoop hdata (numPacketsArray recvArray + 1) (hset conn.sendArray recvArray) id
          dsimp only
          split
          · rename_i w' heq
            rwa [heq] at hdeliver
          · rename_i w' heq
            rw [heq] at hdeliver
            apply hP.updateRtt
            exact hP.modify hdeliver id fun _ => rfl
      · split
        · apply hP.updateRtt
          apply hlossy _ id realData
          exact hset conn.sendArray _
        · exact h
  · exact h

variable (callbacks env)

/-- The first data packet confirms a connection. -/
def confirmConnection (w : World α) (id : ℕ) (conn : CryptoConnection) : World α :=
  if conn.status = .notConfirmed then
    callbacks.connectionStatus (w.write id { clearTempPacket conn with status := .established }) id true
  else w

/-- The start of the receive buffer of the peer, from the plain text of a data packet. -/
def plainBufferStart (data : Bytes) : UInt32 := UInt32.ofNat (beNat (slice 4 data 0).toList)

/-- The packet number in the plain text of a data packet. -/
def plainNum (data : Bytes) : UInt32 := UInt32.ofNat (beNat (slice 4 data 4).toList)

/-- The data in the plain text of a data packet, without the padding. -/
def plainRealData (data : Bytes) : Bytes := (data.drop 8).dropWhile (· = packetIdPadding)

/-- The rest of `handle_data_packet_helper` once the acknowledgement was taken. -/
def handleAcknowledged (w : World α) (id : ℕ) (conn : CryptoConnection) (num : UInt32) (realData : Bytes)
    (rttCalcTime : UInt64) (udp : Bool) : Bool × World α :=
  if realData = [] then (false, w)
  else if realData.head? = some packetIdKill then (true, connectionKill sodium callbacks env w id)
  else handleRealData callbacks env (confirmConnection callbacks w id conn) id num realData rttCalcTime udp

/-- The rest of `handle_data_packet_helper` once the packet was decrypted. -/
def handlePlain (w : World α) (id : ℕ) (conn : CryptoConnection) (data : Bytes) (udp : Bool) : Bool × World α :=
  if data.length ≤ 4 * 2 then (false, w)
  else
    match acknowledge conn (plainBufferStart data) with
    | none => (false, w)
    | some (rttCalcTime, conn) =>
      handleAcknowledged sodium callbacks env (w.write id conn) id conn (plainNum data) (plainRealData data)
        rttCalcTime udp

/-- `handle_data_packet_helper`. -/
def handleDataPacketHelper (w : World α) (id : ℕ) (packet : Bytes) (udp : Bool) : Bool × World α :=
  if packet.length > maxCryptoPacketSize ∨ packet.length ≤ cryptoDataPacketMinSize then (false, w)
  else
    match w.net.getCryptoConnection id with
    | none => (false, w)
    | some conn =>
      match handleDataPacket sodium conn packet with
      | none => (false, w)
      | some (data, conn) => handlePlain sodium callbacks env (w.write id conn) id conn data udp

/-- The handling of a cookie response. -/
def handleCookieResponsePacket (w : World α) (id : ℕ) (conn : CryptoConnection) (packet : Bytes) :
    Bool × World α :=
  if conn.status ≠ .cookieRequesting then (false, w)
  else
    match handleCookieResponse sodium packet conn.sharedKey with
    | none => (false, w)
    | some (cookie, number) =>
      if number ≠ conn.cookieRequestNumber then (false, w)
      else
        match createSendHandshake sodium env w.net id cookie conn.dhtPublicKey with
        | (false, c) => (false, { w with net := c })
        | (true, c) =>
          (true, { w with net := c.modifyConnection id fun conn => { conn with status := .handshakeSent } })

/-- The session material of a handshake, as `handle_crypto_handshake` writes it into a connection. -/
def takeHandshake (handshake : Handshake) (conn : CryptoConnection) : CryptoConnection :=
  { conn with recvNonce := handshake.nonce, peersessionPublicKey := handshake.sessionPk }

/-- The shared key computed from the session keys of a connection. -/
def precomputeSharedKey (conn : CryptoConnection) : CryptoConnection :=
  { conn with sharedKey := sodium.beforenm conn.peersessionPublicKey conn.sessionSecretKey }

/-- A handshake for the expected DHT key is answered, where that is due, and taken. -/
def answerHandshake (w : World α) (id : ℕ) (conn : CryptoConnection) (handshake : Handshake) : Bool × World α :=
  if conn.status = .cookieRequesting then
    match createSendHandshake sodium env w.net id handshake.cookie handshake.dhtPublicKey with
    | (false, c) => (false, { w with net := c })
    | (true, c) =>
      (true, { w with net := c.modifyConnection id fun conn => { conn with status := .notConfirmed } })
  else (true, w.modify id fun conn => { conn with status := .notConfirmed })

/-- The handling of a handshake. The material is written before the DHT key is compared. -/
def handleHandshakePacket (w : World α) (id : ℕ) (conn : CryptoConnection) (packet : Bytes) : Bool × World α :=
  if conn.status = .cookieRequesting ∨ conn.status = .handshakeSent ∨ conn.status = .notConfirmed then
    match handleCryptoHandshake sodium env w.net packet (some conn.publicKey) with
    | none => (false, w)
    | some handshake =>
      if handshake.dhtPublicKey = conn.dhtPublicKey then
        answerHandshake sodium env (w.write id (precomputeSharedKey sodium (takeHandshake handshake conn))) id conn
          handshake
      else (true, callbacks.dhtPk (w.write id (takeHandshake handshake conn)) id handshake.dhtPublicKey)
  else (false, w)

/-- `handle_packet_connection`. -/
def handlePacketConnection (w : World α) (id : ℕ) (packet : Bytes) (udp : Bool) : Bool × World α :=
  if packet.length = 0 ∨ packet.length > maxCryptoPacketSize then (false, w)
  else
    match w.net.getCryptoConnection id with
    | none => (false, w)
    | some conn =>
      if packet.head? = some netPacketCookieResponse then handleCookieResponsePacket sodium env w id conn packet
      else if packet.head? = some netPacketCryptoHs then handleHandshakePacket sodium callbacks env w id conn packet
      else if packet.head? = some netPacketCryptoData then
        if conn.status = .notConfirmed ∨ conn.status = .established then
          handleDataPacketHelper sodium callbacks env w id packet udp
        else (false, w)
      else (false, w)

/-- `crypto_id_ip_port`. -/
def cryptoIdIpPort (c : NetCrypto) (ipPort : IpPort) : ℤ := bsListFind c.ipPortList ipPort.stored

/-- The part of `udp_handle_packet` for a packet from the address of a connection. -/
def handleRoutedPacket (w : World α) (id : ℕ) (source : IpPort) (packet : Bytes) : Bool × World α :=
  match handlePacketConnection sodium callbacks env w id packet true with
  | (false, w) => (false, w)
  | (true, w) =>
    match w.net.getCryptoConnection id with
    | none => (false, w)
    | some _ => (true, w.modify id (setDirectLastrecvTime env.unixTime source))

/-- `udp_handle_packet`, with the return value 0 as `true`. -/
def udpHandlePacket (w : World α) (source : IpPort) (packet : Bytes) : Bool × World α :=
  if packet.length ≤ 1 + 2 + macBytes ∨ packet.length > maxCryptoPacketSize then (false, w)
  else if cryptoIdIpPort w.net source = -1 then
    if packet.head? ≠ some netPacketCryptoHs then (false, w)
    else handleNewConnectionHandshake sodium callbacks env w source packet
  else handleRoutedPacket sodium callbacks env w (cryptoIdIpPort w.net source).toNat source packet

end NetCrypto

end Toxcore
