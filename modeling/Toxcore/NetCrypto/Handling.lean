import Toxcore.NetCrypto.Receiving

/-!
# What handling packets keeps

A packet changes the session of a connection, runs callbacks, and may kill a connection or let the application accept
one. So a property of worlds that does not look at sessions is kept by every packet as soon as it is kept by the
callbacks, in the places where they are called, and by killing a connection.
-/

namespace Toxcore

open ByteStrings

namespace NetCrypto

/-- A connection without its session: whether it is live, the real key, the addresses, the budget and the callbacks. -/
def identityOf (conn : CryptoConnection) : CryptoConnection :=
  { CryptoConnection.zero with
    status := if conn.status = .noConnection then .noConnection else .established
    publicKey := conn.publicKey
    ipPortv4 := conn.ipPortv4
    ipPortv6 := conn.ipPortv6
    packetsLeft := conn.packetsLeft
    packetsLeftRequested := conn.packetsLeftRequested
    connectionStatusCallback := conn.connectionStatusCallback
    connectionDataCallback := conn.connectionDataCallback
    connectionLossyDataCallback := conn.connectionLossyDataCallback
    dhtPkCallback := conn.dhtPkCallback }

/-- A live connection may move to another status. -/
theorem identityOf_status (conn : CryptoConnection) (hlive : conn.status ≠ .noConnection) {status : ConnStatus}
    (hstatus : status ≠ .noConnection) : identityOf { conn with status := status } = identityOf conn := by
  simp only [identityOf, if_neg hlive, if_neg hstatus]

variable {α : Type} {sodium : Sodium} {callbacks : Callbacks α} {env : Env} {P : World α → Prop}

/-- A property of worlds that does not look at the sessions of connections, nor at the packets sent. -/
structure IgnoresSessions (P : World α → Prop) : Prop where
  write : ∀ (w : World α) (id : ℕ) (conn conn' : CryptoConnection), w.net.cryptoConnections[id]? = some conn →
    identityOf conn' = identityOf conn → P w → P (w.write id conn')
  send : ∀ (w : World α) (c : NetCrypto), SendsOnly w.net c → P w → P { w with net := c }

namespace IgnoresSessions

/-- What ignores the sessions ignores the data. -/
theorem ignoresData (hP : IgnoresSessions P) : IgnoresData P := by
  intro w id conn conn' hconn hquiet h
  have hidentity : identityOf (dataQuiet conn') = identityOf (dataQuiet conn) := congrArg identityOf hquiet
  exact hP.write w id conn conn' hconn hidentity h

variable {w : World α}

/-- A connection is changed that keeps its identity. -/
theorem modify (hP : IgnoresSessions P) (h : P w) (id : ℕ) {f : CryptoConnection → CryptoConnection}
    (hf : ∀ conn, identityOf (f conn) = identityOf conn) : P (w.modify id f) :=
  modifyConnection_kept (P := fun net => P { w with net := net }) h fun conn hconn =>
    hP.write w id conn (f conn) hconn (hf conn) h

/-- A live connection moves to another status. -/
theorem setStatus (hP : IgnoresSessions P) (h : P w) {id : ℕ} {conn : CryptoConnection}
    (hconn : w.net.getCryptoConnection id = some conn) {status : ConnStatus} (hstatus : status ≠ .noConnection) :
    P (w.modify id fun conn => { conn with status := status }) := by
  obtain ⟨hget, hlive⟩ := getCryptoConnection_eq_some.mp hconn
  unfold World.modify
  rw [modifyConnection_eq hget]
  exact hP.write w id conn _ hget (identityOf_status conn hlive hstatus) h

/-- A handshake is sent, and the connection moves to another status if that succeeds. -/
theorem sendHandshake (hP : IgnoresSessions P) (h : P w) {id : ℕ} {cookie : Cookie} {dhtPublicKey : PublicKey}
    {ok : Bool} {c : NetCrypto} (hsend : createSendHandshake sodium env w.net id cookie dhtPublicKey = (ok, c)) :
    P { w with net := c } ∧ ∀ status : ConnStatus, ok = true → status ≠ .noConnection →
      P { w with net := c.modifyConnection id fun conn => { conn with status := status } } := by
  have hsent : P { w with net := c } := hP.send w c (createSendHandshake_sent hsend) h
  refine ⟨hsent, ?_⟩
  rintro status rfl hstatus
  obtain ⟨-, _, conn', -, hconn', -⟩ := createSendHandshake_live hsend
  exact hP.setStatus hsent hconn' hstatus

end IgnoresSessions

/-- The places where handling a packet leaves a property to the callbacks and to the rest of `Net_Crypto`. -/
structure KeptByCalls (sodium : Sodium) (callbacks : Callbacks α) (env : Env) (P : World α → Prop) : Prop where
  kill : ∀ w id, P w → P (connectionKill sodium callbacks env w id)
  confirm : ∀ w id conn, w.net.getCryptoConnection id = some conn → P w → P (callbacks.connectionStatus w id true)
  data : ∀ w id data, P w → P (callbacks.connectionData w id data)
  lossyData : ∀ w id data, P w → P (callbacks.connectionLossyData w id data)
  dhtPk : ∀ w id dhtPublicKey, P w → P (callbacks.dhtPk w id dhtPublicKey)
  newConnection : ∀ w nC, P w → P (callbacks.newConnection w nC).2
  addSource : ∀ w id source, P w → P { w with net := (cryptoConnectionAddSource env w.net id source).2 }

namespace KeptByCalls

variable (hkept : KeptByCalls sodium callbacks env P) (hP : IgnoresSessions P) {w : World α}

include hkept hP

/-- The data behind the acknowledgement is handled. -/
theorem handleAcknowledged (h : P w) {id : ℕ} {conn : CryptoConnection}
    (hconn : w.net.getCryptoConnection id = some conn) (num : UInt32) (realData : Bytes) (rttCalcTime : UInt64)
    (udp : Bool) : P (handleAcknowledged sodium callbacks env w id conn num realData rttCalcTime udp).2 := by
  obtain ⟨hget, hlive⟩ := getCryptoConnection_eq_some.mp hconn
  unfold NetCrypto.handleAcknowledged
  split
  · exact h
  · split
    · exact hkept.kill w id h
    · apply hP.ignoresData.handleRealData hkept.data hkept.lossyData
      unfold confirmConnection
      split
      · have hwritten : (w.write id { clearTempPacket conn with status := .established }).net.getCryptoConnection id =
            some { clearTempPacket conn with status := .established } := World.write_get hget nofun
        apply hkept.confirm _ id _ hwritten
        exact hP.write w id conn _ hget (identityOf_status (clearTempPacket conn) hlive nofun) h
      · exact h

/-- A data packet is handled. -/
theorem handleDataPacketHelper (h : P w) (id : ℕ) (packet : Bytes) (udp : Bool) :
    P (handleDataPacketHelper sodium callbacks env w id packet udp).2 := by
  unfold NetCrypto.handleDataPacketHelper
  split
  · exact h
  · split
    · exact h
    · rename_i conn hconn
      split
      · exact h
      · rename_i data conn₁ hhandle
        obtain ⟨recvNonce, hmoved⟩ := moveBase_eq conn packet
        obtain rfl : conn₁ = { conn with recvNonce := recvNonce } := (handleDataPacket_some hhandle).2.trans hmoved
        obtain ⟨hget, hlive⟩ := getCryptoConnection_eq_some.mp hconn
        have hwrite : P (w.write id { conn with recvNonce := recvNonce }) := hP.write w id conn _ hget rfl h
        unfold handlePlain
        split
        · exact hwrite
        · split
          · exact hwrite
          · rename_i rttCalcTime conn₂ hack
            obtain ⟨sendArray, rfl⟩ := acknowledge_eq hack
            have hget₁ : (w.write id { conn with recvNonce := recvNonce }).net.getCryptoConnection id = _ :=
              World.write_get hget hlive
            have hget₁' := (getCryptoConnection_eq_some.mp hget₁).1
            have hget₂ : ((w.write id { conn with recvNonce := recvNonce }).write id
                { conn with recvNonce := recvNonce, sendArray := sendArray }).net.getCryptoConnection id = _ :=
              World.write_get hget₁' hlive
            apply hkept.handleAcknowledged hP _ hget₂
            exact hP.write _ id _ _ hget₁' rfl hwrite

/-- A handshake is handled. -/
theorem handleHandshakePacket (h : P w) {id : ℕ} {conn : CryptoConnection}
    (hconn : w.net.getCryptoConnection id = some conn) (packet : Bytes) :
    P (handleHandshakePacket sodium callbacks env w id conn packet).2 := by
  obtain ⟨hget, hlive⟩ := getCryptoConnection_eq_some.mp hconn
  unfold NetCrypto.handleHandshakePacket
  split
  · split
    · exact h
    · rename_i handshake _
      split
      · have hwrite : P (w.write id (precomputeSharedKey sodium (takeHandshake handshake conn))) :=
          hP.write w id conn _ hget rfl h
        unfold answerHandshake
        split
        · split
          · rename_i c hsend
            exact (hP.sendHandshake hwrite hsend).1
          · rename_i c hsend
            exact (hP.sendHandshake hwrite hsend).2 .notConfirmed rfl nofun
        · exact hP.setStatus hwrite (World.write_get hget hlive) nofun
      · apply hkept.dhtPk _ id handshake.dhtPublicKey
        exact hP.write w id conn _ hget rfl h
  · exact h

/-- A packet of a connection is handled. -/
theorem handlePacketConnection (h : P w) (id : ℕ) (packet : Bytes) (udp : Bool) :
    P (handlePacketConnection sodium callbacks env w id packet udp).2 := by
  unfold NetCrypto.handlePacketConnection
  split
  · exact h
  · split
    · exact h
    · rename_i conn hconn
      split
      · unfold handleCookieResponsePacket
        split
        · exact h
        · split
          · exact h
          · split
            · exact h
            · split
              · rename_i c hsend
                exact (hP.sendHandshake h hsend).1
              · rename_i c hsend
                exact (hP.sendHandshake h hsend).2 .handshakeSent rfl nofun
      · split
        · exact hkept.handleHandshakePacket hP h hconn packet
        · split
          · split
            · exact hkept.handleDataPacketHelper hP h id packet udp
            · exact h
          · exact h

/-- A handshake of a peer without a connection is offered. -/
theorem handleNewConnectionHandshake (h : P w) (source : IpPort) (data : Bytes) :
    P (handleNewConnectionHandshake sodium callbacks env w source data).2 := by
  unfold NetCrypto.handleNewConnectionHandshake
  split
  · exact h
  · split
    · exact h
    · rename_i handshake _
      dsimp only
      split
      · exact hkept.newConnection w _ h
      · rename_i id _
        split
        · exact h
        · rename_i conn hconn
          split
          · exact hkept.newConnection _ _ (hkept.kill w id h)
          · split
            · have hset : P (w.write id { conn with
                  recvNonce := handshake.nonce
                  peersessionPublicKey := handshake.sessionPk
                  sharedKey := sodium.beforenm handshake.sessionPk conn.sessionSecretKey }) :=
                hP.write w id conn _ (getCryptoConnection_eq_some.mp hconn).1 rfl h
              have hsource := hkept.addSource _ id source hset
              split
              · rename_i c hsend
                exact (hP.sendHandshake hsource hsend).1
              · rename_i c hsend
                exact (hP.sendHandshake hsource hsend).2 .notConfirmed rfl nofun
            · exact h

/-- A packet from the network keeps what the callbacks keep. -/
theorem udpHandlePacket (h : P w) (source : IpPort) (packet : Bytes) :
    P (udpHandlePacket sodium callbacks env w source packet).2 := by
  unfold NetCrypto.udpHandlePacket
  split
  · exact h
  · split
    · split
      · exact h
      · exact hkept.handleNewConnectionHandshake hP h source packet
    · have hhandle := hkept.handlePacketConnection hP h (cryptoIdIpPort w.net source).toNat packet true
      unfold handleRoutedPacket
      split
      · rename_i w' heq
        rwa [heq] at hhandle
      · rename_i w' heq
        rw [heq] at hhandle
        split
        · exact hhandle
        · apply hP.modify hhandle
          intro conn
          unfold setDirectLastrecvTime
          split <;> rfl

end KeptByCalls

end NetCrypto

end Toxcore
