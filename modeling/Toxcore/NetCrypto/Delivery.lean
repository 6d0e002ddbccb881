import Toxcore.NetCrypto.Flows

/-!
# Reliable delivery between two connections

Two sides share one established connection and call `write_cryptpacket`, `send_lossy_cryptpacket`,
`send_request_packet` and `send_requested_packets` in any order; the network hands any packet that was ever sent to
`handle_data_packet_helper` of the other side, any number of times. Every call does a few of the things an endpoint
can do, so the invariant of two linked endpoints holds in every state reached.
-/

namespace Toxcore

open ByteStrings RingWindow Relation List Option

/-- Encryption is ideal: what decrypts at all decrypts to what was encrypted. -/
def Sodium.Ideal (sodium : Sodium) : Prop :=
  ∀ key nonce plain encrypted, encryptDataSymmetric sodium key nonce plain = some encrypted →
    ∀ key' nonce' plain', decryptDataSymmetric sodium key' nonce' encrypted = some plain' → plain' = plain

theorem Sodium.plain_ideal : Sodium.plain.Ideal := by
  intro key nonce plain encrypted hencrypt key' nonce' plain' hdecrypt
  unfold encryptDataSymmetric at hencrypt
  split at hencrypt
  · contradiction
  · have hbytes : encrypted = plain ++ List.replicate macBytes 0 := (some_inj.mp hencrypt).symm
    unfold decryptDataSymmetric at hdecrypt
    split at hdecrypt
    · contradiction
    · rw [hbytes, Sodium.plain_open] at hdecrypt
      exact (some_inj.mp hdecrypt).symm

/-- A packet contains a plain text in encrypted form. -/
def Seals (sodium : Sodium) (packet plain : Bytes) : Prop :=
  ∃ key nonce, encryptDataSymmetric sodium key nonce plain = some (packet.drop (1 + 2))

variable {sodium : Sodium}

theorem seals_dataPacket {key : SharedKey} {nonce : Nonce} {plain encrypted : Bytes}
    (h : encryptDataSymmetric sodium key nonce plain = some encrypted) (packetNonce : Nonce) :
    Seals sodium (dataPacket packetNonce encrypted) plain := by
  refine ⟨key, nonce, ?_⟩
  rw [h, dataPacket_drop]

/-- The part of a connection that belongs to the stream, with the history of its side. -/
def CryptoConnection.endpoint (conn : CryptoConnection) (accepted : List (UInt32 × Bytes))
    (delivered outbox : List Bytes) : Endpoint :=
  ⟨conn.sendArray, conn.recvArray, accepted.map Prod.fst, accepted.map Prod.snd, delivered, outbox⟩

/-- The connection is established, and every packet sent for it contains one of the plain texts. -/
structure Tracks (sodium : Sodium) (c : NetCrypto) (id : ℕ) (conn : CryptoConnection) (outbox : List Bytes) : Prop where
  live : c.getCryptoConnection id = some conn
  established : conn.status = .established
  sent : ∀ packet, (id, packet) ∈ c.sent → ∃ plain ∈ outbox, Seals sodium packet plain

/-- The connection was reached from an endpoint by things an endpoint can do. -/
def Simulates (sodium : Sodium) (inbox : List Bytes) (id : ℕ) (e : Endpoint) (c : NetCrypto)
    (accepted : List (UInt32 × Bytes)) (delivered : List Bytes) : Prop :=
  ∃ conn outbox, Tracks sodium c id conn outbox ∧
    ReflTransGen (Endpoint.Acts inbox) e (conn.endpoint accepted delivered outbox)

/-! ## Sending -/

/-- The front of a cleared array. -/
theorem clearBufferUntil_bufferStart {array array' : PacketsArray} {number : UInt32}
    (h : clearBufferUntil array number = some array') : array'.bufferStart = number := by
  simp only [clearBufferUntil] at h
  split at h
  · contradiction
  · obtain rfl := some_inj.mp h
    rfl

variable {packet : PacketData}

/-- A packet that was just added is found under its number. -/
theorem getDataPointer_addDataEndOfBuffer {array array' : PacketsArray} {num : UInt32}
    (h : addDataEndOfBuffer true array packet = some (num, array')) :
    getDataPointer array' num = some (some packet) := by
  unfold addDataEndOfBuffer at h
  split at h
  · contradiction
  · rename_i hroom
    have hsize : cryptoPacketBufferSize = 32768 := rfl
    have hspots : offset array.bufferStart (array.bufferEnd + 1) = offset array.bufferStart array.bufferEnd + 1 := by
      apply offset_succ
      rw [numPacketsArray] at hroom
      omega
    have hnext : offset array.bufferEnd (array.bufferEnd + 1) = 1 := by
      rw [offset_succ (by simp), offset_self]
    obtain ⟨rfl, rfl⟩ := Prod.mk.inj (some_inj.mp h)
    simp only [getDataPointer, hspots, hnext]
    rw [if_neg (by omega), Function.update_self]

namespace NetCrypto

/-- A data packet that is sent contains the plain text, and only the bookkeeping of sending is written. -/
theorem sendDataPacketHelper_sent (sodium : Sodium) (env : Env) {c : NetCrypto} {id : ℕ} {conn : CryptoConnection}
    (hconn : c.getCryptoConnection id = some conn) (bufferStart num : UInt32) (data : Bytes) :
    (sendDataPacketHelper sodium env c id bufferStart num data).2 = c ∨
      ∃ packet conn', Seals sodium packet (plainData bufferStart num data) ∧
        (sendDataPacketHelper sodium env c id bufferStart num data).2.sent = c.sent ++ [(id, packet)] ∧
        (sendDataPacketHelper sodium env c id bufferStart num data).2.getCryptoConnection id = some conn' ∧
        quiet conn' = quiet conn := by
  obtain ⟨conn', hconn', hquiet⟩ :=
    (sendDataPacketHelper_sendsOnly sodium env c id bufferStart num data).getCryptoConnection hconn
  unfold sendDataPacketHelper at hconn' ⊢
  split at hconn'
  · rename_i hlength
    rw [if_pos hlength]
    exact .inl rfl
  · rename_i hlength
    rw [if_neg hlength]
    rcases sendDataPacket_nonce hconn (nonceAdd_zero conn.sentNonce).symm with hsame | ⟨encrypted, -, hencrypt,
      hsent, -⟩
    · exact .inl hsame
    · exact .inr ⟨_, conn', seals_dataPacket hencrypt _, hsent, hconn', hquiet⟩

end NetCrypto

namespace Simulates

open NetCrypto

variable {sodium : Sodium} {inbox : List Bytes} {id : ℕ} {e : Endpoint} {c : NetCrypto}
  {accepted : List (UInt32 × Bytes)} {delivered : List Bytes} {conn : CryptoConnection}

section

variable (h : Simulates sodium inbox id e c accepted delivered)
include h

/-- The connection is still there. -/
theorem live : ∃ conn, c.getCryptoConnection id = some conn ∧ conn.status = .established := by
  obtain ⟨conn, outbox, htracks, -⟩ := h
  exact ⟨conn, htracks.live, htracks.established⟩

/-- The connection is written, and something may be accepted or delivered with it. -/
theorem set (hconn : c.getCryptoConnection id = some conn) {conn' : CryptoConnection}
    {accepted' : List (UInt32 × Bytes)} {delivered' : List Bytes} (hstatus : conn'.status = conn.status)
    (hacts : ∀ outbox, ReflTransGen (Endpoint.Acts inbox) (conn.endpoint accepted delivered outbox)
      (conn'.endpoint accepted' delivered' outbox)) :
    Simulates sodium inbox id e (c.setConnection id conn') accepted' delivered' := by
  obtain ⟨_, outbox, htracks, hrun⟩ := h
  obtain rfl := some_inj.mp (hconn.symm.trans htracks.live)
  have hestablished : conn'.status = .established := hstatus.trans htracks.established
  refine ⟨conn', outbox, ⟨?_, hestablished, htracks.sent⟩, hrun.trans (hacts outbox)⟩
  apply setConnection_get (getCryptoConnection_eq_some.mp hconn).1
  rw [hestablished]
  decide

/-- Fields of the connection are written in place. -/
theorem modify (f : CryptoConnection → CryptoConnection) (hstatus : ∀ conn, (f conn).status = conn.status)
    (hacts : ∀ conn outbox, ReflTransGen (Endpoint.Acts inbox) (conn.endpoint accepted delivered outbox)
      ((f conn).endpoint accepted delivered outbox)) :
    Simulates sodium inbox id e (c.modifyConnection id f) accepted delivered := by
  obtain ⟨conn, hconn, -⟩ := h.live
  rw [modifyConnection_eq (getCryptoConnection_eq_some.mp hconn).1]
  exact h.set hconn (hstatus conn) (hacts conn)

/-- Fields that do not belong to the stream are written, and maybe the time a packet was sent at. -/
theorem modify_other (f : CryptoConnection → CryptoConnection) (hstatus : ∀ conn, (f conn).status = conn.status)
    (hrecv : ∀ conn, (f conn).recvArray = conn.recvArray) (hsend : ∀ conn, (f conn).sendArray = conn.sendArray ∨
      ∃ time num, (f conn).sendArray = setSentTime time num conn.sendArray) :
    Simulates sodium inbox id e (c.modifyConnection id f) accepted delivered := by
  refine h.modify f hstatus fun conn outbox => ?_
  rcases hsend conn with hsame | ⟨time, num, hmark⟩
  · rw [CryptoConnection.endpoint, CryptoConnection.endpoint, hsame, hrecv]
  · have hacts : Endpoint.Acts inbox (conn.endpoint accepted delivered outbox) _ := .mark _ time num
    simp only [CryptoConnection.endpoint, hmark, hrecv]
    exact .single hacts

end

variable {num : UInt32}

section

variable (h : Simulates sodium inbox id e c accepted delivered)
include h

/-- A plain text is sent. -/
theorem send (hconn : c.getCryptoConnection id = some conn) (env : Env) {data : Bytes}
    (hacts : ∀ outbox, Endpoint.Acts inbox (conn.endpoint accepted delivered outbox)
      ((conn.endpoint accepted delivered outbox).emit num data)) :
    Simulates sodium inbox id e (sendDataPacketHelper sodium env c id conn.recvArray.bufferStart num data).2 accepted
      delivered := by
  rcases sendDataPacketHelper_sent sodium env hconn conn.recvArray.bufferStart num data with
    hsame | ⟨packet, conn', hseals, hsent, hconn', hquiet⟩
  · rwa [hsame]
  · obtain ⟨_, outbox, htracks, hrun⟩ := h
    obtain rfl := some_inj.mp (hconn.symm.trans htracks.live)
    have hstatus : (quiet conn').status = (quiet conn).status := congrArg (·.status) hquiet
    have hsend : (quiet conn').sendArray = (quiet conn).sendArray := congrArg (·.sendArray) hquiet
    have hrecv : (quiet conn').recvArray = (quiet conn).recvArray := congrArg (·.recvArray) hquiet
    refine ⟨conn', outbox ++ [plainData conn.recvArray.bufferStart num data],
      ⟨hconn', hstatus.trans htracks.established, ?_⟩, ?_⟩
    · intro packet' hmem
      rw [hsent, mem_append] at hmem
      rcases hmem with hmem | hmem
      · obtain ⟨plain, hplain, hseals'⟩ := htracks.sent packet' hmem
        exact ⟨plain, mem_append_left _ hplain, hseals'⟩
      · obtain ⟨-, rfl⟩ := Prod.mk.inj (mem_singleton.mp hmem)
        exact ⟨_, mem_append_right _ (mem_singleton_self _), hseals⟩
    · have hsame : conn'.endpoint accepted delivered (outbox ++ [plainData conn.recvArray.bufferStart num data]) =
          (conn.endpoint accepted delivered outbox).emit num data := by
        rw [CryptoConnection.endpoint, show conn'.sendArray = conn.sendArray from hsend,
          show conn'.recvArray = conn.recvArray from hrecv]
        rfl
      rw [hsame]
      exact hrun.tail (hacts outbox)

/-- A packet of the send array is sent. -/
theorem transmit (hconn : c.getCryptoConnection id = some conn) (env : Env)
    (hget : getDataPointer conn.sendArray num = some (some packet)) :
    Simulates sodium inbox id e (sendDataPacketHelper sodium env c id conn.recvArray.bufferStart num packet.data).2
      accepted delivered :=
  h.send hconn env fun _ => .transmit hget

/-- The speed limit is reset. -/
theorem resetMaxSpeedReached (env : Env) :
    Simulates sodium inbox id e (resetMaxSpeedReached sodium env c id).2 accepted delivered := by
  unfold NetCrypto.resetMaxSpeedReached
  split
  · exact h
  · rename_i conn hconn
    split
    · exact h
    · split
      · rename_i packet hget
        have hsend := h.transmit hconn env hget
        split
        · split
          · rename_i c' heq
            rwa [heq] at hsend
          · rename_i c' heq
            rw [heq] at hsend
            exact hsend.modify_other _ (fun _ => rfl) (fun _ => rfl) fun _ => .inr ⟨_, _, rfl⟩
        · exact h.modify_other _ (fun _ => rfl) (fun _ => rfl) fun _ => .inl rfl
      · exact h.modify_other _ (fun _ => rfl) (fun _ => rfl) fun _ => .inl rfl

/-- A payload is accepted: it is put in the send array and can be found there. -/
theorem append (hconn : c.getCryptoConnection id = some conn) {data : Bytes} {packetId : UInt8}
    {sendArray : PacketsArray} (hhead : data.head? = some packetId) (hlossless : IsLossless packetId)
    (hadd : addDataEndOfBuffer true conn.sendArray ⟨0, data⟩ = some (num, sendArray)) :
    Simulates sodium inbox id e (c.setConnection id { conn with sendArray := sendArray }) (accepted ++ [(num, data)])
      delivered := by
  refine h.set hconn rfl fun outbox => ?_
  have hacts : Endpoint.Acts inbox (conn.endpoint accepted delivered outbox) _ := .append hhead hlossless hadd
  simp only [CryptoConnection.endpoint, map_append]
  exact .single hacts

/-- A packet of the send array is sent. -/
theorem sendNumbered (env : Env) (hconn : c.getCryptoConnection id = some conn)
    (hget : getDataPointer conn.sendArray num = some (some packet)) {earlier : CryptoConnection}
    (hearlier : earlier.recvArray = conn.recvArray) (congestionControl : Bool) :
    Simulates sodium inbox id e (sendNumbered sodium env c id earlier num packet.data congestionControl) accepted
      delivered := by
  have hsend := h.transmit hconn env hget
  unfold NetCrypto.sendNumbered
  split
  · exact h
  · rw [hearlier]
    split
    · rename_i c' heq
      rw [heq] at hsend
      refine hsend.modify_other _ ?_ ?_ ?_
      · intro conn
        unfold markSent
        split <;> rfl
      · intro conn
        unfold markSent
        split <;> rfl
      · intro conn
        unfold markSent
        split
        · exact .inr ⟨_, _, rfl⟩
        · exact .inl rfl
    · rename_i c' heq
      rw [heq] at hsend
      exact hsend.modify_other _ (fun _ => rfl) (fun _ => rfl) fun _ => .inl rfl

end

end Simulates

/-- The payloads accepted so far, after a call returned a number or not. -/
def accept (accepted : List (UInt32 × Bytes)) (data : Bytes) : Option UInt32 → List (UInt32 × Bytes)
  | none => accepted
  | some num => accepted ++ [(num, data)]

namespace Simulates

open NetCrypto

variable {sodium : Sodium} {inbox : List Bytes} {id : ℕ} {e : Endpoint} {c : NetCrypto}
  {accepted : List (UInt32 × Bytes)} {delivered : List Bytes}

section

variable (h : Simulates sodium inbox id e c accepted delivered)
include h

/-- A lossless packet is put into the send array. -/
theorem sendLosslessPacket {env : Env} (halloc : env.alloc .packet = true) {data : Bytes} {packetId : UInt8}
    (hhead : data.head? = some packetId) (hlossless : IsLossless packetId) (congestionControl : Bool) :
    Simulates sodium inbox id e (sendLosslessPacket sodium env c id data congestionControl).2
      (accept accepted data (NetCrypto.sendLosslessPacket sodium env c id data congestionControl).1) delivered := by
  have hreset := h.resetMaxSpeedReached env
  unfold NetCrypto.sendLosslessPacket
  rw [halloc]
  split
  · exact h
  · split
    · exact h
    · rename_i conn hconn
      split
      · exact hreset
      · split
        · exact hreset
        · rename_i num sendArray hadd
          have happend := hreset.append hconn hhead hlossless hadd
          exact happend.sendNumbered env (setConnection_get (getCryptoConnection_eq_some.mp hconn).1
            (getCryptoConnection_eq_some.mp hconn).2) (getDataPointer_addDataEndOfBuffer hadd) rfl congestionControl

/-- The layer above writes a packet. -/
theorem writeCryptpacket {env : Env} (halloc : env.alloc .packet = true) (data : Bytes) (congestionControl : Bool) :
    Simulates sodium inbox id e (writeCryptpacket sodium env c id data congestionControl).2
      (accept accepted data (NetCrypto.writeCryptpacket sodium env c id data congestionControl).1) delivered := by
  unfold NetCrypto.writeCryptpacket
  split
  · rename_i packetId conn hhead hconn
    split
    · exact h
    · rename_i hrange
      have hlossless : IsLossless packetId := by
        rw [not_or] at hrange
        exact ⟨UInt8.not_lt.mp hrange.1, UInt8.not_le.mp hrange.2⟩
      split
      · exact h
      · split
        · exact h
        · have hsend := h.sendLosslessPacket halloc hhead hlossless congestionControl
          split
          · rename_i c' heq
            rwa [heq] at hsend
          · rename_i num c' heq
            rw [heq] at hsend
            dsimp only
            split
            · exact hsend.modify_other _ (fun _ => rfl) (fun _ => rfl) fun _ => .inl rfl
            · exact hsend
  · exact h

/-- A lossy packet is sent. -/
theorem sendLossyCryptpacket (env : Env) (data : Bytes) :
    Simulates sodium inbox id e (sendLossyCryptpacket sodium env c id data).2 accepted delivered := by
  unfold NetCrypto.sendLossyCryptpacket
  split
  · rename_i packetId conn hhead hconn
    split
    · exact h
    · rename_i hrange
      rw [not_or, not_or] at hrange
      have hlossy : IsLossy packetId := ⟨UInt8.not_lt.mp hrange.2.1, UInt8.not_le.mp hrange.2.2⟩
      exact h.send hconn env fun _ => .lossy hhead hlossy
  · exact h

/-- A request packet is sent. -/
theorem sendRequestPacket (env : Env) :
    Simulates sodium inbox id e (sendRequestPacket sodium env c id).2 accepted delivered := by
  unfold NetCrypto.sendRequestPacket
  split
  · exact h
  · rename_i conn hconn
    split
    · exact h
    · rename_i data hdata
      exact h.send hconn env fun _ => .request hdata

/-- Requested packets are sent again, in the order of their numbers. -/
theorem sendRequestedLoop (env : Env) (maxNum : UInt32) (numbers : List UInt32) (numSent : UInt32) :
    Simulates sodium inbox id e (sendRequestedLoop sodium env id maxNum numbers numSent c).2 accepted delivered := by
  induction numbers generalizing numSent c with
  | nil => exact h
  | cons num rest ih =>
    unfold NetCrypto.sendRequestedLoop
    split
    · exact h
    · rename_i conn hconn
      split
      · exact h
      · exact ih h numSent
      · rename_i packet hget
        have hsend := h.transmit hconn env hget
        split
        · exact ih h numSent
        · split
          · rename_i c' heq
            rw [heq] at hsend
            split
            · exact hsend
            · exact ih hsend numSent
          · rename_i c' heq
            rw [heq] at hsend
            have hmark := hsend.modify_other (fun conn =>
              { conn with sendArray := setSentTime env.monotonicTime num conn.sendArray }) (fun _ => rfl)
              (fun _ => rfl) fun _ => .inr ⟨_, _, rfl⟩
            split
            · exact hmark
            · exact ih hmark _

/-- Requested packets are sent again. -/
theorem sendRequestedPackets (env : Env) (maxNum : UInt32) :
    Simulates sodium inbox id e (sendRequestedPackets sodium env c id maxNum).2 accepted delivered := by
  unfold NetCrypto.sendRequestedPackets
  split
  · exact h
  · split
    · exact h
    · exact h.sendRequestedLoop env maxNum _ 0

end

end Simulates

/-! ## Receiving -/

/-- The callbacks of an application that keeps the payloads it is handed. -/
def Callbacks.recording : Callbacks (List Bytes) :=
  { Callbacks.unset with connectionData w _ data := { w with app := w.app ++ [data] } }

namespace Simulates

open NetCrypto

variable {sodium : Sodium} {inbox : List Bytes} {id : ℕ} {e : Endpoint} {w : World (List Bytes)}
  {accepted : List (UInt32 × Bytes)} {conn : CryptoConnection}

/-- The round trip time is updated. -/
theorem updateRtt (h : Simulates sodium inbox id e w.net accepted w.app) (env : Env) (rttCalcTime : UInt64) :
    Simulates sodium inbox id e (updateRtt env w id rttCalcTime).net accepted
      (NetCrypto.updateRtt env w id rttCalcTime).app := by
  refine h.modify_other _ ?_ ?_ ?_
  · intro conn
    split <;> rfl
  · intro conn
    split <;> rfl
  · intro conn
    left
    split <;> rfl

/-- The payloads at the start of the receive array go to the application. -/
theorem deliverLoop (fuel : ℕ) (h : Simulates sodium inbox id e w.net accepted w.app) :
    Simulates sodium inbox id e (deliverLoop .recording fuel w id).2.net accepted
      (NetCrypto.deliverLoop .recording fuel w id).2.app := by
  induction fuel generalizing w with
  | zero => exact h
  | succ fuel ih =>
    unfold NetCrypto.deliverLoop
    split
    · exact h
    · rename_i conn hconn
      split
      · exact h
      · rename_i number packet recvArray hread
        dsimp only
        split
        · rename_i hlast
          subst hlast
          exact h.set hconn rfl fun outbox => .single (.lose hread)
        · apply ih
          exact h.set hconn rfl fun outbox => .single (.deliver hread)

/-- The end of the receive array moves, or stays where it is. -/
theorem extend {plain : Bytes} (hplain : plain ∈ inbox) (recvArray : PacketsArray) (accepted : List (UInt32 × Bytes))
    (delivered outbox : List Bytes) (sendArray : PacketsArray) (conn : CryptoConnection) :
    ReflTransGen (Endpoint.Acts inbox)
      ({ conn with sendArray := sendArray, recvArray := recvArray }.endpoint accepted delivered outbox)
      ({ conn with
        sendArray := sendArray
        recvArray := (setBufferEnd recvArray (plainNum plain)).getD recvArray }.endpoint accepted delivered
          outbox) := by
  cases hset : setBufferEnd recvArray (plainNum plain) with
  | none => exact .refl
  | some recvArray' => exact .single (.extend hplain hset)

variable {env : Env} {plain : Bytes}

/-- The data of a packet is put into the receive array and delivered. -/
theorem handleRealData (h : Simulates sodium inbox id e w.net accepted w.app) (halloc : env.alloc .packet = true)
    (hplain : plain ∈ inbox) (hconn : w.net.getCryptoConnection id = some conn)
    (hstart : conn.sendArray.bufferStart = plainBufferStart plain) (rttCalcTime : UInt64) (udp : Bool) :
    Simulates sodium inbox id e
      (handleRealData .recording env w id (plainNum plain) (plainRealData plain) rttCalcTime udp).2.net accepted
      (NetCrypto.handleRealData .recording env w id (plainNum plain) (plainRealData plain) rttCalcTime udp).2.app := by
  unfold NetCrypto.handleRealData
  rw [hconn, halloc]
  split
  · rename_i conn' packetId heq hhead
    obtain rfl := some_inj.mp heq
    split
    · rename_i hrequest
      subst hrequest
      have hacts (latestSendTime rttTime now : UInt64) (outbox : List Bytes) :
          Endpoint.Acts inbox (conn.endpoint accepted w.app outbox) _ :=
        .handleRequest hplain hhead hstart latestSendTime rttTime now
      dsimp only
      split
      · exact h.set hconn rfl fun outbox => .single (hacts _ _ _ outbox)
      · apply updateRtt
        exact h.set hconn rfl fun outbox => .trans (.single (hacts _ _ _ outbox)) (extend hplain _ _ _ _ _ _)
    · split
      · rename_i hlossless
        split
        · exact h
        · rename_i recvArray hadd
          have htake : Simulates sodium inbox id e (w.write id { conn with recvArray := recvArray }).net accepted
            w.app :=
            h.set hconn rfl fun outbox => .single (.take hplain hhead hlossless hadd)
          have hdeliver := deliverLoop (numPacketsArray recvArray + 1) htake
          dsimp only
          split
          · rename_i w' heq'
            rwa [heq'] at hdeliver
          · rename_i w' heq'
            rw [heq'] at hdeliver
            apply updateRtt
            exact hdeliver.modify_other _ (fun _ => rfl) (fun _ => rfl) fun _ => .inl rfl
      · split
        · apply updateRtt
          exact h.set hconn rfl fun outbox => extend hplain _ _ _ _ _ _
        · exact h
  · exact h

/-- The packets the peer has are dropped; then the send array starts where the peer's receive buffer does. -/
theorem acknowledge {rttCalcTime : UInt64} {plain : Bytes} {conn' : CryptoConnection} (hplain : plain ∈ inbox)
    (h : acknowledge conn (plainBufferStart plain) = some (rttCalcTime, conn')) (accepted : List (UInt32 × Bytes))
    (delivered outbox : List Bytes) :
    conn'.sendArray.bufferStart = plainBufferStart plain ∧ conn'.status = conn.status ∧
      ReflTransGen (Endpoint.Acts inbox) (conn.endpoint accepted delivered outbox)
        (conn'.endpoint accepted delivered outbox) := by
  unfold NetCrypto.acknowledge at h
  split at h
  · rename_i hsame
    obtain ⟨-, rfl⟩ := Prod.mk.inj (some_inj.mp h)
    exact ⟨hsame.symm, rfl, .refl⟩
  · obtain ⟨sendArray, hclear, heq⟩ := map_eq_some_iff.mp h
    obtain ⟨-, rfl⟩ := Prod.mk.inj heq
    exact ⟨clearBufferUntil_bufferStart hclear, rfl, .single (.acknowledge hplain hclear)⟩

/-- A plain text arrives. -/
theorem handlePlain (h : Simulates sodium inbox id e w.net accepted w.app) (halloc : env.alloc .packet = true)
    (hplain : plain ∈ inbox) (hkill : (plainRealData plain).head? ≠ some packetIdKill)
    (hconn : w.net.getCryptoConnection id = some conn) (udp : Bool) :
    Simulates sodium inbox id e (handlePlain sodium .recording env w id conn plain udp).2.net accepted
      (NetCrypto.handlePlain sodium .recording env w id conn plain udp).2.app := by
  unfold NetCrypto.handlePlain
  split
  · exact h
  · split
    · exact h
    · rename_i rttCalcTime conn' hack
      obtain ⟨hstart, hstatus, -⟩ := acknowledge hplain hack accepted w.app []
      have hset : Simulates sodium inbox id e (w.write id conn').net accepted w.app :=
        h.set hconn hstatus fun outbox => (acknowledge hplain hack accepted w.app outbox).2.2
      obtain ⟨conn₁, hconn₁, hestablished⟩ := h.live
      obtain rfl := some_inj.mp (hconn.symm.trans hconn₁)
      have hestablished' : conn'.status = .established := hstatus.trans hestablished
      have hconn' : (w.write id conn').net.getCryptoConnection id = some conn' := by
        apply World.write_get (getCryptoConnection_eq_some.mp hconn).1
        rw [hestablished']
        decide
      simp only [handleAcknowledged, if_neg hkill]
      split
      · exact hset
      · rw [confirmConnection, if_neg (by rw [hestablished']; decide)]
        exact handleRealData hset halloc hplain hconn' hstart rttCalcTime udp

/-- A packet of the peer arrives. -/
theorem handleDataPacketHelper (h : Simulates sodium inbox id e w.net accepted w.app) (hideal : sodium.Ideal)
    (halloc : env.alloc .packet = true) {packet : Bytes} (hseals : Seals sodium packet plain) (hplain : plain ∈ inbox)
    (hkill : (plainRealData plain).head? ≠ some packetIdKill) (udp : Bool) :
    Simulates sodium inbox id e (handleDataPacketHelper sodium .recording env w id packet udp).2.net accepted
      (NetCrypto.handleDataPacketHelper sodium .recording env w id packet udp).2.app := by
  unfold NetCrypto.handleDataPacketHelper
  split
  · exact h
  · split
    · exact h
    · rename_i conn hconn
      split
      · exact h
      · rename_i data conn' hhandle
        obtain ⟨hdecrypt, rfl⟩ := handleDataPacket_some hhandle
        obtain ⟨key, nonce, hencrypt⟩ := hseals
        obtain rfl := hideal _ _ _ _ hencrypt _ _ _ hdecrypt
        obtain ⟨recvNonce, hmove⟩ := moveBase_eq conn packet
        rw [hmove]
        have hset : Simulates sodium inbox id e (w.write id { conn with recvNonce := recvNonce }).net accepted w.app :=
          h.set hconn rfl fun outbox => .refl
        exact handlePlain hset halloc hplain hkill (World.write_get (getCryptoConnection_eq_some.mp hconn).1
          (getCryptoConnection_eq_some.mp hconn).2) udp

end Simulates

/-! ## Two sides -/

/-- One side: its state, the id of the connection, and the payloads that `write_cryptpacket` returned a number for.
The packets counted as sent are the ones sent since the connection was established. -/
structure Side where
  world : World (List Bytes)
  id : ℕ
  accepted : List (UInt32 × Bytes)

/-- The connection is established and unused. -/
structure Side.Unused (s : Side) : Prop where
  connection : ∃ conn, s.world.net.getCryptoConnection s.id = some conn ∧ conn.status = .established ∧
    conn.sendArray = .emptyAt 0 ∧ conn.recvArray = .emptyAt 0
  sent : ∀ packet, (s.id, packet) ∉ s.world.net.sent
  delivered : s.world.app = []
  accepted : s.accepted = []

/-- The side after a call that only sends. -/
def Side.sending (s : Side) (net : NetCrypto) : Side := { s with world := { s.world with net := net } }

open NetCrypto in
/-- A call on one side, or the arrival of any packet the other side has ever sent. Allocations succeed; everything
else a call observes is arbitrary. -/
inductive Side.Step (sodium : Sodium) (peer : Side) : Side → Side → Prop
  | write (s : Side) {env : Env} (halloc : env.alloc .packet = true) (data : Bytes) (congestionControl : Bool) :
      Step sodium peer s
        { s.sending (writeCryptpacket sodium env s.world.net s.id data congestionControl).2 with
          accepted := accept s.accepted data (writeCryptpacket sodium env s.world.net s.id data congestionControl).1 }
  | request (s : Side) (env : Env) : Step sodium peer s (s.sending (sendRequestPacket sodium env s.world.net s.id).2)
  | retransmit (s : Side) (env : Env) (maxNum : UInt32) :
      Step sodium peer s (s.sending (sendRequestedPackets sodium env s.world.net s.id maxNum).2)
  | lossy (s : Side) (env : Env) (data : Bytes) :
      Step sodium peer s (s.sending (sendLossyCryptpacket sodium env s.world.net s.id data).2)
  | receive (s : Side) {env : Env} (halloc : env.alloc .packet = true) {packet : Bytes}
      (hsent : (peer.id, packet) ∈ peer.world.net.sent) (udp : Bool) :
      Step sodium peer s { s with world := (handleDataPacketHelper sodium .recording env s.world s.id packet udp).2 }

/-- Either side takes a step. -/
inductive PairStep (sodium : Sodium) : Side × Side → Side × Side → Prop
  | left {a a' b : Side} (h : Side.Step sodium b a a') : PairStep sodium (a, b) (a', b)
  | right {a b b' : Side} (h : Side.Step sodium a b b') : PairStep sodium (a, b) (a, b')

/-- The sides are two linked endpoints. -/
def PairLinked (sodium : Sodium) (a b : Side) : Prop :=
  ∃ connA outA connB outB, Tracks sodium a.world.net a.id connA outA ∧ Tracks sodium b.world.net b.id connB outB ∧
    Linked (connA.endpoint a.accepted a.world.app outA) (connB.endpoint b.accepted b.world.app outB)

/-- The two sides are linked both ways. -/
theorem PairLinked.symm {a b : Side} (h : PairLinked sodium a b) : PairLinked sodium b a := by
  obtain ⟨connA, outA, connB, outB, ha, hb, hlinked⟩ := h
  exact ⟨connB, outB, connA, outA, hb, ha, hlinked.symm⟩

/-- Unused connections are linked. -/
theorem PairLinked.unused {a b : Side} (ha : a.Unused) (hb : b.Unused) : PairLinked sodium a b := by
  have hfresh {s : Side} (hs : s.Unused) : ∃ conn, Tracks sodium s.world.net s.id conn [] ∧
      conn.endpoint s.accepted s.world.app [] = .fresh := by
    obtain ⟨conn, hconn, hestablished, hsend, hrecv⟩ := hs.connection
    refine ⟨conn, ⟨hconn, hestablished, fun packet hmem => absurd hmem (hs.sent packet)⟩, ?_⟩
    rw [CryptoConnection.endpoint, hs.accepted, hs.delivered, hsend, hrecv]
    rfl
  obtain ⟨connA, htracksA, hA⟩ := hfresh ha
  obtain ⟨connB, htracksB, hB⟩ := hfresh hb
  refine ⟨connA, [], connB, [], htracksA, htracksB, ?_⟩
  rw [hA, hB]
  exact .fresh

/-- Payloads stay accepted, and the connection keeps its id. -/
theorem Side.Step.le {peer s s' : Side} (h : Side.Step sodium peer s s') :
    s'.id = s.id ∧ s.accepted.length ≤ s'.accepted.length := by
  cases h with
  | @write env halloc data congestionControl =>
    refine ⟨rfl, ?_⟩
    dsimp only
    cases (NetCrypto.writeCryptpacket sodium env s.world.net s.id data congestionControl).1 with
    | none => exact le_refl _
    | some num => simp [accept]
  | request | retransmit | lossy | receive => exact ⟨rfl, le_refl _⟩

/-- Every call of a side does things an endpoint can do. -/
theorem Simulates.step {sodium : Sodium} (hideal : sodium.Ideal) {peer s s' : Side} {inbox : List Bytes} {e : Endpoint}
    (h : Simulates sodium inbox s.id e s.world.net s.accepted s.world.app)
    (hpeer : ∀ packet, (peer.id, packet) ∈ peer.world.net.sent → ∃ plain ∈ inbox, Seals sodium packet plain)
    (hkill : ∀ plain ∈ inbox, (NetCrypto.plainRealData plain).head? ≠ some packetIdKill)
    (hstep : Side.Step sodium peer s s') :
    Simulates sodium inbox s.id e s'.world.net s'.accepted s'.world.app := by
  cases hstep with
  | write halloc data congestionControl => exact h.writeCryptpacket halloc data congestionControl
  | request env => exact h.sendRequestPacket env
  | retransmit env maxNum => exact h.sendRequestedPackets env maxNum
  | lossy env data => exact h.sendLossyCryptpacket env data
  | receive halloc hsent udp =>
    obtain ⟨plain, hplain, hseals⟩ := hpeer _ hsent
    exact h.handleDataPacketHelper hideal halloc hseals hplain (hkill plain hplain) udp

/-- A step of one side keeps the sides linked while the numbers are small. -/
theorem PairLinked.step {sodium : Sodium} (hideal : sodium.Ideal) {a a' b : Side} (h : PairLinked sodium a b)
    (hstep : Side.Step sodium b a a') (ha : a.accepted.length < 2 ^ 31) (hb : b.accepted.length < 2 ^ 31) :
    PairLinked sodium a' b := by
  obtain ⟨connA, outA, connB, outB, htracksA, htracksB, hlinked⟩ := h
  have hkill : ∀ plain ∈ outB, (NetCrypto.plainRealData plain).head? ≠ some packetIdKill := by
    obtain ⟨-, acked, stop, hflow⟩ := hlinked (by simpa [CryptoConnection.endpoint] using ha)
      (by simpa [CryptoConnection.endpoint] using hb)
    exact fun plain hplain => hflow.not_kill hplain
  have hsim : Simulates sodium outB a.id _ a.world.net a.accepted a.world.app := ⟨connA, outA, htracksA, .refl⟩
  obtain ⟨connA', outA', htracksA', hrun⟩ := hsim.step hideal htracksB.sent hkill hstep
  rw [← hstep.le.1] at htracksA'
  exact ⟨connA', outA', connB, outB, htracksA', htracksB, hlinked.run hrun⟩

/-- The sides stay linked in every state reached while the numbers are small. -/
theorem PairLinked.run (hideal : sodium.Ideal) {pair pair' : Side × Side} (h : PairLinked sodium pair.1 pair.2)
    (hrun : ReflTransGen (PairStep sodium) pair pair') (ha : pair'.1.accepted.length < 2 ^ 31)
    (hb : pair'.2.accepted.length < 2 ^ 31) : PairLinked sodium pair'.1 pair'.2 := by
  induction hrun with
  | refl => exact h
  | tail _ hstep ih =>
    cases hstep with
    | left hstep =>
      have hbefore := hstep.le.2.trans_lt ha
      exact (ih hbefore hb).step hideal hstep hbefore hb
    | right hstep =>
      have hbefore := hstep.le.2.trans_lt hb
      exact ((ih ha hbefore).symm.step hideal hstep hbefore ha).symm

/-- Two sides with one established, unused connection to each other make any calls and the network delivers any
packets: what was delivered on one side is the beginning of what was accepted on the other, and every accepted payload
that is not delivered yet is found in the send array or in the receive array under the number returned for it. -/
theorem handleDataPacketHelper_delivers_in_order (sodium : Sodium) (hideal : sodium.Ideal) {a b a' b' : Side}
    (ha : a.Unused) (hb : b.Unused) (hrun : ReflTransGen (PairStep sodium) (a, b) (a', b'))
    (hsmall : a'.accepted.length < 2 ^ 31) (hsmall' : b'.accepted.length < 2 ^ 31) :
    b'.world.app <+: a'.accepted.map Prod.snd ∧
      ∃ connA connB, a'.world.net.getCryptoConnection a'.id = some connA ∧
        b'.world.net.getCryptoConnection b'.id = some connB ∧
        ∀ n num data, b'.world.app.length ≤ n → a'.accepted[n]? = some (num, data) →
          ∃ packet : PacketData, packet.data = data ∧
            (getDataPointer connA.sendArray num = some (some packet) ∨
              getDataPointer connB.recvArray num = some (some packet)) := by
  obtain ⟨connA, outA, connB, outB, htracksA, htracksB, hlinked⟩ :=
    (PairLinked.unused ha hb).run hideal hrun hsmall hsmall'
  obtain ⟨hfront, hheld⟩ := hlinked.reliable (by simpa [CryptoConnection.endpoint] using hsmall)
    (by simpa [CryptoConnection.endpoint] using hsmall')
  refine ⟨hfront, connA, connB, htracksA.live, htracksB.live, ?_⟩
  intro n num data hn haccepted
  have hnum : (a'.accepted.map Prod.fst)[n]? = some num := by rw [getElem?_map, haccepted, map_some]
  have hdata : (a'.accepted.map Prod.snd)[n]? = some data := by rw [getElem?_map, haccepted, map_some]
  obtain ⟨packet, hpacket, hfound⟩ := hheld n num hn hnum
  exact ⟨packet, some_inj.mp (hpacket.symm.trans hdata), hfound⟩

/-- A side whose connection is established and unused. -/
def establishedSide : Side where
  world :=
    { net :=
        { NetCrypto.new ⟨List.Vector.replicate 32 1, List.Vector.replicate 32 1, fun _ => .zero⟩
            (List.Vector.replicate 32 2) (List.Vector.replicate 32 2) (List.Vector.replicate 32 3) with
          cryptoConnections := [{ CryptoConnection.zero with status := .established }] }
      app := [] }
  id := 0
  accepted := []

theorem establishedSide_unused : establishedSide.Unused :=
  ⟨⟨{ CryptoConnection.zero with status := .established }, rfl, rfl, rfl, rfl⟩, fun _ => not_mem_nil, rfl, rfl⟩

/-- The side after it wrote two payloads. -/
def writingSide : Side :=
  let write (s : Side) (data : Bytes) : Side :=
    { s.sending (NetCrypto.writeCryptpacket .plain .calm s.world.net 0 data false).2 with
      accepted := accept s.accepted data (NetCrypto.writeCryptpacket .plain .calm s.world.net 0 data false).1 }
  write (write establishedSide [32, 7]) [33, 8]

/-- The other side after the network delivered the first packet. -/
def readingSide : Side :=
  { establishedSide with
    world := (NetCrypto.handleDataPacketHelper .plain .recording .calm establishedSide.world 0
      ((writingSide.world.net.sent.map Prod.snd).headD []) true).2 }

/-- Two payloads are written and the first packet arrives: the first payload is delivered, the second one is held. -/
theorem handleDataPacketHelper_delivers_in_order_twoWrites :
    readingSide.world.app = [[32, 7]] ∧ writingSide.accepted = [(0, [32, 7]), (1, [33, 8])] ∧
      readingSide.world.app <+: writingSide.accepted.map Prod.snd ∧
      ∃ connA connB, writingSide.world.net.getCryptoConnection 0 = some connA ∧
        readingSide.world.net.getCryptoConnection 0 = some connB ∧
        ∃ packet : PacketData, packet.data = [33, 8] ∧
          (getDataPointer connA.sendArray 1 = some (some packet) ∨
            getDataPointer connB.recvArray 1 = some (some packet)) := by
  have hdelivered : readingSide.world.app = [[32, 7]] := by decide +kernel
  have haccepted : writingSide.accepted = [(0, [32, 7]), (1, [33, 8])] := by decide +kernel
  have hrun : ReflTransGen (PairStep .plain) (establishedSide, establishedSide) (writingSide, readingSide) := by
    refine .tail (.tail (.tail .refl (.left (.write _ rfl [32, 7] false))) (.left (.write _ rfl [33, 8] false)))
      (.right ?_)
    refine .receive establishedSide rfl ?_ true
    decide +kernel
  obtain ⟨hfront, connA, connB, hconnA, hconnB, hheld⟩ := handleDataPacketHelper_delivers_in_order .plain
    Sodium.plain_ideal establishedSide_unused establishedSide_unused hrun (by rw [haccepted]; decide) (by decide)
  refine ⟨hdelivered, haccepted, hfront, connA, connB, hconnA, hconnB, hheld 1 1 [33, 8] ?_ ?_⟩
  · rw [hdelivered]
    decide
  · rw [haccepted]
    rfl

end Toxcore
