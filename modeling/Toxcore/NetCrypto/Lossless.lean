import Toxcore.NetCrypto.DataPackets

/-!
# Sending data on a connection

Lossless packets are numbered and kept in the send array until the peer has them; request packets tell
the peer which packets are missing; packets that were requested, or never went out, are sent again.
-/

namespace Toxcore

open ByteStrings RingWindow

/-- Write the time a packet of the array was sent at. -/
def setSentTime (time : UInt64) (number : UInt32) (array : PacketsArray) : PacketsArray :=
  { array with
    buffer := Function.update array.buffer (packetSlot number)
      ((array.buffer (packetSlot number)).map fun packet => { packet with sentTime := time }) }

namespace NetCrypto

variable (sodium : Sodium) (env : Env)

/-- The fields written once the last packet of the send array has gone out. -/
def lastPacketSent (packetNum : UInt32) (conn : CryptoConnection) : CryptoConnection :=
  { conn with
    sendArray := setSentTime env.monotonicTime packetNum conn.sendArray
    maximumSpeedReached := false }

/-- `reset_max_speed_reached`: the last packet is tried again where it did not go out. -/
def resetMaxSpeedReached (c : NetCrypto) (id : ℕ) : Bool × NetCrypto :=
  match c.getCryptoConnection id with
  | none => (false, c)
  | some conn =>
    if conn.maximumSpeedReached = false then (true, c)
    else
      match getDataPointer conn.sendArray (conn.sendArray.bufferEnd - 1) with
      | some (some packet) =>
        if packet.sentTime = 0 then
          match sendDataPacketHelper sodium env c id conn.recvArray.bufferStart (conn.sendArray.bufferEnd - 1)
              packet.data with
          | (false, c) => (false, c)
          | (true, c) => (true, c.modifyConnection id (lastPacketSent env (conn.sendArray.bufferEnd - 1)))
        else (true, c.modifyConnection id fun conn => { conn with maximumSpeedReached := false })
      | _ => (true, c.modifyConnection id fun conn => { conn with maximumSpeedReached := false })

/-- The time a packet that went out is marked with. -/
def markSent (packetNum : UInt32) (conn : CryptoConnection) : CryptoConnection :=
  match getDataPointer conn.sendArray packetNum with
  | some (some _) => { conn with sendArray := setSentTime env.monotonicTime packetNum conn.sendArray }
  | _ => conn

/-- The rest of `send_lossless_packet` once the packet has a number. -/
def sendNumbered (c : NetCrypto) (id : ℕ) (conn : CryptoConnection) (packetNum : UInt32) (data : Bytes)
    (congestionControl : Bool) : NetCrypto :=
  if congestionControl = false ∧ conn.maximumSpeedReached = true then c
  else
    match sendDataPacketHelper sodium env c id conn.recvArray.bufferStart packetNum data with
    | (true, c) => c.modifyConnection id (markSent env packetNum)
    | (false, c) => c.modifyConnection id fun conn => { conn with maximumSpeedReached := true }

/-- `send_lossless_packet`: the number of the packet. -/
def sendLosslessPacket (c : NetCrypto) (id : ℕ) (data : Bytes) (congestionControl : Bool) :
    Option UInt32 × NetCrypto :=
  if data.length = 0 ∨ data.length > maxCryptoDataSize then (none, c)
  else
    match (resetMaxSpeedReached sodium env c id).2.getCryptoConnection id with
    | none => (none, c)
    | some conn =>
      if conn.maximumSpeedReached = true ∧ congestionControl = true then
        (none, (resetMaxSpeedReached sodium env c id).2)
      else
        match addDataEndOfBuffer (env.alloc .packet) conn.sendArray ⟨0, data⟩ with
        | none => (none, (resetMaxSpeedReached sodium env c id).2)
        | some (packetNum, sendArray) =>
          (some packetNum, sendNumbered sodium env
            ((resetMaxSpeedReached sodium env c id).2.setConnection id { conn with sendArray := sendArray }) id conn
            packetNum data congestionControl)

/-- The counters of a packet under congestion control. -/
def countPacket (conn : CryptoConnection) : CryptoConnection :=
  { conn with
    packetsLeft := conn.packetsLeft - 1
    packetsLeftRequested := conn.packetsLeftRequested - 1
    packetsSent := conn.packetsSent + 1 }

/-- `write_cryptpacket`. -/
def writeCryptpacket (c : NetCrypto) (id : ℕ) (data : Bytes) (congestionControl : Bool) :
    Option UInt32 × NetCrypto :=
  match data.head?, c.getCryptoConnection id with
  | some packetId, some conn =>
    if packetId < cryptoReservedPackets ∨ packetId ≥ packetIdLossyRangeStart then (none, c)
    else if conn.status ≠ .established then (none, c)
    else if congestionControl = true ∧ conn.packetsLeft = 0 then (none, c)
    else
      match sendLosslessPacket sodium env c id data congestionControl with
      | (none, c) => (none, c)
      | (some packetNum, c) =>
        (some packetNum, if congestionControl then c.modifyConnection id countPacket else c)
  | _, _ => (none, c)

/-- `send_lossy_cryptpacket`. -/
def sendLossyCryptpacket (c : NetCrypto) (id : ℕ) (data : Bytes) : Bool × NetCrypto :=
  match data.head?, c.getCryptoConnection id with
  | some packetId, some conn =>
    if data.length > maxCryptoDataSize ∨ packetId < packetIdLossyRangeStart ∨
        packetId ≥ packetIdLossyRangeStart + packetIdLossyRangeSize then (false, c)
    else sendDataPacketHelper sodium env c id conn.recvArray.bufferStart conn.sendArray.bufferEnd data
  | _, _ => (false, c)

/-- `send_request_packet`. -/
def sendRequestPacket (c : NetCrypto) (id : ℕ) : Bool × NetCrypto :=
  match c.getCryptoConnection id with
  | none => (false, c)
  | some conn =>
    match generateRequestPacket maxCryptoDataSize conn.recvArray with
    | none => (false, c)
    | some data => sendDataPacketHelper sodium env c id conn.recvArray.bufferStart conn.sendArray.bufferEnd data

/-- The loop of `send_requested_packets` over the remaining numbers, with the packets sent so far. -/
def sendRequestedLoop (id : ℕ) (maxNum : UInt32) : List UInt32 → UInt32 → NetCrypto → Option UInt32 × NetCrypto
  | [], numSent, c => (some numSent, c)
  | packetNum :: rest, numSent, c =>
    match c.getCryptoConnection id with
    | none => (none, c)
    | some conn =>
      match getDataPointer conn.sendArray packetNum with
      | none => (none, c)
      | some none => sendRequestedLoop id maxNum rest numSent c
      | some (some packet) =>
        if packet.sentTime ≠ 0 then sendRequestedLoop id maxNum rest numSent c
        else
          match sendDataPacketHelper sodium env c id conn.recvArray.bufferStart packetNum packet.data with
          | (false, c) =>
            if numSent ≥ maxNum then (some numSent, c) else sendRequestedLoop id maxNum rest numSent c
          | (true, c) =>
            if numSent + 1 ≥ maxNum then
              (some (numSent + 1), c.modifyConnection id fun conn =>
                { conn with sendArray := setSentTime env.monotonicTime packetNum conn.sendArray })
            else
              sendRequestedLoop id maxNum rest (numSent + 1) (c.modifyConnection id fun conn =>
                { conn with sendArray := setSentTime env.monotonicTime packetNum conn.sendArray })

/-- `send_requested_packets`: the number of packets sent. -/
def sendRequestedPackets (c : NetCrypto) (id : ℕ) (maxNum : UInt32) : Option UInt32 × NetCrypto :=
  if maxNum = 0 then (none, c)
  else
    match c.getCryptoConnection id with
    | none => (none, c)
    | some conn =>
      sendRequestedLoop sodium env id maxNum (window conn.sendArray.bufferStart conn.sendArray.bufferEnd) 0 c

/-! ## What sending acts on -/

theorem sendRequestPacket_actsOn (c : NetCrypto) (id : ℕ) : ActsOn id c (sendRequestPacket sodium env c id).2 := by
  unfold sendRequestPacket
  split
  · exact .refl id c
  · split
    · exact .refl id c
    · exact sendDataPacketHelper_actsOn sodium env c id _ _ _

theorem sendRequestedLoop_actsOn (id : ℕ) (maxNum : UInt32) (numbers : List UInt32) (numSent : UInt32)
    (c : NetCrypto) : ActsOn id c (sendRequestedLoop sodium env id maxNum numbers numSent c).2 := by
  induction numbers generalizing numSent c with
  | nil => exact .refl id c
  | cons packetNum rest ih =>
    unfold sendRequestedLoop
    split
    · exact .refl id c
    · rename_i conn _
      split
      · exact .refl id c
      · exact ih numSent c
      · rename_i packet _
        have hsend := sendDataPacketHelper_actsOn sodium env c id conn.recvArray.bufferStart packetNum packet.data
        split
        · exact ih numSent c
        · split
          · rename_i c₁ heq
            rw [heq] at hsend
            split
            · exact hsend
            · exact hsend.trans (ih numSent c₁)
          · rename_i c₁ heq
            rw [heq] at hsend
            have hmark := hsend.modifyConnection (fun conn =>
              { conn with sendArray := setSentTime env.monotonicTime packetNum conn.sendArray }) fun _ => rfl
            split
            · exact hmark
            · exact hmark.trans (ih _ _)

/-- Requested packets are sent. -/
theorem sendRequestedPackets_actsOn (c : NetCrypto) (id : ℕ) (maxNum : UInt32) :
    ActsOn id c (sendRequestedPackets sodium env c id maxNum).2 := by
  unfold sendRequestedPackets
  split
  · exact .refl id c
  · split
    · exact .refl id c
    · exact sendRequestedLoop_actsOn sodium env id maxNum _ 0 c

/-! ## What queueing data changes -/

/-- What lossless data does to a node: packets go out, and the send array of its connection and the mark of its speed
change. -/
inductive Queues (id : ℕ) (c : NetCrypto) : NetCrypto → Prop
  | refl : Queues id c c
  | sends {c' c'' : NetCrypto} : Queues id c c' → SendsOnly c' c'' → Queues id c c''
  | writes {c' : NetCrypto} (f : CryptoConnection → CryptoConnection) : Queues id c c' →
      (∀ conn, ∃ sendArray mark, f conn = { conn with sendArray := sendArray, maximumSpeedReached := mark }) →
      Queues id c (c'.modifyConnection id f)

variable {c c' : NetCrypto} {id : ℕ}

theorem Queues.sendDataPacketHelper (h : Queues id c c') (bufferStart num : UInt32) (data : Bytes) :
    Queues id c (NetCrypto.sendDataPacketHelper sodium env c' id bufferStart num data).2 :=
  h.sends (sendDataPacketHelper_sendsOnly sodium env c' id bufferStart num data)

theorem resetMaxSpeedReached_queues (c : NetCrypto) (id : ℕ) :
    Queues id c (resetMaxSpeedReached sodium env c id).2 := by
  unfold resetMaxSpeedReached
  split
  · exact .refl
  · rename_i conn _
    split
    · exact .refl
    · split
      · rename_i packet _
        have hsend : Queues id c _ := Queues.refl.sendDataPacketHelper sodium env conn.recvArray.bufferStart
          (conn.sendArray.bufferEnd - 1) packet.data
        split
        · split
          · rename_i heq
            rwa [heq] at hsend
          · rename_i heq
            rw [heq] at hsend
            exact hsend.writes _ fun _ => ⟨_, _, rfl⟩
        · exact Queues.refl.writes _ fun _ => ⟨_, _, rfl⟩
      · exact Queues.refl.writes _ fun _ => ⟨_, _, rfl⟩

/-- The packet of a number is sent. -/
theorem Queues.sendNumbered (h : Queues id c c') (conn : CryptoConnection) (packetNum : UInt32) (data : Bytes)
    (congestionControl : Bool) :
    Queues id c (NetCrypto.sendNumbered sodium env c' id conn packetNum data congestionControl) := by
  have hsend := h.sendDataPacketHelper sodium env conn.recvArray.bufferStart packetNum data
  unfold NetCrypto.sendNumbered
  split
  · exact h
  · split
    · rename_i heq
      rw [heq] at hsend
      refine hsend.writes _ fun conn => ?_
      unfold markSent
      split
      · exact ⟨_, _, rfl⟩
      · exact ⟨_, _, rfl⟩
    · rename_i heq
      rw [heq] at hsend
      exact hsend.writes _ fun _ => ⟨_, _, rfl⟩

/-- A lossless packet is queued. -/
theorem sendLosslessPacket_queues (c : NetCrypto) (id : ℕ) (data : Bytes) (congestionControl : Bool) :
    Queues id c (sendLosslessPacket sodium env c id data congestionControl).2 := by
  have hreset := resetMaxSpeedReached_queues sodium env c id
  unfold sendLosslessPacket
  split
  · exact .refl
  · split
    · exact .refl
    · rename_i conn hconn
      split
      · exact hreset
      · split
        · exact hreset
        · rename_i sendArray _
          have hset := hreset.writes (fun conn => { conn with sendArray := sendArray }) fun _ => ⟨_, _, rfl⟩
          rw [modifyConnection_eq (getCryptoConnection_eq_some.mp hconn).1] at hset
          exact hset.sendNumbered sodium env conn _ data congestionControl

end NetCrypto

end Toxcore
