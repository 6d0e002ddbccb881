import Toxcore.NetCrypto.Sending

/-!
# Data packets

A data packet carries the low 16 bits of the nonce it was encrypted with. The sender counts its nonce
up by one for every packet; the receiver adds the 16-bit difference to a base nonce of its own, and
moves the base by `DATA_NUM_THRESHOLD` whenever the difference passes twice the threshold.

The main result is that the receiver keeps finding the nonce of the sender, however often the 16 bits
wrap, as long as packets do not stray further than the threshold from the newest one.
-/

namespace Toxcore

open ByteStrings

/-- `DATA_NUM_THRESHOLD`. -/
abbrev dataNumThreshold : ℕ := 21845

/-- `PACKET_ID_PADDING`. -/
def packetIdPadding : UInt8 := 0

/-- `CRYPTO_MAX_PADDING`. -/
def cryptoMaxPadding : ℕ := 8

/-- `CRYPTO_RESERVED_PACKETS`. -/
def cryptoReservedPackets : UInt8 := 16

/-- `PACKET_ID_LOSSY_RANGE_START`. -/
def packetIdLossyRangeStart : UInt8 := 192

/-- `PACKET_ID_LOSSY_RANGE_SIZE`. -/
def packetIdLossyRangeSize : UInt8 := 63

/-- The ids of lossless packets. -/
def IsLossless (id : UInt8) : Prop := cryptoReservedPackets ≤ id ∧ id < packetIdLossyRangeStart

/-- The ids of lossy packets. -/
def IsLossy (id : UInt8) : Prop :=
  packetIdLossyRangeStart ≤ id ∧ id < packetIdLossyRangeStart + packetIdLossyRangeSize

instance (id : UInt8) : Decidable (IsLossless id) := inferInstanceAs (Decidable (_ ∧ _))

instance (id : UInt8) : Decidable (IsLossy id) := inferInstanceAs (Decidable (_ ∧ _))

/-- The bytes of a data packet: the low bytes of the nonce and the encrypted data. -/
def dataPacket (nonce : Nonce) (encrypted : Bytes) : Bytes :=
  netPacketCryptoData :: ((slice 2 nonce.toList 22).toList ++ encrypted)

/-- The encrypted data of a data packet. -/
theorem dataPacket_drop (nonce : Nonce) (encrypted : Bytes) :
    (dataPacket nonce encrypted).drop (1 + 2) = encrypted := by
  change ((slice 2 nonce.toList 22).toList ++ encrypted).drop (2 + 0) = encrypted
  rw [drop_skip, List.drop_zero]

/-- `get_nonce_uint16`. -/
def getNonceUint16 (nonce : Nonce) : UInt16 := UInt16.ofNat (beNat (slice 2 nonce.toList 22).toList)

namespace NetCrypto

/-- `send_data_packet`. -/
def sendDataPacket (sodium : Sodium) (env : Env) (c : NetCrypto) (id : ℕ) (data : Bytes) :
    Bool × NetCrypto :=
  if data.length = 0 ∨ data.length + (1 + 2 + macBytes) > maxCryptoPacketSize then (false, c)
  else
    match c.getCryptoConnection id with
    | none => (false, c)
    | some conn =>
      match encryptDataSymmetric sodium conn.sharedKey conn.sentNonce data with
      | none => (false, c)
      | some encrypted =>
        sendPacketTo env (c.setConnection id { conn with sentNonce := incrementNonce conn.sentNonce }) id
          (dataPacket conn.sentNonce encrypted)

/-- The plain text of a data packet: the start of the receive buffer, the packet number, padding and
the data. -/
def plainData (bufferStart num : UInt32) (data : Bytes) : Bytes :=
  (beBlock 4 bufferStart.toNat).toList ++ ((beBlock 4 num.toNat).toList ++
    (List.replicate ((maxCryptoDataSize - data.length) % cryptoMaxPadding) packetIdPadding ++ data))

/-- `send_data_packet_helper`. -/
def sendDataPacketHelper (sodium : Sodium) (env : Env) (c : NetCrypto) (id : ℕ) (bufferStart num : UInt32)
    (data : Bytes) : Bool × NetCrypto :=
  if data.length = 0 ∨ data.length > maxCryptoDataSize then (false, c)
  else sendDataPacket sodium env c id (plainData bufferStart num data)

/-- A data packet is sent. -/
theorem sendDataPacket_sendsOnly (sodium : Sodium) (env : Env) (c : NetCrypto) (id : ℕ) (data : Bytes) :
    SendsOnly c (sendDataPacket sodium env c id data).2 := by
  unfold sendDataPacket
  split
  · exact .refl c
  · split
    · exact .refl c
    · rename_i conn hconn
      split
      · exact .refl c
      · refine SendsOnly.trans ?_ (sendPacketTo_sendsOnly _ _ _ _)
        exact (SendsOnly.refl c).setConnection (getCryptoConnection_eq_some.mp hconn).1 rfl

theorem sendDataPacketHelper_sendsOnly (sodium : Sodium) (env : Env) (c : NetCrypto) (id : ℕ)
    (bufferStart num : UInt32) (data : Bytes) :
    SendsOnly c (sendDataPacketHelper sodium env c id bufferStart num data).2 := by
  unfold sendDataPacketHelper
  split
  · exact .refl c
  · exact sendDataPacket_sendsOnly sodium env c id _

theorem sendDataPacketHelper_actsOn (sodium : Sodium) (env : Env) (c : NetCrypto) (id : ℕ) (bufferStart num : UInt32)
    (data : Bytes) : ActsOn id c (sendDataPacketHelper sodium env c id bufferStart num data).2 := by
  unfold sendDataPacketHelper sendDataPacket
  split
  · exact .refl id c
  · split
    · exact .refl id c
    · split
      · exact .refl id c
      · rename_i conn hconn
        split
        · exact .refl id c
        · refine ActsOn.trans ?_ (sendPacketTo_actsOn _ _ _ _)
          exact (ActsOn.refl id c).setConnection hconn (getCryptoConnection_eq_some.mp hconn).2

variable {base : Nonce} {conn : CryptoConnection} {k r : ℕ} {sodium : Sodium} {newest : Option ℕ}

/-- The sender encrypts with its nonce, puts the low bytes of it in the packet and counts it up. -/
theorem sendDataPacket_nonce {env : Env} {c : NetCrypto} {id : ℕ} {data : Bytes}
    (hconn : c.getCryptoConnection id = some conn) (hnonce : conn.sentNonce = nonceAdd base k) :
    (sendDataPacket sodium env c id data).2 = c ∨
      ∃ encrypted conn', encryptDataSymmetric sodium conn.sharedKey (nonceAdd base k) data = some encrypted ∧
        (sendDataPacket sodium env c id data).2.sent =
          c.sent ++ [(id, dataPacket (nonceAdd base k) encrypted)] ∧
        (sendDataPacket sodium env c id data).2.getCryptoConnection id = some conn' ∧
        conn'.sentNonce = nonceAdd base (k + 1) := by
  obtain ⟨hget, hlive⟩ := getCryptoConnection_eq_some.mp hconn
  unfold sendDataPacket
  split
  · exact .inl rfl
  · simp only [hconn, hnonce]
    cases hencrypt : encryptDataSymmetric sodium conn.sharedKey (nonceAdd base k) data with
    | none => exact .inl rfl
    | some encrypted =>
      have hset : (c.setConnection id { conn with
          sentNonce := incrementNonce (nonceAdd base k) }).getCryptoConnection id = _ :=
        setConnection_get hget hlive
      obtain ⟨hsent, conn', hafter, hcounted, -⟩ :=
        sendPacketTo_live env (dataPacket (nonceAdd base k) encrypted) hset
      refine .inr ⟨encrypted, conn', rfl, hsent, hafter, ?_⟩
      rw [hcounted, incrementNonce_eq, nonceAdd_add]

/-- The difference `handle_data_packet` computes between the number in a packet and the base. -/
def dataPacketDiff (conn : CryptoConnection) (packet : Bytes) : UInt16 :=
  UInt16.ofNat (beNat (slice 2 packet 1).toList) - getNonceUint16 conn.recvNonce

/-- The nonce `handle_data_packet` decrypts a packet with. -/
def dataPacketNonce (conn : CryptoConnection) (packet : Bytes) : Nonce :=
  incrementNonceNumber conn.recvNonce (dataPacketDiff conn packet).toUInt32

/-- The connection after a packet was decrypted: its base moves when the packet is far ahead. -/
def moveBase (conn : CryptoConnection) (packet : Bytes) : CryptoConnection :=
  if (dataPacketDiff conn packet).toNat > dataNumThreshold * 2 then
    { conn with recvNonce := incrementNonceNumber conn.recvNonce (UInt32.ofNat dataNumThreshold) }
  else conn

/-- Only the base nonce moves. -/
theorem moveBase_eq (conn : CryptoConnection) (packet : Bytes) :
    ∃ recvNonce, moveBase conn packet = { conn with recvNonce := recvNonce } := by
  unfold moveBase
  split
  · exact ⟨_, rfl⟩
  · exact ⟨conn.recvNonce, rfl⟩

/-- `handle_data_packet`: the decrypted data and the connection with its base moved. -/
def handleDataPacket (sodium : Sodium) (conn : CryptoConnection) (packet : Bytes) :
    Option (Bytes × CryptoConnection) :=
  if packet.length ≤ 1 + 2 + macBytes ∨ packet.length > maxCryptoPacketSize then none
  else
    (decryptDataSymmetric sodium conn.sharedKey (dataPacketNonce conn packet) (packet.drop (1 + 2))).map
      fun data => (data, moveBase conn packet)

/-- What a decrypted packet means. -/
theorem handleDataPacket_some {conn' : CryptoConnection} {packet data : Bytes}
    (h : handleDataPacket sodium conn packet = some (data, conn')) :
    decryptDataSymmetric sodium conn.sharedKey (dataPacketNonce conn packet) (packet.drop (1 + 2)) = some data ∧
      conn' = moveBase conn packet := by
  unfold handleDataPacket at h
  split at h
  · contradiction
  · obtain ⟨data', hdecrypt, heq⟩ := Option.map_eq_some_iff.mp h
    obtain ⟨rfl, rfl⟩ := Prod.mk.inj heq
    exact ⟨hdecrypt, rfl⟩

/-! ## The receiver follows the nonces of the sender -/

/-- The receiving connection after a packet, decrypted or not. -/
def afterDataPacket (sodium : Sodium) (conn : CryptoConnection) (packet : Bytes) : CryptoConnection :=
  match handleDataPacket sodium conn packet with
  | none => conn
  | some (_, conn') => conn'

/-- The highest index accepted after the packet with index `k`. -/
def newestAfter (sodium : Sodium) (conn : CryptoConnection) (packet : Bytes) (newest : Option ℕ) (k : ℕ) :
    Option ℕ :=
  match handleDataPacket sodium conn packet with
  | none => newest
  | some _ => some (max (newest.getD 0) k)

/-- The index lies within the threshold of the highest one accepted. Before any packet was accepted,
every index that 16 bits can tell apart will do. -/
def NearNewest : Option ℕ → ℕ → Prop
  | none, k => k < 65536
  | some h, k => k ≤ h + dataNumThreshold ∧ h ≤ k + dataNumThreshold

/-- Every packet of a sequence arrives near the highest index accepted before it. A packet is given by
its index `k` and its encrypted bytes; its nonce is `base + k`. -/
def ArrivesNear (sodium : Sodium) (base : Nonce) : CryptoConnection → Option ℕ → List (ℕ × Bytes) → Prop
  | _, _, [] => True
  | conn, newest, (k, encrypted) :: rest =>
    let packet := dataPacket (nonceAdd base k) encrypted
    NearNewest newest k ∧
      ArrivesNear sodium base (afterDataPacket sodium conn packet) (newestAfter sodium conn packet newest k) rest

/-- Every packet of a sequence is decrypted with the nonce it was encrypted with. -/
def DecryptsEach (sodium : Sodium) (base : Nonce) : CryptoConnection → List (ℕ × Bytes) → Prop
  | _, [] => True
  | conn, (k, encrypted) :: rest =>
    let packet := dataPacket (nonceAdd base k) encrypted
    dataPacketNonce conn packet = nonceAdd base k ∧
      (¬(packet.length ≤ 1 + 2 + macBytes ∨ packet.length > maxCryptoPacketSize) →
        (handleDataPacket sodium conn packet).map Prod.fst =
          decryptDataSymmetric sodium conn.sharedKey (nonceAdd base k) encrypted) ∧
      DecryptsEach sodium base (afterDataPacket sodium conn packet) rest

/-- The base of the receiver is `r` packets after the start, and the newest packet accepted is at most
two thresholds ahead of it, and more than one once the base has moved. -/
structure InStep (base : Nonce) (conn : CryptoConnection) (newest : Option ℕ) (r : ℕ) : Prop where
  recvNonce : conn.recvNonce = nonceAdd base r
  start : newest = none → r = 0
  ahead : ∀ h, newest = some h → h ≤ r + 2 * dataNumThreshold ∧ (r = 0 ∨ r + dataNumThreshold < h)

/-- The low 16 bits of a nonce. -/
theorem beNat_nonce_low (base : Nonce) (count : ℕ) :
    beNat (slice 2 (nonceAdd base count).toList 22).toList = (beNat base.toList + count) % 65536 := by
  have hlow := beNat_slice_end (m := 22) (n := 2) (nonceAdd base count)
  rw [hlow, nonceAdd_value, Nat.mod_mod_of_dvd _ (Nat.pow_dvd_pow 256 (by omega))]

/-- A packet is seen at its distance from the base, if that fits 16 bits. -/
theorem dataPacketDiff_eq (encrypted : Bytes) (hrecv : conn.recvNonce = nonceAdd base r) (hle : r ≤ k)
    (hlt : k < r + 65536) : (dataPacketDiff conn (dataPacket (nonceAdd base k) encrypted)).toNat = k - r := by
  have hnum : slice 2 (dataPacket (nonceAdd base k) encrypted) 1 = slice 2 (nonceAdd base k).toList 22 := by
    rw [dataPacket, slice_cons _ _ 0, slice_block]
  rw [dataPacketDiff, getNonceUint16, hnum, hrecv, beNat_nonce_low, beNat_nonce_low, UInt16.toNat_sub,
    UInt16.toNat_ofNat', UInt16.toNat_ofNat']
  omega

/-- A packet near the newest one is decrypted with its own nonce. -/
theorem dataPacketNonce_eq (encrypted : Bytes) (hrecv : conn.recvNonce = nonceAdd base r) (hle : r ≤ k)
    (hlt : k < r + 65536) : dataPacketNonce conn (dataPacket (nonceAdd base k) encrypted) = nonceAdd base k := by
  rw [dataPacketNonce, incrementNonceNumber_eq, UInt16.toNat_toUInt32, dataPacketDiff_eq encrypted hrecv hle hlt, hrecv,
    nonceAdd_add, Nat.add_sub_cancel' hle]

/-- Near the newest packet, indices are within 16 bits of the base. -/
theorem InStep.near (h : InStep base conn newest r) (hnear : NearNewest newest k) : r ≤ k ∧ k < r + 65536 := by
  have hthreshold : dataNumThreshold = 21845 := rfl
  cases newest with
  | none =>
    have hr := h.start rfl
    have hk : k < 65536 := hnear
    omega
  | some newest =>
    obtain ⟨hahead, hbase⟩ := h.ahead newest rfl
    obtain ⟨habove, hbelow⟩ := hnear
    omega

/-- One packet keeps the receiver in step. -/
theorem InStep.after (sodium : Sodium) (h : InStep base conn newest r) (hnear : NearNewest newest k)
    (encrypted : Bytes) :
    let packet := dataPacket (nonceAdd base k) encrypted
    ∃ r', InStep base (afterDataPacket sodium conn packet) (newestAfter sodium conn packet newest k) r' := by
  intro packet
  have hthreshold : dataNumThreshold = 21845 := rfl
  obtain ⟨hle, hlt⟩ := h.near hnear
  have hdiff : (dataPacketDiff conn packet).toNat = k - r := dataPacketDiff_eq encrypted h.recvNonce hle hlt
  have hahead : newest.getD 0 ≤ r + 2 * dataNumThreshold ∧
      (r = 0 ∨ r + dataNumThreshold < newest.getD 0) := by
    cases newest with
    | none => exact ⟨Nat.zero_le _, .inl (h.start rfl)⟩
    | some top => exact h.ahead top rfl
  unfold afterDataPacket newestAfter
  cases hhandle : handleDataPacket sodium conn packet with
  | none => exact ⟨r, h⟩
  | some result =>
    obtain ⟨data, conn'⟩ := result
    obtain ⟨-, rfl⟩ := handleDataPacket_some hhandle
    dsimp only [moveBase]
    split
    · rename_i hfar
      rw [hdiff] at hfar
      refine ⟨r + dataNumThreshold, ?_, nofun, ?_⟩
      · change incrementNonceNumber conn.recvNonce (UInt32.ofNat dataNumThreshold) = _
        rw [incrementNonceNumber_eq, h.recvNonce, nonceAdd_add]
        rfl
      · intro top htop
        obtain rfl := Option.some_inj.mp htop
        omega
    · rename_i hclose
      rw [hdiff] at hclose
      refine ⟨r, h.recvNonce, nofun, ?_⟩
      intro top htop
      obtain rfl := Option.some_inj.mp htop
      omega

/-- A receiver in step decrypts every packet that arrives near the newest one with its own nonce. -/
theorem InStep.decryptsEach {packets : List (ℕ × Bytes)} (h : InStep base conn newest r)
    (harrives : ArrivesNear sodium base conn newest packets) : DecryptsEach sodium base conn packets := by
  induction packets generalizing conn newest r with
  | nil => trivial
  | cons head rest ih =>
    obtain ⟨k, encrypted⟩ := head
    obtain ⟨hnear, hrest⟩ := harrives
    obtain ⟨hle, hlt⟩ := h.near hnear
    have hnonce := dataPacketNonce_eq encrypted h.recvNonce hle hlt
    obtain ⟨r', hafter⟩ := h.after sodium hnear encrypted
    refine ⟨hnonce, ?_, ih hafter hrest⟩
    intro hlength
    rw [handleDataPacket, if_neg hlength, hnonce, dataPacket_drop]
    cases decryptDataSymmetric sodium conn.sharedKey (nonceAdd base k) encrypted <;> rfl

/-- A receiver that starts at the base nonce of the sender decrypts every packet with the nonce it was
encrypted with, as long as each arrives within the threshold of the newest one. -/
theorem handleDataPacket_decryptsEach (sodium : Sodium) (base : Nonce) (conn : CryptoConnection)
    (packets : List (ℕ × Bytes)) (hstart : conn.recvNonce = base)
    (harrives : ArrivesNear sodium base conn none packets) : DecryptsEach sodium base conn packets := by
  have hstep : InStep base conn none 0 := ⟨by rw [nonceAdd_zero, hstart], fun _ => rfl, nofun⟩
  exact hstep.decryptsEach harrives

/-- Packets 43700, 60000 and again 43700 from a base whose additions wrap all 24 bytes. -/
theorem handleDataPacket_decryptsEach_wrapping :
    let base : Nonce := List.Vector.replicate 24 255
    let conn := { CryptoConnection.zero with recvNonce := base }
    let encrypted := List.replicate 20 0
    ArrivesNear .plain base conn none [(43700, encrypted), (60000, encrypted), (43700, encrypted)] ∧
      DecryptsEach .plain base conn [(43700, encrypted), (60000, encrypted), (43700, encrypted)] := by
  intro base conn encrypted
  have harrives : ArrivesNear .plain base conn none
      [(43700, encrypted), (60000, encrypted), (43700, encrypted)] := by
    refine ⟨?_, ?_, ?_, trivial⟩
    · change 43700 < 65536
      omega
    · change NearNewest (some 43700) 60000
      exact ⟨by decide, by decide⟩
    · change NearNewest (some 60000) 43700
      exact ⟨by decide, by decide⟩
  exact ⟨harrives, handleDataPacket_decryptsEach .plain base conn _ rfl harrives⟩

end NetCrypto

end Toxcore
