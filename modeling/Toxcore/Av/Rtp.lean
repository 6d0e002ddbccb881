import Toxcore.NetCrypto.State

/-!
# Media packets

`rtp.c`: data is sent in one packet or in pieces, each behind a header, and put together again at the other side. What
is told to the bandwidth controller is left out. The handler of a packet has no result where an assertion fails or
memory behind an allocation is written.
-/

namespace Toxcore

open ByteStrings

/-! ## Headers -/

/-- `struct RTPHeader`, in host order. `vpxcc` holds the version, the padding, the extra header and the sources
count. -/
structure RtpHeader where
  vpxcc : UInt8
  ma : Bool
  pt : UInt8
  sequnum : UInt16
  timestamp : UInt32
  ssrc : UInt32
  csrc : Block 64
  cpart : UInt16
  tlen : UInt16

/-- `sizeof(struct RTPHeader)`. -/
def rtpHeaderSize : ℕ := 80

namespace RtpHeader

/-- The header as it is sent. -/
def toBytes (header : RtpHeader) : Bytes :=
  [header.vpxcc, header.pt + if header.ma then 128 else 0] ++ ((beBlock 2 header.sequnum.toNat).toList ++
    ((beBlock 4 header.timestamp.toNat).toList ++ ((beBlock 4 header.ssrc.toNat).toList ++ (header.csrc.toList ++
      ((beBlock 2 header.cpart.toNat).toList ++ (beBlock 2 header.tlen.toNat).toList)))))

/-- The header at the front of some bytes. -/
def ofBytes (data : Bytes) : RtpHeader where
  vpxcc := data.getD 0 0
  ma := data.getD 1 0 ≥ 128
  pt := data.getD 1 0 % 128
  sequnum := UInt16.ofNat (beNat (slice 2 data 2).toList)
  timestamp := UInt32.ofNat (beNat (slice 4 data 4).toList)
  ssrc := UInt32.ofNat (beNat (slice 4 data 8).toList)
  csrc := slice 64 data 12
  cpart := UInt16.ofNat (beNat (slice 2 data 76).toList)
  tlen := UInt16.ofNat (beNat (slice 2 data 78).toList)

@[simp] theorem toBytes_length (header : RtpHeader) : header.toBytes.length = rtpHeaderSize := by
  simp [toBytes, rtpHeaderSize]

/-- A header that was sent is read back. -/
theorem ofBytes_toBytes {header : RtpHeader} (hpt : header.pt < 128) (rest : Bytes) :
    ofBytes (header.toBytes ++ rest) = header := by
  obtain ⟨vpxcc, ma, pt, sequnum, timestamp, ssrc, csrc, cpart, tlen⟩ := header
  have h16 (n : UInt16) : UInt16.ofNat (beNat (beBlock 2 n.toNat).toList) = n := by
    rw [beBlock_toList, beNat_beBytes_of_lt n.toNat_lt, UInt16.ofNat_toNat]
  have h32 (n : UInt32) : UInt32.ofNat (beNat (beBlock 4 n.toNat).toList) = n := by
    rw [beBlock_toList, beNat_beBytes_of_lt n.toNat_lt, UInt32.ofNat_toNat]
  have hlt : pt.toNat < 128 := hpt
  have hma : (pt + if ma then 128 else 0).toNat = pt.toNat + if ma then 128 else 0 := by
    cases ma with
    | false => rw [if_neg nofun, if_neg nofun, UInt8.add_zero, Nat.add_zero]
    | true =>
      rw [if_pos rfl, if_pos rfl, UInt8.toNat_add]
      exact Nat.mod_eq_of_lt (by change pt.toNat + 128 < 256; omega)
  have hmarker : decide ((pt + if ma then 128 else 0) ≥ 128) = ma := by
    cases ma with
    | false =>
      refine decide_eq_false fun hle => ?_
      have hle' := UInt8.le_iff_toNat_le.mp hle
      rw [hma] at hle'
      change 128 ≤ pt.toNat + 0 at hle'
      omega
    | true =>
      refine decide_eq_true (UInt8.le_iff_toNat_le.mpr ?_)
      rw [hma]
      exact Nat.le_add_left _ _
  have htype : (pt + if ma then 128 else 0) % 128 = pt := by
    apply UInt8.toNat_inj.mp
    rw [UInt8.toNat_mod, hma]
    cases ma with
    | false => exact Nat.mod_eq_of_lt hlt
    | true => exact (Nat.add_mod_right _ _).trans (Nat.mod_eq_of_lt hlt)
  simp only [ofBytes, toBytes, List.append_assoc, List.cons_append, List.nil_append, RtpHeader.mk.injEq]
  refine ⟨rfl, hmarker, htype, ?_, ?_, ?_, ?_, ?_, ?_⟩
  · rw [slice_cons, slice_cons, slice_block, h16]
  · rw [slice_cons, slice_cons, slice_skip (m := 2) _ _ 0, slice_block, h32]
  · rw [slice_cons, slice_cons, slice_skip (m := 2) _ _ 4, slice_skip (m := 4) _ _ 0, slice_block, h32]
  · rw [slice_cons, slice_cons, slice_skip (m := 2) _ _ 8, slice_skip (m := 4) _ _ 4, slice_skip (m := 4) _ _ 0,
      slice_block]
  · rw [slice_cons, slice_cons, slice_skip (m := 2) _ _ 72, slice_skip (m := 4) _ _ 68, slice_skip (m := 4) _ _ 64,
      slice_skip (m := 64) _ _ 0, slice_block, h16]
  · rw [slice_cons, slice_cons, slice_skip (m := 2) _ _ 74, slice_skip (m := 4) _ _ 70, slice_skip (m := 4) _ _ 66,
      slice_skip (m := 64) _ _ 2, slice_skip (m := 2) _ _ 0, slice_block, h16]

end RtpHeader

/-- `struct RTPMessage`. -/
structure RtpMessage where
  len : UInt16
  header : RtpHeader
  data : Bytes

/-- `RTPSession`. `mcb` says whether there is a handler for messages. -/
structure RtpSession where
  payloadType : UInt8
  sequnum : UInt16
  rsequnum : UInt16
  rtimestamp : UInt32
  ssrc : UInt32
  mp : Option RtpMessage
  mcb : Bool

/-- `rtp_new`. -/
def rtpNew (payloadType : UInt8) (ssrc : UInt32) : RtpSession := ⟨payloadType, 0, 0, 0, ssrc, none, true⟩

/-! ## Sending -/

section Sending

variable (session : RtpSession)

/-- The header of the first packet. -/
def rtpHeader (currentTimeMonotonic : UInt64) (length : UInt16) : RtpHeader where
  vpxcc := 128
  ma := false
  pt := session.payloadType % 128
  sequnum := session.sequnum
  timestamp := currentTimeMonotonic.toUInt32
  ssrc := session.ssrc
  csrc := List.Vector.replicate 64 0
  cpart := 0
  tlen := length

/-- A packet with a part of the data. -/
def rtpPacket (header : RtpHeader) (part : Bytes) : Bytes := session.payloadType :: (header.toBytes ++ part)

/-- The size of a piece. -/
def rtpPiece : ℕ := maxCryptoDataSize - (rtpHeaderSize + 1)

/-- The loop of `rtp_send_data`, by a bound for the bytes that are left: the packets, and how much is sent. -/
def rtpSendLoop (header : RtpHeader) (data : Bytes) : ℕ → ℕ → List Bytes × ℕ
  | 0, sent => ([], sent)
  | left + 1, sent =>
    if (data.length - sent) + rtpHeaderSize + 1 > maxCryptoDataSize then
      let result := rtpSendLoop header data left (sent + rtpPiece)
      (rtpPacket session { header with cpart := UInt16.ofNat sent } ((data.drop sent).take rtpPiece) :: result.1,
        result.2)
    else ([], sent)

/-- `rtp_send_data`: the packets that are sent, and the session. -/
def rtpSendData (currentTimeMonotonic : UInt64) (data : Bytes) : List Bytes × RtpSession :=
  let header := rtpHeader session currentTimeMonotonic (UInt16.ofNat data.length)
  let packets :=
    if maxCryptoDataSize > data.length + rtpHeaderSize + 1 then [rtpPacket session header data]
    else
      let (packets, sent) := rtpSendLoop session header data data.length 0
      if data.length - sent > 0 then
        packets ++ [rtpPacket session { header with cpart := UInt16.ofNat sent } (data.drop sent)]
      else packets
  (packets, { session with sequnum := session.sequnum + 1 })

end Sending

/-! ## Receiving -/

section Receiving

variable (session : RtpSession)

/-- `chloss`. -/
def chloss (header : RtpHeader) : Bool := header.timestamp < session.rtimestamp

/-- `new_message`. -/
def newMessage (allocateLen : ℕ) (data : Bytes) : Option RtpMessage :=
  if allocateLen < data.length then none
  else some ⟨UInt16.ofNat (data.length - rtpHeaderSize), .ofBytes data,
    data.drop rtpHeaderSize ++ List.replicate (allocateLen - data.length) 0⟩

/-- Bytes written to the data of a message. -/
def RtpMessage.write (msg : RtpMessage) (offset : ℕ) (bytes : Bytes) : Option RtpMessage :=
  if offset + bytes.length ≤ msg.data.length then
    some { msg with data := msg.data.take offset ++ (bytes ++ msg.data.drop (offset + bytes.length)) }
  else none

/-- The active multiparted message is pushed for processing, if there is one and there is a handler. -/
def pushMessage : List RtpMessage × RtpSession :=
  (if session.mcb then session.mp.toList else [], { session with mp := none })

/-- The latest parameters are picked up. -/
def pickUp (header : RtpHeader) : RtpSession :=
  { session with rsequnum := header.sequnum, rtimestamp := header.timestamp }

/-- The branch `NEW_MULTIPARTED` of `handle_rtp_packet`. -/
def newMultiparted (header : RtpHeader) (data : Bytes) : Option RtpSession :=
  if chloss session header then some session
  else
    let session := pickUp session header
    if session.mcb then
      (newMessage (header.tlen.toNat + rtpHeaderSize) data).bind fun msg =>
        (msg.write header.cpart.toNat (msg.data.take msg.len.toNat)).map fun msg => { session with mp := some msg }
    else some session

/-- A part of the message that is being processed. -/
def addPart (mp : RtpMessage) (header : RtpHeader) (part : Bytes) : Option (List RtpMessage × RtpSession) :=
  if mp.header.tlen.toUInt64 - mp.len.toUInt64 < UInt64.ofNat part.length ∨
    mp.header.tlen ≤ header.cpart then some ([], session)
  else
    (mp.write header.cpart.toNat part).map fun mp =>
      let mp := { mp with len := mp.len + UInt16.ofNat part.length }
      let session := { session with mp := some mp }
      if mp.len = mp.header.tlen then pushMessage session else ([], session)

/-- `handle_rtp_packet`: the messages handed to `mcb`, and the session. -/
def handleRtpPacket (packet : Bytes) : Option (List RtpMessage × RtpSession) :=
  match packet with
  | [] => none
  | _ :: data =>
    let header := RtpHeader.ofBytes data
    if data.length < rtpHeaderSize then some ([], session)
    else if header.pt ≠ session.payloadType % 128 then some ([], session)
    else if header.cpart ≥ header.tlen then some ([], session)
    else if header.tlen.toNat = data.length - rtpHeaderSize then
      if chloss session header then some ([], session)
      else
        let (pushed, session) := pushMessage (pickUp session header)
        if session.mcb then (newMessage data.length data).map fun msg =>
          (pushed ++ [msg], session) else some (pushed, session)
    else
      match session.mp with
      | none => (newMultiparted session header data).map fun session => ([], session)
      | some mp =>
        if mp.header.sequnum = header.sequnum ∧ mp.header.timestamp = header.timestamp then
          addPart session mp header (data.drop rtpHeaderSize)
        else if mp.header.timestamp > header.timestamp then some ([], session)
        else
          let (pushed, session) := pushMessage session
          (newMultiparted session header data).map fun session => (pushed, session)

end Receiving

end Toxcore
