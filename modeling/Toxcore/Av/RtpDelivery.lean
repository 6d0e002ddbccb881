import Mathlib.Data.UInt
import Toxcore.Av.Rtp

/-!
# Media packets that all arrive

When every packet is delivered once and in order, each call of `rtp_send_data` hands exactly one message to the
handler of the receiver, with the bytes and the sequence number of the call.
-/

namespace Toxcore

open ByteStrings List Option

/-- Packets are delivered in order. -/
def deliverRtp : RtpSession → List Bytes → Option (List RtpMessage × RtpSession)
  | session, [] => some ([], session)
  | session, packet :: packets => (handleRtpPacket session packet).bind fun handled =>
      (deliverRtp handled.2 packets).map fun rest => (handled.1 ++ rest.1, rest.2)

/-- Packets arrive in two parts. -/
theorem deliverRtp_append {session session' : RtpSession} {packets packets' : List Bytes} {messages : List RtpMessage}
    (h : deliverRtp session packets = some (messages, session')) :
    deliverRtp session (packets ++ packets') = (deliverRtp session' packets').map fun rest =>
      (messages ++ rest.1, rest.2) := by
  induction packets generalizing session messages with
  | nil =>
    obtain ⟨rfl, rfl⟩ := Prod.mk.inj (some_inj.mp h)
    simp
  | cons packet packets ih =>
    obtain ⟨handled, hhandled, hrest⟩ := bind_eq_some_iff.mp h
    obtain ⟨rest, hdeliver, heq⟩ := map_eq_some_iff.mp hrest
    obtain ⟨rfl, rfl⟩ := Prod.mk.inj heq
    rw [cons_append, deliverRtp, hhandled, bind_some, ih hdeliver, Option.map_map]
    simp only [Function.comp_def, append_assoc]

/-- The messages of one packet. -/
theorem deliverRtp_singleton {session : RtpSession} {packet : Bytes} {handled : List RtpMessage × RtpSession}
    (h : handleRtpPacket session packet = some handled) : deliverRtp session [packet] = some handled := by
  rw [deliverRtp, h, bind_some, deliverRtp, map_some, append_nil]

section Delivery

variable {sender receiver : RtpSession} {header : RtpHeader} {data part : Bytes}

/-- The receiver takes the packets with some header. -/
structure Takes (receiver : RtpSession) (header : RtpHeader) : Prop where
  type : header.pt = receiver.payloadType % 128
  small : header.pt < 128
  time : receiver.rtimestamp ≤ header.timestamp
  handler : receiver.mcb = true

/-- The receiver has picked up a header. -/
def picked (receiver : RtpSession) (header : RtpHeader) (mp : Option RtpMessage) : RtpSession :=
  { receiver with rsequnum := header.sequnum, rtimestamp := header.timestamp, mp := mp }

/-- A header that is taken is not late. -/
theorem Takes.not_lost (h : Takes receiver header) : chloss receiver header = false :=
  decide_eq_false (UInt32.not_lt.mpr h.time)

theorem rtpPacket_length (header : RtpHeader) (part : Bytes) :
    (header.toBytes ++ part).length = rtpHeaderSize + part.length := by
  rw [length_append, RtpHeader.toBytes_length]

/-- A packet with the whole message. -/
theorem handleRtpPacket_single (sender : RtpSession) (h : Takes receiver header) (hidle : receiver.mp = none)
    (hpart : header.cpart < header.tlen) (hlength : header.tlen.toNat = part.length) :
    handleRtpPacket receiver (rtpPacket sender header part) =
      some ([⟨header.tlen, header, part⟩], picked receiver header none) := by
  have hparse := RtpHeader.ofBytes_toBytes h.small part
  have hsize := rtpPacket_length header part
  have hsub : rtpHeaderSize + part.length - rtpHeaderSize = part.length := by omega
  unfold handleRtpPacket rtpPacket
  dsimp only
  rw [hparse, hsize, if_neg (by omega), if_neg (fun hne => hne h.type), if_neg (UInt16.not_le.mpr hpart), hsub,
    if_pos hlength,
    h.not_lost, if_neg nofun]
  simp only [pushMessage, pickUp, h.handler, hidle, if_true, toList_none, nil_append]
  rw [newMessage, hsize, if_neg (lt_irrefl _), hparse, hsub, ← hlength, UInt16.ofNat_toNat, Nat.sub_self,
    drop_left' (RtpHeader.toBytes_length header)]
  simp [picked, h.handler]

/-- What is known while a message in parts arrives: its first bytes. -/
structure Partial (receiver : RtpSession) (header : RtpHeader) (data : Bytes) (sent : ℕ) : Prop where
  takes : Takes receiver header
  mp : receiver.mp = some ⟨UInt16.ofNat sent, header, data.take sent ++ List.replicate (data.length - sent) 0⟩
  sent : sent < data.length

variable {sent : ℕ}

/-- The first part of a message. -/
theorem handleRtpPacket_first (sender : RtpSession) (h : Takes receiver header) (hidle : receiver.mp = none)
    (hcpart : header.cpart = 0) (hlength : header.tlen.toNat = data.length) (hsent : sent < data.length) :
    ∃ receiver', handleRtpPacket receiver (rtpPacket sender header (data.take sent)) = some ([], receiver') ∧
      Partial receiver' header data sent ∧ receiver' = picked receiver header receiver'.mp := by
  have hparse := RtpHeader.ofBytes_toBytes h.small (data.take sent)
  have hsize := rtpPacket_length header (data.take sent)
  rw [length_take, Nat.min_eq_left hsent.le] at hsize
  have hsub : rtpHeaderSize + sent - rtpHeaderSize = sent := by omega
  have hpart : header.cpart < header.tlen := by
    rw [UInt16.lt_iff_toNat_lt, hcpart, hlength]
    exact Nat.zero_lt_of_lt hsent
  have hlt : sent < 2 ^ 16 := hsent.trans (hlength ▸ header.tlen.toNat_lt)
  have hroom : data.length + rtpHeaderSize - (rtpHeaderSize + sent) = data.length - sent := by omega
  unfold handleRtpPacket rtpPacket
  dsimp only
  rw [hparse, hsize, if_neg (by omega), if_neg (fun hne => hne h.type), if_neg (UInt16.not_le.mpr hpart), hsub, hlength,
    if_neg (by omega), hidle]
  dsimp only
  rw [newMultiparted, h.not_lost, if_neg nofun]
  simp only [pickUp, h.handler, if_true]
  rw [newMessage, hsize, if_neg (by omega), hparse, hsub, hlength, hroom, bind_some,
    drop_left' (RtpHeader.toBytes_length header)]
  have hwrite : RtpMessage.write ⟨UInt16.ofNat sent, header, data.take sent ++ List.replicate (data.length - sent) 0⟩
      header.cpart.toNat ((data.take sent ++ List.replicate (data.length - sent) 0).take (UInt16.ofNat sent).toNat) =
        some ⟨UInt16.ofNat sent, header, data.take sent ++ List.replicate (data.length - sent) 0⟩ := by
    have htake : (data.take sent ++ List.replicate (data.length - sent) (0 : UInt8)).take (UInt16.ofNat sent).toNat =
        data.take sent := by
      rw [UInt16.toNat_ofNat_of_lt' hlt, take_left' (by rw [length_take, Nat.min_eq_left hsent.le])]
    rw [htake, RtpMessage.write, hcpart, if_pos]
    · simp [Nat.min_eq_left hsent.le]
    · simp
  rw [hwrite]
  refine ⟨_, rfl, ⟨⟨h.type, h.small, UInt32.le_refl _, rfl⟩, rfl, hsent⟩, by simp [picked, h.handler]⟩

/-- The bytes that a further part adds. -/
theorem Partial.write {sent length : ℕ} (h : Partial receiver header data sent) (hend : sent + length ≤ data.length) :
    RtpMessage.write ⟨UInt16.ofNat sent, header, data.take sent ++ List.replicate (data.length - sent) 0⟩ sent
        ((data.drop sent).take length) =
      some ⟨UInt16.ofNat sent, header,
        data.take (sent + length) ++ List.replicate (data.length - (sent + length)) 0⟩ := by
  have htake : (data.take sent).length = sent := by
    rw [length_take, Nat.min_eq_left h.sent.le]
  have hpart : ((data.drop sent).take length).length = length := by
    rw [length_take, length_drop]
    omega
  rw [RtpMessage.write, if_pos]
  · rw [hpart, take_left' htake, ← drop_drop, drop_left' htake, drop_replicate, ← append_assoc,
      ← take_add, Nat.sub_sub]
  · rw [hpart, length_append, htake, length_replicate]
    omega

/-- A further part of a message. -/
theorem handleRtpPacket_part (sender : RtpSession) {length : ℕ} (h : Partial receiver header data sent)
    (hpos : 0 < sent) (hend : sent + length ≤ data.length) (hlength : header.tlen.toNat = data.length) :
    handleRtpPacket receiver (rtpPacket sender { header with cpart := UInt16.ofNat sent }
      ((data.drop sent).take length)) =
      let mp : RtpMessage := ⟨UInt16.ofNat (sent + length), header,
        data.take (sent + length) ++ List.replicate (data.length - (sent + length)) 0⟩
      some (if sent + length =
        data.length then ([mp], { receiver with mp := none }) else ([], { receiver with mp := some mp })) := by
  have hlt : data.length < 2 ^ 16 := hlength ▸ header.tlen.toNat_lt
  have hsentLength := h.sent
  have hcpart : (UInt16.ofNat sent).toNat = sent := UInt16.toNat_ofNat_of_lt' (by change sent < 2 ^ 16; omega)
  have hsmall : ({ header with cpart := UInt16.ofNat sent } : RtpHeader).pt < 128 := h.takes.small
  have hparse := RtpHeader.ofBytes_toBytes hsmall ((data.drop sent).take length)
  have hpartLength : ((data.drop sent).take length).length = length := by
    rw [length_take, length_drop]
    omega
  have hsize := rtpPacket_length { header with cpart := UInt16.ofNat sent } ((data.drop sent).take length)
  rw [hpartLength] at hsize
  have hsub : rtpHeaderSize + length - rtpHeaderSize = length := by omega
  have hpart : UInt16.ofNat sent < header.tlen := by
    rw [UInt16.lt_iff_toNat_lt, hcpart, hlength]
    omega
  have hroom : ¬(header.tlen.toUInt64 - (UInt16.ofNat sent).toUInt64 <
    UInt64.ofNat ((data.drop sent).take length).length ∨
      header.tlen ≤ UInt16.ofNat sent) := by
    have hle : (UInt16.ofNat sent).toUInt64 ≤ header.tlen.toUInt64 := by
      rw [UInt64.le_iff_toNat_le, UInt16.toNat_toUInt64, UInt16.toNat_toUInt64, hcpart, hlength]
      exact hsentLength.le
    rintro (hshort | hle')
    · rw [UInt64.lt_iff_toNat_lt, UInt64.toNat_sub_of_le _ _ hle, UInt16.toNat_toUInt64, UInt16.toNat_toUInt64, hcpart,
        hlength,
        hpartLength, UInt64.toNat_ofNat_of_lt' (by change length < 2 ^ 64; omega)] at hshort
      omega
    · exact absurd hpart (UInt16.not_lt.mpr hle')
  unfold handleRtpPacket rtpPacket
  dsimp only
  rw [hparse, hsize, if_neg (by omega), if_neg (fun hne => hne h.takes.type), if_neg (UInt16.not_le.mpr hpart), hsub]
  dsimp only
  rw [hlength, if_neg (by omega), h.mp]
  dsimp only
  rw [if_pos ⟨rfl, rfl⟩, drop_left' (RtpHeader.toBytes_length _), addPart]
  dsimp only
  rw [if_neg hroom, hcpart, h.write hend, map_some, hpartLength, ← UInt16.ofNat_add]
  have hcomplete : UInt16.ofNat (sent + length) = header.tlen ↔ sent + length = data.length := by
    rw [← UInt16.toNat_inj, UInt16.toNat_ofNat_of_lt' (by change sent + length < 2 ^ 16; omega), hlength]
  by_cases hall : sent + length = data.length
  · rw [if_pos hall, if_pos (hcomplete.mpr hall)]
    simp [pushMessage, h.takes.handler]
  · rw [if_neg hall, if_neg fun heq => hall (hcomplete.mp heq)]

/-- The loop of the sender, while a message in parts arrives. -/
theorem deliverRtp_loop (sender : RtpSession) (left : ℕ) (hlength : header.tlen.toNat = data.length)
    (h : Partial receiver header data sent) (hpos : 0 < sent) (hleft : data.length - sent ≤ left) :
    ∃ mp, deliverRtp receiver (rtpSendLoop sender header data left sent).1 = some ([], { receiver with mp := mp }) ∧
      Partial { receiver with mp := mp } header data (rtpSendLoop sender header data left sent).2 ∧
      0 < (rtpSendLoop sender header data left sent).2 ∧
      data.length - (rtpSendLoop sender header data left sent).2 ≤ rtpPiece := by
  induction left generalizing receiver sent with
  | zero =>
    have hsent := h.sent
    omega
  | succ left ih =>
    have hpiece : rtpPiece = 1292 := rfl
    rw [rtpSendLoop]
    split
    · rename_i hmore
      simp only [rtpHeaderSize, maxCryptoDataSize, maxCryptoPacketSize, cryptoDataPacketMinSize, macBytes] at hmore
      have hpart := handleRtpPacket_part sender h hpos (show sent + rtpPiece ≤ data.length by omega) hlength
      dsimp only at hpart
      rw [if_neg (by omega)] at hpart
      have hnext : Partial { receiver with mp := some ⟨UInt16.ofNat (sent + rtpPiece), header,
          data.take (sent + rtpPiece) ++
            List.replicate (data.length - (sent + rtpPiece)) 0⟩ } header data (sent + rtpPiece) :=
        ⟨⟨h.takes.type, h.takes.small, h.takes.time, h.takes.handler⟩, rfl, by omega⟩
      obtain ⟨mp, hdeliver, hrest⟩ := ih hnext (by omega) (by omega)
      refine ⟨mp, ?_, hrest⟩
      dsimp only
      rw [deliverRtp, hpart, bind_some, hdeliver, map_some]
      rfl
    · rename_i hrest
      simp only [rtpHeaderSize, maxCryptoDataSize, maxCryptoPacketSize, cryptoDataPacketMinSize, macBytes] at hrest
      exact ⟨receiver.mp, rfl, h, hpos, by omega⟩

/-- The last packet of a message in parts. -/
theorem handleRtpPacket_last (sender : RtpSession) (h : Partial receiver header data sent) (hpos : 0 < sent)
    (hlength : header.tlen.toNat = data.length) :
    handleRtpPacket receiver (rtpPacket sender { header with cpart := UInt16.ofNat sent } (data.drop sent)) =
      some ([⟨header.tlen, header, data⟩], { receiver with mp := none }) := by
  have hsent := h.sent
  have hall : sent + (data.length - sent) = data.length := by omega
  have hrest : (data.drop sent).take (data.length - sent) = data.drop sent := by
    rw [← length_drop, take_length]
  have hpart := handleRtpPacket_part sender h hpos hall.le hlength
  dsimp only at hpart
  rw [if_pos hall, hrest, hall, take_length, Nat.sub_self, replicate_zero, append_nil, ← hlength,
    UInt16.ofNat_toNat] at hpart
  exact hpart

/-- A message in parts: the packets of the loop, and the last one. -/
theorem deliverRtp_parts (sender : RtpSession) (h : Takes receiver header) (hidle : receiver.mp = none)
    (hcpart : header.cpart = 0) (hlength : header.tlen.toNat = data.length) (hlong : rtpPiece < data.length) :
    (rtpSendLoop sender header data data.length 0).2 < data.length ∧
      deliverRtp receiver ((rtpSendLoop sender header data data.length 0).1 ++
        [rtpPacket sender { header with cpart := UInt16.ofNat (rtpSendLoop sender header data data.length 0).2 }
          (data.drop (rtpSendLoop sender header data data.length 0).2)]) =
        some ([⟨header.tlen, header, data⟩], picked receiver header none) := by
  have hpiece : rtpPiece = 1292 := rfl
  have hfirst : { header with cpart := UInt16.ofNat 0 } = header := by
    rw [show UInt16.ofNat 0 = header.cpart from hcpart.symm]
  obtain ⟨left, hleft⟩ : ∃ left, data.length = left + 1 := Nat.exists_eq_succ_of_ne_zero (by omega)
  obtain ⟨receiver', hhandled, hpartial, hpicked⟩ := handleRtpPacket_first sender h hidle hcpart hlength hlong
  have hloop : rtpSendLoop sender header data data.length 0 =
      (rtpPacket sender header (data.take rtpPiece) :: (rtpSendLoop sender header data left rtpPiece).1,
        (rtpSendLoop sender header data left rtpPiece).2) := by
    rw [hleft, rtpSendLoop, if_pos, Nat.zero_add, drop_zero, hfirst]
    simp only [rtpHeaderSize, maxCryptoDataSize, maxCryptoPacketSize, cryptoDataPacketMinSize, macBytes]
    omega
  obtain ⟨mp, hdeliver, hpartial', hpos, -⟩ := deliverRtp_loop sender left hlength hpartial (by omega) (by omega)
  have hlast := handleRtpPacket_last sender hpartial' hpos hlength
  rw [hloop]
  refine ⟨hpartial'.sent, ?_⟩
  dsimp only
  rw [cons_append, deliverRtp, hhandled, bind_some, deliverRtp_append hdeliver, deliverRtp_singleton hlast,
    hpicked]
  rfl

end Delivery

/-! ## Calls of `rtp_send_data` -/

section Calls

variable {sender receiver : RtpSession} {clock : UInt64} {data : Bytes}

/-- One call of `rtp_send_data`, and its packets delivered. -/
theorem deliverRtp_send (htype : sender.payloadType = receiver.payloadType) (hcallback : receiver.mcb = true)
    (hidle : receiver.mp = none) (htime : receiver.rtimestamp ≤ clock.toUInt32) (hpos : 0 < data.length)
    (hlt : data.length < 2 ^ 16) :
    deliverRtp receiver (rtpSendData sender clock data).1 =
      some ([⟨UInt16.ofNat data.length, rtpHeader sender clock (UInt16.ofNat data.length), data⟩],
        picked receiver (rtpHeader sender clock (UInt16.ofNat data.length)) none) := by
  have hlength : (rtpHeader sender clock (UInt16.ofNat data.length)).tlen.toNat = data.length :=
    UInt16.toNat_ofNat_of_lt' hlt
  have hpart : (rtpHeader sender clock (UInt16.ofNat data.length)).cpart <
      (rtpHeader sender clock (UInt16.ofNat data.length)).tlen := by
    rw [UInt16.lt_iff_toNat_lt, hlength]
    exact hpos
  have hsmall : sender.payloadType % 128 < 128 := UInt8.mod_lt _ (by decide)
  have htakes : Takes receiver (rtpHeader sender clock (UInt16.ofNat data.length)) :=
    ⟨congrArg (· % 128) htype, hsmall, htime, hcallback⟩
  rw [rtpSendData]
  dsimp only
  split
  · exact deliverRtp_singleton (handleRtpPacket_single sender htakes hidle hpart hlength)
  · rename_i hlong
    simp only [rtpHeaderSize, maxCryptoDataSize, maxCryptoPacketSize, cryptoDataPacketMinSize, macBytes] at hlong
    by_cases hpiece : rtpPiece < data.length
    · obtain ⟨hsent, hdeliver⟩ := deliverRtp_parts sender htakes hidle rfl hlength hpiece
      rw [if_pos (Nat.sub_pos_of_lt hsent)]
      exact hdeliver
    · have heq : data.length = 1291 + 1 := by
        have hvalue : rtpPiece = 1292 := rfl
        omega
      have hloop (header : RtpHeader) : rtpSendLoop sender header data data.length 0 = ([], 0) := by
        rw [heq, rtpSendLoop, if_neg]
        simp only [rtpHeaderSize, maxCryptoDataSize, maxCryptoPacketSize, cryptoDataPacketMinSize, macBytes]
        omega
      rw [hloop, Nat.sub_zero, if_pos hpos]
      exact deliverRtp_singleton (handleRtpPacket_single sender htakes hidle hpart hlength)

end Calls

/-- Calls of `rtp_send_data`, each at a time of the clock. -/
def rtpSendAll : RtpSession → List (UInt64 × Bytes) → List Bytes
  | _, [] => []
  | session, call :: calls =>
    (rtpSendData session call.1 call.2).1 ++ rtpSendAll (rtpSendData session call.1 call.2).2 calls

/-- The messages that are expected, when the next sequence number is known. -/
def sentMessages : UInt16 → List (UInt64 × Bytes) → List (ℕ × UInt16 × Bytes)
  | _, [] => []
  | sequnum, call :: calls => (call.2.length, sequnum, call.2) :: sentMessages (sequnum + 1) calls

/-- What a handler sees of a message: its length, its sequence number and its bytes. -/
def RtpMessage.content (msg : RtpMessage) : ℕ × UInt16 × Bytes := (msg.len.toNat, msg.header.sequnum, msg.data)

/-- Times below `2 ^ 32` keep their order in a timestamp. -/
theorem toUInt32_le_toUInt32 {clock clock' : UInt64} (hle : clock ≤ clock') (hlt : clock' < 2 ^ 32) :
    clock.toUInt32 ≤ clock'.toUInt32 := by
  have hle' : clock.toNat ≤ clock'.toNat := hle
  have hlt' : clock'.toNat < 2 ^ 32 := hlt
  rw [UInt32.le_iff_toNat_le, UInt64.toNat_toUInt32, UInt64.toNat_toUInt32, Nat.mod_eq_of_lt hlt',
    Nat.mod_eq_of_lt (hle'.trans_lt hlt')]
  exact hle'

/-- The messages of all calls, from any two sessions where the receiver is idle and not ahead of the sender. -/
theorem deliverRtp_sendAll {sender receiver : RtpSession} {calls : List (UInt64 × Bytes)}
    (htype : sender.payloadType = receiver.payloadType) (hcallback : receiver.mcb = true) (hidle : receiver.mp = none)
    (htime : ∀ call ∈ calls, receiver.rtimestamp ≤ call.1.toUInt32)
    (hlength : ∀ call ∈ calls, 1 ≤ call.2.length ∧ call.2.length ≤ 65535)
    (hordered : calls.Pairwise fun call call' => call.1 ≤ call'.1) (hlt : ∀ call ∈ calls, call.1 < 2 ^ 32) :
    ∃ messages receiver', deliverRtp receiver (rtpSendAll sender calls) = some (messages, receiver') ∧
      messages.map RtpMessage.content = sentMessages sender.sequnum calls := by
  induction calls generalizing sender receiver with
  | nil => exact ⟨[], receiver, rfl, rfl⟩
  | cons call calls ih =>
    obtain ⟨hbefore, hordered'⟩ := pairwise_cons.mp hordered
    obtain ⟨hpos, hmax⟩ := hlength call mem_cons_self
    have hcall := deliverRtp_send htype hcallback hidle (htime call mem_cons_self) hpos (by omega)
    obtain ⟨messages, receiver', hdeliver, hmessages⟩ :
        ∃ messages receiver', deliverRtp (picked receiver (rtpHeader sender call.1 (UInt16.ofNat call.2.length)) none)
            (rtpSendAll (rtpSendData sender call.1 call.2).2 calls) = some (messages, receiver') ∧
          messages.map RtpMessage.content = sentMessages (sender.sequnum + 1) calls :=
      ih htype hcallback rfl (fun call' hmem =>
        toUInt32_le_toUInt32 (hbefore call' hmem) (hlt call' (mem_cons_of_mem _ hmem)))
        (fun call' hmem => hlength call' (mem_cons_of_mem _ hmem)) hordered'
        (fun call' hmem => hlt call' (mem_cons_of_mem _ hmem))
    have hall : deliverRtp receiver (rtpSendAll sender (call :: calls)) = some ([⟨UInt16.ofNat call.2.length,
        rtpHeader sender call.1 (UInt16.ofNat call.2.length), call.2⟩] ++ messages, receiver') := by
      rw [rtpSendAll, deliverRtp_append hcall, hdeliver, map_some]
    refine ⟨_, _, hall, ?_⟩
    · rw [map_append, hmessages, sentMessages, map_singleton, RtpMessage.content,
        UInt16.toNat_ofNat_of_lt' (by change call.2.length < 2 ^ 16; omega)]
      rfl

/-- Between two new sessions each call of `rtp_send_data` arrives as one message. -/
theorem sent_messages_arrive (payloadType : UInt8) (ssrc ssrc' : UInt32) (calls : List (UInt64 × Bytes))
    (hlength : ∀ call ∈ calls, 1 ≤ call.2.length ∧ call.2.length ≤ 65535)
    (hordered : calls.Pairwise fun call call' => call.1 ≤ call'.1) (hlt : ∀ call ∈ calls, call.1 < 2 ^ 32) :
    ∃ messages receiver, deliverRtp (rtpNew payloadType ssrc') (rtpSendAll (rtpNew payloadType ssrc) calls) =
        some (messages, receiver) ∧
      messages.map RtpMessage.content = sentMessages 0 calls :=
  deliverRtp_sendAll rfl rfl rfl (fun _ _ => UInt32.zero_le) hlength hordered hlt

/-- Two calls at one time, a short and a long one. -/
theorem sent_messages_arrive_two :
    ∃ messages receiver, deliverRtp (rtpNew 192 2)
        (rtpSendAll (rtpNew 192 1) [(5, List.replicate 7 1), (5, List.replicate 2584 3)]) = some (messages, receiver) ∧
      messages.map RtpMessage.content = [(7, 0, List.replicate 7 1), (2584, 1, List.replicate 2584 3)] := by
  have hlength : ∀ call ∈ [((5 : UInt64), List.replicate 7 (1 : UInt8)), (5, List.replicate 2584 3)],
      1 ≤ call.2.length ∧ call.2.length ≤ 65535 := by
    simp only [forall_mem_cons, length_replicate]
    exact ⟨by decide, by decide, nofun⟩
  obtain ⟨messages, receiver, hdeliver, hmessages⟩ := sent_messages_arrive 192 1 2 _ hlength
    (pairwise_pair.mpr UInt64.le_rfl) (forall_mem_cons.mpr ⟨by decide, forall_mem_cons.mpr ⟨by decide, nofun⟩⟩)
  refine ⟨messages, receiver, hdeliver, hmessages.trans ?_⟩
  simp only [sentMessages, length_replicate]
  rfl

end Toxcore
