import Toxcore.Av.RtpDelivery
import Toxcore.Data.Reassembly

/-!
# Media packets in any order

Lossy packets may be lost, repeated and delivered in any order. `handle_rtp_packet` takes a message for complete when
the lengths of the parts it was handed add up to the length of the message, without looking which parts these were. A
complete message has the bytes of one call as long as no part is counted twice and no part of another call with the
same sequence number and the same time is counted for it.
-/

namespace Toxcore

open ByteStrings Reassembly List Option

/-! ## The packets of a call -/

/-- The session of the sender at a call. -/
def atCall (sender : RtpSession) (k : ℕ) : RtpSession := { sender with sequnum := sender.sequnum + UInt16.ofNat k }

/-- A packet of a call. -/
def SentBy (sender : RtpSession) (calls : List (UInt64 × Bytes)) (k : ℕ) (packet : Bytes) : Prop :=
  ∃ clock data, calls[k]? = some (clock, data) ∧ packet ∈ (rtpSendData (atCall sender k) clock data).1

variable {calls : List (UInt64 × Bytes)} {packet : Bytes}

/-- The packets of all calls are those of one call each. -/
theorem mem_rtpSendAll {sender : RtpSession} :
    packet ∈ rtpSendAll sender calls ↔ ∃ k, SentBy sender calls k packet := by
  induction calls generalizing sender with
  | nil => simp [rtpSendAll, SentBy]
  | cons call calls ih =>
    have hfirst : atCall sender 0 = sender := by simp [atCall]
    have hnext (k : ℕ) : atCall { sender with sequnum := sender.sequnum + 1 } k = atCall sender (k + 1) := by
      simp only [atCall, RtpSession.mk.injEq, true_and, and_true]
      rw [UInt16.ofNat_add, UInt16.add_comm (UInt16.ofNat k), ← UInt16.add_assoc]
      rfl
    have hsession : (rtpSendData sender call.1 call.2).2 = { sender with sequnum := sender.sequnum + 1 } := rfl
    rw [rtpSendAll, mem_append, hsession, ih]
    constructor
    · rintro (hmem | ⟨k, clock, data, hcall, hmem⟩)
      · exact ⟨0, call.1, call.2, rfl, hfirst.symm ▸ hmem⟩
      · exact ⟨k + 1, clock, data, hcall, hnext k ▸ hmem⟩
    · rintro ⟨k, clock, data, hcall, hmem⟩
      cases k with
      | zero =>
        obtain rfl : call = (clock, data) := some_inj.mp hcall
        exact .inl (hfirst ▸ hmem)
      | succ k => exact .inr ⟨k, clock, data, hcall, (hnext k).symm ▸ hmem⟩

/-- A header and some bytes are those of a part of a call. -/
structure PartOfCall (sender : RtpSession) (calls : List (UInt64 × Bytes)) (k : ℕ) (clock : UInt64) (data : Bytes)
    (offset : ℕ) (header : RtpHeader) (part : Bytes) : Prop where
  call : calls[k]? = some (clock, data)
  short : data.length < 2 ^ 16
  header : header = { rtpHeader (atCall sender k) clock (UInt16.ofNat data.length) with cpart := UInt16.ofNat offset }
  part : IsPart data offset part

/-- The packets of the loop carry parts. -/
theorem mem_rtpSendLoop {session : RtpSession} {header : RtpHeader} {data : Bytes} {left sent : ℕ}
    (h : packet ∈ (rtpSendLoop session header data left sent).1) :
    ∃ offset part, packet = rtpPacket session { header with cpart := UInt16.ofNat offset } part ∧
      IsPart data offset part := by
  induction left generalizing sent with
  | zero => simp [rtpSendLoop] at h
  | succ left ih =>
    rw [rtpSendLoop] at h
    split at h
    · rename_i hmore
      rcases mem_cons.mp h with rfl | hrest
      · refine ⟨sent, _, rfl, ?_⟩
        have hpiece : rtpPiece = 1292 := rfl
        have hlength : ((data.drop sent).take rtpPiece).length = rtpPiece := by
          simp only [rtpHeaderSize, maxCryptoDataSize, maxCryptoPacketSize, cryptoDataPacketMinSize, macBytes] at hmore
          rw [length_take, length_drop]
          omega
        refine ⟨?_, by rw [hlength]⟩
        simp only [rtpHeaderSize, maxCryptoDataSize, maxCryptoPacketSize, cryptoDataPacketMinSize, macBytes] at hmore
        omega
      · exact ih hrest
    · simp at h

/-- Every packet of a call carries one of its parts. -/
theorem SentBy.part {sender : RtpSession} {k : ℕ} (h : SentBy sender calls k packet)
    (hshort : ∀ call ∈ calls, call.2.length < 2 ^ 16) :
    ∃ clock data offset header part, packet = rtpPacket sender header part ∧
      PartOfCall sender calls k clock data offset header part := by
  obtain ⟨clock, data, hcall, hmem⟩ := h
  have hdata : data.length < 2 ^ 16 := hshort _ (mem_of_getElem? hcall)
  unfold rtpSendData at hmem
  dsimp only at hmem
  split at hmem
  · obtain rfl := mem_singleton.mp hmem
    exact ⟨clock, data, 0, _, data, rfl, hcall, hdata, rfl, ⟨by omega, by simp⟩⟩
  · split at hmem
    · rename_i hmore
      rcases mem_append.mp hmem with hloop | hlast
      · obtain ⟨offset, part, rfl, hpart⟩ := mem_rtpSendLoop hloop
        exact ⟨clock, data, offset, _, part, rfl, hcall, hdata, rfl, hpart⟩
      · obtain rfl := mem_singleton.mp hlast
        refine ⟨clock, data, _, _, _, rfl, hcall, hdata, rfl, ⟨?_, ?_⟩⟩
        · rw [length_drop]
          omega
        · rw [take_length]
    · obtain ⟨offset, part, rfl, hpart⟩ := mem_rtpSendLoop hmem
      exact ⟨clock, data, offset, _, part, rfl, hcall, hdata, rfl, hpart⟩

/-! ## What is counted -/

/-- Where the message that is being processed comes from: a call, and the positions of its data that were filled. -/
structure Progress where
  call : ℕ
  filled : Finset ℕ

/-- A part belongs to the message that is being processed, by sequence number and time. -/
def Continues (mp : RtpMessage) (header : RtpHeader) : Prop :=
  mp.header.sequnum = header.sequnum ∧ mp.header.timestamp = header.timestamp

instance (mp : RtpMessage) (header : RtpHeader) : Decidable (Continues mp header) := inferInstanceAs (Decidable (_ ∧ _))

/-- There is room for a part, by the lengths counted so far. -/
def HasRoom (mp : RtpMessage) (header : RtpHeader) (part : Bytes) : Prop :=
  ¬(mp.header.tlen.toUInt64 - mp.len.toUInt64 < UInt64.ofNat part.length ∨ mp.header.tlen ≤ header.cpart)

instance (mp : RtpMessage) (header : RtpHeader) (part : Bytes) : Decidable (HasRoom mp header part) :=
  inferInstanceAs (Decidable (¬_))

/-- A packet with a part only of a message. -/
def IsMultipart (header : RtpHeader) (part : Bytes) : Prop :=
  header.cpart < header.tlen ∧ header.tlen.toNat ≠ part.length

instance (header : RtpHeader) (part : Bytes) :
    Decidable (IsMultipart header part) := inferInstanceAs (Decidable (_ ∧ _))

/-- The header of a packet. -/
def packetHeader (packet : Bytes) : RtpHeader := .ofBytes packet.tail

/-- What a packet carries behind its header. -/
def packetPart (packet : Bytes) : Bytes := packet.tail.drop rtpHeaderSize

/-- The progress after a part of a call: it is added where it continues the message and has room, and starts a message
where it does not continue one that is as new. -/
def Progress.add (progress : Progress) (session : RtpSession) (k : ℕ) (header : RtpHeader) (part : Bytes) : Progress :=
  if IsMultipart header part then
    match session.mp with
    | none => ⟨k, positions header.cpart.toNat part⟩
    | some mp =>
      if Continues mp header then
        if HasRoom mp header part then { progress with filled := progress.filled ∪ positions header.cpart.toNat part }
        else progress
      else if mp.header.timestamp > header.timestamp then progress
      else ⟨k, positions header.cpart.toNat part⟩
  else progress

/-- A part that is counted for the message being processed is one of the same call, and fills positions that were not
filled. -/
def CountsOnce (progress : Progress) (session : RtpSession) (k : ℕ) (header : RtpHeader) (part : Bytes) : Prop :=
  ∀ mp, session.mp = some mp → IsMultipart header part → Continues mp header → HasRoom mp header part →
    k = progress.call ∧ Disjoint progress.filled (positions header.cpart.toNat part)

/-- In a run of the receiver over packets, each with the call it was sent by, every part is counted once. -/
def EachCountsOnce : Progress → RtpSession → List (ℕ × Bytes) → Prop
  | _, _, [] => True
  | progress, session, (k, packet) :: rest =>
    CountsOnce progress session k (packetHeader packet) (packetPart packet) ∧
      ∀ messages session', handleRtpPacket session packet = some (messages, session') →
        EachCountsOnce (progress.add session k (packetHeader packet) (packetPart packet)) session' rest

/-! ## Receiving -/

/-- A message of which some positions are filled. -/
structure Assembles (sender : RtpSession) (calls : List (UInt64 × Bytes)) (progress : Progress) (data : Bytes)
    (mp : RtpMessage) : Prop where
  call : ∃ clock, calls[progress.call]? = some (clock, data)
  short : data.length < 2 ^ 16
  sequnum : mp.header.sequnum = sender.sequnum + UInt16.ofNat progress.call
  tlen : mp.header.tlen = UInt16.ofNat data.length
  fills : Fills data mp.data progress.filled
  len : mp.len = UInt16.ofNat progress.filled.card
  incomplete : progress.filled.card < data.length

/-- The receiver takes the packets of the sender, and the message it is processing is one of its calls. -/
structure Receives (sender : RtpSession) (calls : List (UInt64 × Bytes)) (progress : Progress) (session : RtpSession) :
    Prop where
  type : session.payloadType = sender.payloadType
  processing : ∀ mp, session.mp = some mp → ∃ data, Assembles sender calls progress data mp

/-- A message has the bytes of the call with its sequence number. -/
def IsGenuine (sender : RtpSession) (calls : List (UInt64 × Bytes)) (msg : RtpMessage) : Prop :=
  ∃ k clock data, calls[k]? = some (clock, data) ∧ msg.header.sequnum = sender.sequnum + UInt16.ofNat k ∧
    msg.data = data

/-- A message whose length is the length in its header is genuine. -/
def GenuineIfComplete (sender : RtpSession) (calls : List (UInt64 × Bytes)) (msg : RtpMessage) : Prop :=
  msg.len = msg.header.tlen → IsGenuine sender calls msg

section Steps

variable {sender session : RtpSession} {calls : List (UInt64 × Bytes)} {progress : Progress} {k offset : ℕ}
  {clock : UInt64} {data part : Bytes} {header : RtpHeader} {mp : RtpMessage}

theorem toNat_ofNat16 {n : ℕ} (hn : n < 2 ^ 16) : (UInt16.ofNat n).toNat = n := UInt16.toNat_ofNat_of_lt' hn

/-- The message being processed is not complete. -/
theorem Assembles.len_ne (h : Assembles sender calls progress data mp) : mp.len ≠ mp.header.tlen := by
  rw [h.len, h.tlen, ne_eq, ← UInt16.toNat_inj, toNat_ofNat16 (h.incomplete.trans h.short), toNat_ofNat16 h.short]
  exact h.incomplete.ne

namespace PartOfCall

variable (h : PartOfCall sender calls k clock data offset header part)

include h

theorem tlen : header.tlen = UInt16.ofNat data.length := by rw [h.header]; rfl

theorem cpart : header.cpart.toNat = offset := by
  have hinside := h.part.inside
  have hshort := h.short
  rw [h.header]
  exact toNat_ofNat16 (by omega)

theorem sequnum : header.sequnum = sender.sequnum + UInt16.ofNat k := by rw [h.header]; rfl

theorem small : header.pt < 128 := by
  rw [h.header]
  exact UInt8.mod_lt _ (by decide)

/-- A part only of a message is shorter than the data. -/
theorem length_lt (hmulti : header.tlen.toNat ≠ part.length) : part.length < data.length := by
  rw [h.tlen, toNat_ofNat16 h.short] at hmulti
  have hinside := h.part.inside
  omega

/-- Writing the part into the data of a message. -/
theorem write (hlength : mp.data.length = data.length) :
    mp.write header.cpart.toNat part = some { mp with data := put mp.data offset part } := by
  rw [RtpMessage.write, h.cpart, if_pos (by rw [hlength]; exact h.part.inside)]
  rfl

end PartOfCall

/-- The first part of a message starts it, unless it is late. -/
theorem newMultiparted_starts (h : PartOfCall sender calls k clock data offset header part)
    (htype : session.payloadType = sender.payloadType) (hidle : session.mp = none)
    (hmulti : header.tlen.toNat ≠ part.length) :
    ∃ session', newMultiparted session header (header.toBytes ++ part) = some session' ∧
      Receives sender calls ⟨k, positions header.cpart.toNat part⟩ session' := by
  have hlt := h.length_lt hmulti
  have hshort := h.short
  have htlen : header.tlen.toNat = data.length := by rw [h.tlen, toNat_ofNat16 hshort]
  have hnew : newMessage (header.tlen.toNat + rtpHeaderSize) (header.toBytes ++ part) =
      some ⟨UInt16.ofNat part.length, header, part ++ List.replicate (data.length - part.length) 0⟩ := by
    rw [newMessage, rtpPacket_length, if_neg (by omega), RtpHeader.ofBytes_toBytes h.small part, htlen,
      Nat.add_sub_cancel_left, drop_left' (RtpHeader.toBytes_length header),
      show data.length + rtpHeaderSize - (rtpHeaderSize + part.length) = data.length - part.length by omega]
  have htake : (part ++ List.replicate (data.length - part.length) (0 : UInt8)).take (UInt16.ofNat part.length).toNat =
      part := by rw [toNat_ofNat16 (by omega), take_left]
  have hlength : (part ++ List.replicate (data.length - part.length) (0 : UInt8)).length = data.length := by
    rw [length_append, length_replicate]
    omega
  unfold newMultiparted
  split
  · exact ⟨session, rfl, htype, fun mp hmp => by rw [hidle] at hmp; cases hmp⟩
  · dsimp only
    split
    · rw [hnew, bind_some]
      dsimp only
      rw [htake, h.write hlength, map_some]
      refine ⟨_, rfl, htype, fun mp hmp => ⟨data, ?_⟩⟩
      obtain rfl := some_inj.mp hmp
      have hfills := (Fills.empty hlength).put h.part
      rw [Finset.empty_union, ← h.cpart] at hfills
      rw [← h.cpart]
      refine ⟨⟨clock, h.call⟩, hshort, h.sequnum, h.tlen, hfills, ?_, ?_⟩
      · rw [card_positions]
      · rw [card_positions]
        exact hlt
    · exact ⟨_, rfl, htype, fun mp hmp => by rw [show (pickUp session header).mp = none from hidle] at hmp; cases hmp⟩

/-- What is pushed is the message being processed. -/
theorem mem_pushMessage {msg : RtpMessage} (h : msg ∈ (pushMessage session).1) : session.mp = some msg := by
  unfold pushMessage at h
  dsimp only at h
  split at h
  · exact Option.mem_toList.mp h
  · contradiction

/-- A part that is counted, and is one of the same call with positions that were not filled. -/
theorem addPart_counts (h : PartOfCall sender calls k clock data offset header part)
    (hreceives : Receives sender calls progress session) (hmp : session.mp = some mp)
    (honce : HasRoom mp header part →
      k = progress.call ∧ Disjoint progress.filled (positions header.cpart.toNat part)) :
    ∃ messages session', addPart session mp header part = some (messages, session') ∧
      (∀ msg ∈ messages, GenuineIfComplete sender calls msg) ∧
      Receives sender calls
        (if HasRoom mp header part then { progress with filled := progress.filled ∪ positions header.cpart.toNat part }
          else progress) session' := by
  obtain ⟨data', hassembles⟩ := hreceives.processing mp hmp
  unfold addPart
  split
  · rename_i hfull
    rw [if_neg fun hroom : HasRoom mp header part => hroom hfull]
    exact ⟨[], session, rfl, by simp, hreceives⟩
  · rename_i hroom
    rw [if_pos (show HasRoom mp header part from hroom)]
    obtain ⟨rfl, hdisjoint⟩ := honce hroom
    obtain rfl : data = data' := by
      obtain ⟨clock', hcall⟩ := hassembles.call
      exact (Prod.mk.inj (some_inj.mp (h.call.symm.trans hcall))).2
    have hfills := hassembles.fills.put h.part
    rw [← h.cpart] at hfills
    have hcard : (progress.filled ∪ positions header.cpart.toNat part).card = progress.filled.card + part.length := by
      rw [Finset.card_union_of_disjoint hdisjoint, card_positions]
    have hle := hfills.card_le
    have hshort := h.short
    rw [h.write hassembles.fills.length, map_some]
    dsimp only
    rw [hassembles.len, ← UInt16.ofNat_add, ← hcard, hassembles.tlen]
    split
    · rename_i hcomplete
      rw [← UInt16.toNat_inj, toNat_ofNat16 (by omega), toNat_ofNat16 hshort] at hcomplete
      refine ⟨_, _, rfl, ?_, hreceives.type, nofun⟩
      intro msg hmsg _
      obtain rfl := some_inj.mp (mem_pushMessage hmsg)
      refine ⟨progress.call, clock, data, h.call, hassembles.sequnum, ?_⟩
      rw [← h.cpart]
      exact hfills.eq_of_card hcomplete
    · rename_i hincomplete
      refine ⟨[], _, rfl, by simp, hreceives.type, fun mp' hmp' => ⟨data, ?_⟩⟩
      obtain rfl := some_inj.mp hmp'
      rw [← h.cpart]
      refine ⟨hassembles.call, hshort, hassembles.sequnum, hassembles.tlen, hfills, rfl, ?_⟩
      refine lt_of_le_of_ne hle fun heq => hincomplete ?_
      dsimp only at heq
      rw [heq]

/-- A message that is pushed before it is complete. -/
theorem Receives.push (hreceives : Receives sender calls progress session) :
    ∀ msg ∈ (pushMessage session).1, GenuineIfComplete sender calls msg := by
  intro msg hmsg hcomplete
  obtain ⟨data, hassembles⟩ := hreceives.processing msg (mem_pushMessage hmsg)
  exact absurd hcomplete hassembles.len_ne

/-- A packet with the whole message. -/
theorem newMessage_genuine (h : PartOfCall sender calls k clock data offset header part)
    (hsingle : header.tlen.toNat = part.length) :
    ∃ msg, newMessage (rtpHeaderSize + part.length) (header.toBytes ++ part) = some msg ∧
      IsGenuine sender calls msg := by
  have htlen : header.tlen.toNat = data.length := by rw [h.tlen, toNat_ofNat16 h.short]
  have hdata : part = data := h.part.eq_of_length (by rw [← hsingle, htlen])
  rw [newMessage, rtpPacket_length, if_neg (lt_irrefl _), RtpHeader.ofBytes_toBytes h.small part, Nat.sub_self,
    drop_left' (RtpHeader.toBytes_length header), replicate_zero, append_nil]
  exact ⟨_, rfl, k, clock, data, h.call, h.sequnum, hdata⟩

/-- What one packet does. -/
theorem handleRtpPacket_step (h : PartOfCall sender calls k clock data offset header part)
    (hreceives : Receives sender calls progress session) (honce : CountsOnce progress session k header part) :
    ∃ messages session', handleRtpPacket session (rtpPacket sender header part) = some (messages, session') ∧
      (∀ msg ∈ messages, GenuineIfComplete sender calls msg) ∧
      Receives sender calls (progress.add session k header part) session' := by
  have hparse := RtpHeader.ofBytes_toBytes h.small part
  have hpt : header.pt = session.payloadType % 128 := by
    rw [h.header, hreceives.type]
    rfl
  have hsub : rtpHeaderSize + part.length - rtpHeaderSize = part.length := by omega
  unfold handleRtpPacket rtpPacket
  dsimp only
  rw [hparse, rtpPacket_length, if_neg (by omega), if_neg (fun hne => hne hpt), hsub]
  split
  · rename_i hpart
    rw [Progress.add, if_neg fun hmulti : IsMultipart header part => UInt16.not_le.mpr hmulti.1 hpart]
    exact ⟨[], session, rfl, by simp, hreceives⟩
  · rename_i hpart
    split
    · rename_i hsingle
      rw [Progress.add, if_neg fun hmulti : IsMultipart header part => hmulti.2 hsingle]
      have hpicked : Receives sender calls progress (pickUp session header) := ⟨hreceives.type, hreceives.processing⟩
      split
      · exact ⟨[], session, rfl, by simp, hreceives⟩
      · split
        · obtain ⟨msg, hmsg, hgenuine⟩ := newMessage_genuine h hsingle
          rw [hmsg, map_some]
          refine ⟨_, _, rfl, fun other hother => ?_, hreceives.type, nofun⟩
          rcases mem_append.mp hother with hpushed | hnew
          · exact hpicked.push other hpushed
          · rw [mem_singleton.mp hnew]
            exact fun _ => hgenuine
        · exact ⟨_, _, rfl, hpicked.push, hreceives.type, nofun⟩
    · rename_i hmulti
      have hmultipart : IsMultipart header part := ⟨UInt16.not_le.mp hpart, hmulti⟩
      rw [Progress.add, if_pos hmultipart]
      cases hmp : session.mp with
      | none =>
        obtain ⟨session', hstarts, hreceives'⟩ := newMultiparted_starts h hreceives.type hmp hmulti
        dsimp only
        rw [hstarts, map_some]
        exact ⟨[], session', rfl, by simp, hreceives'⟩
      | some mp =>
        dsimp only
        by_cases hcontinues : Continues mp header
        · have hsame : mp.header.sequnum = header.sequnum ∧ mp.header.timestamp = header.timestamp := hcontinues
          rw [if_pos hsame, if_pos hcontinues, drop_left' (RtpHeader.toBytes_length header)]
          exact addPart_counts h hreceives hmp fun hroom => honce mp hmp hmultipart hcontinues hroom
        · have hother : ¬(mp.header.sequnum = header.sequnum ∧ mp.header.timestamp = header.timestamp) := hcontinues
          rw [if_neg hother, if_neg hcontinues]
          split
          · exact ⟨[], session, rfl, by simp, hreceives⟩
          · have htype : (pushMessage session).2.payloadType = sender.payloadType := hreceives.type
            obtain ⟨session', hstarts, hreceives'⟩ := newMultiparted_starts h htype rfl hmulti
            rw [hstarts, map_some]
            exact ⟨_, session', rfl, hreceives.push, hreceives'⟩

/-- What a run does. -/
theorem Receives.run (hshort : ∀ call ∈ calls, call.2.length < 2 ^ 16) {delivered : List (ℕ × Bytes)}
    (hsent : ∀ packet ∈ delivered, SentBy sender calls packet.1 packet.2)
    (hreceives : Receives sender calls progress session) (honce : EachCountsOnce progress session delivered) :
    ∃ messages session', deliverRtp session (delivered.map Prod.snd) = some (messages, session') ∧
      ∀ msg ∈ messages, GenuineIfComplete sender calls msg := by
  induction delivered generalizing progress session with
  | nil => exact ⟨[], session, rfl, by simp⟩
  | cons first rest ih =>
    obtain ⟨k, packet⟩ := first
    obtain ⟨hfirst, hrest⟩ := honce
    obtain ⟨clock, data, offset, header, part, rfl, hpart⟩ := (hsent _ mem_cons_self).part hshort
    have hheader : packetHeader (rtpPacket sender header part) = header :=
      RtpHeader.ofBytes_toBytes hpart.small part
    have hbytes : packetPart (rtpPacket sender header part) = part :=
      drop_left' (RtpHeader.toBytes_length header)
    rw [hheader, hbytes] at hfirst hrest
    obtain ⟨messages, session', hhandled, hgenuine, hreceives'⟩ := handleRtpPacket_step hpart hreceives hfirst
    obtain ⟨messages', session'', hdeliver, hgenuine'⟩ :=
      ih (fun other hother => hsent other (mem_cons_of_mem _ hother)) hreceives'
        (hrest messages session' hhandled)
    refine ⟨messages ++ messages', session'', ?_, fun msg hmsg => ?_⟩
    · rw [map_cons, deliverRtp, hhandled, bind_some, hdeliver, map_some]
    · exact (mem_append.mp hmsg).elim (hgenuine msg) (hgenuine' msg)

end Steps

/-- Packets of any calls are delivered in any order, lost and repeated. As long as every part that is counted for the
message being processed is one of the same call and fills positions that were not filled, the receiver does not fail,
and every complete message has the bytes of the call with its sequence number. -/
theorem complete_messages_genuine {sender receiver : RtpSession} (htype : receiver.payloadType = sender.payloadType)
    (hidle : receiver.mp = none) (calls : List (UInt64 × Bytes)) (hshort : ∀ call ∈ calls, call.2.length < 2 ^ 16)
    (delivered : List (ℕ × Bytes)) (hsent : ∀ packet ∈ delivered, SentBy sender calls packet.1 packet.2)
    (honce : EachCountsOnce ⟨0, ∅⟩ receiver delivered) :
    ∃ messages receiver', deliverRtp receiver (delivered.map Prod.snd) = some (messages, receiver') ∧
      ∀ msg ∈ messages, GenuineIfComplete sender calls msg :=
  Receives.run hshort hsent ⟨htype, fun mp hmp => by rw [hidle] at hmp; cases hmp⟩ honce

/-- A call with a message in two parts. -/
def callOfTwo : List (UInt64 × Bytes) := [(5, List.replicate 2584 3)]

/-- A packet of the call. -/
def partOfTwo (i : ℕ) : Bytes := (rtpSendData (rtpNew 192 1) 5 (List.replicate 2584 3)).1.getD i []

theorem partOfTwo_sent {i : ℕ} (hi : i < 2) : SentBy (rtpNew 192 1) callOfTwo 0 (partOfTwo i) := by
  have hlength : (rtpSendData (rtpNew 192 1) 5 (List.replicate 2584 3)).1.length = 2 := by decide +kernel
  refine ⟨5, List.replicate 2584 3, rfl, ?_⟩
  have hmem := getElem_mem (hlength.symm ▸ hi : i < (rtpSendData (rtpNew 192 1) 5 (List.replicate 2584 3)).1.length)
  rwa [getElem_eq_getD []] at hmem

/-- The parts arrive in the other order: the message is complete and genuine. -/
theorem complete_messages_genuine_swapped :
    ∃ messages receiver', deliverRtp (rtpNew 192 2) [partOfTwo 1, partOfTwo 0] = some (messages, receiver') ∧
      messages.map RtpMessage.content = [(2584, 0, List.replicate 2584 3)] ∧
      ∀ msg ∈ messages, GenuineIfComplete (rtpNew 192 1) callOfTwo msg := by
  have hfirst : (packetHeader (partOfTwo 1)).cpart.toNat = 1292 ∧ (packetPart (partOfTwo 1)).length = 1292 := by
    decide +kernel
  have hsecond : (packetHeader (partOfTwo 0)).cpart.toNat = 0 ∧ (packetPart (partOfTwo 0)).length = 1292 := by
    decide +kernel
  have hmulti : IsMultipart (packetHeader (partOfTwo 1)) (packetPart (partOfTwo 1)) := by decide +kernel
  have hcontent : (deliverRtp (rtpNew 192 2) [partOfTwo 1, partOfTwo 0]).map
      (fun result => result.1.map RtpMessage.content) = some [(2584, 0, List.replicate 2584 3)] := by decide +kernel
  have hsent := partOfTwo_sent (show 1 < 2 by norm_num)
  have hsent' := partOfTwo_sent (show 0 < 2 by norm_num)
  have hshort : ∀ call ∈ callOfTwo, call.2.length < 2 ^ 16 := by
    intro call hcall
    have hdata : call.2 = List.replicate 2584 3 := congrArg Prod.snd (mem_singleton.mp hcall)
    rw [hdata, length_replicate]
    norm_num
  generalize partOfTwo 1 = second at *
  generalize partOfTwo 0 = first at *
  generalize callOfTwo = calls at *
  have honce : EachCountsOnce ⟨0, ∅⟩ (rtpNew 192 2) [(0, second), (0, first)] := by
    refine ⟨nofun, fun _ session' _ => ⟨fun mp _ _ _ _ => ?_, fun _ _ _ => trivial⟩⟩
    rw [Progress.add, if_pos hmulti]
    refine ⟨rfl, Finset.disjoint_left.mpr fun i hi hi' => ?_⟩
    have hfrom := mem_positions.mp hi
    have hto := mem_positions.mp hi'
    omega
  have htype : (rtpNew 192 2).payloadType = (rtpNew 192 1).payloadType := rfl
  have hall : ∀ packet ∈ [(0, second), (0, first)], SentBy (rtpNew 192 1) calls packet.1 packet.2 :=
    forall_mem_cons.mpr ⟨hsent, forall_mem_cons.mpr ⟨hsent', nofun⟩⟩
  obtain ⟨messages, receiver', hdeliver, hgenuine⟩ := complete_messages_genuine htype rfl calls hshort _ hall honce
  rw [map_cons, map_singleton] at hdeliver
  rw [hdeliver, map_some, some_inj] at hcontent
  exact ⟨messages, receiver', hdeliver, hcontent, hgenuine⟩

/-- The first part arrives twice: the message counts as complete, and its second half was never filled. -/
theorem repeated_part_completes :
    (∀ packet ∈ [partOfTwo 0, partOfTwo 0], packet ∈ rtpSendAll (rtpNew 192 1) callOfTwo) ∧
      ∃ messages receiver', deliverRtp (rtpNew 192 2) [partOfTwo 0, partOfTwo 0] = some (messages, receiver') ∧
        ∃ msg ∈ messages, msg.len = msg.header.tlen ∧
          ¬IsGenuine (rtpNew 192 1) callOfTwo msg := by
  have hcontent : (deliverRtp (rtpNew 192 2) [partOfTwo 0, partOfTwo 0]).map
      (fun result => result.1.map fun msg => (msg.len, msg.header.tlen, msg.data.getLast?)) =
        some [(2584, 2584, some 0)] := by decide +kernel
  have hsent : partOfTwo 0 ∈ rtpSendAll (rtpNew 192 1) callOfTwo :=
    mem_rtpSendAll.mpr ⟨0, partOfTwo_sent (by norm_num)⟩
  obtain ⟨⟨messages, receiver'⟩, hdeliver, hmessages⟩ := map_eq_some_iff.mp hcontent
  obtain ⟨msg, rfl, hmsg⟩ := map_eq_singleton_iff.mp hmessages
  obtain ⟨hlen, hrest⟩ := Prod.mk.inj hmsg
  obtain ⟨htlen, hlast⟩ := Prod.mk.inj hrest
  refine ⟨forall_mem_cons.mpr ⟨hsent, forall_mem_cons.mpr ⟨hsent, nofun⟩⟩, _, receiver', hdeliver, msg,
    mem_singleton_self msg, hlen.trans htlen.symm, ?_⟩
  rintro ⟨k, clock, data, hcall, -, rfl⟩
  obtain ⟨-, hdata⟩ := Prod.mk.inj (mem_singleton.mp (mem_of_getElem? hcall))
  rw [hdata] at hlast
  exact absurd hlast (by decide +kernel)

end Toxcore
