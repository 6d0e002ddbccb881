import Toxcore.Av.RtpReassembly

/-!
# Where the bytes of media packets are written

The position of a part, its length and the total length all come from the peer. `handle_rtp_packet` compares the
length of a part with what is still missing, and its position with the total length, but never their sum. The
assertion of `new_message` and the bounds of the data that it allocates hold exactly as long as every part ends within
the message that it is written to.
-/

namespace Toxcore

open ByteStrings List Option

/-- The data of a message has the total length of its header. -/
def RtpMessage.Allocated (msg : RtpMessage) : Prop := msg.data.length = msg.header.tlen.toNat

/-- The message that is being processed, if there is one, has the data that was allocated for it. -/
def RtpSession.Allocated (session : RtpSession) : Prop := ∀ mp, session.mp = some mp → mp.Allocated

/-- A part that starts a message ends within it. -/
def StartFits (session : RtpSession) (header : RtpHeader) (part : Bytes) : Prop :=
  chloss session header = false → session.mcb = true → header.cpart.toNat + part.length ≤ header.tlen.toNat

/-- The part in a packet, if it is written to a message, ends within that message: the one that it continues, or one
that it starts. -/
def PartFits (session : RtpSession) (packet : Bytes) : Prop :=
  rtpHeaderSize ≤ packet.tail.length → (packetHeader packet).pt = session.payloadType % 128 →
    IsMultipart (packetHeader packet) (packetPart packet) →
      match session.mp with
      | none => StartFits session (packetHeader packet) (packetPart packet)
      | some mp =>
        if Continues mp (packetHeader packet) then
          HasRoom mp (packetHeader packet) (packetPart packet) →
            (packetHeader packet).cpart.toNat + (packetPart packet).length ≤ mp.header.tlen.toNat
        else mp.header.timestamp ≤ (packetHeader packet).timestamp →
          StartFits session (packetHeader packet) (packetPart packet)

section Steps

variable {session session' : RtpSession} {mp : RtpMessage} {header : RtpHeader} {data part packet : Bytes}
  {messages : List RtpMessage}

/-- Bytes are written within the data of a message, or nowhere. -/
theorem RtpMessage.Allocated.write (h : mp.Allocated) (offset : ℕ) (bytes : Bytes) :
    ((mp.write offset bytes).isSome ↔ offset + bytes.length ≤ mp.header.tlen.toNat) ∧
      ∀ mp', mp.write offset bytes = some mp' → mp'.Allocated ∧ mp'.header = mp.header := by
  rw [Allocated] at h
  rw [RtpMessage.write, h]
  split
  · rename_i hfits
    refine ⟨⟨fun _ => hfits, fun _ => rfl⟩, ?_⟩
    intro mp' hmp'
    obtain rfl := some_inj.mp hmp'
    refine ⟨?_, rfl⟩
    rw [Allocated]
    dsimp only
    rw [length_append, length_append, length_take, length_drop, h]
    omega
  · rename_i hfits
    exact ⟨⟨fun hsome => absurd hsome (by simp), fun hle => absurd hle hfits⟩, by simp⟩

/-- A new message holds its first part and the space for the others. -/
theorem newMessage_allocated (hlong : rtpHeaderSize ≤ data.length) :
    ((newMessage ((RtpHeader.ofBytes data).tlen.toNat + rtpHeaderSize) data).isSome ↔
      (data.drop rtpHeaderSize).length ≤ (RtpHeader.ofBytes data).tlen.toNat) ∧
    ∀ msg, newMessage ((RtpHeader.ofBytes data).tlen.toNat + rtpHeaderSize) data = some msg →
      msg.Allocated ∧ msg.header = RtpHeader.ofBytes data ∧ msg.len = UInt16.ofNat (data.drop rtpHeaderSize).length ∧
        (data.drop rtpHeaderSize) <+: msg.data := by
  rw [newMessage, length_drop]
  split
  · rename_i hshort
    exact ⟨⟨fun hsome => absurd hsome (by simp), fun hle => by omega⟩, by simp⟩
  · rename_i hfits
    refine ⟨⟨fun _ => by omega, fun _ => rfl⟩, ?_⟩
    intro msg hmsg
    obtain rfl := some_inj.mp hmsg
    refine ⟨?_, rfl, rfl, prefix_append _ _⟩
    rw [RtpMessage.Allocated]
    dsimp only
    rw [length_append, length_replicate, length_drop]
    omega

/-- A part starts a message exactly where it ends within it. -/
theorem newMultiparted_fits (hlong : rtpHeaderSize ≤ data.length) (hsmall : data.length < 2 ^ 16)
    (h : session.Allocated) :
    ((newMultiparted session (RtpHeader.ofBytes data) data).isSome ↔
      StartFits session (RtpHeader.ofBytes data) (data.drop rtpHeaderSize)) ∧
    ∀ session', newMultiparted session (RtpHeader.ofBytes data) data = some session' → session'.Allocated := by
  unfold newMultiparted
  split
  · rename_i hlate
    refine ⟨⟨fun _ hnot => ?_, fun _ => rfl⟩, fun session' hsession' => some_inj.mp hsession' ▸ h⟩
    rw [hlate] at hnot
    contradiction
  · rename_i hnew
    have hnew := Bool.not_eq_true _ ▸ hnew
    dsimp only
    split
    · rename_i hcallback
      obtain ⟨hallocates, hmessage⟩ := newMessage_allocated hlong
      have hstart : StartFits session (RtpHeader.ofBytes data) (data.drop rtpHeaderSize) ↔
          (RtpHeader.ofBytes data).cpart.toNat + (data.drop rtpHeaderSize).length ≤
          (RtpHeader.ofBytes data).tlen.toNat :=
        ⟨fun hfits => hfits hnew hcallback, fun hfits _ _ => hfits⟩
      rw [hstart]
      cases hmsg : newMessage ((RtpHeader.ofBytes data).tlen.toNat + rtpHeaderSize) data with
      | none =>
        rw [hmsg] at hallocates
        have hlonger : ¬(data.drop rtpHeaderSize).length ≤ (RtpHeader.ofBytes data).tlen.toNat :=
          hallocates.not.mp (by simp)
        refine ⟨⟨nofun, fun hfits => ?_⟩, nofun⟩
        omega
      | some msg =>
        obtain ⟨hallocated, hheader, hlen, hprefix⟩ := hmessage msg hmsg
        have hpart : msg.data.take msg.len.toNat = data.drop rtpHeaderSize := by
          rw [hlen, UInt16.toNat_ofNat_of_lt' (by rw [length_drop]; change _ < 2 ^ 16; omega)]
          exact (prefix_iff_eq_take.mp hprefix).symm
        obtain ⟨hwrites, hwritten⟩ := hallocated.write (RtpHeader.ofBytes data).cpart.toNat (data.drop rtpHeaderSize)
        rw [hheader] at hwrites
        rw [bind_some, hpart, isSome_map]
        refine ⟨hwrites, fun session' hsession' => ?_⟩
        obtain ⟨msg', hmsg', rfl⟩ := map_eq_some_iff.mp hsession'
        intro mp hmp
        obtain rfl := some_inj.mp hmp
        exact (hwritten msg' hmsg').1
    · rename_i hcallback
      refine ⟨⟨fun _ _ hyes => absurd hyes hcallback, fun _ => rfl⟩, fun session' hsession' => ?_⟩
      obtain rfl := some_inj.mp hsession'
      exact h

/-- A part is added exactly where it ends within the message. -/
theorem addPart_fits (hmp : mp.Allocated) (h : session.Allocated) :
    ((addPart session mp header part).isSome ↔
      (HasRoom mp header part → header.cpart.toNat + part.length ≤ mp.header.tlen.toNat)) ∧
    ∀ messages session', addPart session mp header part = some (messages, session') → session'.Allocated := by
  unfold addPart
  split
  · rename_i hfull
    refine ⟨⟨fun _ hroom => absurd hfull hroom, fun _ => rfl⟩, fun messages session' hsession' => ?_⟩
    obtain ⟨rfl, rfl⟩ := Prod.mk.inj (some_inj.mp hsession')
    exact h
  · rename_i hroom
    obtain ⟨hwrites, hwritten⟩ := hmp.write header.cpart.toNat part
    rw [isSome_map, hwrites]
    refine ⟨⟨fun hfits _ => hfits, fun hfits => hfits hroom⟩, fun messages session' hsession' => ?_⟩
    obtain ⟨mp', hmp', heq⟩ := map_eq_some_iff.mp hsession'
    obtain ⟨hallocated, hheader⟩ := hwritten mp' hmp'
    dsimp only at heq
    split at heq
    · obtain ⟨-, rfl⟩ := Prod.mk.inj heq
      exact nofun
    · obtain ⟨-, rfl⟩ := Prod.mk.inj heq
      intro mp'' hmp''
      obtain rfl := some_inj.mp hmp''
      exact hallocated

/-- A packet is handled without a failing assertion and without a write outside the data of a message exactly where
its part ends within the message that it is written to. -/
theorem handleRtpPacket_fits (hpos : 1 ≤ packet.length) (hmax : packet.length ≤ maxCryptoDataSize)
    (h : session.Allocated) :
    ((handleRtpPacket session packet).isSome ↔ PartFits session packet) ∧
    ∀ messages session', handleRtpPacket session packet = some (messages, session') → session'.Allocated := by
  obtain ⟨byte, data, rfl⟩ := exists_cons_of_length_pos hpos
  have hsmall : data.length < 2 ^ 16 := by
    rw [length_cons] at hmax
    have hbound : maxCryptoDataSize < 2 ^ 16 := by decide
    omega
  have hkept (messages : List RtpMessage) {session' : RtpSession} (hsession' : session'.Allocated) :
      ∀ messages' session'', some (messages, session') = some (messages', session'') → session''.Allocated := by
    intro messages' session'' heq
    exact (Prod.mk.inj (some_inj.mp heq)).2 ▸ hsession'
  rw [handleRtpPacket, PartFits, packetHeader, packetPart, tail_cons]
  dsimp only
  split
  · rename_i hshort
    exact ⟨⟨fun _ hlong => absurd hshort (Nat.not_lt.mpr hlong), fun _ => rfl⟩, hkept [] h⟩
  · rename_i hlong
    have hlong := Nat.not_lt.mp hlong
    have hlength : (data.drop rtpHeaderSize).length = data.length - rtpHeaderSize := length_drop
    split
    · rename_i htype
      exact ⟨⟨fun _ _ hsame => absurd hsame htype, fun _ => rfl⟩, hkept [] h⟩
    · rename_i htype
      split
      · rename_i hpart
        refine ⟨⟨fun _ _ _ hmulti => ?_, fun _ => rfl⟩, hkept [] h⟩
        exact absurd hmulti.1 (UInt16.not_lt.mpr hpart)
      · rename_i hpart
        split
        · rename_i hwhole
          have hnot : ¬IsMultipart (RtpHeader.ofBytes data) (data.drop rtpHeaderSize) :=
            fun hmulti => hmulti.2 (hwhole.trans hlength.symm)
          have hnew : newMessage data.length data = some ⟨UInt16.ofNat (data.length - rtpHeaderSize), .ofBytes data,
              data.drop rtpHeaderSize ++ List.replicate (data.length - data.length) 0⟩ := if_neg (Nat.lt_irrefl _)
          split
          · exact ⟨⟨fun _ _ _ hmulti => absurd hmulti hnot, fun _ => rfl⟩, hkept [] h⟩
          · split
            · rw [hnew]
              exact ⟨⟨fun _ _ _ hmulti => absurd hmulti hnot, fun _ => rfl⟩, hkept _ nofun⟩
            · exact ⟨⟨fun _ _ _ hmulti => absurd hmulti hnot, fun _ => rfl⟩, hkept _ nofun⟩
        · rename_i hmulti
          have hmultipart : IsMultipart (RtpHeader.ofBytes data) (data.drop rtpHeaderSize) :=
            ⟨UInt16.not_le.mp hpart, fun heq => hmulti (heq.trans hlength)⟩
          have hgiven (p : Prop) :
            (rtpHeaderSize ≤ data.length → (RtpHeader.ofBytes data).pt = session.payloadType % 128 →
              IsMultipart (RtpHeader.ofBytes data) (data.drop rtpHeaderSize) → p) ↔ p :=
            ⟨fun hp => hp hlong (not_ne_iff.mp htype) hmultipart, fun hp _ _ _ => hp⟩
          rw [hgiven]
          -- a part that starts a message, in a session whose message was pushed or that had none
          have hstarts (pushed : List RtpMessage) (idle : RtpSession) (hidle : idle.Allocated) :
              (((newMultiparted idle (RtpHeader.ofBytes data) data).map fun session => (pushed, session)).isSome ↔
                StartFits idle (RtpHeader.ofBytes data) (data.drop rtpHeaderSize)) ∧
              ∀ messages session', ((newMultiparted idle (RtpHeader.ofBytes data) data).map fun session =>
                (pushed, session)) = some (messages, session') → session'.Allocated := by
            obtain ⟨hfits, hallocated⟩ := newMultiparted_fits hlong hsmall hidle
            rw [isSome_map]
            refine ⟨hfits, fun messages session' hsession' => ?_⟩
            obtain ⟨started, hstarted, heq⟩ := map_eq_some_iff.mp hsession'
            obtain ⟨-, rfl⟩ := Prod.mk.inj heq
            exact hallocated started hstarted
          cases hmp : session.mp with
          | none => exact hstarts [] session h
          | some mp =>
            dsimp only
            by_cases hcontinues : Continues mp (RtpHeader.ofBytes data)
            · rw [if_pos hcontinues, if_pos (show _ ∧ _ from hcontinues)]
              exact addPart_fits (h mp hmp) h
            · rw [if_neg hcontinues, if_neg (show ¬(_ ∧ _) from hcontinues)]
              split
              · rename_i hold
                exact ⟨⟨fun _ hle => absurd hold (UInt32.not_lt.mpr hle), fun _ => rfl⟩, hkept [] h⟩
              · rename_i hnew
                have hle := UInt32.not_lt.mp hnew
                obtain ⟨hfits, hallocated⟩ := hstarts (pushMessage session).1 (pushMessage session).2 nofun
                exact ⟨hfits.trans ⟨fun hstart _ => hstart, fun hstart => hstart hle⟩, hallocated⟩

end Steps

/-! ## Runs -/

/-- From a session that is processing no message, packets of any content are handled without a failing assertion of
`new_message` and without a write outside the data of a message exactly where the part in each of them, if it is
written to a message, ends within that message. -/
theorem deliverRtp_within_iff {session : RtpSession} (hidle : session.mp = none) (packets : List Bytes)
    (hlengths : ∀ packet ∈ packets, 1 ≤ packet.length ∧ packet.length ≤ maxCryptoDataSize) :
    (deliverRtp session packets).isSome ↔ ∀ before packet after, packets = before ++ packet :: after →
      ∀ messages reached, deliverRtp session before = some (messages, reached) → PartFits reached packet := by
  have hallocated : session.Allocated := fun mp hmp => absurd (hidle.symm.trans hmp) (some_ne_none mp).symm
  clear hidle
  induction packets generalizing session with
  | nil => exact ⟨fun _ before packet after hsplit => absurd hsplit (by simp), fun _ => rfl⟩
  | cons packet packets ih =>
    obtain ⟨⟨hpos, hmax⟩, hlengths⟩ := forall_mem_cons.mp hlengths
    obtain ⟨hfits, hkeeps⟩ := handleRtpPacket_fits hpos hmax hallocated
    rw [deliverRtp]
    cases hhandled : handleRtpPacket session packet with
    | none =>
      rw [hhandled] at hfits
      refine ⟨fun hsome => absurd hsome (by simp), fun hall => ?_⟩
      exact absurd (hfits.mpr (hall [] packet packets rfl [] session rfl)) Bool.false_ne_true
    | some handled =>
      obtain ⟨messages, next⟩ := handled
      rw [bind_some, isSome_map]
      refine (ih hlengths (hkeeps messages next hhandled)).trans ?_
      constructor
      · intro hrest before packet' after hsplit messages' reached hreached
        cases before with
        | nil =>
          obtain ⟨rfl, rfl⟩ := List.cons.inj hsplit
          obtain ⟨-, rfl⟩ := Prod.mk.inj (some_inj.mp hreached)
          exact hfits.mp (by rw [hhandled]; rfl)
        | cons first before =>
          obtain ⟨rfl, htail⟩ := List.cons.inj hsplit
          rw [deliverRtp, hhandled, bind_some] at hreached
          obtain ⟨rest, hrest', heq⟩ := map_eq_some_iff.mp hreached
          obtain ⟨-, rfl⟩ := Prod.mk.inj heq
          exact hrest before packet' after htail rest.1 rest.2 hrest'
      · intro hall before packet' after hsplit messages' reached hreached
        refine hall (packet :: before) packet' after (congrArg (packet :: ·) hsplit) (messages ++ messages') reached ?_
        rw [deliverRtp, hhandled, bind_some, hreached]
        rfl

/-- A part of one byte of a message of two bytes. -/
def partPacket (cpart : UInt16) : Bytes := 192 :: ({ rtpHeader (rtpNew 192 1) 5 2 with cpart := cpart }.toBytes ++ [7])

/-- The first part waits for the second one, and both fit. -/
theorem deliverRtp_within_parts :
    ((deliverRtp (rtpNew 192 1) [partPacket 0]).any fun run => run.1.isEmpty && run.2.mp.isSome) = true ∧
      ∀ before packet after, [partPacket 0, partPacket 1] = before ++ packet :: after →
        ∀ messages reached, deliverRtp (rtpNew 192 1) before = some (messages, reached) → PartFits reached packet :=
  ⟨by decide +kernel, (deliverRtp_within_iff rfl [partPacket 0, partPacket 1] (by decide)).mp (by decide +kernel)⟩

/-- A packet with two bytes behind a header that promises one byte. -/
def overlongPacket : Bytes := 192 :: ({ rtpHeader (rtpNew 192 1) 5 1 with cpart := 0 }.toBytes ++ [7, 7])

/-- The assertion of `new_message` fails for a part that is longer than the message it starts. -/
theorem overlong_part_fails : ¬∀ session : RtpSession, session.mp = none → ∀ packets : List Bytes,
    (∀ packet ∈ packets, 1 ≤ packet.length ∧ packet.length ≤ maxCryptoDataSize) →
      (deliverRtp session packets).isSome := by
  intro hall
  have hfails : (deliverRtp (rtpNew 192 1) [overlongPacket]).isSome = false := by decide +kernel
  rw [hall (rtpNew 192 1) rfl [overlongPacket] (by decide)] at hfails
  contradiction

end Toxcore
