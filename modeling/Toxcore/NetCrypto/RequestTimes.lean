import Mathlib.Order.Bounds.Basic
import Toxcore.NetCrypto.RequestCodec

/-!
# The send times behind a request packet

`handle_request_packet` also feeds the round trip time: it should report the latest send time of the
packets it frees, and let the requested packets whose round trip has passed be sent again. The running
maximum starts as `~0`, the greatest number, so every request with a body reports that number.
-/

namespace Toxcore

open ByteStrings RingWindow

/-- The send times of the packets that are in one buffer and gone in another. -/
def freedTimes (before after : Fin cryptoPacketBufferSize → Option PacketData) : Set ℕ :=
  {time | ∃ k packet, before k = some packet ∧ after k = none ∧ time = packet.sentTime.toNat}

/-- What a request packet should do to the send times: the reported time becomes the maximum of itself and the
send times of the freed packets, and exactly the requested packets still held whose round trip has passed get
the send time 0. -/
structure MeasuresRoundTrip (before after : PacketsArray) (requested : List UInt32)
    (latestSendTime latestSendTime' rttTime now : UInt64) : Prop where
  latest : IsGreatest (insert latestSendTime.toNat (freedTimes before.buffer after.buffer)) latestSendTime'.toNat
  reset : ∀ k packet', after.buffer k = some packet' → ∃ packet, before.buffer k = some packet ∧
    packet'.sentTime =
      if k ∈ requested.map packetSlot ∧ packet.sentTime.toNat + rttTime.toNat < now.toNat then 0
      else packet.sentTime

section Answered

variable {sendArray : PacketsArray} {freed requested : List UInt32} {rttTime now : UInt64}

/-- The freed packets of an answered array are those under the freed numbers. -/
theorem answered_freed {k : Fin cryptoPacketBufferSize} {packet : PacketData}
    (hbefore : sendArray.buffer k = some packet) :
    answered now rttTime freed requested sendArray.buffer k = none ↔ k ∈ freed.map packetSlot := by
  unfold answered
  rw [hbefore]
  split
  · rename_i hmem
    exact iff_of_true rfl hmem
  · rename_i hmem
    split <;> simp [hmem]

/-- The greatest number is the maximum where it was reported before or a freed packet was sent at it. -/
theorem isGreatest_greatest_iff {before after : Fin cryptoPacketBufferSize → Option PacketData}
    {latestSendTime : UInt64} :
    IsGreatest (insert latestSendTime.toNat (freedTimes before after)) (0 - 1 : UInt64).toNat ↔
      latestSendTime = 0 - 1 ∨
        ∃ k packet, before k = some packet ∧ after k = none ∧ packet.sentTime = 0 - 1 := by
  have hmember : (0 - 1 : UInt64).toNat ∈ insert latestSendTime.toNat (freedTimes before after) ↔
      latestSendTime = 0 - 1 ∨
        ∃ k packet, before k = some packet ∧ after k = none ∧ packet.sentTime = 0 - 1 := by
    simp only [freedTimes, Set.mem_insert_iff, Set.mem_ofPred_eq, UInt64.toNat_inj, @eq_comm UInt64 (0 - 1)]
  refine ⟨fun h => hmember.mp h.1, fun h => ⟨hmember.mpr h, ?_⟩⟩
  rintro time (rfl | ⟨k, packet, -, -, rfl⟩)
  · exact Nat.le_sub_one_of_lt latestSendTime.toNat_lt
  · exact Nat.le_sub_one_of_lt packet.sentTime.toNat_lt

/-- Where nothing is freed the reported time stays. -/
theorem isGreatest_unchanged {buffer : Fin cryptoPacketBufferSize → Option PacketData} {latestSendTime : UInt64} :
    IsGreatest (insert latestSendTime.toNat (freedTimes buffer buffer)) latestSendTime.toNat := by
  refine ⟨Set.mem_insert _ _, ?_⟩
  rintro time (rfl | ⟨k, packet, hsome, hnone, -⟩)
  · exact le_refl _
  · rw [hsome] at hnone
    contradiction

/-- The send time of a marked packet. -/
theorem markRequested_sentTime (packet : PacketData) :
    (markRequested now rttTime packet).sentTime =
      if packet.sentTime + rttTime < now then 0 else packet.sentTime := by
  unfold markRequested
  split <;> rfl

/-- The sum that wraps is below the sum that does not. -/
theorem add_lt_of_toNat_add_lt {time : UInt64} (h : time.toNat + rttTime.toNat < now.toNat) :
    time + rttTime < now := by
  rw [UInt64.lt_iff_toNat_lt, UInt64.toNat_add]
  exact lt_of_le_of_lt (Nat.mod_le _ _) h

/-- Exactly the due packets are reset, unless a sum that wraps makes another one look due. -/
theorem answered_reset_iff :
    (∀ k packet', answered now rttTime freed requested sendArray.buffer k = some packet' →
        ∃ packet, sendArray.buffer k = some packet ∧ packet'.sentTime =
          if k ∈ requested.map packetSlot ∧ packet.sentTime.toNat + rttTime.toNat < now.toNat then 0
          else packet.sentTime) ↔
      ∀ k packet, k ∈ requested.map packetSlot → k ∉ freed.map packetSlot → sendArray.buffer k = some packet →
        packet.sentTime + rttTime < now → packet.sentTime.toNat + rttTime.toNat < now.toNat := by
  constructor
  · intro h k packet hrequested hfreed hslot hdue
    have hafter : answered now rttTime freed requested sendArray.buffer k =
        some (markRequested now rttTime packet) := by
      rw [answered, if_neg hfreed, if_pos hrequested, hslot, Option.map_some]
    obtain ⟨packet', hslot', htime⟩ := h k _ hafter
    obtain rfl : packet = packet' := Option.some_inj.mp (hslot.symm.trans hslot')
    by_contra hnot
    rw [markRequested_sentTime, if_pos hdue, if_neg fun hboth => hnot hboth.2] at htime
    rw [← htime, UInt64.zero_add, UInt64.lt_iff_toNat_lt] at hdue
    rw [← htime, UInt64.toNat_zero, Nat.zero_add] at hnot
    exact hnot hdue
  · intro h k packet' hafter
    unfold answered at hafter
    split at hafter
    · contradiction
    · rename_i hfreed
      split at hafter
      · rename_i hrequested
        obtain ⟨packet, hslot, rfl⟩ := Option.map_eq_some_iff.mp hafter
        refine ⟨packet, hslot, ?_⟩
        have hdue : packet.sentTime + rttTime < now ↔
            k ∈ requested.map packetSlot ∧ packet.sentTime.toNat + rttTime.toNat < now.toNat :=
          ⟨fun hlt => ⟨hrequested, h k packet hrequested hfreed hslot hlt⟩, fun hboth => add_lt_of_toNat_add_lt hboth.2⟩
        rw [markRequested_sentTime]
        simp only [hdue]
      · rename_i hrequested
        exact ⟨packet', hafter, by rw [if_neg fun hboth => hrequested hboth.1]⟩

end Answered

/-- The request is not measured wrongly: it has no body, or the greatest number is the right answer. -/
def ReportsGreatest (sendArray : PacketsArray) (body : Bytes) (freed : List UInt32) (latestSendTime : UInt64) : Prop :=
  body = [] ∨ latestSendTime = 0 - 1 ∨
    ∃ number ∈ freed, ∃ packet, sendArray.buffer (packetSlot number) = some packet ∧ packet.sentTime = 0 - 1

/-- No requested packet that is kept looks due only because the sum of its times wraps. -/
def NoTimeWraps (sendArray : PacketsArray) (freed requested : List UInt32) (rttTime now : UInt64) : Prop :=
  ∀ k packet, k ∈ requested.map packetSlot → k ∉ freed.map packetSlot → sendArray.buffer k = some packet →
    packet.sentTime + rttTime < now → packet.sentTime.toNat + rttTime.toNat < now.toNat

/-- Every well-formed request is handled, and the send times come out right exactly where the greatest number is
the right answer and no time wraps. -/
theorem handleRequestPacket_measures_iff (sendArray : PacketsArray) (body : Bytes)
    (latestSendTime rttTime now : UInt64) {decided : List Bool}
    (hrequest : GapCode.decode 1 body (numPacketsArray sendArray) = some decided) :
    let freed := freedNumbers (window sendArray.bufferStart sendArray.bufferEnd) decided
    let requested := requestedNumbers (window sendArray.bufferStart sendArray.bufferEnd) decided
    ∃ after latestSendTime',
      handleRequestPacket sendArray (packetIdRequest :: body) latestSendTime rttTime now =
        (after, some (decided.count false), latestSendTime') ∧
      (MeasuresRoundTrip sendArray after requested latestSendTime latestSendTime' rttTime now ↔
        ReportsGreatest sendArray body freed latestSendTime ∧ NoTimeWraps sendArray freed requested rttTime now) := by
  intro freed requested
  have hanswers := handleRequestPacket_answers sendArray body latestSendTime rttTime now hrequest
  refine ⟨_, _, hanswers, ?_⟩
  have hlatest : IsGreatest
      (insert latestSendTime.toNat
        (freedTimes sendArray.buffer (answered now rttTime freed requested sendArray.buffer)))
      (if body = [] then latestSendTime else 0 - 1).toNat ↔ ReportsGreatest sendArray body freed latestSendTime := by
    by_cases hbody : body = []
    · rw [if_pos hbody]
      have hfreed : answered now rttTime freed requested sendArray.buffer = sendArray.buffer := by
        rw [hbody, GapCode.decode_nil, Option.some.injEq] at hrequest
        simp only [freed, requested, ← hrequest, freedNumbers_nil, requestedNumbers_nil, answered_nil]
      rw [hfreed]
      exact iff_of_true isGreatest_unchanged (.inl hbody)
    · rw [if_neg hbody, isGreatest_greatest_iff, ReportsGreatest, or_iff_right hbody]
      apply or_congr_right
      constructor
      · rintro ⟨k, packet, hslot, hnone, htime⟩
        obtain ⟨number, hnumber, rfl⟩ := List.mem_map.mp ((answered_freed hslot).mp hnone)
        exact ⟨number, hnumber, packet, hslot, htime⟩
      · rintro ⟨number, hnumber, packet, hslot, htime⟩
        exact ⟨packetSlot number, packet, hslot, (answered_freed hslot).mpr (List.mem_map_of_mem hnumber), htime⟩
  constructor
  · intro h
    exact ⟨hlatest.mp h.latest, answered_reset_iff.mp h.reset⟩
  · rintro ⟨hgreatest, hwraps⟩
    exact ⟨hlatest.mpr hgreatest, answered_reset_iff.mpr hwraps⟩

/-- A send array with one packet, sent at the time 100. -/
def sentAtHundred : PacketsArray := ⟨fun k => if k = 0 then some ⟨100, [32]⟩ else none, 0, 1⟩

/-- The packet is asked for again after its round trip: it is marked, and the greatest number stays reported. -/
theorem handleRequestPacket_measures_iff_due :
    ∃ after latestSendTime', handleRequestPacket sentAtHundred [packetIdRequest, 1] (0 - 1) 10 200 =
        (after, some 1, latestSendTime') ∧
      after.buffer 0 = some ⟨0, [32]⟩ ∧
      MeasuresRoundTrip sentAtHundred after [0] (0 - 1) latestSendTime' 10 200 := by
  have hrequest : GapCode.decode 1 [1] (numPacketsArray sentAtHundred) = some [false] := by decide +kernel
  obtain ⟨after, latestSendTime', hanswers, hiff⟩ :=
    handleRequestPacket_measures_iff sentAtHundred [1] (0 - 1) 10 200 hrequest
  have hmarked : (handleRequestPacket sentAtHundred [packetIdRequest, 1] (0 - 1) 10 200).1.buffer 0 =
      some ⟨0, [32]⟩ := by decide +kernel
  rw [hanswers] at hmarked
  refine ⟨after, latestSendTime', hanswers, hmarked, hiff.mpr ⟨.inr (.inl rfl), ?_⟩⟩
  intro k packet _ _ hslot _
  obtain ⟨-, rfl⟩ : k = 0 ∧ ⟨100, [32]⟩ = packet := by simpa [sentAtHundred] using hslot
  decide

/-- The packet was received, and the request behind it frees it: not its send time is reported, but the greatest
number. -/
theorem freed_packet_reports_greatest :
    (handleRequestPacket sentAtHundred [packetIdRequest, 2] 0 10 200).1.buffer 0 = none ∧
      (handleRequestPacket sentAtHundred [packetIdRequest, 2] 0 10 200).2 = (some 0, 0 - 1) ∧
      ¬MeasuresRoundTrip sentAtHundred (handleRequestPacket sentAtHundred [packetIdRequest, 2] 0 10 200).1 [] 0
        (handleRequestPacket sentAtHundred [packetIdRequest, 2] 0 10 200).2.2 10 200 := by
  have hanswer : (handleRequestPacket sentAtHundred [packetIdRequest, 2] 0 10 200).2 = (some 0, 0 - 1) := by
    decide +kernel
  refine ⟨by decide +kernel, hanswer, fun h => ?_⟩
  have hlatest := h.latest
  rw [hanswer, isGreatest_greatest_iff] at hlatest
  rcases hlatest with hzero | ⟨k, packet, hslot, -, htime⟩
  · exact absurd hzero (by decide)
  · obtain ⟨-, rfl⟩ : k = 0 ∧ ⟨100, [32]⟩ = packet := by simpa [sentAtHundred] using hslot
    exact absurd htime (by decide)

end Toxcore
