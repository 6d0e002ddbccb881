import Toxcore.Data.GapCode
import Toxcore.NetCrypto.PacketsArrayRuns

/-!
# Request packets: the receiver's holes decoded by the sender

`generateRequestPacket` writes the holes of the receive array as a gap code, cut at the length of
the packet; `handleRequestPacket` walks the send array along that code. Both loops are instances of
the gap code over the presence row of the receive window, so what the sender decides about its
packets is a prefix of what the receiver had.
-/

namespace Toxcore

open ByteStrings RingWindow Function List Option

/-- The array has a packet under this number. -/
def PacketsArray.Holds (array : PacketsArray) (number : UInt32) : Prop :=
  number ∈ window array.bufferStart array.bufferEnd ∧ array.buffer (packetSlot number) ≠ none

/-- Which of the numbers have a packet, in order. -/
def presenceRow (buffer : Fin cryptoPacketBufferSize → Option PacketData) (ns : List UInt32) : List Bool :=
  ns.map fun number => (buffer (packetSlot number)).isSome

theorem presenceRow_length (array : PacketsArray) :
    (presenceRow array.buffer (window array.bufferStart array.bufferEnd)).length = numPacketsArray array := by
  simp [presenceRow, window, numPacketsArray]

/-- The numbers of the window without a packet, in order. -/
def missingNumbers (array : PacketsArray) : List UInt32 :=
  (window array.bufferStart array.bufferEnd).filter fun number =>
    (array.buffer (packetSlot number)).isNone

/-- The number of missing packets a request packet encodes: one byte each, fillers being zero. -/
def encodedRequests (packet : Bytes) : ℕ := (packet.tail.filter (· ≠ 0)).length

/-- The request loop appends the gap code of the remaining numbers, cut at the length limit. -/
theorem generateRequestLoop_eq (length : ℕ) (buffer : Fin cryptoPacketBufferSize → Option PacketData)
    (ns : List UInt32) (n : ℕ) (output : Bytes) (hroom : output.length < length) :
    generateRequestLoop length buffer ns n output =
      output ++ (GapCode.encode n (presenceRow buffer ns)).take (length - output.length) := by
  induction ns generalizing n output with
  | nil => simp [generateRequestLoop, presenceRow, GapCode.encode]
  | cons i rest ih =>
    obtain ⟨room, hlength⟩ : ∃ room, length = output.length + 1 + room :=
      ⟨length - output.length - 1, by omega⟩
    have hone (byte : UInt8) :
        (if length ≤ (output ++ [byte]).length then output ++ [byte]
          else generateRequestLoop length buffer rest 1 (output ++ [byte])) =
        output ++ (byte :: GapCode.encode 1 (presenceRow buffer rest)).take (length - output.length) := by
      have hlen : (output ++ [byte]).length = output.length + 1 := by simp
      split
      · rw [show length - output.length = 1 by omega]
        simp
      · rw [ih 1 _ (by omega), hlen, show length - output.length = room + 1 by omega,
          show length - (output.length + 1) = room by omega, take_succ_cons]
        simp
    cases hslot : buffer (packetSlot i) with
    | none =>
      simp only [generateRequestLoop, hslot, isNone_none, if_true, presenceRow, map_cons,
        isSome_none, GapCode.encode]
      exact hone _
    | some packet =>
      simp only [generateRequestLoop, hslot, isNone_some, Bool.false_eq_true, if_false,
        presenceRow, map_cons, isSome_some, GapCode.encode]
      split
      · exact hone _
      · exact ih _ _ hroom

/-- A request packet is the cut gap code of the receive window behind its identifier. -/
theorem generateRequestPacket_eq {length : ℕ} (hlength : 1 ≤ length) (recvArray : PacketsArray) :
    generateRequestPacket length recvArray = some (packetIdRequest ::
      (GapCode.encode 1 (presenceRow recvArray.buffer
        (window recvArray.bufferStart recvArray.bufferEnd))).take (length - 1)) := by
  unfold generateRequestPacket
  rw [if_neg (by omega)]
  split
  · rename_i hempty
    simp [hempty, window, numbers, presenceRow, GapCode.encode]
  · split
    · simp [show length - 1 = 0 by omega]
    · rw [generateRequestLoop_eq _ _ _ _ _ (by simp; omega)]
      rfl

/-- The numbers decided as present. -/
def freedNumbers (ns : List UInt32) (decided : List Bool) : List UInt32 :=
  ((ns.zip decided).filter (·.2)).map (·.1)

variable {decided : List Bool} {number : UInt32} {buffer : Fin cryptoPacketBufferSize → Option PacketData}

@[simp] theorem freedNumbers_nil (ns : List UInt32) : freedNumbers ns [] = [] := by
  simp [freedNumbers]

@[simp] theorem freedNumbers_cons_true (i : UInt32) (rest : List UInt32) (tail : List Bool) :
    freedNumbers (i :: rest) (true :: tail) = i :: freedNumbers rest tail := rfl

@[simp] theorem freedNumbers_cons_false (i : UInt32) (rest : List UInt32) (tail : List Bool) :
    freedNumbers (i :: rest) (false :: tail) = freedNumbers rest tail := rfl

/-- The numbers that are freed. -/
theorem mem_freedNumbers {ns : List UInt32} :
    number ∈ freedNumbers ns decided ↔ ∃ j : ℕ, ns[j]? = some number ∧ decided[j]? = some true := by
  have hmem : number ∈ freedNumbers ns decided ↔ (number, true) ∈ ns.zip decided := by
    simp [freedNumbers]
  rw [hmem, mem_iff_getElem?]
  simp only [getElem?_zip_eq_some]

/-- The freed slots are empty and every other payload is as before. -/
def FreesExactly (freed : List UInt32) (before after : Fin cryptoPacketBufferSize → Option PacketData) : Prop :=
  ∀ k, (k ∈ freed.map packetSlot → after k = none) ∧
    (k ∉ freed.map packetSlot → (after k).map PacketData.data = (before k).map PacketData.data)

/-- The numbers decided as absent. -/
def requestedNumbers (ns : List UInt32) (decided : List Bool) : List UInt32 :=
  ((ns.zip decided).filter (!·.2)).map (·.1)

@[simp] theorem requestedNumbers_nil (ns : List UInt32) : requestedNumbers ns [] = [] := by
  simp [requestedNumbers]

@[simp] theorem requestedNumbers_cons_true (i : UInt32) (rest : List UInt32) (tail : List Bool) :
    requestedNumbers (i :: rest) (true :: tail) = requestedNumbers rest tail := rfl

@[simp] theorem requestedNumbers_cons_false (i : UInt32) (rest : List UInt32) (tail : List Bool) :
    requestedNumbers (i :: rest) (false :: tail) = i :: requestedNumbers rest tail := rfl

/-- The slots once the packets the peer has are freed and the ones it asks for are marked. -/
def answered (now rttTime : UInt64) (freed requested : List UInt32)
    (buffer : Fin cryptoPacketBufferSize → Option PacketData) : Fin cryptoPacketBufferSize → Option PacketData :=
  fun k =>
    if k ∈ freed.map packetSlot then none
    else if k ∈ requested.map packetSlot then (buffer k).map (markRequested now rttTime)
    else buffer k

/-- Marking a packet twice is marking it once. -/
theorem markRequested_idem (now rttTime : UInt64) (packet : PacketData) :
    markRequested now rttTime (markRequested now rttTime packet) = markRequested now rttTime packet := by
  by_cases hdue : packet.sentTime + rttTime < now
  · rw [show markRequested now rttTime packet = { packet with sentTime := 0 } from if_pos hdue, markRequested]
    split <;> rfl
  · rw [show markRequested now rttTime packet = packet from if_neg hdue,
      show markRequested now rttTime packet = packet from if_neg hdue]

section Answering

variable (now rttTime : UInt64) (freed requested : List UInt32)
  (buffer : Fin cryptoPacketBufferSize → Option PacketData) (i : UInt32)

theorem answered_nil : answered now rttTime [] [] buffer = buffer := by
  funext k
  simp [answered]

/-- Freeing one more packet first. -/
theorem answered_free :
    answered now rttTime freed requested (update buffer (packetSlot i) none) =
      answered now rttTime (i :: freed) requested buffer := by
  funext k
  by_cases hk : k = packetSlot i
  · subst hk
    simp [answered]
  · simp [answered, hk]

/-- Marking one more packet first. -/
theorem answered_mark :
    answered now rttTime freed requested
        (update buffer (packetSlot i) ((buffer (packetSlot i)).map (markRequested now rttTime))) =
      answered now rttTime freed (i :: requested) buffer := by
  funext k
  by_cases hk : k = packetSlot i
  · subst hk
    cases hslot : buffer (packetSlot i) <;> simp [answered, hslot, markRequested_idem]
  · simp [answered, hk]

/-- Answering frees the slots it should and keeps every other payload. -/
theorem freesExactly_answered : FreesExactly freed buffer (answered now rttTime freed requested buffer) := by
  intro k
  refine ⟨fun hmem => if_pos hmem, fun hnot => ?_⟩
  rw [answered, if_neg hnot]
  split
  · cases buffer k <;> simp
  · rfl

end Answering

/-- No number is greater than the one the latest send time starts as. -/
theorem not_greatest_lt (time : UInt64) : ¬(0 - 1 : UInt64) < time := fun hlt =>
  absurd (UInt64.lt_iff_toNat_lt.mp hlt) (Nat.not_lt.mpr (Nat.le_sub_one_of_lt time.toNat_lt))

/-- Walking a well-formed code frees the packets decided as present and marks the others. The latest send time
of the loop starts as the greatest number, so that no packet raises it. -/
theorem handleRequestLoop_answers (now rttTime : UInt64) (ns : List UInt32) (n : ℕ) (data : Bytes) (requested : ℕ)
    (lSentTime : UInt64) (buffer : Fin cryptoPacketBufferSize → Option PacketData)
    (h : GapCode.decode n data ns.length = some decided) :
    ∃ lSentTime',
      handleRequestLoop now rttTime ns n data requested lSentTime buffer =
        (answered now rttTime (freedNumbers ns decided) (requestedNumbers ns decided) buffer,
          some (requested + decided.count false, lSentTime')) ∧
      (lSentTime = 0 - 1 → lSentTime' = 0 - 1) := by
  induction ns generalizing n data requested lSentTime buffer decided with
  | nil =>
    obtain rfl : [] = decided := by simpa [GapCode.decode] using h
    exact ⟨lSentTime, by simp [handleRequestLoop, answered_nil], id⟩
  | cons i rest ih =>
    cases data with
    | nil =>
      obtain rfl : [] = decided := by simpa [GapCode.decode] using h
      exact ⟨lSentTime, by simp [handleRequestLoop, answered_nil], id⟩
    | cons byte data =>
      simp only [length_cons, GapCode.decode] at h
      simp only [handleRequestLoop]
      split at h
      · rename_i hbyte
        obtain ⟨tail, htail, rfl⟩ := map_eq_some_iff.mp h
        obtain ⟨lSentTime', hloop, hlatest⟩ := ih 1 data (requested + 1) lSentTime
          (update buffer (packetSlot i) ((buffer (packetSlot i)).map (markRequested now rttTime)))
          htail
        refine ⟨lSentTime', ?_, hlatest⟩
        rw [if_pos hbyte, hloop, answered_mark]
        simp [Nat.add_assoc, Nat.add_comm 1]
      · rename_i hbyte
        rw [if_neg hbyte]
        split at h
        · rename_i hfull
          split at h
          · rename_i hzero
            obtain ⟨tail, htail, rfl⟩ := map_eq_some_iff.mp h
            obtain ⟨lSentTime', hloop, hlatest⟩ := ih 1 data requested _
              (update buffer (packetSlot i) none) htail
            rw [if_pos hfull, if_neg (by simp [hzero])]
            refine ⟨lSentTime', hloop.trans ?_, fun hgreatest => hlatest ?_⟩
            · rw [answered_free]
              simp
            · subst hgreatest
              split
              · exact if_neg (not_greatest_lt _)
              · rfl
          · contradiction
        · rename_i hfull
          obtain ⟨tail, htail, rfl⟩ := map_eq_some_iff.mp h
          obtain ⟨lSentTime', hloop, hlatest⟩ := ih (n + 1) (byte :: data) requested _
            (update buffer (packetSlot i) none) htail
          rw [if_neg hfull]
          refine ⟨lSentTime', hloop.trans ?_, fun hgreatest => hlatest ?_⟩
          · rw [answered_free]
            simp
          · subst hgreatest
            split
            · exact if_neg (not_greatest_lt _)
            · rfl

/-- Handling a well-formed request answers it; where it has a body, the latest send time becomes the greatest
number. -/
theorem handleRequestPacket_answers (sendArray : PacketsArray) (body : Bytes) (latestSendTime rttTime now : UInt64)
    (h : GapCode.decode 1 body (numPacketsArray sendArray) = some decided) :
    handleRequestPacket sendArray (packetIdRequest :: body) latestSendTime rttTime now =
      ({ sendArray with
          buffer := answered now rttTime (freedNumbers (window sendArray.bufferStart sendArray.bufferEnd) decided)
            (requestedNumbers (window sendArray.bufferStart sendArray.bufferEnd) decided) sendArray.buffer },
        some (decided.count false), if body = [] then latestSendTime else 0 - 1) := by
  simp only [handleRequestPacket, ne_eq, not_true, if_false]
  split
  · rename_i hbody
    rw [hbody, GapCode.decode_nil, some.injEq] at h
    subst h
    rw [freedNumbers_nil, requestedNumbers_nil, answered_nil, count_nil]
  · obtain ⟨lSentTime, hloop, hlatest⟩ := handleRequestLoop_answers now rttTime
      (window sendArray.bufferStart sendArray.bufferEnd) 1 body 0 (0 - 1) sendArray.buffer
      (by rw [window, numbers_length]; exact h)
    rw [hloop, hlatest rfl]
    simp only [Nat.zero_add]
    congr 2
    split
    · rfl
    · rename_i hnot
      apply UInt64.toNat_inj.mp
      have hle : (0 - 1 : UInt64).toNat ≤ latestSendTime.toNat :=
        Nat.le_of_not_lt fun hlt => hnot (UInt64.lt_iff_toNat_lt.mpr hlt)
      exact le_antisymm (Nat.le_sub_one_of_lt latestSendTime.toNat_lt) hle

/-- Handling a well-formed request frees exactly the decided packets of the send array. -/
theorem handleRequestPacket_decode (sendArray : PacketsArray) (body : Bytes) (latestSendTime rttTime now : UInt64)
    (h : GapCode.decode 1 body (numPacketsArray sendArray) = some decided) :
    ∃ buffer latestSendTime',
      handleRequestPacket sendArray (packetIdRequest :: body) latestSendTime rttTime now =
        ({ sendArray with buffer }, some (decided.count false), latestSendTime') ∧
      FreesExactly (freedNumbers (window sendArray.bufferStart sendArray.bufferEnd) decided)
        sendArray.buffer buffer :=
  ⟨_, _, handleRequestPacket_answers sendArray body latestSendTime rttTime now h,
    freesExactly_answered now rttTime _ _ sendArray.buffer⟩

/-! ## Agreement of the two loops -/

/-- The receive window is the front of the send window when both start at one number. -/
theorem window_front {start stop stop' : UInt32} (h : offset start stop ≤ offset start stop') :
    ∃ rest, window start stop' = window start stop ++ rest := by
  refine ⟨numbers (start + UInt32.ofNat (offset start stop)) (offset start stop' - offset start stop), ?_⟩
  rw [window, window, ← numbers_add]
  congr 1
  omega

/-- A position decided as present is present in the receive array. -/
theorem freedNumbers_subset {ns rest : List UInt32} (hdecided : decided <+: presenceRow buffer ns)
    (h : number ∈ freedNumbers (ns ++ rest) decided) : number ∈ ns ∧ (buffer (packetSlot number)).isSome := by
  obtain ⟨j, hns, htrue⟩ := mem_freedNumbers.mp h
  have hrow : (presenceRow buffer ns)[j]? = some true := by
    obtain ⟨tail, htail⟩ := hdecided
    rw [← htail, getElem?_append_left (List.getElem?_eq_some_iff.mp htrue).1, htrue]
  simp only [presenceRow, getElem?_map, map_eq_some_iff] at hrow
  obtain ⟨number', hnumber', hpresent⟩ := hrow
  rw [getElem?_append_left (List.getElem?_eq_some_iff.mp hnumber').1, hnumber',
    some.injEq] at hns
  subst hns
  exact ⟨mem_of_getElem? hnumber', hpresent⟩

/-- Absent positions of a row are the missing numbers. -/
theorem count_presenceRow (array : PacketsArray) :
    (presenceRow array.buffer (window array.bufferStart array.bufferEnd)).count false =
      (missingNumbers array).length := by
  rw [presenceRow, missingNumbers, List.count, countP_map, countP_eq_length_filter]
  congr 1
  apply filter_congr
  intro number _
  cases h : array.buffer (packetSlot number) <;> simp [h]

/-- A number of the presence row is decided as its slot tells, up to the last absent position. -/
theorem mem_freedNumbers_of_lt {start stop last : UInt32} {rest : List UInt32} {undecided : List Bool}
    (hrow : presenceRow buffer (window start stop) = decided ++ undecided) (hfalse : false ∉ undecided)
    (hnumber : (buffer (packetSlot number)).isSome) (hlast : offset start last < offset start stop)
    (hmissing : (buffer (packetSlot last)).isNone) (hlt : offset start number < offset start last) :
    number ∈ freedNumbers (window start stop ++ rest) decided := by
  have hposition {n : UInt32} (hn : offset start n < offset start stop) :
      (window start stop)[offset start n]? = some n := numbers_getElem? hn
  have hbit {n : UInt32} (hn : offset start n < offset start stop) :
      (decided ++ undecided)[offset start n]? = some (buffer (packetSlot n)).isSome := by
    rw [← hrow, presenceRow, getElem?_map, hposition hn, map_some]
  have hdecided : offset start last < decided.length := by
    refine Nat.lt_of_not_le fun hle => hfalse ?_
    have hbit' := hbit hlast
    rw [getElem?_append_right hle] at hbit'
    have hnone : (buffer (packetSlot last)).isSome = false := by simpa using hmissing
    exact mem_of_getElem? (hnone ▸ hbit')
  refine mem_freedNumbers.mpr ⟨offset start number, ?_, ?_⟩
  · have hin := hposition (hlt.trans hlast)
    rw [getElem?_append_left (List.getElem?_eq_some_iff.mp hin).1, hin]
  · have hbit' := hbit (hlt.trans hlast)
    rw [getElem?_append_left (hlt.trans hdecided), hnumber] at hbit'
    exact hbit'

/-- The sender's walk over a request packet: it frees packets the receiver holds and no others. -/
theorem handleRequestPacket_frees (recvArray sendArray : PacketsArray) {length : ℕ}
    (latestSendTime rttTime now : UInt64) (hlength : 1 ≤ length)
    (hstart : recvArray.bufferStart = sendArray.bufferStart)
    (hend : numPacketsArray recvArray ≤ numPacketsArray sendArray) :
    ∃ packet decided buffer latestSendTime', generateRequestPacket length recvArray = some packet ∧
      GapCode.decode 1 packet.tail (numPacketsArray sendArray) = some decided ∧
      handleRequestPacket sendArray packet latestSendTime rttTime now =
        ({ sendArray with buffer }, some (decided.count false), latestSendTime') ∧
      decided <+: presenceRow recvArray.buffer (window recvArray.bufferStart recvArray.bufferEnd) ∧
      decided.count false = encodedRequests packet ∧
      FreesExactly (freedNumbers (window sendArray.bufferStart sendArray.bufferEnd) decided)
        sendArray.buffer buffer ∧
      ∀ number ∈ freedNumbers (window sendArray.bufferStart sendArray.bufferEnd) decided,
        recvArray.Holds number := by
  have hpacket := generateRequestPacket_eq hlength recvArray
  set row := presenceRow recvArray.buffer (window recvArray.bufferStart recvArray.bufferEnd) with hrow
  have hcount : row.length ≤ numPacketsArray sendArray := by
    simpa [hrow, presenceRow_length] using hend
  obtain ⟨decided, hdecode, hpre, hnum⟩ := GapCode.decode_encode_take row ⟨le_refl 1, by omega⟩
    (length - 1) hcount
  obtain ⟨buffer, latestSendTime', hhandle, hfrees⟩ :=
    handleRequestPacket_decode sendArray _ latestSendTime rttTime now hdecode
  refine ⟨_, decided, buffer, latestSendTime', hpacket, hdecode, hhandle, hpre, hnum, hfrees, ?_⟩
  intro number hnumber
  unfold numPacketsArray at hend
  rw [hstart] at hend
  obtain ⟨rest, hrest⟩ := window_front hend
  rw [hrest, ← hstart] at hnumber
  obtain ⟨hmem, hsome⟩ := freedNumbers_subset hpre hnumber
  exact ⟨hmem, isSome_iff_ne_none.mp hsome⟩

/-- A number of the send window whose slot is freed is held by the receiver. -/
theorem holds_of_freed_slot {recvArray sendArray : PacketsArray}
    (hsize : numPacketsArray sendArray ≤ cryptoPacketBufferSize)
    (hheld : ∀ number ∈ freedNumbers (window sendArray.bufferStart sendArray.bufferEnd) decided,
      recvArray.Holds number) (hmem : number ∈ window sendArray.bufferStart sendArray.bufferEnd)
    (hslot : packetSlot number ∈ (freedNumbers (window sendArray.bufferStart sendArray.bufferEnd)
      decided).map packetSlot) : recvArray.Holds number := by
  obtain ⟨other, hother, heq⟩ := List.mem_map.mp hslot
  have hin : other ∈ window sendArray.bufferStart sendArray.bufferEnd := by
    obtain ⟨j, hj, -⟩ := mem_freedNumbers.mp hother
    exact mem_of_getElem? hj
  have hsame : other = number := packetSlot_inj ((mem_window.mp hin).trans_le hsize)
    ((mem_window.mp hmem).trans_le hsize) heq
  exact hsame ▸ hheld other hother

/-- A packet that the sender no longer holds after a request is one the receiver holds. -/
theorem FreesExactly.holds_of_freed {recvArray sendArray : PacketsArray}
    (hfrees : FreesExactly (freedNumbers (window sendArray.bufferStart sendArray.bufferEnd) decided)
      sendArray.buffer buffer) (hsize : numPacketsArray sendArray ≤ cryptoPacketBufferSize)
    (hheld : ∀ number ∈ freedNumbers (window sendArray.bufferStart sendArray.bufferEnd) decided,
      recvArray.Holds number) (hbefore : sendArray.Holds number)
    (hafter : ¬PacketsArray.Holds { sendArray with buffer } number) : recvArray.Holds number := by
  by_contra hnot
  have hkept := (hfrees (packetSlot number)).2 fun hslot =>
    hnot (holds_of_freed_slot hsize hheld hbefore.1 hslot)
  obtain ⟨before, hsome⟩ := ne_none_iff_exists'.mp hbefore.2
  rw [hsome] at hkept
  refine hafter ⟨hbefore.1, fun hnone => ?_⟩
  change buffer (packetSlot number) = none at hnone
  rw [hnone] at hkept
  exact absurd hkept (by simp)

/-- What a request packet makes the sender do. For a receive and a send window with one start, the
receive window not longer than the send window and that one not longer than the ring:

* the sender never rejects the packet;
* it frees only packets the receiver holds, and keeps the payload of every other packet;
* it returns the number of missing packets the receiver encoded;
* unless the packet was cut, that is every missing packet, and every packet the receiver holds
  below its last missing one is freed. -/
theorem handleRequestPacket_generateRequestPacket (recvArray sendArray : PacketsArray) (length : UInt16)
    (latestSendTime rttTime now : UInt64) (hlength : 1 ≤ length.toNat)
    (hstart : recvArray.bufferStart = sendArray.bufferStart)
    (hend : numPacketsArray recvArray ≤ numPacketsArray sendArray)
    (hsize : numPacketsArray sendArray ≤ cryptoPacketBufferSize) :
    ∃ packet requested sendArray' latestSendTime',
      generateRequestPacket length.toNat recvArray = some packet ∧
      handleRequestPacket sendArray packet latestSendTime rttTime now =
        (sendArray', some requested, latestSendTime') ∧
      (∀ number, sendArray.Holds number → ¬sendArray'.Holds number → recvArray.Holds number) ∧
      (∀ number before, number ∈ window sendArray.bufferStart sendArray.bufferEnd →
        sendArray.buffer (packetSlot number) = some before → ¬recvArray.Holds number →
          ∃ after, sendArray'.buffer (packetSlot number) = some after ∧ after.data = before.data) ∧
      requested = encodedRequests packet ∧ requested ≤ (missingNumbers recvArray).length ∧
      (generateRequestPacket 65535 recvArray = some packet →
        requested = (missingNumbers recvArray).length ∧
        ∀ number, recvArray.Holds number → ∀ last ∈ missingNumbers recvArray,
          offset recvArray.bufferStart number < offset recvArray.bufferStart last →
            ¬sendArray'.Holds number) := by
  obtain ⟨packet, decided, buffer, latestSendTime', hpacket, hdecode, hhandle, hpre, hnum, hfrees, hheld⟩ :=
    handleRequestPacket_frees recvArray sendArray latestSendTime rttTime now hlength hstart hend
  refine ⟨packet, decided.count false, { sendArray with buffer }, latestSendTime', hpacket, hhandle,
    ?_, ?_, hnum, ?_, ?_⟩
  · intro number hbefore hafter
    exact hfrees.holds_of_freed hsize hheld hbefore hafter
  · intro number before hmem hbefore hnot
    have hkept := (hfrees (packetSlot number)).2 fun hslot =>
      hnot (holds_of_freed_slot hsize hheld hmem hslot)
    rw [hbefore, map_some] at hkept
    exact map_eq_some_iff.mp hkept
  · rw [← count_presenceRow]
    exact hpre.sublist.count_le false
  · intro huncut
    rw [generateRequestPacket_eq (by norm_num), some.injEq] at huncut
    have hrow : (GapCode.encode 1 (presenceRow recvArray.buffer
        (window recvArray.bufferStart recvArray.bufferEnd))).length ≤ 65535 - 1 :=
      (GapCode.encode_length_le _ _).trans (by
        rw [presenceRow_length]
        exact (hend.trans hsize).trans (by norm_num))
    rw [take_of_length_le hrow] at huncut
    rw [← huncut, tail_cons] at hdecode
    obtain ⟨decided', undecided, hdecode', hsplit, hfalse⟩ := GapCode.decode_encode
      (presenceRow recvArray.buffer (window recvArray.bufferStart recvArray.bufferEnd))
      ⟨le_refl 1, by omega⟩ ((presenceRow_length recvArray).le.trans hend)
    obtain rfl : decided' = decided := some.inj (hdecode'.symm.trans hdecode)
    constructor
    · rw [← count_presenceRow, hsplit, count_append, count_eq_zero.mpr hfalse, Nat.add_zero]
    · intro number hnumber last hlast hlt hafter
      obtain ⟨hlastmem, hmissing⟩ := mem_filter.mp hlast
      unfold numPacketsArray at hend
      rw [hstart] at hend
      obtain ⟨rest, hrest⟩ := window_front hend
      have hmem : number ∈ freedNumbers (window sendArray.bufferStart sendArray.bufferEnd) decided' := by
        rw [hrest, ← hstart]
        exact mem_freedNumbers_of_lt hsplit hfalse (isSome_iff_ne_none.mpr hnumber.2)
          (mem_window.mp hlastmem) hmissing hlt
      exact hafter.2 ((hfrees (packetSlot number)).1 (List.mem_map_of_mem hmem))

/-- The receiver lacks the first and the last of three packets: both are requested, and the one
between them is freed. -/
theorem handleRequestPacket_generateRequestPacket_gap :
    let packet : PacketData := ⟨9, [16]⟩
    let recvArray : PacketsArray := ⟨fun k => if k = 1 then some packet else none, 0, 3⟩
    let sendArray : PacketsArray := ⟨fun k => if k < 3 then some packet else none, 0, 3⟩
    ∃ request sendArray' latestSendTime', generateRequestPacket 1373 recvArray = some request ∧
      handleRequestPacket sendArray request 0 0 9 = (sendArray', some 2, latestSendTime') ∧
      ¬sendArray'.Holds 1 := by
  intro packet recvArray sendArray
  obtain ⟨request, requested, sendArray', latestSendTime', hpacket, hhandle, -, -, -, -, huncut⟩ :=
    handleRequestPacket_generateRequestPacket recvArray sendArray 1373 0 0 9 (by decide) rfl (by decide)
      (by decide)
  obtain ⟨hrequested, hfreed⟩ := huncut (by rw [← hpacket]; decide)
  have hmissing : (missingNumbers recvArray).length = 2 := by decide
  refine ⟨request, sendArray', latestSendTime', hpacket, by rw [hhandle, hrequested, hmissing], ?_⟩
  exact hfreed 1 ⟨by decide, by decide⟩ 2 (by decide) (by decide)

end Toxcore
