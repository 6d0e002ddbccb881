import Toxcore.NetCrypto.Lossless
import Toxcore.NetCrypto.RequestCodec

/-!
# Packet arrays as parts of a list of payloads

A side that writes payloads one after another gives them the numbers `0, 1, 2, …`. Both its send array and the
receive array of its peer then hold payloads of this list under their own numbers. While there are fewer than
`2 ^ 31` of them, comparisons of 32-bit numbers are comparisons of natural numbers, and every operation on such
an array has a plain description.
-/

namespace Toxcore

open ByteStrings RingWindow Function List Option

/-- The payload with a number. -/
def payloadOf (written : List Bytes) (number : UInt32) : Option Bytes := written[number.toNat]?

/-- The array covers the numbers from `first` up to but not including `last`, and holds payloads of the list. -/
structure PacketsArray.Spans (array : PacketsArray) (written : List Bytes) (first last : ℕ) : Prop where
  start : array.bufferStart = UInt32.ofNat first
  stop : array.bufferEnd = UInt32.ofNat last
  le : first ≤ last
  small : last < 2 ^ 31
  inv : TracedArray.Inv ⟨array, payloadOf written⟩

/-- The packet that was written under a number. -/
theorem payloadOf_ofNat (written : List Bytes) {n : ℕ} (hn : n < 2 ^ 31) :
    payloadOf written (UInt32.ofNat n) = written[n]? := by
  rw [payloadOf, toNat_ofNat (by omega)]

namespace PacketsArray.Spans

variable {array array' : PacketsArray} {written : List Bytes} {first last : ℕ}

theorem length (h : array.Spans written first last) : numPacketsArray array = last - first := by
  have hsmall := h.small
  rw [numPacketsArray, h.start, h.stop, offset_ofNat h.le (by omega)]

/-- An array spans no more than its ring. -/
theorem length_le (h : array.Spans written first last) : last - first ≤ cryptoPacketBufferSize := by
  rw [← h.length]
  exact h.inv.length_le

variable {n : ℕ} {number : UInt32} {data : Bytes}

/-- The offset of a number of the array. -/
theorem offset_eq (h : array.Spans written first last) (hfirst : first ≤ n) (hn : n < 2 ^ 31) :
    offset array.bufferStart (UInt32.ofNat n) = n - first := by
  rw [h.start, offset_ofNat hfirst (by omega)]

/-- The numbers of the window. -/
theorem mem_window (h : array.Spans written first last) :
    number ∈ window array.bufferStart array.bufferEnd ↔ ∃ n, first ≤ n ∧ n < last ∧ number = UInt32.ofNat n := by
  have hsmall := h.small
  have hle := h.le
  rw [RingWindow.mem_window, show offset array.bufferStart array.bufferEnd = last - first from h.length]
  constructor
  · intro hlt
    have hsame : offset array.bufferStart number =
        offset array.bufferStart (UInt32.ofNat (first + offset array.bufferStart number)) := by
      rw [h.offset_eq (by omega) (by omega)]
      omega
    exact ⟨first + offset array.bufferStart number, by omega, by omega, offset_injective hsame⟩
  · rintro ⟨n, hfirst, hlast, rfl⟩
    rw [h.offset_eq hfirst (by omega)]
    omega

/-- What an array holds. -/
theorem holds_iff (h : array.Spans written first last) (hn : n < 2 ^ 31) :
    array.Holds (UInt32.ofNat n) ↔ first ≤ n ∧ n < last ∧ array.buffer (packetSlot (UInt32.ofNat n)) ≠ none := by
  have hsmall := h.small
  rw [Holds, h.mem_window]
  constructor
  · rintro ⟨⟨m, hfirst, hlast, heq⟩, hslot⟩
    obtain rfl := ofNat_injective (by omega) (by omega) heq
    exact ⟨hfirst, hlast, hslot⟩
  · rintro ⟨hfirst, hlast, hslot⟩
    exact ⟨⟨n, hfirst, hlast, rfl⟩, hslot⟩

/-- Different numbers of a window have different slots. -/
theorem slot_ne {m : ℕ} (hm : first ≤ m ∧ m < first + cryptoPacketBufferSize)
    (hn : first ≤ n ∧ n < first + cryptoPacketBufferSize) (hsmall : first + cryptoPacketBufferSize < 2 ^ 32)
    (hne : m ≠ n) : packetSlot (UInt32.ofNat m) ≠ packetSlot (UInt32.ofNat n) := by
  intro heq
  have hoffset {k : ℕ} (hk : first ≤ k ∧ k < first + cryptoPacketBufferSize) :
      offset (UInt32.ofNat first) (UInt32.ofNat k) < cryptoPacketBufferSize := by
    rw [offset_ofNat hk.1 (by omega)]
    omega
  exact hne (ofNat_injective (by omega) (by omega) (packetSlot_inj (hoffset hm) (hoffset hn) heq))

/-- A packet found under a number is the payload with that number. -/
theorem getDataPointer (h : array.Spans written first last) {packet : PacketData}
    (hget : getDataPointer array number = some (some packet)) :
    ∃ n, first ≤ n ∧ n < last ∧ number = UInt32.ofNat n ∧ written[n]? = some packet.data := by
  have hsmall := h.small
  have hstored : payloadOf written number = some packet.data := h.inv.correct.pointer number packet hget
  have hwindow : number ∈ window array.bufferStart array.bufferEnd := by
    simp only [Toxcore.getDataPointer] at hget
    split at hget
    · contradiction
    · rw [RingWindow.mem_window]
      omega
  obtain ⟨n, hfirst, hlast, rfl⟩ := h.mem_window.mp hwindow
  rw [payloadOf_ofNat written (by omega)] at hstored
  exact ⟨n, hfirst, hlast, rfl, hstored⟩

/-- A held number can be looked up, and the packet is the payload with that number. -/
theorem get_of_holds (h : array.Spans written first last) (hn : n < 2 ^ 31) (hholds : array.Holds (UInt32.ofNat n)) :
    ∃ packet, Toxcore.getDataPointer array (UInt32.ofNat n) = some (some packet) ∧ written[n]? = some packet.data := by
  have hsmall := h.small
  obtain ⟨hfirst, hlast, hslot⟩ := (h.holds_iff hn).mp hholds
  obtain ⟨packet, hpacket⟩ := ne_none_iff_exists'.mp hslot
  have hget : Toxcore.getDataPointer array (UInt32.ofNat n) = some (some packet) := by
    have hspots : offset array.bufferStart array.bufferEnd = last - first := h.length
    have hbehind : offset (UInt32.ofNat n) array.bufferEnd = last - n := by
      rw [h.stop, offset_ofNat (by omega) (by omega)]
    simp only [Toxcore.getDataPointer, hspots, hbehind, h.offset_eq hfirst hn]
    rw [if_neg (by omega), hpacket]
  refine ⟨packet, hget, ?_⟩
  have hstored : payloadOf written (UInt32.ofNat n) = some packet.data := h.inv.correct.pointer _ packet hget
  rwa [payloadOf_ofNat written hn] at hstored

/-- The list may grow. -/
theorem mono (h : array.Spans written first last) (hlast : last ≤ written.length) (more : List Bytes) :
    array.Spans (written ++ more) first last := by
  have hsmall := h.small
  refine ⟨h.start, h.stop, h.le, h.small, h.inv.length_le, ?_⟩
  intro k packet hpacket
  obtain ⟨number, hlt, hslot, hstored⟩ := h.inv.held k packet hpacket
  refine ⟨number, hlt, hslot, ?_⟩
  obtain ⟨n, hfirst, hn, rfl⟩ := h.mem_window.mp (RingWindow.mem_window.mpr hlt)
  change payloadOf (written ++ more) (UInt32.ofNat n) = some packet.data
  have hold : payloadOf written (UInt32.ofNat n) = some packet.data := hstored
  rw [payloadOf_ofNat _ (by omega)] at hold ⊢
  rwa [getElem?_append_left (by omega)]

/-! ## Operations -/

/-- The list of payloads after one more was written. -/
theorem payloadOf_concat (hsmall : written.length < 2 ^ 31) (data : Bytes) :
    payloadOf (written ++ [data]) =
      update (payloadOf written) (UInt32.ofNat written.length) (some data) := by
  funext number
  by_cases hnumber : number = UInt32.ofNat written.length
  · subst hnumber
    rw [update_self, payloadOf_ofNat _ hsmall, getElem?_concat_length]
  · rw [update_of_ne hnumber]
    have hne : number.toNat ≠ written.length := by
      intro heq
      apply hnumber
      rw [← heq, UInt32.ofNat_toNat]
    simp only [payloadOf]
    rcases Nat.lt_or_gt_of_ne hne with hlt | hgt
    · rw [getElem?_append_left hlt]
    · have hlength : (written ++ [data]).length ≤ number.toNat := by
        rw [length_append, length_singleton]
        omega
      rw [getElem?_eq_none hlength, getElem?_eq_none hgt.le]

/-- A slot of another number of the ring is not written. -/
theorem update_slot (h : array.Spans written first last) {m : ℕ} (hm : first ≤ m)
    (hm' : m < first + cryptoPacketBufferSize) (hn : first ≤ n) (hn' : n < last) (hne : n ≠ m)
    (value : Option PacketData) :
    update array.buffer (packetSlot (UInt32.ofNat m)) value (packetSlot (UInt32.ofNat n)) =
      array.buffer (packetSlot (UInt32.ofNat n)) := by
  have hsmall := h.small
  have hlength := h.length_le
  have hsize : cryptoPacketBufferSize = 32768 := rfl
  apply update_of_ne
  exact slot_ne ⟨hn, by omega⟩ ⟨hm, hm'⟩ (by omega) hne

/-- A payload is written: the array holds it under the next number. -/
theorem addDataEndOfBuffer (h : array.Spans written first written.length) {time : UInt64}
    (hsmall : written.length + 1 < 2 ^ 31) (hadd : addDataEndOfBuffer true array ⟨time, data⟩ = some (number, array')) :
    number = UInt32.ofNat written.length ∧ array'.Spans (written ++ [data]) first (written.length + 1) ∧
      array'.Holds (UInt32.ofNat written.length) ∧
      ∀ n, n < written.length → array.Holds (UInt32.ofNat n) → array'.Holds (UInt32.ofNat n) := by
  have hinv : (TracedArray.step ⟨array, payloadOf written⟩ (.addDataEndOfBuffer true ⟨time, data⟩)).Inv :=
    h.inv.addDataEndOfBuffer
  simp only [TracedArray.step, hadd] at hinv
  simp only [Toxcore.addDataEndOfBuffer] at hadd
  split at hadd
  · contradiction
  · rename_i hroom
    rw [h.length] at hroom
    have hle := h.le
    obtain ⟨rfl, rfl⟩ := Prod.mk.inj (some_inj.mp hadd)
    rw [h.stop, ← payloadOf_concat (by omega)] at hinv
    have hspans : PacketsArray.Spans { array with
        buffer := update array.buffer (packetSlot array.bufferEnd) (some ⟨time, data⟩)
        bufferEnd := array.bufferEnd + 1 } (written ++ [data]) first (written.length + 1) := by
      rw [h.stop]
      refine ⟨h.start, ?_, by omega, hsmall, hinv⟩
      rw [UInt32.ofNat_add]
      rfl
    refine ⟨h.stop, hspans, ?_, ?_⟩
    · rw [hspans.holds_iff (by omega)]
      refine ⟨hle, by omega, ?_⟩
      rw [h.stop]
      simp
    · intro n hn hholds
      obtain ⟨hfirst, hlast, hslot⟩ := (h.holds_iff (by omega)).mp hholds
      rw [hspans.holds_iff (by omega)]
      refine ⟨hfirst, by omega, ?_⟩
      rw [h.stop]
      simp only
      rwa [h.update_slot hle (by omega) hfirst hlast (by omega)]

section

variable (h : array.Spans written first last)
include h

/-- A payload arrives under its number: it is a new one, and the array holds it. -/
theorem addDataToBuffer {time : UInt64} (hn : n < first + cryptoPacketBufferSize) (hsmall : n + 1 < 2 ^ 31)
    (hdata : written[n]? = some data) (hadd : addDataToBuffer true array (UInt32.ofNat n) ⟨time, data⟩ = some array') :
    first ≤ n ∧ array'.Spans written first (max last (n + 1)) ∧ array'.Holds (UInt32.ofNat n) ∧
      ∀ m, m < 2 ^ 31 → array.Holds (UInt32.ofNat m) → array'.Holds (UInt32.ofNat m) := by
  have hlast := h.small
  have hle := h.le
  have hsize : cryptoPacketBufferSize = 32768 := rfl
  have hfirst : first ≤ n := by
    by_contra hlt
    simp only [Toxcore.addDataToBuffer, h.start, offset_ofNat_of_lt (Nat.lt_of_not_le hlt)
      (show first < 2 ^ 32 by omega)] at hadd
    rw [if_pos (by omega)] at hadd
    contradiction
  have hoffset := h.offset_eq hfirst (by omega)
  have hinv : (TracedArray.step ⟨array, payloadOf written⟩
    (.addDataToBuffer true (UInt32.ofNat n) ⟨time, data⟩)).Inv := by
    apply h.inv.addDataToBuffer
    change offset array.bufferStart (UInt32.ofNat n) ≠ cryptoPacketBufferSize
    omega
  simp only [TracedArray.step, hadd] at hinv
  have hstored : payloadOf written (UInt32.ofNat n) = some data := by rw [payloadOf_ofNat _ (by omega), hdata]
  rw [update_eq_self_iff.mpr hstored.symm] at hinv
  have hspots : offset array.bufferStart array.bufferEnd = last - first := h.length
  simp only [Toxcore.addDataToBuffer, hoffset, hspots,
    if_neg (show ¬n - first > cryptoPacketBufferSize by omega)] at hadd
  split at hadd
  · contradiction
  · obtain rfl := some_inj.mp hadd
    have hspans : PacketsArray.Spans { array with
        buffer := update array.buffer (packetSlot (UInt32.ofNat n)) (some ⟨time, data⟩)
        bufferEnd := if n - first ≥ last - first then UInt32.ofNat n + 1 else array.bufferEnd } written first
        (max last (n + 1)) := by
      refine ⟨h.start, ?_, by omega, by omega, hinv⟩
      change (if n - first ≥ last - first then UInt32.ofNat n + 1 else array.bufferEnd) = _
      split
      · rw [show max last (n + 1) = n + 1 by omega, UInt32.ofNat_add]
        rfl
      · rw [show max last (n + 1) = last by omega, h.stop]
    refine ⟨hfirst, hspans, ?_, ?_⟩
    · rw [hspans.holds_iff (by omega)]
      exact ⟨hfirst, by omega, by simp⟩
    · intro m hm hholds
      obtain ⟨hfirst', hlast', hslot⟩ := (h.holds_iff hm).mp hholds
      rw [hspans.holds_iff hm]
      refine ⟨hfirst', by omega, ?_⟩
      by_cases heq : m = n
      · simp [heq]
      · simp only
        rwa [h.update_slot hfirst hn hfirst' hlast' heq]

/-- The first packet is taken out: it is the payload with the first number. -/
theorem readDataBegBuffer {packet : PacketData} (hread : readDataBegBuffer array = some (number, packet, array')) :
    number = UInt32.ofNat first ∧ first < last ∧ written[first]? = some packet.data ∧
      array'.Spans written (first + 1) last ∧
      ∀ n, first < n → n < 2 ^ 31 → array.Holds (UInt32.ofNat n) → array'.Holds (UInt32.ofNat n) := by
  have hlast := h.small
  have hle := h.le
  have hlength := h.length_le
  have hsize : cryptoPacketBufferSize = 32768 := rfl
  have hinv : (TracedArray.step ⟨array, payloadOf written⟩ .readDataBegBuffer).Inv := h.inv.readDataBegBuffer
  simp only [TracedArray.step, hread] at hinv
  have hstored : payloadOf written number = some packet.data := h.inv.correct.read number packet array' hread
  simp only [Toxcore.readDataBegBuffer] at hread
  split at hread
  · contradiction
  · rename_i hne
    split at hread
    · contradiction
    · obtain ⟨rfl, rfl, rfl⟩ : array.bufferStart = number ∧ _ = packet ∧ _ = array' := by simpa using hread
      have hlt : first < last := by
        rcases Nat.lt_or_eq_of_le hle with hlt | rfl
        · exact hlt
        · exact absurd (h.stop.trans h.start.symm) hne
      rw [h.start, payloadOf_ofNat _ (by omega)] at hstored
      have hspans : PacketsArray.Spans { array with
          buffer := update array.buffer (packetSlot array.bufferStart) none
          bufferStart := array.bufferStart + 1 } written (first + 1) last := by
        refine ⟨?_, h.stop, hlt, hlast, hinv⟩
        change array.bufferStart + 1 = _
        rw [h.start, UInt32.ofNat_add]
        rfl
      refine ⟨h.start, hlt, hstored, hspans, fun n hn hn' hholds => ?_⟩
      obtain ⟨hfirst', hlast', hslot⟩ := (h.holds_iff hn').mp hholds
      rw [hspans.holds_iff hn']
      refine ⟨hn, hlast', ?_⟩
      rw [h.start]
      simp only
      rwa [h.update_slot (le_refl _) (by omega) hfirst' hlast' (by omega)]

/-- The front is cleared: the packets behind it stay. -/
theorem clearBufferUntil {b : ℕ} (hb : b ≤ last) (hclear : clearBufferUntil array (UInt32.ofNat b) = some array') :
    first ≤ b ∧ array'.Spans written b last ∧
      ∀ n, b ≤ n → n < 2 ^ 31 → array.Holds (UInt32.ofNat n) → array'.Holds (UInt32.ofNat n) := by
  have hlast := h.small
  have hle := h.le
  have hlength := h.length_le
  have hsize : cryptoPacketBufferSize = 32768 := rfl
  have hinv : (TracedArray.step ⟨array, payloadOf written⟩ (.clearBufferUntil (UInt32.ofNat b))).Inv :=
    h.inv.clearBufferUntil _
  simp only [TracedArray.step, hclear, getD_some] at hinv
  have hspots : offset array.bufferStart array.bufferEnd = last - first := h.length
  simp only [Toxcore.clearBufferUntil] at hclear
  split at hclear
  · contradiction
  · rename_i hbounds
    obtain rfl := some_inj.mp hclear
    have hfirst : first ≤ b := by
      by_contra hlt
      apply hbounds
      rw [hspots, h.start, offset_ofNat_of_lt (Nat.lt_of_not_le hlt) (by omega)]
      omega
    have hspans : PacketsArray.Spans { array with
        buffer := clearSlots array.buffer (window array.bufferStart (UInt32.ofNat b))
        bufferStart := UInt32.ofNat b } written b last := ⟨rfl, h.stop, hb, hlast, hinv⟩
    refine ⟨hfirst, hspans, fun n hn hn' hholds => ?_⟩
    obtain ⟨hfirst', hlast', hslot⟩ := (h.holds_iff hn').mp hholds
    rw [hspans.holds_iff hn']
    refine ⟨hn, hlast', ?_⟩
    simp only [clearSlots_apply]
    rw [if_neg]
    · exact hslot
    · intro hmem
      obtain ⟨number, hnumber, heq⟩ := List.mem_map.mp hmem
      rw [RingWindow.mem_window, h.offset_eq hfirst (by omega)] at hnumber
      have hsame : number = UInt32.ofNat n := by
        apply packetSlot_inj _ _ heq
        · exact array.bufferStart
        · omega
        · rw [h.offset_eq hfirst' hn']
          omega
      rw [hsame, h.offset_eq hfirst' hn'] at hnumber
      omega

/-- The end moves forward. -/
theorem setBufferEnd (hn : n < 2 ^ 31) (hset : setBufferEnd array (UInt32.ofNat n) = some array') :
    last ≤ n ∧ array'.Spans written first n ∧
      ∀ m, m < 2 ^ 31 → array.Holds (UInt32.ofNat m) → array'.Holds (UInt32.ofNat m) := by
  have hlast := h.small
  have hle := h.le
  have hsize : cryptoPacketBufferSize = 32768 := rfl
  have hinv : (TracedArray.step ⟨array, payloadOf written⟩ (.setBufferEnd (UInt32.ofNat n))).Inv := h.inv.setBufferEnd _
  simp only [TracedArray.step, hset, getD_some] at hinv
  simp only [Toxcore.setBufferEnd] at hset
  split at hset
  · contradiction
  · split at hset
    · contradiction
    · rename_i hend
      obtain rfl := some_inj.mp hset
      have hlast' : last ≤ n := by
        by_contra hlt
        apply hend
        rw [h.stop, offset_ofNat_of_lt (Nat.lt_of_not_le hlt) (by omega)]
        omega
      have hspans : PacketsArray.Spans { array with bufferEnd := UInt32.ofNat n } written first n :=
        ⟨h.start, rfl, hle.trans hlast', hn, hinv⟩
      refine ⟨hlast', hspans, fun m hm hholds => ?_⟩
      obtain ⟨hfirst', hm', hslot⟩ := (h.holds_iff hm).mp hholds
      rw [hspans.holds_iff hm]
      exact ⟨hfirst', by omega, hslot⟩

/-- A request frees only packets that the receive array it was made from holds. -/
theorem handleRequestPacket {recvArray : PacketsArray} {stop length : ℕ} (hrecv : recvArray.Spans written first stop)
    (hstop : stop ≤ last) (hlength : 1 ≤ length) (hdata : generateRequestPacket length recvArray = some data)
    (latestSendTime rttTime now : UInt64) :
    (handleRequestPacket array data latestSendTime rttTime now).1.Spans written first last ∧
      ∀ n, n < 2 ^ 31 → array.Holds (UInt32.ofNat n) →
        (handleRequestPacket array data latestSendTime rttTime now).1.Holds (UInt32.ofNat n) ∨
          recvArray.Holds (UInt32.ofNat n) := by
  have hinv : (TracedArray.step ⟨array, payloadOf written⟩
    (.handleRequestPacket data latestSendTime rttTime now)).Inv :=
    h.inv.handleRequestPacket data latestSendTime rttTime now
  obtain ⟨packet, decided, buffer, latestSendTime', hpacket, -, hhandle, -, -, hfrees, hheld⟩ :=
    handleRequestPacket_frees recvArray array latestSendTime rttTime now hlength (hrecv.start.trans h.start.symm)
      (by rw [hrecv.length, h.length]; omega)
  obtain rfl : data = packet := some_inj.mp (hdata.symm.trans hpacket)
  simp only [TracedArray.step, hhandle] at hinv
  rw [hhandle]
  refine ⟨⟨h.start, h.stop, h.le, h.small, hinv⟩, fun n _ hholds => ?_⟩
  by_cases hkept : PacketsArray.Holds { array with buffer } (UInt32.ofNat n)
  · exact .inl hkept
  · exact .inr (hfrees.holds_of_freed h.inv.length_le hheld hholds hkept)

/-- Writing a sent time changes no payload. -/
theorem setSentTime (time : UInt64) (number : UInt32) :
    (setSentTime time number array).Spans written first last ∧
      ∀ n, array.Holds n → (Toxcore.setSentTime time number array).Holds n := by
  have hslot (k : Fin cryptoPacketBufferSize) :
      ((Toxcore.setSentTime time number array).buffer k).map PacketData.data =
      (array.buffer k).map PacketData.data := by
    simp only [Toxcore.setSentTime]
    by_cases hk : k = packetSlot number
    · rw [hk, update_self, Option.map_map]
      rfl
    · rw [update_of_ne hk]
  constructor
  · refine ⟨h.start, h.stop, h.le, h.small, h.inv.length_le, ?_⟩
    intro k packet hpacket
    have hdata := hslot k
    rw [show (Toxcore.setSentTime time number array).buffer k = some packet from hpacket, map_some] at hdata
    obtain ⟨earlier, hearlier, heq⟩ := map_eq_some_iff.mp hdata.symm
    rw [← heq]
    exact h.inv.held k earlier hearlier
  · rintro n ⟨hwindow, hsome⟩
    refine ⟨hwindow, fun hnone => hsome ?_⟩
    have hdata := hslot (packetSlot n)
    rwa [hnone, map_none, eq_comm, map_eq_none_iff] at hdata

end

end PacketsArray.Spans

/-- An empty array spans nothing. -/
theorem PacketsArray.emptyAt_spans (written : List Bytes) : (emptyAt 0).Spans written 0 0 :=
  ⟨rfl, rfl, le_refl 0, by omega, by simp [emptyAt, numPacketsArray], nofun⟩

end Toxcore
