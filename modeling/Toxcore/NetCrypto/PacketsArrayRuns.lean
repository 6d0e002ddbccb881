import Toxcore.NetCrypto.PacketsArray

/-!
# Packet arrays against an arbitrary peer

Packet numbers and request bytes come from the peer. The runs here apply the seven array
operations in any order, on any numbers and bytes, with any outcome of the allocations, and record
next to the array what was last stored under each number.

The bounds of the array are kept by every operation except one: `addDataToBuffer` also accepts the
number exactly `CRYPTO_PACKET_BUFFER_SIZE` past the start, whose slot is the one of the start
itself. Without that step every stored packet stays inside the window under its own number.
-/

namespace Toxcore

open ByteStrings RingWindow Function Option

/-- The operations on a packet array. `alloc` is the outcome of the allocation a call makes. -/
inductive ArrayOp
  | addDataToBuffer (alloc : Bool) (number : UInt32) (data : PacketData)
  | addDataEndOfBuffer (alloc : Bool) (data : PacketData)
  | readDataBegBuffer
  | clearBufferUntil (number : UInt32)
  | setBufferEnd (number : UInt32)
  | clearBuffer
  | handleRequestPacket (data : Bytes) (latestSendTime rttTime now : UInt64)

/-- An array together with the payload last stored under each number. -/
structure TracedArray where
  array : PacketsArray
  stored : UInt32 → Option Bytes

/-- Perform one operation. Failing operations leave the array unchanged. -/
def TracedArray.step (t : TracedArray) : ArrayOp → TracedArray
  | .addDataToBuffer alloc number data =>
    match Toxcore.addDataToBuffer alloc t.array number data with
    | none => t
    | some array => ⟨array, update t.stored number (some data.data)⟩
  | .addDataEndOfBuffer alloc data =>
    match Toxcore.addDataEndOfBuffer alloc t.array data with
    | none => t
    | some (number, array) => ⟨array, update t.stored number (some data.data)⟩
  | .readDataBegBuffer =>
    match Toxcore.readDataBegBuffer t.array with
    | none => t
    | some (_, _, array) => { t with array }
  | .clearBufferUntil number => { t with array := (Toxcore.clearBufferUntil t.array number).getD t.array }
  | .setBufferEnd number => { t with array := (Toxcore.setBufferEnd t.array number).getD t.array }
  | .clearBuffer => { t with array := Toxcore.clearBuffer t.array }
  | .handleRequestPacket data latestSendTime rttTime now =>
    { t with array := (Toxcore.handleRequestPacket t.array data latestSendTime rttTime now).1 }

/-- Perform a sequence of operations. -/
def TracedArray.run (t : TracedArray) (ops : List ArrayOp) : TracedArray := ops.foldl TracedArray.step t

/-- An empty array that starts at `number`, with nothing stored yet. -/
def TracedArray.start (number : UInt32) : TracedArray := ⟨.emptyAt number, fun _ => none⟩

/-- What the array promises to its users. -/
structure TracedArray.Correct (t : TracedArray) : Prop where
  length_le : numPacketsArray t.array ≤ cryptoPacketBufferSize
  occupied : ∀ k, t.array.buffer k ≠ none →
    ∃! number, number ∈ window t.array.bufferStart t.array.bufferEnd ∧ packetSlot number = k
  pointer : ∀ number packet, getDataPointer t.array number = some (some packet) →
    t.stored number = some packet.data
  read : ∀ number packet rest, readDataBegBuffer t.array = some (number, packet, rest) →
    t.stored number = some packet.data

/-- The invariant behind the promise: each stored packet is the one last stored under some number
of the window. -/
structure TracedArray.Inv (t : TracedArray) : Prop where
  length_le : numPacketsArray t.array ≤ cryptoPacketBufferSize
  held : ∀ k packet, t.array.buffer k = some packet → ∃ number,
    offset t.array.bufferStart number < numPacketsArray t.array ∧ packetSlot number = k ∧
      t.stored number = some packet.data

/-- The slots of the ring repeat evenly over the 32-bit numbers. -/
theorem cryptoPacketBufferSize_dvd : cryptoPacketBufferSize ∣ 2 ^ 32 := ⟨131072, by norm_num⟩

/-- Inside a window of the array's size, a slot determines its number. -/
theorem packetSlot_inj {start a b : UInt32} (ha : offset start a < cryptoPacketBufferSize)
    (hb : offset start b < cryptoPacketBufferSize) (h : packetSlot a = packetSlot b) : a = b :=
  slot_injOn cryptoPacketBufferSize_dvd ha hb h

/-- An empty array. -/
theorem TracedArray.start_inv (number : UInt32) : (TracedArray.start number).Inv :=
  ⟨by simp [TracedArray.start, PacketsArray.emptyAt, numPacketsArray],
    by intro k packet h; simp [TracedArray.start, PacketsArray.emptyAt] at h⟩

variable {t : TracedArray} {number : UInt32}

/-- The invariant gives the promise. -/
theorem TracedArray.Inv.correct (h : t.Inv) : t.Correct := by
  have hnum : ∀ k packet, t.array.buffer k = some packet → ∀ number,
      offset t.array.bufferStart number < numPacketsArray t.array → packetSlot number = k →
        t.stored number = some packet.data := by
    intro k packet hk number hlt hslot
    obtain ⟨number', hlt', hslot', hstored⟩ := h.held k packet hk
    have hsame : number = number' := packetSlot_inj (hlt.trans_le h.length_le)
      (hlt'.trans_le h.length_le) (hslot.trans hslot'.symm)
    rw [hsame, hstored]
  refine ⟨h.length_le, ?_, ?_, ?_⟩
  · intro k hk
    obtain ⟨packet, hpacket⟩ := ne_none_iff_exists'.mp hk
    obtain ⟨number, hlt, hslot, -⟩ := h.held k packet hpacket
    refine ⟨number, ⟨mem_window.mpr hlt, hslot⟩, ?_⟩
    rintro other ⟨hother, hslot'⟩
    exact packetSlot_inj ((mem_window.mp hother).trans_le h.length_le) (hlt.trans_le h.length_le)
      (hslot'.trans hslot.symm)
  · intro number packet hget
    simp only [getDataPointer] at hget
    split at hget
    · contradiction
    · rename_i hbounds
      exact hnum _ packet (some.inj hget) number
        (Nat.lt_of_not_le fun hle => hbounds (Or.inr hle)) rfl
  · intro number packet rest hread
    simp only [readDataBegBuffer] at hread
    split at hread
    · contradiction
    · rename_i hne
      split at hread
      · contradiction
      · rename_i data hdata
        simp only [some.injEq, Prod.mk.injEq] at hread
        obtain ⟨rfl, rfl, -⟩ := hread
        apply hnum _ data hdata _ _ rfl
        rw [offset_self]
        have : offset t.array.bufferStart t.array.bufferEnd ≠ offset t.array.bufferStart t.array.bufferStart :=
          fun heq => hne (offset_injective heq)
        rw [offset_self] at this
        exact Nat.pos_of_ne_zero this

/-! ## One operation at a time -/

section

variable (h : t.Inv)
include h

/-- Storing a packet under a number of the enlarged window keeps the invariant. -/
theorem TracedArray.Inv.store {stop : UInt32} (data : PacketData)
    (hstop : offset t.array.bufferStart stop ≤ cryptoPacketBufferSize)
    (hgrow : numPacketsArray t.array ≤ offset t.array.bufferStart stop)
    (hnumber : offset t.array.bufferStart number < offset t.array.bufferStart stop) :
    TracedArray.Inv
      ⟨{ t.array with
          buffer := update t.array.buffer (packetSlot number) (some data)
          bufferEnd := stop },
        update t.stored number (some data.data)⟩ := by
  refine ⟨hstop, ?_⟩
  intro k packet hk
  by_cases hslot : k = packetSlot number
  · subst hslot
    simp only [update_self, some.injEq] at hk
    subst hk
    exact ⟨number, hnumber, rfl, update_self ..⟩
  · simp only [update_of_ne hslot] at hk
    obtain ⟨other, hlt, hother, hstored⟩ := h.held k packet hk
    refine ⟨other, hlt.trans_le hgrow, hother, ?_⟩
    have hne : other ≠ number := fun heq => hslot (by rw [← hother, heq])
    simpa only [update_of_ne hne] using hstored

/-- A packet is put under its number. -/
theorem TracedArray.Inv.addDataToBuffer {alloc : Bool} {data : PacketData}
    (hne : offset t.array.bufferStart number ≠ cryptoPacketBufferSize) :
    (t.step (.addDataToBuffer alloc number data)).Inv := by
  simp only [TracedArray.step, Toxcore.addDataToBuffer]
  by_cases hfar : offset t.array.bufferStart number > cryptoPacketBufferSize
  · simpa [hfar] using h
  by_cases hslot : (t.array.buffer (packetSlot number)).isSome
  · simpa [hfar, hslot] using h
  cases alloc with
  | false => simpa [hfar, hslot] using h
  | true =>
    simp only [if_neg hfar, if_neg hslot, Bool.not_true, Bool.false_eq_true, if_false]
    have hlen := h.length_le
    have hsize : cryptoPacketBufferSize = 32768 := rfl
    unfold numPacketsArray at hlen
    by_cases hend : offset t.array.bufferStart number ≥ offset t.array.bufferStart t.array.bufferEnd
    · simp only [if_pos hend]
      have hroom : offset t.array.bufferStart number + 1 < 2 ^ 32 := by omega
      have hsucc := offset_succ hroom
      exact h.store data (by omega) (by unfold numPacketsArray; omega) (by omega)
    · simp only [if_neg hend]
      exact h.store data hlen le_rfl (by omega)

/-- A packet is put at the end. -/
theorem TracedArray.Inv.addDataEndOfBuffer {alloc : Bool} {data : PacketData} :
    (t.step (.addDataEndOfBuffer alloc data)).Inv := by
  simp only [TracedArray.step, Toxcore.addDataEndOfBuffer]
  by_cases hfull : numPacketsArray t.array ≥ cryptoPacketBufferSize
  · simpa [hfull] using h
  cases alloc with
  | false => simpa [hfull] using h
  | true =>
    simp only [if_neg hfull, Bool.not_true, Bool.false_eq_true, if_false]
    unfold numPacketsArray at hfull
    have hsize : cryptoPacketBufferSize = 32768 := rfl
    have hroom : offset t.array.bufferStart t.array.bufferEnd + 1 < 2 ^ 32 := by omega
    have hsucc := offset_succ hroom
    exact h.store data (by omega) (by unfold numPacketsArray; omega) (by omega)

/-- The first packet is read. -/
theorem TracedArray.Inv.readDataBegBuffer : (t.step .readDataBegBuffer).Inv := by
  simp only [TracedArray.step, Toxcore.readDataBegBuffer]
  by_cases hempty : t.array.bufferEnd = t.array.bufferStart
  · simpa [hempty] using h
  cases hfirst : t.array.buffer (packetSlot t.array.bufferStart) with
  | none => simpa [hempty] using h
  | some data =>
    simp only [if_neg hempty]
    have hlen := h.length_le
    have hstop := offset_start_succ (Ne.symm hempty)
    unfold numPacketsArray at hlen
    refine ⟨by unfold numPacketsArray; dsimp only; omega, ?_⟩
    intro k packet hk
    have hslot : k ≠ packetSlot t.array.bufferStart := by
      rintro rfl
      simp at hk
    simp only [update_of_ne hslot] at hk
    obtain ⟨number, hlt, hnumber, hstored⟩ := h.held k packet hk
    have hne : t.array.bufferStart ≠ number := fun heq => hslot (by rw [← hnumber, heq])
    have hshift := offset_start_succ hne
    unfold numPacketsArray at hlt
    exact ⟨number, by unfold numPacketsArray; dsimp only; omega, hnumber, hstored⟩

/-- Clearing the front of the window up to `number` keeps the invariant. -/
theorem TracedArray.Inv.clearFront (hnumber : offset t.array.bufferStart number ≤ numPacketsArray t.array) :
    TracedArray.Inv
      { t with
        array := { t.array with
          buffer := clearSlots t.array.buffer (window t.array.bufferStart number)
          bufferStart := number } } := by
  have hlen := h.length_le
  have hstop := offset_sub hnumber
  unfold numPacketsArray at hlen hnumber
  refine ⟨by unfold numPacketsArray; dsimp only; omega, ?_⟩
  intro k packet hk
  simp only [clearSlots_apply] at hk
  split at hk
  · contradiction
  · rename_i hkept
    obtain ⟨other, hlt, hother, hstored⟩ := h.held k packet hk
    have hbehind : offset t.array.bufferStart number ≤ offset t.array.bufferStart other := by
      refine Nat.le_of_not_lt fun hcleared => hkept ?_
      exact List.mem_map.mpr ⟨other, mem_window.mpr hcleared, hother⟩
    have hshift := offset_sub hbehind
    unfold numPacketsArray at hlt
    exact ⟨other, by unfold numPacketsArray; dsimp only; omega, hother, hstored⟩

/-- The packets below a number are freed. -/
theorem TracedArray.Inv.clearBufferUntil (number : UInt32) : (t.step (.clearBufferUntil number)).Inv := by
  simp only [TracedArray.step, Toxcore.clearBufferUntil]
  split
  · exact h
  · rename_i hbounds
    exact h.clearFront (Nat.le_of_not_lt fun hlt => hbounds (Or.inr hlt))

/-- All packets are freed. -/
theorem TracedArray.Inv.clearBuffer : (t.step .clearBuffer).Inv :=
  h.clearFront le_rfl

/-- The end is moved. -/
theorem TracedArray.Inv.setBufferEnd (number : UInt32) : (t.step (.setBufferEnd number)).Inv := by
  simp only [TracedArray.step, Toxcore.setBufferEnd]
  by_cases hstart : offset t.array.bufferStart number > cryptoPacketBufferSize
  · simpa [hstart] using h
  by_cases hend : offset t.array.bufferEnd number > cryptoPacketBufferSize
  · simpa [hstart, hend] using h
  simp only [if_neg hstart, if_neg hend, getD_some]
  have hlen := h.length_le
  unfold numPacketsArray at hlen
  have hsize : cryptoPacketBufferSize = 32768 := rfl
  have hadd := offset_add (a := t.array.bufferStart) (b := t.array.bufferEnd) (c := number) (by omega)
  refine ⟨by unfold numPacketsArray; dsimp only; omega, ?_⟩
  intro k packet hk
  obtain ⟨other, hlt, hother, hstored⟩ := h.held k packet hk
  unfold numPacketsArray at hlt
  exact ⟨other, by unfold numPacketsArray; dsimp only; omega, hother, hstored⟩

end

/-- Every packet left in a ring is one of the packets before, up to its send time. -/
def Shrinks (before after : Fin cryptoPacketBufferSize → Option PacketData) : Prop :=
  ∀ k packet, after k = some packet → ∃ earlier, before k = some earlier ∧ earlier.data = packet.data

theorem Shrinks.refl (buffer : Fin cryptoPacketBufferSize → Option PacketData) : Shrinks buffer buffer :=
  fun _ packet h => ⟨packet, h, rfl⟩

/-- Packets are freed twice. -/
theorem Shrinks.trans {a b c : Fin cryptoPacketBufferSize → Option PacketData} (hab : Shrinks a b)
    (hbc : Shrinks b c) : Shrinks a c := by
  intro k packet h
  obtain ⟨middle, hmiddle, hdata⟩ := hbc k packet h
  obtain ⟨first, hfirst, hdata'⟩ := hab k middle hmiddle
  exact ⟨first, hfirst, hdata'.trans hdata⟩

/-- Replacing the content of one slot by something derived from it shrinks the ring. -/
theorem Shrinks.update {buffer : Fin cryptoPacketBufferSize → Option PacketData}
    {num : Fin cryptoPacketBufferSize} {value : Option PacketData}
    (hvalue : ∀ kept, value = some kept → ∃ earlier, buffer num = some earlier ∧ earlier.data = kept.data) :
    Shrinks buffer (update buffer num value) := by
  intro k packet h
  by_cases hk : k = num
  · subst hk
    rw [update_self] at h
    exact hvalue packet h
  · rw [update_of_ne hk] at h
    exact ⟨packet, h, rfl⟩

@[simp] theorem markRequested_data (now rttTime : UInt64) (packet : PacketData) :
    (markRequested now rttTime packet).data = packet.data := by
  unfold markRequested
  split <;> rfl

/-- The request loop only frees packets and resets send times, whatever the bytes are. -/
theorem handleRequestLoop_shrinks (now rttTime : UInt64) (ns : List UInt32) (n : ℕ) (data : Bytes)
    (requested : ℕ) (lSentTime : UInt64) (buffer : Fin cryptoPacketBufferSize → Option PacketData) :
    Shrinks buffer (handleRequestLoop now rttTime ns n data requested lSentTime buffer).1 := by
  induction ns generalizing n data requested lSentTime buffer with
  | nil => exact Shrinks.refl buffer
  | cons i rest ih =>
    cases data with
    | nil => exact Shrinks.refl buffer
    | cons byte data =>
      have hfree : Shrinks buffer (update buffer (packetSlot i) none) :=
        Shrinks.update (by simp)
      have hmark : Shrinks buffer (update buffer (packetSlot i)
          ((buffer (packetSlot i)).map (markRequested now rttTime))) := by
        apply Shrinks.update
        intro kept hkept
        obtain ⟨earlier, hearlier, rfl⟩ := map_eq_some_iff.mp hkept
        exact ⟨earlier, hearlier, (markRequested_data ..).symm⟩
      simp only [handleRequestLoop]
      split
      · exact hmark.trans (ih _ _ _ _ _)
      · split
        · split
          · exact hfree
          · exact hfree.trans (ih _ _ _ _ _)
        · exact hfree.trans (ih _ _ _ _ _)

/-- A request packet changes at most the buffer, and only through its loop. -/
theorem handleRequestPacket_array (sendArray : PacketsArray) (data : Bytes) (latestSendTime rttTime now : UInt64) :
    ∃ buffer, (handleRequestPacket sendArray data latestSendTime rttTime now).1 = { sendArray with buffer } ∧
      Shrinks sendArray.buffer buffer := by
  unfold handleRequestPacket
  split
  · exact ⟨_, rfl, Shrinks.refl _⟩
  · split
    · exact ⟨_, rfl, Shrinks.refl _⟩
    · split
      · exact ⟨_, rfl, Shrinks.refl _⟩
      · dsimp only
        split <;> exact ⟨_, rfl, handleRequestLoop_shrinks _ _ _ _ _ _ _ _⟩

/-- A request packet frees packets. -/
theorem TracedArray.Inv.handleRequestPacket (h : t.Inv) (data : Bytes) (latestSendTime rttTime now : UInt64) :
    (t.step (.handleRequestPacket data latestSendTime rttTime now)).Inv := by
  obtain ⟨buffer, harray, hshrinks⟩ :=
    handleRequestPacket_array t.array data latestSendTime rttTime now
  simp only [TracedArray.step, harray]
  refine ⟨h.length_le, ?_⟩
  intro k packet hk
  obtain ⟨earlier, hearlier, hdata⟩ := hshrinks k packet hk
  obtain ⟨number, hlt, hslot, hstored⟩ := h.held k earlier hearlier
  exact ⟨number, hlt, hslot, hdata ▸ hstored⟩

/-! ## Whole runs -/

/-- The number of a received packet does not lie exactly one turn of the ring past the start. -/
def ArrayOp.OffTheEdge (array : PacketsArray) : ArrayOp → Prop
  | .addDataToBuffer _ number _ => offset array.bufferStart number ≠ cryptoPacketBufferSize
  | _ => True

/-- Every step of a run keeps its packet number off the edge of the window it meets. -/
def TracedArray.RunOffTheEdge : TracedArray → List ArrayOp → Prop
  | _, [] => True
  | t, op :: ops => op.OffTheEdge t.array ∧ (t.step op).RunOffTheEdge ops

/-- An operation off the edge keeps the invariant. -/
theorem TracedArray.Inv.step {t : TracedArray} (h : t.Inv) {op : ArrayOp} (hop : op.OffTheEdge t.array) :
    (t.step op).Inv := by
  cases op with
  | addDataToBuffer alloc number data => exact h.addDataToBuffer hop
  | addDataEndOfBuffer alloc data => exact h.addDataEndOfBuffer
  | readDataBegBuffer => exact h.readDataBegBuffer
  | clearBufferUntil number => exact h.clearBufferUntil number
  | setBufferEnd number => exact h.setBufferEnd number
  | clearBuffer => exact h.clearBuffer
  | handleRequestPacket data latestSendTime rttTime now =>
    exact h.handleRequestPacket data latestSendTime rttTime now

/-- A run off the edge keeps the invariant. -/
theorem TracedArray.Inv.run (h : t.Inv) {ops : List ArrayOp} (hops : t.RunOffTheEdge ops) : (t.run ops).Inv := by
  induction ops generalizing t with
  | nil => exact h
  | cons op ops ih => exact ih (h.step hops.1) hops.2

/-- In every run that stays off the edge, the window fits the ring, every occupied slot belongs to
exactly one number of the window, and packets come back under the number they were stored under. -/
theorem tracedArray_run_correct (number : UInt32) (ops : List ArrayOp)
    (h : (TracedArray.start number).RunOffTheEdge ops) : ((TracedArray.start number).run ops).Correct :=
  ((TracedArray.start_inv number).run h).correct

/-- A run that fills the ring up to its last number and reads it back in order. -/
theorem tracedArray_run_correct_near_edge :
    ((TracedArray.start 7).run
      [.addDataToBuffer true 32774 ⟨0, [16]⟩, .setBufferEnd 32775, .clearBufferUntil 32774,
        .readDataBegBuffer]).Correct :=
  tracedArray_run_correct 7 _
    ⟨(by decide : offset 7 32774 ≠ cryptoPacketBufferSize), trivial, trivial, trivial, trivial⟩

/-- A peer that sends the number one turn past the start stretches the window beyond the ring, and
the packet is read back as the one it displaced, under a number nothing was stored under. -/
theorem tracedArray_edge_incorrect :
    let t := (TracedArray.start 0).run [.addDataToBuffer true 32768 ⟨0, [16]⟩]
    ¬t.Correct ∧ numPacketsArray t.array = 32769 ∧
      (readDataBegBuffer t.array).map (fun r => (r.1, r.2.1)) = some (0, ⟨0, [16]⟩) ∧
      t.stored 0 = none := by
  have hlen : numPacketsArray
      ((TracedArray.start 0).run [.addDataToBuffer true 32768 ⟨0, [16]⟩]).array = 32769 := by decide
  refine ⟨fun h => ?_, hlen, by decide, by decide⟩
  have := h.length_le
  rw [hlen] at this
  exact absurd this (by decide)

end Toxcore
