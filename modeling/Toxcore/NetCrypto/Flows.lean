import Toxcore.NetCrypto.PayloadArrays
import Toxcore.NetCrypto.Receiving

/-!
# Two endpoints and the plain texts between them

An endpoint here is what a connection keeps of the lossless stream: its two packet arrays, the payloads written to
it and delivered from it, and every plain text it has sent. A sent plain text stays in flight for ever, so it can
arrive any number of times, late, or not at all.

The invariant of one direction, `Flow`, ties the send array of the writer, the receive array of the reader and the
plain texts in flight both ways. A payload is freed by the writer for two reasons, the start of the reader's buffer
and a request of the reader; each plain text that gives such a reason is kept together with the receive array it
was made from, and whatever that array held is delivered or still held.
-/

namespace Toxcore

open ByteStrings RingWindow List

namespace NetCrypto

/-! ## Reading back a plain text -/

variable (bufferStart num : UInt32)

theorem plainBufferStart_plainData (data : Bytes) :
    plainBufferStart (plainData bufferStart num data) = bufferStart := by
  rw [plainBufferStart, plainData, slice_block, beBlock_toList, beNat_beBytes_of_lt bufferStart.toNat_lt,
    UInt32.ofNat_toNat]

theorem plainNum_plainData (data : Bytes) : plainNum (plainData bufferStart num data) = num := by
  have hskip : slice 4 (plainData bufferStart num data) 4 = beBlock 4 num.toNat := by
    have hslice := slice_skip (n := 4) (beBlock 4 bufferStart.toNat) ((beBlock 4 num.toNat).toList ++
      (List.replicate ((maxCryptoDataSize - data.length) % cryptoMaxPadding) packetIdPadding ++ data)) 0
    rwa [slice_block] at hslice
  rw [plainNum, hskip, beBlock_toList, beNat_beBytes_of_lt num.toNat_lt, UInt32.ofNat_toNat]

/-- The padding is removed, and no byte of data that does not start like padding. -/
theorem plainRealData_plainData {data : Bytes} {packetId : UInt8} (hhead : data.head? = some packetId)
    (hpadding : packetId ≠ packetIdPadding) : plainRealData (plainData bufferStart num data) = data := by
  have hdrop : (plainData bufferStart num data).drop 8 =
      List.replicate ((maxCryptoDataSize - data.length) % cryptoMaxPadding) packetIdPadding ++ data := by
    rw [plainData, show 8 = 4 + (4 + 0) by omega, drop_skip, drop_skip, drop_zero]
  rw [plainRealData, hdrop, dropWhile_append_of_pos (by simp)]
  obtain ⟨rest, rfl⟩ := head?_eq_some_iff.mp hhead
  rw [dropWhile_cons_of_neg (by simpa using hpadding)]

end NetCrypto

open NetCrypto

/-- A request packet starts like one. -/
theorem generateRequestPacket_head {length : ℕ} {recvArray : PacketsArray} {data : Bytes}
    (h : generateRequestPacket length recvArray = some data) : ∃ rest, data = packetIdRequest :: rest := by
  have hlength : 1 ≤ length := by
    by_contra hzero
    rw [generateRequestPacket, if_pos (by omega)] at h
    contradiction
  rw [generateRequestPacket_eq hlength] at h
  exact ⟨_, (Option.some_inj.mp h).symm⟩

variable {packetId : UInt8} {a b : Endpoint}

theorem IsLossless.ne_padding (h : IsLossless packetId) : packetId ≠ packetIdPadding := by
  rintro rfl
  exact absurd h (by decide)

theorem IsLossless.ne_request (h : IsLossless packetId) : packetId ≠ packetIdRequest := by
  rintro rfl
  exact absurd h (by decide)

theorem IsLossy.ne_padding (h : IsLossy packetId) : packetId ≠ packetIdPadding := by
  rintro rfl
  exact absurd h (by decide)

theorem IsLossy.ne_request (h : IsLossy packetId) : packetId ≠ packetIdRequest := by
  rintro rfl
  exact absurd h (by decide)

theorem IsLossless.not_isLossy (h : IsLossless packetId) : ¬IsLossy packetId :=
  fun hlossy => absurd h.2 (UInt8.not_lt.mpr hlossy.1)

/-! ## Endpoints -/

/-- What a connection keeps of the lossless stream. `written` lists the payloads accepted for sending and `numbers`
the packet numbers returned for them, `delivered` the payloads handed to the application, `outbox` every plain text
sent so far. -/
structure Endpoint where
  send : PacketsArray
  recv : PacketsArray
  numbers : List UInt32
  written : List Bytes
  delivered : List Bytes
  outbox : List Bytes

namespace Endpoint

/-- An endpoint that has not been used. -/
def fresh : Endpoint := ⟨.emptyAt 0, .emptyAt 0, [], [], [], []⟩

/-- The endpoint after a plain text was sent. Every plain text carries the start of the receive buffer. -/
def emit (e : Endpoint) (num : UInt32) (data : Bytes) : Endpoint :=
  { e with outbox := e.outbox ++ [plainData e.recv.bufferStart num data] }

/-- The smallest things the code does to an endpoint, given the plain texts the peer has sent. -/
inductive Acts (inbox : List Bytes) : Endpoint → Endpoint → Prop
  /-- A payload is accepted for sending. -/
  | append {e : Endpoint} {data : Bytes} {packetId : UInt8} {num : UInt32} {send : PacketsArray}
      (hhead : data.head? = some packetId) (hlossless : IsLossless packetId)
      (hadd : addDataEndOfBuffer true e.send ⟨0, data⟩ = some (num, send)) :
      Acts inbox e { e with send := send, numbers := e.numbers ++ [num], written := e.written ++ [data] }
  /-- A packet of the send array is sent. -/
  | transmit {e : Endpoint} {num : UInt32} {packet : PacketData}
      (hget : getDataPointer e.send num = some (some packet)) : Acts inbox e (e.emit num packet.data)
  /-- The time a packet was sent at is written. -/
  | mark (e : Endpoint) (time : UInt64) (num : UInt32) :
      Acts inbox e { e with send := setSentTime time num e.send }
  /-- A request for the missing packets is sent. -/
  | request {e : Endpoint} {data : Bytes} (hdata : generateRequestPacket maxCryptoDataSize e.recv = some data) :
      Acts inbox e (e.emit e.send.bufferEnd data)
  /-- Lossy data is sent. -/
  | lossy {e : Endpoint} {data : Bytes} {packetId : UInt8} (hhead : data.head? = some packetId)
      (hlossy : IsLossy packetId) : Acts inbox e (e.emit e.send.bufferEnd data)
  /-- The packets before the start of the peer's receive buffer are dropped. -/
  | acknowledge {e : Endpoint} {plain : Bytes} {send : PacketsArray} (hplain : plain ∈ inbox)
      (hclear : clearBufferUntil e.send (plainBufferStart plain) = some send) : Acts inbox e { e with send := send }
  /-- The packets a request of the peer does not ask for are dropped. -/
  | handleRequest {e : Endpoint} {plain : Bytes} (hplain : plain ∈ inbox)
      (hhead : (plainRealData plain).head? = some packetIdRequest)
      (hstart : e.send.bufferStart = plainBufferStart plain) (latestSendTime rttTime now : UInt64) :
      Acts inbox e
        { e with send := (handleRequestPacket e.send (plainRealData plain) latestSendTime rttTime now).1 }
  /-- The receive buffer is made longer, up to the number of a plain text. -/
  | extend {e : Endpoint} {plain : Bytes} {recv : PacketsArray} (hplain : plain ∈ inbox)
      (hset : setBufferEnd e.recv (plainNum plain) = some recv) : Acts inbox e { e with recv := recv }
  /-- A payload that arrived is put in the receive buffer. -/
  | take {e : Endpoint} {plain : Bytes} {packetId : UInt8} {recv : PacketsArray} (hplain : plain ∈ inbox)
      (hhead : (plainRealData plain).head? = some packetId) (hlossless : IsLossless packetId)
      (hadd : addDataToBuffer true e.recv (plainNum plain) ⟨0, plainRealData plain⟩ = some recv) :
      Acts inbox e { e with recv := recv }
  /-- The first payload of the receive buffer goes to the application. -/
  | deliver {e : Endpoint} {num : UInt32} {packet : PacketData} {recv : PacketsArray}
      (hread : readDataBegBuffer e.recv = some (num, packet, recv)) :
      Acts inbox e { e with recv := recv, delivered := e.delivered ++ [packet.data] }
  /-- The first payload of the receive buffer is lost: its number looks like the end of the buffer. -/
  | lose {e : Endpoint} {packet : PacketData} {recv : PacketsArray}
      (hread : readDataBegBuffer e.recv = some (0 - 1, packet, recv)) : Acts inbox e { e with recv := recv }

end Endpoint

/-! ## One direction -/

/-- A plain text carries a payload under its number, or a request or lossy data and a number the stream has
reached. -/
def Carries (written : List Bytes) (plain : Bytes) : Prop :=
  ∃ n, n ≤ written.length ∧ plainNum plain = UInt32.ofNat n ∧
    (written[n]? = some (plainRealData plain) ∨
      ∃ packetId, (plainRealData plain).head? = some packetId ∧ (packetId = packetIdRequest ∨ IsLossy packetId))

/-- A plain text of the reader acknowledges only delivered payloads, and a request was made from a receive array all
of whose payloads are delivered or still held. -/
def Answers (written : List Bytes) (recv : PacketsArray) (delivered : ℕ) (plain : Bytes) : Prop :=
  ∃ b, b ≤ delivered ∧ plainBufferStart plain = UInt32.ofNat b ∧
    ((plainRealData plain).head? = some packetIdRequest →
      ∃ (earlier : PacketsArray) (stop : ℕ), earlier.Spans written b stop ∧ stop ≤ written.length ∧
        generateRequestPacket maxCryptoDataSize earlier = some (plainRealData plain) ∧
        ∀ n, n < 2 ^ 31 → earlier.Holds (UInt32.ofNat n) → n < delivered ∨ recv.Holds (UInt32.ofNat n))

/-- The invariant of the direction from a writer to a reader. -/
structure Flow (writer reader : Endpoint) (acked stop : ℕ) : Prop where
  numbered : writer.numbers = (List.range writer.written.length).map UInt32.ofNat
  lossless : ∀ data ∈ writer.written, ∃ packetId, data.head? = some packetId ∧ IsLossless packetId
  send : writer.send.Spans writer.written acked writer.written.length
  recv : reader.recv.Spans writer.written reader.delivered.length stop
  acked_le : acked ≤ reader.delivered.length
  stop_le : stop ≤ writer.written.length
  delivered : reader.delivered <+: writer.written
  held : ∀ n, reader.delivered.length ≤ n → n < writer.written.length →
    writer.send.Holds (UInt32.ofNat n) ∨ reader.recv.Holds (UInt32.ofNat n)
  out : ∀ plain ∈ writer.outbox, Carries writer.written plain
  back : ∀ plain ∈ reader.outbox, Answers writer.written reader.recv reader.delivered.length plain

namespace Flow

variable {writer reader : Endpoint} {acked stop : ℕ}

theorem small (h : Flow writer reader acked stop) : writer.written.length < 2 ^ 31 := h.send.small

variable {num : UInt32} {data : Bytes} {packetId : UInt8} {recv : PacketsArray}

/-- A packet found in the send array is a written payload, under its own number. -/
theorem stored (h : Flow writer reader acked stop) {packet : PacketData}
    (hget : getDataPointer writer.send num = some (some packet)) :
    ∃ n packetId, n < writer.written.length ∧ num = UInt32.ofNat n ∧ writer.written[n]? = some packet.data ∧
      packet.data.head? = some packetId ∧ IsLossless packetId := by
  obtain ⟨n, -, hn, hnum, hdata⟩ := h.send.getDataPointer hget
  obtain ⟨packetId, hhead, hlossless⟩ := h.lossless packet.data (mem_of_getElem? hdata)
  exact ⟨n, packetId, hn, hnum, hdata, hhead, hlossless⟩

/-- The writer never asks to end the connection. -/
theorem not_kill (h : Flow writer reader acked stop) {plain : Bytes} (hplain : plain ∈ writer.outbox) :
    (plainRealData plain).head? ≠ some packetIdKill := by
  intro hkill
  obtain ⟨n, -, -, hdata | ⟨packetId, hhead, hother⟩⟩ := h.out plain hplain
  · obtain ⟨packetId, hhead, hlossless⟩ := h.lossless _ (mem_of_getElem? hdata)
    obtain rfl := Option.some_inj.mp (hhead.symm.trans hkill)
    exact absurd hlossless (by decide)
  · obtain rfl := Option.some_inj.mp (hhead.symm.trans hkill)
    exact absurd hother (by decide)

/-! ### The writer acts -/

section

variable (h : Flow writer reader acked stop)
include h

/-- The writer sends a plain text. -/
theorem emit (hcarries : Carries writer.written (plainData writer.recv.bufferStart num data)) :
    Flow (writer.emit num data) reader acked stop where
  numbered := h.numbered
  lossless := h.lossless
  send := h.send
  recv := h.recv
  acked_le := h.acked_le
  stop_le := h.stop_le
  delivered := h.delivered
  held := h.held
  out plain hplain := by
    rcases mem_append.mp hplain with hold | hnew
    · exact h.out plain hold
    · rw [mem_singleton.mp hnew]
      exact hcarries
  back := h.back

/-- The writer sends something that is not part of the stream, with the number after the last payload. -/
theorem emit_other (hhead : data.head? = some packetId) (hother : packetId = packetIdRequest ∨ IsLossy packetId) :
    Flow (writer.emit writer.send.bufferEnd data) reader acked stop := by
  have hpadding : packetId ≠ packetIdPadding := by
    rcases hother with rfl | hlossy
    · decide
    · exact hlossy.ne_padding
  refine h.emit ⟨writer.written.length, le_refl _, ?_, .inr ?_⟩
  · rw [plainNum_plainData, h.send.stop]
  · rw [plainRealData_plainData _ _ hhead hpadding]
    exact ⟨packetId, hhead, hother⟩

/-- The writer changes its send array and keeps every payload that is not delivered, or the reader holds it. -/
theorem replace_send {send : PacketsArray} {acked' : ℕ}
    (hspans : send.Spans writer.written acked' writer.written.length) (hacked : acked' ≤ reader.delivered.length)
    (hheld : ∀ n, reader.delivered.length ≤ n → n < writer.written.length → writer.send.Holds (UInt32.ofNat n) →
      send.Holds (UInt32.ofNat n) ∨ reader.recv.Holds (UInt32.ofNat n)) :
    Flow { writer with send := send } reader acked' stop where
  numbered := h.numbered
  lossless := h.lossless
  send := hspans
  recv := h.recv
  acked_le := hacked
  stop_le := h.stop_le
  delivered := h.delivered
  held n hn hn' := by
    rcases h.held n hn hn' with hsend | hrecv
    · exact hheld n hn hn' hsend
    · exact .inr hrecv
  out := h.out
  back := h.back

/-- The writer accepts a payload. -/
theorem append {send : PacketsArray} (hsmall : (writer.written ++ [data]).length < 2 ^ 31)
    (hhead : data.head? = some packetId) (hlossless : IsLossless packetId)
    (hadd : addDataEndOfBuffer true writer.send ⟨0, data⟩ = some (num, send)) :
    Flow { writer with send := send, numbers := writer.numbers ++ [num], written := writer.written ++ [data] } reader
      acked stop := by
  have hlength : (writer.written ++ [data]).length = writer.written.length + 1 := by simp
  obtain ⟨rfl, hspans, hnew, hold⟩ := h.send.addDataEndOfBuffer (by omega) hadd
  refine ⟨?_, ?_, ?_, h.recv.mono h.stop_le [data], h.acked_le, ?_, h.delivered.trans (prefix_append _ _), ?_, ?_, ?_⟩
  · simp only [hlength, range_succ, map_append, map_cons, map_nil, h.numbered]
  · intro written hmem
    rcases mem_append.mp hmem with hmem | hmem
    · exact h.lossless written hmem
    · rw [mem_singleton.mp hmem]
      exact ⟨packetId, hhead, hlossless⟩
  · simp only [hlength]
    exact hspans
  · simp only [hlength]
    exact Nat.le_succ_of_le h.stop_le
  · intro n hn hn'
    simp only [hlength] at hn'
    rcases Nat.lt_succ_iff_lt_or_eq.mp hn' with hlt | rfl
    · rcases h.held n hn hlt with hsend | hrecv
      · exact .inl (hold n hlt hsend)
      · exact .inr hrecv
    · exact .inl hnew
  · intro plain hplain
    obtain ⟨n, hn, hnum, hcarried⟩ := h.out plain hplain
    refine ⟨n, by simp only [hlength]; omega, hnum, ?_⟩
    rcases hcarried with hdata | hother
    · left
      have hlt : n < writer.written.length := (List.getElem?_eq_some_iff.mp hdata).1
      simp only
      rwa [getElem?_append_left hlt]
    · exact .inr hother
  · intro plain hplain
    obtain ⟨b, hb, hstart, hrequest⟩ := h.back plain hplain
    refine ⟨b, hb, hstart, fun hreq => ?_⟩
    obtain ⟨earlier, last, hearlier, hlast, hdata, hholds⟩ := hrequest hreq
    refine ⟨earlier, last, hearlier.mono hlast [data], ?_, hdata, hholds⟩
    simp only [hlength]
    exact Nat.le_succ_of_le hlast

/-- What the writer receives as a reader of the other stream does not matter here. -/
theorem writer_receives (recv : PacketsArray) (delivered : List Bytes) :
    Flow { writer with recv := recv, delivered := delivered } reader acked stop :=
  ⟨h.numbered, h.lossless, h.send, h.recv, h.acked_le, h.stop_le, h.delivered, h.held, h.out, h.back⟩

/-- What the writer does keeps the invariant while the numbers are small. -/
theorem writer_acts {writer' : Endpoint} (hacts : Endpoint.Acts reader.outbox writer writer')
    (hsmall : writer'.written.length < 2 ^ 31) : ∃ acked', Flow writer' reader acked' stop := by
  have hwritten := h.small
  have hdelivered := h.delivered.length_le
  cases hacts with
  | append hhead hlossless hadd => exact ⟨acked, h.append hsmall hhead hlossless hadd⟩
  | transmit hget =>
    obtain ⟨n, packetId, hn, rfl, hdata, hhead, hlossless⟩ := h.stored hget
    refine ⟨acked, h.emit ⟨n, hn.le, plainNum_plainData _ _ _, .inl ?_⟩⟩
    rw [plainRealData_plainData _ _ hhead hlossless.ne_padding, hdata]
  | mark time num =>
    obtain ⟨hspans, hholds⟩ := h.send.setSentTime time num
    exact ⟨acked, h.replace_send hspans h.acked_le fun n _ _ hsend => .inl (hholds _ hsend)⟩
  | request hdata =>
    obtain ⟨rest, rfl⟩ := generateRequestPacket_head hdata
    exact ⟨acked, h.emit_other rfl (.inl rfl)⟩
  | lossy hhead hlossy => exact ⟨acked, h.emit_other hhead (.inr hlossy)⟩
  | @acknowledge plain send hplain hclear =>
    obtain ⟨b, hb, hstart, -⟩ := h.back plain hplain
    rw [hstart] at hclear
    obtain ⟨-, hspans, hholds⟩ := h.send.clearBufferUntil (hb.trans hdelivered) hclear
    exact ⟨b, h.replace_send hspans hb fun n hn hn' hsend => .inl (hholds n (hb.trans hn) (by omega) hsend)⟩
  | @handleRequest plain hplain hhead hstart latestSendTime rttTime now =>
    obtain ⟨b, hb, hstart', hrequest⟩ := h.back plain hplain
    obtain ⟨earlier, last, hearlier, hlast, hdata, hold⟩ := hrequest hhead
    have hsame : UInt32.ofNat acked = UInt32.ofNat b := by rw [← h.send.start, hstart, hstart']
    have hacked := h.acked_le
    obtain rfl := ofNat_injective (by omega) (by omega) hsame
    obtain ⟨hspans, hfreed⟩ := h.send.handleRequestPacket hearlier hlast (by decide) hdata latestSendTime rttTime now
    refine ⟨acked, h.replace_send hspans hb fun n hn hn' hsend => ?_⟩
    rcases hfreed n (by omega) hsend with hkept | hhad
    · exact .inl hkept
    · rcases hold n (by omega) hhad with hlt | hrecv
      · omega
      · exact .inr hrecv
  | extend => exact ⟨acked, h.writer_receives _ _⟩
  | take => exact ⟨acked, h.writer_receives _ _⟩
  | deliver => exact ⟨acked, h.writer_receives _ _⟩
  | lose => exact ⟨acked, h.writer_receives _ _⟩

end

/-! ### The reader acts -/

section

variable (h : Flow writer reader acked stop)
include h

/-- What the reader sends as a writer of its own stream does not matter here. -/
theorem reader_sends (send : PacketsArray) (numbers : List UInt32) (written : List Bytes) :
    Flow writer { reader with send := send, numbers := numbers, written := written } acked stop :=
  ⟨h.numbered, h.lossless, h.send, h.recv, h.acked_le, h.stop_le, h.delivered, h.held, h.out, h.back⟩

/-- The reader sends a plain text; if it is a request, it was made from the receive array. -/
theorem emit_back (num : UInt32) (hhead : data.head? = some packetId) (hpadding : packetId ≠ packetIdPadding)
    (hrequest : packetId = packetIdRequest → generateRequestPacket maxCryptoDataSize reader.recv = some data) :
    Flow writer (reader.emit num data) acked stop where
  numbered := h.numbered
  lossless := h.lossless
  send := h.send
  recv := h.recv
  acked_le := h.acked_le
  stop_le := h.stop_le
  delivered := h.delivered
  held := h.held
  out := h.out
  back plain hplain := by
    rcases mem_append.mp hplain with hold | hnew
    · exact h.back plain hold
    · rw [mem_singleton.mp hnew]
      refine ⟨reader.delivered.length, le_refl _, ?_, ?_⟩
      · rw [plainBufferStart_plainData, h.recv.start]
      · rw [plainRealData_plainData _ _ hhead hpadding, hhead]
        rintro ⟨⟩
        exact ⟨reader.recv, stop, h.recv, h.stop_le, hrequest rfl, fun n _ hholds => .inr hholds⟩

/-- The reader changes its receive array and loses no payload that is not delivered. -/
theorem replace_recv {stop' : ℕ} (hspans : recv.Spans writer.written reader.delivered.length stop')
    (hstop : stop' ≤ writer.written.length)
    (hholds : ∀ n, n < 2 ^ 31 → reader.recv.Holds (UInt32.ofNat n) → recv.Holds (UInt32.ofNat n)) :
    Flow writer { reader with recv := recv } acked stop' where
  numbered := h.numbered
  lossless := h.lossless
  send := h.send
  recv := hspans
  acked_le := h.acked_le
  stop_le := hstop
  delivered := h.delivered
  held n hn hn' := (h.held n hn hn').imp_right (hholds n (hn'.trans h.small))
  out := h.out
  back plain hplain := by
    obtain ⟨b, hb, hstart, hrequest⟩ := h.back plain hplain
    refine ⟨b, hb, hstart, fun hreq => ?_⟩
    obtain ⟨earlier, last, hearlier, hlast, hdata, hold⟩ := hrequest hreq
    exact ⟨earlier, last, hearlier, hlast, hdata, fun n hn hhad => (hold n hn hhad).imp_right (hholds n hn)⟩

/-- The numbers in flight lie within the receive buffer. -/
theorem written_le : writer.written.length ≤ reader.delivered.length + cryptoPacketBufferSize := by
  have hlength := h.send.length_le
  have hacked := h.acked_le
  omega

/-- The reader puts a payload that arrived in its receive array. -/
theorem take {plain : Bytes} (hplain : plain ∈ writer.outbox) (hhead : (plainRealData plain).head? = some packetId)
    (hlossless : IsLossless packetId)
    (hadd : addDataToBuffer true reader.recv (plainNum plain) ⟨0, plainRealData plain⟩ = some recv) :
    ∃ stop', Flow writer { reader with recv := recv } acked stop' := by
  have hwritten := h.small
  have hrange := h.written_le
  have hstop := h.stop_le
  obtain ⟨n, -, hnum, hdata | ⟨packetId', hhead', hother⟩⟩ := h.out plain hplain
  · have hn : n < writer.written.length := (List.getElem?_eq_some_iff.mp hdata).1
    rw [hnum] at hadd
    obtain ⟨-, hspans, -, hholds⟩ := h.recv.addDataToBuffer (by omega) (by omega) hdata hadd
    exact ⟨max stop (n + 1), h.replace_recv hspans (by omega) hholds⟩
  · obtain rfl := Option.some_inj.mp (hhead.symm.trans hhead')
    rcases hother with hrequest | hlossy
    · exact absurd hrequest hlossless.ne_request
    · exact absurd hlossy hlossless.not_isLossy

/-- The reader hands the first payload of its receive array to the application: it is the next one written. -/
theorem deliver {packet : PacketData} (hread : readDataBegBuffer reader.recv = some (num, packet, recv)) :
    Flow writer { reader with recv := recv, delivered := reader.delivered ++ [packet.data] } acked stop := by
  have hlength : (reader.delivered ++ [packet.data]).length = reader.delivered.length + 1 := by simp
  have hwritten := h.small
  obtain ⟨-, hlt, hnext, hspans, hholds⟩ := h.recv.readDataBegBuffer hread
  have hkept {n : ℕ} (hn : n < 2 ^ 31) (hrecv : reader.recv.Holds (UInt32.ofNat n)) :
      n < reader.delivered.length + 1 ∨ recv.Holds (UInt32.ofNat n) := by
    rcases Nat.lt_or_ge n (reader.delivered.length + 1) with hold | hnew
    · exact .inl hold
    · exact .inr (hholds n hnew hn hrecv)
  refine ⟨h.numbered, h.lossless, h.send, ?_, ?_, h.stop_le, ?_, ?_, h.out, ?_⟩
  · simp only [hlength]
    exact hspans
  · simp only [hlength]
    exact Nat.le_succ_of_le h.acked_le
  · obtain ⟨rest, hrest⟩ := h.delivered
    simp only
    rw [← hrest, getElem?_append_right (le_refl _), Nat.sub_self] at hnext
    rw [← head?_eq_getElem?] at hnext
    obtain ⟨tail, rfl⟩ := head?_eq_some_iff.mp hnext
    exact ⟨tail, by rw [← hrest, append_assoc, singleton_append]⟩
  · intro n hn hn'
    simp only [hlength] at hn
    rcases h.held n (by omega) hn' with hsend | hrecv
    · exact .inl hsend
    · exact .inr ((hkept (hn'.trans hwritten) hrecv).resolve_left (by omega))
  · intro plain hplain
    obtain ⟨b, hb, hstart, hrequest⟩ := h.back plain hplain
    simp only [hlength]
    refine ⟨b, Nat.le_succ_of_le hb, hstart, fun hreq => ?_⟩
    obtain ⟨earlier, last, hearlier, hlast, hdata, hold⟩ := hrequest hreq
    refine ⟨earlier, last, hearlier, hlast, hdata, fun n hn hhad => ?_⟩
    rcases hold n hn hhad with hlt' | hrecv
    · exact .inl (Nat.lt_succ_of_lt hlt')
    · exact hkept hn hrecv

/-- What the reader does keeps the invariant, if what it sends as a writer is lossless. -/
theorem reader_acts {acked' stop' : ℕ} (hown : Flow reader writer acked' stop') {reader' : Endpoint}
    (hacts : Endpoint.Acts writer.outbox reader reader') : ∃ stop', Flow writer reader' acked stop' := by
  have hwritten := h.small
  cases hacts with
  | append => exact ⟨stop, h.reader_sends _ _ _⟩
  | transmit hget =>
    obtain ⟨-, packetId, -, -, -, hhead, hlossless⟩ := hown.stored hget
    exact ⟨stop, h.emit_back _ hhead hlossless.ne_padding fun hreq => absurd hreq hlossless.ne_request⟩
  | mark => exact ⟨stop, h.reader_sends _ _ _⟩
  | request hdata =>
    obtain ⟨rest, rfl⟩ := generateRequestPacket_head hdata
    exact ⟨stop, h.emit_back _ rfl (by decide) fun _ => hdata⟩
  | lossy hhead hlossy =>
    exact ⟨stop, h.emit_back _ hhead hlossy.ne_padding fun hreq => absurd hreq hlossy.ne_request⟩
  | acknowledge => exact ⟨stop, h.reader_sends _ _ _⟩
  | handleRequest => exact ⟨stop, h.reader_sends _ _ _⟩
  | @extend plain recv hplain hset =>
    obtain ⟨n, hn, hnum, -⟩ := h.out plain hplain
    rw [hnum] at hset
    obtain ⟨-, hspans, hholds⟩ := h.recv.setBufferEnd (by omega) hset
    exact ⟨n, h.replace_recv hspans hn hholds⟩
  | take hplain hhead hlossless hadd => exact h.take hplain hhead hlossless hadd
  | deliver hread => exact ⟨stop, h.deliver hread⟩
  | lose hread =>
    obtain ⟨hlast, -⟩ := h.recv.readDataBegBuffer hread
    have hdelivered := h.delivered.length_le
    have hvalue : 4294967295 = (UInt32.ofNat reader.delivered.length).toNat := congrArg UInt32.toNat hlast
    rw [toNat_ofNat (by omega)] at hvalue
    omega

end

end Flow

/-! ## Both directions -/

/-- The invariant of two endpoints, for as long as the numbers of both streams are small. -/
def Linked (a b : Endpoint) : Prop :=
  a.written.length < 2 ^ 31 → b.written.length < 2 ^ 31 →
    (∃ acked stop, Flow a b acked stop) ∧ ∃ acked stop, Flow b a acked stop

theorem Linked.symm (h : Linked a b) : Linked b a := fun hb ha => (h ha hb).symm

/-- Nothing an endpoint does makes its stream shorter. -/
theorem Endpoint.Acts.written_le {inbox : List Bytes} {e e' : Endpoint} (h : Endpoint.Acts inbox e e') :
    e.written.length ≤ e'.written.length := by
  cases h with
  | append => simp
  | transmit | mark | request | lossy | acknowledge | handleRequest | extend | take | deliver | lose => exact le_refl _

/-- Unused endpoints are linked. -/
theorem Linked.fresh : Linked .fresh .fresh := by
  have hflow : Flow .fresh .fresh 0 0 :=
    ⟨rfl, nofun, PacketsArray.emptyAt_spans _, PacketsArray.emptyAt_spans _, le_refl _, le_refl _, prefix_refl _,
      fun n _ hn => absurd hn (Nat.not_lt_zero n), nofun, nofun⟩
  exact fun _ _ => ⟨⟨0, 0, hflow⟩, 0, 0, hflow⟩

/-- Whatever one endpoint does, they stay linked. -/
theorem Linked.acts {a' : Endpoint} (h : Linked a b) (hacts : Endpoint.Acts b.outbox a a') : Linked a' b := by
  intro ha' hb
  obtain ⟨⟨acked, stop, hout⟩, acked', stop', hback⟩ := h (hacts.written_le.trans_lt ha') hb
  obtain ⟨acked₁, hout₁⟩ := hout.writer_acts hacts ha'
  obtain ⟨stop₁, hback₁⟩ := hback.reader_acts hout hacts
  exact ⟨⟨acked₁, stop, hout₁⟩, acked', stop₁, hback₁⟩

/-- A whole call of the code does several of these things. -/
theorem Linked.run {a' : Endpoint} (h : Linked a b) (hrun : Relation.ReflTransGen (Endpoint.Acts b.outbox) a a') :
    Linked a' b := by
  induction hrun with
  | refl => exact h
  | tail _ hacts ih => exact ih.acts hacts

/-- What linked endpoints promise: the payloads delivered are the first ones written, and every other one is still
found in one of the two arrays under its own number. -/
theorem Linked.reliable (h : Linked a b) (ha : a.written.length < 2 ^ 31) (hb : b.written.length < 2 ^ 31) :
    b.delivered <+: a.written ∧
      ∀ n num, b.delivered.length ≤ n → a.numbers[n]? = some num →
        ∃ packet, a.written[n]? = some packet.data ∧
          (getDataPointer a.send num = some (some packet) ∨ getDataPointer b.recv num = some (some packet)) := by
  obtain ⟨⟨acked, stop, hflow⟩, -⟩ := h ha hb
  refine ⟨hflow.delivered, fun n num hn hnum => ?_⟩
  rw [hflow.numbered, getElem?_map, Option.map_eq_some_iff] at hnum
  obtain ⟨m, hm, rfl⟩ := hnum
  obtain ⟨hn', rfl⟩ := List.getElem?_eq_some_iff.mp hm
  rw [length_range] at hn'
  rw [getElem_range]
  rcases hflow.held n hn hn' with hsend | hrecv
  · obtain ⟨packet, hget, hdata⟩ := hflow.send.get_of_holds (by omega) hsend
    exact ⟨packet, hdata, .inl hget⟩
  · obtain ⟨packet, hget, hdata⟩ := hflow.recv.get_of_holds (by omega) hrecv
    exact ⟨packet, hdata, .inr hget⟩

end Toxcore
