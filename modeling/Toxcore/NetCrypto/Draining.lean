import Toxcore.NetCrypto.PacketsArrayRuns
import Toxcore.NetCrypto.Receiving

/-!
# Draining the receive array

Behind every lossless packet that is stored, the packets at the start of the receive array go to the
application. The packet number comes back from `read_data_beg_buffer` as an `int64_t` and is kept in an
`int`, where the number `2 ^ 32 - 1` is the failure value: that packet is taken out of the array and
handed to nobody.
-/

namespace Toxcore

open ByteStrings RingWindow List

/-! ## The packets at the start of an array -/

/-- The packets held under some numbers, in the order of the numbers. -/
def packetsUnder (array : PacketsArray) (ns : List UInt32) : List PacketData :=
  ns.filterMap fun number => array.buffer (packetSlot number)

/-- The first number of an array without a packet, or the end of the array. -/
def firstMissing (array : PacketsArray) : UInt32 :=
  ((window array.bufferStart array.bufferEnd).find? fun number =>
    (array.buffer (packetSlot number)).isNone).getD array.bufferEnd

/-- The numbers of an array whose packet is gone in another one. -/
def removedNumbers (before after : PacketsArray) : List UInt32 :=
  (window before.bufferStart before.bufferEnd).filter fun number =>
    (before.buffer (packetSlot number)).isSome && (after.buffer (packetSlot number)).isNone

/-- The numbers at the start of an array that have a packet, up to the first one that has none. -/
def leadingNumbers (array : PacketsArray) : List UInt32 :=
  (window array.bufferStart array.bufferEnd).takeWhile fun number => (array.buffer (packetSlot number)).isSome

/-- The numbers the loop hands on: those in front of the number that reads as a failure. -/
def servedNumbers (array : PacketsArray) : List UInt32 := (leadingNumbers array).takeWhile (· ≠ 0 - 1)

/-- The numbers the loop takes out: the served ones, and the one that reads as a failure behind them. -/
def takenNumbers (array : PacketsArray) : List UInt32 :=
  if 0 - 1 ∈ leadingNumbers array then servedNumbers array ++ [0 - 1] else servedNumbers array

/-- Predicates that agree on a list take the same front of it. -/
theorem takeWhile_congr_mem {β : Type} {p q : β → Bool} {l : List β} (h : ∀ x ∈ l, p x = q x) :
    l.takeWhile p = l.takeWhile q := by
  induction l with
  | nil => rfl
  | cons x l ih =>
    rw [takeWhile_cons, takeWhile_cons, h x mem_cons_self,
      ih fun y hy => h y (mem_cons_of_mem _ hy)]

/-- The window of a nonempty array starts with its first number. -/
theorem window_cons {start stop : UInt32} (h : start ≠ stop) :
    window start stop = start :: window (start + 1) stop := by
  rw [window, window, ← offset_start_succ h, numbers]

theorem window_self (start : UInt32) : window start start = [] := by
  rw [window, offset_self, numbers]

variable {number : UInt32} {array : PacketsArray}

/-- The later numbers of a window have other slots than the first one. -/
theorem packetSlot_ne_start {start stop : UInt32} (hlength : offset start stop ≤ cryptoPacketBufferSize)
    (hne : start ≠ stop) (hmem : number ∈ window (start + 1) stop) : packetSlot number ≠ packetSlot start := by
  have hin : number ∈ window start stop := by
    rw [window_cons hne]
    exact mem_cons_of_mem _ hmem
  intro hslot
  have hsame : number = start := by
    apply packetSlot_inj ((mem_window.mp hin).trans_le hlength) _ hslot
    rw [offset_self]
    norm_num
  have hnodup : (window start stop).Nodup := numbers_nodup start (offset_lt start stop).le
  rw [window_cons hne, nodup_cons] at hnodup
  exact hnodup.1 (hsame ▸ hmem)

/-- What taking the first packet out does to an array. -/
theorem readDataBegBuffer_eq_some {array' : PacketsArray} {packet : PacketData}
    (h : readDataBegBuffer array = some (number, packet, array')) :
    array.bufferStart ≠ array.bufferEnd ∧ number = array.bufferStart ∧
      array.buffer (packetSlot array.bufferStart) = some packet ∧
      array' = { array with
        buffer := Function.update array.buffer (packetSlot array.bufferStart) none
        bufferStart := array.bufferStart + 1 } := by
  unfold readDataBegBuffer at h
  split at h
  · contradiction
  · rename_i hne
    dsimp only at h
    split at h
    · contradiction
    · rename_i data hdata
      obtain ⟨rfl, rfl, rfl⟩ : array.bufferStart = number ∧ data = packet ∧ _ = array' := by simpa using h
      exact ⟨fun heq => hne heq.symm, rfl, hdata, rfl⟩

/-- Where nothing can be taken out, no packet is at the start. -/
theorem leadingNumbers_eq_nil (h : readDataBegBuffer array = none) : leadingNumbers array = [] := by
  unfold readDataBegBuffer at h
  split at h
  · rename_i hempty
    rw [leadingNumbers, hempty, window_self, takeWhile_nil]
  · rename_i hne
    dsimp only at h
    split at h
    · rename_i hslot
      rw [leadingNumbers, window_cons fun heq => hne heq.symm, takeWhile_cons, hslot]
      rfl
    · contradiction

/-- The leading numbers are the front of the window. -/
theorem leadingNumbers_front (array : PacketsArray) :
    leadingNumbers array <+: window array.bufferStart array.bufferEnd :=
  takeWhile_prefix _

/-- The served numbers are the first of the leading ones. -/
theorem servedNumbers_front (array : PacketsArray) : servedNumbers array <+: leadingNumbers array :=
  takeWhile_prefix _

/-- A list up to a member of it, the member included, is a front of the list. -/
theorem takeWhile_ne_front {β : Type} [DecidableEq β] {l : List β} {x : β} (h : x ∈ l) :
    l.takeWhile (· ≠ x) ++ [x] <+: l := by
  induction l with
  | nil => contradiction
  | cons y l ih =>
    by_cases hy : y = x
    · simp [hy]
    · have hmem : x ∈ l := (mem_cons.mp h).resolve_left fun heq => hy heq.symm
      rw [takeWhile_cons_of_pos (by simpa using hy), cons_append]
      exact (prefix_cons_inj y).mpr (ih hmem)

/-- The taken numbers are the first of the leading ones. -/
theorem takenNumbers_front (array : PacketsArray) : takenNumbers array <+: leadingNumbers array := by
  unfold takenNumbers
  split
  · rename_i hmem
    exact takeWhile_ne_front hmem
  · exact servedNumbers_front array

/-- Every leading number has a packet. -/
theorem leadingNumbers_held (h : number ∈ leadingNumbers array) : (array.buffer (packetSlot number)).isSome :=
  all_eq_true.mp all_takeWhile number h

/-- As many packets are under leading numbers as there are numbers. -/
theorem packetsUnder_length {ns : List UInt32} (h : ns <+: leadingNumbers array) :
    (packetsUnder array ns).length = ns.length := by
  rw [packetsUnder, length_filterMap_eq_countP, countP_eq_length]
  intro number hnumber
  exact leadingNumbers_held (h.subset hnumber)

section TakingOut

variable {array array' : PacketsArray} {number : UInt32} {packet : PacketData}
  (hlength : numPacketsArray array ≤ cryptoPacketBufferSize)
  (hread : readDataBegBuffer array = some (number, packet, array'))

include hread in
/-- One number less is in the array. -/
theorem numPacketsArray_read : numPacketsArray array' + 1 = numPacketsArray array := by
  obtain ⟨hne, -, -, rfl⟩ := readDataBegBuffer_eq_some hread
  exact offset_start_succ hne

include hlength hread

/-- The packets behind the one taken out stay. -/
theorem buffer_read (other : UInt32) (hmem : other ∈ window (array.bufferStart + 1) array.bufferEnd) :
    array'.buffer (packetSlot other) = array.buffer (packetSlot other) := by
  obtain ⟨hne, -, -, rfl⟩ := readDataBegBuffer_eq_some hread
  exact Function.update_of_ne (packetSlot_ne_start hlength hne hmem) _ _

/-- The leading numbers lose the first one. -/
theorem leadingNumbers_read : leadingNumbers array = array.bufferStart :: leadingNumbers array' := by
  have hkept := buffer_read hlength hread
  obtain ⟨hne, -, hslot, rfl⟩ := readDataBegBuffer_eq_some hread
  rw [leadingNumbers, window_cons hne, takeWhile_cons_of_pos (by rw [hslot]; rfl), leadingNumbers]
  congr 1
  apply takeWhile_congr_mem
  intro other hother
  rw [hkept other hother]

/-- The packets under later leading numbers stay. -/
theorem packetsUnder_read {ns : List UInt32} (hns : ns <+: leadingNumbers array') :
    packetsUnder array' ns = packetsUnder array ns := by
  have hkept := buffer_read hlength hread
  obtain ⟨-, -, -, rfl⟩ := readDataBegBuffer_eq_some hread
  apply filterMap_congr
  intro other hother
  exact hkept other ((leadingNumbers_front _).subset (hns.subset hother))

end TakingOut

/-! ## What the loop leaves -/

/-- The array without the numbers the loop takes out. -/
def drained (array : PacketsArray) : PacketsArray :=
  { array with
    buffer := clearSlots array.buffer (takenNumbers array)
    bufferStart := array.bufferStart + UInt32.ofNat (takenNumbers array).length }

/-- An array without a packet at the start is left as it is. -/
theorem drained_of_stop (h : readDataBegBuffer array = none) : servedNumbers array = [] ∧ drained array = array := by
  have hserved : servedNumbers array = [] := by rw [servedNumbers, leadingNumbers_eq_nil h, takeWhile_nil]
  have htaken : takenNumbers array = [] := by
    rw [takenNumbers, leadingNumbers_eq_nil h, if_neg not_mem_nil, hserved]
  refine ⟨hserved, ?_⟩
  rw [drained, htaken]
  simp [clearSlots]

section Draining

variable {array array' : PacketsArray} {number : UInt32} {packet : PacketData}
  (hlength : numPacketsArray array ≤ cryptoPacketBufferSize)
  (hread : readDataBegBuffer array = some (number, packet, array'))

include hlength hread

/-- The number that reads as a failure ends the loop behind its packet. -/
theorem drained_of_last (hlast : number = 0 - 1) : servedNumbers array = [] ∧ drained array = array' := by
  have hleading := leadingNumbers_read hlength hread
  obtain ⟨-, rfl, -, rfl⟩ := readDataBegBuffer_eq_some hread
  have hserved : servedNumbers array = [] := by
    rw [servedNumbers, hleading, hlast, takeWhile_cons_of_neg (by simp)]
  have htaken : takenNumbers array = [array.bufferStart] := by
    rw [takenNumbers, hleading, if_pos (by rw [hlast]; exact mem_cons_self), hserved, hlast]
    rfl
  refine ⟨hserved, ?_⟩
  rw [drained, htaken]
  rfl

/-- Any other number is served, and the loop goes on with the rest. -/
theorem drained_of_next (hnext : number ≠ 0 - 1) :
    servedNumbers array = number :: servedNumbers array' ∧ drained array = drained array' := by
  have hleading := leadingNumbers_read hlength hread
  obtain ⟨-, rfl, -, harray'⟩ := readDataBegBuffer_eq_some hread
  have hserved : servedNumbers array = array.bufferStart :: servedNumbers array' := by
    rw [servedNumbers, hleading, takeWhile_cons_of_pos (by simpa using hnext)]
    rfl
  have htaken : takenNumbers array = array.bufferStart :: takenNumbers array' := by
    have hmem : 0 - 1 ∈ leadingNumbers array ↔ 0 - 1 ∈ leadingNumbers array' := by
      rw [hleading, mem_cons, or_iff_right fun heq => hnext heq.symm]
    simp only [takenNumbers, hmem, hserved]
    split <;> rfl
  refine ⟨hserved, ?_⟩
  rw [drained, drained, htaken, harray']
  simp only [PacketsArray.mk.injEq, and_true]
  refine ⟨rfl, ?_⟩
  rw [length_cons, UInt32.ofNat_add, UInt32.add_comm (UInt32.ofNat _), ← UInt32.add_assoc]
  rfl

end Draining

/-- The taken numbers are the removed ones. -/
theorem removedNumbers_drained (hlength : numPacketsArray array ≤ cryptoPacketBufferSize) :
    removedNumbers array (drained array) = takenNumbers array := by
  obtain ⟨rest, hrest⟩ := (takenNumbers_front array).trans (leadingNumbers_front array)
  have hnodup : (takenNumbers array ++ rest).Nodup := by
    rw [hrest]
    exact numbers_nodup _ (offset_lt _ _).le
  have hgone {number : UInt32} (hnumber : number ∈ window array.bufferStart array.bufferEnd) :
      ((array.buffer (packetSlot number)).isSome && ((drained array).buffer (packetSlot number)).isNone) = true ↔
        number ∈ takenNumbers array := by
    have hslot : packetSlot number ∈ (takenNumbers array).map packetSlot ↔ number ∈ takenNumbers array := by
      refine ⟨fun h => ?_, mem_map_of_mem⟩
      obtain ⟨other, hother, heq⟩ := mem_map.mp h
      have hin : other ∈ window array.bufferStart array.bufferEnd := hrest ▸ mem_append_left rest hother
      have hsame : other = number := packetSlot_inj ((mem_window.mp hin).trans_le hlength)
        ((mem_window.mp hnumber).trans_le hlength) heq
      exact hsame ▸ hother
    have hdrained : (drained array).buffer = clearSlots array.buffer (takenNumbers array) := rfl
    rw [hdrained, clearSlots_apply, Bool.and_eq_true]
    by_cases hmem : number ∈ takenNumbers array
    · rw [if_pos (hslot.mpr hmem)]
      exact ⟨fun _ => hmem, fun _ => ⟨leadingNumbers_held ((takenNumbers_front array).subset hmem), rfl⟩⟩
    · rw [if_neg fun h => hmem (hslot.mp h)]
      refine ⟨fun ⟨hsome, hnone⟩ => ?_, fun h => absurd h hmem⟩
      rw [Option.isNone_iff_eq_none.mp hnone] at hsome
      contradiction
  rw [removedNumbers, ← hrest, filter_append, filter_eq_self.mpr, filter_eq_nil_iff.mpr,
    append_nil]
  · intro number hnumber hgone'
    have hin : number ∈ window array.bufferStart array.bufferEnd := hrest ▸ mem_append_right _ hnumber
    exact disjoint_of_nodup_append hnodup ((hgone hin).mp hgone') hnumber
  · intro number hnumber
    have hin : number ∈ window array.bufferStart array.bufferEnd := hrest ▸ mem_append_left rest hnumber
    exact (hgone hin).mpr hnumber

/-- Counting up past the numbers with a packet reaches the first one without. -/
theorem find_numbers (buffer : Fin cryptoPacketBufferSize → Option PacketData) (first : UInt32) (count : ℕ) :
    ((numbers first count).find? fun number => (buffer (packetSlot number)).isNone).getD
        (first + UInt32.ofNat count) =
      first + UInt32.ofNat
        ((numbers first count).takeWhile fun number => (buffer (packetSlot number)).isSome).length := by
  induction count generalizing first with
  | zero => rfl
  | succ count ih =>
    cases hslot : buffer (packetSlot first) with
    | none => simp [numbers, hslot]
    | some packet =>
      rw [numbers, find?_cons_of_neg (by simp [hslot]), takeWhile_cons_of_pos (by simp [hslot]),
        length_cons, UInt32.ofNat_add, UInt32.ofNat_add, UInt32.add_comm (UInt32.ofNat count),
        ← UInt32.add_assoc, UInt32.add_comm (UInt32.ofNat (List.length _)), ← UInt32.add_assoc]
      exact ih (first + 1)

/-- The first missing number lies behind the leading ones. -/
theorem firstMissing_eq (array : PacketsArray) :
    firstMissing array = array.bufferStart + UInt32.ofNat (leadingNumbers array).length := by
  have hend : array.bufferEnd = array.bufferStart + UInt32.ofNat (offset array.bufferStart array.bufferEnd) := by
    rw [offset, UInt32.ofNat_toNat, UInt32.add_comm, UInt32.sub_add_cancel]
  have h := find_numbers array.buffer array.bufferStart (offset array.bufferStart array.bufferEnd)
  rw [← hend] at h
  exact h

/-! ## The loop -/

namespace NetCrypto

variable {α : Type} {callbacks : Callbacks α}

/-- The callbacks of an application that also notes what its data callback is called with. The loop calls no other
one. -/
def logged (callbacks : Callbacks α) : Callbacks (α × List Bytes) :=
  { Callbacks.unset with
    connectionData := fun w id data =>
      let called := callbacks.connectionData ⟨w.net, w.app.1⟩ id data
      ⟨called.net, called.app, w.app.2 ++ [data]⟩ }

/-- The data callback neither kills the connection nor has packets received for it meanwhile. -/
def KeepsReceiving (callbacks : Callbacks α) (id : ℕ) : Prop :=
  ∀ w conn data, w.net.getCryptoConnection id = some conn →
    ∃ conn', (callbacks.connectionData w id data).net.getCryptoConnection id = some conn' ∧
      conn'.recvArray = conn.recvArray

/-- The loop behind a stored packet loses nothing: it ends with the connection alive, it called the data
callback once, in order, for every packet that left the array, and it stopped at the first missing number. -/
def DrainsInOrder (callbacks : Callbacks α) (w : World α) (id : ℕ) (conn : CryptoConnection) : Prop :=
  ∃ w' conn' calls, deliverLoop callbacks (numPacketsArray conn.recvArray + 1) w id = (true, w') ∧
    deliverLoop (logged callbacks) (numPacketsArray conn.recvArray + 1) ⟨w.net, w.app, []⟩ id =
      (true, ⟨w'.net, w'.app, calls⟩) ∧
    w'.net.getCryptoConnection id = some conn' ∧
    calls = (packetsUnder conn.recvArray (removedNumbers conn.recvArray conn'.recvArray)).map PacketData.data ∧
    conn'.recvArray.bufferStart = firstMissing conn.recvArray ∧
    conn'.recvArray.bufferEnd = conn.recvArray.bufferEnd

/-- What the loop does, whatever the numbers are. -/
theorem deliverLoop_spec {id : ℕ} (hcallback : KeepsReceiving callbacks id) {fuel : ℕ} {w : World α}
    {conn : CryptoConnection} (hconn : w.net.getCryptoConnection id = some conn)
    (hlength : numPacketsArray conn.recvArray ≤ cryptoPacketBufferSize)
    (hfuel : numPacketsArray conn.recvArray < fuel) (calls : List Bytes) :
    ∃ w' conn', deliverLoop callbacks fuel w id = (true, w') ∧
      deliverLoop (logged callbacks) fuel ⟨w.net, w.app, calls⟩ id = (true, ⟨w'.net, w'.app,
        calls ++ (packetsUnder conn.recvArray (servedNumbers conn.recvArray)).map PacketData.data⟩) ∧
      w'.net.getCryptoConnection id = some conn' ∧ conn'.recvArray = drained conn.recvArray := by
  induction fuel generalizing w conn calls with
  | zero => omega
  | succ fuel ih =>
    unfold deliverLoop
    rw [hconn]
    dsimp only
    cases hread : readDataBegBuffer conn.recvArray with
    | none =>
      obtain ⟨hserved, hdrained⟩ := drained_of_stop hread
      exact ⟨w, conn, rfl, by rw [hserved]; simp [packetsUnder], hconn, hdrained.symm⟩
    | some result =>
      obtain ⟨number, packet, recvArray⟩ := result
      dsimp only
      have hwrite : (w.write id { conn with recvArray := recvArray }).net.getCryptoConnection id =
          some { conn with recvArray := recvArray } :=
        World.write_get (getCryptoConnection_eq_some.mp hconn).1 (getCryptoConnection_eq_some.mp hconn).2
      by_cases hlast : number = 0 - 1
      · obtain ⟨hserved, hdrained⟩ := drained_of_last hlength hread hlast
        rw [if_pos hlast, if_pos hlast, hserved]
        exact ⟨_, _, rfl, by simp [packetsUnder, World.write], hwrite, hdrained.symm⟩
      · obtain ⟨hserved, hdrained⟩ := drained_of_next hlength hread hlast
        obtain ⟨called, hcalled, hrecv⟩ := hcallback _ _ packet.data hwrite
        have hless := numPacketsArray_read hread
        have hfront := servedNumbers_front recvArray
        have hkept := packetsUnder_read hlength hread hfront
        obtain ⟨-, hnumber, hslot, -⟩ := readDataBegBuffer_eq_some hread
        dsimp only at hrecv
        obtain ⟨w', conn', hloop, hlogged, hconn', harray⟩ :=
          ih hcalled (by rw [hrecv]; omega) (by rw [hrecv]; omega) (calls ++ [packet.data])
        rw [hrecv] at hlogged harray
        have hfirst : packetsUnder conn.recvArray (conn.recvArray.bufferStart :: servedNumbers recvArray) =
            packet :: packetsUnder conn.recvArray (servedNumbers recvArray) :=
          filterMap_cons_some hslot
        rw [if_neg hlast, if_neg hlast, hloop, hserved, hdrained, hnumber, hfirst]
        refine ⟨w', conn', rfl, ?_, hconn', harray⟩
        rw [hkept, append_assoc] at hlogged
        exact hlogged

/-- The loop hands on everything it takes out, in order, and stops at the first missing number, exactly
where no packet at the start of the array has the number that an `int` cannot tell from a failure. -/
theorem deliverLoop_drainsInOrder_iff {id : ℕ} (hcallback : KeepsReceiving callbacks id) {w : World α}
    {conn : CryptoConnection} (hconn : w.net.getCryptoConnection id = some conn)
    (hlength : numPacketsArray conn.recvArray ≤ cryptoPacketBufferSize) :
    DrainsInOrder callbacks w id conn ↔ 0 - 1 ∉ leadingNumbers conn.recvArray := by
  obtain ⟨w', conn', hloop, hlogged, hconn', harray⟩ :=
    deliverLoop_spec hcallback hconn hlength (Nat.lt_succ_self _) []
  constructor
  · rintro ⟨w'', conn'', calls, hloop', hlogged', hconn'', hcalls, -, -⟩ hmem
    obtain rfl : w' = w'' := (Prod.mk.inj (hloop.symm.trans hloop')).2
    obtain rfl : conn' = conn'' := Option.some_inj.mp (hconn'.symm.trans hconn'')
    have hserved : (packetsUnder conn.recvArray (servedNumbers conn.recvArray)).map PacketData.data = calls :=
      congrArg (fun result => result.2.app.2) (hlogged.symm.trans hlogged')
    have hlengths := congrArg List.length (hserved.trans hcalls)
    rw [harray, removedNumbers_drained hlength, length_map, length_map,
      packetsUnder_length (servedNumbers_front _), packetsUnder_length (takenNumbers_front _), takenNumbers,
      if_pos hmem, length_append] at hlengths
    simp at hlengths
  · intro hmem
    have hserved : servedNumbers conn.recvArray = leadingNumbers conn.recvArray := by
      rw [servedNumbers, takeWhile_eq_self_iff]
      intro number hnumber
      have hne : number ≠ 0 - 1 := by
        rintro rfl
        exact hmem hnumber
      simpa using hne
    have htaken : takenNumbers conn.recvArray = leadingNumbers conn.recvArray := by
      rw [takenNumbers, if_neg hmem, hserved]
    refine ⟨w', conn', _, hloop, hlogged, hconn', ?_, ?_, ?_⟩
    · rw [harray, removedNumbers_drained hlength, htaken, hserved, nil_append]
    · rw [harray, firstMissing_eq, drained, htaken]
    · rw [harray, drained]

/-- Callbacks that are not set keep the connection as it is. -/
theorem keepsReceiving_unset (id : ℕ) : KeepsReceiving (Callbacks.unset : Callbacks α) id :=
  fun _ conn _ hconn => ⟨conn, hconn, rfl⟩

/-- A connection that received the first two of three packets. -/
def receivedTwo (number : UInt32) : CryptoConnection :=
  { CryptoConnection.zero with
    status := .established
    recvArray := ⟨fun k => if k = packetSlot number then some ⟨0, [32]⟩
      else if k = packetSlot (number + 1) then some ⟨0, [33]⟩ else none, number, number + 3⟩ }

/-- A node with such a connection. -/
def receivedTwoWorld (number : UInt32) : World Unit where
  net :=
    { NetCrypto.new ⟨List.Vector.replicate 32 1, List.Vector.replicate 32 1, fun _ => .zero⟩
        (List.Vector.replicate 32 2) (List.Vector.replicate 32 2) (List.Vector.replicate 32 3) with
      cryptoConnections := [receivedTwo number] }
  app := ()

/-- The packets with the numbers 5 and 6 are taken out and handed on. -/
theorem deliverLoop_drainsInOrder_iff_five :
    (deliverLoop (logged Callbacks.unset) 4 ⟨(receivedTwoWorld 5).net, (), []⟩ 0).2.app.2 = [[32], [33]] ∧
      DrainsInOrder Callbacks.unset (receivedTwoWorld 5) 0 (receivedTwo 5) := by
  refine ⟨by decide +kernel, ?_⟩
  exact (deliverLoop_drainsInOrder_iff (keepsReceiving_unset 0) rfl (by decide +kernel)).mpr (by decide +kernel)

/-- The packet with the number `2 ^ 32 - 1` is taken out and handed to nobody, and the one behind it waits. -/
theorem last_number_dropped :
    numPacketsArray (receivedTwo (0 - 1)).recvArray = 3 ∧
      (receivedTwoWorld (0 - 1)).net.getCryptoConnection 0 = some (receivedTwo (0 - 1)) ∧
      KeepsReceiving (Callbacks.unset : Callbacks Unit) 0 ∧
      removedNumbers (receivedTwo (0 - 1)).recvArray (drained (receivedTwo (0 - 1)).recvArray) = [0 - 1] ∧
      (deliverLoop (logged Callbacks.unset) 4 ⟨(receivedTwoWorld (0 - 1)).net, (), []⟩ 0).2.app.2 = [] ∧
      ¬DrainsInOrder Callbacks.unset (receivedTwoWorld (0 - 1)) 0 (receivedTwo (0 - 1)) := by
  have hlength : numPacketsArray (receivedTwo (0 - 1)).recvArray = 3 := by decide +kernel
  have hcalls : (deliverLoop (logged Callbacks.unset) 4 ⟨(receivedTwoWorld (0 - 1)).net, (), []⟩ 0).2.app.2 = [] := by
    decide +kernel
  have hremoved : removedNumbers (receivedTwo (0 - 1)).recvArray
      (drained (receivedTwo (0 - 1)).recvArray) = [0 - 1] := by decide +kernel
  refine ⟨hlength, rfl, keepsReceiving_unset 0, hremoved, hcalls, ?_⟩
  have hstart : 0 - 1 ∈ leadingNumbers (receivedTwo (0 - 1)).recvArray := by decide +kernel
  intro hdrains
  exact (deliverLoop_drainsInOrder_iff (keepsReceiving_unset 0) rfl
    (by rw [hlength]; norm_num)).mp hdrains hstart

end NetCrypto

end Toxcore
