import Mathlib.Data.UInt
import Toxcore.Messenger.FileCounters
import Toxcore.Messenger.FileSteps

/-!
# A file transfer delivers the file

Positions are not sent with the data: both ends count for themselves. What makes the counts agree is that the packets
on their way, applied to the slot of the receiver as it is, lead it to where the sender is now. A packet that arrives
does not change where they lead, so only what the sender adds has to be looked at.
-/

namespace Toxcore

open ByteStrings Relation FileTransfers Function List

/-! ## Packets on their way -/

/-- The packets about a transfer that are on their way. -/
abbrev SentPackets := List (Option (Block 32) × SlotPacket)

namespace SentPackets

/-- The slot after all packets arrived. -/
def arriveAll (receiving : Bool) (ft : FileTransfers) (sent : SentPackets) : FileTransfers :=
  sent.foldl (fun ft entry => entry.2.arrive receiving ft) ft

/-- The data on its way. -/
def dataOf (sent : SentPackets) : List Bytes :=
  sent.filterMap fun entry => match entry.2 with
    | .data bytes => some bytes
    | _ => none

/-- The calls of `file_filedata` for each chunk on its way. -/
def heardAll : FileTransfers → SentPackets → List (List (UInt64 × Bytes))
  | _, [] => []
  | ft, (_, p) :: rest =>
    match p with
    | .data bytes => (ft.receiveData bytes).2 :: heardAll (ft.receiveData bytes).1 rest
    | p => heardAll (p.arrive true ft) rest

/-- No request is on its way. -/
def NoRequest (sent : SentPackets) : Prop := ∀ entry ∈ sent, ∀ size fileId, entry.2 ≠ .request size fileId

/-- No packet that kills the transfer is on its way. -/
def NoKill (sent : SentPackets) : Prop := ∀ entry ∈ sent, ∀ data, entry.2 ≠ .control filecontrolKill data

/-- Only control packets are on their way. -/
def OnlyControls (sent : SentPackets) : Prop := ∀ entry ∈ sent, ∃ controlType data, entry.2 = .control controlType data

variable {sent : SentPackets} {ft ft' : FileTransfers} {entry : Option (Block 32) × SlotPacket}

/-- A packet that is no request is sent. -/
theorem NoRequest.append (h : NoRequest sent) (hentry : ∀ size fileId, entry.2 ≠ .request size fileId) :
    NoRequest (sent ++ [entry]) := by
  intro e he
  obtain he | he := mem_append.mp he
  · exact h e he
  · rwa [mem_singleton.mp he]

theorem NoRequest.tail (h : NoRequest (entry :: sent)) : NoRequest sent := fun e he => h e (mem_cons_of_mem _ he)

/-- A packet that is no kill is sent. -/
theorem NoKill.append (h : NoKill sent) (hentry : ∀ data, entry.2 ≠ .control filecontrolKill data) :
    NoKill (sent ++ [entry]) := by
  intro e he
  obtain he | he := mem_append.mp he
  · exact h e he
  · rwa [mem_singleton.mp he]

theorem NoKill.tail (h : NoKill (entry :: sent)) : NoKill sent := fun e he => h e (mem_cons_of_mem _ he)

theorem OnlyControls.tail (h : OnlyControls (entry :: sent)) : OnlyControls sent :=
  fun e he => h e (mem_cons_of_mem _ he)

@[simp] theorem arriveAll_append (receiving : Bool) (ft : FileTransfers) (sent : SentPackets)
    (entry : Option (Block 32) × SlotPacket) :
    arriveAll receiving ft (sent ++ [entry]) = entry.2.arrive receiving (arriveAll receiving ft sent) := by
  simp [arriveAll]

theorem heardAll_append_data (ft : FileTransfers) (sent : SentPackets) (fileId : Option (Block 32)) (bytes : Bytes) :
    heardAll ft (sent ++ [(fileId, .data bytes)]) =
      heardAll ft sent ++ [((arriveAll true ft sent).receiveData bytes).2] := by
  induction sent generalizing ft with
  | nil => rfl
  | cons entry rest ih =>
    obtain ⟨fileId', p⟩ := entry
    cases p <;> simp only [cons_append, heardAll, ih] <;> rfl

theorem heardAll_append_control (ft : FileTransfers) (sent : SentPackets) (fileId : Option (Block 32))
    (controlType : UInt8)
    (data : Bytes) : heardAll ft (sent ++ [(fileId, .control controlType data)]) = heardAll ft sent := by
  induction sent generalizing ft with
  | nil => rfl
  | cons entry rest ih =>
    obtain ⟨fileId', p⟩ := entry
    cases p <;> simp only [cons_append, heardAll, ih]

/-- Transfers of one key end with one key. -/
theorem arriveAll_key_congr (h : ft.key = ft'.key) (receiving : Bool) :
    (arriveAll receiving ft sent).key = (arriveAll receiving ft' sent).key := by
  induction sent generalizing ft ft' with
  | nil => exact h
  | cons entry rest ih => exact ih (SlotPacket.arrive_key_congr h receiving entry.2)

theorem heardAll_key_congr (h : ft.key = ft'.key) : heardAll ft sent = heardAll ft' sent := by
  induction sent generalizing ft ft' with
  | nil => rfl
  | cons entry rest ih =>
    obtain ⟨fileId, p⟩ := entry
    cases p with
    | request size fileId => exact ih (SlotPacket.arrive_key_congr h true _)
    | control controlType data => exact ih (SlotPacket.arrive_key_congr h true _)
    | data bytes =>
      have hheard : (ft.receiveData bytes).2 = (ft'.receiveData bytes).2 := SlotPacket.heard_key_congr h (.data bytes)
      have hrest : heardAll (ft.receiveData bytes).1 rest = heardAll (ft'.receiveData bytes).1 rest :=
        ih (SlotPacket.arrive_key_congr h true (.data bytes))
      simp only [heardAll, hheard, hrest]

/-- Without a request a slot that is free stays free. -/
theorem arrive_none {receiving : Bool} {p : SlotPacket} (hp : ∀ size fileId, p ≠ .request size fileId)
    (h : ft.status = .none) : (p.arrive receiving ft).status = .none := by
  cases p with
  | request size fileId => exact absurd rfl (hp size fileId)
  | control controlType data => simp [SlotPacket.arrive, h]
  | data bytes => simp [SlotPacket.arrive, receiveData, h]

/-- A free slot stays free without a request. -/
theorem arriveAll_none {receiving : Bool} (hsent : NoRequest sent) (h : ft.status = .none) :
    (arriveAll receiving ft sent).status = .none := by
  induction sent generalizing ft with
  | nil => exact h
  | cons entry rest ih =>
    have hfirst : (entry.2.arrive receiving ft).status = .none := arrive_none (hsent entry mem_cons_self) h
    exact ih hsent.tail hfirst

/-- Without a request a receiver's slot keeps its status until it is freed. -/
theorem arrive_status {p : SlotPacket} (hp : ∀ size fileId, p ≠ .request size fileId) (ft : FileTransfers) :
    (p.arrive true ft).status = ft.status ∨ (p.arrive true ft).status = .none := by
  cases p with
  | request size fileId => exact absurd rfl (hp size fileId)
  | control controlType data =>
    by_cases hnone : ft.status = .none
    · exact .inl (by simp [SlotPacket.arrive, hnone])
    · cases hcontrol : ft.handleControl false controlType data with
      | none => exact .inl (by simp [SlotPacket.arrive, hnone, hcontrol])
      | some ft' =>
        have hnext : (SlotPacket.control controlType data).arrive true ft = ft' := by
          simp [SlotPacket.arrive, hnone, hcontrol]
        rw [hnext]
        obtain ⟨-, -, ⟨hsame, -⟩ | ⟨hfreed, -⟩⟩ := handleControl_false hcontrol
        · exact .inl hsame
        · exact .inr hfreed
  | data bytes =>
    simp only [SlotPacket.arrive, receiveData]
    split_ifs <;> simp

/-- Without a request the status stays, or the slot is freed. -/
theorem arriveAll_status (hsent : NoRequest sent) (ft : FileTransfers) :
    (arriveAll true ft sent).status = ft.status ∨ (arriveAll true ft sent).status = .none := by
  induction sent generalizing ft with
  | nil => exact .inl rfl
  | cons entry rest ih =>
    have hrest : NoRequest rest := hsent.tail
    obtain hsame | hfreed := arrive_status (hsent entry mem_cons_self) ft
    · obtain h | h := ih hrest (entry.2.arrive true ft)
      · exact .inl (h.trans hsame)
      · exact .inr h
    · have hall : (arriveAll true (entry.2.arrive true ft) rest).status = .none := arriveAll_none hrest hfreed
      exact .inr hall

/-- What control packets do to a sender's slot. -/
theorem arrive_control_false (controlType : UInt8) (data : Bytes) (ft : FileTransfers) :
    ((SlotPacket.control controlType data).arrive false ft).size = ft.size ∧
      (ft.status ≠ .notAccepted →
        (((SlotPacket.control controlType data).arrive false ft).status = ft.status ∨
          ((SlotPacket.control controlType data).arrive false ft).status = .none) ∧
        ((SlotPacket.control controlType data).arrive false ft).transferred = ft.transferred) := by
  by_cases hnone : ft.status = .none
  · simp [SlotPacket.arrive, hnone]
  cases hcontrol : ft.handleControl true controlType data with
  | none => simp [SlotPacket.arrive, hnone, hcontrol]
  | some ft' =>
    have hnext : (SlotPacket.control controlType data).arrive false ft = ft' := by
      simp [SlotPacket.arrive, hnone, hcontrol]
    rw [hnext]
    obtain ⟨hsize, hcases⟩ := handleControl_true hcontrol
    refine ⟨hsize, fun hnot => ?_⟩
    obtain ⟨hs, ht, -⟩ | ⟨hacc, -⟩ | ⟨hs, ht, -⟩ | ⟨hacc, -⟩ := hcases
    · exact ⟨.inl hs, ht⟩
    · exact absurd hacc hnot
    · exact ⟨.inr hs, ht⟩
    · exact absurd hacc hnot

/-- Control packets leave a sender that is sending at its position, unless they kill the transfer. -/
theorem arriveAll_controls (hsent : OnlyControls sent) (ft : FileTransfers) :
    (arriveAll false ft sent).size = ft.size ∧
      (ft.status ≠ .notAccepted →
        ((arriveAll false ft sent).status = ft.status ∨ (arriveAll false ft sent).status = .none) ∧
        (arriveAll false ft sent).transferred = ft.transferred) := by
  induction sent generalizing ft with
  | nil => exact ⟨rfl, fun _ => ⟨.inl rfl, rfl⟩⟩
  | cons entry rest ih =>
    obtain ⟨controlType, data, hentry⟩ := hsent entry mem_cons_self
    obtain ⟨hsize, hfirst⟩ := arrive_control_false controlType data ft
    have hih := ih hsent.tail (entry.2.arrive false ft)
    rw [hentry] at hih
    have hall : arriveAll false ft (entry :: rest) =
        arriveAll false ((SlotPacket.control controlType data).arrive false ft) rest := by
      rw [← hentry]
      rfl
    rw [hall]
    refine ⟨hih.1.trans hsize, fun hnot => ?_⟩
    obtain ⟨hstatus, htransferred⟩ := hfirst hnot
    have hnot' : ((SlotPacket.control controlType data).arrive false ft).status ≠ .notAccepted := by
      obtain h | h := hstatus
      · rwa [h]
      · rw [h]
        exact fun h => nomatch h
    obtain ⟨hstatus', htransferred'⟩ := hih.2 hnot'
    refine ⟨?_, htransferred'.trans htransferred⟩
    obtain h' | h' := hstatus'
    · obtain h | h := hstatus
      · exact .inl (h'.trans h)
      · exact .inr (h'.trans h)
    · exact .inr h'

/-- A sender's slot that is not freed has not been sent anything that kills the transfer. -/
theorem noKill_of_arriveAll (hsent : OnlyControls sent)
    (h : (arriveAll false ft sent).status ≠ .none) : NoKill sent := by
  induction sent generalizing ft with
  | nil => exact fun entry hentry => (not_mem_nil hentry).elim
  | cons entry rest ih =>
    have hrest : OnlyControls rest := hsent.tail
    intro e he data hkill
    obtain rfl | he := mem_cons.mp he
    · have hnone : (e.2.arrive false ft).status = .none := by
        rw [hkill]
        by_cases hfree : ft.status = .none
        · simp [SlotPacket.arrive, hfree]
        · simp [SlotPacket.arrive, hfree, handleControl, filecontrolKill, filecontrolAccept, filecontrolPause]
      have hrequest : NoRequest rest := by
        intro e' he' size fileId hrequest
        obtain ⟨controlType, data', hcontrol⟩ := hrest e' he'
        rw [hcontrol] at hrequest
        cases hrequest
      have hall : (arriveAll false (e.2.arrive false ft) rest).status = .none := arriveAll_none hrequest hnone
      exact h hall
    · exact ih hrest h e he data hkill

end SentPackets

/-! ## A transfer that carries a file -/

open SentPackets

/-- How far a transfer of a file has come, with the chunks that the sender took. -/
inductive TransferPhase (size : UInt64) (a b : SlotEnd) (chunks : List (UInt64 × Bytes)) : Prop
  | requested (hstatus : a.slot.status = .notAccepted) (hfree : b.slot.status = .none)
      (hsent : ∃ fileId fileId', a.sent = [(fileId, .request size fileId')]) (hback : b.sent = [])
      (hchunks : chunks = [])
      (hposition : a.slot.transferred = 0)
  | offered (hstatus : a.slot.status = .notAccepted)
      (hready : b.slot.status = .notAccepted ∨ b.slot.status = .transferring)
      (hkey : b.slot.key = (arriveAll false a.slot b.sent).key) (hsent : a.sent = []) (hchunks : chunks = [])
  | running (hstatus : a.slot.status = .transferring) (hkey : (arriveAll true b.slot a.sent).key = a.slot.key)
      (halive : NoKill b.sent) (hcalm : NoKill a.sent) (hsent : NoRequest a.sent)
      (hchunks : ∀ chunk ∈ chunks, ¬FinalChunk size chunk)
  | ended (hstatus : a.slot.status = .finished ∨ a.slot.status = .none) (packets kills : SentPackets)
      (hsent : a.sent = packets ++ kills) (hkills : ∀ entry ∈ kills, entry.2 = .kill) (hcalm : NoKill packets)
      (hrequest : NoRequest packets) (hfreed : (arriveAll true b.slot packets).status = .none)
      (hready : b.slot.status ≠ .notAccepted)
      (hchunks : ∃ init last, chunks = init ++ [last] ∧ FinalChunk size last ∧
        (size ≠ unknownSize → last.1 + UInt64.ofNat last.2.length = size) ∧ ∀ chunk ∈ init, ¬FinalChunk size chunk)

/-- A transfer that carries a file of the given size: what arrived was passed on, the rest is on its way. -/
structure FileCarries (size : UInt64) (before : Transfer) (a b : SlotEnd) (arrived pending : List (UInt64 × Bytes)) :
    Prop where
  size_eq : a.slot.size = size
  bounded : a.slot.Bounded
  accepted : a.log = (before false).log ++ (arrived ++ pending)
  passed : b.log = (before true).log ++ arrived.flatMap (announced size)
  inFlight : dataOf a.sent = pending.map Prod.snd
  expected : heardAll b.slot a.sent = pending.map (announced size)
  controls : OnlyControls b.sent
  phase : TransferPhase size a b (arrived ++ pending)

namespace FileCarries

variable {size : UInt64} {before : Transfer} {a b : SlotEnd} {arrived pending : List (UInt64 × Bytes)}

/-- A receiver that is transferring follows the sender. -/
theorem phase_of_transferring (h : FileCarries size before a b arrived pending)
    (hstatus : a.slot.status = .transferring) :
    (arriveAll true b.slot a.sent).key = a.slot.key ∧ NoKill b.sent ∧ NoKill a.sent ∧ NoRequest a.sent ∧
      ∀ chunk ∈ arrived ++ pending, ¬FinalChunk size chunk := by
  cases h.phase with
  | requested hother => simp [hstatus] at hother
  | offered hother => simp [hstatus] at hother
  | running hs hkey halive hcalm hsent hchunks => exact ⟨hkey, halive, hcalm, hsent, hchunks⟩
  | ended hother => simp [hstatus] at hother

/-- A sender that is sending has a receiver that is transferring. -/
theorem receiver_status (h : FileCarries size before a b arrived pending) (hstatus : a.slot.status = .transferring) :
    b.slot.status = .transferring := by
  obtain ⟨hkey, -, -, hsent, -⟩ := h.phase_of_transferring hstatus
  simp only [key, Prod.mk.injEq] at hkey
  obtain hsame | hnone := arriveAll_status hsent b.slot
  · rw [← hsame, hkey.1, hstatus]
  · rw [hkey.1, hstatus] at hnone
    cases hnone

variable {controlType : UInt8} {data : Bytes} {fileId : Option (Block 32)} {rest : SentPackets}

section

variable (h : FileCarries size before a b arrived pending)
include h

/-- The sender's application pauses or resumes. -/
theorem control_sender {control : UInt32} (hkill : control ≠ 2) (hstatus : a.slot.status = .transferring)
    (fileId : Option (Block 32)) (htype : controlType ≠ filecontrolKill) :
    FileCarries size before ⟨a.slot.controlled control, a.sent ++ [(fileId, .control controlType [])],
      a.log⟩ b arrived pending := by
  obtain ⟨hkey, halive, hcalm, hsent, hchunks⟩ := h.phase_of_transferring hstatus
  obtain ⟨hsame, hrequested⟩ := controlled_key hkill hstatus
  have hparts := hsame
  simp only [key, Prod.mk.injEq] at hparts
  refine ⟨hparts.2.1.trans h.size_eq, h.bounded.congr hparts.2.1 hparts.2.2 hrequested, h.accepted, h.passed, ?_, ?_,
    h.controls, .running (hparts.1.trans hstatus) ?_ halive (hcalm.append ?_) (hsent.append ?_) hchunks⟩
  · simpa [dataOf] using h.inFlight
  · rw [heardAll_append_control]
    exact h.expected
  · rw [arriveAll_append, SlotPacket.arrive_control_true htype, hkey, hsame]
  · rintro _ ⟨⟩
    exact htype rfl
  · simp

/-- The sender's application hands over a chunk. -/
theorem data_sender {position : UInt64} (herror : a.slot.dataError position data = none) (number : UInt32)
    (fileId : Option (Block 32)) :
    FileCarries size before ⟨a.slot.dataSent number data, a.sent ++ [(fileId, .data data)],
      a.log ++ [(position, data)]⟩ b arrived
      (pending ++ [(position, data)]) := by
  obtain ⟨hstatus, -⟩ := dataError_eq_none herror
  obtain ⟨hkey, halive, hcalm, hsent, hchunks⟩ := h.phase_of_transferring hstatus
  have hreceive := receiveData_of_dataError herror h.bounded.transferred_le hkey
  have hsender := dataSent_key number herror
  simp only [key, Prod.mk.injEq] at hsender
  have hrequest : NoRequest (a.sent ++ [(fileId, .data data)]) := hsent.append (by simp)
  have hcalm : NoKill (a.sent ++ [(fileId, .data data)]) := hcalm.append (by simp)
  refine ⟨hsender.2.1.trans h.size_eq, h.bounded.dataSent number herror, ?_, h.passed, ?_, ?_, h.controls, ?_⟩
  · rw [h.accepted]
    simp
  · have hin := h.inFlight
    simp only [dataOf] at hin ⊢
    simp [hin]
  · rw [heardAll_append_data, h.expected, hreceive, h.size_eq]
    simp
  have harrive : (SlotPacket.data data).arrive true (arriveAll true b.slot a.sent) =
      ((arriveAll true b.slot a.sent).receiveData data).1 := rfl
  rw [← h.size_eq] at hchunks ⊢
  by_cases hfinal : FinalChunk a.slot.size (position, data)
  · refine .ended (.inl (by simpa [hfinal] using hsender.1)) _ [] (append_nil _).symm (by simp) hcalm hrequest ?_ ?_ ?_
    · rw [arriveAll_append, harrive, hreceive, if_pos hfinal]
    · rw [h.receiver_status hstatus]
      decide
    · exact ⟨arrived ++ pending, (position, data), by simp, hfinal, finalChunk_end herror hfinal, hchunks⟩
  · refine .running (by simpa [hfinal] using hsender.1) ?_ halive hcalm hrequest ?_
    · rw [arriveAll_append, harrive, hreceive, if_neg hfinal, dataSent_key number herror, if_neg hfinal]
      simp only [key, Prod.mk.injEq] at hkey ⊢
      exact ⟨hkey.1.trans hstatus, hkey.2.1, trivial⟩
    · intro chunk hchunk
      rw [← append_assoc] at hchunk
      obtain hchunk | hchunk := mem_append.mp hchunk
      · exact hchunks chunk hchunk
      · rwa [mem_singleton.mp hchunk]

/-- A call of the sender's application. -/
theorem call_sender {a' : SlotEnd} (hcall : SlotCall False False false a a') :
    ∃ pending', FileCarries size before a' b arrived pending' := by
  cases hcall with
  | offer _ _ hmay => exact hmay.elim
  | control control hkill herror =>
    refine ⟨pending, ?_⟩
    obtain ⟨htwo, -⟩ | ⟨rfl, hstatus, -⟩ | ⟨rfl, hstatus, -⟩ | ⟨-, -, hreceiving⟩ := controlError_eq_none herror
    · exact (hkill htwo).elim
    · exact h.control_sender (by decide) hstatus _ (by decide)
    · exact h.control_sender (by decide) hstatus _ (by decide)
    · simp at hreceiving
  | seek position hreceiving herror => simp at hreceiving
  | data number position data hreceiving herror => exact ⟨_, h.data_sender herror number _⟩

/-- The sender reserves a chunk. -/
theorem reserve (hstatus : a.slot.status = .transferring) :
    FileCarries size before { a with slot := a.slot.reserved } b arrived pending := by
  obtain ⟨hkey, halive, hcalm, hsent, hchunks⟩ := h.phase_of_transferring hstatus
  exact ⟨h.size_eq, h.bounded.reserved, h.accepted, h.passed, h.inFlight, h.expected, h.controls,
    .running hstatus hkey halive hcalm hsent hchunks⟩

end

/-- The sender frees its slot. -/
theorem acknowledge (h : FileCarries size before a b arrived pending) (hstatus : a.slot.status = .finished) :
    FileCarries size before { a with slot := { a.slot with status := .none } } b arrived pending := by
  refine ⟨h.size_eq, h.bounded.congr rfl rfl rfl, h.accepted, h.passed, h.inFlight, h.expected, h.controls, ?_⟩
  cases h.phase with
  | requested hother => simp [hstatus] at hother
  | offered hother => simp [hstatus] at hother
  | running hother => simp [hstatus] at hother
  | ended _ packets kills hsent hkills hcalm hrequest hfreed hready hchunks =>
    exact .ended (.inr rfl) packets kills hsent hkills hcalm hrequest hfreed hready hchunks

section

variable (h : FileCarries size before a b arrived pending)
include h

/-- The receiver's application pauses or resumes. -/
theorem control_receiver {control : UInt32} (hkill : control ≠ 2) (hstatus : b.slot.status = .transferring)
    (fileId : Option (Block 32)) (htype : controlType ≠ filecontrolKill) :
    FileCarries size before a ⟨b.slot.controlled control, b.sent ++ [(fileId, .control controlType [])],
      b.log⟩ arrived pending := by
  obtain ⟨hsame, -⟩ := controlled_key hkill hstatus
  have hparts := hsame
  simp only [key, Prod.mk.injEq] at hparts
  have hall (sent : SentPackets) :
    (arriveAll true (b.slot.controlled control) sent).key = (arriveAll true b.slot sent).key :=
    arriveAll_key_congr hsame true
  refine ⟨h.size_eq, h.bounded, h.accepted, h.passed, h.inFlight, ?_, ?_, ?_⟩
  · rw [heardAll_key_congr hsame]
    exact h.expected
  · intro entry hentry
    obtain hentry | hentry := mem_append.mp hentry
    · exact h.controls entry hentry
    · exact ⟨controlType, [], by rw [mem_singleton.mp hentry]⟩
  cases h.phase with
  | requested _ hfree => simp [hstatus] at hfree
  | offered hs hready hkey hsent hchunks =>
    refine .offered hs (.inr (hparts.1.trans hstatus)) ?_ hsent hchunks
    have hthere : (arriveAll false a.slot b.sent).status = .transferring := by
      simp only [key, Prod.mk.injEq] at hkey
      rw [← hkey.1, hstatus]
    rw [arriveAll_append, SlotPacket.arrive_control_false_key htype [] (by rw [hthere]; decide), hsame, hkey]
  | running hs hkey halive hcalm hsent hchunks =>
    refine .running hs ((hall a.sent).trans hkey) (halive.append ?_) hcalm hsent hchunks
    rintro _ ⟨⟩
    exact htype rfl
  | ended hs packets kills hsent hkills hcalm hrequest hfreed hready hchunks =>
    have hstill := hall packets
    simp only [key, Prod.mk.injEq] at hstill
    refine .ended hs packets kills hsent hkills hcalm hrequest (hstill.1.trans hfreed) ?_ hchunks
    rw [hparts.1]
    exact hready

/-- A receiver that has not accepted waits for a sender that waits for it. -/
theorem phase_of_notAccepted (hstatus : b.slot.status = .notAccepted) :
    a.slot.status = .notAccepted ∧ b.slot.key = (arriveAll false a.slot b.sent).key ∧ a.sent = [] ∧
      arrived ++ pending = [] := by
  cases h.phase with
  | requested _ hfree => simp [hstatus] at hfree
  | offered hs hready hkey hsent hchunks => exact ⟨hs, hkey, hsent, hchunks⟩
  | running hs =>
    have hother := h.receiver_status hs
    simp [hstatus] at hother
  | ended _ _ _ _ _ _ _ _ hready => exact absurd hstatus hready

/-- The receiver's application accepts the file, or moves it before it does. -/
theorem answer_receiver (hstatus : b.slot.status = .notAccepted) {slot : FileTransfers}
    (hready : slot.status = .notAccepted ∨ slot.status = .transferring) (fileId : Option (Block 32))
    (hkey : slot.key = ((SlotPacket.control controlType data).arrive false (arriveAll false a.slot b.sent)).key) :
    FileCarries size before a ⟨slot, b.sent ++ [(fileId, .control controlType data)], b.log⟩ arrived pending := by
  obtain ⟨hs, -, hsent, hchunks⟩ := h.phase_of_notAccepted hstatus
  have hexpected := h.expected
  refine ⟨h.size_eq, h.bounded, h.accepted, h.passed, h.inFlight, ?_, ?_, .offered hs hready ?_ hsent hchunks⟩
  · simpa [hsent, heardAll] using hexpected
  · intro entry hentry
    obtain hentry | hentry := mem_append.mp hentry
    · exact h.controls entry hentry
    · exact ⟨controlType, data, by rw [mem_singleton.mp hentry]⟩
  · rw [arriveAll_append]
    exact hkey

/-- A call of the receiver's application. -/
theorem call_receiver {b' : SlotEnd} (hcall : SlotCall False False true b b') :
    FileCarries size before a b' arrived pending := by
  cases hcall with
  | offer _ _ hmay => exact hmay.elim
  | control control hkill herror =>
    obtain ⟨htwo, -⟩ | ⟨rfl, hstatus, -⟩ | ⟨rfl, hstatus, -⟩ | ⟨rfl, hstatus, -⟩ := controlError_eq_none herror
    · exact (hkill htwo).elim
    · exact h.control_receiver (by decide) hstatus _ (by decide)
    · exact h.control_receiver (by decide) hstatus _ (by decide)
    · obtain ⟨-, hkey, -⟩ := h.phase_of_notAccepted hstatus
      refine h.answer_receiver hstatus (.inr ?_) _ ?_
      · simp [controlled]
      · simp only [key, Prod.mk.injEq] at hkey
        have hthere : (arriveAll false a.slot b.sent).status = .notAccepted := hkey.1.symm.trans hstatus
        simp [controlled, key, SlotPacket.arrive, handleControl, filecontrolAccept, hthere, hkey.2.1, hkey.2.2]
  | seek position hreceiving herror =>
    have hseek : b.slot.status = .notAccepted ∧ position < b.slot.size := by
      simp only [seekError] at herror
      split_ifs at herror with hnone hnot hposition
      exact ⟨not_not.mp hnot, UInt64.not_le.mp hposition⟩
    obtain ⟨-, hkey, -⟩ := h.phase_of_notAccepted hseek.1
    have hready : ({ b.slot with transferred := position } : FileTransfers).status = .notAccepted := hseek.1
    refine h.answer_receiver hseek.1 (.inl hready) _ ?_
    simp only [key, Prod.mk.injEq] at hkey
    have hthere : (arriveAll false a.slot b.sent).status = .notAccepted := hkey.1.symm.trans hseek.1
    have hread : UInt64.ofNat (beNat (beBytes 8 position.toNat)) = position := by
      rw [beNat_beBytes_of_lt (by have := position.toNat_lt; omega)]
      exact UInt64.ofNat_toNat
    have hlt : ¬(position ≥ (arriveAll false a.slot b.sent).size) := by
      rw [← hkey.2.1]
      exact UInt64.not_le.mpr hseek.2
    simp [key, SlotPacket.arrive, handleControl, filecontrolSeek, filecontrolKill, filecontrolPause, filecontrolAccept,
      hthere, hread, hlt, hkey.2.1, hseek.1]
  | data _ _ _ hreceiving => simp at hreceiving

/-- The packets that the receiver has sent after a packet arrived are control packets. -/
theorem controls_arrive (answers : Bool) (p : SlotPacket) : OnlyControls (b.arrive true answers p).sent := by
  intro entry hentry
  obtain hentry | hentry := mem_append.mp hentry
  · exact h.controls entry hentry
  · rw [mem_ite_nil_right, mem_singleton] at hentry
    exact ⟨filecontrolKill, [], by rw [hentry.2]; rfl⟩

/-- The request reaches the receiver. -/
theorem arrive_request {size' : UInt64} {fileId' : Block 32}
    (hsent : a.sent = (fileId, .request size' fileId') :: rest) (answers : Bool) :
    FileCarries size before { a with sent := rest }
      (b.arrive true answers (.request size' fileId')) arrived pending := by
  have hin := h.inFlight
  have hexpected := h.expected
  cases h.phase with
  | requested hstatus hfree hrequest hback hchunks hposition =>
    obtain ⟨_, _, hrequest⟩ := hrequest
    rw [hsent] at hrequest hin hexpected
    obtain ⟨⟨⟩, rfl⟩ := List.cons.inj hrequest
    refine ⟨h.size_eq, h.bounded, h.accepted, ?_, hin, hexpected, h.controls_arrive answers _, ?_⟩
    · simpa [SlotEnd.arrive, SlotPacket.heard] using h.passed
    · refine .offered hstatus (.inl ?_) ?_ rfl hchunks
      · simp [SlotEnd.arrive, SlotPacket.arrive, requested?, hfree]
      · simp [SlotEnd.arrive, SlotPacket.arrive, requested?, hfree, hback, SlotPacket.Answered, arriveAll, key, hstatus,
          h.size_eq, hposition]
  | offered _ _ _ hempty => simp [hempty] at hsent
  | running _ _ _ _ hno => exact absurd rfl (hno _ (by rw [hsent]; exact mem_cons_self) size' fileId')
  | ended _ packets kills hqueue hkills _ hno =>
    rw [hsent] at hqueue
    cases packets with
    | nil =>
      have hkill :=
        hkills (fileId, .request size' fileId') (by rw [← nil_append kills, ← hqueue]; exact mem_cons_self)
      cases hkill
    | cons entry packets =>
      cases hqueue
      exact absurd rfl (hno _ mem_cons_self size' fileId')

/-- How far a transfer has come after a packet other than the request reached the receiver. -/
theorem phase_arrive {p : SlotPacket} (hsent : a.sent = (fileId, p) :: rest)
    (hp : ∀ size fileId, p ≠ .request size fileId) (answers : Bool) :
    TransferPhase size { a with sent := rest } (b.arrive true answers p) (arrived ++ pending) := by
  cases h.phase with
  | requested _ _ hrequest =>
    obtain ⟨_, size', hrequest⟩ := hrequest
    rw [hsent] at hrequest
    cases hrequest
    exact absurd rfl (hp _ _)
  | offered _ _ _ hempty => simp [hempty] at hsent
  | running hstatus hkey halive hcalm hno hchunks =>
    rw [hsent] at hkey hcalm hno
    refine .running hstatus hkey ?_ hcalm.tail hno.tail hchunks
    have hbusy : ¬p.Answered b.slot := by
      cases p <;> simp [SlotPacket.Answered, h.receiver_status hstatus]
    simpa [SlotEnd.arrive, hbusy] using halive
  | ended hstatus packets kills hqueue hkills hcalm hno hfreed hready hchunks =>
    have hready' : (p.arrive true b.slot).status ≠ .notAccepted := by
      obtain hsame | hnone := arrive_status hp b.slot
      · rwa [hsame]
      · rw [hnone]
        decide
    rw [hsent] at hqueue
    cases packets with
    | nil =>
      have hqueue : (fileId, p) :: rest = kills := hqueue
      refine .ended hstatus [] rest rfl (fun entry hentry =>
        hkills entry ?_) hcalm hno (arrive_none hp hfreed) hready' hchunks
      rw [← hqueue]
      exact mem_cons_of_mem _ hentry
    | cons entry packets =>
      cases hqueue
      exact .ended hstatus packets kills rfl hkills hcalm.tail hno.tail hfreed hready' hchunks

/-- A control packet reaches the receiver. -/
theorem arrive_control (hsent : a.sent = (fileId, .control controlType data) :: rest) (answers : Bool) :
    FileCarries size before { a with sent := rest }
      (b.arrive true answers (.control controlType data)) arrived pending := by
  have hin := h.inFlight
  have hexpected := h.expected
  rw [hsent] at hin hexpected
  refine ⟨h.size_eq, h.bounded, h.accepted, ?_, hin, hexpected, h.controls_arrive answers _,
    h.phase_arrive hsent ?_ answers⟩
  · simpa [SlotEnd.arrive, SlotPacket.heard] using h.passed
  · intro _ _ hrequest
    cases hrequest

/-- A chunk reaches the receiver. -/
theorem arrive_data (hsent : a.sent = (fileId, .data data) :: rest) (answers : Bool) :
    ∃ chunk pending',
      FileCarries size before { a with sent := rest } (b.arrive true answers (.data data)) (arrived ++ [chunk])
      pending' := by
  have hin := h.inFlight
  have hexpected := h.expected
  have hphase := h.phase_arrive hsent (fun _ _ hrequest => by cases hrequest) answers
  have haccepted := h.accepted
  have hpassed := h.passed
  rw [hsent] at hin hexpected
  cases pending with
  | nil => simp [heardAll] at hexpected
  | cons chunk pending' =>
    simp only [heardAll, map_cons, List.cons.injEq] at hexpected
    have hin' : data :: dataOf rest = chunk.2 :: pending'.map Prod.snd := hin
    refine ⟨chunk, pending', h.size_eq, h.bounded, ?_, ?_, (List.cons.inj hin').2, hexpected.2,
      h.controls_arrive answers _, ?_⟩
    · simpa using haccepted
    · simp [SlotEnd.arrive, SlotPacket.heard, hpassed, hexpected.1]
    · simpa using hphase

end

/-- A sender that waits gets a control packet. -/
theorem phase_waiting {chunks : List (UInt64 × Bytes)} (hrest : OnlyControls rest)
    (hstatus : a.slot.status = .notAccepted) (hready : b.slot.status = .notAccepted ∨ b.slot.status = .transferring)
    (hkey : b.slot.key = (arriveAll false ((SlotPacket.control controlType data).arrive false a.slot) rest).key)
    (hsent : a.sent = []) (hchunks : chunks = []) (answers : Bool) :
    TransferPhase size (a.arrive false answers (.control controlType data)) { b with sent := rest } chunks := by
  have hquiet : (a.arrive false answers (.control controlType data)).sent = [] := by
    simp [SlotEnd.arrive, SlotPacket.Answered, hstatus, hsent]
  have hslot : (a.arrive false answers (.control controlType data)).slot =
      (SlotPacket.control controlType data).arrive false a.slot := rfl
  have hcontrols := arriveAll_controls hrest ((SlotPacket.control controlType data).arrive false a.slot)
  have hparts := hkey
  simp only [key, Prod.mk.injEq] at hparts
  have hbusy : (arriveAll false ((SlotPacket.control controlType data).arrive false a.slot) rest).status ≠ .none := by
    rw [← hparts.1]
    obtain h | h := hready <;> rw [h] <;> decide
  by_cases hstill : ((SlotPacket.control controlType data).arrive false a.slot).status = .notAccepted
  · exact .offered hstill hready hkey hquiet hchunks
  · obtain ⟨hsame | hnone, htransferred⟩ := hcontrols.2 hstill
    · refine .running ?_ ?_ (noKill_of_arriveAll hrest hbusy) (by rw [hquiet]; simp [NoKill])
        (by rw [hquiet]; simp [NoRequest]) (by simp [hchunks])
      · rw [hslot, ← hsame, ← hparts.1]
        obtain h | h := hready
        · rw [hparts.1, hsame] at h
          exact absurd h hstill
        · exact h
      · rw [hquiet, hslot]
        change b.slot.key = _
        rw [hkey, key, key, hsame, hcontrols.1, htransferred]
    · exact absurd hnone hbusy

/-- A packet reaches the sender. -/
theorem arrive_sender (h : FileCarries size before a b arrived pending) {p : SlotPacket}
    (hsent : b.sent = (fileId, p) :: rest) (answers : Bool) :
    FileCarries size before (a.arrive false answers p) { b with sent := rest } arrived pending := by
  have hrest : OnlyControls rest := fun entry hentry =>
    h.controls entry (by rw [hsent]; exact mem_cons_of_mem _ hentry)
  obtain ⟨controlType, data, hp⟩ := h.controls _ (by rw [hsent]; exact mem_cons_self)
  obtain rfl : p = .control controlType data := hp
  have hslot : (a.arrive false answers (.control controlType data)).slot =
      (SlotPacket.control controlType data).arrive false a.slot := rfl
  have hsize := (arrive_control_false controlType data a.slot).1
  have hanswer : ∃ answer : SentPackets, (answer = [] ∨ answer = [(none, .kill)] ∧ a.slot.status = .none) ∧
      (a.arrive false answers (.control controlType data)).sent = a.sent ++ answer := by
    refine ⟨_, ?_, rfl⟩
    split_ifs with hanswered
    · exact .inr ⟨rfl, hanswered.1⟩
    · exact .inl rfl
  obtain ⟨answer, hanswer, hout⟩ := hanswer
  refine ⟨hsize.trans h.size_eq, ?_, ?_, h.passed, ?_, ?_, hrest, ?_⟩
  · rw [hslot]
    by_cases hnone : a.slot.status = .none
    · simpa [SlotPacket.arrive, hnone] using h.bounded
    · cases hcontrol : a.slot.handleControl true controlType data with
      | none => simpa [SlotPacket.arrive, hnone, hcontrol] using h.bounded
      | some slot => simpa [SlotPacket.arrive, hnone, hcontrol] using h.bounded.handleControl hcontrol
  · simpa [SlotEnd.arrive] using h.accepted
  · rw [hout]
    have hin := h.inFlight
    simp only [dataOf] at hin ⊢
    obtain rfl | ⟨rfl, -⟩ := hanswer <;> simp [hin, SlotPacket.kill]
  · rw [hout]
    obtain rfl | ⟨rfl, -⟩ := hanswer
    · simpa using h.expected
    · exact (heardAll_append_control _ _ _ _ _).trans h.expected
  cases h.phase with
  | requested _ _ _ hback => simp [hback] at hsent
  | offered hstatus hready hkey hquiet hchunks =>
    rw [hsent] at hkey
    exact phase_waiting hrest hstatus hready hkey hquiet hchunks answers
  | running hstatus hkey halive hcalm hno hchunks =>
    rw [hsent] at halive
    have hkill : controlType ≠ filecontrolKill := by
      rintro rfl
      exact halive _ mem_cons_self data rfl
    have hsame := SlotPacket.arrive_control_false_key hkill data
      (show a.slot.status ≠ .notAccepted by rw [hstatus]; decide)
    have hquiet : (a.arrive false answers (.control controlType data)).sent = a.sent := by
      simp [SlotEnd.arrive, SlotPacket.Answered, hstatus]
    refine .running ?_ ?_ halive.tail (by rwa [hquiet]) (by rwa [hquiet]) hchunks
    · simp only [key, Prod.mk.injEq] at hsame
      rw [hslot, hsame.1, hstatus]
    · rw [hquiet, hslot, hkey, hsame]
  | ended hstatus packets kills hqueue hkills hcalm hno hfreed hready hchunks =>
    have hnot : a.slot.status ≠ .notAccepted := by
      obtain h | h := hstatus <;> rw [h] <;> decide
    refine .ended ?_ packets (kills ++ answer) ?_ ?_ hcalm hno hfreed hready hchunks
    · obtain ⟨hsame | hnone, -⟩ := (arrive_control_false controlType data a.slot).2 hnot
      · rwa [hslot, hsame]
      · exact .inr hnone
    · rw [hout, hqueue, append_assoc]
    · intro entry hentry
      obtain hentry | hentry := mem_append.mp hentry
      · exact hkills entry hentry
      · obtain rfl | ⟨rfl, -⟩ := hanswer
        · exact (not_mem_nil hentry).elim
        · rw [mem_singleton.mp hentry]

/-- Every step of the transfer carries on. -/
theorem step {t t' : Transfer} (h : FileCarries size before (t false) (t true) arrived pending)
    (hstep : TransferStep (fun _ => False) False t t') :
    ∃ arrived' pending', FileCarries size before (t' false) (t' true) arrived' pending' := by
  obtain hown | ⟨receiving, answers, fileId, p, rest, hsent⟩ := hstep
  · cases hown with
    | call receiving e hcall =>
      cases receiving with
      | false =>
        obtain ⟨pending', h'⟩ := h.call_sender hcall
        exact ⟨arrived, pending', by simpa using h'⟩
      | true => exact ⟨arrived, pending, by simpa using h.call_receiver hcall⟩
    | reserve hstatus hsize => exact ⟨arrived, pending, by simpa using h.reserve hstatus⟩
    | acknowledge hstatus =>
      obtain hstatus | hkill := hstatus
      · exact ⟨arrived, pending, by simpa using h.acknowledge hstatus⟩
      · exact hkill.elim
  · cases receiving with
    | false => exact ⟨arrived, pending, by simpa using h.arrive_sender hsent answers⟩
    | true =>
      cases p with
      | request size' fileId' => exact ⟨arrived, pending, by simpa using h.arrive_request hsent answers⟩
      | control controlType data => exact ⟨arrived, pending, by simpa using h.arrive_control hsent answers⟩
      | data data =>
        obtain ⟨chunk, pending', h'⟩ := h.arrive_data hsent answers
        exact ⟨arrived ++ [chunk], pending', by simpa using h'⟩

/-- A run of the transfer carries on. -/
theorem run {t t' : Transfer} (h : FileCarries size before (t false) (t true) arrived pending)
    (hrun : ReflTransGen (TransferStep (fun _ => False) False) t t') :
    ∃ arrived' pending', FileCarries size before (t' false) (t' true) arrived' pending' := by
  induction hrun with
  | refl => exact ⟨arrived, pending, h⟩
  | tail _ hstep ih =>
    obtain ⟨_, _, h'⟩ := ih
    exact h'.step hstep

/-- Before the end of the file nothing but the chunks is passed on. -/
theorem flatMap_announced {chunks : List (UInt64 × Bytes)} (h : ∀ chunk ∈ chunks, ¬FinalChunk size chunk) :
    chunks.flatMap (announced size) = chunks ∧ ∀ chunk ∈ chunks, chunk.2 ≠ [] := by
  constructor
  · induction chunks with
    | nil => rfl
    | cons chunk rest ih =>
      have hfirst : announced size chunk = [chunk] := if_neg fun hfinal => h chunk mem_cons_self hfinal.1
      rw [flatMap_cons, hfirst, ih fun c hc => h c (mem_cons_of_mem _ hc)]
      rfl
  · intro chunk hchunk hempty
    refine h chunk hchunk (.inl ?_)
    rw [hempty]
    decide

/-- While chunks are missing the file is passed on as far as it arrived. -/
theorem arrived_of_missing (h : FileCarries size before a b arrived pending)
    (hmissing : pending ≠ [] ∨ a.slot.status = .notAccepted ∨ a.slot.status = .transferring) :
    ∀ chunk ∈ arrived, ¬FinalChunk size chunk := by
  cases h.phase with
  | requested _ _ _ _ hchunks => simp [(append_eq_nil_iff.mp hchunks).1]
  | offered _ _ _ _ hchunks => simp [(append_eq_nil_iff.mp hchunks).1]
  | running _ _ _ _ _ hchunks => exact fun chunk hchunk => hchunks chunk (mem_append_left _ hchunk)
  | ended hstatus _ _ _ _ _ _ _ _ hchunks =>
    obtain ⟨init, last, heq, -, -, hinit⟩ := hchunks
    have hpending : pending ≠ [] := by
      obtain hp | hs | hs := hmissing
      · exact hp
      · obtain h' | h' := hstatus <;> simp [hs] at h'
      · obtain h' | h' := hstatus <;> simp [hs] at h'
    obtain ⟨front, last', rfl⟩ := (eq_nil_or_concat' pending).resolve_left hpending
    rw [← append_assoc] at heq
    have hfront : arrived ++ front = init := (append_inj' heq rfl).1
    intro chunk hchunk
    exact hinit chunk (by rw [← hfront]; exact mem_append_left _ hchunk)

/-- Packets that hold no data, and neither a request nor a kill, do not move a receiver. -/
theorem arriveAll_quiet {sent : SentPackets} (hrequest : NoRequest sent) (hcalm : NoKill sent)
    (hdata : dataOf sent = []) (ft : FileTransfers) : (arriveAll true ft sent).key = ft.key := by
  induction sent generalizing ft with
  | nil => rfl
  | cons entry rest ih =>
    obtain ⟨fileId, p⟩ := entry
    cases p with
    | request size fileId' => exact absurd rfl (hrequest _ mem_cons_self size fileId')
    | data bytes => simp [dataOf] at hdata
    | control controlType data =>
      have hkill : controlType ≠ filecontrolKill := by
        rintro rfl
        exact hcalm _ mem_cons_self data rfl
      exact (ih hrequest.tail hcalm.tail (by simpa [dataOf] using hdata) _).trans
        (SlotPacket.arrive_control_true hkill data ft)

/-- The whole file arrived: the end was announced once, and the receiver's slot is free. -/
theorem arrived_of_complete (h : FileCarries size before a b arrived [])
    (hstatus : ¬(a.slot.status = .notAccepted ∨ a.slot.status = .transferring)) :
    b.slot.status = .none ∧ ∃ init last, arrived = init ++ [last] ∧ FinalChunk size last ∧
      (size ≠ unknownSize → last.1 + UInt64.ofNat last.2.length = size) ∧ ∀ chunk ∈ init, ¬FinalChunk size chunk := by
  have hin := h.inFlight
  cases h.phase with
  | requested hs => exact absurd (.inl hs) hstatus
  | offered hs => exact absurd (.inl hs) hstatus
  | running hs => exact absurd (.inr hs) hstatus
  | ended _ packets kills hqueue hkills hcalm hno hfreed hready hchunks =>
    refine ⟨?_, by simpa using hchunks⟩
    have hdata : dataOf packets = [] := by
      rw [hqueue] at hin
      simp only [dataOf, filterMap_append, map_nil, append_eq_nil_iff] at hin
      exact hin.1
    have hquiet := arriveAll_quiet hno hcalm hdata b.slot
    simp only [key, Prod.mk.injEq] at hquiet
    rw [← hquiet.1, hfreed]

end FileCarries

/-! ## The file is delivered -/

/-- The data on its way from a sender's slot. -/
def FileLink.dataInFlight (link : FileLink) (sender : Bool) (i : UInt8) : List Bytes :=
  (link sender).outbox.filterMap fun packet => match packet.bytes with
    | packetId :: j :: data => if packetId = packetIdFileData ∧ j = i then some data else none
    | _ => none

/-- All of the file has been handed over and has arrived. -/
def FileLink.Complete (link : FileLink) (sender : Bool) (i : UInt8) : Prop :=
  link.dataInFlight sender i = [] ∧
    ¬(((link sender).files.fileSending i).status = .notAccepted ∨
      ((link sender).files.fileSending i).status = .transferring)

/-- The receiver's slot is free, and no packet about the slot is on its way. -/
def FileLink.Idle (link : FileLink) (sender : Bool) (i : UInt8) : Prop :=
  ((link (!sender)).files.fileReceiving i).status = .none ∧ ∀ receiving, (link.transfer sender i receiving).sent = []

/-- What was delivered of a file that was offered in the state `before`: the chunks that arrived were passed on with
their positions, those that are pending are on their way, and the end was announced once when all of the file
arrived. -/
structure FileLink.Delivers (before link : FileLink) (sender : Bool) (i : UInt8) (size : UInt64)
    (arrived pending : List (UInt64 × Bytes)) : Prop where
  accepted : chunksOf i (link sender).accepted = chunksOf i (before sender).accepted ++ (arrived ++ pending)
  inFlight : link.dataInFlight sender i = pending.map Prod.snd
  passed_on : ¬link.Complete sender i →
    chunksOf i (link (!sender)).filedata = chunksOf i (before (!sender)).filedata ++ arrived ∧
      ∀ chunk ∈ arrived, chunk.2 ≠ []
  completed : link.Complete sender i →
    pending = [] ∧ ((link (!sender)).files.fileReceiving i).status = .none ∧
      ∃ last ∈ arrived.getLast?,
        chunksOf i (link (!sender)).filedata =
          chunksOf i (before (!sender)).filedata ++ arrived.filter (fun chunk => chunk.2 ≠ []) ++
            [(last.1 + UInt64.ofNat last.2.length, [])] ∧
        (size ≠ unknownSize → last.1 + UInt64.ofNat last.2.length = size)
  size_eq : ((link sender).files.fileSending i).size = size
  transferred_le : ((link sender).files.fileSending i).transferred ≤ size
  requested_le : ((link sender).files.fileSending i).requested ≤ size
  transferred_le_requested : size ≠ unknownSize →
    ((link sender).files.fileSending i).transferred ≤ ((link sender).files.fileSending i).requested

variable {i : UInt8}

/-- The packets that are read as data for a slot. -/
theorem slotPacket_eq_data {packet data : Bytes} :
    slotPacket true i packet = some (.data data) ↔ packet = packetIdFileData :: i :: data := by
  refine ⟨fun h => ?_, fun h => by rw [h, slotPacket_data]⟩
  cases packet with
  | nil => simp [slotPacket] at h
  | cons packetId rest =>
    simp only [slotPacket] at h
    split_ifs at h with hrequest hfits hcontrol hfits hid hfits
    · simp at h
    · simp at h
    · cases rest with
      | nil => simp at hfits
      | cons j rest =>
        obtain rfl : j = i := by simpa using hfits
        obtain rfl : rest = data := by simpa using h
        rw [hid]

/-- The data on its way is that of the packets about the transfer. -/
theorem FileLink.dataInFlight_eq (link : FileLink) (sender : Bool) (i : UInt8) :
    link.dataInFlight sender i = dataOf (link.transfer sender i false).sent := by
  simp only [FileLink.dataInFlight, dataOf, FileLink.transfer, FilePeer.slotEnd, filterMap_filterMap, Bool.xor_false,
    Bool.not_false]
  apply filterMap_congr
  intro packet _
  apply Option.ext
  intro data
  have hleft : (match packet.bytes with
      | packetId :: j :: data => if packetId = packetIdFileData ∧ j = i then some data else none
      | _ => none) = some data ↔ packet.bytes = packetIdFileData :: i :: data := by
    split
    · rw [Option.ite_none_right_eq_some]
      aesop
    · rename_i hshort
      simp only [reduceCtorEq, false_iff]
      exact fun h => hshort _ _ _ h
  rw [hleft, ← slotPacket_eq_data, SentPacket.about]
  cases hp : slotPacket true i packet.bytes with
  | none => simp
  | some p => cases p <;> simp

/-- What a file that was offered in a free slot carries at first. -/
theorem FileCarries.of_newFilesender {link : FileLink} {sender : Bool} {write : Option UInt32} {fileType : UInt32}
    {size : UInt64} {fileId : Block 32} {filename : Bytes} (hidle : link.Idle sender i)
    (hoffer : ((link sender).newFilesender write fileType size fileId filename).1 = i.toNat) :
    FileCarries size (link.transfer sender i)
      (FileLink.transfer (update link sender ((link sender).newFilesender write fileType size fileId filename).2)
        sender i false)
      (FileLink.transfer (update link sender ((link sender).newFilesender write fileType size fileId filename).2)
        sender i true) [] [] := by
  obtain ⟨hnegative, -⟩ | ⟨j, hresult, hstatus, hmoves⟩ :=
    (link sender).newFilesender_cases write fileType size fileId filename
  · omega
  obtain rfl : j = i := UInt8.toNat_inj.mp (by omega)
  have hsender : FileLink.transfer (update link sender
      ((link sender).newFilesender write fileType size fileId filename).2) sender j false =
        ((link sender).newFilesender write fileType size fileId filename).2.slotEnd false j := by
    simp [FileLink.transfer]
  have hreceiver : FileLink.transfer (update link sender
      ((link sender).newFilesender write fileType size fileId filename).2) sender j true =
        link.transfer sender j true := by
    simp [FileLink.transfer]
  have hquiet : ((link sender).slotEnd false j).sent = [] := by simpa [FileLink.transfer] using hidle.2 false
  have hback := hidle.2 true
  rw [hsender, hreceiver, hmoves.slotEnd_self, hquiet]
  refine ⟨rfl, .of_eq UInt64.zero_le rfl, ?_, by simp, rfl, rfl, ?_, ?_⟩
  · simp [FileLink.transfer]
  · rw [hback]
    simp [OnlyControls]
  · exact .requested rfl (by simpa [FileLink.transfer] using hidle.1) ⟨_, _, rfl⟩ hback rfl rfl

/-- What a transfer carries is what was delivered. -/
theorem FileCarries.delivers {before link : FileLink} {sender : Bool} {size : UInt64}
    {arrived pending : List (UInt64 × Bytes)}
    (h : FileCarries size (before.transfer sender i) (link.transfer sender i false)
      (link.transfer sender i true) arrived pending) :
    before.Delivers link sender i size arrived pending := by
  have hslot : (link.transfer sender i false).slot = (link sender).files.fileSending i := by simp [FileLink.transfer]
  have hfree : (link.transfer sender i true).slot =
    (link (!sender)).files.fileReceiving i := by simp [FileLink.transfer]
  have hlog (l : FileLink) : (l.transfer sender i true).log = chunksOf i (l (!sender)).filedata := by
    simp [FileLink.transfer, FilePeer.slotEnd]
  have hpending : link.dataInFlight sender i = pending.map Prod.snd := (link.dataInFlight_eq sender i).trans h.inFlight
  have hbounded := h.bounded
  have hsize := h.size_eq
  have hpassed := h.passed
  rw [hslot] at hbounded hsize
  rw [hlog, hlog] at hpassed
  refine ⟨?_, hpending, fun hmissing => ?_, fun hcomplete => ?_, hsize, ?_, ?_, ?_⟩
  · simpa [FileLink.transfer, FilePeer.slotEnd] using h.accepted
  · have hnot : ∀ chunk ∈ arrived, ¬FinalChunk size chunk := by
      refine h.arrived_of_missing ?_
      rw [hslot]
      simp only [FileLink.Complete, hpending, map_eq_nil_iff, not_and, not_not] at hmissing
      exact Classical.or_iff_not_imp_left.mpr fun hp => hmissing (not_not.mp hp)
    obtain ⟨hall, hfull⟩ := flatMap_announced hnot
    rw [hall] at hpassed
    exact ⟨hpassed, hfull⟩
  · obtain ⟨hnone, hstatus⟩ := hcomplete
    obtain rfl : pending = [] := by simpa [hpending] using hnone
    rw [← hslot] at hstatus
    obtain ⟨hfreed, init, last, rfl, hfinal, hend, hinit⟩ := h.arrived_of_complete hstatus
    obtain ⟨hall, hfull⟩ := flatMap_announced hinit
    refine ⟨rfl, hfree ▸ hfreed, last, by simp, ?_, hend⟩
    have hfilter : init.filter (fun chunk => chunk.2 ≠ []) = init :=
      filter_eq_self.mpr fun chunk hchunk => by simpa using hfull chunk hchunk
    rw [hpassed, flatMap_append, hall, filter_append, hfilter]
    obtain ⟨position, data⟩ := last
    by_cases hempty : data = []
    · subst hempty
      simp [announced]
    · simp [announced, hfinal, hempty]
  · exact hsize ▸ hbounded.transferred_le
  · exact hsize ▸ hbounded.requested_le
  · intro hknown
    exact hbounded.transferred_le_requested (by rwa [hsize])

/-- A file that is offered is delivered: whatever the two messengers do, as long as the transfer is not killed and the
slot is not used for another file, what arrived of the chunks that `file_data` took was passed on, with one
announcement of the end after all bytes, when the slot is free. -/
theorem newFilesender_delivers {link : FileLink} {sender : Bool} {i : UInt8} {write : Option UInt32} {fileType : UInt32}
    {size : UInt64} {fileId : Block 32} {filename : Bytes} {steps : List FileStep} (hopen : link.Open)
    (hidle : link.Idle sender i)
    (hoffer : ((link sender).newFilesender write fileType size fileId filename).1 = i.toNat)
    (hsteps : AllowedSteps (fun _ => False) False sender i
      (update link sender ((link sender).newFilesender write fileType size fileId filename).2) steps) :
    ∃ arrived pending, link.Delivers
      (steps.foldl (fun link step => step.exec link)
        (update link sender ((link sender).newFilesender write fileType size fileId filename).2))
      sender i size arrived pending := by
  have hopen' : FileLink.Open
      (update link sender ((link sender).newFilesender write fileType size fileId filename).2) := by
    intro side
    by_cases hside : side = sender
    · subst hside
      rw [update_self]
      exact FilePeer.call_open (hopen side) (.newFilesender write fileType size fileId filename)
    · rw [update_of_ne hside]
      exact hopen side
  obtain ⟨-, hrun⟩ := run_transfer hopen' hsteps
  obtain ⟨arrived, pending, hcarries⟩ := (FileCarries.of_newFilesender hidle hoffer).run hrun
  exact ⟨arrived, pending, hcarries.delivers⟩

/-- Two messengers that came online. -/
def FileLink.new : FileLink := fun _ => .new

/-- An application that hands over three bytes when it is asked for a chunk. -/
def exampleChunkEnv : FilePeer.ChunkEnv where
  freeSlots := 100
  received := fun _ => true
  maxSpeedReached := fun _ _ => false
  reqchunk := fun _ _ position _ => [.fileData (some 5) 100 0 position [1, 2, 3]]
  write := fun _ => none
  freeSlotsEmpty := fun _ => 0

/-- A file of five bytes is moved by two bytes, accepted, paused, resumed and sent. -/
def exampleFileSteps : List FileStep :=
  [.deliver true none, .call true (.fileSeek (some 1) (2 ^ 16) 2), .call true (.fileControl (some 2) (2 ^ 16) 0),
    .deliver false none, .deliver false none, .call false (.fileControl (some 3) 0 1),
      .call false (.fileControl (some 4) 0 0),
    .chunks false exampleChunkEnv, .deliver true none, .deliver true none, .deliver true none,
      .chunks false exampleChunkEnv]

/-- Two messengers after a file of five bytes was offered. -/
def exampleOffer : FileLink :=
  update FileLink.new false ((FileLink.new false).newFilesender (some 0) 0 5 (slice 32 [] 0) []).2

/-- A new link is open. -/
theorem FileLink.new_open : FileLink.new.Open := by
  intro side
  exact ⟨rfl, fun _ h => nomatch h⟩

/-- A file of five bytes is delivered. -/
theorem newFilesender_delivers_five_bytes :
    FileLink.Complete (exampleFileSteps.foldl (fun link step => step.exec link) exampleOffer) false 0 ∧
      ∃ arrived pending, FileLink.new.Delivers
        (exampleFileSteps.foldl (fun link step => step.exec link) exampleOffer) false 0 5 arrived pending := by
  refine ⟨⟨by decide +kernel, by decide +kernel⟩,
    newFilesender_delivers FileLink.new_open ⟨rfl, fun receiving => ?_⟩ ?_ ?_⟩
  · cases receiving <;> rfl
  · decide +kernel
  · simp [exampleFileSteps, AllowedSteps, FileStep.Allowed, FileCall.Allowed, FileCall.Offers, FileCall.Kills,
      AllowedCalls,
      exampleChunkEnv]

end Toxcore
