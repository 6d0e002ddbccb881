import Mathlib.Data.FinEnum
import Toxcore.Messenger.FileCounters

/-!
# The number of files that are sent

`num_sending_files` is counted apart from the slots: a file that is offered adds one, and a slot that is freed takes
one away, when the application or the friend kills the transfer and when the file arrived. `break_files` frees all
slots and leaves the number alone. A slot that the application frees itself, while it is told that the file arrived or
was killed, is counted twice.
-/

namespace Toxcore

open ByteStrings

/-- The slots of the files that are sent. -/
def usedSlots (slots : UInt8 → FileTransfers) : Finset UInt8 := Finset.univ.filter fun i => (slots i).status ≠ .none

/-- The slots in use are those with a status. -/
theorem mem_usedSlots {slots : UInt8 → FileTransfers} {i : UInt8} : i ∈ usedSlots slots ↔ (slots i).status ≠ .none := by
  simp [usedSlots]

/-- A slot is written. -/
theorem usedSlots_update (slots : UInt8 → FileTransfers) (i : UInt8) (ft : FileTransfers) :
    usedSlots (Function.update slots i ft) =
      if ft.status = .none then (usedSlots slots).erase i else insert i (usedSlots slots) := by
  ext j
  by_cases hj : j = i
  · subst hj
    split <;> simp_all [mem_usedSlots]
  · split <;> simp [mem_usedSlots, hj]

/-- There are at most 256 slots. -/
theorem card_usedSlots_le (slots : UInt8 → FileTransfers) : (usedSlots slots).card ≤ 256 := by
  have hcard : Fintype.card UInt8 = 256 := by decide +kernel
  exact hcard ▸ Finset.card_le_univ _

/-- `num_sending_files` is the number of the slots of files that are sent. -/
def FriendFiles.Counted (files : FriendFiles) : Prop := files.numSendingFiles.toNat = (usedSlots files.fileSending).card

namespace FriendFiles.Counted

variable {files : FriendFiles} {i : UInt8} {ft : FileTransfers}

section

variable (h : files.Counted)
include h

/-- Slots of files that are received do not count. -/
theorem setReceiving (i : UInt8) (ft : FileTransfers) : (files.setReceiving i ft).Counted := h

/-- Writing a slot without freeing it or taking it. -/
theorem setSending (hsame : ft.status = .none ↔ (files.fileSending i).status = .none) :
    (files.setSending i ft).Counted := by
  have hused : usedSlots (files.setSending i ft).fileSending = usedSlots files.fileSending := by
    rw [FriendFiles.setSending, usedSlots_update]
    split
    · rename_i hfree
      exact Finset.erase_eq_of_notMem fun hmem => mem_usedSlots.mp hmem (hsame.mp hfree)
    · rename_i htaken
      exact Finset.insert_eq_of_mem (mem_usedSlots.mpr fun hfree => htaken (hsame.mpr hfree))
  rw [FriendFiles.Counted, hused]
  exact h

/-- Taking a free slot and counting it. -/
theorem take (hfree : (files.fileSending i).status = .none) (htaken : ft.status ≠ .none) :
    FriendFiles.Counted
      { files.setSending i ft with numSendingFiles := (files.setSending i ft).numSendingFiles + 1 } := by
  have hle := card_usedSlots_le files.fileSending
  have hnew : i ∉ usedSlots files.fileSending := fun hmem => mem_usedSlots.mp hmem hfree
  change (files.numSendingFiles + 1).toNat = (usedSlots (Function.update files.fileSending i ft)).card
  rw [usedSlots_update, if_neg htaken, Finset.card_insert_of_notMem hnew, UInt32.toNat_add, h, Nat.mod_eq_of_lt]
  · rfl
  · exact lt_of_le_of_lt (Nat.add_le_add_right hle _) (by decide)

/-- Freeing a slot and taking it off the number is right exactly if the slot was in use. -/
theorem free_iff (hfreed : ft.status = .none) :
    FriendFiles.Counted { files.setSending i ft with numSendingFiles := (files.setSending i ft).numSendingFiles - 1 } ↔
      (files.fileSending i).status ≠ .none := by
  have hle := card_usedSlots_le files.fileSending
  have hnum : files.numSendingFiles.toNat = (usedSlots files.fileSending).card := h
  change (files.numSendingFiles - 1).toNat = (usedSlots (Function.update files.fileSending i ft)).card ↔ _
  rw [usedSlots_update, if_pos hfreed, UInt32.toNat_sub, hnum, show (1 : UInt32).toNat = 1 from rfl]
  by_cases hused : i ∈ usedSlots files.fileSending
  · have hpos := Finset.card_pos.mpr ⟨i, hused⟩
    rw [Finset.card_erase_of_mem hused]
    refine iff_of_true ?_ (mem_usedSlots.mp hused)
    omega
  · rw [Finset.erase_eq_of_notMem hused]
    refine iff_of_false ?_ fun hmem => hused (mem_usedSlots.mpr hmem)
    omega

/-- Going offline is right exactly if no file is sent. -/
theorem breakFiles_iff : files.breakFiles.Counted ↔ ∀ i, (files.fileSending i).status = .none := by
  have hempty : usedSlots files.breakFiles.fileSending = ∅ := by
    ext i
    simp [mem_usedSlots, breakFiles]
  have hnum : files.numSendingFiles.toNat = (usedSlots files.fileSending).card := h
  change files.numSendingFiles.toNat = _ ↔ _
  rw [hempty, Finset.card_empty, hnum, Finset.card_eq_zero, Finset.eq_empty_iff_forall_notMem]
  exact forall_congr' fun i => mem_usedSlots.not.trans not_not

end

end FriendFiles.Counted

namespace FilePeer

variable {peer : FilePeer}

/-! ## Calls of the application -/

/-- A file is offered. -/
theorem newFilesender_counted (h : peer.files.Counted) (write : Option UInt32) (fileType : UInt32) (filesize : UInt64)
    (fileId : Block 32) (filename : Bytes) :
    (peer.newFilesender write fileType filesize fileId filename).2.files.Counted := by
  unfold newFilesender
  split
  · exact h
  split
  · exact h
  rename_i i hfind
  have hfree : (peer.files.fileSending (UInt8.ofNat i)).status = .none := by simpa using List.find?_some hfind
  dsimp only
  split
  · exact h
  · exact h.take hfree (by simp [FileTransfers.offered])

variable {ft : FileTransfers} {data : Bytes} {env : ChunkEnv}

/-- A control of the application frees a slot exactly if it kills the transfer. -/
theorem controlled_status {receiving : Bool} {control : UInt32} (h : ft.controlError receiving control = none) :
    ft.status ≠ .none ∧ ((ft.controlled control).status = .none ↔ control = 2) := by
  rcases FileTransfers.controlError_eq_none h with ⟨rfl, hused⟩ | ⟨rfl, hstatus, -⟩ | ⟨rfl, hstatus, -⟩ | ⟨rfl,
    hstatus, -⟩
  · exact ⟨hused, by simp [FileTransfers.controlled]⟩
  · exact ⟨by simp [hstatus], by simp [FileTransfers.controlled, hstatus]⟩
  · exact ⟨by simp [hstatus], by simp [FileTransfers.controlled]⟩
  · exact ⟨by simp [hstatus], by simp [FileTransfers.controlled]⟩

/-- A control is sent. -/
theorem fileControl_counted (h : peer.files.Counted) (write : Option UInt32) (filenumber control : UInt32) :
    (peer.fileControl write filenumber control).2.files.Counted := by
  unfold fileControl
  split
  · exact h
  split
  · exact h
  rename_i receiving i _
  dsimp only
  split
  · exact h
  rename_i herror
  obtain ⟨hused, hfreed⟩ := controlled_status herror
  split
  · exact h
  · cases receiving with
    | true => simpa [FriendFiles.setSlot] using h.setReceiving i _
    | false =>
      by_cases hkill : control = 2
      · rw [if_pos ⟨hkill, rfl⟩]
        exact (h.free_iff (hfreed.mpr hkill)).mpr hused
      · rw [if_neg fun hboth => hkill hboth.1]
        exact h.setSending (iff_of_false (fun hnone => hkill (hfreed.mp hnone)) hused)

/-- A position is asked for. -/
theorem fileSeek_counted (h : peer.files.Counted) (write : Option UInt32) (filenumber : UInt32) (position : UInt64) :
    (peer.fileSeek write filenumber position).2.files.Counted := by
  unfold fileSeek
  split
  · exact h
  split
  · exact h
  split
  · exact h
  dsimp only
  split
  · exact h
  split
  · exact h
  · exact h.setReceiving _ _

/-- A chunk does not free the slot. -/
theorem dataSent_status {position : UInt64} (h : ft.dataError position data = none) :
    ft.status ≠ .none ∧ ∀ number, (ft.dataSent number data).status ≠ .none := by
  have hstatus := (FileTransfers.dataError_eq_none h).1
  refine ⟨by simp [hstatus], fun number => ?_⟩
  unfold FileTransfers.dataSent
  dsimp only
  split
  · simp
  · simp [hstatus]

/-- Data is sent. -/
theorem fileData_counted (h : peer.files.Counted) (write : Option UInt32) (freeSlots : ℕ) (filenumber : UInt32)
    (position : UInt64) (data : Bytes) : (peer.fileData write freeSlots filenumber position data).2.files.Counted := by
  unfold fileData
  split
  · exact h
  split
  · exact h
  dsimp only
  split
  · exact h
  rename_i herror
  split
  · exact h
  split
  · exact h
  · obtain ⟨hused, hkept⟩ := dataSent_status herror
    exact h.setSending (iff_of_false (hkept _) hused)

/-- A call of the client. -/
theorem call_counted (h : peer.files.Counted) (c : FileCall) : (peer.call c).files.Counted := by
  cases c with
  | newFilesender write fileType filesize fileId filename => exact newFilesender_counted h ..
  | fileControl write filenumber control => exact fileControl_counted h ..
  | fileSeek write filenumber position => exact fileSeek_counted h ..
  | fileData write freeSlots filenumber position data => exact fileData_counted h ..

/-- The calls that the application makes in a callback. -/
theorem calls_counted (h : peer.files.Counted) (calls : List FileCall) : (calls.foldl call peer).files.Counted := by
  induction calls generalizing peer with
  | nil => exact h
  | cons c rest ih => exact ih (call_counted h c)

/-- The calls leave a slot in use. -/
def LeavesInUse (calls : List FileCall) (i : UInt8) (peer : FilePeer) : Prop :=
  ((calls.foldl call peer).files.fileSending i).status ≠ .none

/-! ## Asking for chunks -/

/-- Freeing the slot of a file that arrived is right exactly if it was in use. -/
theorem acknowledge_counted_iff (h : peer.files.Counted) (i : UInt8) :
    (peer.acknowledge i).files.Counted ↔ (peer.files.fileSending i).status ≠ .none :=
  h.free_iff rfl

/-- If the file of a slot arrived, the application does not free the slot when it is told so. -/
def ChunkEnv.KeepsSlot (env : ChunkEnv) (i : UInt8) (peer : FilePeer) : Prop :=
  (peer.files.fileSending i).status = .finished ∧ env.received (peer.files.fileSending i).lastPacketNumber →
    LeavesInUse (env.reqchunk peer i (peer.files.fileSending i).transferred 0) i peer

/-- The slots in use that asking for chunks comes to, each with the peer that it finds there. -/
inductive ComesTo (env : ChunkEnv) : List UInt8 → UInt32 → ℕ → FilePeer → UInt8 → FilePeer → Prop
  | here {i rest num freeSlots peer} : ComesTo env (i :: rest) num freeSlots peer i peer
  | used {i rest num freeSlots left peer next j later} (hused : (peer.files.fileSending i).status ≠ .none)
      (hloop : reqchunkLoop env i (freeSlots - ((peer.checkFinished env i).files.fileSending i).slotsAllocated.toNat)
        (peer.checkFinished env i) =
        (left, next)) (hmore : num - 1 ≠ 0) (h : ComesTo env rest (num - 1) left next j later) :
      ComesTo env (i :: rest) num freeSlots peer j later
  | free {i rest num freeSlots peer j later} (hfree : (peer.files.fileSending i).status = .none) (hmore : num ≠ 0)
      (h : ComesTo env rest num freeSlots peer j later) : ComesTo env (i :: rest) num freeSlots peer j later

/-- While chunks are asked for, the application does not free the slot of a file when it is told that the file
arrived. -/
def ChunkEnv.KeepsArrived (env : ChunkEnv) (peer : FilePeer) : Prop :=
  ∀ i later, ComesTo env ((List.range maxConcurrentFilePipes).map UInt8.ofNat) peer.files.numSendingFiles
    (env.freeSlots - minSlotsFree) peer i later → env.KeepsSlot i later

/-- A transfer that has arrived is taken off. -/
theorem checkFinished_counted (h : peer.files.Counted) {i : UInt8} (hkeeps : env.KeepsSlot i peer) :
    (peer.checkFinished env i).files.Counted := by
  unfold checkFinished
  dsimp only
  split
  · rename_i hfinished
    exact (acknowledge_counted_iff (calls_counted h _) i).mpr (hkeeps hfinished)
  · exact h

/-- Data is asked for. -/
theorem reserve_counted (h : peer.files.Counted) (i : UInt8) : (peer.reserve i).files.Counted := h.setSending Iff.rfl

/-- Chunks of one file are asked for. -/
theorem reqchunkLoop_counted (env : ChunkEnv) (i : UInt8) (freeSlots : ℕ) (h : peer.files.Counted) :
    (reqchunkLoop env i freeSlots peer).2.files.Counted := by
  induction freeSlots generalizing peer with
  | zero => exact h
  | succ freeSlots ih =>
    rw [reqchunkLoop]
    split
    · exact h
    split
    · exact h
    split
    · exact call_counted h _
    split
    · exact h
    · exact ih (calls_counted (reserve_counted h i) _)

/-- Chunks of all files are asked for. -/
theorem reqchunkSlots_counted {slots : List UInt8} {num : UInt32} {freeSlots : ℕ} (h : peer.files.Counted)
    (hkeeps : ∀ i later, ComesTo env slots num freeSlots peer i later → env.KeepsSlot i later) :
    (reqchunkSlots env slots num freeSlots peer).files.Counted := by
  induction slots generalizing peer num freeSlots with
  | nil => exact h
  | cons i rest ih =>
    have hslot := reqchunkLoop_counted env i
      (freeSlots - ((peer.checkFinished env i).files.fileSending i).slotsAllocated.toNat)
      (checkFinished_counted h (hkeeps i peer .here))
    rw [reqchunkSlots]
    split
    · rename_i hused
      dsimp only
      split
      · exact hslot
      · rename_i hmore
        exact ih hslot fun j later hcomes => hkeeps j later (.used hused rfl hmore hcomes)
    · rename_i hfree
      split
      · exact h
      · rename_i hmore
        exact ih h fun j later hcomes => hkeeps j later (.free (not_not.mp hfree) hmore hcomes)

/-- The pass over the transfers of a friend. -/
theorem doReqchunkFilecb_counted (h : peer.files.Counted) (hkeeps : env.KeepsArrived peer) :
    (peer.doReqchunkFilecb env).files.Counted := by
  unfold doReqchunkFilecb
  split
  · exact h
  · exact reqchunkSlots_counted h hkeeps

/-! ## Control packets -/

/-- The calls that the application makes in the callback `file_filecontrol`, given the number of the file and the
control. -/
abbrev FilecontrolCallback := FilePeer → UInt32 → UInt8 → List FileCall

/-- `handle_filecontrol`, with the calls of the application. It is told of a killed transfer before the slot is
freed. -/
def handleFilecontrol (callback : FilecontrolCallback) (write : Option UInt32)
    (receiveSend filenumber controlType : UInt8) (data : Bytes) (peer : FilePeer) : FilePeer :=
  if receiveSend > 1 then peer
  else if controlType > filecontrolSeek then peer
  else
    let receiving := receiveSend == 0
    let realFilenumber : UInt32 := if receiving then (filenumber.toUInt32 + 1) <<< 16 else filenumber.toUInt32
    let ft := peer.files.slot receiving filenumber
    if ft.status = .none then
      let answer := peer.files.sendFileControlPacket write receiving filenumber filecontrolKill []
      { peer with outbox := peer.outbox ++ answer.toList.map fun bytes => ⟨none, bytes⟩ }
    else
      match ft.handleControl (!receiving) controlType data with
      | none => peer
      | some ft =>
        if controlType = filecontrolKill then
          let peer := (callback peer realFilenumber controlType).foldl call peer
          let files := peer.files.setSlot receiving filenumber
            { peer.files.slot receiving filenumber with status := .none }
          { peer with
            files := if receiving then files else { files with numSendingFiles := files.numSendingFiles - 1 } }
        else
          let peer := { peer with files := peer.files.setSlot receiving filenumber ft }
          if controlType = filecontrolSeek then peer
          else (callback peer realFilenumber controlType).foldl call peer

/-- The application does not free a slot when it is told that the friend killed its transfer. -/
def KeepsKilled (callback : FilecontrolCallback) (filenumber : UInt8) (peer : FilePeer) : Prop :=
  LeavesInUse (callback peer filenumber.toUInt32 filecontrolKill) filenumber peer

/-- A control packet that does not kill a transfer does not free its slot. -/
theorem handleControl_status {ft' : FileTransfers} {receiveSend : Bool} {controlType : UInt8}
    (h : ft.handleControl receiveSend controlType data = some ft') (hkill : controlType ≠ filecontrolKill)
    (hused : ft.status ≠ .none) : ft'.status ≠ .none := by
  simp only [FileTransfers.handleControl, if_neg hkill] at h
  split_ifs at h with haccept hnot hother hpause hrefused hseek hlength hstatus hposition <;> cases h
  · simp
  · exact hused
  · exact hused
  · exact hused

/-- A control of the friend arrives. -/
theorem handleFilecontrol_counted (h : peer.files.Counted) {callback : FilecontrolCallback} {write : Option UInt32}
    {receiveSend filenumber controlType : UInt8}
    (hkeeps : receiveSend ≠ 0 → controlType = filecontrolKill → (peer.files.fileSending filenumber).status ≠ .none →
      KeepsKilled callback filenumber peer) :
    (handleFilecontrol callback write receiveSend filenumber controlType data peer).files.Counted := by
  unfold handleFilecontrol
  split
  · exact h
  split
  · exact h
  dsimp only
  split
  · exact h
  rename_i hused
  split
  · exact h
  rename_i ft hft
  by_cases hreceive : receiveSend = 0
  · subst hreceive
    have hkept : (FilePeer.files { peer with files := peer.files.setSlot true filenumber ft }).Counted :=
      h.setReceiving filenumber ft
    rw [show ((0 : UInt8) == 0) = true from rfl]
    split
    · exact (calls_counted h _).setReceiving _ _
    · split
      · exact hkept
      · exact calls_counted hkept _
  · have hsending : (receiveSend == 0) = false := by simpa using hreceive
    rw [hsending] at hused hft ⊢
    split
    · rename_i hkill
      subst hkill
      exact ((calls_counted h _).free_iff rfl).mpr (hkeeps hreceive rfl hused)
    · rename_i hkill
      have hkept : (FilePeer.files { peer with files := peer.files.setSlot false filenumber ft }).Counted :=
        h.setSending (iff_of_false (handleControl_status hft hkill hused) hused)
      split
      · exact hkept
      · exact calls_counted hkept _

end FilePeer

/-! ## Runs -/

/-- A step that concerns the files of a friend: a call of the application, a control packet, asking for chunks, and
the friend going offline or coming online. -/
inductive SendingStep where
  | call (c : FileCall)
  | filecontrol (callback : FilePeer.FilecontrolCallback) (write : Option UInt32)
      (receiveSend filenumber controlType : UInt8)
      (data : Bytes)
  | chunks (env : FilePeer.ChunkEnv)
  | offline
  | online

/-- The peer after a step. -/
def SendingStep.exec (step : SendingStep) (peer : FilePeer) : FilePeer :=
  match step with
  | .call c => peer.call c
  | .filecontrol callback write receiveSend filenumber controlType data =>
    peer.handleFilecontrol callback write receiveSend filenumber controlType data
  | .chunks env => peer.doReqchunkFilecb env
  | .offline => { peer with files := { peer.files.breakFiles with online := false } }
  | .online => { peer with files := { peer.files with online := true } }

/-- No slot is freed that is not counted, and none without being counted: the friend goes offline only while no file
is sent to it, and the application does not free a slot when it is told that its file arrived or was killed. -/
def FreesCounted (peer : FilePeer) (step : SendingStep) : Prop :=
  match step with
  | .call _ => True
  | .filecontrol callback _ receiveSend filenumber controlType _ =>
    receiveSend ≠ 0 → controlType = filecontrolKill → (peer.files.fileSending filenumber).status ≠ .none →
      FilePeer.KeepsKilled callback filenumber peer
  | .chunks env => env.KeepsArrived peer
  | .offline => ∀ i, (peer.files.fileSending i).status = .none
  | .online => True

/-- The peers reached by steps of a kind, from a friend whose slots are free. -/
inductive SendingRun (ok : FilePeer → SendingStep → Prop) : FilePeer → Prop
  | new : SendingRun ok .new
  | step {peer : FilePeer} (step : SendingStep) (hrun : SendingRun ok peer) (hok : ok peer step) :
      SendingRun ok (step.exec peer)

/-- A step keeps the count. -/
theorem SendingStep.exec_counted {peer : FilePeer} {step : SendingStep} (h : peer.files.Counted)
    (hfrees : FreesCounted peer step) : (step.exec peer).files.Counted := by
  cases step with
  | call c => exact FilePeer.call_counted h c
  | filecontrol callback write receiveSend filenumber controlType data =>
    exact FilePeer.handleFilecontrol_counted h hfrees
  | chunks env => exact FilePeer.doReqchunkFilecb_counted h hfrees
  | offline => exact h.breakFiles_iff.mpr hfrees
  | online => exact h

/-- `num_sending_files` is the number of slots in use for files that are sent, after every run in which a friend goes
offline only while no file is sent to it and the application does not free a slot in the callbacks that precede its
being freed. -/
theorem num_sending_files_counted {peer : FilePeer} (hrun : SendingRun FreesCounted peer) :
    peer.files.numSendingFiles.toNat = (usedSlots peer.files.fileSending).card := by
  have hnew : FilePeer.new.files.Counted := by
    change (0 : UInt32).toNat = (usedSlots fun _ => FileTransfers.zero).card
    rw [usedSlots, Finset.filter_false_of_mem (by simp [FileTransfers.zero])]
    rfl
  have hcounted : peer.files.Counted := by
    induction hrun with
    | new => exact hnew
    | step step _ hok ih => exact step.exec_counted ih hok
  exact hcounted

/-- A file that is offered. -/
def offeredFile : SendingStep := .call (.newFilesender (some 0) 0 10 (slice 32 [] 0) [])

/-- A control packet about a file that is sent, to an application without callback. -/
def controlled (filenumber controlType : UInt8) : SendingStep :=
    .filecontrol (fun _ _ _ => []) none 1 filenumber controlType []

/-- Chunks are asked for and sent at once, and all packets arrive. -/
def sampleChunks : FilePeer.ChunkEnv where
  freeSlots := 100
  received _ := true
  maxSpeedReached _ _ := false
  reqchunk _ i position length :=
    if length = 0 then [] else [.fileData (some 1) 100 i.toUInt32 position (List.replicate length.toNat 0)]
  write _ := none
  freeSlotsEmpty _ := 0

/-- Two files are offered. The friend kills the second, and the first arrives. -/
def filesSent : FilePeer :=
  [offeredFile, offeredFile, controlled 1 filecontrolKill, controlled 0 filecontrolAccept, .chunks sampleChunks,
    .chunks sampleChunks].foldl (fun peer (step : SendingStep) => step.exec peer) .new

/-- The friend goes offline after that and comes back, and a third file is offered. -/
def offeredAgain : FilePeer := offeredFile.exec (SendingStep.online.exec (SendingStep.offline.exec filesSent))

/-- No file is counted while the friend is away, and one at the end. -/
theorem num_sending_files_counted_again : filesSent.files.numSendingFiles = 0 ∧
    offeredAgain.files.numSendingFiles.toNat = (usedSlots offeredAgain.files.fileSending).card := by
  have hkeeps (peer : FilePeer) : sampleChunks.KeepsArrived peer := by
    intro i later _ hfinished
    change (later.files.fileSending i).status ≠ .none
    rw [hfinished.1]
    exact nofun
  have hrun : SendingRun FreesCounted filesSent := by
    simp only [filesSent, List.foldl_cons, List.foldl_nil]
    exact .step _ (.step _ (.step _ (.step _ (.step _ (.step _ .new trivial) trivial) fun _ _ hused => hused)
      fun _ _ hused => hused) (hkeeps _)) (hkeeps _)
  have hzero : filesSent.files.numSendingFiles = 0 := by decide +kernel
  have hempty := (num_sending_files_counted hrun).symm.trans (congrArg UInt32.toNat hzero)
  have hfree (i : UInt8) : (filesSent.files.fileSending i).status = .none := not_not.mp fun hused =>
    Finset.card_ne_zero_of_mem (mem_usedSlots.mpr hused) hempty
  have hagain : SendingRun FreesCounted offeredAgain :=
    .step offeredFile (.step .online (.step .offline hrun hfree) trivial) trivial
  exact ⟨hzero, num_sending_files_counted hagain⟩

/-- A friend goes offline while a file is offered to it: no slot is in use, and one is counted. -/
theorem offline_still_counted :
    ∃ peer, SendingRun (fun _ _ => True) peer ∧ peer.files.numSendingFiles = 1 ∧
      ∀ i, (peer.files.fileSending i).status = .none := by
  have hrun : SendingRun (fun _ _ => True) (SendingStep.offline.exec (offeredFile.exec .new)) :=
    .step _ (.step _ .new trivial) trivial
  exact ⟨_, hrun, by decide +kernel, fun _ => rfl⟩

end Toxcore
