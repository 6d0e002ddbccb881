import Toxcore.NetCrypto.State

/-!
# File transfers of one friend

A messenger has 256 slots for files that it sends to a friend and 256 for files that it receives from it. A packet
names a slot by its number; the sender's slot and the receiver's slot of that number make up a transfer. The friend is
known and its packets come through `Net_Crypto` in order; whether a packet is taken for sending, and its number, is
handed to each call.
-/

namespace Toxcore

open ByteStrings Function

/-- `MAX_FILENAME_LENGTH`. -/
abbrev maxFilenameLength : ℕ := 255

/-- `MAX_CONCURRENT_FILE_PIPES`: every byte is the number of a slot. -/
abbrev maxConcurrentFilePipes : ℕ := 256

/-- `MAX_FILE_DATA_SIZE`. -/
abbrev maxFileDataSize : ℕ := maxCryptoDataSize - 2

/-- `MIN_SLOTS_FREE`. -/
def minSlotsFree : ℕ := cryptoMinQueueLength.toNat / 4

/-- `PACKET_ID_OFFLINE`. -/
def packetIdOffline : UInt8 := 25

/-- `PACKET_ID_FILE_SENDREQUEST`. -/
def packetIdFileSendrequest : UInt8 := 80

/-- `PACKET_ID_FILE_CONTROL`. -/
def packetIdFileControl : UInt8 := 81

/-- `PACKET_ID_FILE_DATA`. -/
def packetIdFileData : UInt8 := 82

/-- `FILECONTROL_ACCEPT`. -/
def filecontrolAccept : UInt8 := 0

/-- `FILECONTROL_PAUSE`. -/
def filecontrolPause : UInt8 := 1

/-- `FILECONTROL_KILL`. -/
def filecontrolKill : UInt8 := 2

/-- `FILECONTROL_SEEK`. -/
def filecontrolSeek : UInt8 := 3

/-- `FILE_PAUSE_US`. -/
def filePauseUs : UInt8 := 1

/-- `FILE_PAUSE_OTHER`. -/
def filePauseOther : UInt8 := 2

/-- `UINT64_MAX`, the size of a file of unknown size. -/
def unknownSize : UInt64 := 0xFFFFFFFFFFFFFFFF

/-- The `FILESTATUS_*` values. -/
inductive FileStatus where
  | none
  | notAccepted
  | transferring
  | finished
  deriving DecidableEq

/-- `struct File_Transfers`. -/
structure FileTransfers where
  size : UInt64
  transferred : UInt64
  status : FileStatus
  paused : UInt8
  lastPacketNumber : UInt32
  requested : UInt64
  slotsAllocated : UInt32
  id : Block 32

/-- A slot cleared to zero bytes. -/
def FileTransfers.zero : FileTransfers := ⟨0, 0, .none, 0, 0, 0, 0, slice 32 [] 0⟩

/-- A packet that was sent, and the id of the transfer that the slot of the sender held then. The id is not a part of
the packet; nothing that handles the packet reads it. -/
structure SentPacket where
  fileId : Option (Block 32)
  bytes : Bytes

/-! ## One slot -/

namespace FileTransfers

variable (ft : FileTransfers)

/-- We paused the transfer. -/
def pausedUs : Prop := ft.paused &&& filePauseUs ≠ 0

/-- The other paused the transfer. -/
def pausedOther : Prop := ft.paused &&& filePauseOther ≠ 0

instance : Decidable ft.pausedUs := inferInstanceAs (Decidable (_ ≠ _))

instance : Decidable ft.pausedOther := inferInstanceAs (Decidable (_ ≠ _))

/-- The end of `new_filesender`. -/
def offered (filesize : UInt64) (fileId : Block 32) : FileTransfers :=
  { ft with
    status := .notAccepted, size := filesize, transferred := 0, requested := 0, slotsAllocated := 0, paused := 0, id :=
      fileId }

/-- The error of `file_control` for a slot, if there is one. -/
def controlError (receiving : Bool) (control : UInt32) : Option ℤ :=
  if ft.status = .none then some (-3)
  else if control > 2 then some (-4)
  else if control = 1 ∧ (ft.pausedUs ∨ ft.status ≠ .transferring) then some (-5)
  else if control = 0 then
    if ft.status = .transferring then
      if ft.pausedUs then none else if ft.pausedOther then some (-6) else some (-7)
    else if ft.status ≠ .notAccepted then some (-7)
    else if receiving = false then some (-6)
    else none
  else none

/-- A slot after `file_control` sent its packet. -/
def controlled (control : UInt32) : FileTransfers :=
  if control = 2 then { ft with status := .none }
  else if control = 1 then { ft with paused := ft.paused ||| filePauseUs }
  else
    { ft with
      status := .transferring
      paused := if ft.pausedUs then ft.paused ^^^ filePauseUs else ft.paused }

/-- The error of `file_seek` for a slot, if there is one. -/
def seekError (position : UInt64) : Option ℤ :=
  if ft.status = .none then some (-3)
  else if ft.status ≠ .notAccepted then some (-5)
  else if position ≥ ft.size then some (-6)
  else none

/-- The error of `file_data` for a slot, if there is one. -/
def dataError (position : UInt64) (data : Bytes) : Option ℤ :=
  let length := UInt64.ofNat data.length
  if ft.status ≠ .transferring then some (-4)
  else if data.length > maxFileDataSize then some (-5)
  else if ft.size - ft.transferred < length then some (-5)
  else if ft.size ≠ unknownSize ∧ data.length ≠ maxFileDataSize ∧ ft.transferred + length ≠ ft.size then some (-5)
  else if position ≠ ft.transferred ∨ (ft.requested ≤ position ∧ ft.size ≠ 0) then some (-7)
  else none

/-- A slot after `file_data` sent its packet. -/
def dataSent (number : UInt32) (data : Bytes) : FileTransfers :=
  let transferred := ft.transferred + UInt64.ofNat data.length
  let sent := { ft with
    transferred := transferred
    slotsAllocated := if ft.slotsAllocated ≠ 0 then ft.slotsAllocated - 1 else ft.slotsAllocated }
  if data.length ≠ maxFileDataSize ∨ ft.size = transferred then
    { sent with status := .finished, lastPacketNumber := number }
  else sent

/-- The length of the next chunk that `do_reqchunk_filecb` asks for. -/
def nextLength : UInt64 :=
  if ft.size - ft.requested < UInt64.ofNat maxFileDataSize then ft.size - ft.requested else UInt64.ofNat maxFileDataSize

/-- A slot for which `do_reqchunk_filecb` asks for a chunk. -/
def reserved : FileTransfers :=
  { ft with slotsAllocated := ft.slotsAllocated + 1, requested := ft.requested + ft.nextLength }

/-- A transfer that `handle_packet` was asked to receive; a slot that is in use is left alone. -/
def requested? (filesize : UInt64) (fileId : Block 32) : FileTransfers :=
  if ft.status ≠ .none then ft
  else { ft with status := .notAccepted, size := filesize, transferred := 0, paused := 0, id := fileId }

/-- What `handle_filecontrol` does to a slot in use; `none` is a packet that it refuses. -/
def handleControl (receiveSend : Bool) (controlType : UInt8) (data : Bytes) : Option FileTransfers :=
  if controlType = filecontrolAccept then
    if receiveSend ∧ ft.status = .notAccepted then some { ft with status := .transferring }
    else if ft.pausedOther then some { ft with paused := ft.paused ^^^ filePauseOther }
    else none
  else if controlType = filecontrolPause then
    if ft.pausedOther ∨ ft.status ≠ .transferring then none
    else some { ft with paused := ft.paused ||| filePauseOther }
  else if controlType = filecontrolKill then some { ft with status := .none }
  else if controlType = filecontrolSeek then
    let position := UInt64.ofNat (beNat data)
    if data.length ≠ 8 then none
    else if ft.status ≠ .notAccepted ∨ receiveSend = false then none
    else if position ≥ ft.size then none
    else some { ft with transferred := position, requested := position }
  else none

/-- What `handle_packet` does with data for a slot: the slot after it, and the calls of `file_filedata`, each with a
position and data. -/
def receiveData (data : Bytes) : FileTransfers × List (UInt64 × Bytes) :=
  if ft.status ≠ .transferring then (ft, [])
  else
    let length := UInt64.ofNat data.length
    let passed := if ft.transferred + length > ft.size then (ft.size - ft.transferred).toUInt16.toNat else data.length
    let transferred := ft.transferred + UInt64.ofNat passed
    if passed ≠ 0 ∧ (transferred ≥ ft.size ∨ passed ≠ maxFileDataSize) then
      ({ ft with transferred := transferred, status := .none },
        [(ft.transferred, data.take passed), (transferred, [])])
    else if passed = 0 then
      ({ ft with transferred := transferred, status := .none }, [(ft.transferred, data.take passed)])
    else ({ ft with transferred := transferred }, [(ft.transferred, data.take passed)])

end FileTransfers

/-! ## The slots of a friend -/

/-- The fields of `Friend` for file transfers. -/
structure FriendFiles where
  online : Bool
  fileSending : UInt8 → FileTransfers
  fileReceiving : UInt8 → FileTransfers
  numSendingFiles : UInt32

/-- A friend that came online. -/
def FriendFiles.new : FriendFiles := ⟨true, fun _ => .zero, fun _ => .zero, 0⟩

namespace FriendFiles

variable (files : FriendFiles)

/-- Write a slot for a file that is sent. -/
def setSending (i : UInt8) (ft : FileTransfers) : FriendFiles :=
  { files with fileSending := update files.fileSending i ft }

/-- Write a slot for a file that is received. -/
def setReceiving (i : UInt8) (ft : FileTransfers) : FriendFiles :=
  { files with fileReceiving := update files.fileReceiving i ft }

/-- A slot for a file that is received or sent. -/
def slot (receiving : Bool) (i : UInt8) : FileTransfers :=
    if receiving then files.fileReceiving i else files.fileSending i

/-- Write a slot for a file that is received or sent. -/
def setSlot (receiving : Bool) (i : UInt8) (ft : FileTransfers) : FriendFiles :=
  if receiving then files.setReceiving i ft else files.setSending i ft

/-- `write_cryptpacket_id`: a packet that was sent, or nothing. -/
def writeCryptpacketId (write : Option UInt32) (packetId : UInt8) (data : Bytes) : Option Bytes :=
  if data.length ≥ maxCryptoDataSize ∨ files.online = false then none
  else write.map fun _ => packetId :: data

/-- `break_files`. -/
def breakFiles : FriendFiles :=
  { files with
    fileSending := fun i => { files.fileSending i with status := .none }
    fileReceiving := fun i => { files.fileReceiving i with status := .none } }

/-- A file number of the application: a slot for a file that is received (`true`) or sent. -/
def fileSlot (filenumber : UInt32) : Option (Bool × UInt8) :=
  let receiving := decide (filenumber.toNat ≥ 2 ^ 16)
  let number := if receiving then filenumber.toNat / 2 ^ 16 - 1 else filenumber.toNat
  if number ≥ maxConcurrentFilePipes then none else some (receiving, UInt8.ofNat number)

/-- `send_file_control_packet`. -/
def sendFileControlPacket (write : Option UInt32) (sendReceive : Bool) (filenumber controlType : UInt8) (data : Bytes) :
    Option Bytes :=
  if 1 + 3 + data.length > maxCryptoDataSize then none
  else
    files.writeCryptpacketId write packetIdFileControl
      ((if sendReceive then 1 else 0) :: filenumber :: controlType :: data)

/-- `handle_filecontrol`, with the answer it sends. -/
def handleFilecontrol (write : Option UInt32) (receiveSend filenumber controlType : UInt8) (data : Bytes) :
    FriendFiles × List Bytes :=
  if receiveSend > 1 then (files, [])
  else if controlType > filecontrolSeek then (files, [])
  else
    let receiving := receiveSend == 0
    let ft := files.slot receiving filenumber
    if ft.status = .none then
      (files, (files.sendFileControlPacket write receiving filenumber filecontrolKill []).toList)
    else
      match ft.handleControl (!receiving) controlType data with
      | none => (files, [])
      | some ft =>
        let files := files.setSlot receiving filenumber ft
        (if controlType = filecontrolKill ∧ receiving = false then
          { files with numSendingFiles := files.numSendingFiles - 1 } else files, [])

end FriendFiles

/-! ## A peer -/

/-- A messenger and its friend: the slots, the packets that were sent and have not arrived, the chunks that
`file_data` took, and the calls of `file_filedata`, each with its slot. -/
structure FilePeer where
  files : FriendFiles
  outbox : List SentPacket
  accepted : List (UInt8 × UInt64 × Bytes)
  filedata : List (UInt8 × UInt64 × Bytes)

/-- A peer that came online. -/
def FilePeer.new : FilePeer := ⟨.new, [], [], []⟩

/-- The calls of the application, each with what it observes. -/
inductive FileCall where
  | newFilesender (write : Option UInt32) (fileType : UInt32) (filesize : UInt64) (fileId : Block 32) (filename : Bytes)
  | fileControl (write : Option UInt32) (filenumber control : UInt32)
  | fileSeek (write : Option UInt32) (filenumber : UInt32) (position : UInt64)
  | fileData (write : Option UInt32) (freeSlots : ℕ) (filenumber : UInt32) (position : UInt64) (data : Bytes)

namespace FilePeer

variable (peer : FilePeer)

/-- The packet of `file_sendrequest`. -/
def requestPacket (filenumber : UInt8) (fileType : UInt32) (filesize : UInt64) (fileId : Block 32)
    (filename : Bytes) : Bytes :=
  filenumber :: (beBytes 4 fileType.toNat ++ beBytes 8 filesize.toNat ++ fileId.toList ++ filename)

/-- `new_filesender`. -/
def newFilesender (write : Option UInt32) (fileType : UInt32) (filesize : UInt64) (fileId : Block 32)
    (filename : Bytes) :
    ℤ × FilePeer :=
  if filename.length > maxFilenameLength then (-2, peer)
  else
    match (List.range maxConcurrentFilePipes).find? fun i =>
      (peer.files.fileSending (UInt8.ofNat i)).status = .none with
    | none => (-3, peer)
    | some i =>
      let filenumber := UInt8.ofNat i
      match peer.files.writeCryptpacketId write packetIdFileSendrequest
          (requestPacket filenumber fileType filesize fileId filename) with
      | none => (-4, peer)
      | some packet =>
        let files := peer.files.setSending filenumber ((peer.files.fileSending filenumber).offered filesize fileId)
        (i, { peer with
          files := { files with numSendingFiles := files.numSendingFiles + 1 }
          outbox := peer.outbox ++ [⟨some fileId, packet⟩] })

/-- `file_control`. -/
def fileControl (write : Option UInt32) (filenumber control : UInt32) : ℤ × FilePeer :=
  if peer.files.online = false then (-2, peer)
  else
    match FriendFiles.fileSlot filenumber with
    | none => (-3, peer)
    | some (receiving, i) =>
      let ft := peer.files.slot receiving i
      match ft.controlError receiving control with
      | some error => (error, peer)
      | none =>
        match peer.files.sendFileControlPacket write receiving i (UInt8.ofNat control.toNat) [] with
        | none => (-8, peer)
        | some packet =>
          let files := peer.files.setSlot receiving i (ft.controlled control)
          (0, { peer with
            files := if control = 2 ∧ receiving = false then
              { files with numSendingFiles := files.numSendingFiles - 1 } else files
            outbox := peer.outbox ++ [⟨some ft.id, packet⟩] })

/-- `file_seek`. -/
def fileSeek (write : Option UInt32) (filenumber : UInt32) (position : UInt64) : ℤ × FilePeer :=
  if peer.files.online = false then (-2, peer)
  else if filenumber.toNat < 2 ^ 16 then (-4, peer)
  else
    match FriendFiles.fileSlot filenumber with
    | none => (-3, peer)
    | some (_, i) =>
      let ft := peer.files.fileReceiving i
      match ft.seekError position with
      | some error => (error, peer)
      | none =>
        match peer.files.sendFileControlPacket write true i filecontrolSeek (beBytes 8 position.toNat) with
        | none => (-8, peer)
        | some packet =>
          (0, { peer with
            files := peer.files.setReceiving i { ft with transferred := position }
            outbox := peer.outbox ++ [⟨some ft.id, packet⟩] })

/-- `file_data`. -/
def fileData (write : Option UInt32) (freeSlots : ℕ) (filenumber : UInt32) (position : UInt64) (data : Bytes) :
    ℤ × FilePeer :=
  if peer.files.online = false then (-2, peer)
  else if filenumber.toNat ≥ maxConcurrentFilePipes then (-3, peer)
  else
    let i := UInt8.ofNat filenumber.toNat
    let ft := peer.files.fileSending i
    match ft.dataError position data with
    | some error => (error, peer)
    | none =>
      if freeSlots < minSlotsFree then (-6, peer)
      else
        match write with
        | none => (-6, peer)
        | some number =>
          (0, { peer with
            files := peer.files.setSending i (ft.dataSent number data)
            outbox := peer.outbox ++ [⟨some ft.id, packetIdFileData :: i :: data⟩]
            accepted := peer.accepted ++ [(i, position, data)] })

/-- A call of the application. -/
def call (c : FileCall) : FilePeer :=
  match c with
  | .newFilesender write fileType filesize fileId filename =>
    (peer.newFilesender write fileType filesize fileId filename).2
  | .fileControl write filenumber control => (peer.fileControl write filenumber control).2
  | .fileSeek write filenumber position => (peer.fileSeek write filenumber position).2
  | .fileData write freeSlots filenumber position data => (peer.fileData write freeSlots filenumber position data).2

/-! ### Asking for chunks -/

/-- What `do_reqchunk_filecb` observes: the room in the send queue, the packets that were acknowledged, where the
speed limit is reached, what the application does when it is asked for a chunk, and what the `file_data` of an empty
file observes. -/
structure ChunkEnv where
  freeSlots : ℕ
  received : UInt32 → Bool
  maxSpeedReached : UInt8 → ℕ → Bool
  reqchunk : FilePeer → UInt8 → UInt64 → UInt64 → List FileCall
  write : UInt8 → Option UInt32
  freeSlotsEmpty : UInt8 → ℕ

/-- The callback `file_reqchunk`, in which the application makes calls. -/
def askChunk (env : ChunkEnv) (i : UInt8) (position length : UInt64) : FilePeer :=
  (env.reqchunk peer i position length).foldl call peer

/-- Reserve the next chunk of a slot. -/
def reserve (i : UInt8) : FilePeer :=
  { peer with files := peer.files.setSending i (peer.files.fileSending i).reserved }

/-- Free the slot of a file that arrived. -/
def acknowledge (i : UInt8) : FilePeer :=
  let files := peer.files.setSending i { peer.files.fileSending i with status := .none }
  { peer with files := { files with numSendingFiles := files.numSendingFiles - 1 } }

/-- The inner loop of `do_reqchunk_filecb`; the result is the room that is left. -/
def reqchunkLoop (env : ChunkEnv) (i : UInt8) : ℕ → FilePeer → ℕ × FilePeer
  | 0, peer => (0, peer)
  | freeSlots + 1, peer =>
    let ft := peer.files.fileSending i
    if ft.status ≠ .transferring ∨ ft.paused ≠ 0 then (freeSlots + 1, peer)
    else if env.maxSpeedReached i (freeSlots + 1) then (0, peer)
    else if ft.size = 0 then
      (freeSlots + 1, peer.call (.fileData (env.write i) (env.freeSlotsEmpty i) (UInt32.ofNat i.toNat) 0 []))
    else if ft.size = ft.requested then (freeSlots + 1, peer)
    else reqchunkLoop env i freeSlots ((peer.reserve i).askChunk env i ft.requested ft.nextLength)

/-- What `do_reqchunk_filecb` does for a slot in use before its inner loop. -/
def checkFinished (env : ChunkEnv) (i : UInt8) : FilePeer :=
  let ft := peer.files.fileSending i
  if ft.status = .finished ∧ env.received ft.lastPacketNumber then (peer.askChunk env i ft.transferred 0).acknowledge i
  else peer

/-- The loop of `do_reqchunk_filecb` over the slots; `num` slots in use are still to come. -/
def reqchunkSlots (env : ChunkEnv) : List UInt8 → UInt32 → ℕ → FilePeer → FilePeer
  | [], _, _, peer => peer
  | i :: rest, num, freeSlots, peer =>
    if (peer.files.fileSending i).status ≠ .none then
      let peer := peer.checkFinished env i
      let (freeSlots, peer) :=
        reqchunkLoop env i (freeSlots - (peer.files.fileSending i).slotsAllocated.toNat) peer
      if num - 1 = 0 then peer else reqchunkSlots env rest (num - 1) freeSlots peer
    else if num = 0 then peer
    else reqchunkSlots env rest num freeSlots peer

/-- `do_reqchunk_filecb`. -/
def doReqchunkFilecb (env : ChunkEnv) : FilePeer :=
  if peer.files.numSendingFiles = 0 then peer
  else
    reqchunkSlots env ((List.range maxConcurrentFilePipes).map UInt8.ofNat) peer.files.numSendingFiles
      (env.freeSlots - minSlotsFree) peer

/-! ### Packets -/

/-- `handle_packet` for the packets that are about file transfers, and for the one that ends the session. -/
def handlePacket (write : Option UInt32) (packet : Bytes) : FilePeer :=
  match packet with
  | [] => peer
  | packetId :: data =>
    if peer.files.online = false then peer
    else if packetId = packetIdOffline then
      if data.length ≠ 0 then peer else { peer with files := { peer.files.breakFiles with online := false } }
    else if packetId = packetIdFileSendrequest then
      let headLength := 1 + 4 + 8 + 32
      if data.length < headLength then peer
      else if data.length - headLength > maxFilenameLength then peer
      else
        let filenumber := data.getD 0 0
        let filesize := UInt64.ofNat (beNat (slice 8 data 5).toList)
        let ft := (peer.files.fileReceiving filenumber).requested? filesize (slice 32 data 13)
        { peer with files := peer.files.setReceiving filenumber ft }
    else if packetId = packetIdFileControl then
      if data.length < 3 then peer
      else
        let (files, answer) :=
          peer.files.handleFilecontrol write (data.getD 0 0) (data.getD 1 0) (data.getD 2 0) (data.drop 3)
        { peer with files := files, outbox := peer.outbox ++ answer.map fun bytes => ⟨none, bytes⟩ }
    else if packetId = packetIdFileData then
      if data.length < 1 then peer
      else
        let filenumber := data.getD 0 0
        let (ft, calls) := (peer.files.fileReceiving filenumber).receiveData (data.drop 1)
        { peer with
          files := peer.files.setReceiving filenumber ft
          filedata := peer.filedata ++ calls.map fun c => (filenumber, c) }
    else peer

end FilePeer

/-! ## Two peers -/

/-- Two messengers that are friends; what one sends arrives at the other in order. -/
abbrev FileLink := Bool → FilePeer

/-- A step of one of two messengers: a call of the application, asking for chunks, or the next packet of the other
arriving. -/
inductive FileStep where
  | call (side : Bool) (c : FileCall)
  | chunks (side : Bool) (env : FilePeer.ChunkEnv)
  | deliver (side : Bool) (write : Option UInt32)

/-- The next packet of the other messenger arrives. -/
def FileLink.deliver (link : FileLink) (side : Bool) (write : Option UInt32) : FileLink :=
  let other := link (!side)
  match other.outbox with
  | [] => link
  | packet :: rest =>
    update (update link (!side) { other with outbox := rest }) side
      ((link side).handlePacket write packet.bytes)

/-- The two messengers after a step. -/
def FileStep.exec (step : FileStep) (link : FileLink) : FileLink :=
  match step with
  | .call side c => update link side ((link side).call c)
  | .chunks side env => update link side ((link side).doReqchunkFilecb env)
  | .deliver side write => link.deliver side write

end Toxcore
