import Toxcore.Data.ByteStrings
import Toxcore.Data.RingWindow

/-!
# The packet arrays of a crypto connection

Every crypto connection keeps the lossless packets it sent and the ones it received in a ring of
`CRYPTO_PACKET_BUFFER_SIZE` slots. Packet numbers are 32-bit and wrap; `{bufferStart, bufferEnd)`
are the numbers in the array, holes included.

A failing operation is `none` and leaves the array as it was. The one exception is
`handleRequestPacket`, which may already have freed packets when it gives up.
-/

namespace Toxcore

open ByteStrings RingWindow Function

/-- `CRYPTO_PACKET_BUFFER_SIZE`, the number of slots of a packet array. -/
abbrev cryptoPacketBufferSize : ℕ := 32768

instance : NeZero cryptoPacketBufferSize := ⟨by decide⟩

/-- A stored packet. The length field of the source is the length of `data`. -/
structure PacketData where
  sentTime : UInt64
  data : Bytes
  deriving DecidableEq

/-- A ring of packets and the numbers it covers. -/
structure PacketsArray where
  buffer : Fin cryptoPacketBufferSize → Option PacketData
  bufferStart : UInt32
  bufferEnd : UInt32

/-- The slot a packet number is stored in. -/
abbrev packetSlot (number : UInt32) : Fin cryptoPacketBufferSize := slot cryptoPacketBufferSize number

/-- An array without packets whose next number is `number`. -/
def PacketsArray.emptyAt (number : UInt32) : PacketsArray := ⟨fun _ => none, number, number⟩

/-- The number of packets in the array, holes counted too. -/
def numPacketsArray (array : PacketsArray) : ℕ := offset array.bufferStart array.bufferEnd

/-- Add data with a packet number. `alloc` is the outcome of the allocation. -/
def addDataToBuffer (alloc : Bool) (array : PacketsArray) (number : UInt32) (data : PacketData) :
    Option PacketsArray :=
  if offset array.bufferStart number > cryptoPacketBufferSize then none
  else if (array.buffer (packetSlot number)).isSome then none
  else if !alloc then none
  else some
    { array with
      buffer := update array.buffer (packetSlot number) (some data)
      bufferEnd :=
        if offset array.bufferStart number ≥ offset array.bufferStart array.bufferEnd then number + 1
        else array.bufferEnd }

/-- The packet with a number. `none` is a number outside the array, `some none` an empty slot. -/
def getDataPointer (array : PacketsArray) (number : UInt32) : Option (Option PacketData) :=
  let numSpots := offset array.bufferStart array.bufferEnd
  if offset number array.bufferEnd > numSpots ∨ offset array.bufferStart number ≥ numSpots then none
  else some (array.buffer (packetSlot number))

/-- Add data under the next number, and return that number. -/
def addDataEndOfBuffer (alloc : Bool) (array : PacketsArray) (data : PacketData) :
    Option (UInt32 × PacketsArray) :=
  if numPacketsArray array ≥ cryptoPacketBufferSize then none
  else if !alloc then none
  else
    let id := array.bufferEnd
    some (id,
      { array with
        buffer := update array.buffer (packetSlot id) (some data)
        bufferEnd := array.bufferEnd + 1 })

/-- Take the first packet out of the array, with its number. -/
def readDataBegBuffer (array : PacketsArray) : Option (UInt32 × PacketData × PacketsArray) :=
  if array.bufferEnd = array.bufferStart then none
  else
    let num := packetSlot array.bufferStart
    match array.buffer num with
    | none => none
    | some data =>
      some (array.bufferStart, data,
        { array with
          buffer := update array.buffer num none
          bufferStart := array.bufferStart + 1 })

/-- Delete all packets before a number. -/
def clearBufferUntil (array : PacketsArray) (number : UInt32) : Option PacketsArray :=
  let numSpots := offset array.bufferStart array.bufferEnd
  if offset number array.bufferEnd ≥ numSpots ∨ offset array.bufferStart number > numSpots then none
  else some
    { array with
      buffer := clearSlots array.buffer (window array.bufferStart number)
      bufferStart := number }

/-- Delete all packets. -/
def clearBuffer (array : PacketsArray) : PacketsArray :=
  { array with
    buffer := clearSlots array.buffer (window array.bufferStart array.bufferEnd)
    bufferStart := array.bufferEnd }

/-- Move the end of the array to a number. -/
def setBufferEnd (array : PacketsArray) (number : UInt32) : Option PacketsArray :=
  if offset array.bufferStart number > cryptoPacketBufferSize then none
  else if offset array.bufferEnd number > cryptoPacketBufferSize then none
  else some { array with bufferEnd := number }

/-! ## Request packets -/

/-- `PACKET_ID_REQUEST`, the first byte of a request for packets that were not received. -/
def packetIdRequest : UInt8 := 1

/-- The loop of `generateRequestPacket` over the remaining numbers, with `n` the distance from
the last missing number and `output` what was written so far. -/
def generateRequestLoop (length : ℕ) (buffer : Fin cryptoPacketBufferSize → Option PacketData) :
    List UInt32 → ℕ → Bytes → Bytes
  | [], _, output => output
  | i :: rest, n, output =>
    if (buffer (packetSlot i)).isNone then
      let output := output ++ [UInt8.ofNat n]
      -- `n` is reset to 0 and stepped at the end of the round.
      if length ≤ output.length then output else generateRequestLoop length buffer rest 1 output
    else if n = 255 then
      let output := output ++ [0]
      if length ≤ output.length then output else generateRequestLoop length buffer rest 1 output
    else generateRequestLoop length buffer rest (n + 1) output

/-- Create a request packet of at most `length` bytes for the holes of the receive array. -/
def generateRequestPacket (length : ℕ) (recvArray : PacketsArray) : Option Bytes :=
  if length = 0 then none
  else if recvArray.bufferStart = recvArray.bufferEnd then some [packetIdRequest]
  else if length ≤ 1 then some [packetIdRequest]
  else some (generateRequestLoop length recvArray.buffer
    (window recvArray.bufferStart recvArray.bufferEnd) 1 [packetIdRequest])

/-- A requested packet is due again once its round trip has passed. -/
def markRequested (now rttTime : UInt64) (packet : PacketData) : PacketData :=
  if packet.sentTime + rttTime < now then { packet with sentTime := 0 } else packet

/-- The loop of `handleRequestPacket` over the remaining numbers and bytes. The packets freed so
far stay freed when the loop fails. -/
def handleRequestLoop (now rttTime : UInt64) : List UInt32 → ℕ → Bytes → ℕ → UInt64 →
    (Fin cryptoPacketBufferSize → Option PacketData) →
    (Fin cryptoPacketBufferSize → Option PacketData) × Option (ℕ × UInt64)
  | [], _, _, requested, lSentTime, buffer => (buffer, some (requested, lSentTime))
  | _ :: _, _, [], requested, lSentTime, buffer => (buffer, some (requested, lSentTime))
  | i :: rest, n, byte :: data, requested, lSentTime, buffer =>
    let num := packetSlot i
    if n = byte.toNat then
      let buffer := update buffer num ((buffer num).map (markRequested now rttTime))
      -- `n` is reset to 0, so the check for a filler byte is skipped and `n` stepped.
      handleRequestLoop now rttTime rest 1 data (requested + 1) lSentTime buffer
    else
      let lSentTime := match buffer num with
        | some packet => if lSentTime < packet.sentTime then packet.sentTime else lSentTime
        | none => lSentTime
      let buffer := update buffer num none
      if n = 255 then
        if byte ≠ 0 then (buffer, none)
        else handleRequestLoop now rttTime rest 1 data requested lSentTime buffer
      else handleRequestLoop now rttTime rest (n + 1) (byte :: data) requested lSentTime buffer

/-- Handle a request packet: free every packet the peer has, and return the number of requested
ones. The last component is the new value of `latestSendTime`. -/
def handleRequestPacket (sendArray : PacketsArray) (data : Bytes) (latestSendTime rttTime now : UInt64) :
    PacketsArray × Option ℕ × UInt64 :=
  match data with
  | [] => (sendArray, none, latestSendTime)
  | id :: body =>
    if id ≠ packetIdRequest then (sendArray, none, latestSendTime)
    else if body = [] then (sendArray, some 0, latestSendTime)
    else
      let result := handleRequestLoop now rttTime (window sendArray.bufferStart sendArray.bufferEnd) 1
        body 0 (0 - 1) sendArray.buffer
      let sendArray := { sendArray with buffer := result.1 }
      match result.2 with
      | none => (sendArray, none, latestSendTime)
      | some (requested, lSentTime) =>
        (sendArray, some requested, if latestSendTime < lSentTime then lSentTime else latestSendTime)

end Toxcore
