import Toxcore.Tcp.Server

/-!
# Frames on a TCP stream

`TCP_server.c` and `TCP_client.c` write packets with the same functions, each on its own connection structure, and
read them with one function. Here they work on the part of a connection that they use. A socket takes a part of what
it is offered, or nothing, and hands over what has arrived.
-/

namespace Toxcore

open ByteStrings

/-! ## Sockets -/

/-- A socket that is written to: what each further call of `send` accepts, `none` where it fails, and everything it has
accepted. -/
structure SendSocket where
  answers : List (Option ℕ)
  accepted : Bytes

/-- `send`: no more is accepted than is offered. -/
def SendSocket.send (sock : SendSocket) (bytes : Bytes) : ℤ × SendSocket :=
  match sock.answers with
  | [] => (-1, sock)
  | none :: answers => (-1, { sock with answers := answers })
  | some count :: answers => (min count bytes.length, ⟨answers, sock.accepted ++ bytes.take count⟩)

/-! ## Writing -/

/-- What `TCP_Secure_Connection` and `TCP_Client_Connection` hold for writing. -/
structure TcpWriter where
  sharedKey : SharedKey
  sentNonce : Nonce
  lastPacket : Bytes
  lastPacketSent : ℕ
  priorityQueue : List TcpPriorityPacket

namespace TcpWriter

variable (writer : TcpWriter) (sock : SendSocket)

/-- `send_pending_data_nonpriority`. -/
def sendPendingDataNonpriority : Bool × TcpWriter × SendSocket :=
  if writer.lastPacket.length = 0 then (true, writer, sock)
  else
    let left := writer.lastPacket.length - writer.lastPacketSent
    let (len, sock) := sock.send (writer.lastPacket.drop writer.lastPacketSent)
    if len ≤ 0 then (false, writer, sock)
    else if len = left then (true, { writer with lastPacket := [], lastPacketSent := 0 }, sock)
    else (false, { writer with lastPacketSent := writer.lastPacketSent + len.toNat }, sock)

/-- The loop of `send_pending_data` over the priority packets. -/
def sendPriority (sock : SendSocket) : List TcpPriorityPacket → List TcpPriorityPacket × SendSocket
  | [] => ([], sock)
  | p :: rest =>
    let left := p.data.length - p.sent
    let (len, sock) := sock.send (p.data.drop p.sent)
    if len = left then sendPriority sock rest
    else if len > 0 then ({ p with sent := p.sent + len.toNat } :: rest, sock)
    else (p :: rest, sock)

/-- `send_pending_data`. -/
def sendPendingData : Bool × TcpWriter × SendSocket :=
  match sendPendingDataNonpriority writer sock with
  | (false, writer, sock) => (false, writer, sock)
  | (true, writer, sock) =>
    let (queue, sock) := sendPriority sock writer.priorityQueue
    (queue.isEmpty, { writer with priorityQueue := queue }, sock)

/-- `add_priority`. -/
def addPriority (alloc : Bool) (packet : Bytes) (sent : ℕ) : WriteResult × TcpWriter :=
  if alloc then (.sent,
    { writer with priorityQueue := writer.priorityQueue ++ [⟨packet, sent⟩] }) else (.notSent, writer)

/-- `write_packet_TCP_secure_connection`. -/
def writePacket (sodium : Sodium) (alloc : Bool) (data : Bytes)
    (priority : Bool) : WriteResult × TcpWriter × SendSocket :=
  if data.length + macBytes > tcpMaxPacketSize then (.failed, writer, sock)
  else
    let (sendpriority, writer, sock) := sendPendingData writer sock
    if sendpriority = false ∧ priority = false then (.notSent, writer, sock)
    else
      match encryptDataSymmetric sodium writer.sharedKey writer.sentNonce data with
      | none => (.failed, writer, sock)
      | some encrypted =>
        let packet := beBytes 2 (data.length + macBytes) ++ encrypted
        let counted := { writer with sentNonce := incrementNonce writer.sentNonce }
        if priority then
          let (len, sock) := if sendpriority then sock.send packet else (0, sock)
          let len := max len 0
          if len = packet.length then (.sent, counted, sock)
          else
            let (result, writer) := addPriority counted alloc packet len.toNat
            (result, writer, sock)
        else
          let (len, sock) := sock.send packet
          if len ≤ 0 then (.notSent, writer, sock)
          else if len = packet.length then (.sent, counted, sock)
          else (.sent, { counted with lastPacket := packet, lastPacketSent := len.toNat }, sock)

end TcpWriter

/-! ## Reading -/

/-- What `TCP_Secure_Connection` and `TCP_Client_Connection` hold for reading. -/
structure TcpReader where
  sharedKey : SharedKey
  recvNonce : Nonce
  nextPacketLength : UInt16

/-- The return values of `read_packet_TCP_secure_connection`: -1, 0, and the packet with its length. -/
inductive ReadResult where
  | failed
  | noPacket
  | packet (data : Bytes)
  deriving DecidableEq

/-- `read_TCP_length`, and what stays in the receive buffer. -/
def readTcpLength (available : Bytes) : UInt16 × Bytes :=
  if available.length ≥ 2 then
    let length := UInt16.ofNat (beNat (available.take 2))
    (if length.toNat > tcpMaxPacketSize then 65535 else length, available.drop 2)
  else (0, available)

/-- `read_TCP_packet`, and what stays in the receive buffer. -/
def readTcpPacket (available : Bytes) (length : UInt16) : Option Bytes × Bytes :=
  if available.length ≥ length.toNat then (some (available.take length.toNat), available.drop length.toNat)
  else (none, available)

namespace TcpReader

/-- `read_packet_TCP_secure_connection` after the length of the packet is known. -/
def readBody (sodium : Sodium) (reader : TcpReader) (available : Bytes) (maxLen : ℕ) : ReadResult × TcpReader × Bytes :=
  if maxLen + macBytes < reader.nextPacketLength.toNat then (.failed, reader, available)
  else
    match readTcpPacket available reader.nextPacketLength with
    | (none, available) => (.noPacket, reader, available)
    | (some encrypted, available) =>
      let reader := { reader with nextPacketLength := 0 }
      let data := decryptDataSymmetric sodium reader.sharedKey reader.recvNonce encrypted
      let len : ℤ := data.elim (-1) fun data => data.length
      if len + macBytes ≠ encrypted.length then (.failed, reader, available)
      else (data.elim .failed .packet, { reader with recvNonce := incrementNonce reader.recvNonce }, available)

/-- `read_packet_TCP_secure_connection`. -/
def readPacket (sodium : Sodium) (reader : TcpReader) (available : Bytes)
    (maxLen : ℕ) : ReadResult × TcpReader × Bytes :=
  if reader.nextPacketLength = 0 then
    let (len, available) := readTcpLength available
    if len = 65535 then (.failed, reader, available)
    else if len = 0 then (.noPacket, reader, available)
    else readBody sodium { reader with nextPacketLength := len } available maxLen
  else readBody sodium reader available maxLen

end TcpReader

end Toxcore
