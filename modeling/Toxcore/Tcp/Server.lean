import Toxcore.BsList
import Toxcore.CryptoCore
import Toxcore.Network

/-!
# The TCP relay server

A client has one TCP connection to the relay and up to 240 ports on it. It asks for a port to the owner of a public
key; where that owner has a port that names the client, the two ports are joined, and what the client sends to its
port comes out at the other. The accepted connections are in an array whose free places are reused, and a sorted list
finds them by public key.

Sockets are not part of the state. What the calls of the system return is handed to each operation, and so are the
outcomes of allocations.
-/

namespace Toxcore

open ByteStrings

/-- `NUM_RESERVED_PORTS`. -/
abbrev numReservedPorts : ℕ := 16

/-- `NUM_CLIENT_CONNECTIONS`. -/
abbrev numClientConnections : ℕ := 256 - numReservedPorts

instance : NeZero numClientConnections := ⟨by decide⟩

theorem sub_numReservedPorts_lt {number : UInt8} (h : ¬number.toNat < numReservedPorts) :
    number.toNat - numReservedPorts < numClientConnections := by
  have hlt := number.toNat_lt
  simp only [numReservedPorts, numClientConnections] at h ⊢
  omega

/-- `MAX_PACKET_SIZE`. -/
abbrev tcpMaxPacketSize : ℕ := 2048

/-- `TCP_MAX_OOB_DATA_LENGTH`. -/
abbrev tcpMaxOobDataLength : ℕ := 1024

/-- `TCP_PING_FREQUENCY`, in seconds. -/
def tcpPingFrequency : UInt64 := 30

/-- `TCP_PING_TIMEOUT`, in seconds. -/
def tcpPingTimeout : UInt64 := 10

/-- `TCP_PACKET_ROUTING_REQUEST`. -/
def tcpPacketRoutingRequest : UInt8 := 0

/-- `TCP_PACKET_ROUTING_RESPONSE`. -/
def tcpPacketRoutingResponse : UInt8 := 1

/-- `TCP_PACKET_CONNECTION_NOTIFICATION`. -/
def tcpPacketConnectionNotification : UInt8 := 2

/-- `TCP_PACKET_DISCONNECT_NOTIFICATION`. -/
def tcpPacketDisconnectNotification : UInt8 := 3

/-- `TCP_PACKET_PING`. -/
def tcpPacketPing : UInt8 := 4

/-- `TCP_PACKET_PONG`. -/
def tcpPacketPong : UInt8 := 5

/-- `TCP_PACKET_OOB_SEND`. -/
def tcpPacketOobSend : UInt8 := 6

/-- `TCP_PACKET_OOB_RECV`. -/
def tcpPacketOobRecv : UInt8 := 7

/-- `TCP_PACKET_ONION_REQUEST`. -/
def tcpPacketOnionRequest : UInt8 := 8

/-- `TCP_PACKET_ONION_RESPONSE`. -/
def tcpPacketOnionResponse : UInt8 := 9

/-- `ONION_SEND_BASE`. -/
abbrev tcpOnionSendBase : ℕ := 32 + 32 + macBytes

/-- The `TCP_STATUS_*` values. -/
inductive TcpStatus where
  | noStatus
  | connected
  | unconfirmed
  | confirmed
  deriving DecidableEq

/-- The status of a port: not used, the other is offline, the other is online. -/
inductive PortStatus where
  | unused
  | offline
  | online
  deriving DecidableEq

/-- A port of a client: an entry of `connections`. -/
structure ClientPort where
  status : PortStatus
  publicKey : PublicKey
  index : ℕ
  otherId : Fin numClientConnections

/-- A port cleared to zero bytes. -/
def ClientPort.zero : ClientPort := ⟨.unused, slice 32 [] 0, 0, 0⟩

/-- `TCP_Priority_List`: a packet of which a part was sent. -/
structure TcpPriorityPacket where
  data : Bytes
  sent : ℕ

/-- `TCP_Secure_Connection`, without its socket and what is read from it. -/
structure TcpSecureConnection where
  status : TcpStatus
  publicKey : PublicKey
  sentNonce : Nonce
  sharedKey : SharedKey
  connections : Fin numClientConnections → ClientPort
  lastPacket : Bytes
  lastPacketSent : ℕ
  priorityQueue : List TcpPriorityPacket
  identifier : UInt64
  lastPinged : UInt64
  pingId : UInt64

/-- A connection cleared to zero bytes. -/
def TcpSecureConnection.zero : TcpSecureConnection where
  status := .noStatus
  publicKey := slice 32 [] 0
  sentNonce := slice 24 [] 0
  sharedKey := slice 32 [] 0
  connections _ := .zero
  lastPacket := []
  lastPacketSent := 0
  priorityQueue := []
  identifier := 0
  lastPinged := 0
  pingId := 0

/-- A connection as `handle_TCP_handshake` leaves it. -/
def TcpSecureConnection.ofHandshake (publicKey : PublicKey) (sentNonce : Nonce) (sharedKey : SharedKey) :
    TcpSecureConnection :=
  { TcpSecureConnection.zero with
    status := .unconfirmed, publicKey := publicKey, sentNonce := sentNonce, sharedKey := sharedKey }

/-- Write a port of a client. -/
def TcpSecureConnection.setPort (con : TcpSecureConnection) (i : Fin numClientConnections) (port : ClientPort) :
    TcpSecureConnection :=
  { con with connections := Function.update con.connections i port }

/-! ## Writing to a client -/

/-- What a call of `write_packet_TCP_secure_connection` observes: the return values of `send` for what is pending and
for the packet, and the outcome of `malloc`. -/
structure SocketEnv where
  pending : ℕ → ℤ
  send : ℤ
  alloc : Bool

/-- The return values -1, 0 and 1. -/
inductive WriteResult where
  | failed
  | notSent
  | sent
  deriving DecidableEq

namespace TcpSecureConnection

/-- `send_pending_data_nonpriority`. -/
def sendPendingDataNonpriority (len : ℤ) (con : TcpSecureConnection) : Bool × TcpSecureConnection :=
  if con.lastPacket.length = 0 then (true, con)
  else if len ≤ 0 then (false, con)
  else if len =
    con.lastPacket.length - con.lastPacketSent then (true, { con with lastPacket := [], lastPacketSent := 0 })
  else (false, { con with lastPacketSent := con.lastPacketSent + len.toNat })

/-- The loop of `send_pending_data` over the priority packets. -/
def sendPriority (len : ℕ → ℤ) : ℕ → List TcpPriorityPacket → List TcpPriorityPacket
  | _, [] => []
  | k, p :: rest =>
    if len k = p.data.length - p.sent then sendPriority len (k + 1) rest
    else if len k > 0 then { p with sent := p.sent + (len k).toNat } :: rest
    else p :: rest

/-- `send_pending_data`. -/
def sendPendingData (len : ℕ → ℤ) (con : TcpSecureConnection) : Bool × TcpSecureConnection :=
  match con.sendPendingDataNonpriority (len 0) with
  | (false, con) => (false, con)
  | (true, con) =>
    let queue := sendPriority len 1 con.priorityQueue
    (queue.isEmpty, { con with priorityQueue := queue })

/-- `write_packet_TCP_secure_connection`. -/
def writePacket (sodium : Sodium) (env : SocketEnv) (con : TcpSecureConnection) (data : Bytes) (priority : Bool) :
    WriteResult × TcpSecureConnection :=
  if data.length + macBytes > tcpMaxPacketSize then (.failed, con)
  else
    let (done, con) := con.sendPendingData env.pending
    if done = false ∧ priority = false then (.notSent, con)
    else
      match encryptDataSymmetric sodium con.sharedKey con.sentNonce data with
      | none => (.failed, con)
      | some encrypted =>
        let packet := beBytes 2 (data.length + macBytes) ++ encrypted
        let counted := { con with sentNonce := incrementNonce con.sentNonce }
        if priority then
          let len := if done then max env.send 0 else 0
          if len = packet.length then (.sent, counted)
          else if env.alloc then (.sent, { counted with priorityQueue := con.priorityQueue ++ [⟨packet, len.toNat⟩] })
          else (.notSent, counted)
        else if env.send ≤ 0 then (.notSent, con)
        else if env.send = packet.length then (.sent, counted)
        else (.sent, { counted with lastPacket := packet, lastPacketSent := env.send.toNat })

/-- A pong with the number of the last ping was received. -/
def takePong (pingId : UInt64) (con : TcpSecureConnection) : TcpSecureConnection :=
  if pingId = con.pingId then { con with pingId := 0 } else con

end TcpSecureConnection

/-! ## The accepted connections -/

/-- `TCP_Server`, without the queues of connections that are not accepted yet. The array has `size_accepted_connections`
places. -/
structure TcpServer where
  onion : Bool
  acceptedConnectionArray : List TcpSecureConnection
  numAcceptedConnections : ℕ
  counter : UInt64
  acceptedKeyList : BsList

/-- `new_TCP_server`. -/
def TcpServer.new (onion : Bool) : TcpServer := ⟨onion, [], 0, 0, bsListInit 32 8⟩

/-- What an operation observes: the writes it makes, in order, the time and the outcomes of the allocations. -/
structure TcpEnv where
  socket : ℕ → SocketEnv
  unixTime : UInt64
  allocArray : Bool
  allocKeysGrow : Bool
  allocKeysShrink : Bool

namespace TcpServer

variable (sodium : Sodium) (server : TcpServer)

/-- Write through a pointer to an accepted connection. -/
def modifyConnection (index : ℕ) (f : TcpSecureConnection → TcpSecureConnection) : TcpServer :=
  { server with acceptedConnectionArray := server.acceptedConnectionArray.modify index f }

/-- `write_packet_TCP_secure_connection` to an accepted connection. -/
def write (env : SocketEnv) (index : ℕ) (data : Bytes) (priority : Bool) : WriteResult × TcpServer :=
  match server.acceptedConnectionArray[index]? with
  | none => (.failed, server)
  | some con =>
    ((con.writePacket sodium env data priority).1,
      server.modifyConnection index fun con => (con.writePacket sodium env data priority).2)

/-- `get_TCP_connection_index`. -/
def getTcpConnectionIndex (publicKey : PublicKey) : ℤ := bsListFind server.acceptedKeyList publicKey.toList

/-- `send_routing_response`. -/
def sendRoutingResponse (env : SocketEnv) (index : ℕ) (rpid : UInt8)
    (publicKey : PublicKey) : WriteResult × TcpServer :=
  server.write sodium env index (tcpPacketRoutingResponse :: rpid :: publicKey.toList) true

/-- The number by which a client knows a port. -/
def portNumber (id : Fin numClientConnections) : UInt8 := UInt8.ofNat (id.val + numReservedPorts)

/-- `send_connect_notification`. -/
def sendConnectNotification (env : SocketEnv) (index : ℕ) (id : Fin numClientConnections) : TcpServer :=
  (server.write sodium env index [tcpPacketConnectionNotification, portNumber id] true).2

/-- `send_disconnect_notification`. -/
def sendDisconnectNotification (env : SocketEnv) (index : ℕ) (id : Fin numClientConnections) : TcpServer :=
  (server.write sodium env index [tcpPacketDisconnectNotification, portNumber id] true).2

/-- `rm_connection_index` for a port that exists. -/
def rmPort (env : SocketEnv) (conId : ℕ) (conNumber : Fin numClientConnections) : Bool × TcpServer :=
  match server.acceptedConnectionArray[conId]? with
  | none => (false, server)
  | some con =>
    let port := con.connections conNumber
    let cleared : ClientPort := { port with index := 0, otherId := 0, status := .unused }
    match port.status with
    | .unused => (false, server)
    | .offline => (true, server.modifyConnection conId fun con => con.setPort conNumber cleared)
    | .online =>
      if port.index ≥ server.acceptedConnectionArray.length then (false, server)
      else
        let server := server.modifyConnection port.index fun other =>
          other.setPort port.otherId
            { other.connections port.otherId with otherId := 0, index := 0, status := .offline }
        let server := server.sendDisconnectNotification sodium env port.index port.otherId
        (true, server.modifyConnection conId fun con => con.setPort conNumber cleared)

/-- `rm_connection_index`. -/
def rmConnectionIndex (env : SocketEnv) (conId : ℕ) (conNumber : UInt8) : Bool × TcpServer :=
  if h : conNumber.toNat < numClientConnections then server.rmPort sodium env conId ⟨conNumber.toNat, h⟩
  else (false, server)

/-- `del_accepted`. -/
def delAccepted (env : TcpEnv) (index : ℕ) : Bool × TcpServer :=
  match server.acceptedConnectionArray[index]? with
  | none => (false, server)
  | some con =>
    if con.status = .noStatus then (false, server)
    else
      match bsListRemove env.allocKeysShrink server.acceptedKeyList con.publicKey.toList index with
      | (false, _) => (false, server)
      | (true, list) =>
        let num := server.numAcceptedConnections - 1
        (true, { server with
          acceptedKeyList := list
          numAcceptedConnections := num
          acceptedConnectionArray := if num = 0 then [] else server.acceptedConnectionArray.set index .zero })

/-- `kill_accepted`. -/
def killAccepted (env : TcpEnv) (index : ℕ) : Bool × TcpServer :=
  if index ≥ server.acceptedConnectionArray.length then (false, server)
  else
    let server := (List.finRange numClientConnections).foldl
      (fun server i => (server.rmPort sodium (env.socket i) index i).2) server
    server.delAccepted env index

/-- The place that `add_accepted` finds for a connection. A full array grows by four places. -/
def findPlace (env : TcpEnv) : Option ℕ × TcpServer :=
  let size := server.acceptedConnectionArray.length
  if size = server.numAcceptedConnections then
    if env.allocArray then
      (some size, { server with
        acceptedConnectionArray := server.acceptedConnectionArray ++ List.replicate 4 .zero })
    else (none, server)
  else
    ((List.range size).reverse.find? fun i =>
      (server.acceptedConnectionArray[i]?.map TcpSecureConnection.status) = some .noStatus, server)

/-- `add_accepted`. -/
def addAccepted (kill env : TcpEnv) (con : TcpSecureConnection) : Option ℕ × TcpServer :=
  let old := server.getTcpConnectionIndex con.publicKey
  let server := if old ≠ -1 then (server.killAccepted sodium kill old.toNat).2 else server
  match server.findPlace env with
  | (none, server) => (none, server)
  | (some index, server) =>
    match bsListAdd env.allocKeysGrow server.acceptedKeyList con.publicKey.toList index with
    | (false, _) => (none, server)
    | (true, list) =>
      (some index, { server with
        acceptedKeyList := list
        acceptedConnectionArray := server.acceptedConnectionArray.set index
          { con with
            status := .confirmed
            identifier := server.counter + 1
            lastPinged := env.unixTime
            pingId := 0 }
        numAcceptedConnections := server.numAcceptedConnections + 1
        counter := server.counter + 1 })

/-! ## Packets -/

/-- Join the ports of two connections, and tell both. -/
def joinPorts (env : TcpEnv) (conId : ℕ) (index : Fin numClientConnections) (otherIndex : ℕ)
    (otherId : Fin numClientConnections) : TcpServer :=
  let server := server.modifyConnection conId fun con =>
    con.setPort index { con.connections index with status := .online, index := otherIndex, otherId := otherId }
  let server := server.modifyConnection otherIndex fun con =>
    con.setPort otherId { con.connections otherId with status := .online, index := conId, otherId := index }
  let server := server.sendConnectNotification sodium (env.socket 1) conId index
  server.sendConnectNotification sodium (env.socket 2) otherIndex otherId

/-- The end of `handle_TCP_routing_req`: a free port of the client names the key, and is joined where the owner of the
key has a port that names the client and waits for it. -/
def takePort (env : TcpEnv) (conId : ℕ) (ownKey : PublicKey) (index : Fin numClientConnections)
    (publicKey : PublicKey) :
    TcpServer :=
  let server := server.modifyConnection conId fun con =>
    con.setPort index { con.connections index with status := .offline, publicKey := publicKey }
  let otherIndex := server.getTcpConnectionIndex publicKey
  if otherIndex = -1 then server
  else
    match server.acceptedConnectionArray[otherIndex.toNat]? with
    | none => server
    | some otherConn =>
      match (List.finRange numClientConnections).find? fun i =>
          (otherConn.connections i).status = .offline ∧ (otherConn.connections i).publicKey = ownKey with
      | none => server
      | some otherId => server.joinPorts sodium env conId index otherIndex.toNat otherId

/-- `handle_TCP_routing_req`. -/
def handleTcpRoutingReq (env : TcpEnv) (conId : ℕ) (publicKey : PublicKey) : Bool × TcpServer :=
  match server.acceptedConnectionArray[conId]? with
  | none => (false, server)
  | some con =>
    if con.publicKey = publicKey then
      let (result, server) := server.sendRoutingResponse sodium (env.socket 0) conId 0 publicKey
      (result ≠ .failed, server)
    else
      match (List.finRange numClientConnections).find? fun i =>
          (con.connections i).status ≠ .unused ∧ (con.connections i).publicKey = publicKey with
      | some i =>
        let (result, server) := server.sendRoutingResponse sodium (env.socket 0) conId (portNumber i) publicKey
        (result ≠ .failed, server)
      | none =>
        match (List.finRange numClientConnections).find? fun i => (con.connections i).status = .unused with
        | none =>
          let (result, server) := server.sendRoutingResponse sodium (env.socket 0) conId 0 publicKey
          (result ≠ .failed, server)
        | some index =>
          match server.sendRoutingResponse sodium (env.socket 0) conId (portNumber index) publicKey with
          | (.failed, server) => (false, server)
          | (.notSent, server) => (true, server)
          | (.sent, server) => (true, server.takePort sodium env conId con.publicKey index publicKey)

/-- `handle_TCP_oob_send`. -/
def handleTcpOobSend (env : TcpEnv) (conId : ℕ) (publicKey : PublicKey) (data : Bytes) : Bool × TcpServer :=
  if data.length = 0 ∨ data.length > tcpMaxOobDataLength then (false, server)
  else
    match server.acceptedConnectionArray[conId]? with
    | none => (false, server)
    | some con =>
      let otherIndex := server.getTcpConnectionIndex publicKey
      if otherIndex = -1 then (true, server)
      else
        (true, (server.write sodium (env.socket 0) otherIndex.toNat
          (tcpPacketOobRecv :: (con.publicKey.toList ++ data)) false).2)

/-- The default case of `handle_TCP_packet`: data for a port goes to the port that it is joined to. -/
def relayData (env : TcpEnv) (conId : ℕ) (data : Bytes) (cId : Fin numClientConnections) : Bool × TcpServer :=
  match server.acceptedConnectionArray[conId]? with
  | none => (false, server)
  | some con =>
    match (con.connections cId).status with
    | .unused => (false, server)
    | .offline => (true, server)
    | .online =>
      let (result, server) := server.write sodium (env.socket 0) (con.connections cId).index
        (portNumber (con.connections cId).otherId :: data.drop 1) false
      (result ≠ .failed, server)

/-- The number in a ping or a pong, in the byte order of the host. -/
def packetPingId (data : Bytes) : UInt64 := UInt64.ofNat (beNat (slice 8 data 1).toList.reverse)

/-- `handle_TCP_packet`. What `onion_send_1` does with an onion request is not part of the server. -/
def handleTcpPacket (env : TcpEnv) (conId : ℕ) (data : Bytes) : Bool × TcpServer :=
  match data.head? with
  | none => (false, server)
  | some kind =>
    if kind = tcpPacketRoutingRequest then
      if data.length ≠ 1 + 32 then (false, server)
      else server.handleTcpRoutingReq sodium env conId (slice 32 data 1)
    else if kind = tcpPacketConnectionNotification then (data.length = 2, server)
    else if kind = tcpPacketDisconnectNotification then
      if data.length ≠ 2 then (false, server)
      else server.rmConnectionIndex sodium (env.socket 0) conId (data.getD 1 0 - UInt8.ofNat numReservedPorts)
    else if kind = tcpPacketPing then
      if data.length ≠ 1 + 8 then (false, server)
      else (true, (server.write sodium (env.socket 0) conId (tcpPacketPong :: data.drop 1) true).2)
    else if kind = tcpPacketPong then
      if data.length ≠ 1 + 8 then (false, server)
      else if packetPingId data = 0 then (false, server)
      else
        (true, server.modifyConnection conId (TcpSecureConnection.takePong (packetPingId data)))
    else if kind = tcpPacketOobSend then
      if data.length ≤ 1 + 32 then (false, server)
      else server.handleTcpOobSend sodium env conId (slice 32 data 1) (data.drop (1 + 32))
    else if kind = tcpPacketOnionRequest then
      if server.onion ∧ data.length ≤ 1 + 24 + tcpOnionSendBase * 2 then (false, server) else (true, server)
    else if kind = tcpPacketOnionResponse then (false, server)
    else
      if h : kind.toNat < numReservedPorts then (false, server)
      else
        server.relayData sodium env conId data ⟨kind.toNat - numReservedPorts, sub_numReservedPorts_lt h⟩

/-- `confirm_TCP_connection`. -/
def confirmTcpConnection (killOld add handle killNew : TcpEnv) (con : TcpSecureConnection) (data : Bytes) :
    Option ℕ × TcpServer :=
  match server.addAccepted sodium killOld add con with
  | (none, server) => (none, server)
  | (some index, server) =>
    match server.handleTcpPacket sodium handle index data with
    | (false, server) => (none, (server.killAccepted sodium killNew index).2)
    | (true, server) => (some index, server)

/-- A round of the loop of `do_confirmed_recv`; `none` is a packet that cannot be read. -/
def confirmedRecv (handle kill : TcpEnv) (i : ℕ) (packet : Option Bytes) : TcpServer :=
  match packet with
  | none => (server.killAccepted sodium kill i).2
  | some packet =>
    match server.handleTcpPacket sodium handle i packet with
    | (false, server) => (server.killAccepted sodium kill i).2
    | (true, server) => server

/-- `do_TCP_confirmed` for one connection, up to reading from it. -/
def serveConfirmed (env kill : TcpEnv) (pingId : UInt64) (i : ℕ) : TcpServer :=
  match server.acceptedConnectionArray[i]? with
  | none => server
  | some con =>
    if con.status ≠ .confirmed then server
    else
      let (killed, server) :=
        if isTimeout env.unixTime con.lastPinged tcpPingFrequency then
          match server.write sodium (env.socket 0) i (tcpPacketPing :: (beBytes 8 pingId.toNat).reverse) true with
          | (.sent, server) =>
            (false, server.modifyConnection i fun con => { con with lastPinged := env.unixTime, pingId := pingId })
          | (_, server) => (isTimeout env.unixTime con.lastPinged (tcpPingFrequency + tcpPingTimeout), server)
        else (false, server)
      if killed then (server.killAccepted sodium kill i).2
      else
        match server.acceptedConnectionArray[i]? with
        | none => server
        | some con =>
          if con.pingId ≠ 0 ∧ isTimeout env.unixTime con.lastPinged tcpPingTimeout then
            (server.killAccepted sodium kill i).2
          else server.modifyConnection i fun con => (con.sendPendingData (env.socket 1).pending).2

end TcpServer

end Toxcore
