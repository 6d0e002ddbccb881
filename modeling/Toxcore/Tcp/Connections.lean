import Toxcore.DHT.PackedNodes
import Toxcore.Data.TableView
import Toxcore.Tcp.Server

/-!
# Connections through TCP relays

`TCP_connection.c`: connections to peers, each tied to some relays, and the relays, each with a TCP connection that
may come and go. Both tables reuse free slots and drop them at their ends. `TCP_client.c` is here as far as it changes
the tables: the ports of a TCP connection and the packets that open, announce and close them.

What a function writes to a relay is kept with the TCP connection, in order. What the application does with data is
left out, and so is the handler of onion responses. Callbacks of the application may use the connections at any time,
so they are not part of a function but further uses between the packets of a relay.
-/

namespace Toxcore

open ByteStrings

/-- `MAX_FRIEND_TCP_CONNECTIONS`. -/
abbrev maxFriendTcpConnections : ℕ := 6

/-- `RECOMMENDED_FRIEND_TCP_CONNECTIONS`. -/
abbrev recommendedFriendTcpConnections : ℕ := maxFriendTcpConnections / 2

/-- `NUM_ONION_TCP_CONNECTIONS`. -/
abbrev numOnionTcpConnections : ℕ := recommendedFriendTcpConnections

/-- `TCP_CONNECTION_ANNOUNCE_TIMEOUT`, in seconds. -/
def tcpConnectionAnnounceTimeout : UInt64 := 10

/-- The port with a number in a packet, unless the number is reserved. -/
def clientPort (number : UInt8) : Option (Fin numClientConnections) :=
  if h : number.toNat < numReservedPorts then none
  else some ⟨number.toNat - numReservedPorts, sub_numReservedPorts_lt h⟩

/-! ## TCP connections of a client -/

/-- A port of a client: an entry of `connections`, with its status 0, 1 or 2. -/
structure TcpClientPort where
  status : PortStatus
  number : UInt32
  publicKey : PublicKey

/-- `TCP_Client_Connection`: the relay, the ports, whether it is disconnected, whether callbacks are set, and what was
written. -/
structure TcpClientConnection where
  publicKey : PublicKey
  ipPort : IpPort
  connections : Fin numClientConnections → TcpClientPort
  disconnected : Bool
  callbacks : Bool
  sent : List Bytes

namespace TcpClientConnection

/-- A connection that `new_TCP_connection` has allocated. -/
def zero (ipPort : IpPort) (publicKey : PublicKey) : TcpClientConnection :=
  ⟨publicKey, ipPort, fun _ => ⟨.unused, 0, slice 32 [] 0⟩, false, false, []⟩

/-- `new_TCP_connection`. `connects` says whether there is a socket and memory. -/
def new (connects : Bool) (ipPort : IpPort) (publicKey : PublicKey) : Option TcpClientConnection :=
  if ipPort.ip.family ≠ afInet ∧ ipPort.ip.family ≠ afInet6 then none
  else if connects then some (zero ipPort publicKey) else none

variable (connection : TcpClientConnection)

/-- Write a port. -/
def setPort (conId : Fin numClientConnections) (port : TcpClientPort) : TcpClientConnection :=
  { connection with connections := Function.update connection.connections conId port }

/-- `send_routing_request`, where the packet is written. -/
def sendRoutingRequest (publicKey : PublicKey) : TcpClientConnection :=
  { connection with sent := connection.sent ++ [tcpPacketRoutingRequest :: publicKey.toList] }

/-- `send_disconnect_request`. -/
def sendDisconnectRequest (conId : UInt8) : TcpClientConnection :=
  if h : conId.toNat < numClientConnections then
    let port := connection.connections ⟨conId.toNat, h⟩
    let closed := connection.setPort ⟨conId.toNat, h⟩ { port with status := .unused, number := 0 }
    { closed with sent := closed.sent ++ [[tcpPacketDisconnectNotification, conId + UInt8.ofNat numReservedPorts]] }
  else connection

/-- `set_tcp_connection_number`. -/
def setTcpConnectionNumber (conId : Fin numClientConnections) (number : UInt32) : TcpClientConnection :=
  let port := connection.connections conId
  if port.status = .unused then connection else connection.setPort conId { port with number := number }

end TcpClientConnection

/-! ## The tables -/

/-- The `TCP_CONN_*` values. -/
inductive TcpConnStatus where
  | none
  | valid
  | connected
  | sleeping
  deriving DecidableEq

/-- The `TCP_CONNECTIONS_STATUS_*` values. -/
inductive RelayStatus where
  | none
  | registered
  | online
  deriving DecidableEq

/-- A relay of a connection. `tcpConnection` is the number of the relay, `none` for 0 and `some n` for `n + 1`. -/
structure RelaySlot where
  tcpConnection : Option ℕ
  status : RelayStatus
  connectionId : UInt8

/-- A slot cleared to zero bytes. -/
def RelaySlot.zero : RelaySlot := ⟨none, .none, 0⟩

/-- `TCP_Connection_to`. -/
structure TcpConnectionTo where
  status : TcpConnStatus
  publicKey : PublicKey
  connections : Fin maxFriendTcpConnections → RelaySlot
  id : ℤ

/-- A connection cleared to zero bytes. -/
def TcpConnectionTo.zero : TcpConnectionTo := ⟨.none, slice 32 [] 0, fun _ => .zero, 0⟩

/-- `TCP_con`. -/
structure TcpCon where
  status : TcpConnStatus
  connection : Option TcpClientConnection
  connectedTime : UInt64
  lockCount : UInt32
  sleepCount : UInt32
  onion : Bool
  ipPort : IpPort
  relayPk : PublicKey
  unsleep : Bool

/-- A relay cleared to zero bytes. -/
def TcpCon.zero : TcpCon :=
    ⟨.none, none, 0, 0, 0, false, ⟨⟨0, slice 7 [] 0, slice 16 [] 0⟩, 0, slice 6 [] 0⟩, slice 32 [] 0, false⟩

/-- `TCP_Connections`. -/
structure TcpConnections where
  connections : List TcpConnectionTo
  tcpConnections : List TcpCon
  onionStatus : Bool
  onionNumConns : UInt16

/-- What an operation observes: the time, whether memory for a table is there, whether a TCP connection can be made,
and for which connection a routing request can be written. -/
structure TcpConnEnv where
  unixTime : UInt64
  alloc : Bool
  connects : Bool
  writes : ℕ → Bool

namespace TcpConnectionTo

variable (conTo : TcpConnectionTo)

/-- A connection that is in use. -/
def live? : Option TcpConnectionTo := if conTo.status = .none then none else some conTo

/-- The slot of a relay. -/
def slotOf (tcpConnectionsNumber : ℕ) : Option (Fin maxFriendTcpConnections) :=
  (List.finRange maxFriendTcpConnections).find? fun i => (conTo.connections i).tcpConnection = some tcpConnectionsNumber

/-- Write a slot. -/
def setSlot (i : Fin maxFriendTcpConnections) (slot : RelaySlot) : TcpConnectionTo :=
  { conTo with connections := Function.update conTo.connections i slot }

/-- `tcp_connection_in_conn`. -/
def tcpConnectionInConn (tcpConnectionsNumber : ℕ) : Bool := (conTo.slotOf tcpConnectionsNumber).isSome

/-- `add_tcp_connection_to_conn`, unless it returns -1. -/
def addTcpConnectionToConn (tcpConnectionsNumber : ℕ) : Option TcpConnectionTo :=
  if conTo.tcpConnectionInConn tcpConnectionsNumber then none
  else
    ((List.finRange maxFriendTcpConnections).find? fun i => (conTo.connections i).tcpConnection = none).map fun i =>
      conTo.setSlot i ⟨some tcpConnectionsNumber, .none, 0⟩

/-- `rm_tcp_connection_from_conn`. -/
def rmTcpConnectionFromConn (tcpConnectionsNumber : ℕ) : TcpConnectionTo :=
  match conTo.slotOf tcpConnectionsNumber with
  | none => conTo
  | some i => conTo.setSlot i .zero

/-- `online_tcp_connection_from_conn`. -/
def onlineTcpConnectionFromConn : ℕ :=
  (List.finRange maxFriendTcpConnections).countP fun i =>
    (conTo.connections i).tcpConnection ≠ none ∧ (conTo.connections i).status = .online

/-- `set_tcp_connection_status`, unless it returns -1. -/
def setTcpConnectionStatus (tcpConnectionsNumber : ℕ) (status : RelayStatus)
    (connectionId : UInt8) : Option TcpConnectionTo :=
  match conTo.slotOf tcpConnectionsNumber with
  | none => none
  | some i =>
    if (conTo.connections i).status = status then none
    else some (conTo.setSlot i { conTo.connections i with status := status, connectionId := connectionId })

end TcpConnectionTo

namespace TcpCon

variable (tcpCon : TcpCon)

/-- A relay that is in use. -/
def live? : Option TcpCon := if tcpCon.status = .none then none else some tcpCon

/-- The key of a relay, from its TCP connection unless it is asleep. -/
def key? : Option PublicKey :=
  if tcpCon.status = .sleeping then some tcpCon.relayPk else tcpCon.connection.map TcpClientConnection.publicKey

/-- A relay is reset to some status with some TCP connection. -/
def reset (status : TcpConnStatus) (connection : Option TcpClientConnection) : TcpCon :=
  { tcpCon with
    connection := connection, lockCount := 0, sleepCount := 0, connectedTime := 0, status := status, unsleep := false }

/-- A connection that has a slot for this relay is killed. -/
def release (conTo : TcpConnectionTo) (slot : RelaySlot) : TcpCon :=
  let tcpCon := if tcpCon.status = .connected then
    { tcpCon with
      connection := tcpCon.connection.map fun connection => connection.sendDisconnectRequest slot.connectionId }
    else tcpCon
  if slot.status = .online then
    { tcpCon with
      lockCount := tcpCon.lockCount - 1
      sleepCount := if conTo.status = .sleeping then tcpCon.sleepCount - 1 else tcpCon.sleepCount }
  else tcpCon

/-- A connection that has a slot for this relay wakes up. -/
def wakeUp (_slot : RelaySlot) : TcpCon := if tcpCon.status = .sleeping then { tcpCon with unsleep := true } else tcpCon

/-- A connection that has a slot for this relay goes to sleep. -/
def fallAsleep (slot : RelaySlot) : TcpCon :=
  if slot.status = .online then { tcpCon with sleepCount := tcpCon.sleepCount + 1 } else tcpCon

end TcpCon

namespace TcpConnections

variable (tcpC : TcpConnections)

/-- `get_connection`. -/
def getConnection (connectionsNumber : ℕ) : Option TcpConnectionTo :=
  TableView.view TcpConnectionTo.live? tcpC.connections connectionsNumber

/-- `get_tcp_connection`. -/
def getTcpConnection (tcpConnectionsNumber : ℕ) : Option TcpCon :=
  TableView.view TcpCon.live? tcpC.tcpConnections tcpConnectionsNumber

/-- Write a connection. -/
def setConnection (connectionsNumber : ℕ) (conTo : TcpConnectionTo) : TcpConnections :=
  { tcpC with connections := tcpC.connections.set connectionsNumber conTo }

/-- Write a relay. -/
def setTcpConnection (tcpConnectionsNumber : ℕ) (tcpCon : TcpCon) : TcpConnections :=
  { tcpC with tcpConnections := tcpC.tcpConnections.set tcpConnectionsNumber tcpCon }

/-- `create_connection`: a free slot, or a new one at the end. There is no memory for `2 ^ 32` of them. -/
def createConnection (env : TcpConnEnv) : Option ℕ × TcpConnections :=
  match tcpC.connections.findIdx? fun conTo => conTo.status = .none with
  | some i => (some i, tcpC)
  | none =>
    if env.alloc ∧ tcpC.connections.length + 1 < 2 ^ 32 then
      (some tcpC.connections.length, { tcpC with connections := tcpC.connections ++ [.zero] })
    else (none, tcpC)

/-- `create_tcp_connection`. -/
def createTcpConnection (env : TcpConnEnv) : Option ℕ × TcpConnections :=
  match tcpC.tcpConnections.findIdx? fun tcpCon => tcpCon.status = .none with
  | some i => (some i, tcpC)
  | none =>
    if env.alloc ∧ tcpC.tcpConnections.length + 1 < 2 ^ 32 then
      (some tcpC.tcpConnections.length, { tcpC with tcpConnections := tcpC.tcpConnections ++ [.zero] })
    else (none, tcpC)

/-- `wipe_connection` for a connection in use. -/
def wipeConnection (connectionsNumber : ℕ) : TcpConnections :=
  { tcpC with
    connections := (tcpC.connections.set connectionsNumber .zero).rdropWhile fun conTo => conTo.status = .none }

/-- `wipe_tcp_connection` for a relay in use. -/
def wipeTcpConnection (tcpConnectionsNumber : ℕ) : TcpConnections :=
  { tcpC with
    tcpConnections := (tcpC.tcpConnections.set tcpConnectionsNumber .zero).rdropWhile fun tcpCon =>
      tcpCon.status = .none }

/-- `find_tcp_connection_to`. -/
def findTcpConnectionTo (publicKey : PublicKey) : Option ℕ :=
  tcpC.connections.findIdx? fun conTo => conTo.status ≠ .none ∧ conTo.publicKey = publicKey

/-- `find_tcp_connection_relay`. -/
def findTcpConnectionRelay (relayPk : PublicKey) : Option ℕ :=
  tcpC.tcpConnections.findIdx? fun tcpCon => tcpCon.status ≠ .none ∧ tcpCon.key? = some relayPk

/-! ### Connections -/

/-- `new_tcp_connection_to`, unless it returns -1. -/
def newTcpConnectionTo (env : TcpConnEnv) (publicKey : PublicKey) (id : ℤ) : Option ℕ × TcpConnections :=
  match tcpC.findTcpConnectionTo publicKey with
  | some _ => (none, tcpC)
  | none =>
    match tcpC.createConnection env with
    | (none, tcpC) => (none, tcpC)
    | (some n, tcpC) =>
      (some n, { tcpC with
        connections := tcpC.connections.modify n fun conTo =>
          { conTo with status := .valid, publicKey := publicKey, id := id } })

/-- Something is done to the relay of a slot, if there is one. -/
def onRelay (f : TcpCon → RelaySlot → TcpCon) (slot : RelaySlot) : TcpConnections :=
  match slot.tcpConnection with
  | none => tcpC
  | some k =>
    match tcpC.getTcpConnection k with
    | none => tcpC
    | some tcpCon => tcpC.setTcpConnection k (f tcpCon slot)

/-- Something is done to the relay of each slot. -/
def onRelays (f : TcpCon → RelaySlot → TcpCon) (conTo : TcpConnectionTo) : TcpConnections :=
  (List.finRange maxFriendTcpConnections).foldl (fun tcpC i => tcpC.onRelay f (conTo.connections i)) tcpC

/-- `kill_tcp_connection_to`, with the return value 0 as `true`. -/
def killTcpConnectionTo (connectionsNumber : ℕ) : Bool × TcpConnections :=
  match tcpC.getConnection connectionsNumber with
  | none => (false, tcpC)
  | some conTo =>
    (true, (tcpC.onRelays (fun tcpCon slot => tcpCon.release conTo slot) conTo).wipeConnection connectionsNumber)

/-- `set_tcp_connection_to_status`, with the return value 0 as `true`. -/
def setTcpConnectionToStatus (connectionsNumber : ℕ) (status : Bool) : Bool × TcpConnections :=
  match tcpC.getConnection connectionsNumber with
  | none => (false, tcpC)
  | some conTo =>
    if status then
      if conTo.status ≠ .sleeping then (false, tcpC)
      else (true, (tcpC.onRelays TcpCon.wakeUp conTo).setConnection connectionsNumber { conTo with status := .valid })
    else
      if conTo.status ≠ .valid then (false, tcpC)
      else (true, (tcpC.onRelays TcpCon.fallAsleep conTo).setConnection connectionsNumber
        { conTo with status := .sleeping })

/-! ### Relays -/

/-- Something is done to every connection in use. -/
def mapConnections (f : TcpConnectionTo → TcpConnectionTo) : TcpConnections :=
  { tcpC with connections := tcpC.connections.map fun conTo => if conTo.status = .none then conTo else f conTo }

/-- The onion loses a relay, if the relay was one of its own. -/
def dropOnion (tcpCon : TcpCon) : TcpConnections :=
  if tcpCon.onion then { tcpC with onionNumConns := tcpC.onionNumConns - 1 } else tcpC

/-- `kill_tcp_relay_connection`, with the return value 0 as `true`. -/
def killTcpRelayConnection (tcpConnectionsNumber : ℕ) : Bool × TcpConnections :=
  match tcpC.getTcpConnection tcpConnectionsNumber with
  | none => (false, tcpC)
  | some tcpCon =>
    (true, ((tcpC.mapConnections fun conTo => conTo.rmTcpConnectionFromConn tcpConnectionsNumber).dropOnion
      tcpCon).wipeTcpConnection tcpConnectionsNumber)

/-- No connection has a status on a relay any more. -/
def clearStatuses (tcpConnectionsNumber : ℕ) : TcpConnections :=
  tcpC.mapConnections fun conTo => (conTo.setTcpConnectionStatus tcpConnectionsNumber .none 0).getD conTo

/-- `reconnect_tcp_relay_connection`, with the return value 0 as `true`. -/
def reconnectTcpRelayConnection (connects : Bool) (tcpConnectionsNumber : ℕ) : Bool × TcpConnections :=
  match tcpC.getTcpConnection tcpConnectionsNumber with
  | none => (false, tcpC)
  | some tcpCon =>
    match tcpCon.status, tcpCon.connection with
    | .sleeping, _ => (false, tcpC)
    | _, none => (false, tcpC)
    | _, some connection =>
      match TcpClientConnection.new connects connection.ipPort connection.publicKey with
      | none =>
        (false, ((tcpC.setTcpConnection tcpConnectionsNumber { tcpCon with connection := none }).killTcpRelayConnection
          tcpConnectionsNumber).2)
      | some connection =>
        (true, ((tcpC.clearStatuses tcpConnectionsNumber).dropOnion tcpCon).setTcpConnection tcpConnectionsNumber
          { tcpCon.reset .valid (some connection) with onion := false })

/-- `sleep_tcp_relay_connection`, with the return value 0 as `true`. -/
def sleepTcpRelayConnection (tcpConnectionsNumber : ℕ) : Bool × TcpConnections :=
  match tcpC.getTcpConnection tcpConnectionsNumber with
  | none => (false, tcpC)
  | some tcpCon =>
    match tcpCon.status, tcpCon.connection with
    | .connected, some connection =>
      if tcpCon.lockCount ≠ tcpCon.sleepCount then (false, tcpC)
      else
        (true, ((tcpC.clearStatuses tcpConnectionsNumber).dropOnion tcpCon).setTcpConnection tcpConnectionsNumber
          { tcpCon.reset .sleeping none with
            onion := false, ipPort := connection.ipPort, relayPk := connection.publicKey })
    | _, _ => (false, tcpC)

/-- `unsleep_tcp_relay_connection`, with the return value 0 as `true`. -/
def unsleepTcpRelayConnection (connects : Bool) (tcpConnectionsNumber : ℕ) : Bool × TcpConnections :=
  match tcpC.getTcpConnection tcpConnectionsNumber with
  | none => (false, tcpC)
  | some tcpCon =>
    if tcpCon.status ≠ .sleeping then (false, tcpC)
    else
      match TcpClientConnection.new connects tcpCon.ipPort tcpCon.relayPk with
      | none => (false, (tcpC.killTcpRelayConnection tcpConnectionsNumber).2)
      | some connection => (true, tcpC.setTcpConnection tcpConnectionsNumber (tcpCon.reset .valid (some connection)))

/-- `send_tcp_relay_routing_request`, with the return value 0 as `true`. -/
def sendTcpRelayRoutingRequest (writes : Bool) (tcpConnectionsNumber : ℕ)
    (publicKey : PublicKey) : Bool × TcpConnections :=
  match tcpC.getTcpConnection tcpConnectionsNumber with
  | none => (false, tcpC)
  | some tcpCon =>
    if tcpCon.status = .sleeping ∨ writes = false then (false, tcpC)
    else
      (true, tcpC.setTcpConnection tcpConnectionsNumber
        { tcpCon with connection := tcpCon.connection.map fun connection => connection.sendRoutingRequest publicKey })

/-! ### Callbacks of a relay -/

/-- `tcp_response_callback`, with the return value 0 as `true`. -/
def tcpResponseCallback (tcpConnectionsNumber : ℕ) (connectionId : Fin numClientConnections) (publicKey : PublicKey) :
    Bool × TcpConnections :=
  match tcpC.getTcpConnection tcpConnectionsNumber, tcpC.findTcpConnectionTo publicKey with
  | some tcpCon, some n =>
    match tcpC.getConnection n with
    | none => (false, tcpC)
    | some conTo =>
      match conTo.setTcpConnectionStatus tcpConnectionsNumber .registered (UInt8.ofNat connectionId) with
      | none => (false, tcpC)
      | some conTo =>
        (true, (tcpC.setConnection n conTo).setTcpConnection tcpConnectionsNumber
          { tcpCon with
            connection := tcpCon.connection.map fun connection =>
              connection.setTcpConnectionNumber connectionId (UInt32.ofNat n) })
  | _, _ => (false, tcpC)

/-- `tcp_status_callback`, with the return value 0 as `true`. -/
def tcpStatusCallback (tcpConnectionsNumber : ℕ) (number : UInt32) (connectionId : Fin numClientConnections)
    (status : PortStatus) : Bool × TcpConnections :=
  match tcpC.getTcpConnection tcpConnectionsNumber, tcpC.getConnection number.toNat with
  | some tcpCon, some conTo =>
    let asleep : UInt32 := if conTo.status = .sleeping then 1 else 0
    match status with
    | .unused => (true, tcpC)
    | .offline =>
      match conTo.setTcpConnectionStatus tcpConnectionsNumber .registered (UInt8.ofNat connectionId) with
      | none => (false, tcpC)
      | some conTo =>
        (true, (tcpC.setConnection number.toNat conTo).setTcpConnection tcpConnectionsNumber
          { tcpCon with lockCount := tcpCon.lockCount - 1, sleepCount := tcpCon.sleepCount - asleep })
    | .online =>
      match conTo.setTcpConnectionStatus tcpConnectionsNumber .online (UInt8.ofNat connectionId) with
      | none => (false, tcpC)
      | some conTo =>
        (true, (tcpC.setConnection number.toNat conTo).setTcpConnection tcpConnectionsNumber
          { tcpCon with lockCount := tcpCon.lockCount + 1, sleepCount := tcpCon.sleepCount + asleep })
  | _, _ => (false, tcpC)

/-- `tcp_data_callback`: what the application is given, with the id of the connection. -/
def tcpDataCallback (tcpConnectionsNumber : ℕ) (number : UInt32) (data : Bytes) : Option (ℤ × Bytes) :=
  if data.length = 0 then none
  else
    match tcpC.getTcpConnection tcpConnectionsNumber, tcpC.getConnection number.toNat with
    | some _, some conTo => some (conTo.id, data)
    | _, _ => none

/-- `tcp_oob_callback`, where the application is given data of a connection. -/
def tcpOobCallback (tcpConnectionsNumber : ℕ) (publicKey : PublicKey) (data : Bytes) : Option (ℤ × Bytes) :=
  match tcpC.findTcpConnectionTo publicKey with
  | none => none
  | some n =>
    match tcpC.getConnection n with
    | none => none
    | some conTo =>
      if conTo.tcpConnectionInConn tcpConnectionsNumber then
        tcpC.tcpDataCallback tcpConnectionsNumber (UInt32.ofNat n) data else none

/-! ### Packets of a relay -/

/-- Write the TCP connection of a relay. -/
def setClient (tcpConnectionsNumber : ℕ) (tcpCon : TcpCon) (connection : TcpClientConnection) : TcpConnections :=
  tcpC.setTcpConnection tcpConnectionsNumber { tcpCon with connection := some connection }

/-- `handle_TCP_packet` of the client: the return value 0 as `true`, and what the application is given. -/
def handleTcpPacket (tcpConnectionsNumber : ℕ) (tcpCon : TcpCon) (connection : TcpClientConnection) (data : Bytes) :
    Bool × Option (ℤ × Bytes) × TcpConnections :=
  match data with
  | [] => (false, none, tcpC)
  | [_] => (false, none, tcpC)
  | kind :: second :: rest =>
    if kind = tcpPacketRoutingResponse then
      if rest.length ≠ 32 then (false, none, tcpC)
      else
        match clientPort second with
        | none => (true, none, tcpC)
        | some conId =>
          if (connection.connections conId).status ≠ .unused then (true, none, tcpC)
          else
            let publicKey := slice 32 rest 0
            let tcpC := tcpC.setClient tcpConnectionsNumber tcpCon (connection.setPort conId ⟨.offline, 0xFFFFFFFF,
              publicKey⟩)
            (true, none, if connection.callbacks then (tcpC.tcpResponseCallback tcpConnectionsNumber conId publicKey).2
              else tcpC)
    else if kind = tcpPacketConnectionNotification ∨ kind = tcpPacketDisconnectNotification then
      if rest ≠ [] then (false, none, tcpC)
      else
        match clientPort second with
        | none => (false, none, tcpC)
        | some conId =>
          let status : PortStatus × PortStatus :=
            if kind = tcpPacketConnectionNotification then (.offline, .online) else (.online, .offline)
          let entry := connection.connections conId
          if entry.status ≠ status.1 then (true, none, tcpC)
          else
            let tcpC := tcpC.setClient tcpConnectionsNumber tcpCon
              (connection.setPort conId { entry with status := status.2 })
            (true, none, if connection.callbacks then
              (tcpC.tcpStatusCallback tcpConnectionsNumber entry.number conId status.2).2 else tcpC)
    else if kind = tcpPacketPing then (rest.length = 7, none, tcpC)
    else if kind = tcpPacketPong then (rest.length = 7 ∧ ¬(second = 0 ∧ rest.all fun byte => byte = 0), none, tcpC)
    else if kind = tcpPacketOobRecv then
      if (second :: rest).length ≤ 32 then (false, none, tcpC)
      else
        (true, if connection.callbacks then
          tcpC.tcpOobCallback tcpConnectionsNumber (slice 32 (second :: rest) 0)
            ((second :: rest).drop 32) else none, tcpC)
    else if kind = tcpPacketOnionResponse then (true, none, tcpC)
    else
      match clientPort kind with
      | none => (false, none, tcpC)
      | some conId =>
        (true, if connection.callbacks then
          tcpC.tcpDataCallback tcpConnectionsNumber (connection.connections conId).number (second ::
            rest) else none, tcpC)

/-- A packet arrives from a relay that is confirmed. -/
def receive (tcpConnectionsNumber : ℕ) (data : Bytes) : Option (ℤ × Bytes) × TcpConnections :=
  match tcpC.getTcpConnection tcpConnectionsNumber with
  | none => (none, tcpC)
  | some tcpCon =>
    match tcpCon.connection with
    | none => (none, tcpC)
    | some connection =>
      if connection.disconnected then (none, tcpC)
      else
        match tcpC.handleTcpPacket tcpConnectionsNumber tcpCon connection data with
        | (true, given, tcpC) => (given, tcpC)
        | (false, given, tcpC) =>
          (given, tcpC.setClient tcpConnectionsNumber tcpCon { connection with disconnected := true })

/-! ### Adding relays -/

/-- `add_tcp_relay_instance`, unless it returns -1. -/
def addTcpRelayInstance (env : TcpConnEnv) (ipPort : IpPort) (relayPk : PublicKey) : Option ℕ × TcpConnections :=
  let family :=
    if ipPort.ip.family = tcpInet then afInet else if ipPort.ip.family = tcpInet6 then afInet6 else ipPort.ip.family
  if family ≠ afInet ∧ family ≠ afInet6 then (none, tcpC)
  else
    match tcpC.createTcpConnection env with
    | (none, tcpC) => (none, tcpC)
    | (some k, tcpC) =>
      match TcpClientConnection.new env.connects { ipPort with ip := { ipPort.ip with family := family } } relayPk with
      | none =>
        (none, { tcpC with tcpConnections := tcpC.tcpConnections.modify k fun tcpCon => {
          tcpCon with connection := none } })
      | some connection =>
        (some k, { tcpC with
          tcpConnections := tcpC.tcpConnections.modify k fun tcpCon =>
            { tcpCon with connection := some connection, status := .valid } })

/-- `add_tcp_relay_global`, with the return value 0 as `true`. -/
def addTcpRelayGlobal (env : TcpConnEnv) (ipPort : IpPort) (relayPk : PublicKey) : Bool × TcpConnections :=
  match tcpC.findTcpConnectionRelay relayPk with
  | some _ => (false, tcpC)
  | none =>
    let (k, tcpC) := tcpC.addTcpRelayInstance env ipPort relayPk
    (k.isSome, tcpC)

/-- `add_tcp_number_relay_connection`, with the return value 0 as `true`. -/
def addTcpNumberRelayConnection (env : TcpConnEnv)
    (connectionsNumber tcpConnectionsNumber : ℕ) : Bool × TcpConnections :=
  match tcpC.getConnection connectionsNumber, tcpC.getTcpConnection tcpConnectionsNumber with
  | some conTo, some tcpCon =>
    let tcpCon := if conTo.status ≠ .sleeping ∧
      tcpCon.status = .sleeping then { tcpCon with unsleep := true } else tcpCon
    let tcpC := tcpC.setTcpConnection tcpConnectionsNumber tcpCon
    match conTo.addTcpConnectionToConn tcpConnectionsNumber with
    | none => (false, tcpC)
    | some conTo =>
      let tcpC := tcpC.setConnection connectionsNumber conTo
      if tcpCon.status = .connected then
        match tcpC.sendTcpRelayRoutingRequest (env.writes connectionsNumber) tcpConnectionsNumber conTo.publicKey with
        | (false, tcpC) => (true, tcpC)
        | (true, tcpC) =>
          (true, { tcpC with
            tcpConnections := tcpC.tcpConnections.modify tcpConnectionsNumber fun tcpCon =>
              { tcpCon with connectedTime := env.unixTime } })
      else (true, tcpC)
  | _, _ => (false, tcpC)

/-- `add_tcp_relay_connection`, with the return value 0 as `true`. -/
def addTcpRelayConnection (env : TcpConnEnv) (connectionsNumber : ℕ) (ipPort : IpPort) (relayPk : PublicKey) :
    Bool × TcpConnections :=
  match tcpC.getConnection connectionsNumber with
  | none => (false, tcpC)
  | some conTo =>
    match tcpC.findTcpConnectionRelay relayPk with
    | some k => tcpC.addTcpNumberRelayConnection env connectionsNumber k
    | none =>
      if conTo.onlineTcpConnectionFromConn ≥ recommendedFriendTcpConnections then (false, tcpC)
      else
        match tcpC.addTcpRelayInstance env ipPort relayPk with
        | (none, tcpC) => (false, tcpC)
        | (some k, tcpC) =>
          match conTo.addTcpConnectionToConn k with
          | none => (false, tcpC)
          | some conTo => (true, tcpC.setConnection connectionsNumber conTo)

/-! ### The onion -/

/-- The first loop of `set_tcp_onion_status`: connected relays are taken until there are enough. -/
def takeOnion : ℕ → List TcpCon → ℕ × List TcpCon
  | taken, [] => (taken, [])
  | taken, tcpCon :: rest =>
    let takes := tcpCon.status = .connected ∧ tcpCon.onion = false
    let taken := if takes then taken + 1 else taken
    let tcpCon := if takes then { tcpCon with onion := true } else tcpCon
    if taken ≥ numOnionTcpConnections then (taken, tcpCon :: rest)
    else
      let (taken, rest) := takeOnion taken rest
      (taken, tcpCon :: rest)

/-- `set_tcp_onion_status`, with the return value 0 as `true`. -/
def setTcpOnionStatus (status : Bool) : Bool × TcpConnections :=
  if tcpC.onionStatus = status then (false, tcpC)
  else if status then
    let (taken, relays) := takeOnion tcpC.onionNumConns.toNat tcpC.tcpConnections
    let relays := if taken < numOnionTcpConnections then
      relays.map fun tcpCon => if tcpCon.status = .sleeping then { tcpCon with unsleep := true } else tcpCon else relays
    (true, { tcpC with tcpConnections := relays, onionNumConns := UInt16.ofNat taken, onionStatus := true })
  else
    let dropped := tcpC.tcpConnections.countP fun tcpCon => tcpCon.status ≠ .none ∧ tcpCon.onion
    (true, { tcpC with
      tcpConnections := tcpC.tcpConnections.map fun tcpCon =>
        if tcpCon.status ≠ .none then { tcpCon with onion := false } else tcpCon
      onionNumConns := tcpC.onionNumConns - UInt16.ofNat dropped
      onionStatus := false })

/-! ### The tick -/

/-- The requests of `tcp_relay_on_online`, for the connections with some numbers: how many were sent. -/
def sendRequests (writes : ℕ → Bool) (tcpConnectionsNumber : ℕ) : List ℕ → TcpConnections → ℕ × TcpConnections
  | [], tcpC => (0, tcpC)
  | n :: rest, tcpC =>
    match tcpC.getConnection n with
    | none => sendRequests writes tcpConnectionsNumber rest tcpC
    | some conTo =>
      if conTo.tcpConnectionInConn tcpConnectionsNumber then
        let (written, tcpC) := tcpC.sendTcpRelayRoutingRequest (writes n) tcpConnectionsNumber conTo.publicKey
        let (sent, tcpC) := sendRequests writes tcpConnectionsNumber rest tcpC
        (if written then sent + 1 else sent, tcpC)
      else sendRequests writes tcpConnectionsNumber rest tcpC

/-- `tcp_relay_on_online` for a relay in use. -/
def tcpRelayOnOnline (env : TcpConnEnv) (tcpConnectionsNumber : ℕ) : TcpConnections :=
  let (sent, tcpC) := sendRequests env.writes tcpConnectionsNumber (List.range tcpC.connections.length) tcpC
  let takes := tcpC.onionStatus ∧ tcpC.onionNumConns < UInt16.ofNat numOnionTcpConnections
  { tcpC with
    tcpConnections := tcpC.tcpConnections.modify tcpConnectionsNumber fun tcpCon =>
      { tcpCon with
        connection := tcpCon.connection.map fun connection => { connection with callbacks := true }
        status := .connected
        connectedTime := if sent ≠ 0 then env.unixTime else 0
        onion := if takes then true else tcpCon.onion }
    onionNumConns := if takes then tcpC.onionNumConns + 1 else tcpC.onionNumConns }

/-- A relay that only sleeping connections use, in `do_tcp_conns`. -/
def unneeded (env : TcpConnEnv) (tcpCon : TcpCon) : Bool :=
  tcpCon.status = .connected ∧ tcpCon.onion = false ∧ tcpCon.lockCount ≠ 0 ∧ tcpCon.lockCount = tcpCon.sleepCount ∧
    isTimeout env.unixTime tcpCon.connectedTime tcpConnectionAnnounceTimeout

/-- A relay comes online, and one that is not needed is put to sleep, in `do_tcp_conns`. -/
def serveRelay (env : TcpConnEnv) (confirmed : Bool) (tcpConnectionsNumber : ℕ) (tcpCon : TcpCon) : TcpConnections :=
  let tcpC := if tcpCon.status = .valid ∧ confirmed then tcpC.tcpRelayOnOnline env tcpConnectionsNumber else tcpC
  match tcpC.getTcpConnection tcpConnectionsNumber with
  | none => tcpC
  | some tcpCon => if unneeded env tcpCon then (tcpC.sleepTcpRelayConnection tcpConnectionsNumber).2 else tcpC

/-- The end of the loop body of `do_tcp_conns`. -/
def wakeRelay (env : TcpConnEnv) (tcpConnectionsNumber : ℕ) : TcpConnections :=
  match tcpC.getTcpConnection tcpConnectionsNumber with
  | none => tcpC
  | some tcpCon =>
    if tcpCon.status = .sleeping ∧ tcpCon.unsleep then
      (tcpC.unsleepTcpRelayConnection env.connects tcpConnectionsNumber).2 else tcpC

/-- The body of the loop of `do_tcp_conns` behind `do_TCP_connection`, which may have confirmed or disconnected the TCP
connection. -/
def afterTcpConnection (env : TcpConnEnv) (confirmed disconnected : Bool) (tcpConnectionsNumber : ℕ) : TcpConnections :=
  match tcpC.getTcpConnection tcpConnectionsNumber with
  | none => tcpC
  | some tcpCon =>
    match tcpCon.status, tcpCon.connection with
    | .sleeping, _ => tcpC.wakeRelay env tcpConnectionsNumber
    | _, none => tcpC
    | _, some connection =>
      if disconnected ∨ connection.disconnected then
        if tcpCon.status = .connected then (tcpC.reconnectTcpRelayConnection env.connects tcpConnectionsNumber).2
        else (tcpC.killTcpRelayConnection tcpConnectionsNumber).2
      else (tcpC.serveRelay env confirmed tcpConnectionsNumber tcpCon).wakeRelay env tcpConnectionsNumber

/-- A relay that no connection is online through, in `kill_nonused_tcp`. -/
def nonused (env : TcpConnEnv) (tcpCon : TcpCon) : Bool :=
  tcpCon.status = .connected ∧ tcpCon.onion = false ∧ tcpCon.lockCount = 0 ∧
    isTimeout env.unixTime tcpCon.connectedTime tcpConnectionAnnounceTimeout

/-- The relays that `kill_nonused_tcp` kills. -/
def toKill (env : TcpConnEnv) : List ℕ :=
  let online := tcpC.tcpConnections.countP fun tcpCon => tcpCon.status = .connected
  ((List.range tcpC.tcpConnections.length).filter fun k =>
    ((tcpC.getTcpConnection k).map (nonused env)).getD false).take
    (online - recommendedFriendTcpConnections)

/-- `kill_nonused_tcp`. -/
def killNonusedTcp (env : TcpConnEnv) : TcpConnections :=
  (tcpC.toKill env).foldl (fun tcpC k => (tcpC.killTcpRelayConnection k).2) tcpC

end TcpConnections

/-! ## Runs -/

/-- What happens. `do_tcp_connections` is packets and `afterTcpConnection` for one relay after the other, and
`killNonusedTcp`. -/
inductive TcpConnEvent where
  | newTcpConnectionTo (env : TcpConnEnv) (publicKey : PublicKey) (id : ℤ)
  | killTcpConnectionTo (connectionsNumber : ℕ)
  | setTcpConnectionToStatus (connectionsNumber : ℕ) (status : Bool)
  | addTcpRelayGlobal (env : TcpConnEnv) (ipPort : IpPort) (relayPk : PublicKey)
  | addTcpRelayConnection (env : TcpConnEnv) (connectionsNumber : ℕ) (ipPort : IpPort) (relayPk : PublicKey)
  | addTcpNumberRelayConnection (env : TcpConnEnv) (connectionsNumber tcpConnectionsNumber : ℕ)
  | setTcpOnionStatus (status : Bool)
  | receive (tcpConnectionsNumber : ℕ) (data : Bytes)
  | afterTcpConnection (env : TcpConnEnv) (confirmed disconnected : Bool) (tcpConnectionsNumber : ℕ)
  | killNonusedTcp (env : TcpConnEnv)

namespace TcpConnections

/-- `new_tcp_connections`. -/
def new : TcpConnections := ⟨[], [], false, 0⟩

/-- One event. -/
def step (tcpC : TcpConnections) : TcpConnEvent → TcpConnections
  | .newTcpConnectionTo env publicKey id => (tcpC.newTcpConnectionTo env publicKey id).2
  | .killTcpConnectionTo n => (tcpC.killTcpConnectionTo n).2
  | .setTcpConnectionToStatus n status => (tcpC.setTcpConnectionToStatus n status).2
  | .addTcpRelayGlobal env ipPort relayPk => (tcpC.addTcpRelayGlobal env ipPort relayPk).2
  | .addTcpRelayConnection env n ipPort relayPk => (tcpC.addTcpRelayConnection env n ipPort relayPk).2
  | .addTcpNumberRelayConnection env n k => (tcpC.addTcpNumberRelayConnection env n k).2
  | .setTcpOnionStatus status => (tcpC.setTcpOnionStatus status).2
  | .receive k data => (tcpC.receive k data).2
  | .afterTcpConnection env confirmed disconnected k => tcpC.afterTcpConnection env confirmed disconnected k
  | .killNonusedTcp env => tcpC.killNonusedTcp env

/-- Several events. -/
def run (tcpC : TcpConnections) (events : List TcpConnEvent) : TcpConnections := events.foldl step tcpC

/-- `do_tcp_connections`, given the packets of each relay in turn, and what became of its TCP connection. -/
def doTcpConnections (tcpC : TcpConnections) (relays : List (List TcpConnEvent × Bool × Bool)) (env : TcpConnEnv) :
    TcpConnections :=
  tcpC.run (relays.zipIdx.flatMap (fun relay =>
    relay.1.1 ++ [.afterTcpConnection env relay.1.2.1 relay.1.2.2 relay.2]) ++ [.killNonusedTcp env])

end TcpConnections

end Toxcore
