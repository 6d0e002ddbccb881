import Toxcore.DHT.Friends
import Toxcore.NetCrypto.Lossless
import Toxcore.NetCrypto.Receiving
import Toxcore.Onion.Client

/-!
# Friend connections

A friend connection finds the DHT key of a friend through the onion, its address through the DHT, and has a crypto
connection to it. The crypto connection is created or accepted, and its callbacks are registered with the number of
the friend connection. It goes away in two ways: `Net_Crypto` kills it and tells the friend connection, or the friend
connection kills it.

The layers above are told of status changes, from which they only send packets, and those are left out; what they do
with data is a parameter. TCP relays are only stored: the TCP layer is not part of the model.
-/

namespace Toxcore

open ByteStrings

/-- The `FRIENDCONN_STATUS_*` values. -/
inductive FriendconnStatus where
  | none
  | connecting
  | connected
  deriving DecidableEq

/-- `FRIEND_PING_INTERVAL`, in seconds. -/
def friendPingInterval : UInt64 := 8

/-- `FRIEND_CONNECTION_TIMEOUT`. -/
def friendConnectionTimeout : UInt64 := friendPingInterval * 4

/-- `FRIEND_DHT_TIMEOUT`. -/
def friendDhtTimeout : UInt64 := badNodeTimeout

/-- `SHARE_RELAYS_INTERVAL`, in seconds. -/
def shareRelaysInterval : UInt64 := 5 * 60

/-- `LAN_DISCOVERY_INTERVAL`, in seconds. -/
def lanDiscoveryInterval : UInt64 := 10

/-- `FRIEND_MAX_STORED_TCP_RELAYS`. -/
abbrev friendMaxStoredTcpRelays : ℕ := 6 * 4

/-- `MAX_SHARED_RELAYS`. -/
abbrev maxSharedRelays : ℕ := 6 / 2

/-- `MAX_FRIEND_CONNECTION_CALLBACKS`. -/
abbrev maxFriendConnectionCallbacks : ℕ := 2

/-- `PACKET_ID_ALIVE`. -/
def packetIdAlive : UInt8 := 16

/-- `PACKET_ID_SHARE_RELAYS`. -/
def packetIdShareRelays : UInt8 := 17

/-- `PACKET_ID_FRIEND_REQUESTS`. -/
def packetIdFriendRequests : UInt8 := 18

/-- `Friend_Conn`, with `none` for the crypto connection -1. -/
structure FriendConn where
  status : FriendconnStatus
  realPublicKey : PublicKey
  dhtTempPk : PublicKey
  dhtLock : UInt16
  dhtIpPort : IpPort
  dhtPkLastrecv : UInt64
  dhtIpPortLastrecv : UInt64
  onionFriendnum : ℕ
  cryptConnectionId : Option ℕ
  pingLastrecv : UInt64
  pingLastsent : UInt64
  shareRelaysLastsent : UInt64
  lockCount : UInt16
  tcpRelays : Fin friendMaxStoredTcpRelays → NodeFormat
  tcpRelayCounter : UInt16
  hostingTcpRelay : Bool

/-- A friend connection cleared to zero bytes. -/
def FriendConn.zero : FriendConn where
  status := .none
  realPublicKey := .zero
  dhtTempPk := .zero
  dhtLock := 0
  dhtIpPort := .zero
  dhtPkLastrecv := 0
  dhtIpPortLastrecv := 0
  onionFriendnum := 0
  cryptConnectionId := some 0
  pingLastrecv := 0
  pingLastsent := 0
  shareRelaysLastsent := 0
  lockCount := 0
  tcpRelays _ := .zero
  tcpRelayCounter := 0
  hostingTcpRelay := false

/-- A friend connection that stores one more TCP relay. -/
def FriendConn.storeTcpRelay (friendCon : FriendConn) (ipPort : IpPort) (publicKey : PublicKey) : FriendConn :=
  { friendCon with
    tcpRelays := fun i =>
      let relay := friendCon.tcpRelays i
      if i.val = friendCon.tcpRelayCounter.toNat % friendMaxStoredTcpRelays then ⟨publicKey, ipPort⟩
      else if relay.ipPort.ip.family ≠ 0 ∧ relay.publicKey = publicKey then .zero
      else relay
    tcpRelayCounter := friendCon.tcpRelayCounter + 1 }

/-- `Friend_Connections`, with the onion client and the DHT it works on. -/
structure FriendConnections where
  conns : List FriendConn
  onionC : OnionClient
  dht : Dht
  lastLanDiscovery : UInt64

/-- `Net_Crypto` and the friend connections. -/
abbrev FriendWorld := World FriendConnections

/-- What a call observes of its surroundings: what `Net_Crypto` does, the outcomes of the allocations, the relays that
`copy_connected_tcp_relays` finds, and the contents of an array on the stack. -/
structure FriendEnv where
  net : Env
  allocConns : Bool
  allocOnionFriends : Bool
  allocDhtGrow : Bool
  allocDhtShrink : Bool
  connectedTcpRelays : List NodeFormat
  stackNodes : ℕ → NodeFormat

/-- Surroundings in which nothing fails. -/
def FriendEnv.calm : FriendEnv := ⟨.calm, true, true, true, true, [], fun _ => .zero⟩

/-- What the layers above do with the packets of a friend connection, given its number. -/
structure LayerAbove where
  frRequest : FriendWorld → PublicKey → Bytes → FriendWorld
  dataCallback : FriendWorld → ℕ → Fin maxFriendConnectionCallbacks → Bytes → FriendWorld
  lossyDataCallback : FriendWorld → ℕ → Fin maxFriendConnectionCallbacks → Bytes → FriendWorld

/-- The layers above take a world to another. -/
inductive LayerAbove.Calls (above : LayerAbove) : FriendWorld → FriendWorld → Prop
  | frRequest (w : FriendWorld) (publicKey : PublicKey) (data : Bytes) :
      Calls above w (above.frRequest w publicKey data)
  | dataCallback (w : FriendWorld) (number : ℕ) (i : Fin maxFriendConnectionCallbacks) (data : Bytes) :
      Calls above w (above.dataCallback w number i data)
  | lossyDataCallback (w : FriendWorld) (number : ℕ) (i : Fin maxFriendConnectionCallbacks) (data : Bytes) :
      Calls above w (above.lossyDataCallback w number i data)

/-- Layers above that set no callbacks. -/
def LayerAbove.unset : LayerAbove := ⟨fun w _ _ => w, fun w _ _ _ => w, fun w _ _ _ => w⟩

/-- A layer above that is not set changes nothing. -/
theorem LayerAbove.unset_calls {u v : FriendWorld} (h : LayerAbove.unset.Calls u v) : v = u := by
  cases h <;> rfl

namespace FriendConnections

/-- `get_conn`: the friend connection with a number, if it is in use. -/
def getConn (frC : FriendConnections) (friendconId : ℕ) : Option FriendConn :=
  match frC.conns[friendconId]? with
  | none => none
  | some friendCon => if friendCon.status = .none then none else some friendCon

/-- Write through a pointer to a friend connection. -/
def setConn (frC : FriendConnections) (friendconId : ℕ) (friendCon : FriendConn) : FriendConnections :=
  { frC with conns := frC.conns.set friendconId friendCon }

/-- `getfriend_conn_id_pk`. -/
def getfriendConnIdPk (frC : FriendConnections) (realPk : PublicKey) : Option ℕ :=
  frC.conns.findIdx? fun friendCon => friendCon.status ≠ .none ∧ friendCon.realPublicKey = realPk

/-- `friend_connection_crypt_connection_id`. -/
def friendConnectionCryptConnectionId (frC : FriendConnections) (friendconId : ℕ) : Option ℕ :=
  match frC.getConn friendconId with
  | none => none
  | some friendCon => friendCon.cryptConnectionId

/-- `friend_connection_lock`, with the return value 0 as `true`. -/
def friendConnectionLock (frC : FriendConnections) (friendconId : ℕ) : Bool × FriendConnections :=
  match frC.getConn friendconId with
  | none => (false, frC)
  | some friendCon => (true, frC.setConn friendconId { friendCon with lockCount := friendCon.lockCount + 1 })

/-- `friend_con_connected`. -/
def friendConConnected (frC : FriendConnections) (friendconId : ℕ) : FriendconnStatus :=
  ((frC.getConn friendconId).map FriendConn.status).getD .none

/-- `get_friendcon_public_keys`: the key of the friend and its DHT key. -/
def getFriendconPublicKeys (frC : FriendConnections) (friendconId : ℕ) : Option (PublicKey × PublicKey) :=
  (frC.getConn friendconId).map fun friendCon => (friendCon.realPublicKey, friendCon.dhtTempPk)

/-- `create_friend_conn`: a free slot, or a new one at the end. -/
def createFriendConn (env : FriendEnv) (frC : FriendConnections) : Option ℕ × FriendConnections :=
  match frC.conns.findIdx? fun friendCon => friendCon.status = .none with
  | some id => (some id, frC)
  | none =>
    if env.allocConns then (some frC.conns.length, { frC with conns := frC.conns ++ [.zero] }) else (none, frC)

/-- `wipe_friend_conn`: clear a slot and cut the free slots off the end of the table. -/
def wipeFriendConn (frC : FriendConnections) (friendconId : ℕ) : FriendConnections :=
  { frC with conns := (frC.conns.set friendconId .zero).rdropWhile fun friendCon => friendCon.status = .none }

/-- `friend_add_tcp_relay`. A relay on a local address that has the DHT key of the friend is taken to be the friend's
own. -/
def friendAddTcpRelay (frC : FriendConnections) (friendconId : ℕ) (ipPort : IpPort) (publicKey : PublicKey) :
    FriendConnections :=
  match frC.getConn friendconId with
  | none => frC
  | some friendCon =>
    if localIp ipPort.ip = true ∧ friendCon.dhtTempPk = publicKey then
      if friendCon.dhtIpPort.ip.family ≠ 0 then
        frC.setConn friendconId (friendCon.storeTcpRelay { ipPort with ip := friendCon.dhtIpPort.ip } publicKey)
      else frC.setConn friendconId ({ friendCon with hostingTcpRelay := false }.storeTcpRelay ipPort publicKey)
    else frC.setConn friendconId (friendCon.storeTcpRelay ipPort publicKey)

/-- Store several TCP relays. -/
def addTcpRelays (frC : FriendConnections) (friendconId : ℕ) (nodes : List NodeFormat) : FriendConnections :=
  nodes.foldl (fun frC node => friendAddTcpRelay frC friendconId node.ipPort node.publicKey) frC

/-- `tcp_relay_node_callback`. -/
def tcpRelayNodeCallback (frC : FriendConnections) (number : ℕ) (ipPort : IpPort) (publicKey : PublicKey) :
    FriendConnections :=
  match frC.friendConnectionCryptConnectionId number with
  | none => frC
  | some _ => friendAddTcpRelay frC number ipPort publicKey

/-- `dht_ip_callback` registered for a friend connection. There is one function and one object, so the pointers are
0. -/
def ipCallbackFor (friendconId : ℕ) : IpCallback := ⟨0, 0, Int32.ofNat friendconId⟩

/-- The end of `change_dht_pk`: the key is looked for in the DHT and stored. -/
def takeDhtPk (env : FriendEnv) (frC : FriendConnections) (friendconId : ℕ) (friendCon : FriendConn)
    (dhtPublicKey : PublicKey) : FriendConnections :=
  let (lock, dht) :=
    dhtAddfriend env.net.unixTime env.allocDhtGrow frC.dht dhtPublicKey (some (ipCallbackFor friendconId))
  { frC with dht := dht }.setConn friendconId
    { friendCon with dhtLock := lock.getD friendCon.dhtLock, dhtTempPk := dhtPublicKey }

/-- `change_dht_pk`. -/
def changeDhtPk (env : FriendEnv) (frC : FriendConnections) (friendconId : ℕ) (dhtPublicKey : PublicKey) :
    FriendConnections :=
  match frC.getConn friendconId with
  | none => frC
  | some friendCon =>
    let friendCon : FriendConn := { friendCon with dhtPkLastrecv := env.net.unixTime }
    if friendCon.dhtLock ≠ 0 then
      match dhtDelfriend env.allocDhtShrink frC.dht friendCon.dhtTempPk friendCon.dhtLock with
      | (false, dht) => { frC with dht := dht }.setConn friendconId friendCon
      | (true, dht) => takeDhtPk env { frC with dht := dht } friendconId { friendCon with dhtLock := 0 } dhtPublicKey
    else takeDhtPk env frC friendconId friendCon dhtPublicKey

/-- `handle_status`. -/
def handleStatus (env : FriendEnv) (frC : FriendConnections) (number : ℕ) (status : Bool) : FriendConnections :=
  match frC.getConn number with
  | none => frC
  | some friendCon =>
    let onionC := onionSetFriendOnline env.net.unixTime frC.onionC friendCon.onionFriendnum status
    if status then
      { frC with onionC := onionC }.setConn number
        { friendCon with status := .connected, pingLastrecv := env.net.unixTime, shareRelaysLastsent := 0 }
    else
      let offline := { friendCon with status := .connecting, cryptConnectionId := none, hostingTcpRelay := false }
      if friendCon.status ≠ .connecting then
        { frC with onionC := onionC }.setConn number { offline with dhtPkLastrecv := env.net.unixTime }
      else frC.setConn number offline

/-- `new_friend_connection`. -/
def newFriendConnection (env : FriendEnv) (frC : FriendConnections) (realPublicKey : PublicKey) :
    Option ℕ × FriendConnections :=
  match frC.getfriendConnIdPk realPublicKey with
  | some friendconId =>
    (some friendconId, { frC with
      conns := frC.conns.modify friendconId fun friendCon => { friendCon with lockCount := friendCon.lockCount + 1 } })
  | none =>
    match frC.createFriendConn env with
    | (none, frC) => (none, frC)
    | (some friendconId, frC) =>
      match onionAddfriend env.allocOnionFriends frC.onionC realPublicKey with
      | (none, onionC) => (none, { frC with onionC := onionC })
      | (some onionFriendnum, onionC) =>
        let onionC := recvTcpRelayHandler onionC onionFriendnum (UInt32.ofNat friendconId)
        let onionC := onionDhtPkCallback onionC onionFriendnum (UInt32.ofNat friendconId)
        (some friendconId, { frC with
          onionC := onionC
          conns := frC.conns.modify friendconId fun friendCon =>
            { friendCon with
              cryptConnectionId := none
              status := .connecting
              realPublicKey := realPublicKey
              onionFriendnum := onionFriendnum } })

end FriendConnections

/-! ## Friend connections and crypto connections -/

section CryptoConnections

variable (sodium : Sodium) (env : FriendEnv)

/-- `crypto_kill`, which does nothing for the id -1. -/
def killCryptConnection (c : NetCrypto) : Option ℕ → NetCrypto
  | none => c
  | some id => (c.cryptoKill sodium env.net id).2

/-- `set_direct_ip_port`, which does nothing for the id -1. -/
def setDirect (c : NetCrypto) (cryptConnectionId : Option ℕ) (ipPort : IpPort) (connected : Bool) : NetCrypto :=
  match cryptConnectionId with
  | none => c
  | some id => (c.setDirectIpPort env.net id ipPort connected).2

/-- Send a packet to a friend; there is nowhere to send it for the id -1. -/
def writeFriendPacket (c : NetCrypto) (cryptConnectionId : Option ℕ) (data : Bytes) : Bool × NetCrypto :=
  match cryptConnectionId with
  | none => (false, c)
  | some id =>
    let (number, c) := c.writeCryptpacket sodium env.net id data false
    (number.isSome, c)

/-- The handlers of friend connections, registered for a crypto connection, but for the one for DHT keys. -/
def registerHandlers (c : NetCrypto) (id number : ℕ) : NetCrypto :=
  let c := (c.connectionStatusHandler id number).2
  let c := (c.connectionDataHandler id number).2
  (c.connectionLossyDataHandler id number).2

/-- `friend_new_connection`. -/
def friendNewConnection (w : FriendWorld) (friendconId : ℕ) : Bool × FriendWorld :=
  match w.app.getConn friendconId with
  | none => (false, w)
  | some friendCon =>
    if friendCon.cryptConnectionId ≠ none then (false, w)
    else if friendCon.dhtLock = 0 then (false, w)
    else
      match w.net.newCryptoConnection sodium env.net friendCon.realPublicKey friendCon.dhtTempPk with
      | (none, c) => (false, { w with net := c })
      | (some id, c) =>
        (true,
          { net := ((registerHandlers c id friendconId).ncDhtPkCallback id friendconId).2
            app := w.app.setConn friendconId { friendCon with cryptConnectionId := some id } })

/-- `dht_ip_callback`. -/
def dhtIpCallback (w : FriendWorld) (number : ℕ) (ipPort : IpPort) : FriendWorld :=
  match w.app.getConn number with
  | none => w
  | some friendCon =>
    let w := if friendCon.cryptConnectionId = none then (friendNewConnection sodium env w number).2 else w
    let c := setDirect env w.net (w.app.friendConnectionCryptConnectionId number) ipPort true
    match w.app.getConn number with
    | none => { w with net := c }
    | some friendCon =>
      let frC := w.app.setConn number { friendCon with dhtIpPort := ipPort, dhtIpPortLastrecv := env.net.unixTime }
      if friendCon.hostingTcpRelay then
        let frC := frC.friendAddTcpRelay number ipPort friendCon.dhtTempPk
        { net := c, app := { frC with
            conns := frC.conns.modify number fun friendCon => { friendCon with hostingTcpRelay := false } } }
      else { net := c, app := frC }

/-- Kill the crypto connection of a friend connection, which goes offline. -/
def goOffline (w : FriendWorld) (number : ℕ) : FriendWorld where
  net := killCryptConnection sodium env w.net (w.app.friendConnectionCryptConnectionId number)
  app := w.app.handleStatus env number false

/-- `dht_pk_callback`. -/
def dhtPkCallback (w : FriendWorld) (number : ℕ) (dhtPublicKey : PublicKey) : FriendWorld :=
  match w.app.getConn number with
  | none => w
  | some friendCon =>
    if friendCon.dhtTempPk = dhtPublicKey then w
    else
      let w := { w with app := w.app.changeDhtPk env number dhtPublicKey }
      let w := if friendCon.cryptConnectionId ≠ none then goOffline sodium env w number else w
      let w := (friendNewConnection sodium env w number).2
      { w with app := { w.app with
          onionC := onionSetFriendDhtPubkey env.net.unixTime w.app.onionC friendCon.onionFriendnum dhtPublicKey } }

/-- `set_dht_temp_pk`. -/
def setDhtTempPk (w : FriendWorld) (friendconId : ℕ) (dhtTempPk : PublicKey) : FriendWorld :=
  dhtPkCallback sodium env w friendconId dhtTempPk

/-- `handle_new_connections`. -/
def handleNewConnections (w : FriendWorld) (nC : NewConnection) : Bool × FriendWorld :=
  match w.app.getfriendConnIdPk nC.publicKey with
  | none => (false, w)
  | some friendconId =>
    match w.app.getConn friendconId with
    | none => (false, w)
    | some friendCon =>
      if friendCon.cryptConnectionId ≠ none then (false, w)
      else
        match w.net.acceptCryptoConnection sodium env.net nC with
        | (none, c) => (false, { w with net := c })
        | (some id, c) =>
          let c := registerHandlers c id friendconId
          let friendCon := { friendCon with cryptConnectionId := some id }
          let (c, friendCon) :=
            if nC.source.ip.family ≠ afInet ∧ nC.source.ip.family ≠ afInet6 then
              (setDirect env c (some id) friendCon.dhtIpPort false, friendCon)
            else (c, { friendCon with dhtIpPort := nC.source, dhtIpPortLastrecv := env.net.unixTime })
          let frC := w.app.setConn friendconId friendCon
          let frC := if friendCon.dhtTempPk ≠ nC.dhtPublicKey then
            frC.changeDhtPk env friendconId nC.dhtPublicKey else frC
          (true, { net := (c.ncDhtPkCallback id friendconId).2, app := frC })

/-- `kill_friend_connection`. -/
def killFriendConnection (w : FriendWorld) (friendconId : ℕ) : Bool × FriendWorld :=
  match w.app.getConn friendconId with
  | none => (false, w)
  | some friendCon =>
    if friendCon.lockCount ≠ 0 then
      (true, { w with app := w.app.setConn friendconId { friendCon with lockCount := friendCon.lockCount - 1 } })
    else
      let frC := { w.app with
        onionC := onionDelfriend w.app.onionC friendCon.onionFriendnum
        dht := if friendCon.dhtLock ≠ 0 then
          (dhtDelfriend env.allocDhtShrink w.app.dht friendCon.dhtTempPk friendCon.dhtLock).2 else w.app.dht }
      (true,
        { net := killCryptConnection sodium env w.net friendCon.cryptConnectionId
          app := frC.wipeFriendConn friendconId })

/-! ### The main loop -/

/-- `send_ping`. -/
def sendPing (w : FriendWorld) (friendconId : ℕ) : FriendWorld :=
  match w.app.getConn friendconId with
  | none => w
  | some friendCon =>
    match writeFriendPacket sodium env w.net friendCon.cryptConnectionId [packetIdAlive] with
    | (false, c) => { w with net := c }
    | (true, c) =>
      { net := c, app := w.app.setConn friendconId { friendCon with pingLastsent := env.net.unixTime } }

/-- `send_relays`. -/
def sendRelays (w : FriendWorld) (friendconId : ℕ) : FriendWorld :=
  let nodes := env.connectedTcpRelays.take maxSharedRelays
  let frC := w.app.addTcpRelays friendconId nodes
  match frC.getConn friendconId with
  | none => w
  | some friendCon =>
    let (length, packed) := packNodes 1023 nodes (UInt16.ofNat nodes.length)
    if length.getD 0 = 0 then { w with app := frC }
    else
      match writeFriendPacket sodium env w.net friendCon.cryptConnectionId (packetIdShareRelays :: packed) with
      | (false, c) => { net := c, app := frC }
      | (true, c) =>
        { net := c, app := frC.setConn friendconId { friendCon with shareRelaysLastsent := env.net.unixTime } }

/-- The lock of a friend whose DHT key has not been heard of for long is given back. -/
def expireDhtLock (tempTime : UInt64) (dht : Dht) (friendCon : FriendConn) : UInt16 × Dht :=
  if friendCon.dhtPkLastrecv + friendDhtTimeout < tempTime ∧ friendCon.dhtLock ≠ 0 then
    (0, (dhtDelfriend env.allocDhtShrink dht friendCon.dhtTempPk friendCon.dhtLock).2)
  else (friendCon.dhtLock, dht)

/-- The address of a friend is unset where it has not been heard of for long. -/
def expireDhtIpPort (tempTime : UInt64) (friendCon : FriendConn) : IpPort :=
  if friendCon.dhtIpPortLastrecv + friendDhtTimeout < tempTime then
    { friendCon.dhtIpPort with ip := { friendCon.dhtIpPort.ip with family := 0 } }
  else friendCon.dhtIpPort

/-- The part of `do_friend_connections` for a friend that is not connected. -/
def serveConnecting (tempTime : UInt64) (w : FriendWorld) (i : ℕ) (friendCon : FriendConn) : FriendWorld :=
  let (dhtLock, dht) := expireDhtLock env tempTime w.app.dht friendCon
  let dhtIpPort := expireDhtIpPort tempTime friendCon
  let w := { w with
    app := { w.app with dht := dht }.setConn i { friendCon with dhtLock := dhtLock, dhtIpPort := dhtIpPort } }
  if dhtLock = 0 then w
  else
    match friendNewConnection sodium env w i with
    | (false, w) => w
    | (true, w) =>
      { w with net := setDirect env w.net (w.app.friendConnectionCryptConnectionId i) dhtIpPort false }

/-- The part of `do_friend_connections` for a friend that is connected. -/
def serveConnected (tempTime : UInt64) (w : FriendWorld) (i : ℕ) (friendCon : FriendConn) : FriendWorld :=
  let w := if friendCon.pingLastsent + friendPingInterval < tempTime then sendPing sodium env w i else w
  let w := if friendCon.shareRelaysLastsent + shareRelaysInterval < tempTime then sendRelays sodium env w i else w
  if friendCon.pingLastrecv + friendConnectionTimeout < tempTime then goOffline sodium env w i else w

/-- What `do_friend_connections` does for one friend connection. -/
def serveFriend (tempTime : UInt64) (w : FriendWorld) (i : ℕ) : FriendWorld :=
  match w.app.getConn i with
  | none => w
  | some friendCon =>
    if friendCon.status = .connecting then serveConnecting sodium env tempTime w i friendCon
    else serveConnected sodium env tempTime w i friendCon

end CryptoConnections

/-- The loop of `do_friend_connections` over the remaining friend connections. -/
def doFriendConnectionsLoop (sodium : Sodium) (env : ℕ → FriendEnv) (tempTime : UInt64) :
    List ℕ → FriendWorld → FriendWorld
  | [], w => w
  | i :: rest, w => doFriendConnectionsLoop sodium env tempTime rest (serveFriend sodium (env i) tempTime w i)

/-- `do_friend_connections`, with what each friend connection observes. The table does not change its length. -/
def doFriendConnections (sodium : Sodium) (env : ℕ → FriendEnv) (tempTime : UInt64) (w : FriendWorld) : FriendWorld :=
  let w := doFriendConnectionsLoop sodium env tempTime (List.range w.app.conns.length) w
  { w with app := { w.app with
      lastLanDiscovery := if w.app.lastLanDiscovery + lanDiscoveryInterval < tempTime then tempTime
        else w.app.lastLanDiscovery } }

/-! ## The callbacks of `Net_Crypto` -/

section Callbacks

variable (above : LayerAbove) (sodium : Sodium) (env : FriendEnv)

/-- Run the callbacks of the layers above, as long as the friend connection is in use. -/
def runCallbacks (call : FriendWorld → ℕ → Fin maxFriendConnectionCallbacks → Bytes → FriendWorld) :
    List (Fin maxFriendConnectionCallbacks) → FriendWorld → ℕ → Bytes → FriendWorld
  | [], w, _, _ => w
  | i :: rest, w, number, data =>
    let w := call w number i data
    match w.app.getConn number with
    | none => w
    | some _ => runCallbacks call rest w number data

/-- `handle_packet`. -/
def handlePacket (w : FriendWorld) (number : ℕ) (data : Bytes) : FriendWorld :=
  match data.head?, w.app.getConn number with
  | some packetId, some friendCon =>
    if packetId = packetIdFriendRequests then above.frRequest w friendCon.realPublicKey data
    else if packetId = packetIdAlive then
      { w with app := w.app.setConn number { friendCon with pingLastrecv := env.net.unixTime } }
    else if packetId = packetIdShareRelays then
      match unpackNodes env.stackNodes (UInt16.ofNat maxSharedRelays) (data.drop 1)
        (UInt16.ofNat (data.length - 1)) true with
      | some (some (nodes, _)) => { w with app := w.app.addTcpRelays number nodes }
      | _ => w
    else runCallbacks above.dataCallback (List.finRange _) w number data
  | _, _ => w

/-- `handle_lossy_packet`. -/
def handleLossyPacket (w : FriendWorld) (number : ℕ) (data : Bytes) : FriendWorld :=
  match data.head?, w.app.getConn number with
  | some _, some _ => runCallbacks above.lossyDataCallback (List.finRange _) w number data
  | _, _ => w

/-- Run the callback that a live crypto connection has, with the number it was registered with. -/
def callRegistered (callback : CryptoConnection → Option ℕ) (w : FriendWorld) (id : ℕ) (call : ℕ → FriendWorld) :
    FriendWorld :=
  match (w.net.getCryptoConnection id).bind callback with
  | none => w
  | some number => call number

/-- The callbacks of friend connections. -/
def friendCallbacks : Callbacks FriendConnections where
  connectionStatus w id status :=
    callRegistered CryptoConnection.connectionStatusCallback w id fun number =>
      { w with app := w.app.handleStatus env number status }
  connectionData w id data :=
    callRegistered CryptoConnection.connectionDataCallback w id fun number => handlePacket above env w number data
  connectionLossyData w id data :=
    callRegistered CryptoConnection.connectionLossyDataCallback w id fun number => handleLossyPacket above w number data
  dhtPk w id dhtPublicKey :=
    callRegistered CryptoConnection.dhtPkCallback w id fun number => dhtPkCallback sodium env w number dhtPublicKey
  newConnection w nC := handleNewConnections sodium env w nC

end Callbacks

end Toxcore
