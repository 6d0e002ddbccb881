import Toxcore.BsList
import Toxcore.DHT.SharedKeys
import Toxcore.NetCrypto.PacketsArray

/-!
# The state of `Net_Crypto`

The table of crypto connections, the index from addresses to connections, and the keys. What the
source asks its surroundings during a call (the clocks, allocations, random bytes, the outcome of
sending on the socket or through a TCP relay) is an `Env`; the network and TCP layers appear only
there. The fields that hold floating point rate estimates are left out.

Connection ids are natural numbers: the source casts them to unsigned, so a negative id is one past
every table. A callback of a connection is the number it was registered with.
-/

namespace Toxcore

open ByteStrings List

/-- The `CRYPTO_CONN_*` values. -/
inductive ConnStatus where
  | noConnection
  | cookieRequesting
  | handshakeSent
  | notConfirmed
  | established
  deriving DecidableEq

/-- `MAX_CRYPTO_PACKET_SIZE`. -/
abbrev maxCryptoPacketSize : ℕ := 1400

/-- `CRYPTO_DATA_PACKET_MIN_SIZE`. -/
abbrev cryptoDataPacketMinSize : ℕ := 1 + 2 + (4 + 4) + macBytes

/-- `MAX_CRYPTO_DATA_SIZE`. -/
abbrev maxCryptoDataSize : ℕ := maxCryptoPacketSize - cryptoDataPacketMinSize

/-- `MAX_NUM_SENDPACKET_TRIES`. -/
def maxNumSendpacketTries : UInt32 := 8

/-- `CRYPTO_SEND_PACKET_INTERVAL`, in milliseconds. -/
def cryptoSendPacketInterval : UInt64 := 1000

/-- `UDP_DIRECT_TIMEOUT`, in seconds. -/
def udpDirectTimeout : UInt64 := 8

/-- `CRYPTO_MIN_QUEUE_LENGTH`. -/
def cryptoMinQueueLength : UInt32 := 64

/-- `DEFAULT_PING_CONNECTION`. -/
def defaultPingConnection : UInt64 := 1000

/-- `DEFAULT_TCP_PING_CONNECTION`. -/
def defaultTcpPingConnection : UInt64 := 500

/-- `NET_PACKET_COOKIE_REQUEST`. -/
def netPacketCookieRequest : UInt8 := 24

/-- `NET_PACKET_COOKIE_RESPONSE`. -/
def netPacketCookieResponse : UInt8 := 25

/-- `NET_PACKET_CRYPTO_HS`. -/
def netPacketCryptoHs : UInt8 := 26

/-- `NET_PACKET_CRYPTO_DATA`. -/
def netPacketCryptoData : UInt8 := 27

/-- `Crypto_Connection`. -/
structure CryptoConnection where
  publicKey : PublicKey
  recvNonce : Nonce
  sentNonce : Nonce
  sessionPublicKey : PublicKey
  sessionSecretKey : SecretKey
  peersessionPublicKey : PublicKey
  sharedKey : SharedKey
  status : ConnStatus
  cookieRequestNumber : UInt64
  dhtPublicKey : PublicKey
  tempPacket : Option Bytes
  tempPacketSentTime : UInt64
  tempPacketNumSent : UInt32
  ipPortv4 : IpPort
  ipPortv6 : IpPort
  directLastrecvTimev4 : UInt64
  directLastrecvTimev6 : UInt64
  lastTcpSent : UInt64
  sendArray : PacketsArray
  recvArray : PacketsArray
  lastRequestPacketSent : UInt64
  directSendAttemptTime : UInt64
  packetCounter : UInt32
  packetsLeft : UInt32
  packetsLeftRequested : UInt32
  packetsSent : UInt32
  packetsResent : UInt32
  rttTime : UInt64
  connectionNumberTcp : UInt32
  maximumSpeedReached : Bool
  connectionStatusCallback : Option ℕ
  connectionDataCallback : Option ℕ
  connectionLossyDataCallback : Option ℕ
  dhtPkCallback : Option ℕ

/-- A connection cleared to zero bytes. -/
def CryptoConnection.zero : CryptoConnection where
  publicKey := List.Vector.replicate 32 0
  recvNonce := List.Vector.replicate 24 0
  sentNonce := List.Vector.replicate 24 0
  sessionPublicKey := List.Vector.replicate 32 0
  sessionSecretKey := List.Vector.replicate 32 0
  peersessionPublicKey := List.Vector.replicate 32 0
  sharedKey := List.Vector.replicate 32 0
  status := .noConnection
  cookieRequestNumber := 0
  dhtPublicKey := List.Vector.replicate 32 0
  tempPacket := none
  tempPacketSentTime := 0
  tempPacketNumSent := 0
  ipPortv4 := .zero
  ipPortv6 := .zero
  directLastrecvTimev4 := 0
  directLastrecvTimev6 := 0
  lastTcpSent := 0
  sendArray := .emptyAt 0
  recvArray := .emptyAt 0
  lastRequestPacketSent := 0
  directSendAttemptTime := 0
  packetCounter := 0
  packetsLeft := 0
  packetsLeftRequested := 0
  packetsSent := 0
  packetsResent := 0
  rttTime := 0
  connectionNumberTcp := 0
  maximumSpeedReached := false
  connectionStatusCallback := none
  connectionDataCallback := none
  connectionLossyDataCallback := none
  dhtPkCallback := none

/-- The part of the `DHT` that `Net_Crypto` uses. -/
structure DhtKeys where
  selfPublicKey : PublicKey
  selfSecretKey : SecretKey
  sharedKeysSent : SharedKeys

/-- `Net_Crypto`. `sent` lists the packets handed to `send_packet_to`, each with its connection. -/
structure NetCrypto where
  dht : DhtKeys
  cryptoConnections : List CryptoConnection
  selfPublicKey : PublicKey
  selfSecretKey : SecretKey
  secretSymmetricKey : SharedKey
  ipPortList : BsList
  sent : List (ℕ × Bytes)

/-- The allocations of a call. -/
inductive Alloc where
  | table
  | mutex
  | cookie
  | tempPacket
  | packet
  | indexGrow
  | indexShrink

/-- What a call observes of its surroundings. A call sends no packet twice, so the outcomes of
sending are functions of the destination and the bytes. -/
structure Env where
  unixTime : UInt64
  monotonicTime : UInt64
  alloc : Alloc → Bool
  sendpacket : IpPort → Bytes → Bool
  sendPacketTcpConnection : UInt32 → Bytes → Bool
  newTcpConnectionTo : PublicKey → ℕ → Option UInt32
  addTcpNumberRelayConnection : UInt32 → Block 4 → Bool
  cookieNonce : Nonce
  packetNonce : Nonce
  sentNonce : Nonce
  sessionSecretKey : SecretKey
  cookieRequestNumber : UInt64

/-- Surroundings in which the clocks stand at zero and nothing fails. -/
def Env.calm : Env where
  unixTime := 0
  monotonicTime := 0
  alloc _ := true
  sendpacket _ _ := true
  sendPacketTcpConnection _ _ := true
  newTcpConnectionTo _ _ := some 0
  addTcpNumberRelayConnection _ _ := true
  cookieNonce := List.Vector.replicate 24 0
  packetNonce := List.Vector.replicate 24 0
  sentNonce := List.Vector.replicate 24 0
  sessionSecretKey := List.Vector.replicate 32 0
  cookieRequestNumber := 0

/-- Entries of a list after one was replaced. -/
theorem getElem?_set_cases {β : Type} {l : List β} {i j : ℕ} {x y : β} (h : (l.set i x)[j]? = some y) :
    (i = j ∧ y = x) ∨ (i ≠ j ∧ l[j]? = some y) := by
  by_cases hij : i = j
  · subst hij
    have hlt : i < l.length := by
      have := (List.getElem?_eq_some_iff.mp h).1
      rwa [length_set] at this
    rw [getElem?_set_self hlt] at h
    exact .inl ⟨rfl, (Option.some_inj.mp h).symm⟩
  · rw [getElem?_set_ne hij] at h
    exact .inr ⟨hij, h⟩

namespace NetCrypto

/-- `get_crypto_connection`: the connection with an id, if it is live. -/
def getCryptoConnection (c : NetCrypto) (id : ℕ) : Option CryptoConnection :=
  match c.cryptoConnections[id]? with
  | none => none
  | some conn => if conn.status = .noConnection then none else some conn

/-- Write through a pointer to a connection. -/
def setConnection (c : NetCrypto) (id : ℕ) (conn : CryptoConnection) : NetCrypto :=
  { c with cryptoConnections := c.cryptoConnections.set id conn }

/-- Write some fields of a connection in place. -/
def modifyConnection (c : NetCrypto) (id : ℕ) (f : CryptoConnection → CryptoConnection) : NetCrypto :=
  { c with cryptoConnections := c.cryptoConnections.modify id f }

variable {c : NetCrypto} {conn : CryptoConnection} {id : ℕ}

/-- A connection is written as it is. -/
theorem setConnection_self (hconn : c.cryptoConnections[id]? = some conn) : c.setConnection id conn = c := by
  obtain ⟨hlt, rfl⟩ := List.getElem?_eq_some_iff.mp hconn
  rw [setConnection, set_getElem_self hlt]

/-- Writing fields of a known connection. -/
theorem modifyConnection_eq (hconn : c.cryptoConnections[id]? = some conn) (f : CryptoConnection → CryptoConnection) :
    c.modifyConnection id f = c.setConnection id (f conn) := by
  obtain ⟨hlt, rfl⟩ := List.getElem?_eq_some_iff.mp hconn
  rw [modifyConnection, setConnection]
  congr 1
  apply ext_getElem (by simp)
  intro j hj _
  rw [getElem_modify, getElem_set]
  split <;> simp_all

/-- What holds of the state still holds after a connection was written, if there is one. -/
theorem modifyConnection_kept {P : NetCrypto → Prop} {f : CryptoConnection → CryptoConnection} (h : P c)
    (hset : ∀ conn, c.cryptoConnections[id]? = some conn → P (c.setConnection id (f conn))) :
      P (c.modifyConnection id f) := by
  cases hconn : c.cryptoConnections[id]? with
  | none => rwa [modifyConnection, modify_eq_self (List.getElem?_eq_none_iff.mp hconn)]
  | some conn =>
    rw [modifyConnection_eq hconn]
    exact hset conn hconn

/-- The connections that are found are those in use. -/
theorem getCryptoConnection_eq_some :
    c.getCryptoConnection id = some conn ↔
      c.cryptoConnections[id]? = some conn ∧ conn.status ≠ .noConnection := by
  unfold getCryptoConnection
  split
  · rename_i hnone
    simp [hnone]
  · rename_i conn' hsome
    rw [hsome, Option.some.injEq]
    split
    · rename_i hdead
      simp only [reduceCtorEq, false_iff, not_and, not_not]
      rintro rfl
      exact hdead
    · rename_i hlive
      rw [Option.some.injEq]
      exact ⟨fun h => ⟨h, h ▸ hlive⟩, And.left⟩

/-- A connection that was written is found. -/
theorem setConnection_get {old : CryptoConnection} (hold : c.cryptoConnections[id]? = some old)
    (hlive : conn.status ≠ .noConnection) : (c.setConnection id conn).getCryptoConnection id = some conn := by
  rw [getCryptoConnection_eq_some]
  refine ⟨?_, hlive⟩
  change (c.cryptoConnections.set id conn)[id]? = some conn
  rw [getElem?_set_self (List.getElem?_eq_some_iff.mp hold).1]

/-- `new_net_crypto`, with the keys it generates. -/
def new (dht : DhtKeys) (selfPublicKey : PublicKey) (selfSecretKey : SecretKey)
    (secretSymmetricKey : SharedKey) : NetCrypto :=
  ⟨dht, [], selfPublicKey, selfSecretKey, secretSymmetricKey, bsListInit 32 8, []⟩

end NetCrypto

end Toxcore
