import Toxcore.Data.Reentrant
import Toxcore.NetCrypto.Operations

/-!
# Session material is taken from one handshake

A connection that has a handshake of its peer but no data yet should hold the nonce and session key of
one and the same accepted handshake, and the shared key that goes with them. A run is traced with the
handshakes accepted so far and with the slots whose connection has received a data packet.

`handle_packet_connection` lets the parser write into the connection before it compares the DHT key, so
the property needs that no handshake for a connection names another DHT key than the connection has.
-/

namespace Toxcore

open ByteStrings List Option

/-- What a run is traced with, beside the state of the application. -/
structure Traced (β : Type) where
  accepted : List Handshake
  gotData : ℕ → Bool
  app : β

/-- The part of a connection that a session consists of. -/
structure SessionView where
  status : ConnStatus
  recvNonce : Nonce
  peersessionPublicKey : PublicKey
  sharedKey : SharedKey
  sessionSecretKey : SecretKey
  deriving DecidableEq

/-- The session of a connection. -/
def sessionOf (conn : CryptoConnection) : SessionView :=
  ⟨conn.status, conn.recvNonce, conn.peersessionPublicKey, conn.sharedKey, conn.sessionSecretKey⟩

/-- The sessions of a table. -/
def NetCrypto.sessions (c : NetCrypto) : List SessionView := c.cryptoConnections.map sessionOf

/-- The session is one that has the handshake of the peer. -/
def SessionView.HasHandshake (session : SessionView) : Prop :=
  session.status = .notConfirmed ∨ session.status = .established

/-- The material of the session is that of one of the handshakes, with the shared key computed from it. -/
def SessionView.FromOne (sodium : Sodium) (handshakes : List Handshake) (session : SessionView) : Prop :=
  (∃ handshake ∈ handshakes, session.recvNonce = handshake.nonce ∧
      session.peersessionPublicKey = handshake.sessionPk) ∧
    session.sharedKey = sodium.beforenm session.peersessionPublicKey session.sessionSecretKey

variable {β : Type}

/-- Every session with a handshake and without data has unmixed material. -/
def Traced.Unmixed (sodium : Sodium) (trace : Traced β) (sessions : List SessionView) : Prop :=
  ∀ (i : ℕ) session, sessions[i]? = some session → session.HasHandshake → trace.gotData i = false →
    session.FromOne sodium trace.accepted

/-- Every connection with a handshake and without data has unmixed session material. -/
def SessionsUnmixed (sodium : Sodium) (w : World (Traced β)) : Prop := w.app.Unmixed sodium w.net.sessions

namespace NetCrypto

/-! ## Which handshakes are accepted -/

/-- The handshake that `handle_packet_connection` parses for a connection. -/
def parsedHandshake (sodium : Sodium) (env : Env) (c : NetCrypto) (conn : CryptoConnection) (packet : Bytes) :
    Option Handshake :=
  if packet.head? = some netPacketCryptoHs ∧
      (conn.status = .cookieRequesting ∨ conn.status = .handshakeSent ∨ conn.status = .notConfirmed) then
    handleCryptoHandshake sodium env c packet (some conn.publicKey)
  else none

/-- The handshake that `handle_packet_connection` accepts: one that names the DHT key of the connection. -/
def takenHandshake (sodium : Sodium) (env : Env) (c : NetCrypto) (id : ℕ) (packet : Bytes) : Option Handshake :=
  match c.getCryptoConnection id with
  | none => none
  | some conn =>
    (c.parsedHandshake sodium env conn packet).filter fun handshake => handshake.dhtPublicKey = conn.dhtPublicKey

/-- The handshake that `handle_new_connection_handshake` accepts: one for a new connection, in place of a
connection under another DHT key, or for a connection that waits for a handshake. -/
def offeredHandshake (sodium : Sodium) (env : Env) (c : NetCrypto) (data : Bytes) : Option Handshake :=
  if env.alloc .cookie = false then none
  else
    (handleCryptoHandshake sodium env c data none).filter fun handshake =>
      match (c.getcryptconnectionId handshake.peerRealPk).bind c.getCryptoConnection with
      | none => true
      | some conn =>
        handshake.dhtPublicKey ≠ conn.dhtPublicKey ∨ conn.status = .cookieRequesting ∨ conn.status = .handshakeSent

/-- `handle_packet_connection` decrypts a data packet for the connection. -/
def decryptsData (sodium : Sodium) (c : NetCrypto) (id : ℕ) (packet : Bytes) : Bool :=
  match c.getCryptoConnection id with
  | none => false
  | some conn =>
    packet.head? = some netPacketCryptoData && (conn.status = .notConfirmed || conn.status = .established) &&
      (packet.length ≤ maxCryptoPacketSize && packet.length > cryptoDataPacketMinSize) &&
      (handleDataPacket sodium conn packet).isSome

end NetCrypto

/-! ## Traced runs -/

namespace Traced

/-- Another handshake was accepted. -/
def accept (trace : Traced β) (handshake : Option Handshake) : Traced β :=
  { trace with accepted := handshake.toList ++ trace.accepted }

/-- A connection has received a data packet, or is a new one that has not. -/
def setGotData (trace : Traced β) (id : ℕ) (got : Bool) : Traced β :=
  { trace with gotData := Function.update trace.gotData id got }

/-- The trace once the slot for a new connection to a key was chosen. -/
def startSlot (trace : Traced β) (env : Env) (c : NetCrypto) (publicKey : PublicKey) : Traced β :=
  match c.getcryptconnectionId publicKey, (c.createCryptoConnection env).1 with
  | none, some id => trace.setGotData id false
  | _, _ => trace

/-- The trace once a packet for a connection was looked at. -/
def takePacket (trace : Traced β) (sodium : Sodium) (env : Env) (c : NetCrypto) (id : ℕ) (packet : Bytes) :
    Traced β :=
  if c.decryptsData sodium id packet then trace.setGotData id true
  else trace.accept (c.takenHandshake sodium env id packet)

end Traced

/-- The trace of an operation, known from the state before it. -/
def Operation.trace (sodium : Sodium) (op : Operation β) (w : World (Traced β)) : Traced β :=
  match op with
  | .newCryptoConnection env realPublicKey _ => w.app.startSlot env w.net realPublicKey
  | .acceptCryptoConnection env nC => w.app.startSlot env w.net nC.publicKey
  | .handleNewConnectionHandshake env _ data => w.app.accept (w.net.offeredHandshake sodium env data)
  | .handlePacketConnection env id packet _ => w.app.takePacket sodium env w.net id packet
  | .udpHandlePacket env source packet =>
    if w.net.cryptoIdIpPort source = -1 then
      if packet.head? = some netPacketCryptoHs then w.app.accept (w.net.offeredHandshake sodium env packet)
      else w.app
    else w.app.takePacket sodium env w.net (w.net.cryptoIdIpPort source).toNat packet
  | _ => w.app

/-- The operation on worlds with a trace. -/
def Operation.lift : Operation β → Operation (Traced β)
  | .newCryptoConnection env realPublicKey dhtPublicKey => .newCryptoConnection env realPublicKey dhtPublicKey
  | .acceptCryptoConnection env nC => .acceptCryptoConnection env nC
  | .setDirectIpPort env id ipPort connected => .setDirectIpPort env id ipPort connected
  | .cryptoConnectionAddSource env id source => .cryptoConnectionAddSource env id source
  | .handleNewConnectionHandshake env source data => .handleNewConnectionHandshake env source data
  | .handlePacketConnection env id packet udp => .handlePacketConnection env id packet udp
  | .udpHandlePacket env source packet => .udpHandlePacket env source packet
  | .cryptoKill env id => .cryptoKill env id
  | .application f => .application fun trace => { trace with app := f trace.app }

/-- The world after a traced operation. -/
def Operation.execTraced (sodium : Sodium) (callbacks : Callbacks (Traced β)) (op : Operation β)
    (w : World (Traced β)) : World (Traced β) :=
  op.lift.exec sodium callbacks { w with app := op.trace sodium w }

/-- A handshake for a connection names the DHT key of the connection, and where it has to be answered
there is memory for the answer. -/
def NetCrypto.HandshakeFits (sodium : Sodium) (env : Env) (c : NetCrypto) (id : ℕ) (packet : Bytes) : Prop :=
  ∀ conn handshake, c.getCryptoConnection id = some conn →
    c.parsedHandshake sodium env conn packet = some handshake →
      handshake.dhtPublicKey = conn.dhtPublicKey ∧
        (conn.status = .cookieRequesting → env.alloc .tempPacket = true)

/-- Where a handshake at `handle_new_connection_handshake` is for a connection that waits for one, there is
memory for the answer. -/
def NetCrypto.AnswerFits (sodium : Sodium) (env : Env) (c : NetCrypto) (data : Bytes) : Prop :=
  ∀ handshake id conn, c.offeredHandshake sodium env data = some handshake →
    c.getcryptconnectionId handshake.peerRealPk = some id → c.getCryptoConnection id = some conn →
      handshake.dhtPublicKey = conn.dhtPublicKey → env.alloc .tempPacket = true

/-- A handshake at `handle_new_connection_handshake` that is neither for a new connection nor in place of one
under another DHT key. -/
def NetCrypto.KeepsConnection (sodium : Sodium) (env : Env) (c : NetCrypto) (data : Bytes) : Prop :=
  ∀ handshake, c.offeredHandshake sodium env data = some handshake →
    ∃ id conn, c.getcryptconnectionId handshake.peerRealPk = some id ∧ c.getCryptoConnection id = some conn ∧
      handshake.dhtPublicKey = conn.dhtPublicKey

/-- The condition on a step. Connections are accepted from handshakes that were offered. -/
def Operation.Fits (sodium : Sodium) (op : Operation β) (w : World (Traced β)) : Prop :=
  match op with
  | .acceptCryptoConnection _ nC => ∃ handshake ∈ w.app.accepted,
      nC.recvNonce = handshake.nonce ∧ nC.peersessionPublicKey = handshake.sessionPk
  | .handleNewConnectionHandshake env _ data => w.net.AnswerFits sodium env data
  | .handlePacketConnection env id packet _ => w.net.HandshakeFits sodium env id packet
  | .udpHandlePacket env source packet =>
    if w.net.cryptoIdIpPort source = -1 then w.net.AnswerFits sodium env packet
    else w.net.HandshakeFits sodium env (w.net.cryptoIdIpPort source).toNat packet
  | _ => True

/-- The worlds reached by traced operations that fit, each with its callbacks. -/
abbrev SessionReaches (sodium : Sodium) : World (Traced β) → World (Traced β) → Prop :=
  Reentrant.Reaches (fun callbacks op w => Operation.execTraced sodium callbacks op w) Callbacks.Calls
    fun op w => op.Fits sodium w

/-! ## The invariant on lists of sessions -/

section Unmixed

variable {sodium : Sodium} {trace : Traced β} {sessions : List SessionView}

section

variable (h : trace.Unmixed sodium sessions)
include h

/-- Sessions that lost their handshake, or are gone, do not matter. -/
theorem Traced.Unmixed.mono {sessions' : List SessionView}
    (hsub : ∀ (i : ℕ) session, sessions'[i]? = some session → session.HasHandshake → sessions[i]? = some session) :
    trace.Unmixed sodium sessions' :=
  fun i session hsession hhas hgot => h i session (hsub i session hsession hhas) hhas hgot

/-- A session is written whose handshake, if it waits for data, was accepted. -/
theorem Traced.Unmixed.set {id : ℕ} {session : SessionView}
    (hsession : session.HasHandshake → trace.gotData id = false → session.FromOne sodium trace.accepted) :
    trace.Unmixed sodium (sessions.set id session) := by
  intro i session' hget hhas hgot
  rcases getElem?_set_cases hget with ⟨rfl, rfl⟩ | ⟨-, hold⟩
  · exact hsession hhas hgot
  · exact h i session' hold hhas hgot

/-- A session without a handshake is appended. -/
theorem Traced.Unmixed.append {session : SessionView} (hsession : ¬ session.HasHandshake) :
    trace.Unmixed sodium (sessions ++ [session]) := by
  apply h.mono
  intro i session' hget hhas
  rw [getElem?_append] at hget
  split at hget
  · exact hget
  · obtain rfl : session' = session := mem_singleton.mp (mem_of_getElem? hget)
    exact absurd hhas hsession

/-- Accepting more handshakes keeps the sessions unmixed. -/
theorem Traced.Unmixed.accept (handshake : Option Handshake) : (trace.accept handshake).Unmixed sodium sessions := by
  intro i session hsession hhas hgot
  obtain ⟨⟨taken, htaken, hmaterial⟩, hshared⟩ := h i session hsession hhas hgot
  exact ⟨⟨taken, mem_append_right _ htaken, hmaterial⟩, hshared⟩

/-- It is noted that data has come, or that a connection begins without. -/
theorem Traced.Unmixed.setGotData {id : ℕ} {got : Bool}
    (hid : got = false → ∀ session, sessions[id]? = some session → ¬ session.HasHandshake) :
    (trace.setGotData id got).Unmixed sodium sessions := by
  intro i session hsession hhas hgot
  by_cases hi : i = id
  · subst hi
    have hgot : got = false := by simpa [Traced.setGotData] using hgot
    exact absurd hhas (hid hgot session hsession)
  · have hgot : trace.gotData i = false := by simpa [Traced.setGotData, Function.update_of_ne hi] using hgot
    exact h i session hsession hhas hgot

end

end Unmixed

namespace NetCrypto

/-! ## Sessions of a table -/

variable {conn : CryptoConnection} {id : ℕ} {c' : NetCrypto} {env : Env} {packet : Bytes}

/-- The session of a connection. -/
theorem sessions_get {c : NetCrypto} (hconn : c.cryptoConnections[id]? = some conn) :
    c.sessions[id]? = some (sessionOf conn) := by
  rw [sessions, getElem?_map, hconn, map_some]

/-- A connection is written. -/
theorem sessions_setConnection (c : NetCrypto) (id : ℕ) (conn : CryptoConnection) :
    (c.setConnection id conn).sessions = c.sessions.set id (sessionOf conn) :=
  map_set

/-- A connection written back with its session. -/
theorem sessions_setConnection_same {c : NetCrypto} {conn' : CryptoConnection}
    (hconn : c.cryptoConnections[id]? = some conn) (hsame : sessionOf conn' = sessionOf conn) :
    (c.setConnection id conn').sessions = c.sessions := by
  rw [sessions_setConnection, hsame, ← sessions_setConnection, setConnection_self hconn]

/-- A connection is changed. -/
theorem sessions_modifyConnection {c : NetCrypto} (hconn : c.cryptoConnections[id]? = some conn)
    (f : CryptoConnection → CryptoConnection) :
    (c.modifyConnection id f).sessions = c.sessions.set id (sessionOf (f conn)) := by
  rw [modifyConnection_eq hconn, sessions_setConnection]

variable {f : CryptoConnection → CryptoConnection} {old : CryptoConnection}

/-- A change that its session does not show. -/
theorem sessions_modifyConnection_same (c : NetCrypto) (id : ℕ) (hf : ∀ conn, sessionOf (f conn) = sessionOf conn) :
    (c.modifyConnection id f).sessions = c.sessions :=
  modifyConnection_kept (P := fun c' => c'.sessions = c.sessions) rfl fun conn hconn =>
    sessions_setConnection_same hconn (hf conn)

/-- Sending writes no session. -/
theorem SendsOnly.sessions {c : NetCrypto} (h : SendsOnly c c') : c'.sessions = c.sessions := by
  have hquiet : (sessionOf ∘ quiet) = sessionOf := rfl
  rw [NetCrypto.sessions, NetCrypto.sessions, ← hquiet, ← List.map_map, h.connections, List.map_map]

/-- An address changes no session. -/
theorem sessions_addIpPortConnection (env : Env) (c : NetCrypto) (id : ℕ) (ipPort : IpPort) :
    (addIpPortConnection env c id ipPort).2.sessions = c.sessions := by
  unfold addIpPortConnection
  split
  · rfl
  · rename_i conn hconn
    have hset (list : BsList) (conn' : CryptoConnection) (hsame : sessionOf conn' = sessionOf conn) :
        NetCrypto.sessions ({ c with ipPortList := list }.setConnection id conn') = c.sessions :=
      sessions_setConnection_same (c := { c with ipPortList := list }) (getCryptoConnection_eq_some.mp hconn).1 hsame
    split
    · split
      · split
        · rfl
        · exact hset _ _ rfl
      · rfl
    · split
      · split
        · split
          · rfl
          · exact hset _ _ rfl
        · rfl
      · rfl

/-- The time of a direct packet is not part of the session. -/
theorem sessionOf_setDirectLastrecvTime (time : UInt64) (ipPort : IpPort) (conn : CryptoConnection) :
    sessionOf (setDirectLastrecvTime time ipPort conn) = sessionOf conn := by
  unfold setDirectLastrecvTime
  split <;> rfl

/-- The source of a packet changes no session. -/
theorem sessions_cryptoConnectionAddSource (env : Env) (c : NetCrypto) (id : ℕ) (source : IpPort) :
    (cryptoConnectionAddSource env c id source).2.sessions = c.sessions := by
  unfold cryptoConnectionAddSource
  split
  · rfl
  · have hadd := sessions_addIpPortConnection env c id source
    split
    · dsimp only
      split
      · exact (sessions_modifyConnection_same _ id (sessionOf_setDirectLastrecvTime _ _)).trans hadd
      · exact hadd
    · split <;> rfl

/-- A direct address changes no session. -/
theorem sessions_setDirectIpPort (env : Env) (c : NetCrypto) (id : ℕ) (ipPort : IpPort) (connected : Bool) :
    (setDirectIpPort env c id ipPort connected).2.sessions = c.sessions := by
  unfold setDirectIpPort
  split
  · rfl
  · have hadd := sessions_addIpPortConnection env c id ipPort
    dsimp only
    split
    · exact (sessions_modifyConnection_same _ id (sessionOf_setDirectLastrecvTime _ _)).trans hadd
    · exact hadd

/-! ## Operations -/

variable {sodium : Sodium} {trace : Traced β} {c : NetCrypto}

section

variable (h : trace.Unmixed sodium c.sessions)
include h

/-- A connection is written whose handshake, if it waits for data, was accepted. -/
theorem unmixed_setConnection (id : ℕ) (hconn : (sessionOf conn).HasHandshake → trace.gotData id = false →
      (sessionOf conn).FromOne sodium trace.accepted) : trace.Unmixed sodium (c.setConnection id conn).sessions := by
  rw [sessions_setConnection]
  exact h.set hconn

/-- A connection is changed in that way. -/
theorem unmixed_modifyConnection (id : ℕ)
    (hf : ∀ conn, c.cryptoConnections[id]? = some conn → (sessionOf (f conn)).HasHandshake →
      trace.gotData id = false → (sessionOf (f conn)).FromOne sodium trace.accepted) :
    trace.Unmixed sodium (c.modifyConnection id f).sessions :=
  modifyConnection_kept (P := fun c' => trace.Unmixed sodium c'.sessions) h fun conn hconn =>
    unmixed_setConnection h id (hf conn hconn)

/-- A connection that is given up, or has no handshake yet. -/
theorem unmixed_setStatus (id : ℕ) {status : ConnStatus} (hstatus : status ≠ .notConfirmed ∧ status ≠ .established) :
    trace.Unmixed sodium (c.modifyConnection id fun conn => { conn with status := status }).sessions :=
  unmixed_modifyConnection h id fun _ _ hhas => absurd hhas (not_or.mpr hstatus)

/-- A slot is found for a new connection. -/
theorem unmixed_createCryptoConnection {result : Option ℕ} (hcreate : createCryptoConnection env c = (result, c')) :
    trace.Unmixed sodium c'.sessions := by
  rcases (createCryptoConnection_spec hcreate).1 with rfl | rfl
  · exact h
  · have hsessions : NetCrypto.sessions { c with cryptoConnections := c.cryptoConnections ++ [.zero] } =
        c.sessions ++ [sessionOf .zero] := map_append
    rw [hsessions]
    exact h.append (not_or.mpr ⟨nofun, nofun⟩)

/-- The slot of a new connection has received nothing. -/
theorem unmixed_startSlot (env : Env) (publicKey : PublicKey) :
    (trace.startSlot env c publicKey).Unmixed sodium c.sessions := by
  unfold Traced.startSlot
  split
  · rename_i id _ hcreate
    apply h.setGotData
    intro _ session hsession
    obtain ⟨conn, hconn, rfl⟩ := map_eq_some_iff.mp (getElem?_map ▸ hsession)
    have hpair : createCryptoConnection env c = (some id, (createCryptoConnection env c).2) := Prod.ext hcreate rfl
    have hspec := createCryptoConnection_spec hpair
    obtain ⟨conn', hconn', hfree⟩ := hspec.2 id rfl
    have hsame : conn' = conn := by
      rcases hspec.1 with heq | heq
      · rw [heq, hconn] at hconn'
        exact (some_inj.mp hconn').symm
      · have hlt := (List.getElem?_eq_some_iff.mp hconn).1
        rw [heq] at hconn'
        rw [getElem?_append_left hlt, hconn] at hconn'
        exact (some_inj.mp hconn').symm
    rw [hsame] at hfree
    exact not_or.mpr ⟨by rw [sessionOf, hfree]; nofun, by rw [sessionOf, hfree]; nofun⟩
  · exact h

/-- The slot of a new connection is filled for a handshake that was accepted or for none, or given up again. -/
theorem unmixed_fills {result : Option ℕ} {fill : CryptoConnection → CryptoConnection}
    (hfills : Fills env c fill result c')
    (hfill : ∀ conn, (sessionOf (fill conn)).HasHandshake → (sessionOf (fill conn)).FromOne sodium trace.accepted) :
    trace.Unmixed sodium c'.sessions := by
  have hslot {id : ℕ} {c₁ c₃ : NetCrypto} (dht : DhtKeys) (hcreate : createCryptoConnection env c = (some id, c₁))
      (hsends : SendsOnly ({ c₁ with dht := dht }.modifyConnection id fill) c₃) : trace.Unmixed sodium c₃.sessions := by
    have h₁ : trace.Unmixed sodium c₁.sessions := unmixed_createCryptoConnection h hcreate
    rw [hsends.sessions]
    exact unmixed_modifyConnection (c := { c₁ with dht := dht }) h₁ id fun conn _ hhas _ => hfill conn hhas
  cases hfills with
  | unfilled hcreate => exact unmixed_createCryptoConnection h hcreate
  | givenUp dht hcreate hsends => exact unmixed_setStatus (hslot dht hcreate hsends) _ ⟨nofun, nofun⟩
  | filled dht hcreate hsends => exact hslot dht hcreate hsends

/-- A connection is made from a handshake that was accepted. -/
theorem unmixed_acceptCryptoConnection (env : Env) {nC : NewConnection}
    (hfrom : ∃ handshake ∈ trace.accepted, nC.recvNonce = handshake.nonce ∧
      nC.peersessionPublicKey = handshake.sessionPk) :
    trace.Unmixed sodium (acceptCryptoConnection sodium env c nC).2.sessions := by
  rcases haccept : acceptCryptoConnection sodium env c nC with ⟨result, c'⟩
  obtain ⟨-, rfl⟩ | ⟨-, number, c₃, hfills, hafter⟩ := acceptCryptoConnection_cases haccept
  · exact h
  · have h₃ := unmixed_fills h hfills fun _ _ => ⟨hfrom, rfl⟩
    obtain ⟨-, rfl⟩ | ⟨id, -, rfl⟩ := hafter
    · exact h₃
    · rw [sessions_cryptoConnectionAddSource]
      refine (congrArg (trace.Unmixed sodium) (sessions_modifyConnection_same c₃ id ?_)).mpr h₃
      intro conn
      rfl

/-- A new connection has no handshake. -/
theorem unmixed_newCryptoConnection (env : Env) (realPublicKey dhtPublicKey : PublicKey) :
    trace.Unmixed sodium (newCryptoConnection sodium env c realPublicKey dhtPublicKey).2.sessions := by
  rcases hnew : newCryptoConnection sodium env c realPublicKey dhtPublicKey with ⟨result, c'⟩
  obtain ⟨-, -, rfl⟩ | ⟨-, number, sharedKey, hfills⟩ := newCryptoConnection_cases hnew
  · exact h
  · exact unmixed_fills h hfills fun _ hhas => absurd hhas (not_or.mpr ⟨nofun, nofun⟩)

/-- A wiped connection has no handshake. -/
theorem unmixed_wipeCryptoConnection (id : ℕ) : trace.Unmixed sodium (wipeCryptoConnection c id).sessions := by
  have hzero : trace.Unmixed sodium (c.setConnection id .zero).sessions :=
    unmixed_setConnection h id fun hhas => absurd hhas (not_or.mpr ⟨nofun, nofun⟩)
  apply hzero.mono
  intro i session hsession _
  have hprefix : (wipeCryptoConnection c id).sessions <+: (c.setConnection id .zero).sessions :=
    (List.rdropWhile_prefix _ _).map sessionOf
  obtain ⟨hlt, rfl⟩ := List.getElem?_eq_some_iff.mp hsession
  exact prefix_iff_getElem?.mp hprefix i hlt

/-- A connection is killed from above. -/
theorem unmixed_cryptoKill (env : Env) (id : ℕ) : trace.Unmixed sodium (cryptoKill sodium env c id).2.sessions := by
  unfold cryptoKill
  split
  · exact h
  · rename_i conn _
    have hsend := killNotice_sendsOnly sodium env c id conn
    dsimp only
    rw [← hsend.sessions] at h
    exact unmixed_wipeCryptoConnection h id

end

/-- The session of a connection that was written and then moved to another status. -/
theorem sessions_setStatus (hold : c.cryptoConnections[id]? = some old)
    (hsame : c'.sessions = (c.setConnection id conn).sessions) (status : ConnStatus) :
    (c'.modifyConnection id fun conn => { conn with status := status }).sessions[id]? =
      some { sessionOf conn with status := status } := by
  have hlt := (List.getElem?_eq_some_iff.mp (sessions_get hold)).1
  have hsession : c'.sessions[id]? = some (sessionOf conn) := by
    rw [hsame, sessions_setConnection, getElem?_set_self hlt]
  obtain ⟨conn', hconn', heq⟩ := map_eq_some_iff.mp (getElem?_map ▸ hsession)
  rw [sessions_modifyConnection hconn', ← heq, getElem?_set_self]
  · rfl
  · rwa [hsame, sessions_setConnection, length_set]

/-- A connection that took the material of an accepted handshake moves on. -/
theorem unmixed_taken (h : trace.Unmixed sodium c'.sessions) (hold : c.cryptoConnections[id]? = some old)
    (hsame : c'.sessions = (c.setConnection id conn).sessions)
    (hfrom : (sessionOf conn).FromOne sodium trace.accepted) (status : ConnStatus) :
    trace.Unmixed sodium (c'.modifyConnection id fun conn => { conn with status := status }).sessions := by
  apply unmixed_modifyConnection h
  intro conn' hconn' _ _
  have hget := sessions_setStatus hold hsame status
  rw [sessions_modifyConnection hconn', getElem?_set_self] at hget
  · rw [some_inj.mp hget]
    exact hfrom
  · exact (List.getElem?_eq_some_iff.mp (sessions_get hconn')).1

/-! ## Packets -/

variable {callbacks : Callbacks (Traced β)} {w : World (Traced β)}

/-- A connection is killed, and the layer above is told. -/
theorem unmixed_connectionKill (hcalls : ∀ u v, callbacks.Calls u v → SessionsUnmixed sodium u →
    SessionsUnmixed sodium v) (h : SessionsUnmixed sodium w) (env : Env) (id : ℕ) :
    SessionsUnmixed sodium (connectionKill sodium callbacks env w id) := by
  unfold connectionKill
  split
  · exact h
  · exact unmixed_cryptoKill (hcalls _ _ (.connectionStatus w id false) h) env id

/-- A handshake of a peer without a connection is offered to the layer above. -/
theorem unmixed_handleNewConnectionHandshake
    (hcalls : ∀ u v, callbacks.Calls u v → SessionsUnmixed sodium u → SessionsUnmixed sodium v)
    (h : SessionsUnmixed sodium w) {data : Bytes}
    (haccepted : ∀ handshake, w.net.offeredHandshake sodium env data = some handshake → handshake ∈ w.app.accepted)
    (source : IpPort) :
    SessionsUnmixed sodium (handleNewConnectionHandshake sodium callbacks env w source data).2 := by
  unfold handleNewConnectionHandshake
  split
  · exact h
  · rename_i halloc
    split
    · exact h
    · rename_i handshake hparsed
      dsimp only
      split
      · exact hcalls _ _ (.newConnection w _) h
      · rename_i id hid
        split
        · exact h
        · rename_i conn hconn
          split
          · exact hcalls _ _ (.newConnection _ _) (unmixed_connectionKill hcalls h env id)
          · split
            · rename_i hwaits
              have hmem : handshake ∈ w.app.accepted := by
                apply haccepted
                rw [offeredHandshake, if_neg halloc, hparsed, filter_some, if_pos]
                rw [hid, bind_some, hconn]
                exact decide_eq_true (.inr hwaits)
              have hget := (getCryptoConnection_eq_some.mp hconn).1
              set conn₁ : CryptoConnection := { conn with
                recvNonce := handshake.nonce
                peersessionPublicKey := handshake.sessionPk
                sharedKey := sodium.beforenm handshake.sessionPk conn.sessionSecretKey }
              have hfrom : (sessionOf conn₁).FromOne sodium w.app.accepted := ⟨⟨handshake, hmem, rfl, rfl⟩, rfl⟩
              have h₁ : w.app.Unmixed sodium (w.net.setConnection id conn₁).sessions :=
                unmixed_setConnection h id fun _ _ => hfrom
              split
              · rename_i c₃ hsend
                change w.app.Unmixed sodium c₃.sessions
                rwa [(createSendHandshake_sent hsend).sessions, sessions_cryptoConnectionAddSource]
              · rename_i c₃ hsend
                have hsame : c₃.sessions = (w.net.setConnection id conn₁).sessions := by
                  rw [(createSendHandshake_sent hsend).sessions, sessions_cryptoConnectionAddSource]
                exact unmixed_taken (hsame ▸ h₁) hget hsame hfrom _
            · exact h

/-- Only the session is looked at, not the data of a connection. -/
theorem unmixed_ignoresData : IgnoresData fun w : World (Traced β) => SessionsUnmixed sodium w := by
  intro w id conn conn' hconn hquiet h
  have hsession : sessionOf (dataQuiet conn') = sessionOf (dataQuiet conn) := congrArg sessionOf hquiet
  have hsame : (w.net.setConnection id conn').sessions = w.net.sessions := sessions_setConnection_same hconn hsession
  exact (congrArg (w.app.Unmixed sodium) hsame).mpr h

/-- What handling a data packet writes does not matter once the connection has received data. -/
theorem unmixed_handleAcknowledged
    (hcalls : ∀ u v, callbacks.Calls u v → SessionsUnmixed sodium u → SessionsUnmixed sodium v)
    (h : SessionsUnmixed sodium w) (env : Env) (hgot : w.app.gotData id = true) (conn : CryptoConnection)
    (num : UInt32) (realData : Bytes) (rttCalcTime : UInt64) (udp : Bool) :
    SessionsUnmixed sodium (handleAcknowledged sodium callbacks env w id conn num realData rttCalcTime udp).2 := by
  unfold handleAcknowledged
  split
  · exact h
  · split
    · exact unmixed_connectionKill hcalls h env id
    · apply unmixed_ignoresData.handleRealData (fun w id data => hcalls _ _ (.connectionData w id data))
        fun w id data => hcalls _ _ (.connectionLossyData w id data)
      unfold confirmConnection
      split
      · apply hcalls _ _ (.connectionStatus _ id true)
        exact unmixed_setConnection h id fun _ hnot => absurd (hgot.symm.trans hnot) nofun
      · exact h

/-- A data packet is handled. -/
theorem unmixed_handleDataPacketHelper
    (hcalls : ∀ u v, callbacks.Calls u v → SessionsUnmixed sodium u → SessionsUnmixed sodium v)
    (h : SessionsUnmixed sodium w) (env : Env) (hgot : w.app.gotData id = true) (packet : Bytes) (udp : Bool) :
    SessionsUnmixed sodium (handleDataPacketHelper sodium callbacks env w id packet udp).2 := by
  have hwrite {w : World (Traced β)} (h : SessionsUnmixed sodium w) (hgot : w.app.gotData id = true)
      (conn : CryptoConnection) : SessionsUnmixed sodium (w.write id conn) :=
    unmixed_setConnection h id fun _ hnot => absurd (hgot.symm.trans hnot) nofun
  unfold handleDataPacketHelper
  split
  · exact h
  · split
    · exact h
    · split
      · exact h
      · rename_i data conn₁ _
        unfold handlePlain
        split
        · exact hwrite h hgot conn₁
        · split
          · exact hwrite h hgot conn₁
          · rename_i rttCalcTime conn₂ _
            exact unmixed_handleAcknowledged hcalls (hwrite (hwrite h hgot conn₁) hgot conn₂) env hgot conn₂ _ _ _ _

/-- A data packet that is not decrypted changes nothing. -/
theorem handleDataPacketHelper_rejected {α : Type} {callbacks : Callbacks α} {w : World α} {udp : Bool}
    (hconn : w.net.getCryptoConnection id = some conn) (hhead : packet.head? = some netPacketCryptoData)
    (hstatus : conn.status = .notConfirmed ∨ conn.status = .established)
    (hrejected : w.net.decryptsData sodium id packet = false) :
    (handleDataPacketHelper sodium callbacks env w id packet udp).2 = w := by
  unfold handleDataPacketHelper
  split
  · rfl
  · rename_i hlength
    simp only [hconn]
    cases hdata : handleDataPacket sodium conn packet with
    | none => rfl
    | some data =>
      have htaken : w.net.decryptsData sodium id packet = true := by
        simp only [decryptsData, hconn, hhead, hdata, isSome_some, Bool.and_true, decide_true, Bool.true_and,
          Bool.and_eq_true, Bool.or_eq_true, decide_eq_true_eq]
        exact ⟨hstatus, by omega, by omega⟩
      rw [htaken] at hrejected
      contradiction

/-- A handshake for a connection that fits is taken, or rejected with nothing changed. -/
theorem handleHandshakePacket_cases {α : Type} (callbacks : Callbacks α) {w : World α}
    (hconn : w.net.getCryptoConnection id = some conn) (hhead : packet.head? = some netPacketCryptoHs)
    (hfits : w.net.HandshakeFits sodium env id packet) :
    handleHandshakePacket sodium callbacks env w id conn packet = (false, w) ∨
      ∃ handshake, w.net.takenHandshake sodium env id packet = some handshake ∧
        (conn.status = .cookieRequesting → env.alloc .tempPacket = true) ∧
        handleHandshakePacket sodium callbacks env w id conn packet =
          answerHandshake sodium env (w.write id (precomputeSharedKey sodium (takeHandshake handshake conn))) id conn
            handshake := by
  unfold handleHandshakePacket
  split
  · rename_i hwaits
    split
    · exact .inl rfl
    · rename_i handshake hparse
      have hparsed : w.net.parsedHandshake sodium env conn packet = some handshake := by
        rw [parsedHandshake, if_pos ⟨hhead, hwaits⟩, hparse]
      obtain ⟨hkey, halloc⟩ := hfits conn handshake hconn hparsed
      refine .inr ⟨handshake, ?_, halloc, if_pos hkey⟩
      simp only [takenHandshake, hconn, hparsed, filter_some, hkey, decide_true, if_true]
  · exact .inl rfl

/-- A handshake that was accepted is answered. -/
theorem unmixed_answerHandshake {handshake : Handshake} (h : SessionsUnmixed sodium w)
    (hconn : w.net.getCryptoConnection id = some conn) (hmem : handshake ∈ w.app.accepted) :
    SessionsUnmixed sodium (answerHandshake sodium env
      (w.write id (precomputeSharedKey sodium (takeHandshake handshake conn))) id conn handshake).2 := by
  set conn₁ := precomputeSharedKey sodium (takeHandshake handshake conn)
  have hget := (getCryptoConnection_eq_some.mp hconn).1
  have hfrom : (sessionOf conn₁).FromOne sodium w.app.accepted := ⟨⟨handshake, hmem, rfl, rfl⟩, rfl⟩
  have h₁ : w.app.Unmixed sodium (w.net.setConnection id conn₁).sessions :=
    unmixed_setConnection h id fun _ _ => hfrom
  unfold answerHandshake
  split
  · split
    · rename_i c hsend
      have hsame : c.sessions = (w.net.setConnection id conn₁).sessions := (createSendHandshake_sent hsend).sessions
      exact (congrArg (w.app.Unmixed sodium) hsame).mpr h₁
    · rename_i c hsend
      have hsame : c.sessions = (w.net.setConnection id conn₁).sessions := (createSendHandshake_sent hsend).sessions
      exact unmixed_taken (hsame ▸ h₁) hget hsame hfrom _
  · exact unmixed_taken h₁ hget rfl hfrom _

/-- A packet of a connection is handled. -/
theorem unmixed_handlePacketConnection
    (hcalls : ∀ u v, callbacks.Calls u v → SessionsUnmixed sodium u → SessionsUnmixed sodium v)
    (h : SessionsUnmixed sodium w) (hfits : w.net.HandshakeFits sodium env id packet)
    (haccepted : ∀ handshake, w.net.takenHandshake sodium env id packet = some handshake → handshake ∈ w.app.accepted)
    (hgot : w.net.decryptsData sodium id packet = true → w.app.gotData id = true) (udp : Bool) :
    SessionsUnmixed sodium (handlePacketConnection sodium callbacks env w id packet udp).2 := by
  unfold handlePacketConnection
  split
  · exact h
  · split
    · exact h
    · rename_i conn hconn
      split
      · unfold handleCookieResponsePacket
        split
        · exact h
        · split
          · exact h
          · split
            · exact h
            · split
              · rename_i c hsend
                exact (congrArg (w.app.Unmixed sodium) (createSendHandshake_sent hsend).sessions).mpr h
              · rename_i c hsend
                have h₁ : w.app.Unmixed sodium c.sessions :=
                  (congrArg (w.app.Unmixed sodium) (createSendHandshake_sent hsend).sessions).mpr h
                exact unmixed_setStatus h₁ id ⟨nofun, nofun⟩
      · split
        · rename_i hhead
          rcases handleHandshakePacket_cases callbacks hconn hhead hfits with heq | ⟨handshake, htaken, -, heq⟩
          · rwa [heq]
          · rw [heq]
            exact unmixed_answerHandshake h hconn (haccepted handshake htaken)
        · split
          · rename_i hhead
            split
            · rename_i hstatus
              cases hdecrypts : w.net.decryptsData sodium id packet with
              | true => exact unmixed_handleDataPacketHelper hcalls h env (hgot hdecrypts) packet udp
              | false => rwa [handleDataPacketHelper_rejected hconn hhead hstatus hdecrypts]
            · exact h
          · exact h

/-- The trace notes the packet. -/
theorem unmixed_takePacket (h : trace.Unmixed sodium c.sessions) (env : Env) (id : ℕ) (packet : Bytes) :
    (trace.takePacket sodium env c id packet).Unmixed sodium c.sessions := by
  unfold Traced.takePacket
  split
  · exact h.setGotData nofun
  · exact h.accept _

section

variable (hcalls : ∀ u v, callbacks.Calls u v → SessionsUnmixed sodium u → SessionsUnmixed sodium v)
include hcalls

/-- Handling a packet for a connection, with the trace of it. -/
theorem unmixed_tracedPacket (h : SessionsUnmixed sodium w) (hfits : w.net.HandshakeFits sodium env id packet)
    (udp : Bool) :
    SessionsUnmixed sodium (handlePacketConnection sodium callbacks env
      { w with app := w.app.takePacket sodium env w.net id packet } id packet udp).2 := by
  apply unmixed_handlePacketConnection hcalls
  · exact unmixed_takePacket h env id packet
  · exact hfits
  · intro handshake htaken
    have hnot : w.net.decryptsData sodium id packet = false := by
      cases hconn : w.net.getCryptoConnection id with
      | none => rw [decryptsData, hconn]
      | some conn =>
        rw [takenHandshake, hconn] at htaken
        obtain ⟨hparsed, -⟩ := filter_eq_some_iff.mp htaken
        rw [parsedHandshake] at hparsed
        split at hparsed
        · rename_i hhead
          simp [decryptsData, hconn, hhead.1, netPacketCryptoHs, netPacketCryptoData]
        · contradiction
    change handshake ∈ (w.app.takePacket sodium env w.net id packet).accepted
    rw [Traced.takePacket, hnot, if_neg nofun, show w.net.takenHandshake sodium env id packet = _ from htaken]
    exact mem_cons_self
  · intro hdecrypts
    change (w.app.takePacket sodium env w.net id packet).gotData id = true
    rw [Traced.takePacket, if_pos hdecrypts]
    simp [Traced.setGotData]

/-- A traced offer of a handshake. -/
theorem unmixed_tracedOffer (h : SessionsUnmixed sodium w) (env : Env) (source : IpPort) (data : Bytes) :
    SessionsUnmixed sodium (handleNewConnectionHandshake sodium callbacks env
      { w with app := w.app.accept (w.net.offeredHandshake sodium env data) } source data).2 := by
  apply unmixed_handleNewConnectionHandshake hcalls
  · exact Traced.Unmixed.accept h _
  · intro handshake hoffered
    change handshake ∈ (w.app.accept (w.net.offeredHandshake sodium env data)).accepted
    rw [show w.net.offeredHandshake sodium env data = _ from hoffered]
    exact mem_cons_self

/-- A traced packet over UDP. -/
theorem unmixed_tracedUdp (h : SessionsUnmixed sodium w) {source : IpPort}
    (hfits : Operation.Fits sodium (.udpHandlePacket env source packet) w) :
    SessionsUnmixed sodium ((Operation.udpHandlePacket env source packet).execTraced sodium callbacks w) := by
  change SessionsUnmixed sodium (udpHandlePacket sodium callbacks env
    { w with app := Operation.trace sodium (.udpHandlePacket env source packet) w } source packet).2
  by_cases hroute : cryptoIdIpPort w.net source = -1
  · simp only [Operation.trace, udpHandlePacket, if_pos hroute]
    by_cases hhead : packet.head? = some netPacketCryptoHs
    · simp only [hhead, if_true, ne_eq, not_true_eq_false, if_false]
      split
      · exact Traced.Unmixed.accept h _
      · exact unmixed_tracedOffer hcalls h env source packet
    · simp only [hhead, if_false, ne_eq, not_false_eq_true, if_true, ite_self]
      exact h
  · simp only [Operation.trace, udpHandlePacket, if_neg hroute]
    rw [Operation.Fits, if_neg hroute] at hfits
    split
    · exact unmixed_takePacket h env _ packet
    · have hhandle := unmixed_tracedPacket hcalls h hfits true
      unfold handleRoutedPacket
      split
      · rename_i w' heq
        rwa [heq] at hhandle
      · rename_i w' heq
        rw [heq] at hhandle
        split
        · exact hhandle
        · have hsame := sessions_modifyConnection_same w'.net (cryptoIdIpPort w.net source).toNat
            (sessionOf_setDirectLastrecvTime env.unixTime source)
          exact (congrArg (w'.app.Unmixed sodium) hsame).mpr hhandle

end

end NetCrypto

/-- Every operation that fits keeps sessions unmixed. -/
theorem Operation.execTraced_unmixed {sodium : Sodium} {callbacks : Callbacks (Traced β)}
    (hcalls : ∀ u v, callbacks.Calls u v → SessionsUnmixed sodium u → SessionsUnmixed sodium v)
    (op : Operation β) {w : World (Traced β)} (hfits : op.Fits sodium w) (h : SessionsUnmixed sodium w) :
    SessionsUnmixed sodium (op.execTraced sodium callbacks w) := by
  cases op with
  | newCryptoConnection env realPublicKey dhtPublicKey =>
    exact NetCrypto.unmixed_newCryptoConnection (NetCrypto.unmixed_startSlot h env realPublicKey) env _ _
  | acceptCryptoConnection env nC =>
    have hstart := NetCrypto.unmixed_startSlot h env nC.publicKey
    refine NetCrypto.unmixed_acceptCryptoConnection hstart env ?_
    have haccepted : (w.app.startSlot env w.net nC.publicKey).accepted = w.app.accepted := by
      unfold Traced.startSlot
      split <;> rfl
    rw [haccepted]
    exact hfits
  | setDirectIpPort env id ipPort connected =>
    exact (congrArg (w.app.Unmixed sodium) (NetCrypto.sessions_setDirectIpPort env w.net id ipPort connected)).mpr h
  | cryptoConnectionAddSource env id source =>
    exact (congrArg (w.app.Unmixed sodium) (NetCrypto.sessions_cryptoConnectionAddSource env w.net id source)).mpr h
  | handleNewConnectionHandshake env source data => exact NetCrypto.unmixed_tracedOffer hcalls h env source data
  | handlePacketConnection env id packet udp => exact NetCrypto.unmixed_tracedPacket hcalls h hfits udp
  | udpHandlePacket env source packet => exact NetCrypto.unmixed_tracedUdp hcalls h hfits
  | cryptoKill env id => exact NetCrypto.unmixed_cryptoKill h env id
  | application f => exact h

/-! ## Handshakes that are not accepted -/

namespace NetCrypto

variable {α : Type} {sodium : Sodium} {callbacks : Callbacks α} {env : Env} {w : World α}

variable {id : ℕ}

/-- With memory for the answer a handshake is answered. -/
theorem answerHandshake_succeeds (hencrypts : sodium.Encrypts) {conn conn' : CryptoConnection}
    (hconn : w.net.getCryptoConnection id = some conn')
    (halloc : conn.status = .cookieRequesting → env.alloc .tempPacket = true) (handshake : Handshake) :
    (answerHandshake sodium env w id conn handshake).1 = true := by
  unfold answerHandshake
  split
  · rename_i hstatus
    have hsent := createSendHandshake_succeeds hencrypts hconn (halloc hstatus) handshake.cookie
      handshake.dhtPublicKey
    split
    · rename_i heq
      rw [heq] at hsent
      contradiction
    · rfl
  · rfl

/-- A handshake for a connection that fits is taken, or changes nothing. -/
theorem handlePacketConnection_rejected (hencrypts : sodium.Encrypts) {packet : Bytes} {udp : Bool}
    (hfits : w.net.HandshakeFits sodium env id packet) (hhead : packet.head? = some netPacketCryptoHs)
    (hrejected : w.net.takenHandshake sodium env id packet = none ∨
      (handlePacketConnection sodium callbacks env w id packet udp).1 = false) :
    (handlePacketConnection sodium callbacks env w id packet udp).2 = w := by
  unfold handlePacketConnection at hrejected ⊢
  by_cases hlength : packet.length = 0 ∨ packet.length > maxCryptoPacketSize
  · rw [if_pos hlength]
  · rw [if_neg hlength] at hrejected ⊢
    cases hconn : w.net.getCryptoConnection id with
    | none => rfl
    | some conn =>
      have hnot : ¬packet.head? = some netPacketCookieResponse := by rw [hhead]; decide
      simp only [hconn, if_neg hnot, if_pos hhead] at hrejected ⊢
      rcases handleHandshakePacket_cases callbacks hconn hhead hfits with heq | ⟨handshake, htaken, halloc, heq⟩
      · rw [heq]
      · exfalso
        rw [htaken, heq] at hrejected
        rcases hrejected with hnone | hfalse
        · contradiction
        · obtain ⟨hget, hlive⟩ := getCryptoConnection_eq_some.mp hconn
          have hwrite : (w.write id (precomputeSharedKey sodium (takeHandshake handshake conn))).net.getCryptoConnection
              id = _ := World.write_get hget hlive
          rw [answerHandshake_succeeds hencrypts hwrite halloc] at hfalse
          contradiction

/-- The connection that `handle_new_connection_handshake` answers for is live. -/
theorem addSource_live {c : NetCrypto} {conn : CryptoConnection} (hold : c.cryptoConnections[id]? = some old)
    (hlive : conn.status ≠ .noConnection) (env : Env) (source : IpPort) :
    ∃ conn', (cryptoConnectionAddSource env (c.setConnection id conn) id source).2.getCryptoConnection id =
      some conn' := by
  have hget := sessions_get (getCryptoConnection_eq_some.mp (setConnection_get hold hlive)).1
  rw [← sessions_cryptoConnectionAddSource env _ id source] at hget
  obtain ⟨conn', hconn', hsame⟩ := map_eq_some_iff.mp (getElem?_map ▸ hget)
  refine ⟨conn', getCryptoConnection_eq_some.mpr ⟨hconn', ?_⟩⟩
  have hstatus : conn'.status = conn.status := congrArg SessionView.status hsame
  rwa [hstatus]

/-- A handshake that `handle_new_connection_handshake` rejects changes nothing. -/
theorem handleNewConnectionHandshake_rejected (hencrypts : sodium.Encrypts) {source : IpPort} {data : Bytes}
    (hfits : w.net.AnswerFits sodium env data) (hkeeps : w.net.KeepsConnection sodium env data)
    (hrejected : (handleNewConnectionHandshake sodium callbacks env w source data).1 = false) :
    (handleNewConnectionHandshake sodium callbacks env w source data).2 = w := by
  unfold handleNewConnectionHandshake at hrejected ⊢
  by_cases halloc : env.alloc .cookie = false
  · rw [if_pos halloc]
  · rw [if_neg halloc] at hrejected ⊢
    cases hparse : handleCryptoHandshake sodium env w.net data none with
    | none => rfl
    | some handshake =>
      have hoffered (hwaits : ∀ conn, (w.net.getcryptconnectionId handshake.peerRealPk).bind
          w.net.getCryptoConnection = some conn → handshake.dhtPublicKey ≠ conn.dhtPublicKey ∨
          conn.status = .cookieRequesting ∨ conn.status = .handshakeSent) :
          w.net.offeredHandshake sodium env data = some handshake := by
        rw [offeredHandshake, if_neg halloc, hparse, filter_some, if_pos]
        split
        · rfl
        · rename_i conn hconn
          exact decide_eq_true (hwaits conn hconn)
      simp only [hparse] at hrejected ⊢
      cases hid : w.net.getcryptconnectionId handshake.peerRealPk with
      | none =>
        rw [hid] at hoffered
        obtain ⟨id, conn, hsome, -⟩ := hkeeps handshake (hoffered (by simp))
        rw [hid] at hsome
        contradiction
      | some id =>
        obtain ⟨conn, hconn, -⟩ := getcryptconnectionId_some hid
        simp only [hid, hconn] at hrejected ⊢
        have hthis {conn' : CryptoConnection} (h : (some id).bind w.net.getCryptoConnection = some conn') :
            conn' = conn := by
          rw [bind_some, hconn] at h
          exact (some_inj.mp h).symm
        rw [hid] at hoffered
        split at hrejected
        · rename_i hother
          obtain ⟨id', conn', hid', hconn', hsame⟩ := hkeeps handshake
            (hoffered fun conn' h => .inl (by rw [hthis h]; exact hother))
          obtain rfl : id = id' := some_inj.mp (hid.symm.trans hid')
          obtain rfl : conn = conn' := some_inj.mp (hconn.symm.trans hconn')
          exact absurd hsame hother
        · rename_i hsame
          rw [if_neg hsame]
          split at hrejected
          · rename_i hwaits
            exfalso
            have hanswer := hfits handshake id conn (hoffered fun conn' h => .inr (by rw [hthis h]; exact hwaits)) hid
              hconn (not_not.mp hsame)
            obtain ⟨hget, hlive⟩ := getCryptoConnection_eq_some.mp hconn
            set conn₁ : CryptoConnection := { conn with
              recvNonce := handshake.nonce
              peersessionPublicKey := handshake.sessionPk
              sharedKey := sodium.beforenm handshake.sessionPk conn.sessionSecretKey }
            have hlive₁ : conn₁.status ≠ .noConnection := hlive
            obtain ⟨conn', hconn'⟩ := addSource_live hget hlive₁ env source
            have hsent := createSendHandshake_succeeds hencrypts hconn' hanswer handshake.cookie handshake.dhtPublicKey
            split at hrejected
            · rename_i heq
              rw [heq] at hsent
              contradiction
            · contradiction
          · rename_i hwaits
            rw [if_neg hwaits]

end NetCrypto

/-- In every run whose handshakes fit, a connection with a handshake and no data yet holds the material of one
accepted handshake with the shared key that goes with it, and a handshake that is not accepted leaves every
session as it was. -/
theorem sessionReaches_unmixed (sodium : Sodium) (hencrypts : sodium.Encrypts) (dht : DhtKeys)
    (selfPublicKey : PublicKey) (selfSecretKey : SecretKey) (secretSymmetricKey : SharedKey) (app : β)
    (w : World (Traced β))
    (hreach : SessionReaches sodium
      ⟨.new dht selfPublicKey selfSecretKey secretSymmetricKey, ⟨[], fun _ => false, app⟩⟩ w) :
    SessionsUnmixed sodium w ∧
      (∀ callbacks env id packet udp, w.net.HandshakeFits sodium env id packet →
        packet.head? = some netPacketCryptoHs →
        w.net.takenHandshake sodium env id packet = none ∨
          (NetCrypto.handlePacketConnection sodium callbacks env w id packet udp).1 = false →
        (NetCrypto.handlePacketConnection sodium callbacks env w id packet udp).2.net.sessions = w.net.sessions) ∧
      ∀ callbacks env source data, w.net.AnswerFits sodium env data → w.net.KeepsConnection sodium env data →
        (NetCrypto.handleNewConnectionHandshake sodium callbacks env w source data).1 = false →
        (NetCrypto.handleNewConnectionHandshake sodium callbacks env w source data).2.net.sessions =
          w.net.sessions := by
  have hunmixed : SessionsUnmixed sodium w := hreach.invariant (P := SessionsUnmixed sodium)
    (fun callbacks op w hcalls hfits h => op.execTraced_unmixed hcalls hfits h) nofun
  refine ⟨hunmixed, ?_, ?_⟩
  · intro callbacks env id packet udp hfits hhead hrejected
    rw [NetCrypto.handlePacketConnection_rejected hencrypts hfits hhead hrejected]
  · intro callbacks env source data hfits hkeeps hrejected
    rw [NetCrypto.handleNewConnectionHandshake_rejected hencrypts hfits hkeeps hrejected]

/-! ## Two runs -/

/-- An application without callbacks takes an operation that fits. -/
theorem sessionReaches_unset {sodium : Sodium} {start w : World (Traced β)} (h : SessionReaches sodium start w)
    (op : Operation β) (hfits : op.Fits sodium w) : SessionReaches sodium start (op.execTraced sodium .unset w) :=
  h.step_quiet Callbacks.unset op (fun _ _ => Callbacks.unset_calls) hfits

/-- A fresh node under the plain library, where key pairs are pairs of equal keys. -/
def NetCrypto.plainNode (key dhtKey : PublicKey) : NetCrypto := .new ⟨dhtKey, dhtKey, fun _ => .zero⟩ key key key

/-- A fresh node whose keys are all `1, 1, …`. -/
def ownNode : World (Traced Unit) :=
  ⟨.plainNode (List.Vector.replicate 32 1) (List.Vector.replicate 32 1), ⟨[], fun _ => false, ()⟩⟩

/-- A handshake of the peer with the real key `2, 2, …` and some DHT key, under the plain library. -/
def peerHandshake (dhtPublicKey sessionPk : PublicKey) : Bytes :=
  let key : PublicKey := List.Vector.replicate 32 2
  let cookie := (createCookie .plain .calm (cookieData key dhtPublicKey) key).getD []
  (createCryptoHandshake .plain .calm (.plainNode key dhtPublicKey) (slice cookieLength cookie 0)
    (List.Vector.replicate 24 7) sessionPk
    key key).getD []

/-- The node connects to the peer at the DHT key `3, 3, …`. -/
def connecting : World (Traced Unit) :=
  (Operation.newCryptoConnection .calm (List.Vector.replicate 32 2) (List.Vector.replicate 32 3)).execTraced
    .plain .unset ownNode

/-- The peer answers with a handshake from that DHT key. -/
def connected : World (Traced Unit) :=
  (Operation.handlePacketConnection .calm 0
    (peerHandshake (List.Vector.replicate 32 3) (List.Vector.replicate 32 5)) true).execTraced .plain .unset connecting

/-- A handshake from another DHT key arrives, and the application does nothing about it. -/
def moved : World (Traced Unit) :=
  (Operation.handlePacketConnection .calm 0
    (peerHandshake (List.Vector.replicate 32 4) (List.Vector.replicate 32 6)) true).execTraced .plain .unset connected

/-- The run to the connection that is not confirmed fits. -/
theorem sessionReaches_unmixed_connected :
    SessionsUnmixed .plain connected ∧
      connected.net.sessions.map (·.status) = [.notConfirmed] ∧ connected.app.gotData 0 = false := by
  have hconnecting : SessionReaches .plain ownNode connecting :=
    sessionReaches_unset (.refl ownNode) (.newCryptoConnection .calm _ _) trivial
  have hparsed : (connecting.net.getCryptoConnection 0).map (fun conn =>
      (conn.dhtPublicKey, (connecting.net.parsedHandshake .plain .calm conn
        (peerHandshake (List.Vector.replicate 32 3) (List.Vector.replicate 32 5))).map (·.dhtPublicKey))) =
      some (List.Vector.replicate 32 3, some (List.Vector.replicate 32 3)) := by
    decide +kernel
  have hfits : connecting.net.HandshakeFits .plain .calm 0
      (peerHandshake (List.Vector.replicate 32 3) (List.Vector.replicate 32 5)) := by
    intro conn handshake hconn hhandshake
    rw [hconn, map_some, hhandshake, map_some, some_inj, Prod.mk.injEq, some_inj] at hparsed
    exact ⟨hparsed.2.trans hparsed.1.symm, fun _ => rfl⟩
  have hconnected : SessionReaches .plain ownNode connected := sessionReaches_unset hconnecting _ hfits
  exact ⟨(sessionReaches_unmixed .plain Sodium.plain_lawful.encrypts _ _ _ _ () connected hconnected).1,
    by decide +kernel, by decide +kernel⟩

/-- A handshake from another DHT key leaves the connection with the nonce and session key of that handshake and
the shared key of the first. -/
theorem session_mixed_by_other_dht_key :
    connected.net.sessions ≠ moved.net.sessions ∧ ¬SessionsUnmixed .plain moved := by
  have hmoved : moved.net.sessions = [{
      status := .notConfirmed
      recvNonce := List.Vector.replicate 24 7
      peersessionPublicKey := List.Vector.replicate 32 6
      sharedKey := List.Vector.replicate 32 5
      sessionSecretKey := List.Vector.replicate 32 0 }] := by
    decide +kernel
  refine ⟨by decide +kernel, fun h => ?_⟩
  have hget := congrArg (·[0]?) hmoved
  obtain ⟨-, hshared⟩ := h 0 _ hget (.inl rfl) (by decide +kernel)
  revert hshared
  decide

end Toxcore
