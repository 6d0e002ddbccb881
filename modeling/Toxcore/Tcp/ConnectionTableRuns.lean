import Toxcore.Tcp.ConnectionTables

/-!
# Runs over the tables of connections and relays

Each operation keeps what holds of the tables, in whatever order operations, packets of relays and ticks come.
-/

namespace Toxcore

open ByteStrings TableView Function List Option

namespace TcpConnections

/-- It holds of sound tables only, and still holds after each thing that is done to relays outside of their packets,
after a new connection, and when the onion is turned on or off. -/
structure KeptByRelays (P : TcpConnections → Prop) : Prop where
  sound {tcpC} (h : P tcpC) : tcpC.Sound
  newConnection {tcpC} (h : P tcpC) (env : TcpConnEnv) (publicKey : PublicKey) (id : ℤ) :
    P (tcpC.newTcpConnectionTo env publicKey id).2
  onion {tcpC} (h : P tcpC) (status : Bool) : P (tcpC.setTcpOnionStatus status).2
  mark {tcpC k tcpCon} (h : P tcpC) (hget : tcpC.getTcpConnection k = some tcpCon) (unsleep : Bool) (time : UInt64) :
    P (tcpC.setTcpConnection k { tcpCon with unsleep := unsleep, connectedTime := time })
  request {tcpC} (h : P tcpC) (writes : Bool) (k : ℕ) (publicKey : PublicKey) :
    P (tcpC.sendTcpRelayRoutingRequest writes k publicKey).2
  addSlot {tcpC n k conTo conTo'} (h : P tcpC) (hconn : tcpC.getConnection n = some conTo)
    (hrelay : (tcpC.getTcpConnection k).isSome) (hadd : conTo.addTcpConnectionToConn k = some conTo') :
    P (tcpC.setConnection n conTo')
  addRelay {tcpC env ipPort relayPk} (h : P tcpC) (hfind : tcpC.findTcpConnectionRelay relayPk = none) :
    P (tcpC.addTcpRelayInstance env ipPort relayPk).2
  kill {tcpC} (h : P tcpC) (k : ℕ) : P (tcpC.killTcpRelayConnection k).2
  reset {tcpC k tcpCon connects connection connection'} (h : P tcpC) (hget : tcpC.getTcpConnection k = some tcpCon)
    (hawake : tcpCon.status ≠ .sleeping) (hconnection : tcpCon.connection = some connection)
    (hnew : TcpClientConnection.new connects connection.ipPort connection.publicKey = some connection') :
    P (((tcpC.clearStatuses k).dropOnion tcpCon).setTcpConnection k
      { tcpCon.reset .valid (some connection') with onion := false })
  sleep {tcpC} (h : P tcpC) (k : ℕ) : P (tcpC.sleepTcpRelayConnection k).2
  wake {tcpC k tcpCon connects connection} (h : P tcpC) (hget : tcpC.getTcpConnection k = some tcpCon)
    (hasleep : tcpCon.status = .sleeping)
    (hnew : TcpClientConnection.new connects tcpCon.ipPort tcpCon.relayPk = some connection) :
    P (tcpC.setTcpConnection k (tcpCon.reset .valid (some connection)))
  online {tcpC env k tcpCon} (h : P tcpC) (hget : tcpC.getTcpConnection k = some tcpCon) (hvalid : tcpCon.status =
    .valid) :
    P (tcpC.tcpRelayOnOnline env k)

variable {tcpC : TcpConnections} {n k : ℕ} {conTo conTo' : TcpConnectionTo} {tcpCon tcpCon' : TcpCon}

/-! ## Relays -/

variable {connection : TcpClientConnection} {ipPort : IpPort} {publicKey relayPk : PublicKey}
  {env : TcpConnEnv} {next : TcpConnections}

/-- A TCP connection that is made is a new one. -/
theorem new_eq_zero {connects : Bool} (h : TcpClientConnection.new connects ipPort publicKey = some connection) :
    connection = .zero ipPort publicKey := by
  unfold TcpClientConnection.new at h
  split at h
  · contradiction
  · split at h
    · exact (some_inj.mp h).symm
    · contradiction

/-- A new client connection has the key of its relay. -/
theorem publicKey_new {connects : Bool} (h : TcpClientConnection.new connects ipPort publicKey = some connection) :
    connection.publicKey = publicKey :=
  congrArg TcpClientConnection.publicKey (new_eq_zero h)

/-- The key of a relay that is awake. -/
theorem key_awake (hawake : tcpCon.status ≠ .sleeping) (hconnection : tcpCon.connection = some connection) :
    tcpCon.key? = some connection.publicKey := by
  rw [TcpCon.key?, if_neg hawake, hconnection, map_some]

/-- A relay that is killed does not need its TCP connection. -/
theorem killTcpRelayConnection_set (tcpCon' : TcpCon) (hget : tcpC.getTcpConnection k = some tcpCon)
    (hlive : tcpCon'.status ≠ .none) (honion : tcpCon'.onion = tcpCon.onion) :
    ((tcpC.setTcpConnection k tcpCon').killTcpRelayConnection k).2 = (tcpC.killTcpRelayConnection k).2 := by
  have hget' := getTcpConnection_set_self tcpCon' hget hlive
  rw [TcpConnections.killTcpRelayConnection, TcpConnections.killTcpRelayConnection, hget, hget']
  dsimp only
  rw [TcpConnections.dropOnion, TcpConnections.dropOnion, honion]
  split <;>
  · unfold wipeTcpConnection setTcpConnection mapConnections
    dsimp only
    rw [set_set]

/-- A relay falls asleep. -/
theorem Sound.sleepTcpRelayConnection (h : tcpC.Sound) (k : ℕ) : (tcpC.sleepTcpRelayConnection k).2.Sound := by
  unfold TcpConnections.sleepTcpRelayConnection
  cases hget : tcpC.getTcpConnection k with
  | none => exact h
  | some tcpCon =>
    dsimp only
    split
    · rename_i connection hconnected hconnection
      split
      · exact h
      · refine h.resetRelay hget nofun ?_ ⟨⟨nofun, fun hne => absurd rfl hne⟩, nofun⟩ rfl
        rw [key_awake (by rw [hconnected]; nofun) hconnection]
        rfl
    · exact h

/-- A routing request is sent. -/
theorem Sound.sendTcpRelayRoutingRequest (h : tcpC.Sound) (writes : Bool) (k : ℕ) (publicKey : PublicKey) :
    (tcpC.sendTcpRelayRoutingRequest writes k publicKey).2.Sound := by
  unfold TcpConnections.sendTcpRelayRoutingRequest
  cases hget : tcpC.getTcpConnection k with
  | none => exact h
  | some tcpCon =>
    dsimp only
    split
    · exact h
    · exact h.setSameRelay hget (.mapClient tcpCon fun _ => rfl)

/-! ## Packets of a relay -/

/-- The status of a connection on a relay is written. -/
theorem Sound.writeStatus (h : tcpC.Sound) {status : RelayStatus} {connectionId : UInt8}
    (hget : tcpC.getConnection n = some conTo)
    (hset : conTo.setTcpConnectionStatus k status connectionId = some conTo') :
    (tcpC.setConnection n conTo').Sound := by
  have hlive := (getConnection_eq_some.mp hget).2
  have hwithin := TcpConnectionTo.setTcpConnectionStatus_within hset
  obtain ⟨i, -, -, rfl⟩ := TcpConnectionTo.setTcpConnectionStatus_some hset
  exact h.setWithin hget hlive rfl hwithin

/-- A routing response names a connection. -/
theorem Sound.tcpResponseCallback (h : tcpC.Sound) (k : ℕ) (connectionId : Fin numClientConnections)
    (publicKey : PublicKey) :
    (tcpC.tcpResponseCallback k connectionId publicKey).2.Sound := by
  unfold TcpConnections.tcpResponseCallback
  split
  · rename_i tcpCon n hget _
    cases hconn : tcpC.getConnection n with
    | none => exact h
    | some conTo =>
      dsimp only
      cases hset : conTo.setTcpConnectionStatus k .registered (UInt8.ofNat connectionId) with
      | none => exact h
      | some conTo' =>
        have hwritten := h.writeStatus hconn hset
        exact hwritten.setSameRelay hget (.mapClient tcpCon fun connection =>
          publicKey_setTcpConnectionNumber connection _ _)
  · exact h

/-- A relay reports the status of a peer. -/
theorem Sound.tcpStatusCallback (h : tcpC.Sound) (k : ℕ) (number : UInt32) (connectionId : Fin numClientConnections)
    (status : PortStatus) : (tcpC.tcpStatusCallback k number connectionId status).2.Sound := by
  have hwrite {tcpCon tcpCon' : TcpCon} {conTo conTo' : TcpConnectionTo} {relayStatus : RelayStatus}
      (hget : tcpC.getTcpConnection k = some tcpCon) (hconn : tcpC.getConnection number.toNat = some conTo)
      (hset : conTo.setTcpConnectionStatus k relayStatus (UInt8.ofNat connectionId) = some conTo')
      (hsame : SameRelay tcpCon tcpCon') :
      ((tcpC.setConnection number.toNat conTo').setTcpConnection k tcpCon').Sound :=
    (h.writeStatus hconn hset).setSameRelay hget hsame
  unfold TcpConnections.tcpStatusCallback
  split
  · rename_i tcpCon conTo hget hconn
    dsimp only
    cases status with
    | unused => exact h
    | offline =>
      dsimp only
      cases hset : conTo.setTcpConnectionStatus k .registered (UInt8.ofNat connectionId) with
      | none => exact h
      | some conTo' => exact hwrite hget hconn hset ⟨rfl, rfl, rfl, rfl⟩
    | online =>
      dsimp only
      cases hset : conTo.setTcpConnectionStatus k .online (UInt8.ofNat connectionId) with
      | none => exact h
      | some conTo' => exact hwrite hget hconn hset ⟨rfl, rfl, rfl, rfl⟩
  · exact h

/-- The TCP connection of a relay is written. -/
theorem Sound.setClient (h : tcpC.Sound) {connection' : TcpClientConnection}
    (hget : tcpC.getTcpConnection k = some tcpCon) (hconnection : tcpCon.connection = some connection)
    (hkey : connection'.publicKey = connection.publicKey) : (tcpC.setClient k tcpCon connection').Sound := by
  refine h.setSameRelay hget ⟨rfl, ?_, ?_, rfl⟩
  · rw [TcpCon.key?, TcpCon.key?, hconnection]
    dsimp only
    rw [map_some, map_some, hkey]
  · rw [hconnection]
    rfl

/-- What a packet can do: nothing, open a port, or announce that the peer of a port has come or gone. -/
theorem handleTcpPacket_cases (tcpC : TcpConnections) (k : ℕ) (tcpCon : TcpCon) (connection : TcpClientConnection)
    (data : Bytes) :
    (tcpC.handleTcpPacket k tcpCon connection data).2.2 = tcpC ∨
    (tcpC.handleTcpPacket k tcpCon connection data).1 = true ∧
      ((∃ second rest conId, data = tcpPacketRoutingResponse :: second :: rest ∧ rest.length = 32 ∧
          clientPort second = some conId ∧ (connection.connections conId).status = .unused ∧
          (tcpC.handleTcpPacket k tcpCon connection data).2.2 =
            let opened := tcpC.setClient k tcpCon (connection.setPort conId ⟨.offline, 0xFFFFFFFF, slice 32 rest 0⟩)
            if connection.callbacks then (opened.tcpResponseCallback k conId (slice 32 rest 0)).2 else opened) ∨
        ∃ kind second conId before status, data = [kind, second] ∧
          (kind = tcpPacketConnectionNotification ∧ before = .offline ∧ status = .online ∨
            kind = tcpPacketDisconnectNotification ∧ before = .online ∧ status = .offline) ∧
          clientPort second = some conId ∧ (connection.connections conId).status = before ∧
          (tcpC.handleTcpPacket k tcpCon connection data).2.2 =
            let changed := tcpC.setClient k tcpCon
              (connection.setPort conId { connection.connections conId with status := status })
            if connection.callbacks then
              (changed.tcpStatusCallback k (connection.connections conId).number conId status).2 else changed) := by
  unfold TcpConnections.handleTcpPacket
  split
  · exact .inl rfl
  · exact .inl rfl
  · rename_i kind second rest
    split
    · rename_i hkind
      subst hkind
      split
      · exact .inl rfl
      · rename_i hlength
        cases hport : clientPort second with
        | none => exact .inl rfl
        | some conId =>
          dsimp only
          split
          · exact .inl rfl
          · rename_i hunused
            refine .inr ⟨rfl, .inl ⟨second, rest, conId, rfl, not_not.mp hlength, hport, not_not.mp hunused, rfl⟩⟩
    · split
      · rename_i hkind
        split
        · exact .inl rfl
        · rename_i hempty
          obtain rfl := not_not.mp hempty
          cases hport : clientPort second with
          | none => exact .inl rfl
          | some conId =>
            dsimp only
            by_cases hcomes : kind = tcpPacketConnectionNotification
            · rw [if_pos hcomes]
              dsimp only
              split
              · exact .inl rfl
              · rename_i hstatus
                exact .inr ⟨rfl, .inr ⟨kind, second, conId, .offline, .online, rfl, .inl ⟨hcomes, rfl, rfl⟩, hport,
                  not_not.mp hstatus, rfl⟩⟩
            · have hgoes := hkind.resolve_left hcomes
              rw [if_neg hcomes]
              dsimp only
              split
              · exact .inl rfl
              · rename_i hstatus
                exact .inr ⟨rfl, .inr ⟨kind, second, conId, .online, .offline, rfl, .inr ⟨hgoes, rfl, rfl⟩, hport,
                  not_not.mp hstatus, rfl⟩⟩
      · refine .inl ?_
        repeat' split
        all_goals rfl

/-- A packet of a relay. -/
theorem Sound.handleTcpPacket (h : tcpC.Sound) (hget : tcpC.getTcpConnection k = some tcpCon)
    (hconnection : tcpCon.connection = some connection) (data : Bytes) :
    (tcpC.handleTcpPacket k tcpCon connection data).2.2.Sound := by
  have hport (conId : Fin numClientConnections) (port : TcpClientPort) :
      (tcpC.setClient k tcpCon (connection.setPort conId port)).Sound := h.setClient hget hconnection rfl
  rcases handleTcpPacket_cases tcpC k tcpCon connection data with hsame | ⟨-, hopens | hchanges⟩
  · rw [hsame]
    exact h
  · obtain ⟨second, rest, conId, -, -, -, -, heq⟩ := hopens
    rw [heq]
    dsimp only
    split
    · exact (hport conId _).tcpResponseCallback k conId _
    · exact hport conId _
  · obtain ⟨kind, second, conId, before, status, -, -, -, -, heq⟩ := hchanges
    rw [heq]
    dsimp only
    split
    · exact (hport conId _).tcpStatusCallback k _ conId _
    · exact hport conId _

/-- What a packet and the end of a TCP connection keep, receiving keeps. -/
theorem receive_kept {P : TcpConnections → Prop} (h : P tcpC) (k : ℕ) (data : Bytes)
    (hkept : ∀ tcpCon connection, tcpC.getTcpConnection k = some tcpCon → tcpCon.connection = some connection →
      connection.disconnected = false → P (tcpC.handleTcpPacket k tcpCon connection data).2.2 ∧
        P (tcpC.setClient k tcpCon { connection with disconnected := true })) : P (tcpC.receive k data).2 := by
  unfold TcpConnections.receive
  cases hget : tcpC.getTcpConnection k with
  | none => exact h
  | some tcpCon =>
    dsimp only
    cases hconnection : tcpCon.connection with
    | none => exact h
    | some connection =>
      dsimp only
      split
      · exact h
      · rename_i hopen
        obtain ⟨hhandled, hclosed⟩ := hkept tcpCon connection hget hconnection (Bool.eq_false_iff.mpr hopen)
        have hcases := handleTcpPacket_cases tcpC k tcpCon connection data
        generalize tcpC.handleTcpPacket k tcpCon connection data = outcome at hhandled hcases
        obtain ⟨taken, given, next⟩ := outcome
        cases taken with
        | true => exact hhandled
        | false =>
          obtain hsame | ⟨htaken, -⟩ := hcases
          · obtain rfl : next = tcpC := hsame
            exact hclosed
          · nomatch htaken

/-- A packet of a relay, if the relay is there. -/
theorem Sound.receive (h : tcpC.Sound) (k : ℕ) (data : Bytes) : (tcpC.receive k data).2.Sound :=
  receive_kept h k data fun _ _ hget hconnection _ =>
    ⟨h.handleTcpPacket hget hconnection data, h.setClient hget hconnection rfl⟩

/-! ## Connections -/

/-- A change of the relays leaves the connections alone. -/
theorem getConnection_onRelays (f : TcpCon → RelaySlot → TcpCon) (conTo : TcpConnectionTo) (n : ℕ) :
    (tcpC.onRelays f conTo).getConnection n = tcpC.getConnection n := by
  rw [getConnection, getConnection, onRelays_connections]

/-- A connection is killed. -/
theorem Sound.killTcpConnectionTo (h : tcpC.Sound) (n : ℕ) : (tcpC.killTcpConnectionTo n).2.Sound := by
  unfold TcpConnections.killTcpConnectionTo
  cases hget : tcpC.getConnection n with
  | none => exact h
  | some conTo =>
    exact (h.onRelays (sameRelay_release conTo) conTo).wipeConnection ((getConnection_onRelays _ conTo n).trans hget)

/-- A connection falls asleep or wakes up. -/
theorem Sound.setTcpConnectionToStatus (h : tcpC.Sound) (n : ℕ) (status : Bool) :
    (tcpC.setTcpConnectionToStatus n status).2.Sound := by
  unfold TcpConnections.setTcpConnectionToStatus
  cases hget : tcpC.getConnection n with
  | none => exact h
  | some conTo =>
    dsimp only
    split
    · split
      · exact h
      · exact (h.onRelays sameRelay_wakeUp conTo).setWithin ((getConnection_onRelays _ conTo n).trans hget)
          nofun rfl (.refl conTo)
    · split
      · exact h
      · exact (h.onRelays sameRelay_fallAsleep conTo).setWithin ((getConnection_onRelays _ conTo n).trans hget)
          nofun rfl
          (.refl conTo)

/-- A place for a connection is free and cleared, and nothing else changes. -/
theorem createConnection_some (h : tcpC.CleanTables) (hcreate : tcpC.createConnection env = (some n, next)) :
    next.connections[n]? = some .zero ∧
      next.getConnection = tcpC.getConnection ∧ next.CleanTables ∧
      next = { tcpC with connections := next.connections } := by
  unfold createConnection at hcreate
  split at hcreate
  · rename_i i hfind
    obtain ⟨hi, rfl⟩ := Prod.mk.inj hcreate
    obtain rfl := some_inj.mp hi
    obtain ⟨hlt, hfree, -⟩ := findIdx?_eq_some_iff_getElem.mp hfind
    have hzero := h.1 _ (getElem_mem hlt) hfree
    exact ⟨by rw [getElem?_eq_getElem hlt, hzero], rfl, h, rfl⟩
  · split at hcreate
    · obtain ⟨hi, rfl⟩ := Prod.mk.inj hcreate
      obtain rfl := some_inj.mp hi
      refine ⟨getElem?_concat_length, ?_, ⟨h.1.concat, h.2⟩, rfl⟩
      unfold getConnection
      exact view_concat rfl
    · nomatch (Prod.mk.inj hcreate).1

/-- A place for a relay is free and cleared, and nothing else changes. -/
theorem createTcpConnection_some (h : tcpC.CleanTables) (hcreate : tcpC.createTcpConnection env = (some k, next)) :
    next.tcpConnections[k]? = some .zero ∧
      next.getTcpConnection = tcpC.getTcpConnection ∧ next.CleanTables ∧
      next.tcpConnections.countP usedByOnion = tcpC.tcpConnections.countP usedByOnion ∧
      next = { tcpC with tcpConnections := next.tcpConnections } := by
  unfold createTcpConnection at hcreate
  split at hcreate
  · rename_i i hfind
    obtain ⟨hi, rfl⟩ := Prod.mk.inj hcreate
    obtain rfl := some_inj.mp hi
    obtain ⟨hlt, hfree, -⟩ := findIdx?_eq_some_iff_getElem.mp hfind
    have hzero := h.2 _ (getElem_mem hlt) hfree
    exact ⟨by rw [getElem?_eq_getElem hlt, hzero], rfl, h, rfl, rfl⟩
  · split at hcreate
    · obtain ⟨hi, rfl⟩ := Prod.mk.inj hcreate
      obtain rfl := some_inj.mp hi
      refine ⟨getElem?_concat_length, ?_, ⟨h.1, h.2.concat⟩, countP_concat rfl, rfl⟩
      unfold getTcpConnection
      exact view_concat rfl
    · nomatch (Prod.mk.inj hcreate).1

/-- No connection has a key that is not found. -/
theorem findTcpConnectionTo_none (hfind : tcpC.findTcpConnectionTo publicKey = none)
    (hget : tcpC.getConnection n = some conTo) : conTo.publicKey ≠ publicKey := by
  obtain ⟨hold, hlive⟩ := getConnection_eq_some.mp hget
  intro hkey
  have hnot := findIdx?_eq_none_iff.mp hfind conTo (mem_of_getElem? hold)
  exact of_decide_eq_false hnot ⟨hlive, hkey⟩

/-- No relay has a key that is not found. -/
theorem findTcpConnectionRelay_none (hfind : tcpC.findTcpConnectionRelay relayPk = none)
    (hget : tcpC.getTcpConnection k = some tcpCon) : tcpCon.key? ≠ some relayPk := by
  obtain ⟨hold, hlive⟩ := getTcpConnection_eq_some.mp hget
  intro hkey
  have hnot := findIdx?_eq_none_iff.mp hfind tcpCon (mem_of_getElem? hold)
  exact of_decide_eq_false hnot ⟨hlive, hkey⟩

/-- A connection without relays is added, with a new key. -/
theorem Sound.addConnection (h : tcpC.Sound) (n : ℕ) (conTo : TcpConnectionTo)
    (hview : next.getConnection = update tcpC.getConnection n (some conTo))
    (hempty : ∀ i, (conTo.connections i).tcpConnection = none)
    (hnew : ∀ m a, tcpC.getConnection m = some a → a.publicKey ≠ conTo.publicKey) (hclean : next.CleanTables)
    (hnext : next = { tcpC with connections := next.connections }) : next.Sound := by
  have hrelays : next.getTcpConnection = tcpC.getTcpConnection := by rw [hnext]; rfl
  have hcase (m : ℕ) (a : TcpConnectionTo) (ha : next.getConnection m = some a) :
      m = n ∧ a = conTo ∨ m ≠ n ∧ tcpC.getConnection m = some a := by
    rw [hview] at ha
    by_cases hmn : m = n
    · subst hmn
      rw [update_self] at ha
      exact .inl ⟨rfl, (some_inj.mp ha).symm⟩
    · rw [update_of_ne hmn] at ha
      exact .inr ⟨hmn, ha⟩
  refine ⟨fun l m a b ha hb heq => ?_, fun l m s t hs ht => ?_, fun m a i l ha hl => ?_, fun m a ha => ?_,
    fun l t ht => ?_,
    ?_, ?_, ?_, hclean⟩
  · rcases hcase l a ha with ⟨rfl, rfl⟩ | ⟨-, ha'⟩
    · rcases hcase m b hb with ⟨rfl, -⟩ | ⟨-, hb'⟩
      · rfl
      · exact absurd heq.symm (hnew m b hb')
    · rcases hcase m b hb with ⟨-, rfl⟩ | ⟨-, hb'⟩
      · exact absurd heq (hnew l a ha')
      · exact h.keys l m a b ha' hb' heq
  · rw [hrelays] at hs ht
    exact h.relayKeys l m s t hs ht
  · rw [hrelays]
    rcases hcase m a ha with ⟨-, rfl⟩ | ⟨-, ha'⟩
    · rw [hempty i] at hl
      nomatch hl
    · exact h.named m a i l ha' hl
  · rcases hcase m a ha with ⟨-, rfl⟩ | ⟨-, ha'⟩
    · intro i j l hi
      rw [hempty i] at hi
      nomatch hi
    · exact h.once m a ha'
  · rw [hrelays] at ht
    exact h.fit l t ht
  · rw [hnext]
    exact h.onion
  · rw [hnext]
    exact h.onionMax
  · rw [hnext]
    exact h.onionOff

/-- A relay is added, with a new key. -/
theorem Sound.addRelay (h : tcpC.Sound) (k : ℕ) (tcpCon : TcpCon)
    (hview : next.getTcpConnection = update tcpC.getTcpConnection k (some tcpCon)) (hfit : tcpCon.Fit)
    (hnew : ∀ l t, tcpC.getTcpConnection l = some t → t.key? ≠ tcpCon.key?) (hclean : next.CleanTables)
    (hcount : next.tcpConnections.countP usedByOnion = tcpC.tcpConnections.countP usedByOnion)
    (hnext : next = { tcpC with tcpConnections := next.tcpConnections }) : next.Sound := by
  have hconns : next.getConnection = tcpC.getConnection := by rw [hnext]; rfl
  have hcase (l : ℕ) (t : TcpCon) (ht : next.getTcpConnection l = some t) :
      l = k ∧ t = tcpCon ∨ l ≠ k ∧ tcpC.getTcpConnection l = some t := by
    rw [hview] at ht
    by_cases hlk : l = k
    · subst hlk
      rw [update_self] at ht
      exact .inl ⟨rfl, (some_inj.mp ht).symm⟩
    · rw [update_of_ne hlk] at ht
      exact .inr ⟨hlk, ht⟩
  refine ⟨fun l m a b ha hb => ?_, fun l m s t hs ht heq => ?_, fun m a i l ha hl => ?_, fun m a ha => ?_,
    fun l t ht => ?_,
    ?_, ?_, ?_, hclean⟩
  · rw [hconns] at ha hb
    exact h.keys l m a b ha hb
  · rcases hcase l s hs with ⟨rfl, rfl⟩ | ⟨-, hs'⟩
    · rcases hcase m t ht with ⟨rfl, -⟩ | ⟨-, ht'⟩
      · rfl
      · exact absurd heq.symm (hnew m t ht')
    · rcases hcase m t ht with ⟨-, rfl⟩ | ⟨-, ht'⟩
      · exact absurd heq (hnew l s hs')
      · exact h.relayKeys l m s t hs' ht' heq
  · rw [hconns] at ha
    rw [hview]
    by_cases hlk : l = k
    · subst hlk
      rw [update_self]
      rfl
    · rw [update_of_ne hlk]
      exact h.named m a i l ha hl
  · rw [hconns] at ha
    exact h.once m a ha
  · rcases hcase l t ht with ⟨-, rfl⟩ | ⟨-, ht'⟩
    · exact hfit
    · exact h.fit l t ht'
  · rw [hcount, hnext]
    exact h.onion
  · rw [hnext]
    exact h.onionMax
  · rw [hnext]
    exact h.onionOff

/-- Where no connection is created, nothing changes. -/
theorem createConnection_none (hcreate : tcpC.createConnection env = (none, next)) : next = tcpC := by
  unfold createConnection at hcreate
  split at hcreate
  · nomatch (Prod.mk.inj hcreate).1
  · split at hcreate
    · nomatch (Prod.mk.inj hcreate).1
    · exact (Prod.mk.inj hcreate).2.symm

/-- Where no relay is created, nothing changes. -/
theorem createTcpConnection_none (hcreate : tcpC.createTcpConnection env = (none, next)) : next = tcpC := by
  unfold createTcpConnection at hcreate
  split at hcreate
  · nomatch (Prod.mk.inj hcreate).1
  · split at hcreate
    · nomatch (Prod.mk.inj hcreate).1
    · exact (Prod.mk.inj hcreate).2.symm

/-- A connection is made. -/
theorem Sound.newTcpConnectionTo (h : tcpC.Sound) (env : TcpConnEnv) (publicKey : PublicKey) (id : ℤ) :
    (tcpC.newTcpConnectionTo env publicKey id).2.Sound := by
  unfold TcpConnections.newTcpConnectionTo
  cases hfind : tcpC.findTcpConnectionTo publicKey with
  | some => exact h
  | none =>
    dsimp only
    generalize hcreate : tcpC.createConnection env = created
    obtain ⟨_ | n, next⟩ := created
    · rw [createConnection_none hcreate]
      exact h
    · obtain ⟨hfree, hview, hclean, hnext⟩ := createConnection_some h.clean hcreate
      dsimp only
      rw [modify_eq_set hfree]
      refine h.addConnection n { TcpConnectionTo.zero with status := .valid, publicKey := publicKey, id := id } ?_
        (fun _ => rfl) (fun m a ha => findTcpConnectionTo_none hfind ha) ⟨hclean.1.set n nofun, hclean.2⟩ ?_
      · rw [← hview]
        unfold getConnection
        exact view_set hfree _
      · rw [hnext]

/-- A relay that `add_tcp_relay_instance` has made. -/
def addedRelay (connection : TcpClientConnection) : TcpCon :=
  { TcpCon.zero with connection := some connection, status := .valid }

/-- A relay with some key is added, or there is none. -/
theorem addTcpRelayInstance_cases (h : tcpC.CleanTables) {added : Option ℕ}
    (hadd : tcpC.addTcpRelayInstance env ipPort relayPk = (added, next)) :
    next.CleanTables ∧ next.tcpConnections.countP usedByOnion = tcpC.tcpConnections.countP usedByOnion ∧
      next = { tcpC with tcpConnections := next.tcpConnections } ∧
      (added = none ∧ next.getTcpConnection = tcpC.getTcpConnection ∨
        ∃ k connection, added = some k ∧ (∃ ipPort, connection = .zero ipPort relayPk) ∧
          tcpC.getTcpConnection k = none ∧
          next.getTcpConnection = update tcpC.getTcpConnection k (some (addedRelay connection))) := by
  unfold TcpConnections.addTcpRelayInstance at hadd
  dsimp only at hadd
  generalize (if ipPort.ip.family = tcpInet then afInet
    else if ipPort.ip.family = tcpInet6 then afInet6 else ipPort.ip.family) = family at hadd
  split at hadd
  · obtain ⟨rfl, rfl⟩ := Prod.mk.inj hadd
    exact ⟨h, rfl, rfl, .inl ⟨rfl, rfl⟩⟩
  · generalize hcreate : tcpC.createTcpConnection env = created at hadd
    obtain ⟨_ | k, made⟩ := created
    · obtain ⟨rfl, rfl⟩ := Prod.mk.inj hadd
      rw [createTcpConnection_none hcreate]
      exact ⟨h, rfl, rfl, .inl ⟨rfl, rfl⟩⟩
    · obtain ⟨hfree, hview, hclean, hcount, hnext⟩ := createTcpConnection_some h hcreate
      dsimp only at hadd
      cases hnew : TcpClientConnection.new env.connects { ipPort with ip := { ipPort.ip with family := family } }
        relayPk with
      | none =>
        rw [hnew] at hadd
        dsimp only at hadd
        rw [modify_eq_set hfree, show { TcpCon.zero with connection := none } = TcpCon.zero from rfl,
          set_same hfree] at hadd
        obtain ⟨rfl, rfl⟩ := Prod.mk.inj hadd
        exact ⟨hclean, hcount, hnext, .inl ⟨rfl, hview⟩⟩
      | some connection =>
        rw [hnew] at hadd
        dsimp only at hadd
        rw [modify_eq_set hfree] at hadd
        obtain ⟨rfl, rfl⟩ := Prod.mk.inj hadd
        have hset := countP_set (p := usedByOnion) hfree (addedRelay connection)
        refine ⟨⟨hclean.1, hclean.2.set k nofun⟩, hset.trans hcount, by rw [hnext],
          .inr ⟨k, connection, rfl, ⟨_, new_eq_zero hnew⟩, ?_, ?_⟩⟩
        · rw [← hview]
          exact view_get hfree
        · rw [← hview]
          exact view_set hfree _

/-- A relay that is not known yet is added, or there is none. -/
theorem Sound.addTcpRelayInstance (h : tcpC.Sound) (hfind : tcpC.findTcpConnectionRelay relayPk = none)
    {added : Option ℕ} (hadd : tcpC.addTcpRelayInstance env ipPort relayPk = (added, next)) :
    next.Sound ∧ next.connections = tcpC.connections ∧ ∀ k, added = some k → (next.getTcpConnection k).isSome := by
  obtain ⟨hclean, hcount, hnext, ⟨rfl, hview⟩ | ⟨k, connection, rfl, ⟨address, hzero⟩, -, hview⟩⟩ :=
    addTcpRelayInstance_cases h.clean hadd
  · have hconns : next.getConnection = tcpC.getConnection := by rw [hnext]; rfl
    refine ⟨h.of_views (fun n a ha => ?_) (fun l t ht => ?_) (by rw [hcount, hnext]; exact h.onion)
      (by rw [hnext]; exact h.onionMax) (by rw [hnext]; exact h.onionOff) hclean, by rw [hnext], nofun⟩
    · rw [hconns] at ha
      rw [hview]
      exact ⟨a, ha, rfl, h.once n a ha, fun i l hl => h.named n a i l ha hl⟩
    · rw [hview] at ht
      exact ⟨t, ht, rfl, h.fit l t ht⟩
  · refine ⟨h.addRelay k (addedRelay connection) hview ⟨⟨fun _ => nofun, fun _ => rfl⟩, nofun⟩ (fun l t ht => ?_) hclean
      hcount hnext, by rw [hnext], ?_⟩
    · rw [hzero]
      exact findTcpConnectionRelay_none hfind ht
    · rintro _ ⟨⟩
      rw [hview, update_self]
      rfl

/-- A relay in use is written in place. -/
theorem modify_relay (hget : tcpC.getTcpConnection k = some tcpCon) (f : TcpCon → TcpCon) :
    { tcpC with tcpConnections := tcpC.tcpConnections.modify k f } = tcpC.setTcpConnection k (f tcpCon) := by
  rw [setTcpConnection, modify_eq_set (getTcpConnection_eq_some.mp hget).1]

/-- A relay in use is written with what it is. -/
theorem setTcpConnection_same (hget : tcpC.getTcpConnection k = some tcpCon) : tcpC.setTcpConnection k tcpCon =
    tcpC := by
  rw [setTcpConnection, set_same (getTcpConnection_eq_some.mp hget).1]

/-- A request changes the TCP connection of a relay at most. -/
theorem sendTcpRelayRoutingRequest_eq (writes : Bool) (hget : tcpC.getTcpConnection k = some tcpCon)
    (publicKey : PublicKey) :
    ∃ connection, (tcpC.sendTcpRelayRoutingRequest writes k publicKey).2 =
        tcpC.setTcpConnection k { tcpCon with connection := connection } ∧
      SameRelay tcpCon { tcpCon with connection := connection } := by
  unfold TcpConnections.sendTcpRelayRoutingRequest
  rw [hget]
  dsimp only
  split
  · exact ⟨tcpCon.connection, (setTcpConnection_same hget).symm, .refl _⟩
  · exact ⟨_, rfl, .mapClient tcpCon fun _ => rfl⟩

/-- The requests for several connections change the TCP connection of a relay at most. -/
theorem sendRequests_eq (writes : ℕ → Bool) (hget : tcpC.getTcpConnection k = some tcpCon) (numbers : List ℕ) :
    ∃ connection, (sendRequests writes k numbers tcpC).2 =
      tcpC.setTcpConnection k { tcpCon with connection := connection } ∧
      SameRelay tcpCon { tcpCon with connection := connection } := by
  induction numbers generalizing tcpC tcpCon with
  | nil => exact ⟨tcpCon.connection, (setTcpConnection_same hget).symm, .refl _⟩
  | cons n rest ih =>
    unfold sendRequests
    split
    · exact ih hget
    · rename_i conTo _
      split
      · dsimp only
        have hlive := (getTcpConnection_eq_some.mp hget).2
        obtain ⟨sent, hsent, hsame⟩ := sendTcpRelayRoutingRequest_eq (writes n) hget conTo.publicKey
        rw [hsent]
        obtain ⟨connection, hnext, hsame'⟩ :=
          ih (getTcpConnection_set_self { tcpCon with connection := sent } hget hlive)
        refine ⟨connection, ?_, hsame.trans hsame'⟩
        rw [hnext, setTcpConnection, setTcpConnection, setTcpConnection]
        dsimp only
        rw [set_set]
      · exact ih hget

/-- A connection gets a relay that is in use. -/
theorem Sound.addSlot (h : tcpC.Sound) (hget : tcpC.getConnection n = some conTo)
    (hrelay : (tcpC.getTcpConnection k).isSome)
    (hadd : conTo.addTcpConnectionToConn k = some conTo') : (tcpC.setConnection n conTo').Sound := by
  have hlive := (getConnection_eq_some.mp hget).2
  obtain ⟨honce, hnamed⟩ := (h.once n conTo hget).add hadd
  obtain ⟨i, -, -, rfl⟩ := TcpConnectionTo.addTcpConnectionToConn_some hadd
  refine h.setConnection hget hlive rfl honce fun j l hl => ?_
  rcases hnamed j l hl with rfl | hl'
  · exact hrelay
  · exact h.named n conTo j l hget hl'

/-! ## The onion -/

/-- A relay is written that may be taken or dropped by the onion, or be asked to wake up. -/
structure Alike (tcpCon tcpCon' : TcpCon) : Prop where
  status : tcpCon'.status = tcpCon.status
  key : tcpCon'.key? = tcpCon.key?
  connection : tcpCon'.connection.isSome = tcpCon.connection.isSome
  onion : tcpCon'.onion = true → tcpCon.onion = true ∨ tcpCon.status = .connected
  free : tcpCon.status = .none → tcpCon' = tcpCon
  counters : tcpCon'.lockCount = tcpCon.lockCount ∧ tcpCon'.sleepCount = tcpCon.sleepCount

theorem Alike.refl (tcpCon : TcpCon) : Alike tcpCon tcpCon := ⟨rfl, rfl, rfl, .inl, fun _ => rfl, rfl, rfl⟩

theorem Alike.trans {tcpCon'' : TcpCon} (h : Alike tcpCon tcpCon') (h' : Alike tcpCon' tcpCon'') :
    Alike tcpCon tcpCon'' where
  status := h'.status.trans h.status
  key := h'.key.trans h.key
  connection := h'.connection.trans h.connection
  onion honion := (h'.onion honion).elim h.onion fun hconnected => .inr (h.status ▸ hconnected)
  free hfree := (h'.free (h.status.trans hfree)).trans (h.free hfree)
  counters := ⟨h'.counters.1.trans h.counters.1, h'.counters.2.trans h.counters.2⟩

/-- A relay that is alike fits too. -/
theorem Alike.fit (h : Alike tcpCon tcpCon') (hfit : tcpCon.Fit) : tcpCon'.Fit where
  client := by
    rw [h.connection, h.status]
    exact hfit.client
  onion honion := by
    rw [h.status]
    exact (h.onion honion).elim hfit.onion id

/-- All relays are written, with other ones used for the onion. -/
theorem Sound.setRelays (h : tcpC.Sound) {relays : List TcpCon} {num : UInt16} {status : Bool}
    (halike : ∀ k : ℕ, Option.Rel Alike tcpC.tcpConnections[k]? relays[k]?)
    (hnum : num.toNat = relays.countP usedByOnion)
    (hmax : num.toNat ≤ numOnionTcpConnections) (hoff : status = false → num = 0) :
    { tcpC with tcpConnections := relays, onionNumConns := num, onionStatus := status }.Sound := by
  refine h.of_views (fun n a ha => ⟨a, ha, rfl, h.once n a ha, fun i k hk => ?_⟩) (fun k t' ht' => ?_) hnum hmax hoff
    ⟨h.clean.1, fun t' ht' hfree => ?_⟩
  · obtain ⟨t, ht⟩ := isSome_iff_exists.mp (h.named n a i k ha hk)
    obtain ⟨hold, hlive⟩ := getTcpConnection_eq_some.mp ht
    have hrel := halike k
    rw [hold] at hrel
    generalize hnew : relays[k]? = new at hrel
    cases hrel with
    | some hsame =>
      rw [getTcpConnection_eq_some.mpr ⟨hnew, hsame.status ▸ hlive⟩]
      rfl
  · obtain ⟨hnew, hlive⟩ := getTcpConnection_eq_some.mp ht'
    have hrel := halike k
    dsimp only at hnew
    rw [hnew] at hrel
    generalize hold : tcpC.tcpConnections[k]? = old at hrel
    cases hrel with
    | some hsame =>
      have ht := getTcpConnection_eq_some.mpr ⟨hold, hsame.status ▸ hlive⟩
      exact ⟨_, ht, hsame.key, hsame.fit (h.fit k _ ht)⟩
  · obtain ⟨k, hk⟩ := getElem?_of_mem ht'
    have hrel := halike k
    dsimp only at hk
    rw [hk] at hrel
    generalize hold : tcpC.tcpConnections[k]? = old at hrel
    cases hrel with
    | some hsame =>
      have hnone := hsame.status.symm.trans (of_decide_eq_true hfree)
      rw [hsame.free hnone]
      exact h.clean.2 _ (mem_of_getElem? hold) (decide_eq_true hnone)

theorem rel_alike_refl (relays : List TcpCon) (k : ℕ) : Option.Rel Alike relays[k]? relays[k]? := by
  cases relays[k]? with
  | none => exact .none
  | some t => exact .some (.refl t)

/-- All relays are mapped. -/
theorem rel_alike_map {f : TcpCon → TcpCon} (hf : ∀ t, Alike t (f t)) (relays : List TcpCon) (k : ℕ) :
    Option.Rel Alike relays[k]? (relays.map f)[k]? := by
  rw [getElem?_map]
  cases relays[k]? with
  | none => exact .none
  | some t => exact .some (hf t)

/-- What the onion takes is connected. -/
theorem alike_take (tcpCon : TcpCon) :
    Alike tcpCon (if tcpCon.status = .connected ∧
      tcpCon.onion = false then { tcpCon with onion := true } else tcpCon) := by
  split
  · rename_i htakes
    exact ⟨rfl, rfl, rfl, fun _ => .inr htakes.1, fun hfree => (nomatch htakes.1.symm.trans hfree), rfl, rfl⟩
  · exact .refl tcpCon

/-- Relays taken for the onion stay alike. -/
theorem takeOnion_alike (taken : ℕ) (relays : List TcpCon) (k : ℕ) :
    Option.Rel Alike relays[k]? (takeOnion taken relays).2[k]? := by
  induction relays generalizing taken k with
  | nil => exact .none
  | cons tcpCon rest ih =>
    unfold takeOnion
    dsimp only
    generalize (if tcpCon.status = .connected ∧ tcpCon.onion = false then taken + 1 else taken) = taken'
    split
    · cases k with
      | zero => exact .some (alike_take tcpCon)
      | succ k => exact rel_alike_refl rest k
    · cases k with
      | zero => exact .some (alike_take tcpCon)
      | succ k => exact ih taken' k

/-- What is taken is counted. -/
theorem takeOnion_count (taken : ℕ) (relays : List TcpCon) : (takeOnion taken relays).1 + relays.countP usedByOnion =
    taken + (takeOnion taken relays).2.countP usedByOnion := by
  induction relays generalizing taken with
  | nil => rfl
  | cons tcpCon rest ih =>
    unfold takeOnion
    dsimp only
    have htake : (if tcpCon.status = .connected ∧ tcpCon.onion = false then taken + 1 else taken) +
        (if usedByOnion tcpCon then 1 else 0) = taken + (if usedByOnion
          (if tcpCon.status = .connected ∧
            tcpCon.onion = false then { tcpCon with onion := true } else tcpCon) then 1 else 0) := by
      by_cases htakes : tcpCon.status = .connected ∧ tcpCon.onion = false
      · rw [if_pos htakes, if_pos htakes, usedByOnion, usedByOnion, htakes.1, htakes.2]
        rfl
      · rw [if_neg htakes, if_neg htakes]
    generalize (if tcpCon.status = .connected ∧ tcpCon.onion = false then taken + 1 else taken) = taken' at htake
    generalize (if tcpCon.status = .connected ∧ tcpCon.onion = false then { tcpCon with onion := true }
      else tcpCon) = tcpCon' at htake
    split
    · rw [countP_cons, countP_cons]
      omega
    · have hrest := ih taken'
      rw [countP_cons, countP_cons]
      omega

/-- No more is taken than there should be. -/
theorem takeOnion_le (taken : ℕ) (relays : List TcpCon) (htaken : taken < numOnionTcpConnections) :
    (takeOnion taken relays).1 ≤ numOnionTcpConnections := by
  induction relays generalizing taken with
  | nil => exact htaken.le
  | cons tcpCon rest ih =>
    unfold takeOnion
    dsimp only
    have hnext : (if tcpCon.status = .connected ∧ tcpCon.onion = false then taken + 1 else taken) ≤
      numOnionTcpConnections := by
      split
      · exact htaken
      · exact htaken.le
    generalize (if tcpCon.status = .connected ∧ tcpCon.onion = false then taken + 1 else taken) = taken' at hnext
    split
    · exact hnext
    · rename_i hfewer
      exact ih taken' (not_le.mp hfewer)

/-- A relay that is to wake up stays alike. -/
theorem alike_wakeUp (tcpCon : TcpCon) :
    Alike tcpCon (if tcpCon.status = .sleeping then { tcpCon with unsleep := true } else tcpCon) := by
  split
  · rename_i hasleep
    exact ⟨rfl, rfl, rfl, .inl, fun hfree => (nomatch hasleep.symm.trans hfree), rfl, rfl⟩
  · exact .refl tcpCon

/-- A relay that the onion gives up stays alike. -/
theorem alike_drop (tcpCon : TcpCon) :
    Alike tcpCon (if tcpCon.status ≠ .none then { tcpCon with onion := false } else tcpCon) := by
  split
  · rename_i hlive
    exact ⟨rfl, rfl, rfl, nofun, fun hfree => absurd hfree hlive, rfl, rfl⟩
  · exact .refl tcpCon

theorem rel_alike_trans {a b c : Option TcpCon} (hab : Option.Rel Alike a b) (hbc : Option.Rel Alike b c) :
    Option.Rel Alike a c := by
  cases hab with
  | none => exact hbc
  | some hab =>
    cases hbc with
    | some hbc => exact .some (hab.trans hbc)

/-- Waking up does not change the use by the onion. -/
theorem usedByOnion_wakeUp (tcpCon : TcpCon) :
    usedByOnion (if tcpCon.status = .sleeping then { tcpCon with unsleep := true } else tcpCon) =
      usedByOnion tcpCon := by
  split <;> rfl

/-- A relay that is given up is not used by the onion. -/
theorem usedByOnion_drop (tcpCon : TcpCon) :
    ¬usedByOnion (if tcpCon.status ≠ .none then { tcpCon with onion := false } else tcpCon) = true := by
  intro hused
  have hboth := of_decide_eq_true hused
  split at hboth
  · exact Bool.false_ne_true hboth.2
  · rename_i hfree
    exact hfree hboth.1

/-- The onion takes relays, asks them to wake up, or drops them. -/
theorem setTcpOnionStatus_alike (tcpC : TcpConnections) (status : Bool) :
    (tcpC.setTcpOnionStatus status).2.connections = tcpC.connections ∧
      ∀ k : ℕ, Option.Rel Alike tcpC.tcpConnections[k]? (tcpC.setTcpOnionStatus status).2.tcpConnections[k]? := by
  unfold TcpConnections.setTcpOnionStatus
  split
  · exact ⟨rfl, rel_alike_refl tcpC.tcpConnections⟩
  · split
    · have halike := takeOnion_alike tcpC.onionNumConns.toNat tcpC.tcpConnections
      generalize takeOnion tcpC.onionNumConns.toNat tcpC.tcpConnections = took at halike
      obtain ⟨taken, relays⟩ := took
      refine ⟨rfl, fun k => ?_⟩
      dsimp only
      split
      · exact rel_alike_trans (halike k) (rel_alike_map alike_wakeUp relays k)
      · exact halike k
    · exact ⟨rfl, rel_alike_map alike_drop tcpC.tcpConnections⟩

/-- The onion takes relays or gives them up. -/
theorem Sound.setTcpOnionStatus (h : tcpC.Sound) (status : Bool) : (tcpC.setTcpOnionStatus status).2.Sound := by
  unfold TcpConnections.setTcpOnionStatus
  split
  · exact h
  · rename_i hchanged
    split
    · rename_i hon
      have hoff : tcpC.onionStatus = false := by
        rw [hon] at hchanged
        exact Bool.eq_false_iff.mpr hchanged
      have hzero : tcpC.onionNumConns.toNat = 0 := by rw [h.onionOff hoff]; rfl
      have hnone := h.onion
      have hcount := takeOnion_count tcpC.onionNumConns.toNat tcpC.tcpConnections
      have hle := takeOnion_le tcpC.onionNumConns.toNat tcpC.tcpConnections (by rw [hzero]; decide)
      have halike := takeOnion_alike tcpC.onionNumConns.toNat tcpC.tcpConnections
      generalize takeOnion tcpC.onionNumConns.toNat tcpC.tcpConnections = took at hcount hle halike
      obtain ⟨taken, relays⟩ := took
      dsimp only at hcount hle halike ⊢
      have hnum : (UInt16.ofNat taken).toNat = taken := UInt16.toNat_ofNat_of_lt' (by
        rw [show numOnionTcpConnections = 3 from rfl] at hle
        exact lt_of_le_of_lt hle (by decide))
      have hused : taken = relays.countP usedByOnion := by omega
      refine h.setRelays (fun k => ?_) ?_ (by rw [hnum]; exact hle) nofun
      · split
        · exact rel_alike_trans (halike k) (rel_alike_map alike_wakeUp relays k)
        · exact halike k
      · rw [hnum]
        split
        · rw [countP_map, show usedByOnion ∘ (fun tcpCon : TcpCon => if tcpCon.status = .sleeping then
            { tcpCon with unsleep := true } else tcpCon) = usedByOnion from funext usedByOnion_wakeUp]
          exact hused
        · exact hused
    · have hall : (tcpC.tcpConnections.countP fun tcpCon => tcpCon.status ≠ .none ∧ tcpCon.onion) =
          tcpC.onionNumConns.toNat := h.onion.symm
      have hzero : tcpC.onionNumConns - UInt16.ofNat
          (tcpC.tcpConnections.countP fun tcpCon => tcpCon.status ≠ .none ∧ tcpCon.onion) = 0 := by
        rw [hall, UInt16.ofNat_toNat, UInt16.sub_self]
      dsimp only
      rw [hzero]
      refine h.setRelays (rel_alike_map alike_drop tcpC.tcpConnections) ?_ (Nat.zero_le _) fun _ => rfl
      rw [countP_map]
      exact (countP_eq_zero.mpr fun t _ => usedByOnion_drop t).symm

/-! ## The tick -/

/-- A relay comes online, and the onion may take it. -/
theorem tcpRelayOnOnline_eq (env : TcpConnEnv) (hget : tcpC.getTcpConnection k = some tcpCon) :
    ∃ connection time, tcpC.tcpRelayOnOnline env k =
        { tcpC.setTcpConnection k { tcpCon with
            connection := connection
            status := .connected
            connectedTime := time
            onion := if tcpC.onionStatus ∧ tcpC.onionNumConns < UInt16.ofNat numOnionTcpConnections then true
              else tcpCon.onion } with
          onionNumConns := if tcpC.onionStatus ∧ tcpC.onionNumConns < UInt16.ofNat numOnionTcpConnections then
            tcpC.onionNumConns + 1 else tcpC.onionNumConns } ∧
      SameRelay tcpCon { tcpCon with connection := connection } := by
  obtain ⟨sent, hsent, hsame⟩ := sendRequests_eq env.writes hget (List.range tcpC.connections.length)
  have hlive := (getTcpConnection_eq_some.mp hget).2
  have hget' := getTcpConnection_set_self { tcpCon with connection := sent } hget hlive
  unfold TcpConnections.tcpRelayOnOnline
  generalize sendRequests env.writes k (List.range tcpC.connections.length) tcpC = requests at hsent
  obtain ⟨count, next⟩ := requests
  dsimp only at hsent ⊢
  subst hsent
  refine ⟨sent.map fun connection => { connection with callbacks := true }, if count ≠ 0 then env.unixTime else 0, ?_,
    hsame.trans (.mapClient { tcpCon with connection := sent } fun _ => rfl)⟩
  rw [modify_eq_set (getTcpConnection_eq_some.mp hget').1]
  unfold setTcpConnection
  dsimp only
  rw [set_set]

section

variable (h : tcpC.Sound)
include h

/-- The onion takes a connected relay. -/
theorem Sound.takeRelay (hget : tcpC.getTcpConnection k = some tcpCon) (hconnected : tcpCon.status = .connected)
    (honion : tcpCon.onion = false)
    (htakes : tcpC.onionStatus ∧ tcpC.onionNumConns < UInt16.ofNat numOnionTcpConnections) :
    { tcpC with
      tcpConnections := tcpC.tcpConnections.set k { tcpCon with onion := true }
      onionNumConns := tcpC.onionNumConns + 1 }.Sound := by
  have hold := (getTcpConnection_eq_some.mp hget).1
  have hfewer : tcpC.onionNumConns.toNat < 3 := UInt16.lt_iff_toNat_lt.mp htakes.2
  have hnum : (tcpC.onionNumConns + 1).toNat = tcpC.onionNumConns.toNat + 1 := by
    rw [UInt16.toNat_add, UInt16.toNat_one]
    omega
  refine h.setRelays (fun l => ?_) ?_ (by rw [hnum]; exact hfewer) fun hoff => ?_
  · by_cases hlk : k = l
    · subst hlk
      rw [hold, getElem?_set_self (List.getElem?_eq_some_iff.mp hold).1]
      exact .some ⟨rfl, rfl, rfl, fun _ => .inr hconnected, fun hfree =>
        (nomatch hconnected.symm.trans hfree), rfl, rfl⟩
    · rw [getElem?_set_ne hlk]
      exact rel_alike_refl tcpC.tcpConnections l
  · have hset := countP_set (p := usedByOnion) hold { tcpCon with onion := true }
    have hbefore : usedByOnion tcpCon = false := decide_eq_false fun hused =>
      Bool.false_ne_true (honion.symm.trans hused.2)
    have hafter : usedByOnion { tcpCon with onion := true } = true :=
      decide_eq_true ⟨(getTcpConnection_eq_some.mp hget).2, rfl⟩
    rw [hbefore, hafter] at hset
    rw [hnum, h.onion]
    exact hset.symm
  · rw [htakes.1] at hoff
    nomatch hoff

/-- A relay comes online. -/
theorem Sound.tcpRelayOnOnline (env : TcpConnEnv) (hget : tcpC.getTcpConnection k = some tcpCon)
    (hvalid : tcpCon.status = .valid) : (tcpC.tcpRelayOnOnline env k).Sound := by
  obtain ⟨connection, time, heq, hsame⟩ := tcpRelayOnOnline_eq env hget
  have hfit := h.fit k tcpCon hget
  have honion : tcpCon.onion = false := by
    refine Bool.eq_false_iff.mpr fun honion => ?_
    have hconnected := hfit.onion honion
    rw [hvalid] at hconnected
    nomatch hconnected
  have hawake : tcpCon.status ≠ .sleeping := by
    rw [hvalid]
    nofun
  have hkey : connection.map TcpClientConnection.publicKey = tcpCon.key? := by
    rw [← hsame.key]
    exact (if_neg hawake).symm
  have hconnection : connection.isSome := by
    rw [show connection.isSome = tcpCon.connection.isSome from hsame.connection]
    exact hfit.client.mpr hawake
  have honline : (tcpC.setTcpConnection k { tcpCon with
      connection := connection, status := .connected, connectedTime := time }).Sound :=
    h.setRelay hget nofun hkey ⟨⟨fun _ => nofun, fun _ => hconnection⟩, fun _ => rfl⟩ rfl
  rw [heq]
  by_cases htakes : tcpC.onionStatus ∧ tcpC.onionNumConns < UInt16.ofNat numOnionTcpConnections
  · simp only [if_pos htakes]
    have hget' :=
      getTcpConnection_set_self { tcpCon with connection := connection, status := .connected, connectedTime := time }
      hget nofun
    have htaken := honline.takeRelay hget' rfl honion htakes
    unfold setTcpConnection at htaken ⊢
    dsimp only at htaken ⊢
    rw [set_set] at htaken
    exact htaken
  · simp only [if_neg htakes]
    exact honline

end

/-! ## What relays that come and go keep -/

namespace KeptByRelays

variable {P : TcpConnections → Prop} (hP : KeptByRelays P) (h : P tcpC)
include hP h

/-- A relay is added for all connections. -/
theorem addTcpRelayGlobal (env : TcpConnEnv) (ipPort : IpPort) (relayPk : PublicKey) :
    P (tcpC.addTcpRelayGlobal env ipPort relayPk).2 := by
  unfold TcpConnections.addTcpRelayGlobal
  cases hfind : tcpC.findTcpConnectionRelay relayPk with
  | some => exact h
  | none => exact hP.addRelay h hfind

/-- A relay is added to a connection by its number. -/
theorem addTcpNumberRelayConnection (env : TcpConnEnv) (n k : ℕ) : P (tcpC.addTcpNumberRelayConnection env n k).2 := by
  unfold TcpConnections.addTcpNumberRelayConnection
  split
  · rename_i conTo tcpCon hconn hget
    have hlive := (getTcpConnection_eq_some.mp hget).2
    have hwoken : P (tcpC.setTcpConnection k (if conTo.status ≠ .sleeping ∧ tcpCon.status = .sleeping then
        { tcpCon with unsleep := true } else tcpCon)) ∧ (if conTo.status ≠ .sleeping ∧ tcpCon.status = .sleeping then
          { tcpCon with unsleep := true } else tcpCon).status ≠ .none := by
      split
      · exact ⟨hP.mark h hget true tcpCon.connectedTime, hlive⟩
      · exact ⟨(setTcpConnection_same hget).symm ▸ h, hlive⟩
    generalize (if conTo.status ≠ .sleeping ∧ tcpCon.status = .sleeping then { tcpCon with unsleep := true }
      else tcpCon) = tcpCon' at hwoken
    have hget' := getTcpConnection_set_self tcpCon' hget hwoken.2
    have hconn' : (tcpC.setTcpConnection k tcpCon').getConnection n = some conTo := hconn
    dsimp only
    generalize tcpC.setTcpConnection k tcpCon' = woken at hwoken hget' hconn'
    cases hadd : conTo.addTcpConnectionToConn k with
    | none => exact hwoken.1
    | some conTo' =>
      have hput := hP.addSlot hwoken.1 hconn' (by rw [hget']; rfl) hadd
      have hget'' : (woken.setConnection n conTo').getTcpConnection k = some tcpCon' := hget'
      dsimp only
      split
      · have hsent := hP.request hput (env.writes n) k conTo'.publicKey
        obtain ⟨connection, heq, -⟩ := sendTcpRelayRoutingRequest_eq (env.writes n) hget'' conTo'.publicKey
        generalize (woken.setConnection n conTo').sendTcpRelayRoutingRequest (env.writes n) k conTo'.publicKey = sent
          at hsent heq
        obtain ⟨_ | _, next⟩ := sent
        · exact hsent
        · dsimp only at heq hsent ⊢
          have hrelay := getTcpConnection_set_self { tcpCon' with connection := connection } hget'' hwoken.2
          rw [← heq] at hrelay
          rw [modify_relay hrelay]
          exact hP.mark hsent hrelay tcpCon'.unsleep env.unixTime
      · exact hput
  · exact h

/-- A relay is added to a connection. -/
theorem addTcpRelayConnection (env : TcpConnEnv) (n : ℕ) (ipPort : IpPort) (relayPk : PublicKey) :
    P (tcpC.addTcpRelayConnection env n ipPort relayPk).2 := by
  unfold TcpConnections.addTcpRelayConnection
  cases hconn : tcpC.getConnection n with
  | none => exact h
  | some conTo =>
    dsimp only
    cases hfind : tcpC.findTcpConnectionRelay relayPk with
    | some k => exact hP.addTcpNumberRelayConnection h env n k
    | none =>
      dsimp only
      split
      · exact h
      · have hadded : P (tcpC.addTcpRelayInstance env ipPort relayPk).2 := hP.addRelay h hfind
        generalize hmade : tcpC.addTcpRelayInstance env ipPort relayPk = made at hadded
        obtain ⟨added, next⟩ := made
        obtain ⟨-, hsame, hrelay⟩ := (hP.sound h).addTcpRelayInstance hfind hmade
        cases added with
        | none => exact hadded
        | some k =>
          dsimp only
          cases hadd : conTo.addTcpConnectionToConn k with
          | none => exact hadded
          | some conTo' =>
            have hconn' : next.getConnection n = some conTo := by
              rw [getConnection, hsame]
              exact hconn
            exact hP.addSlot hadded hconn' (hrelay k rfl) hadd

/-- A relay is connected again. -/
theorem reconnectTcpRelayConnection (connects : Bool) (k : ℕ) : P (tcpC.reconnectTcpRelayConnection connects k).2 := by
  unfold TcpConnections.reconnectTcpRelayConnection
  cases hget : tcpC.getTcpConnection k with
  | none => exact h
  | some tcpCon =>
    dsimp only
    split
    · exact h
    · exact h
    · rename_i connection hconnection hawake
      cases hnew : TcpClientConnection.new connects connection.ipPort connection.publicKey with
      | none =>
        dsimp only
        rw [killTcpRelayConnection_set { tcpCon with connection := none } hget (getTcpConnection_eq_some.mp hget).2 rfl]
        exact hP.kill h k
      | some connection' => exact hP.reset h hget hawake hconnection hnew

/-- A relay that is to wake up does. -/
theorem wakeRelay (env : TcpConnEnv) (k : ℕ) : P (tcpC.wakeRelay env k) := by
  unfold TcpConnections.wakeRelay
  cases hget : tcpC.getTcpConnection k with
  | none => exact h
  | some tcpCon =>
    dsimp only
    split
    · rename_i hwakes
      rw [unsleepTcpRelayConnection, hget]
      dsimp only
      rw [if_neg (not_not.mpr hwakes.1)]
      cases hnew : TcpClientConnection.new env.connects tcpCon.ipPort tcpCon.relayPk with
      | none => exact hP.kill h k
      | some connection => exact hP.wake h hget hwakes.1 hnew
    · exact h

/-- A relay comes online, if it does. -/
theorem comesOnline (env : TcpConnEnv) (confirmed : Bool) (hget : tcpC.getTcpConnection k = some tcpCon) :
    P (if tcpCon.status = .valid ∧ confirmed then tcpC.tcpRelayOnOnline env k else tcpC) := by
  split
  · rename_i hcomes
    exact hP.online h hget hcomes.1
  · exact h

/-- What is done after the connection of a relay. -/
theorem afterTcpConnection (env : TcpConnEnv) (confirmed disconnected : Bool) (k : ℕ) :
    P (tcpC.afterTcpConnection env confirmed disconnected k) := by
  unfold TcpConnections.afterTcpConnection
  cases hget : tcpC.getTcpConnection k with
  | none => exact h
  | some tcpCon =>
    dsimp only
    split
    · exact hP.wakeRelay h env k
    · exact h
    · split
      · split
        · exact hP.reconnectTcpRelayConnection h env.connects k
        · exact hP.kill h k
      · have honline := hP.comesOnline h env confirmed hget
        refine hP.wakeRelay ?_ env k
        unfold TcpConnections.serveRelay
        dsimp only
        split
        · exact honline
        · split
          · exact hP.sleep honline k
          · exact honline

/-- Relays that nobody uses are killed. -/
theorem killNonusedTcp (env : TcpConnEnv) : P (tcpC.killNonusedTcp env) := by
  unfold TcpConnections.killNonusedTcp
  induction tcpC.toKill env generalizing tcpC with
  | nil => exact h
  | cons k rest ih => exact ih (hP.kill h k)

/-- A step keeps it if it is none of a connection that is killed, wakes up or falls asleep, and no packet of a relay. -/
theorem step (event : TcpConnEvent) (hkill : ∀ n, event = .killTcpConnectionTo n → P (tcpC.killTcpConnectionTo n).2)
    (hstatus : ∀ n status, event = .setTcpConnectionToStatus n status → P (tcpC.setTcpConnectionToStatus n status).2)
    (hreceive : ∀ k data, event = .receive k data → P (tcpC.receive k data).2) : P (tcpC.step event) := by
  cases event with
  | newTcpConnectionTo env publicKey id => exact hP.newConnection h env publicKey id
  | killTcpConnectionTo n => exact hkill n rfl
  | setTcpConnectionToStatus n status => exact hstatus n status rfl
  | addTcpRelayGlobal env ipPort relayPk => exact hP.addTcpRelayGlobal h env ipPort relayPk
  | addTcpRelayConnection env n ipPort relayPk => exact hP.addTcpRelayConnection h env n ipPort relayPk
  | addTcpNumberRelayConnection env n k => exact hP.addTcpNumberRelayConnection h env n k
  | setTcpOnionStatus status => exact hP.onion h status
  | receive k data => exact hreceive k data rfl
  | afterTcpConnection env confirmed disconnected k => exact hP.afterTcpConnection h env confirmed disconnected k
  | killNonusedTcp env => exact hP.killNonusedTcp h env

end KeptByRelays

/-- The tables stay sound in all that is done with relays. -/
theorem sound_keptByRelays : KeptByRelays Sound where
  sound h := h
  newConnection h := h.newTcpConnectionTo
  onion h := h.setTcpOnionStatus
  mark h hget _ _ := h.setSameRelay hget ⟨rfl, rfl, rfl, rfl⟩
  request h := h.sendTcpRelayRoutingRequest
  addSlot h := h.addSlot
  addRelay h hfind := (h.addTcpRelayInstance hfind rfl).1
  kill h := h.killTcpRelayConnection
  reset h hget hawake hconnection hnew := by
    refine h.resetRelay hget nofun ?_ ⟨⟨fun _ => nofun, fun _ => rfl⟩, nofun⟩ rfl
    rw [key_awake hawake hconnection]
    exact congrArg some (publicKey_new hnew)
  sleep h := h.sleepTcpRelayConnection
  wake {tcpC k tcpCon _ _} h hget hasleep hnew := by
    refine h.setRelay hget nofun ?_ ⟨⟨fun _ => nofun, fun _ => rfl⟩, fun honion => ?_⟩ rfl
    · rw [show tcpCon.key? = some tcpCon.relayPk from if_pos hasleep]
      exact congrArg some (publicKey_new hnew)
    · have hconnected := (h.fit k tcpCon hget).onion honion
      rw [hasleep] at hconnected
      nomatch hconnected
  online h := h.tcpRelayOnOnline _

/-- An event keeps the tables sound. -/
theorem Sound.step (h : tcpC.Sound) (event : TcpConnEvent) : (tcpC.step event).Sound :=
  sound_keptByRelays.step h event (fun n _ => h.killTcpConnectionTo n) (fun n status _ =>
    h.setTcpConnectionToStatus n status)
    fun k data _ => h.receive k data

/-! ## Runs -/

/-- There is nothing at the start. -/
theorem sound_new : new.Sound where
  keys _ _ _ _ ha := nomatch ha
  relayKeys _ _ _ _ hs := nomatch hs
  named _ _ _ _ ha := nomatch ha
  once _ _ ha := nomatch ha
  fit _ _ ht := nomatch ht
  onion := rfl
  onionMax := Nat.zero_le _
  onionOff _ := rfl
  clean := ⟨nofun, nofun⟩

/-- A run keeps the tables sound. -/
theorem Sound.run (h : tcpC.Sound) (events : List TcpConnEvent) : (tcpC.run events).Sound := by
  unfold TcpConnections.run
  induction events generalizing tcpC with
  | nil => exact h
  | cons event rest ih => exact ih (h.step event)

/-- In every state that is reached, keys of connections and of relays are distinct, every relay that a connection
names is in use and is named once, a relay has a TCP connection exactly when it does not sleep, and the relays that
the onion uses are counted, are not too many, and are none while the onion is off. -/
theorem tables_hold (events : List TcpConnEvent) :
    (∀ m n a b, (new.run events).getConnection m = some a → (new.run events).getConnection n = some b →
      a.publicKey = b.publicKey → m = n) ∧
    (∀ k l s t, (new.run events).getTcpConnection k = some s → (new.run events).getTcpConnection l = some t →
      s.key? = t.key? → k = l) ∧
    (∀ n a i k, (new.run events).getConnection n = some a → (a.connections i).tcpConnection = some k →
      (∃ t, (new.run events).getTcpConnection k = some t) ∧
        ∀ j, (a.connections j).tcpConnection = some k → j = i) ∧
    (∀ k t, (new.run events).getTcpConnection k = some t → (t.connection.isSome ↔ t.status ≠ .sleeping)) ∧
    (new.run events).onionNumConns.toNat =
      (new.run events).tcpConnections.countP (fun t => t.status ≠ .none ∧ t.onion) ∧
    (new.run events).onionNumConns.toNat ≤ numOnionTcpConnections ∧
    ((new.run events).onionStatus = false → (new.run events).onionNumConns = 0) := by
  have h := sound_new.run events
  refine ⟨h.keys, h.relayKeys, fun n a i k ha hi => ⟨?_, fun j hj => h.once n a ha j i k hj hi⟩,
    fun k t ht => (h.fit k t ht).client, h.onion, h.onionMax, h.onionOff⟩
  exact isSome_iff_exists.mp (h.named n a i k ha hi)

end TcpConnections

end Toxcore
