import Toxcore.Tcp.PortOwners

/-!
# Connections that are killed

`kill_tcp_connection_to` asks every connected relay of a connection to close the port that the slot names. A slot that
waits for its port names port 0, which may be the port of another connection, and a relay that answers twice leaves a
second port behind that no slot names. Where neither happens, a kill closes the ports of the connection alone, and
every other connection sends as before.
-/

namespace Toxcore

open ByteStrings TableView Function Option

/-! ## Sending -/

/-- What becomes of writes to the relays: whether the pings that are due are taken, and what is returned for a
packet. -/
structure RelayWrites where
  pings : ℕ → Bool
  packet : ℕ → Bytes → ℤ

/-- `send_data`. -/
def TcpClientConnection.sendData (connection : TcpClientConnection) (pings : Bool) (write : Bytes → ℤ) (conId : UInt8)
    (data : Bytes) : ℤ :=
  if h : conId.toNat < numClientConnections then
    if (connection.connections ⟨conId.toNat, h⟩).status ≠ .online then -1
    else if pings then write ((conId + UInt8.ofNat numReservedPorts) :: data)
    else 0
  else -1

/-- `send_oob_packet`. -/
def sendOobPacket (write : Bytes → ℤ) (publicKey : PublicKey) (data : Bytes) : ℤ :=
  if data.length = 0 ∨
    data.length > tcpMaxOobDataLength then -1 else write (tcpPacketOobSend :: (publicKey.toList ++ data))

namespace TcpConnections

variable {tcpC next : TcpConnections} {n k : ℕ} {key : PublicKey} {slot : RelaySlot} {conTo conTo' : TcpConnectionTo}
  {tcpCon tcpCon' : TcpCon}

/-- What is returned for data on a slot that is online, where the relay is in use. A relay without a TCP connection
has no online slots. -/
def sendToSlot (tcpC : TcpConnections) (writes : RelayWrites) (data : Bytes) (slot : RelaySlot) : Option ℤ :=
  match slot.tcpConnection with
  | none => none
  | some k =>
    if slot.status = .online then
      (tcpC.getTcpConnection k).map fun tcpCon =>
        (tcpCon.connection.map fun connection =>
          connection.sendData (writes.pings k) (writes.packet k) slot.connectionId data).getD (-1)
    else none

/-- The first loop of `send_packet_tcp_connection`: what was returned last, and whether a relay could not take the
data. -/
def sendOnline (tcpC : TcpConnections) (writes : RelayWrites) (data : Bytes) : List RelaySlot → ℤ → Bool → ℤ × Bool
  | [], ret, limitReached => (ret, limitReached)
  | slot :: rest, ret, limitReached =>
    match tcpC.sendToSlot writes data slot with
    | none => sendOnline tcpC writes data rest ret limitReached
    | some ret =>
      let limitReached := limitReached || ret = 0
      if ret = 1 then (ret, limitReached) else sendOnline tcpC writes data rest ret limitReached

/-- Whether data is sent out of band on a slot that is registered, in the second loop of
`send_packet_tcp_connection`. -/
def sendOobToSlot (tcpC : TcpConnections) (writes : RelayWrites) (publicKey : PublicKey) (data : Bytes)
    (slot : RelaySlot) : Bool :=
  match slot.tcpConnection with
  | none => false
  | some k =>
    slot.status = .registered ∧ (tcpC.getTcpConnection k).isSome ∧ sendOobPacket (writes.packet k) publicKey data = 1

/-- `send_packet_tcp_connection`, with the return value 0 as `true`. -/
def sendPacketTcpConnection (tcpC : TcpConnections) (writes : RelayWrites) (connectionsNumber : ℕ)
    (packet : Bytes) : Bool :=
  match tcpC.getConnection connectionsNumber with
  | none => false
  | some conTo =>
    let slots := (List.finRange maxFriendTcpConnections).map conTo.connections
    let (ret, limitReached) := tcpC.sendOnline writes packet slots (-1) false
    if ret = 1 then true
    else if limitReached then false
    else slots.any (tcpC.sendOobToSlot writes conTo.publicKey packet)

/-- The same is returned for every slot, so the same is sent. -/
theorem sendOnline_congr {writes : RelayWrites} {data : Bytes} {slots : List RelaySlot}
    (h : ∀ slot ∈ slots, next.sendToSlot writes data slot = tcpC.sendToSlot writes data slot) (ret : ℤ)
    (limitReached : Bool) :
    next.sendOnline writes data slots ret limitReached = tcpC.sendOnline writes data slots ret limitReached := by
  induction slots generalizing ret limitReached with
  | nil => rfl
  | cons slot rest ih =>
    obtain ⟨hslot, hrest⟩ := List.forall_mem_cons.mp h
    unfold sendOnline
    rw [hslot]
    cases tcpC.sendToSlot writes data slot with
    | none => exact ih hrest ret limitReached
    | some ret =>
      dsimp only
      split
      · rfl
      · exact ih hrest ret _

/-- A connection that is online through a relay can send there: its port is online too. -/
theorem sendToSlot_seat {r : RelayPorts} {c : Fin numClientConnections} (hr : tcpC.portsOf k = some r)
    (hid : slot.connectionId = UInt8.ofNat c.val) (hport : r.ports c = seatPort n key slot)
    (hnames : slot.tcpConnection = some k)
    (honline : slot.status = .online) (writes : RelayWrites) (data : Bytes) : tcpC.sendToSlot writes data slot =
      some (if writes.pings k then writes.packet k ((slot.connectionId + UInt8.ofNat numReservedPorts) ::
        data) else 0) := by
  obtain ⟨tcpCon, hget, hports⟩ := bind_eq_some_iff.mp hr
  obtain ⟨connection, hconnection, rfl⟩ := map_eq_some_iff.mp hports
  have hval : (UInt8.ofNat c.val).toNat = c.val := UInt8.toNat_ofNat_of_lt' (c.isLt.trans (by decide))
  have hstatus : (connection.connections c).status = .online := by
    rw [congrArg TcpClientPort.status hport, seatPort]
    exact if_pos honline
  rw [sendToSlot, hnames]
  dsimp only
  rw [if_pos honline, hget, map_some, hconnection, map_some, getD_some, TcpClientConnection.sendData, hid,
    dif_pos (by rw [hval]; exact c.isLt)]
  simp only [hval, Fin.eta]
  rw [if_neg (not_not.mpr hstatus)]

/-! ## Careful kills -/

/-- A port that a kill would close is one of the connection. This can only fail where a slot waits for its port. -/
def ClosesOwn (tcpC : TcpConnections) (n : ℕ) : Prop :=
  ∀ conTo i k tcpCon connection, tcpC.getConnection n = some conTo → (conTo.connections i).tcpConnection = some k →
    tcpC.getTcpConnection k = some tcpCon → tcpCon.status = .connected → tcpCon.connection = some connection →
    (conTo.connections i).status = .none → ∀ h : (conTo.connections i).connectionId.toNat < numClientConnections,
      (connection.connections ⟨_, h⟩).status ≠ .unused ∧ (connection.connections ⟨_, h⟩).publicKey = conTo.publicKey

/-- Every port with the number of a connection is the one that its slot on the relay names, so a kill leaves none
behind. -/
def LeavesNone (tcpC : TcpConnections) (n : ℕ) : Prop :=
  ∀ conTo i k tcpCon connection, tcpC.getConnection n = some conTo → (conTo.connections i).tcpConnection = some k →
    tcpC.getTcpConnection k = some tcpCon → tcpCon.connection = some connection → ∀ c : Fin numClientConnections,
      (connection.connections c).status ≠ .unused → (connection.connections c).number = UInt32.ofNat n →
      (conTo.connections i).connectionId = UInt8.ofNat c.val

/-- A connection is killed only where that closes its own ports and leaves none behind. -/
def Careful (tcpC : TcpConnections) : TcpConnEvent → Prop
  | .killTcpConnectionTo n => tcpC.ClosesOwn n ∧ tcpC.LeavesNone n
  | _ => True

/-- Every kill among some events is careful. -/
def CarefulRun (tcpC : TcpConnections) : List TcpConnEvent → Prop
  | [] => True
  | event :: rest => tcpC.Careful event ∧ (tcpC.step event).CarefulRun rest

instance (tcpC : TcpConnections) (n : ℕ) : Decidable (tcpC.ClosesOwn n) :=
  decidable_of_iff
    (∀ conTo ∈ tcpC.getConnection n, ∀ i, ∀ k ∈ (conTo.connections i).tcpConnection, ∀ tcpCon ∈ tcpC.getTcpConnection k,
      tcpCon.status = .connected → ∀ connection ∈ tcpCon.connection, (conTo.connections i).status = .none →
        ∀ h : (conTo.connections i).connectionId.toNat < numClientConnections,
          (connection.connections ⟨_, h⟩).status ≠ .unused ∧
          (connection.connections ⟨_, h⟩).publicKey = conTo.publicKey)
    ⟨fun h conTo i k tcpCon connection hget hk hrelay hs hc => h conTo hget i k hk tcpCon hrelay hs connection hc,
      fun h conTo hget i k hk tcpCon hrelay hs connection hc => h conTo i k tcpCon connection hget hk hrelay hs hc⟩

instance (tcpC : TcpConnections) (n : ℕ) : Decidable (tcpC.LeavesNone n) :=
  decidable_of_iff
    (∀ conTo ∈ tcpC.getConnection n, ∀ i, ∀ k ∈ (conTo.connections i).tcpConnection, ∀ tcpCon ∈ tcpC.getTcpConnection k,
      ∀ connection ∈ tcpCon.connection, ∀ c : Fin numClientConnections, (connection.connections c).status ≠ .unused →
        (connection.connections c).number = UInt32.ofNat n → (conTo.connections i).connectionId = UInt8.ofNat c.val)
    ⟨fun h conTo i k tcpCon connection hget hk hrelay hc => h conTo hget i k hk tcpCon hrelay connection hc,
      fun h conTo hget i k hk tcpCon hrelay connection hc => h conTo i k tcpCon connection hget hk hrelay hc⟩

/-- What a kill must do: it closes ports that are open for the key of the connection at most, and leaves all other
connections, and what they send. -/
structure KillIsolates (tcpC : TcpConnections) (n : ℕ) : Prop where
  closes : ∀ conTo k tcpCon connection, tcpC.getConnection n = some conTo → tcpC.getTcpConnection k = some tcpCon →
    tcpCon.connection = some connection → ∃ tcpCon', (tcpC.killTcpConnectionTo n).2.getTcpConnection k = some tcpCon' ∧
      (tcpCon'.connection = some connection ∨
        ∃ c : Fin numClientConnections, (connection.connections c).status ≠ .unused ∧
        (connection.connections c).publicKey = conTo.publicKey ∧
        tcpCon'.connection = some (connection.sendDisconnectRequest (UInt8.ofNat c.val)))
  others : ∀ m, m ≠ n → (tcpC.killTcpConnectionTo n).2.getConnection m = tcpC.getConnection m
  sends : ∀ m, m ≠ n → ∀ writes packet,
    (tcpC.killTcpConnectionTo n).2.sendPacketTcpConnection writes m packet =
      tcpC.sendPacketTcpConnection writes m packet

/-- The TCP connection of a relay after a kill. -/
theorem connection_release (tcpCon : TcpCon) (conTo : TcpConnectionTo) (slot : RelaySlot) :
    (tcpCon.release conTo slot).connection = if tcpCon.status = .connected then
      tcpCon.connection.map fun connection =>
        connection.sendDisconnectRequest slot.connectionId else tcpCon.connection := by
  unfold TcpCon.release
  dsimp only
  split
  · split
    · rfl
    · rfl
  · split
    · rfl
    · rfl

/-- The tables after a kill. -/
theorem views_kill (hs : tcpC.Sound) (hconn : tcpC.getConnection n = some conTo) :
    (tcpC.killTcpConnectionTo n).2.getConnection = update tcpC.getConnection n none ∧
      ∀ k, (tcpC.killTcpConnectionTo n).2.getTcpConnection k =
        (tcpC.getTcpConnection k).map fun tcpCon => (conTo.relaySlot k).elim tcpCon (tcpCon.release conTo) := by
  unfold TcpConnections.killTcpConnectionTo
  rw [hconn]
  dsimp only
  refine ⟨?_, fun k =>
    getTcpConnection_onRelays tcpC (hs.once n conTo hconn) (fun t slot => (sameRelay_release conTo t slot).status) k⟩
  have hkept (m : ℕ) :
    (tcpC.onRelays (fun tcpCon slot => tcpCon.release conTo slot) conTo).getConnection m = tcpC.getConnection m :=
    getConnection_onRelays _ conTo m
  rw [getConnection_wipe ((hkept n).trans hconn), funext hkept]

/-- What a kill does to the TCP connection of a relay: nothing, or it closes a port that is open for the key of the
connection. -/
theorem closed_own (h : tcpC.Linked) (hs : tcpC.Sound) (hconn : tcpC.getConnection n = some conTo)
    (hown : tcpC.ClosesOwn n) (hget : tcpC.getTcpConnection k = some tcpCon) {connection : TcpClientConnection}
    (hconnection : tcpCon.connection = some connection) :
    ((conTo.relaySlot k).elim tcpCon (tcpCon.release conTo)).connection = some connection ∧
        (∀ slot, conTo.relaySlot k = some slot → tcpCon.status = .connected →
          ∀ c : Fin numClientConnections, slot.connectionId ≠ UInt8.ofNat c.val) ∨
      ∃ slot, ∃ c : Fin numClientConnections, conTo.relaySlot k = some slot ∧ slot.connectionId = UInt8.ofNat c.val ∧
        tcpCon.status = .connected ∧ (connection.connections c).status ≠ .unused ∧
        (connection.connections c).publicKey = conTo.publicKey ∧
        ((conTo.relaySlot k).elim tcpCon (tcpCon.release conTo)).connection =
          some (connection.sendDisconnectRequest (UInt8.ofNat c.val)) := by
  cases hslot : conTo.relaySlot k with
  | none => exact .inl ⟨hconnection, nofun⟩
  | some slot =>
    rw [elim_some, connection_release, hconnection, map_some]
    by_cases hconnected : tcpCon.status = .connected
    · rw [if_pos hconnected]
      by_cases hlt : slot.connectionId.toNat < numClientConnections
      · obtain ⟨hnames, i, rfl⟩ := (TcpConnectionTo.relaySlot_eq_some (hs.once n conTo hconn)).mp hslot
        have hid : (conTo.connections i).connectionId = UInt8.ofNat (conTo.connections i).connectionId.toNat :=
          UInt8.ofNat_toNat.symm
        have hport : (connection.connections ⟨_, hlt⟩).status ≠ .unused ∧
            (connection.connections ⟨_, hlt⟩).publicKey = conTo.publicKey := by
          by_cases hwaits : (conTo.connections i).status = .none
          · exact hown conTo i k tcpCon connection hconn hnames hget hconnected hconnection hwaits hlt
          · have hseat := (h.seat_port (portsOf_client hget hconnection) ⟨conTo, hconn, rfl, ⟨hnames, hwaits⟩, i, rfl⟩
              (c := ⟨_, hlt⟩) hid).2
            dsimp only at hseat
            rw [hseat]
            exact ⟨seatPort_used n conTo.publicKey (conTo.connections i), rfl⟩
        exact .inr ⟨_, ⟨_, hlt⟩, rfl, hid, hconnected, hport.1, hport.2, by rw [← hid]⟩
      · left
        rw [TcpClientConnection.sendDisconnectRequest, dif_neg hlt]
        refine ⟨rfl, fun slot' hslot' _ c hid => hlt ?_⟩
        obtain rfl := some_inj.mp hslot'
        rw [hid, UInt8.toNat_ofNat_of_lt' (c.isLt.trans (by decide))]
        exact c.isLt
    · rw [if_neg hconnected]
      exact .inl ⟨rfl, fun _ _ hyes => absurd hyes hconnected⟩

/-- A kill leaves the ports of a relay, or closes one that is open for the key of the connection. -/
theorem portsOf_kill (h : tcpC.Linked) (hs : tcpC.Sound) (hconn : tcpC.getConnection n = some conTo)
    (hown : tcpC.ClosesOwn n) {r : RelayPorts} (hr : tcpC.portsOf k = some r) :
    (tcpC.killTcpConnectionTo n).2.portsOf k = some r ∧ (∀ slot, conTo.relaySlot k = some slot → r.status = .connected →
        ∀ c : Fin numClientConnections, slot.connectionId ≠ UInt8.ofNat c.val) ∨
      ∃ slot, ∃ c : Fin numClientConnections, conTo.relaySlot k = some slot ∧ slot.connectionId = UInt8.ofNat c.val ∧
        (r.ports c).publicKey = conTo.publicKey ∧ (tcpC.killTcpConnectionTo n).2.portsOf k = some { r with
          ports := update r.ports c { r.ports c with status := .unused, number := 0 } } := by
  obtain ⟨tcpCon, hget, hports⟩ := bind_eq_some_iff.mp hr
  obtain ⟨connection, hconnection, rfl⟩ := map_eq_some_iff.mp hports
  have hstatus : ((conTo.relaySlot k).elim tcpCon (tcpCon.release conTo)).status = tcpCon.status := by
    cases conTo.relaySlot k with
    | none => rfl
    | some slot => exact (sameRelay_release conTo tcpCon slot).status
  have hview : (tcpC.killTcpConnectionTo n).2.portsOf k =
    ((conTo.relaySlot k).elim tcpCon (tcpCon.release conTo)).ports? := by
    rw [portsOf, (views_kill hs hconn).2, hget, map_some, bind_some]
  rw [hview, TcpCon.ports?, hstatus]
  rcases closed_own h hs hconn hown hget hconnection with ⟨hsame, hnames⟩ | ⟨slot, c, hslot, hid, -, -, hkey, hclosed⟩
  · left
    rw [hsame, map_some]
    exact ⟨rfl, hnames⟩
  · right
    refine ⟨slot, c, hslot, hid, hkey, ?_⟩
    have hval : (UInt8.ofNat c.val).toNat = c.val := UInt8.toNat_ofNat_of_lt' (c.isLt.trans (by decide))
    rw [hclosed, map_some, TcpClientConnection.sendDisconnectRequest, dif_pos (by rw [hval]; exact c.isLt)]
    simp only [hval, Fin.eta]
    rfl

/-- A connection that is not killed keeps its port. -/
theorem seat_kill (h : tcpC.Linked) (hs : tcpC.Sound) (hconn : tcpC.getConnection n = some conTo)
    (hown : tcpC.ClosesOwn n) {m : ℕ}
    (hmn : m ≠ n) (hseated : tcpC.Seated m k key slot) : ∃ r c, (tcpC.killTcpConnectionTo n).2.portsOf k = some r ∧
      r.status = .connected ∧ slot.connectionId = UInt8.ofNat c.val ∧ r.ports c = seatPort m key slot := by
  obtain ⟨r, c, hr, hconnected, hid, hport⟩ := h.seat m k key slot hseated
  rcases portsOf_kill h hs hconn hown hr with ⟨hsame, -⟩ | ⟨-, closed, -, -, hkey, hclosed⟩
  · exact ⟨r, c, hsame, hconnected, hid, hport⟩
  · -- the port that is closed has the key of another connection
    have hne : c ≠ closed := by
      rintro rfl
      obtain ⟨other, hother, rfl, -⟩ := hseated
      rw [hport] at hkey
      exact hmn (hs.keys m n other conTo hother hconn hkey)
    exact ⟨_, c, hclosed, hconnected, hid, (update_of_ne hne ..).trans hport⟩

/-- A connection is killed. -/
theorem Linked.killTcpConnectionTo (h : tcpC.Linked) (hs : tcpC.Sound) (hown : tcpC.ClosesOwn n)
    (hnone : tcpC.LeavesNone n) :
    (tcpC.killTcpConnectionTo n).2.Linked := by
  cases hconn : tcpC.getConnection n with
  | none =>
    rw [TcpConnections.killTcpConnectionTo, hconn]
    exact h
  | some conTo =>
    obtain ⟨hconns, hrelays⟩ := views_kill hs hconn
    have hseats (m l : ℕ) (key : PublicKey) (slot : RelaySlot) : (tcpC.killTcpConnectionTo n).2.Seated m l key slot ↔
        m ≠ n ∧ tcpC.Seated m l key slot := by
      rw [Seated, hconns]
      by_cases hmn : m = n
      · subst hmn
        rw [update_self]
        exact iff_of_false (by simp) fun hboth => hboth.1 rfl
      · rw [update_of_ne hmn, and_iff_right hmn]
        rfl
    have hbefore (l : ℕ) (r' : RelayPorts) (hr' : (tcpC.killTcpConnectionTo n).2.portsOf l = some r') :
        ∃ r, tcpC.portsOf l = some r := by
      rw [portsOf, hrelays, bind_map, bind_eq_some_iff] at hr'
      obtain ⟨t, ht, hports⟩ := hr'
      have hsome : ((conTo.relaySlot l).elim t (t.release conTo)).connection.isSome = t.connection.isSome := by
        cases conTo.relaySlot l with
        | none => rfl
        | some slot => exact (sameRelay_release conTo t slot).connection
      obtain ⟨connection, hconnection, -⟩ := map_eq_some_iff.mp hports
      rw [hconnection] at hsome
      obtain ⟨connection', hconnection'⟩ := isSome_iff_exists.mp hsome.symm
      exact ⟨_, portsOf_client ht hconnection'⟩
    constructor
    case seat =>
      intro m l key slot hseated
      obtain ⟨hmn, hseated⟩ := (hseats m l key slot).mp hseated
      exact seat_kill h hs hconn hown hmn hseated
    case port =>
      intro l r' c hr' hused hnumber
      obtain ⟨r, hr⟩ := hbefore l r' hr'
      -- a port that is open after the kill was open before, and the slot of the connection does not name it
      have hopen : r'.ports c = r.ports c ∧ ∀ slot, conTo.relaySlot l = some slot → r.status = .connected →
          slot.connectionId ≠ UInt8.ofNat c.val := by
        rcases portsOf_kill h hs hconn hown hr with ⟨hsame, hnames⟩ | ⟨slot, closed, hslot, hid, -, hclosed⟩
        · obtain rfl := some_inj.mp (hsame.symm.trans hr')
          exact ⟨rfl, fun slot hslot hconnected => hnames slot hslot hconnected c⟩
        · obtain rfl := some_inj.mp (hclosed.symm.trans hr')
          have hne : c ≠ closed := by
            rintro rfl
            dsimp only at hused
            rw [update_self] at hused
            exact hused rfl
          refine ⟨update_of_ne hne .., fun slot' hslot' _ hid' => ?_⟩
          obtain rfl := some_inj.mp (hslot.symm.trans hslot')
          exact hne (portNumber_inj (hid'.symm.trans hid))
      obtain ⟨hsame, hnames⟩ := hopen
      rw [hsame] at hused hnumber ⊢
      obtain ⟨slot, hseated⟩ := h.port l r c hr hused hnumber
      refine ⟨slot, (hseats _ _ _ _).mpr ⟨fun hmn => ?_, hseated⟩⟩
      obtain ⟨r₀, -, hr₀, hconnected, -, -⟩ := h.seat _ _ _ _ hseated
      obtain rfl := some_inj.mp (hr.symm.trans hr₀)
      rw [hmn] at hseated
      obtain ⟨a, ha, -, hon, i, rfl⟩ := hseated
      obtain rfl := some_inj.mp (hconn.symm.trans ha)
      obtain ⟨tcpCon, hget, hports⟩ := bind_eq_some_iff.mp hr
      obtain ⟨connection, hconnection, rfl⟩ := map_eq_some_iff.mp hports
      have hnumber : (connection.connections c).number = UInt32.ofNat n := by
        rw [← hmn, UInt32.ofNat_toNat]
      have hid := hnone conTo i l tcpCon connection hconn hon.1 hget hconnection c hused hnumber
      exact hnames _ ((TcpConnectionTo.relaySlot_eq_some (hs.once n conTo hconn)).mpr ⟨hon.1, i, rfl⟩) hconnected hid
    case callbacks =>
      intro l r' hr'
      obtain ⟨r, hr⟩ := hbefore l r' hr'
      rcases portsOf_kill h hs hconn hown hr with ⟨hsame, -⟩ | ⟨slot, closed, -, -, -, hclosed⟩
      · obtain rfl := some_inj.mp (hsame.symm.trans hr')
        exact h.callbacks l _ hr
      · obtain rfl := some_inj.mp (hclosed.symm.trans hr')
        exact h.callbacks l r hr
    case length =>
      unfold TcpConnections.killTcpConnectionTo
      rw [hconn]
      dsimp only
      refine lt_of_le_of_lt (List.rdropWhile_prefix _ _).length_le ?_
      rw [List.length_set, onRelays_connections]
      exact h.length

/-! ## Runs -/

/-- There is nothing at the start. -/
theorem linked_new : new.Linked where
  seat _ _ _ _ hseated := nomatch hseated
  port _ _ _ hr := nomatch hr
  callbacks _ _ hr := nomatch hr
  length := by decide

/-- A careful event keeps the ports linked. -/
theorem Linked.step (h : tcpC.Linked) (hs : tcpC.Sound) (event : TcpConnEvent) (hcareful : tcpC.Careful event) :
    (tcpC.step event).Linked := by
  refine (linked_keptByRelays.step ⟨hs, h⟩ event ?_ ?_ ?_).2
  · rintro n rfl
    exact ⟨hs.killTcpConnectionTo n, h.killTcpConnectionTo hs hcareful.1 hcareful.2⟩
  · exact fun n status _ => ⟨hs.setTcpConnectionToStatus n status, h.setTcpConnectionToStatus n status⟩
  · exact fun k data _ => ⟨hs.receive k data, h.receive hs k data⟩

/-- A careful run keeps the ports linked. -/
theorem Linked.run (h : tcpC.Linked) (hs : tcpC.Sound) (events : List TcpConnEvent)
    (hcareful : tcpC.CarefulRun events) :
    (tcpC.run events).Linked := by
  unfold TcpConnections.run
  induction events generalizing tcpC with
  | nil => exact h
  | cons event rest ih => exact ih (h.step hs event hcareful.1) (hs.step event) hcareful.2

/-- Every other connection sends as before. -/
theorem sends_kill (h : tcpC.Linked) (hs : tcpC.Sound) (hconn : tcpC.getConnection n = some conTo)
    (hown : tcpC.ClosesOwn n) {m : ℕ} (hmn : m ≠ n) (writes : RelayWrites) (packet : Bytes) :
    (tcpC.killTcpConnectionTo n).2.sendPacketTcpConnection writes m packet =
      tcpC.sendPacketTcpConnection writes m packet := by
  obtain ⟨hconns, hrelays⟩ := views_kill hs hconn
  rw [sendPacketTcpConnection, sendPacketTcpConnection, hconns, update_of_ne hmn]
  cases hother : tcpC.getConnection m with
  | none => rfl
  | some other =>
    have honline (slot : RelaySlot) (hslot : slot ∈ (List.finRange maxFriendTcpConnections).map other.connections) :
        (tcpC.killTcpConnectionTo n).2.sendToSlot writes packet slot = tcpC.sendToSlot writes packet slot := by
      obtain ⟨i, -, rfl⟩ := List.mem_map.mp hslot
      by_cases hstatus : (other.connections i).status = .online
      · cases hnames : (other.connections i).tcpConnection with
        | none =>
          rw [sendToSlot, sendToSlot, hnames]
        | some k =>
          have hseated : tcpC.Seated m k other.publicKey (other.connections i) :=
            ⟨other, hother, rfl, ⟨hnames, by rw [hstatus]; nofun⟩, i, rfl⟩
          obtain ⟨r, c, hr, -, hid, hport⟩ := h.seat m k _ _ hseated
          obtain ⟨r', c', hr', -, hid', hport'⟩ := seat_kill h hs hconn hown hmn hseated
          rw [sendToSlot_seat hr hid hport hnames hstatus, sendToSlot_seat hr' hid' hport' hnames hstatus]
      · rw [sendToSlot, sendToSlot]
        split
        · rfl
        · rw [if_neg hstatus, if_neg hstatus]
    have hoob : (tcpC.killTcpConnectionTo n).2.sendOobToSlot writes other.publicKey packet =
        tcpC.sendOobToSlot writes other.publicKey packet := by
      funext slot
      rw [sendOobToSlot, sendOobToSlot]
      split
      · rfl
      · rw [hrelays, isSome_map]
    dsimp only
    rw [sendOnline_congr honline, hoob]

/-- After a history of careful kills, a kill isolates exactly if the ports it would close are the connection's own. -/
theorem kill_isolates_iff (events : List TcpConnEvent) (n : ℕ) (hcareful : new.CarefulRun events) :
    (new.run events).KillIsolates n ↔ (new.run events).ClosesOwn n := by
  have hs := sound_new.run events
  have h := linked_new.run sound_new events hcareful
  generalize new.run events = tcpC at hs h
  constructor
  · intro hisolates conTo i k tcpCon connection hconn hnames hget hconnected hconnection _ hlt
    have hslot := (TcpConnectionTo.relaySlot_eq_some (hs.once n conTo hconn)).mpr ⟨hnames, i, rfl⟩
    obtain ⟨tcpCon', hget', hcases⟩ := hisolates.closes conTo k tcpCon connection hconn hget hconnection
    have hclosed : tcpCon'.connection = some (connection.sendDisconnectRequest (conTo.connections i).connectionId) := by
      rw [(views_kill hs hconn).2, hget, map_some, hslot, elim_some] at hget'
      rw [← some_inj.mp hget', connection_release, if_pos hconnected, hconnection, map_some]
    have hsent {id : UInt8} (hid : id.toNat < numClientConnections) : (connection.sendDisconnectRequest id).sent =
        connection.sent ++ [[tcpPacketDisconnectNotification, id + UInt8.ofNat numReservedPorts]] := by
      rw [TcpClientConnection.sendDisconnectRequest, dif_pos hid]
      rfl
    rw [hclosed] at hcases
    rcases hcases with hsame | ⟨c, hused, hkey, hsame⟩
    · have hlength := congrArg List.length (congrArg TcpClientConnection.sent (some_inj.mp hsame))
      rw [hsent hlt, List.length_append] at hlength
      exact absurd hlength (Nat.succ_ne_self _)
    · have hval : (UInt8.ofNat c.val).toNat = c.val := UInt8.toNat_ofNat_of_lt' (c.isLt.trans (by decide))
      have hpackets := congrArg TcpClientConnection.sent (some_inj.mp hsame)
      rw [hsent hlt, hsent (by rw [hval]; exact c.isLt)] at hpackets
      have hid := List.cons.inj (List.cons.inj (List.cons.inj (List.append_cancel_left hpackets)).1).2
      have hport : (⟨_, hlt⟩ : Fin numClientConnections) = c := by
        refine Fin.ext ?_
        rw [← hval]
        exact congrArg UInt8.toNat ((UInt8.add_left_inj _).mp hid.1)
      rw [hport]
      exact ⟨hused, hkey⟩
  · intro hown
    cases hconn : tcpC.getConnection n with
    | none =>
      have hsame : (tcpC.killTcpConnectionTo n).2 = tcpC := by
        rw [TcpConnections.killTcpConnectionTo, hconn]
      refine ⟨fun conTo k tcpCon connection hget => absurd (hconn.symm.trans hget) (some_ne_none _).symm,
        fun m _ => ?_, fun m _ writes packet => ?_⟩
      · rw [hsame]
      · rw [hsame]
    | some conTo =>
      refine ⟨fun conTo' k tcpCon connection hget hrelay hconnection => ?_, fun m hmn => ?_, fun m hmn writes packet =>
        sends_kill h hs hconn hown hmn writes packet⟩
      · obtain rfl := some_inj.mp (hconn.symm.trans hget)
        refine ⟨_, by rw [(views_kill hs hconn).2, hrelay, map_some], ?_⟩
        rcases closed_own h hs hconn hown hrelay hconnection with ⟨hsame, -⟩ | ⟨slot, c, -, -, -, hused, hkey, hclosed⟩
        · exact .inl hsame
        · exact .inr ⟨c, hused, hkey, hclosed⟩
      · rw [(views_kill hs hconn).1, update_of_ne hmn]

/-- A connection is tied to the first relay, and gets a port there. -/
def tied (n : ℕ) (port : UInt8) (key : UInt8) : List TcpConnEvent :=
  let env : TcpConnEnv := ⟨0, true, true, fun _ => true⟩
  [.newTcpConnectionTo env (slice 32 (List.replicate 32 key) 0) 5, .addTcpNumberRelayConnection env n 0,
    .receive 0 (tcpPacketRoutingResponse :: port :: List.replicate 32 key),
      .receive 0 [tcpPacketConnectionNotification, port]]

/-- The application connects to a relay, and a connection is online there on port 0. -/
def relayed : List TcpConnEvent :=
  let env : TcpConnEnv := ⟨0, true, true, fun _ => true⟩
  [.addTcpRelayGlobal env ⟨⟨afInet, slice 7 [] 0, slice 16 [] 0⟩, 0, slice 6 [] 0⟩ (slice 32 [2] 0),
    .afterTcpConnection env true false 0] ++ tied 0 16 1

/-- Two connections are online through one relay. The second is killed, and another one takes its number and its
port. -/
def retiedEvents : List TcpConnEvent := relayed ++ tied 1 17 3 ++ [.killTcpConnectionTo 1] ++ tied 1 17 4

/-- Both are online, and the kill of the second one isolates, after the careful kill of its predecessor. -/
theorem kill_isolates_retied : new.CarefulRun retiedEvents ∧
    (new.run retiedEvents).connections.map (fun conTo => (conTo.connections 0).status) = [.online, .online] ∧
    (new.run retiedEvents).KillIsolates 1 := by
  have hcareful : new.CarefulRun retiedEvents :=
    ⟨trivial, trivial, trivial, trivial, trivial, trivial, trivial, trivial, trivial, trivial,
      ⟨by decide +kernel, by decide +kernel⟩, trivial, trivial, trivial, trivial, trivial⟩
  exact ⟨hcareful, by decide +kernel, (kill_isolates_iff retiedEvents 1 hcareful).mpr (by decide +kernel)⟩

/-- A connection is online on port 0 of a relay, and another one waits for its port. -/
def waitingEvents : List TcpConnEvent := relayed ++ (tied 1 17 3).take 2

/-- The connection that waits is killed, and the one that is online cannot send any more. -/
theorem waiting_kill_disconnects : ¬∀ events n, (new.run events).KillIsolates n := by
  intro h
  have hsends := (h waitingEvents 1).sends 0 (by decide) ⟨fun _ => true, fun _ _ => 1⟩ [160]
  exact absurd hsends (by decide)

end TcpConnections

end Toxcore
