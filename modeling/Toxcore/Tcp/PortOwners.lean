import Toxcore.Tcp.RelayCounters

/-!
# The ports of connections

A connection that is registered or online on a relay has a port there, and the port has the number of the connection.
Both sides name the other, and callbacks and packets go wherever the names lead: a port that is closed for one
connection while another one names it, or that outlives its connection, connects the wrong ones.
-/

namespace Toxcore

open ByteStrings TableView Function List Option

/-- A slot is registered or online on a relay. -/
def RelaySlot.On (slot : RelaySlot) (k : ℕ) : Prop := slot.tcpConnection = some k ∧ slot.status ≠ .none

namespace TcpConnectionTo

variable {conTo conTo' : TcpConnectionTo} {k l : ℕ} {slot : RelaySlot}

/-- A connection has a slot that is registered or online on a relay. -/
def Seated (conTo : TcpConnectionTo) (k : ℕ) (slot : RelaySlot) : Prop := slot.On k ∧ ∃ i, conTo.connections i = slot

variable {i : Fin maxFriendTcpConnections}

/-- There is one slot for a relay. -/
theorem Seated.unique (honce : conTo.Once) (h : conTo.Seated k slot)
    (hi : (conTo.connections i).tcpConnection = some k) : conTo.connections i = slot := by
  obtain ⟨hon, j, rfl⟩ := h
  rw [honce i j k hi hon.1]

/-- The slot of a relay is the one that names it. -/
theorem relaySlot_eq_some (honce : conTo.Once) :
    conTo.relaySlot k = some slot ↔ slot.tcpConnection = some k ∧ ∃ i, conTo.connections i = slot := by
  rw [relaySlot]
  constructor
  · intro h
    obtain ⟨i, hi, rfl⟩ := map_eq_some_iff.mp h
    exact ⟨slotOf_some hi, i, rfl⟩
  · rintro ⟨hnames, i, rfl⟩
    cases hslot : conTo.slotOf k with
    | none => exact absurd hnames (slotOf_none hslot i)
    | some j =>
      rw [map_some, honce i j k hnames (slotOf_some hslot)]

/-- A slot is written that is not registered on the relay, before or after. -/
theorem seated_setSlot_off {new : RelaySlot} (hbefore : ¬(conTo.connections i).On k) (hafter : ¬new.On k) :
    (conTo.setSlot i new).Seated k slot ↔ conTo.Seated k slot := by
  apply and_congr_right
  intro hon
  constructor
  · rintro ⟨j, hj⟩
    by_cases hij : j = i
    · subst hij
      rw [setSlot_self] at hj
      exact absurd (hj ▸ hon) hafter
    · rw [setSlot_other conTo hij] at hj
      exact ⟨j, hj⟩
  · rintro ⟨j, hj⟩
    by_cases hij : j = i
    · subst hij
      exact absurd (hj ▸ hon) hbefore
    · refine ⟨j, ?_⟩
      rw [setSlot_other conTo hij]
      exact hj

theorem not_on_other (hslot : slot.tcpConnection = some k) (hlk : l ≠ k) : ¬slot.On l :=
  fun hon => hlk (some_inj.mp (hon.1.symm.trans hslot))

/-- A relay is removed from a connection. -/
theorem seated_rm (honce : conTo.Once) (k : ℕ) :
    (conTo.rmTcpConnectionFromConn k).Seated l slot ↔ l ≠ k ∧ conTo.Seated l slot := by
  by_cases hlk : l = k
  · subst hlk
    refine iff_of_false ?_ fun h => h.1 rfl
    rintro ⟨hon, i, rfl⟩
    exact rm_not_named honce l i hon.1
  · rw [and_iff_right hlk]
    unfold rmTcpConnectionFromConn
    cases hslot : conTo.slotOf k with
    | none => rfl
    | some i => exact seated_setSlot_off (not_on_other (slotOf_some hslot) hlk) fun hon => nomatch hon.1

variable {status : RelayStatus}

/-- A status is written on a relay. -/
theorem seated_set (honce : conTo.Once) {connectionId : UInt8}
    (h : conTo.setTcpConnectionStatus k status connectionId = some conTo') :
    (∀ l slot, l ≠ k → (conTo'.Seated l slot ↔ conTo.Seated l slot)) ∧
      ∀ slot, conTo'.Seated k slot ↔ status ≠ .none ∧ slot = ⟨some k, status, connectionId⟩ := by
  have honce' := (setTcpConnectionStatus_within h).once honce
  obtain ⟨i, hi, -, rfl⟩ := setTcpConnectionStatus_some h
  have hslot : { conTo.connections i with status := status, connectionId := connectionId } =
      (⟨some k, status, connectionId⟩ : RelaySlot) := by rw [← hi]
  rw [hslot] at honce' ⊢
  refine ⟨fun l slot hlk => seated_setSlot_off (not_on_other hi hlk) (not_on_other rfl hlk), fun slot => ?_⟩
  have hself : ((conTo.setSlot i ⟨some k, status, connectionId⟩).connections i) = ⟨some k, status, connectionId⟩ :=
    setSlot_self ..
  constructor
  · intro hseated
    obtain rfl := (hseated.unique honce' (congrArg RelaySlot.tcpConnection hself)).symm.trans hself
    exact ⟨hseated.1.2, rfl⟩
  · rintro ⟨hstatus, rfl⟩
    exact ⟨⟨rfl, hstatus⟩, i, hself⟩

/-- A status that cannot be written is there already. -/
theorem setTcpConnectionStatus_none (honce : conTo.Once) {connectionId : UInt8}
    (h : conTo.setTcpConnectionStatus k status connectionId = none)
    (hi : (conTo.connections i).tcpConnection = some k) : (conTo.connections i).status = status := by
  unfold setTcpConnectionStatus at h
  split at h
  · rename_i hslot
    exact absurd hi (slotOf_none hslot i)
  · rename_i j hslot
    split at h
    · rename_i hsame
      rw [honce i j k hi (slotOf_some hslot)]
      exact hsame
    · nomatch h

/-- The status on a relay is cleared. -/
theorem seated_clear (honce : conTo.Once) (k : ℕ) :
    ((conTo.setTcpConnectionStatus k .none 0).getD conTo).Seated l slot ↔ l ≠ k ∧ conTo.Seated l slot := by
  cases hset : conTo.setTcpConnectionStatus k .none 0 with
  | some conTo' =>
    obtain ⟨hother, hself⟩ := seated_set honce hset
    rw [getD_some]
    by_cases hlk : l = k
    · subst hlk
      exact iff_of_false (fun h => ((hself slot).mp h).1 rfl) fun h => h.1 rfl
    · rw [hother l slot hlk, and_iff_right hlk]
  | none =>
    rw [getD_none]
    refine ⟨fun h => ⟨?_, h⟩, And.right⟩
    rintro rfl
    obtain ⟨hon, i, rfl⟩ := h
    exact hon.2 (setTcpConnectionStatus_none honce hset hon.1)

/-- A relay that is added is not registered on yet. -/
theorem seated_add (h : conTo.addTcpConnectionToConn k = some conTo') : conTo'.Seated l slot ↔ conTo.Seated l slot := by
  obtain ⟨i, hfree, -, rfl⟩ := addTcpConnectionToConn_some h
  exact seated_setSlot_off (fun hon => nomatch hfree.symm.trans hon.1) fun hon => hon.2 rfl

end TcpConnectionTo

/-- The ports of a relay: whether it is connected, whether callbacks are set, and the ports. -/
structure RelayPorts where
  status : TcpConnStatus
  callbacks : Bool
  ports : Fin numClientConnections → TcpClientPort

/-- The ports of a relay that has a TCP connection. -/
def TcpCon.ports? (tcpCon : TcpCon) : Option RelayPorts :=
  tcpCon.connection.map fun connection => ⟨tcpCon.status, connection.callbacks, connection.connections⟩

/-- A connection without open ports or callbacks. -/
structure RelayPorts.Fresh (ports : RelayPorts) : Prop where
  callbacks : ports.callbacks = false
  status : ports.status ≠ .connected
  unused : ∀ c, (ports.ports c).status = .unused

namespace TcpConnections

variable {tcpC next : TcpConnections} {n k : ℕ} {key : PublicKey} {slot : RelaySlot} {conTo conTo' : TcpConnectionTo}
  {tcpCon tcpCon' : TcpCon}

/-- A connection in use has a slot that is registered or online on a relay. -/
def Seated (tcpC : TcpConnections) (n k : ℕ) (key : PublicKey) (slot : RelaySlot) : Prop :=
  ∃ conTo, tcpC.getConnection n = some conTo ∧ conTo.publicKey = key ∧ conTo.Seated k slot

/-- The ports of a relay in use. -/
def portsOf (tcpC : TcpConnections) (k : ℕ) : Option RelayPorts := (tcpC.getTcpConnection k).bind TcpCon.ports?

/-- The number of a port that no connection has. -/
def noNumber : UInt32 := 0xFFFFFFFF

/-- The port of a connection, as its slot says it is. -/
def seatPort (n : ℕ) (key : PublicKey) (slot : RelaySlot) : TcpClientPort :=
  ⟨if slot.status = .online then .online else .offline, UInt32.ofNat n, key⟩

/-- The port of a seat is in use. -/
theorem seatPort_used (n : ℕ) (key : PublicKey) (slot : RelaySlot) : (seatPort n key slot).status ≠ .unused := by
  rw [seatPort]
  dsimp only
  split
  · nofun
  · nofun

/-- A connection that is registered or online on a relay has a port there, and a port with a number belongs to the
connection with the number, which is registered or online there. A relay has callbacks while it is connected. -/
structure Linked (tcpC : TcpConnections) : Prop where
  seat : ∀ n k key slot, tcpC.Seated n k key slot → ∃ r c, tcpC.portsOf k = some r ∧ r.status = .connected ∧
    slot.connectionId = UInt8.ofNat c.val ∧ r.ports c = seatPort n key slot
  port : ∀ k r c, tcpC.portsOf k = some r → (r.ports c).status ≠ .unused → (r.ports c).number ≠ noNumber →
    ∃ slot, tcpC.Seated (r.ports c).number.toNat k (r.ports c).publicKey slot
  callbacks : ∀ k r, tcpC.portsOf k = some r → (r.callbacks = true ↔ r.status = .connected)
  length : tcpC.connections.length < 2 ^ 32

/-! ## Changes that keep ports and slots -/

/-- Seats are read from the connections. -/
theorem seated_congr (hconns : next.connections = tcpC.connections) (n k : ℕ) (key : PublicKey) (slot : RelaySlot) :
    next.Seated n k key slot ↔ tcpC.Seated n k key slot := by
  rw [Seated, getConnection, hconns]
  rfl

/-- Nothing changes for ports and slots. -/
theorem Linked.of_same (h : tcpC.Linked) (hseats : ∀ n k key slot, next.Seated n k key slot ↔ tcpC.Seated n k key slot)
    (hports : next.portsOf = tcpC.portsOf) (hlength : next.connections.length < 2 ^ 32) : next.Linked where
  seat n k key slot hseated := by
    rw [hports]
    exact h.seat n k key slot ((hseats n k key slot).mp hseated)
  port k r c hr hused hnumber := by
    rw [hports] at hr
    obtain ⟨slot, hslot⟩ := h.port k r c hr hused hnumber
    exact ⟨slot, (hseats _ _ _ _).mpr hslot⟩
  callbacks k r hr := by
    rw [hports] at hr
    exact h.callbacks k r hr
  length := hlength

/-- A relay loses its connections, and gets new ports or none. -/
theorem Linked.replaceRelay (h : tcpC.Linked) (hseats : ∀ n l key slot, next.Seated n l key slot ↔ l ≠ k ∧
    tcpC.Seated n l key slot) (fresh : Option RelayPorts) (hfresh : ∀ r, fresh = some r → r.Fresh)
    (hports : next.portsOf = update tcpC.portsOf k fresh) (hlength : next.connections.length < 2 ^ 32) :
      next.Linked where
  seat n l key slot hseated := by
    obtain ⟨hlk, hbefore⟩ := (hseats n l key slot).mp hseated
    rw [hports, update_of_ne hlk]
    exact h.seat n l key slot hbefore
  port l r c hr hused hnumber := by
    rw [hports] at hr
    by_cases hlk : l = k
    · subst hlk
      rw [update_self] at hr
      exact absurd ((hfresh r hr).unused c) hused
    · rw [update_of_ne hlk] at hr
      obtain ⟨slot, hslot⟩ := h.port l r c hr hused hnumber
      exact ⟨slot, (hseats _ _ _ _).mpr ⟨hlk, hslot⟩⟩
  callbacks l r hr := by
    rw [hports] at hr
    by_cases hlk : l = k
    · subst hlk
      rw [update_self] at hr
      rw [(hfresh r hr).callbacks]
      exact iff_of_false Bool.false_ne_true (hfresh r hr).status
    · rw [update_of_ne hlk] at hr
      exact h.callbacks l r hr
  length := hlength

/-- There are no seats on a relay that is not connected. -/
theorem Linked.not_seated (h : tcpC.Linked) (hports : ∀ r, tcpC.portsOf k = some r → r.status ≠ .connected) :
    ¬tcpC.Seated n k key slot := by
  intro hseated
  obtain ⟨r, -, hr, hconnected, -⟩ := h.seat n k key slot hseated
  exact hports r hr hconnected

/-! ## Views -/

/-- A connection in use is written: its slots are the new ones. -/
theorem seated_setConnection (hget : tcpC.getConnection n = some conTo) (hlive : conTo'.status ≠ .none)
    (hkey : conTo'.publicKey = conTo.publicKey) (m l : ℕ) (key : PublicKey) (slot : RelaySlot) :
    (tcpC.setConnection n conTo').Seated m l key slot ↔
      if m = n then conTo.publicKey = key ∧ conTo'.Seated l slot else tcpC.Seated m l key slot := by
  rw [Seated, getConnection_set hget hlive]
  by_cases hmn : m = n
  · subst hmn
    rw [if_pos rfl, update_self]
    constructor
    · rintro ⟨a, ha, rfl, hseated⟩
      obtain rfl := some_inj.mp ha
      exact ⟨hkey.symm, hseated⟩
    · rintro ⟨rfl, hseated⟩
      exact ⟨conTo', rfl, hkey, hseated⟩
  · rw [if_neg hmn, update_of_ne hmn]
    rfl

/-- A connection in use is written that has the same seats. -/
theorem seated_setConnection_same (hget : tcpC.getConnection n = some conTo) (hlive : conTo'.status ≠ .none)
    (hkey : conTo'.publicKey = conTo.publicKey) (hsame : ∀ l slot, conTo'.Seated l slot ↔ conTo.Seated l slot)
    (m l : ℕ) (key : PublicKey) (slot : RelaySlot) :
    (tcpC.setConnection n conTo').Seated m l key slot ↔ tcpC.Seated m l key slot := by
  rw [seated_setConnection hget hlive hkey]
  split
  · rename_i hmn
    subst hmn
    rw [hsame]
    constructor
    · rintro ⟨hpublic, hseated⟩
      exact ⟨conTo, hget, hpublic, hseated⟩
    · rintro ⟨a, ha, hpublic, hseated⟩
      obtain rfl := some_inj.mp (hget.symm.trans ha)
      exact ⟨hpublic, hseated⟩
  · rfl

/-- Every connection loses its seat on a relay. -/
theorem seated_map (hs : tcpC.Sound) {f : TcpConnectionTo → TcpConnectionTo} (hkey : ∀ a, (f a).publicKey = a.publicKey)
    (hf : ∀ a l slot, a.Once → ((f a).Seated l slot ↔ l ≠ k ∧ a.Seated l slot))
    (hconns : ∀ n, next.getConnection n = (tcpC.getConnection n).map f) (m l : ℕ) (key : PublicKey) (slot : RelaySlot) :
    next.Seated m l key slot ↔ l ≠ k ∧ tcpC.Seated m l key slot := by
  constructor
  · rintro ⟨a', ha', rfl, hseated⟩
    rw [hconns] at ha'
    obtain ⟨a, ha, rfl⟩ := map_eq_some_iff.mp ha'
    obtain ⟨hlk, hbefore⟩ := (hf a l slot (hs.once m a ha)).mp hseated
    exact ⟨hlk, a, ha, (hkey a).symm, hbefore⟩
  · rintro ⟨hlk, a, ha, rfl, hseated⟩
    refine ⟨f a, ?_, hkey a, (hf a l slot (hs.once m a ha)).mpr ⟨hlk, hseated⟩⟩
    rw [hconns, ha, map_some]

section

variable (hget : tcpC.getTcpConnection k = some tcpCon)
include hget

/-- A relay in use is written. -/
theorem portsOf_set (hlive : tcpCon'.status ≠ .none) :
    (tcpC.setTcpConnection k tcpCon').portsOf = update tcpC.portsOf k tcpCon'.ports? := by
  funext l
  rw [portsOf, getTcpConnection_set hget hlive]
  by_cases hlk : l = k
  · subst hlk
    rw [update_self, update_self, bind_some]
  · rw [update_of_ne hlk, update_of_ne hlk]
    rfl

/-- The ports of a relay that is found. -/
theorem portsOf_get : tcpC.portsOf k = tcpCon.ports? := by
  rw [portsOf, hget, bind_some]

/-- A relay in use is written that has the same ports. -/
theorem portsOf_set_same (hlive : tcpCon'.status ≠ .none) (hsame : tcpCon'.ports? = tcpCon.ports?) :
    (tcpC.setTcpConnection k tcpCon').portsOf = tcpC.portsOf := by
  rw [portsOf_set hget hlive, hsame, ← portsOf_get hget, update_eq_self]

end

/-- Relays are written that have the same ports. -/
theorem portsOf_congr (h : next.tcpConnections.map (fun t => (t.status, t.ports?)) =
    tcpC.tcpConnections.map fun t => (t.status, t.ports?)) : next.portsOf = tcpC.portsOf := by
  have hview (c : TcpConnections) : c.portsOf = view (fun t : TcpConnStatus × Option RelayPorts =>
      if t.1 = .none then none else t.2) (c.tcpConnections.map fun t => (t.status, t.ports?)) := by
    rw [view_map]
    funext l
    rw [portsOf, getTcpConnection, view, view, bind_assoc]
    congr 1
    funext t
    rw [Function.comp_apply, TcpCon.live?]
    dsimp only
    split
    · rfl
    · rfl
  rw [hview, hview, h]

/-- A relay in use is written with the same ports. -/
theorem Linked.setRelay (h : tcpC.Linked) (hget : tcpC.getTcpConnection k = some tcpCon)
    (hlive : tcpCon'.status ≠ .none)
    (hsame : tcpCon'.ports? = tcpCon.ports?) : (tcpC.setTcpConnection k tcpCon').Linked :=
  h.of_same (fun _ _ _ _ => Iff.rfl) (portsOf_set_same hget hlive hsame) h.length

/-- A connection in use is written with the same seats. -/
theorem Linked.setConnection (h : tcpC.Linked) (hget : tcpC.getConnection n = some conTo)
    (hlive : conTo'.status ≠ .none)
    (hkey : conTo'.publicKey = conTo.publicKey) (hsame : ∀ l slot, conTo'.Seated l slot ↔ conTo.Seated l slot) :
    (tcpC.setConnection n conTo').Linked := by
  refine h.of_same (seated_setConnection_same hget hlive hkey hsame) rfl ?_
  rw [TcpConnections.setConnection, length_set]
  exact h.length

/-- The TCP connection of a relay is written with the same ports. -/
theorem ports_mapClient (tcpCon : TcpCon) {f : TcpClientConnection → TcpClientConnection}
    (hf : ∀ c, (f c).callbacks = c.callbacks ∧ (f c).connections = c.connections) :
    { tcpCon with connection := tcpCon.connection.map f }.ports? = tcpCon.ports? := by
  rw [TcpCon.ports?, TcpCon.ports?, Option.map_map]
  congr 1
  funext c
  rw [Function.comp_apply, (hf c).1, (hf c).2]

/-! ## Relays that come and go -/

/-- A relay is killed. -/
theorem Linked.killTcpRelayConnection (h : tcpC.Linked) (hs : tcpC.Sound) (k : ℕ) :
    (tcpC.killTcpRelayConnection k).2.Linked := by
  unfold TcpConnections.killTcpRelayConnection
  cases hget : tcpC.getTcpConnection k with
  | none => exact h
  | some tcpCon =>
    obtain ⟨next, hnext, hconns, hrelays, hmapped, -⟩ := dropOnion_mapped tcpC tcpCon fun conTo => (rm_fields conTo k).1
    simp only [hnext]
    have hget' : next.getTcpConnection k = some tcpCon := by rw [hrelays, hget]
    refine h.replaceRelay (seated_map hs (fun a => (rm_fields a k).2) (fun a l slot honce =>
      a.seated_rm honce k) hconns) none
      nofun ?_ ?_
    · funext l
      rw [portsOf, getTcpConnection_wipe hget', hrelays]
      by_cases hlk : l = k
      · subst hlk
        rw [update_self, update_self]
        rfl
      · rw [update_of_ne hlk, update_of_ne hlk]
        rfl
    · change next.connections.length < 2 ^ 32
      rw [hmapped, mapConnections, length_map]
      exact h.length

/-- A relay is reset. -/
theorem Linked.resetRelay (h : tcpC.Linked) (hs : tcpC.Sound) (hget : tcpC.getTcpConnection k = some tcpCon)
    (hlive : tcpCon'.status ≠ .none) (hfresh : ∀ r, tcpCon'.ports? = some r → r.Fresh) :
    (((tcpC.clearStatuses k).dropOnion tcpCon).setTcpConnection k tcpCon').Linked := by
  obtain ⟨next, hnext, hconns, hrelays, hmapped, -⟩ := dropOnion_mapped tcpC tcpCon fun conTo =>
    (clear_fields conTo k).1
  rw [clearStatuses, hnext]
  have hget' : next.getTcpConnection k = some tcpCon := by rw [hrelays, hget]
  have hports : next.portsOf = tcpC.portsOf := by
    unfold portsOf
    rw [hrelays]
  refine h.replaceRelay (seated_map hs (fun a => (clear_fields a k).2.1) (fun a l slot honce =>
    a.seated_clear honce k) hconns)
    tcpCon'.ports? hfresh ?_ ?_
  · rw [portsOf_set hget' hlive, hports]
  · change next.connections.length < 2 ^ 32
    rw [hmapped, mapConnections, length_map]
    exact h.length

variable {connection : TcpClientConnection} {publicKey : PublicKey} {c : Fin numClientConnections} {r : RelayPorts}

/-- A TCP connection that is new has fresh ports. -/
theorem fresh_reset {connects : Bool} {ipPort : IpPort}
    (hnew : TcpClientConnection.new connects ipPort publicKey = some connection) {t : TcpCon}
    (ht : t.connection = some connection) (hstatus : t.status ≠ .connected) (r : RelayPorts) (hr : t.ports? = some r) :
    r.Fresh := by
  obtain rfl := new_eq_zero hnew
  rw [TcpCon.ports?, ht, map_some] at hr
  obtain rfl := some_inj.mp hr
  exact ⟨rfl, hstatus, fun _ => rfl⟩

/-- A relay falls asleep. -/
theorem Linked.sleepTcpRelayConnection (h : tcpC.Linked) (hs : tcpC.Sound) (k : ℕ) :
    (tcpC.sleepTcpRelayConnection k).2.Linked := by
  unfold TcpConnections.sleepTcpRelayConnection
  cases hget : tcpC.getTcpConnection k with
  | none => exact h
  | some tcpCon =>
    dsimp only
    split
    · split
      · exact h
      · exact h.resetRelay hs hget nofun nofun
    · exact h

/-! ## Connections and relays that are added -/

/-- The table of connections stays below `2 ^ 32`. -/
theorem createConnection_length {env : TcpConnEnv} {created : Option ℕ} (hlength : tcpC.connections.length < 2 ^ 32)
    (hcreate : tcpC.createConnection env = (created, next)) : next.connections.length < 2 ^ 32 := by
  unfold createConnection at hcreate
  split at hcreate
  · obtain ⟨-, rfl⟩ := Prod.mk.inj hcreate
    exact hlength
  · split at hcreate
    · rename_i hroom
      obtain ⟨-, rfl⟩ := Prod.mk.inj hcreate
      rw [length_append]
      exact hroom.2
    · obtain ⟨-, rfl⟩ := Prod.mk.inj hcreate
      exact hlength

/-- A connection is made. -/
theorem Linked.newTcpConnectionTo (h : tcpC.Linked) (hs : tcpC.Sound) (env : TcpConnEnv) (publicKey : PublicKey)
    (id : ℤ) :
    (tcpC.newTcpConnectionTo env publicKey id).2.Linked := by
  unfold TcpConnections.newTcpConnectionTo
  cases tcpC.findTcpConnectionTo publicKey with
  | some => exact h
  | none =>
    dsimp only
    generalize hcreate : tcpC.createConnection env = created
    obtain ⟨_ | n, next⟩ := created
    · rw [createConnection_none hcreate]
      exact h
    · obtain ⟨hfree, hview, -, hnext⟩ := createConnection_some hs.clean hcreate
      have hlength := createConnection_length h.length hcreate
      dsimp only
      rw [modify_eq_set hfree]
      have hempty : ∀ i, (TcpConnectionTo.zero.connections i).tcpConnection = none := fun _ => rfl
      generalize hconTo : (⟨.valid, publicKey, TcpConnectionTo.zero.connections, id⟩ : TcpConnectionTo) = conTo
      have hadded : TcpConnections.getConnection { next with connections := next.connections.set n conTo } =
          update tcpC.getConnection n (some conTo) := by
        rw [← hview]
        unfold getConnection
        rw [view_set hfree, TcpConnectionTo.live?_eq_some.mpr ⟨by rw [← hconTo]; simp, rfl⟩]
      refine h.of_same (fun m l key slot => ?_) ?_ ?_
      · rw [Seated, hadded]
        by_cases hmn : m = n
        · subst hmn
          rw [update_self]
          refine iff_of_false ?_ ?_
          · rintro ⟨a, ha, -, hon, i, rfl⟩
            obtain rfl := some_inj.mp ha
            rw [← hconTo] at hon
            exact absurd ((hempty i).symm.trans hon.1) (some_ne_none l).symm
          · rintro ⟨a, ha, -⟩
            have hunused : tcpC.getConnection m = none := by
              rw [← hview, getConnection, view, hfree]
              rfl
            exact absurd (hunused.symm.trans ha) (some_ne_none a).symm
        · rw [update_of_ne hmn]
          rfl
      · rw [hnext]
        rfl
      · rw [length_set]
        exact hlength

/-- A relay is added with fresh ports, or there is none. -/
theorem Linked.addTcpRelayInstance (h : tcpC.Linked) (hs : tcpC.Sound) {env : TcpConnEnv} {ipPort : IpPort}
    {relayPk : PublicKey} {added : Option ℕ} (hadd : tcpC.addTcpRelayInstance env ipPort relayPk = (added, next)) :
    next.Linked ∧ next.connections = tcpC.connections := by
  obtain ⟨-, -, hnext, hcases⟩ := addTcpRelayInstance_cases hs.clean hadd
  have hconns : next.connections = tcpC.connections := by rw [hnext]
  have hlength : next.connections.length < 2 ^ 32 := hconns ▸ h.length
  have hseats := seated_congr hconns
  refine ⟨?_, hconns⟩
  rcases hcases with ⟨-, hview⟩ | ⟨k, connection, -, ⟨address, rfl⟩, hfree, hview⟩
  · refine h.of_same hseats ?_ hlength
    unfold portsOf
    rw [hview]
  · have hnone : tcpC.portsOf k = none := by
      rw [portsOf, hfree]
      rfl
    refine h.replaceRelay (k :=
      k) (fun m l key slot => ?_) (addedRelay (.zero address relayPk)).ports? (fun r hr => ?_) ?_ hlength
    · rw [hseats]
      refine ⟨fun hseated => ⟨?_, hseated⟩, And.right⟩
      rintro rfl
      exact h.not_seated (fun r hr => nomatch hnone.symm.trans hr) hseated
    · obtain rfl := some_inj.mp hr
      exact ⟨rfl, nofun, fun _ => rfl⟩
    · funext l
      rw [portsOf, hview]
      by_cases hlk : l = k
      · subst hlk
        rw [update_self, update_self]
        rfl
      · rw [update_of_ne hlk, update_of_ne hlk]
        rfl

/-- A request changes no ports. -/
theorem sendTcpRelayRoutingRequest_ports (tcpC : TcpConnections) (writes : Bool) (k : ℕ) (publicKey : PublicKey) :
    (tcpC.sendTcpRelayRoutingRequest writes k publicKey).2.portsOf = tcpC.portsOf ∧
      (tcpC.sendTcpRelayRoutingRequest writes k publicKey).2.connections = tcpC.connections := by
  unfold TcpConnections.sendTcpRelayRoutingRequest
  cases hget : tcpC.getTcpConnection k with
  | none => exact ⟨rfl, rfl⟩
  | some tcpCon =>
    dsimp only
    split
    · exact ⟨rfl, rfl⟩
    · exact ⟨portsOf_set_same hget (getTcpConnection_eq_some.mp hget).2 (ports_mapClient tcpCon fun _ =>
        ⟨rfl, rfl⟩), rfl⟩

/-- Connections stay as they are, and so do the ports. -/
theorem Linked.of_ports (h : tcpC.Linked) (hports : next.portsOf = tcpC.portsOf)
    (hconns : next.connections = tcpC.connections) :
    next.Linked :=
  h.of_same (seated_congr hconns) hports (hconns ▸ h.length)

/-- A connection gets a relay. -/
theorem Linked.addSlot (h : tcpC.Linked) (hget : tcpC.getConnection n = some conTo)
    (hadd : conTo.addTcpConnectionToConn k = some conTo') : (tcpC.setConnection n conTo').Linked := by
  have hsame (l : ℕ) (slot : RelaySlot) : conTo'.Seated l slot ↔ conTo.Seated l slot := TcpConnectionTo.seated_add hadd
  obtain ⟨i, -, -, rfl⟩ := TcpConnectionTo.addTcpConnectionToConn_some hadd
  exact h.setConnection hget (getConnection_eq_some.mp hget).2 rfl hsame

/-- Something is done to the relay of each slot that leaves the ports. -/
theorem portsOf_onRelays {f : TcpCon → RelaySlot → TcpCon} (hf : ∀ t slot, (f t slot).status = t.status ∧
    (f t slot).ports? = t.ports?) (conTo : TcpConnectionTo) : (tcpC.onRelays f conTo).portsOf = tcpC.portsOf := by
  unfold TcpConnections.onRelays
  induction List.finRange maxFriendTcpConnections generalizing tcpC with
  | nil => rfl
  | cons i slots ih =>
    rw [foldl_cons, ih]
    unfold onRelay
    split
    · rfl
    · split
      · rfl
      · rename_i tcpCon hget
        obtain ⟨hstatus, hsame⟩ := hf tcpCon (conTo.connections i)
        exact portsOf_set_same hget (hstatus ▸ (getTcpConnection_eq_some.mp hget).2) hsame

/-- A connection falls asleep or wakes up. -/
theorem Linked.setTcpConnectionToStatus (h : tcpC.Linked) (n : ℕ) (status : Bool) :
    (tcpC.setTcpConnectionToStatus n status).2.Linked := by
  have hwrite {f : TcpCon → RelaySlot → TcpCon} (hf : ∀ t slot, (f t slot).status = t.status ∧
    (f t slot).ports? = t.ports?)
      {conTo : TcpConnectionTo} (hget : tcpC.getConnection n = some conTo) {status : TcpConnStatus} (hlive : status ≠
        .none) :
      ((tcpC.onRelays f conTo).setConnection n { conTo with status := status }).Linked :=
    (h.of_ports (portsOf_onRelays hf conTo) (onRelays_connections f conTo)).setConnection
      ((getConnection_onRelays f conTo n).trans hget) hlive rfl fun _ _ => Iff.rfl
  unfold TcpConnections.setTcpConnectionToStatus
  cases hget : tcpC.getConnection n with
  | none => exact h
  | some conTo =>
    dsimp only
    split
    · split
      · exact h
      · refine hwrite (fun t slot => ?_) hget nofun
        unfold TcpCon.wakeUp
        split
        · exact ⟨rfl, rfl⟩
        · exact ⟨rfl, rfl⟩
    · split
      · exact h
      · refine hwrite (fun t slot => ?_) hget nofun
        unfold TcpCon.fallAsleep
        split
        · exact ⟨rfl, rfl⟩
        · exact ⟨rfl, rfl⟩

/-! ## The onion -/

/-- What the onion takes keeps its ports. -/
theorem takeOnion_ports (taken : ℕ) (relays : List TcpCon) :
    (takeOnion taken relays).2.map (fun t => (t.status, t.ports?)) =
    relays.map fun t => (t.status, t.ports?) := by
  induction relays generalizing taken with
  | nil => rfl
  | cons tcpCon rest ih =>
    unfold takeOnion
    dsimp only
    have hfirst :
      ((if tcpCon.status = .connected ∧ tcpCon.onion = false then { tcpCon with onion := true } else tcpCon).status,
        (if tcpCon.status = .connected ∧ tcpCon.onion = false then { tcpCon with onion := true } else tcpCon).ports?) =
          (tcpCon.status, tcpCon.ports?) := by
      split
      · rfl
      · rfl
    generalize (if tcpCon.status = .connected ∧ tcpCon.onion =
      false then { tcpCon with onion := true } else tcpCon) = first
      at hfirst ⊢
    generalize (if tcpCon.status = .connected ∧ tcpCon.onion = false then taken + 1 else taken) = now
    split
    · rw [map_cons, map_cons, hfirst]
    · rw [map_cons, map_cons, hfirst, ih]

/-- The onion takes relays or gives them up. -/
theorem Linked.setTcpOnionStatus (h : tcpC.Linked) (status : Bool) : (tcpC.setTcpOnionStatus status).2.Linked := by
  have hmap {f : TcpCon → TcpCon} (hf : ∀ t, (f t).status = t.status ∧ (f t).ports? = t.ports?) (relays : List TcpCon) :
      (relays.map f).map (fun t => (t.status, t.ports?)) = relays.map fun t => (t.status, t.ports?) := by
    rw [List.map_map]
    refine map_congr_left fun t _ => ?_
    rw [Function.comp_apply, (hf t).1, (hf t).2]
  unfold TcpConnections.setTcpOnionStatus
  split
  · exact h
  · split
    · have htaken := takeOnion_ports tcpC.onionNumConns.toNat tcpC.tcpConnections
      generalize takeOnion tcpC.onionNumConns.toNat tcpC.tcpConnections = took at htaken
      obtain ⟨taken, relays⟩ := took
      refine h.of_ports (portsOf_congr ?_) rfl
      dsimp only at htaken ⊢
      split
      · refine (hmap (fun t => ?_) relays).trans htaken
        split
        · exact ⟨rfl, rfl⟩
        · exact ⟨rfl, rfl⟩
      · exact htaken
    · refine h.of_ports (portsOf_congr (hmap (fun t => ?_) _)) rfl
      split
      · exact ⟨rfl, rfl⟩
      · exact ⟨rfl, rfl⟩

/-! ## The tick -/

/-- Routing requests open no port. -/
theorem sendRequests_ports (tcpC : TcpConnections) (writes : ℕ → Bool) (k : ℕ) (numbers : List ℕ) :
    (sendRequests writes k numbers tcpC).2.portsOf = tcpC.portsOf ∧
      (sendRequests writes k numbers tcpC).2.connections = tcpC.connections := by
  induction numbers generalizing tcpC with
  | nil => exact ⟨rfl, rfl⟩
  | cons n rest ih =>
    unfold sendRequests
    split
    · exact ih tcpC
    · rename_i conTo _
      split
      · obtain ⟨hports, hconns⟩ := sendTcpRelayRoutingRequest_ports tcpC (writes n) k conTo.publicKey
        dsimp only
        exact ⟨(ih _).1.trans hports, (ih _).2.trans hconns⟩
      · exact ih tcpC

section

variable (h : tcpC.Linked)
include h

/-- A relay comes online: it is connected, with callbacks, and its ports are those it had. -/
theorem Linked.connect (hoffline : ∀ r, tcpC.portsOf k = some r → r.status ≠ .connected)
    (hports : next.portsOf = update tcpC.portsOf k ((tcpC.portsOf k).map fun r => ⟨.connected, true, r.ports⟩))
    (hconns : next.connections = tcpC.connections) : next.Linked where
  seat m l key slot hseated := by
    have hbefore := (seated_congr hconns m l key slot).mp hseated
    have hlk : l ≠ k := by
      rintro rfl
      exact h.not_seated hoffline hbefore
    rw [hports, update_of_ne hlk]
    exact h.seat m l key slot hbefore
  port l r c hr hused hnumber := by
    have hbefore : ∃ r₀, tcpC.portsOf l = some r₀ ∧ r₀.ports = r.ports := by
      rw [hports] at hr
      by_cases hlk : l = k
      · subst hlk
        rw [update_self] at hr
        obtain ⟨r₀, hr₀, rfl⟩ := map_eq_some_iff.mp hr
        exact ⟨r₀, hr₀, rfl⟩
      · rw [update_of_ne hlk] at hr
        exact ⟨r, hr, rfl⟩
    obtain ⟨r₀, hr₀, hsame⟩ := hbefore
    rw [← hsame] at hused hnumber ⊢
    obtain ⟨slot, hslot⟩ := h.port l r₀ c hr₀ hused hnumber
    exact ⟨slot, (seated_congr hconns _ _ _ _).mpr hslot⟩
  callbacks l r hr := by
    rw [hports] at hr
    by_cases hlk : l = k
    · subst hlk
      rw [update_self] at hr
      obtain ⟨r₀, -, rfl⟩ := map_eq_some_iff.mp hr
      exact iff_of_true rfl rfl
    · rw [update_of_ne hlk] at hr
      exact h.callbacks l r hr
  length := hconns ▸ h.length

/-- A relay comes online. -/
theorem Linked.tcpRelayOnOnline (env : TcpConnEnv) (hget : tcpC.getTcpConnection k = some tcpCon)
    (hvalid : tcpCon.status = .valid) : (tcpC.tcpRelayOnOnline env k).Linked := by
  obtain ⟨hports, hconns⟩ := sendRequests_ports tcpC env.writes k (List.range tcpC.connections.length)
  obtain ⟨sent, hsent, -⟩ := sendRequests_eq env.writes hget (List.range tcpC.connections.length)
  have hlive := (getTcpConnection_eq_some.mp hget).2
  have hget' := getTcpConnection_set_self { tcpCon with connection := sent } hget hlive
  rw [← hsent] at hget'
  have hoffline (r : RelayPorts) (hr : tcpC.portsOf k = some r) : r.status ≠ .connected := by
    rw [portsOf_get hget] at hr
    obtain ⟨connection, -, rfl⟩ := map_eq_some_iff.mp hr
    rw [hvalid]
    nofun
  unfold TcpConnections.tcpRelayOnOnline
  generalize sendRequests env.writes k (List.range tcpC.connections.length) tcpC = requests at *
  obtain ⟨count, next⟩ := requests
  dsimp only at hports hconns hget' ⊢
  rw [modify_eq_set (getTcpConnection_eq_some.mp hget').1]
  refine h.connect hoffline (k := k) ?_ hconns
  refine (portsOf_set hget' ?_).trans ?_
  · nofun
  · rw [hports, ← hports, portsOf_get hget', TcpCon.ports?, TcpCon.ports?, Option.map_map, Option.map_map]
    rfl

end

/-- The ports stay linked in all that is done with relays. -/
theorem linked_keptByRelays : KeptByRelays fun tcpC => tcpC.Sound ∧ tcpC.Linked where
  sound := And.left
  newConnection h env publicKey id :=
    ⟨h.1.newTcpConnectionTo env publicKey id, h.2.newTcpConnectionTo h.1 env publicKey id⟩
  onion h status := ⟨h.1.setTcpOnionStatus status, h.2.setTcpOnionStatus status⟩
  mark h hget unsleep time :=
    ⟨sound_keptByRelays.mark h.1 hget unsleep time, h.2.setRelay hget (getTcpConnection_eq_some.mp hget).2 rfl⟩
  request {tcpC} h writes k publicKey := by
    obtain ⟨hports, hconns⟩ := sendTcpRelayRoutingRequest_ports tcpC writes k publicKey
    exact ⟨h.1.sendTcpRelayRoutingRequest writes k publicKey, h.2.of_ports hports hconns⟩
  addSlot h hconn hrelay hadd := ⟨h.1.addSlot hconn hrelay hadd, h.2.addSlot hconn hadd⟩
  addRelay h hfind := ⟨sound_keptByRelays.addRelay h.1 hfind, (h.2.addTcpRelayInstance h.1 rfl).1⟩
  kill h k := ⟨h.1.killTcpRelayConnection k, h.2.killTcpRelayConnection h.1 k⟩
  reset h hget hawake hconnection hnew :=
    ⟨sound_keptByRelays.reset h.1 hget hawake hconnection hnew,
      h.2.resetRelay h.1 hget nofun (fresh_reset hnew rfl nofun)⟩
  sleep h k := ⟨h.1.sleepTcpRelayConnection k, h.2.sleepTcpRelayConnection h.1 k⟩
  wake {tcpC k tcpCon _ connection} h hget hasleep hnew := by
    -- a relay that sleeps has no TCP connection, so no connection has a seat there
    have hnone : tcpC.portsOf k = none := by
      have hclient := (h.1.fit k tcpCon hget).client
      rw [portsOf_get hget, TcpCon.ports?, map_eq_none_iff, ← not_isSome_iff_eq_none, hclient]
      exact not_not.mpr hasleep
    refine ⟨sound_keptByRelays.wake h.1 hget hasleep hnew, h.2.replaceRelay (fun m l key slot => ?_)
      (tcpCon.reset .valid (some connection)).ports? (fresh_reset hnew rfl nofun) (portsOf_set hget nofun) h.2.length⟩
    refine ⟨fun hseated => ⟨?_, hseated⟩, And.right⟩
    rintro rfl
    exact h.2.not_seated (fun r hr => nomatch hnone.symm.trans hr) hseated
  online h hget hvalid := ⟨h.1.tcpRelayOnOnline _ hget hvalid, h.2.tcpRelayOnOnline _ hget hvalid⟩

/-! ## Packets -/

/-- The number of a connection is not the number of none. -/
theorem Linked.number (h : tcpC.Linked) (hconn : tcpC.getConnection n = some conTo) :
    (UInt32.ofNat n).toNat = n ∧ UInt32.ofNat n ≠ noNumber := by
  have hlt := (List.getElem?_eq_some_iff.mp (getConnection_eq_some.mp hconn).1).1
  have hlength := h.length
  have htoNat : (UInt32.ofNat n).toNat = n := UInt32.toNat_ofNat_of_lt' (hlt.trans hlength)
  refine ⟨htoNat, fun hnone => ?_⟩
  have hmax : n = 0xFFFFFFFF := by
    rw [← htoNat, hnone]
    rfl
  omega

/-- No connection has the number of none. -/
theorem Linked.getConnection_noNumber (h : tcpC.Linked) : tcpC.getConnection noNumber.toNat = none := by
  cases hconn : tcpC.getConnection noNumber.toNat with
  | none => rfl
  | some conTo => exact absurd (UInt32.ofNat_toNat) (h.number hconn).2

/-- Ports have different numbers. -/
theorem portNumber_inj {c' : Fin numClientConnections} (h : UInt8.ofNat c.val = UInt8.ofNat c'.val) : c = c' := by
  have hlt (c : Fin numClientConnections) : c.val < UInt8.size := c.isLt.trans (by decide)
  have hnat := congrArg UInt8.toNat h
  rw [UInt8.toNat_ofNat_of_lt' (hlt c), UInt8.toNat_ofNat_of_lt' (hlt c')] at hnat
  exact Fin.ext hnat

/-- The port of a seat is the one its slot names. -/
theorem Linked.seat_port (h : tcpC.Linked) (hr : tcpC.portsOf k = some r) (hseated : tcpC.Seated n k key slot)
    (hid : slot.connectionId = UInt8.ofNat c.val) : r.status = .connected ∧ r.ports c = seatPort n key slot := by
  obtain ⟨r', c', hr', hconnected, hid', hport⟩ := h.seat n k key slot hseated
  obtain rfl := some_inj.mp (hr.symm.trans hr')
  obtain rfl := portNumber_inj (hid.symm.trans hid')
  exact ⟨hconnected, hport⟩

/-- A port changes that no slot names. -/
theorem Linked.setPort (h : tcpC.Linked) (hr : tcpC.portsOf k = some r) (port : TcpClientPort)
    (hfree : ∀ n key slot, tcpC.Seated n k key slot → slot.connectionId ≠ UInt8.ofNat c.val)
    (hport : port.status ≠ .unused → port.number ≠ noNumber →
      ∃ slot, tcpC.Seated port.number.toNat k port.publicKey slot)
    (hseats : ∀ n l key slot, next.Seated n l key slot ↔ tcpC.Seated n l key slot)
    (hports : next.portsOf = update tcpC.portsOf k (some { r with ports := update r.ports c port }))
    (hlength : next.connections.length < 2 ^ 32) : next.Linked where
  seat m l key slot hseated := by
    have hbefore := (hseats m l key slot).mp hseated
    by_cases hlk : l = k
    · subst hlk
      obtain ⟨r', c', hr', hconnected, hid, hkept⟩ := h.seat m l key slot hbefore
      obtain rfl := some_inj.mp (hr.symm.trans hr')
      have hne : c' ≠ c := by
        rintro rfl
        exact hfree m key slot hbefore hid
      rw [hports, update_self]
      exact ⟨_, c', rfl, hconnected, hid, (update_of_ne hne ..).trans hkept⟩
    · rw [hports, update_of_ne hlk]
      exact h.seat m l key slot hbefore
  port l r' c' hr' hused hnumber := by
    rw [hports] at hr'
    by_cases hlk : l = k
    · subst hlk
      rw [update_self] at hr'
      obtain rfl := some_inj.mp hr'
      dsimp only at hused hnumber ⊢
      by_cases hcc : c' = c
      · subst hcc
        rw [update_self] at hused hnumber ⊢
        obtain ⟨slot, hslot⟩ := hport hused hnumber
        exact ⟨slot, (hseats _ _ _ _).mpr hslot⟩
      · rw [update_of_ne hcc] at hused hnumber ⊢
        obtain ⟨slot, hslot⟩ := h.port l r c' hr hused hnumber
        exact ⟨slot, (hseats _ _ _ _).mpr hslot⟩
    · rw [update_of_ne hlk] at hr'
      obtain ⟨slot, hslot⟩ := h.port l r' c' hr' hused hnumber
      exact ⟨slot, (hseats _ _ _ _).mpr hslot⟩
  callbacks l r' hr' := by
    rw [hports] at hr'
    by_cases hlk : l = k
    · subst hlk
      rw [update_self] at hr'
      obtain rfl := some_inj.mp hr'
      exact h.callbacks l r hr
    · rw [update_of_ne hlk] at hr'
      exact h.callbacks l r' hr'
  length := hlength

/-- A connection gets a status on a relay, with a port that no other connection has. -/
theorem Linked.link (h : tcpC.Linked) (hs : tcpC.Sound) (hr : tcpC.portsOf k = some r)
    (hconnected : r.status = .connected) (hconn : tcpC.getConnection n = some conTo) (hstatus : status ≠ .none)
    (hset : conTo.setTcpConnectionStatus k status (UInt8.ofNat c.val) = some conTo')
    (hothers : ∀ m key slot, tcpC.Seated m k key slot → m ≠ n → slot.connectionId ≠ UInt8.ofNat c.val)
    (hseats : ∀ m l key slot, next.Seated m l key slot ↔
      if m = n then conTo.publicKey = key ∧ conTo'.Seated l slot else tcpC.Seated m l key slot)
    (hports : next.portsOf = update tcpC.portsOf k (some { r with
      ports := update r.ports c (seatPort n conTo.publicKey ⟨some k, status, UInt8.ofNat c.val⟩) }))
    (hlength : next.connections.length < 2 ^ 32) : next.Linked := by
  obtain ⟨hother, hself⟩ := TcpConnectionTo.seated_set (hs.once n conTo hconn) hset
  -- seats stay where they were, but for the slot of the connection on the relay
  have hkept (m l : ℕ) (key : PublicKey) (slot : RelaySlot) (hbefore : tcpC.Seated m l key slot) :
      ∃ slot', next.Seated m l key slot' := by
    by_cases hmn : m = n
    · subst hmn
      obtain ⟨a, ha, rfl, hseated⟩ := hbefore
      obtain rfl := some_inj.mp (hconn.symm.trans ha)
      by_cases hlk : l = k
      · subst hlk
        exact ⟨_, (hseats _ _ _ _).mpr (by rw [if_pos rfl]; exact ⟨rfl, (hself _).mpr ⟨hstatus, rfl⟩⟩)⟩
      · exact ⟨slot, (hseats _ _ _ _).mpr (by rw [if_pos rfl]; exact ⟨rfl, (hother l slot hlk).mpr hseated⟩)⟩
    · exact ⟨slot, (hseats _ _ _ _).mpr (by rw [if_neg hmn]; exact hbefore)⟩
  constructor
  case seat =>
    intro m l key slot hseated
    rw [hseats] at hseated
    by_cases hlk : l = k
    · subst hlk
      rw [hports, update_self]
      by_cases hmn : m = n
      · subst hmn
        rw [if_pos rfl] at hseated
        obtain ⟨rfl, hseated⟩ := hseated
        obtain ⟨-, rfl⟩ := (hself slot).mp hseated
        exact ⟨_, c, rfl, hconnected, rfl, update_self ..⟩
      · rw [if_neg hmn] at hseated
        obtain ⟨r', c', hr', -, hid, hport⟩ := h.seat m l key slot hseated
        obtain rfl := some_inj.mp (hr.symm.trans hr')
        have hne : c' ≠ c := by
          rintro rfl
          exact hothers m key slot hseated hmn hid
        exact ⟨_, c', rfl, hconnected, hid, (update_of_ne hne ..).trans hport⟩
    · rw [hports, update_of_ne hlk]
      by_cases hmn : m = n
      · subst hmn
        rw [if_pos rfl] at hseated
        obtain ⟨hkey, hseated⟩ := hseated
        exact h.seat m l key slot ⟨conTo, hconn, hkey, (hother l slot hlk).mp hseated⟩
      · rw [if_neg hmn] at hseated
        exact h.seat m l key slot hseated
  case port =>
    intro l r' c' hr' hused hnumber
    rw [hports] at hr'
    by_cases hlk : l = k
    · subst hlk
      rw [update_self] at hr'
      obtain rfl := some_inj.mp hr'
      dsimp only at hused hnumber ⊢
      by_cases hcc : c' = c
      · subst hcc
        rw [update_self]
        refine ⟨⟨some l, status, UInt8.ofNat c'.val⟩, (hseats _ _ _ _).mpr ?_⟩
        rw [seatPort, (h.number hconn).1, if_pos rfl]
        exact ⟨rfl, (hself _).mpr ⟨hstatus, rfl⟩⟩
      · rw [update_of_ne hcc] at hused hnumber ⊢
        obtain ⟨slot, hslot⟩ := h.port l r c' hr hused hnumber
        exact hkept _ _ _ _ hslot
    · rw [update_of_ne hlk] at hr'
      obtain ⟨slot, hslot⟩ := h.port l r' c' hr' hused hnumber
      exact hkept _ _ _ _ hslot
  case callbacks =>
    intro l r' hr'
    rw [hports] at hr'
    by_cases hlk : l = k
    · subst hlk
      rw [update_self] at hr'
      obtain rfl := some_inj.mp hr'
      exact h.callbacks l r hr
    · rw [update_of_ne hlk] at hr'
      exact h.callbacks l r' hr'
  case length => exact hlength

/-- The TCP connection of a relay is written. -/
theorem portsOf_setClient (hget : tcpC.getTcpConnection k = some tcpCon) (connection : TcpClientConnection) :
    (tcpC.setClient k tcpCon connection).portsOf =
      update tcpC.portsOf k (some ⟨tcpCon.status, connection.callbacks, connection.connections⟩) := by
  refine portsOf_set hget ?_
  exact (getTcpConnection_eq_some.mp hget).2

/-- The ports of a connected relay. -/
theorem portsOf_client (hget : tcpC.getTcpConnection k = some tcpCon)
    (hconnection : tcpCon.connection = some connection) :
    tcpC.portsOf k = some ⟨tcpCon.status, connection.callbacks, connection.connections⟩ := by
  rw [portsOf_get hget, TcpCon.ports?, hconnection, map_some]

/-- The connection that is found has the key. -/
theorem findTcpConnectionTo_some (hfind : tcpC.findTcpConnectionTo publicKey = some n)
    (hconn : tcpC.getConnection n = some conTo) : conTo.publicKey = publicKey := by
  obtain ⟨hlt, hfound, -⟩ := findIdx?_eq_some_iff_getElem.mp hfind
  have hold := (getConnection_eq_some.mp hconn).1
  rw [getElem?_eq_getElem hlt] at hold
  obtain rfl := some_inj.mp hold
  exact (of_decide_eq_true hfound).2

/-- A connection and then the relay are written. -/
theorem portsOf_setBoth (hget : tcpC.getTcpConnection k = some tcpCon) (n : ℕ) (conTo' : TcpConnectionTo)
    (tcpCon' : TcpCon) (hlive : tcpCon'.status ≠ .none) :
    ((tcpC.setConnection n conTo').setTcpConnection k tcpCon').portsOf = update tcpC.portsOf k tcpCon'.ports? := by
  have hget' : (tcpC.setConnection n conTo').getTcpConnection k = some tcpCon := hget
  exact portsOf_set hget' hlive

/-- A relay answers a request on a port that it has opened. -/
theorem Linked.tcpResponseCallback (h : tcpC.Linked) (hs : tcpC.Sound) (hget : tcpC.getTcpConnection k = some tcpCon)
    (hconnection : tcpCon.connection = some connection) (hcallbacks : connection.callbacks = true)
    (hopened : connection.connections c = ⟨.offline, noNumber, publicKey⟩) :
    (tcpC.tcpResponseCallback k c publicKey).2.Linked := by
  have hlive := (getTcpConnection_eq_some.mp hget).2
  have hr := portsOf_client hget hconnection
  unfold TcpConnections.tcpResponseCallback
  rw [hget]
  cases hfind : tcpC.findTcpConnectionTo publicKey with
  | none => exact h
  | some n =>
    dsimp only
    cases hconn : tcpC.getConnection n with
    | none => exact h
    | some conTo =>
      dsimp only
      cases hset : conTo.setTcpConnectionStatus k .registered (UInt8.ofNat c) with
      | none => exact h
      | some conTo' =>
        have hfields : conTo'.status = conTo.status ∧ conTo'.publicKey = conTo.publicKey := by
          obtain ⟨i, -, -, rfl⟩ := TcpConnectionTo.setTcpConnectionStatus_some hset
          exact ⟨rfl, rfl⟩
        have hliveConn : conTo'.status ≠ .none := hfields.1 ▸ (getConnection_eq_some.mp hconn).2
        refine h.link hs hr ((h.callbacks k _ hr).mp hcallbacks) hconn
          (by nofun : RelayStatus.registered ≠ .none) hset (fun m key slot hseated _ hid => ?_)
          (seated_setConnection hconn hliveConn hfields.2) ?_ ?_
        · obtain ⟨a, ha, -⟩ := id hseated
          have hport := (h.seat_port hr hseated hid).2
          dsimp only at hport
          rw [hopened] at hport
          exact (h.number ha).2 (congrArg TcpClientPort.number hport).symm
        · refine (portsOf_setBoth hget n conTo' { tcpCon with
            connection := tcpCon.connection.map fun connection =>
              connection.setTcpConnectionNumber c (UInt32.ofNat n) } hlive).trans ?_
          rw [TcpCon.ports?, hconnection, map_some, map_some, findTcpConnectionTo_some hfind hconn,
            TcpClientConnection.setTcpConnectionNumber, hopened]
          rfl
        · change (tcpC.connections.set n conTo').length < 2 ^ 32
          rw [length_set]
          exact h.length

/-- What a relay says about the peer of a port: nothing changes, or the status of the connection with the number. -/
theorem tcpStatusCallback_cases (hget : tcpC.getTcpConnection k = some tcpCon) {number : UInt32}
    (hconn : tcpC.getConnection number.toNat = some conTo) (c : Fin numClientConnections) {status : PortStatus}
    {seated : RelayStatus} (hseated : status = .offline ∧ seated = .registered ∨ status = .online ∧ seated = .online) :
    conTo.setTcpConnectionStatus k seated (UInt8.ofNat c) = none ∧ (tcpC.tcpStatusCallback k number c status).2 = tcpC ∨
      ∃ conTo' lockCount sleepCount, conTo.setTcpConnectionStatus k seated (UInt8.ofNat c) = some conTo' ∧
        (tcpC.tcpStatusCallback k number c status).2 = (tcpC.setConnection number.toNat conTo').setTcpConnection k
          { tcpCon with lockCount := lockCount, sleepCount := sleepCount } := by
  unfold TcpConnections.tcpStatusCallback
  rw [hget, hconn]
  dsimp only
  rcases hseated with ⟨rfl, rfl⟩ | ⟨rfl, rfl⟩
  · dsimp only
    cases conTo.setTcpConnectionStatus k .registered (UInt8.ofNat c) with
    | none => exact .inl ⟨rfl, rfl⟩
    | some conTo' => exact .inr ⟨conTo', _, _, rfl, rfl⟩
  · dsimp only
    cases conTo.setTcpConnectionStatus k .online (UInt8.ofNat c) with
    | none => exact .inl ⟨rfl, rfl⟩
    | some conTo' => exact .inr ⟨conTo', _, _, rfl, rfl⟩

/-- A relay says that the peer of a port has come or gone. -/
theorem Linked.changePort (h : tcpC.Linked) (hs : tcpC.Sound) (hget : tcpC.getTcpConnection k = some tcpCon)
    (hconnection : tcpCon.connection = some connection) (c : Fin numClientConnections) {before status : PortStatus}
    (hbefore : (connection.connections c).status = before) {seated : RelayStatus}
    (hchange : before = .online ∧ status = .offline ∧ seated = .registered ∨
      before = .offline ∧ status = .online ∧ seated = .online) :
    (if connection.callbacks then ((tcpC.setClient k tcpCon
          (connection.setPort c { connection.connections c with status := status })).tcpStatusCallback k
            (connection.connections c).number c status).2
      else tcpC.setClient k tcpCon
        (connection.setPort c { connection.connections c with status := status })).Linked := by
  have hlive := (getTcpConnection_eq_some.mp hget).2
  have hr := portsOf_client hget hconnection
  have hused : before ≠ .unused := by
    rcases hchange with ⟨rfl, -, -⟩ | ⟨rfl, -, -⟩
    · nofun
    · nofun
  have hstays (hfree : ∀ n key slot, tcpC.Seated n k key slot → slot.connectionId ≠ UInt8.ofNat c.val)
      (hport : (connection.connections c).number ≠ noNumber →
        ∃ slot, tcpC.Seated (connection.connections c).number.toNat k (connection.connections c).publicKey slot) :
      (tcpC.setClient k tcpCon (connection.setPort c { connection.connections c with status := status })).Linked :=
    h.setPort hr { connection.connections c with status := status } hfree (fun _ => hport) (fun _ _ _ _ => Iff.rfl)
      (portsOf_setClient hget _) h.length
  by_cases hnumber : (connection.connections c).number = noNumber
  · have hlinked := hstays (fun n key slot hseated hid => by
      obtain ⟨a, ha, -⟩ := id hseated
      have hport := (h.seat_port hr hseated hid).2
      exact (h.number ha).2 ((congrArg TcpClientPort.number hport).symm.trans hnumber)) (absurd hnumber)
    split
    · have hnone : (tcpC.setClient k tcpCon (connection.setPort c
          { connection.connections c with status := status })).getConnection (connection.connections c).number.toNat =
            none := by
        rw [hnumber]
        exact h.getConnection_noNumber
      unfold TcpConnections.tcpStatusCallback
      rw [hnone]
      split
      · nomatch ‹none = some _›
      · exact hlinked
    · exact hlinked
  · obtain ⟨slot, hseat⟩ := h.port k _ c hr (hbefore.trans_ne hused) hnumber
    obtain ⟨conTo, hconn, hkey, hseated⟩ := id hseat
    dsimp only at hseat hconn hkey
    obtain ⟨r', c', hr', hconnected, -, -⟩ := h.seat _ _ _ _ hseat
    obtain rfl := some_inj.mp (hr.symm.trans hr')
    rw [if_pos ((h.callbacks k _ hr).mpr hconnected)]
    have hothers (m : ℕ) (key : PublicKey) (slot' : RelaySlot) (hother : tcpC.Seated m k key slot')
        (hid : slot'.connectionId = UInt8.ofNat c.val) : m = (connection.connections c).number.toNat ∧
          (if slot'.status = .online then PortStatus.online else .offline) = before := by
      obtain ⟨a, ha, -⟩ := id hother
      have hport := (h.seat_port hr hother hid).2
      refine ⟨?_, (congrArg TcpClientPort.status hport).symm.trans hbefore⟩
      rw [congrArg TcpClientPort.number hport]
      exact (h.number ha).1.symm
    have hcases : status = .offline ∧ seated = .registered ∨ status = .online ∧ seated = .online := by
      rcases hchange with ⟨-, hboth⟩ | ⟨-, hboth⟩
      · exact .inl hboth
      · exact .inr hboth
    have hget' : (tcpC.setClient k tcpCon (connection.setPort c
        { connection.connections c with status := status })).getTcpConnection k = some { tcpCon with
          connection := some (connection.setPort c { connection.connections c with status := status }) } :=
      getTcpConnection_set_self _ hget hlive
    have hconn' : (tcpC.setClient k tcpCon (connection.setPort c
        { connection.connections c with status := status })).getConnection (connection.connections c).number.toNat =
          some conTo := hconn
    rcases tcpStatusCallback_cases hget' hconn' c hcases with ⟨hset, heq⟩ | ⟨conTo', lockCount, sleepCount, hset, heq⟩
    · -- the slot has the status already, so it names another port
      rw [heq]
      refine hstays (fun m key slot' hother hid => ?_) fun _ => ⟨slot, hseat⟩
      obtain ⟨rfl, hstatus⟩ := hothers m key slot' hother hid
      obtain ⟨a, ha, -, hagain⟩ := hother
      obtain rfl := some_inj.mp (hconn.symm.trans ha)
      obtain ⟨hon, i, rfl⟩ := hagain
      have hsame := TcpConnectionTo.setTcpConnectionStatus_none (hs.once _ _ hconn) hset hon.1
      rw [hsame] at hstatus
      rcases hchange with ⟨rfl, -, rfl⟩ | ⟨rfl, -, rfl⟩
      · nomatch hstatus
      · nomatch hstatus
    · rw [heq]
      have hseated' : seated ≠ .none := by
        rcases hcases with ⟨-, rfl⟩ | ⟨-, rfl⟩
        · nofun
        · nofun
      have hfields : conTo'.status = conTo.status ∧ conTo'.publicKey = conTo.publicKey := by
        obtain ⟨i, -, -, rfl⟩ := TcpConnectionTo.setTcpConnectionStatus_some hset
        exact ⟨rfl, rfl⟩
      have hliveConn : conTo'.status ≠ .none := hfields.1 ▸ (getConnection_eq_some.mp hconn).2
      refine h.link hs hr hconnected hconn hseated' hset (fun m key slot' hother hne hid =>
        hne (hothers m key slot' hother hid).1)
        (seated_setConnection hconn hliveConn hfields.2) ?_ ?_
      · refine (portsOf_setBoth hget' _ conTo' { tcpCon with
            connection := some (connection.setPort c { connection.connections c with status := status })
            lockCount := lockCount, sleepCount := sleepCount } hlive).trans ?_
        have hport : seatPort (connection.connections c).number.toNat conTo.publicKey ⟨some k, seated, UInt8.ofNat c⟩ =
            { connection.connections c with status := status } := by
          rw [seatPort, UInt32.ofNat_toNat, hkey]
          rcases hcases with ⟨rfl, rfl⟩ | ⟨rfl, rfl⟩
          · rfl
          · rfl
        rw [TcpCon.ports?, map_some, portsOf_setClient hget, update_idem, hport]
        rfl
      · change (tcpC.connections.set _ conTo').length < 2 ^ 32
        rw [length_set]
        exact h.length

/-! ## Runs -/

/-- A packet of a relay. -/
theorem Linked.handleTcpPacket (h : tcpC.Linked) (hs : tcpC.Sound) (hget : tcpC.getTcpConnection k = some tcpCon)
    (hconnection : tcpCon.connection = some connection) (data : Bytes) :
    (tcpC.handleTcpPacket k tcpCon connection data).2.2.Linked := by
  have hlive := (getTcpConnection_eq_some.mp hget).2
  rcases handleTcpPacket_cases tcpC k tcpCon connection data with hsame | ⟨-, hopens | hchanges⟩
  · rw [hsame]
    exact h
  · obtain ⟨second, rest, c, -, -, -, hunused, heq⟩ := hopens
    have hr := portsOf_client hget hconnection
    have hopened : (tcpC.setClient k tcpCon (connection.setPort c ⟨.offline, noNumber, slice 32 rest 0⟩)).Linked := by
      refine h.setPort hr ⟨.offline, noNumber, slice 32 rest 0⟩ (fun n key slot hseated hid => ?_)
        (fun _ hnumber => absurd rfl hnumber) (fun _ _ _ _ => Iff.rfl) (portsOf_setClient hget _) h.length
      have hstatus := congrArg TcpClientPort.status (h.seat_port hr hseated hid).2
      exact seatPort_used n key slot (hstatus.symm.trans hunused)
    rw [heq]
    dsimp only
    split
    · rename_i hcallbacks
      refine hopened.tcpResponseCallback (hs.setClient hget hconnection rfl)
        (getTcpConnection_set_self _ hget hlive) rfl
        hcallbacks ?_
      exact update_self ..
    · exact hopened
  · obtain ⟨kind, second, c, before, status, -, hkind, -, hbefore, heq⟩ := hchanges
    rw [heq]
    dsimp only
    rcases hkind with ⟨-, hcome⟩ | ⟨-, hgone⟩
    · exact h.changePort hs hget hconnection c hbefore (.inr ⟨hcome.1, hcome.2, rfl⟩)
    · exact h.changePort hs hget hconnection c hbefore (.inl ⟨hgone.1, hgone.2, rfl⟩)

/-- A packet of a relay, if the relay is there. -/
theorem Linked.receive (h : tcpC.Linked) (hs : tcpC.Sound) (k : ℕ) (data : Bytes) : (tcpC.receive k data).2.Linked := by
  refine receive_kept h k data fun tcpCon connection hget hconnection _ =>
    ⟨h.handleTcpPacket hs hget hconnection data, ?_⟩
  refine h.setRelay hget (getTcpConnection_eq_some.mp hget).2 ?_
  rw [TcpCon.ports?, TcpCon.ports?, hconnection]
  rfl

end TcpConnections

end Toxcore
