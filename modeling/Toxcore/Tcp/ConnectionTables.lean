import Toxcore.Tcp.Connections

/-!
# The tables of connections and relays

Which relays a connection names, which relays have a TCP connection and how many are used for the onion is spread over
two tables. An operation changes both through a few kinds of writes, and each kind keeps what holds of the tables
together.
-/

namespace Toxcore

open ByteStrings TableView Function Option

namespace TcpConnectionTo

variable {conTo : TcpConnectionTo} {k : ℕ}

variable {conTo' : TcpConnectionTo} {i : Fin maxFriendTcpConnections}

/-- A connection is live where its status is not none. -/
theorem live?_eq_some : conTo.live? = some conTo' ↔ conTo.status ≠ .none ∧ conTo = conTo' := by
  rw [live?]
  split
  · rename_i hnone
    exact ⟨nofun, fun h => absurd hnone h.1⟩
  · rename_i hlive
    rw [some_inj]
    exact ⟨fun h => ⟨hlive, h⟩, And.right⟩

/-- No relay is named by two slots. -/
def Once (conTo : TcpConnectionTo) : Prop := ∀ i j k, (conTo.connections i).tcpConnection = some k →
  (conTo.connections j).tcpConnection = some k → i = j

/-- The relays of one connection are among those of another, slot by slot. -/
def Within (conTo conTo' : TcpConnectionTo) : Prop := ∀ i k, (conTo.connections i).tcpConnection = some k →
  (conTo'.connections i).tcpConnection = some k

/-- Fewer relays are still used once each. -/
theorem Within.once (h : conTo.Within conTo') (honce : conTo'.Once) : conTo.Once :=
  fun i j k hi hj => honce i j k (h i k hi) (h j k hj)

theorem Within.refl (conTo : TcpConnectionTo) : conTo.Within conTo := fun _ _ h => h

/-- The slot that is found names the relay. -/
theorem slotOf_some (h : conTo.slotOf k = some i) : (conTo.connections i).tcpConnection = some k := by
  have hfound := List.find?_some h
  exact of_decide_eq_true hfound

/-- Where none is found, no slot names the relay. -/
theorem slotOf_none (h : conTo.slotOf k = none) (i : Fin maxFriendTcpConnections) :
    (conTo.connections i).tcpConnection ≠ some k := fun heq =>
  absurd (decide_eq_true heq) (List.find?_eq_none.mp h i (List.mem_finRange i))

@[simp] theorem setSlot_self (conTo : TcpConnectionTo) (i : Fin maxFriendTcpConnections) (slot : RelaySlot) :
    (conTo.setSlot i slot).connections i = slot := update_self ..

/-- The other slots stay. -/
theorem setSlot_other (conTo : TcpConnectionTo) {j : Fin maxFriendTcpConnections} (hij : j ≠ i) (slot : RelaySlot) :
    (conTo.setSlot i slot).connections j = conTo.connections j := update_of_ne hij ..

/-- A slot is written with the same relay or none. -/
theorem within_setSlot {slot : RelaySlot}
    (h : ∀ k, slot.tcpConnection = some k → (conTo.connections i).tcpConnection = some k) :
    (conTo.setSlot i slot).Within conTo := by
  intro j k hj
  by_cases hij : j = i
  · subst hij
    rw [setSlot_self] at hj
    exact h k hj
  · rw [setSlot_other conTo hij] at hj
    exact hj

/-- A relay is taken off. -/
theorem within_rm (conTo : TcpConnectionTo) (k : ℕ) : (conTo.rmTcpConnectionFromConn k).Within conTo := by
  unfold rmTcpConnectionFromConn
  split
  · exact .refl _
  · exact within_setSlot nofun

/-- What is removed is not named any more. -/
theorem rm_not_named (honce : conTo.Once) (k : ℕ) (i : Fin maxFriendTcpConnections) :
    ((conTo.rmTcpConnectionFromConn k).connections i).tcpConnection ≠ some k := by
  unfold rmTcpConnectionFromConn
  cases hslot : conTo.slotOf k with
  | none => exact slotOf_none hslot i
  | some j =>
    intro hi
    dsimp only at hi
    by_cases hij : i = j
    · subst hij
      rw [setSlot_self] at hi
      nomatch hi
    · rw [setSlot_other conTo hij] at hi
      exact hij (honce i j k hi (slotOf_some hslot))

/-- The slot of the relay is written, or nothing. -/
theorem setTcpConnectionStatus_some {status : RelayStatus} {connectionId : UInt8}
    (h : conTo.setTcpConnectionStatus k status connectionId = some conTo') :
    ∃ i, (conTo.connections i).tcpConnection = some k ∧ (conTo.connections i).status ≠ status ∧
      conTo' = conTo.setSlot i { conTo.connections i with status := status, connectionId := connectionId } := by
  unfold setTcpConnectionStatus at h
  split at h
  · contradiction
  · rename_i i hslot
    split at h
    · contradiction
    · rename_i hstatus
      exact ⟨i, slotOf_some hslot, hstatus, (some_inj.mp h).symm⟩

/-- A status names no other relay. -/
theorem setTcpConnectionStatus_within {status : RelayStatus} {connectionId : UInt8}
    (h : conTo.setTcpConnectionStatus k status connectionId = some conTo') : conTo'.Within conTo := by
  obtain ⟨i, -, -, rfl⟩ := setTcpConnectionStatus_some h
  exact within_setSlot fun _ hk => hk

/-- A relay is added in a free slot, if it is not there yet. -/
theorem addTcpConnectionToConn_some (h : conTo.addTcpConnectionToConn k = some conTo') :
    ∃ i, (conTo.connections i).tcpConnection = none ∧ (∀ j, (conTo.connections j).tcpConnection ≠ some k) ∧
      conTo' = conTo.setSlot i ⟨some k, .none, 0⟩ := by
  unfold addTcpConnectionToConn at h
  split at h
  · contradiction
  · rename_i hnew
    obtain ⟨i, hfind, heq⟩ := map_eq_some_iff.mp h
    have hfound := List.find?_some hfind
    exact ⟨i, of_decide_eq_true hfound, slotOf_none (not_isSome_iff_eq_none.mp hnew), heq.symm⟩

/-- A relay that is added is named once. -/
theorem Once.add {conTo' : TcpConnectionTo} (honce : conTo.Once) (h : conTo.addTcpConnectionToConn k = some conTo') :
    conTo'.Once ∧ ∀ i l, (conTo'.connections i).tcpConnection = some l →
      l = k ∨ (conTo.connections i).tcpConnection = some l := by
  obtain ⟨i, -, hnew, rfl⟩ := addTcpConnectionToConn_some h
  have hslot (j : Fin maxFriendTcpConnections) (l : ℕ)
      (hj : ((conTo.setSlot i ⟨some k, .none, 0⟩).connections j).tcpConnection = some l) :
      j = i ∧ l = k ∨ j ≠ i ∧ (conTo.connections j).tcpConnection = some l := by
    by_cases hij : j = i
    · subst hij
      rw [setSlot_self] at hj
      exact .inl ⟨rfl, (some_inj.mp hj).symm⟩
    · rw [setSlot_other conTo hij] at hj
      exact .inr ⟨hij, hj⟩
  refine ⟨fun a b l ha hb => ?_, fun j l hj => (hslot j l hj).imp And.right And.right⟩
  rcases hslot a l ha with ⟨rfl, rfl⟩ | ⟨-, ha'⟩
  · rcases hslot b l hb with ⟨rfl, -⟩ | ⟨-, hb'⟩
    · rfl
    · exact absurd hb' (hnew b)
  · rcases hslot b l hb with ⟨-, rfl⟩ | ⟨-, hb'⟩
    · exact absurd ha' (hnew a)
    · exact honce a b l ha' hb'

end TcpConnectionTo

/-- A relay is live where its status is not none. -/
theorem TcpCon.live?_eq_some {tcpCon tcpCon' : TcpCon} : tcpCon.live? = some tcpCon' ↔ tcpCon.status ≠ .none ∧
    tcpCon = tcpCon' := by
  rw [TcpCon.live?]
  split
  · rename_i hnone
    exact ⟨nofun, fun h => absurd hnone h.1⟩
  · rename_i hlive
    rw [some_inj]
    exact ⟨fun h => ⟨hlive, h⟩, And.right⟩

/-- What holds of a relay by itself: it has a TCP connection unless it sleeps, and the onion only uses it while
connected. -/
structure TcpCon.Fit (tcpCon : TcpCon) : Prop where
  client : tcpCon.connection.isSome ↔ tcpCon.status ≠ .sleeping
  onion : tcpCon.onion = true → tcpCon.status = .connected

namespace TcpConnections

variable {tcpC : TcpConnections} {n k : ℕ} {conTo conTo' : TcpConnectionTo} {tcpCon tcpCon' : TcpCon}

/-- The connections that are found are the live ones. -/
theorem getConnection_eq_some : tcpC.getConnection n = some conTo ↔ tcpC.connections[n]? = some conTo ∧
    conTo.status ≠ .none := by
  rw [getConnection, view, bind_eq_some_iff]
  constructor
  · rintro ⟨old, hold, hlive⟩
    obtain ⟨hstatus, rfl⟩ := TcpConnectionTo.live?_eq_some.mp hlive
    exact ⟨hold, hstatus⟩
  · rintro ⟨hold, hstatus⟩
    exact ⟨conTo, hold, TcpConnectionTo.live?_eq_some.mpr ⟨hstatus, rfl⟩⟩

/-- The relays that are found are the live ones. -/
theorem getTcpConnection_eq_some :
    tcpC.getTcpConnection k = some tcpCon ↔ tcpC.tcpConnections[k]? = some tcpCon ∧ tcpCon.status ≠ .none := by
  rw [getTcpConnection, view, bind_eq_some_iff]
  constructor
  · rintro ⟨old, hold, hlive⟩
    obtain ⟨hstatus, rfl⟩ := TcpCon.live?_eq_some.mp hlive
    exact ⟨hold, hstatus⟩
  · rintro ⟨hold, hstatus⟩
    exact ⟨tcpCon, hold, TcpCon.live?_eq_some.mpr ⟨hstatus, rfl⟩⟩

/-- A connection in use is written. -/
theorem getConnection_set (hget : tcpC.getConnection n = some conTo) (hlive : conTo'.status ≠ .none) :
    (tcpC.setConnection n conTo').getConnection = update tcpC.getConnection n (some conTo') := by
  rw [setConnection]
  unfold getConnection
  dsimp only
  rw [view_set (getConnection_eq_some.mp hget).1, TcpConnectionTo.live?_eq_some.mpr ⟨hlive, rfl⟩]

/-- A relay in use is written. -/
theorem getTcpConnection_set (hget : tcpC.getTcpConnection k = some tcpCon) (hlive : tcpCon'.status ≠ .none) :
    (tcpC.setTcpConnection k tcpCon').getTcpConnection = update tcpC.getTcpConnection k (some tcpCon') := by
  rw [setTcpConnection]
  unfold getTcpConnection
  dsimp only
  rw [view_set (getTcpConnection_eq_some.mp hget).1, TcpCon.live?_eq_some.mpr ⟨hlive, rfl⟩]

/-- A relay that was written is found. -/
theorem getTcpConnection_set_self (tcpCon' : TcpCon) (hget : tcpC.getTcpConnection k = some tcpCon)
    (hlive : tcpCon'.status ≠ .none) : (tcpC.setTcpConnection k tcpCon').getTcpConnection k = some tcpCon' := by
  rw [getTcpConnection_set hget hlive, update_self]

/-- A relay that the onion uses. -/
def usedByOnion (tcpCon : TcpCon) : Bool := tcpCon.status ≠ .none ∧ tcpCon.onion

/-- The free slots of both tables are cleared. -/
def CleanTables (tcpC : TcpConnections) : Prop :=
  Clean (fun conTo => conTo.status = .none) .zero tcpC.connections ∧
    Clean (fun tcpCon => tcpCon.status = .none) .zero tcpC.tcpConnections

/-- What holds of both tables. -/
structure Sound (tcpC : TcpConnections) : Prop where
  keys : ∀ m n a b, tcpC.getConnection m = some a → tcpC.getConnection n = some b → a.publicKey = b.publicKey → m = n
  relayKeys : ∀ k l s t, tcpC.getTcpConnection k = some s → tcpC.getTcpConnection l = some t → s.key? = t.key? → k = l
  named : ∀ n a i k, tcpC.getConnection n = some a → (a.connections i).tcpConnection = some k →
    (tcpC.getTcpConnection k).isSome
  once : ∀ n a, tcpC.getConnection n = some a → a.Once
  fit : ∀ k t, tcpC.getTcpConnection k = some t → t.Fit
  onion : tcpC.onionNumConns.toNat = tcpC.tcpConnections.countP usedByOnion
  onionMax : tcpC.onionNumConns.toNat ≤ numOnionTcpConnections
  onionOff : tcpC.onionStatus = false → tcpC.onionNumConns = 0
  clean : tcpC.CleanTables

/-- What holds of both tables holds after a change that makes no connection and no relay. -/
theorem Sound.of_views (h : tcpC.Sound) {next : TcpConnections}
    (hconns : ∀ n a', next.getConnection n = some a' → ∃ a, tcpC.getConnection n = some a ∧ a'.publicKey = a.publicKey ∧
      a'.Once ∧ ∀ i k, (a'.connections i).tcpConnection = some k → (next.getTcpConnection k).isSome)
    (hrelays : ∀ k t', next.getTcpConnection k = some t' → ∃ t, tcpC.getTcpConnection k = some t ∧ t'.key? = t.key? ∧
      t'.Fit) (honion : next.onionNumConns.toNat = next.tcpConnections.countP usedByOnion)
    (hmax : next.onionNumConns.toNat ≤ numOnionTcpConnections) (hoff : next.onionStatus = false →
      next.onionNumConns = 0) (hclean : next.CleanTables) : next.Sound where
  keys m n a b ha hb heq := by
    obtain ⟨a₀, ha₀, hka, -⟩ := hconns m a ha
    obtain ⟨b₀, hb₀, hkb, -⟩ := hconns n b hb
    exact h.keys m n a₀ b₀ ha₀ hb₀ (hka.symm.trans (heq.trans hkb))
  relayKeys k l s t hs ht heq := by
    obtain ⟨s₀, hs₀, hks, -⟩ := hrelays k s hs
    obtain ⟨t₀, ht₀, hkt, -⟩ := hrelays l t ht
    exact h.relayKeys k l s₀ t₀ hs₀ ht₀ (hks.symm.trans (heq.trans hkt))
  named n a i k ha := (hconns n a ha).choose_spec.2.2.2 i k
  once n a ha := (hconns n a ha).choose_spec.2.2.1
  fit k t ht := (hrelays k t ht).choose_spec.2.2
  onion := honion
  onionMax := hmax
  onionOff := hoff
  clean := hclean

/-- A relay is written that is the same but for its counters, its ports and when it connected. -/
structure SameRelay (tcpCon tcpCon' : TcpCon) : Prop where
  status : tcpCon'.status = tcpCon.status
  key : tcpCon'.key? = tcpCon.key?
  connection : tcpCon'.connection.isSome = tcpCon.connection.isSome
  onion : tcpCon'.onion = tcpCon.onion

theorem SameRelay.refl (tcpCon : TcpCon) : SameRelay tcpCon tcpCon := ⟨rfl, rfl, rfl, rfl⟩

theorem SameRelay.trans {tcpCon'' : TcpCon} (h : SameRelay tcpCon tcpCon') (h' : SameRelay tcpCon' tcpCon'') :
    SameRelay tcpCon tcpCon'' :=
  ⟨h'.status.trans h.status, h'.key.trans h.key, h'.connection.trans h.connection, h'.onion.trans h.onion⟩

/-- It fits as before. -/
theorem SameRelay.fit (h : SameRelay tcpCon tcpCon') (hfit : tcpCon.Fit) : tcpCon'.Fit where
  client := by
    rw [h.connection, h.status]
    exact hfit.client
  onion := by
    rw [h.onion, h.status]
    exact hfit.onion

/-- The TCP connection of a relay is written, with the same key. -/
theorem SameRelay.mapClient (tcpCon : TcpCon) {f : TcpClientConnection → TcpClientConnection}
    (hf : ∀ connection, (f connection).publicKey = connection.publicKey) :
    SameRelay tcpCon { tcpCon with connection := tcpCon.connection.map f } := by
  refine ⟨rfl, ?_, isSome_map, rfl⟩
  rw [TcpCon.key?, TcpCon.key?]
  dsimp only
  rw [Option.map_map, show TcpClientConnection.publicKey ∘ f = TcpClientConnection.publicKey from funext hf]

/-- A relay is written, with the same key and the same use for the onion. -/
theorem Sound.setRelay (h : tcpC.Sound) (hget : tcpC.getTcpConnection k = some tcpCon) (hlive : tcpCon'.status ≠ .none)
    (hkey : tcpCon'.key? = tcpCon.key?) (hfit : tcpCon'.Fit)
    (honion : tcpCon'.onion = tcpCon.onion) : (tcpC.setTcpConnection k tcpCon').Sound := by
  obtain ⟨hold, hused⟩ := getTcpConnection_eq_some.mp hget
  have hview := getTcpConnection_set hget hlive
  refine h.of_views (fun n a' ha' =>
    ⟨a', ha', rfl, h.once n a' ha', fun i l hl => ?_⟩) (fun l t' ht' => ?_) ?_ h.onionMax
    h.onionOff ⟨h.clean.1, h.clean.2.set k fun hfree => absurd (of_decide_eq_true hfree) hlive⟩
  · rw [hview]
    by_cases hlk : l = k
    · subst hlk
      rw [update_self]
      rfl
    · rw [update_of_ne hlk]
      exact h.named n a' i l ha' hl
  · rw [hview] at ht'
    by_cases hlk : l = k
    · subst hlk
      rw [update_self] at ht'
      obtain rfl := some_inj.mp ht'
      exact ⟨tcpCon, hget, hkey, hfit⟩
    · rw [update_of_ne hlk] at ht'
      exact ⟨t', ht', rfl, h.fit l t' ht'⟩
  · have hcount := countP_set (p := usedByOnion) hold tcpCon'
    have hsame : usedByOnion tcpCon' = usedByOnion tcpCon := by
      rw [usedByOnion, usedByOnion, honion]
      exact decide_eq_decide.mpr ⟨fun h => ⟨hused, h.2⟩, fun h => ⟨hlive, h.2⟩⟩
    rw [hsame] at hcount
    exact h.onion.trans (Nat.add_right_cancel hcount).symm

/-- A relay is written whose identity stays. -/
theorem Sound.setSameRelay (h : tcpC.Sound) (hget : tcpC.getTcpConnection k = some tcpCon)
    (hsame : SameRelay tcpCon tcpCon') :
    (tcpC.setTcpConnection k tcpCon').Sound := by
  have hlive := (getTcpConnection_eq_some.mp hget).2
  exact h.setRelay hget (hsame.status ▸ hlive) hsame.key (hsame.fit (h.fit k tcpCon hget)) hsame.onion

/-- Relays are written that stay the same. -/
theorem Sound.onRelays (h : tcpC.Sound) {f : TcpCon → RelaySlot → TcpCon}
    (hf : ∀ tcpCon slot, SameRelay tcpCon (f tcpCon slot))
    (conTo : TcpConnectionTo) : (tcpC.onRelays f conTo).Sound := by
  unfold TcpConnections.onRelays
  induction List.finRange maxFriendTcpConnections generalizing tcpC with
  | nil => exact h
  | cons i slots ih =>
    rw [List.foldl_cons]
    refine ih ?_
    unfold onRelay
    split
    · exact h
    · split
      · exact h
      · rename_i hget
        exact h.setSameRelay hget (hf _ _)

/-- Connections stay as they are while relays are written. -/
theorem onRelays_connections (f : TcpCon → RelaySlot → TcpCon) (conTo : TcpConnectionTo) :
    (tcpC.onRelays f conTo).connections = tcpC.connections := by
  unfold TcpConnections.onRelays
  induction List.finRange maxFriendTcpConnections generalizing tcpC with
  | nil => rfl
  | cons i slots ih =>
    rw [List.foldl_cons, ih]
    unfold onRelay
    split
    · rfl
    · split <;> rfl

/-- A disconnect request keeps the key of the relay. -/
theorem publicKey_sendDisconnectRequest (connection : TcpClientConnection) (connectionId : UInt8) :
    (connection.sendDisconnectRequest connectionId).publicKey = connection.publicKey := by
  rw [TcpClientConnection.sendDisconnectRequest]
  split <;> rfl

/-- A connection number keeps the key of the relay. -/
theorem publicKey_setTcpConnectionNumber (connection : TcpClientConnection) (conId : Fin numClientConnections)
    (number : UInt32) : (connection.setTcpConnectionNumber conId number).publicKey = connection.publicKey := by
  rw [TcpClientConnection.setTcpConnectionNumber]
  split <;> rfl

/-- A released relay is the same relay. -/
theorem sameRelay_release (conTo : TcpConnectionTo) (tcpCon : TcpCon) (slot : RelaySlot) :
    SameRelay tcpCon (tcpCon.release conTo slot) := by
  have hclosed := SameRelay.mapClient tcpCon fun connection =>
    publicKey_sendDisconnectRequest connection slot.connectionId
  unfold TcpCon.release
  split
  · split
    · exact ⟨hclosed.status, hclosed.key, hclosed.connection, hclosed.onion⟩
    · exact hclosed
  · split
    · exact ⟨rfl, rfl, rfl, rfl⟩
    · exact .refl _

/-- A relay that wakes up is the same relay. -/
theorem sameRelay_wakeUp (tcpCon : TcpCon) (slot : RelaySlot) : SameRelay tcpCon (tcpCon.wakeUp slot) := by
  unfold TcpCon.wakeUp
  split
  · exact ⟨rfl, rfl, rfl, rfl⟩
  · exact .refl _

/-- A relay that falls asleep is the same relay. -/
theorem sameRelay_fallAsleep (tcpCon : TcpCon) (slot : RelaySlot) : SameRelay tcpCon (tcpCon.fallAsleep slot) := by
  unfold TcpCon.fallAsleep
  split
  · exact ⟨rfl, rfl, rfl, rfl⟩
  · exact .refl _

/-- A connection is written, with the same key and relays that are in use. -/
theorem Sound.setConnection (h : tcpC.Sound) (hget : tcpC.getConnection n = some conTo) (hlive : conTo'.status ≠ .none)
    (hkey : conTo'.publicKey = conTo.publicKey) (honce : conTo'.Once)
    (hnamed : ∀ i k, (conTo'.connections i).tcpConnection = some k → (tcpC.getTcpConnection k).isSome) :
    (tcpC.setConnection n conTo').Sound := by
  have hview := getConnection_set hget hlive
  refine h.of_views (fun m a' ha' => ?_) (fun l t' ht' => ⟨t', ht', rfl, h.fit l t' ht'⟩) h.onion h.onionMax h.onionOff
    ⟨h.clean.1.set n fun hfree => absurd (of_decide_eq_true hfree) hlive, h.clean.2⟩
  rw [hview] at ha'
  by_cases hmn : m = n
  · subst hmn
    rw [update_self] at ha'
    obtain rfl := some_inj.mp ha'
    exact ⟨conTo, hget, hkey, honce, hnamed⟩
  · rw [update_of_ne hmn] at ha'
    exact ⟨a', ha', rfl, h.once m a' ha', fun i l hl => h.named m a' i l ha' hl⟩

/-- A connection is written whose relays it had already. -/
theorem Sound.setWithin (h : tcpC.Sound) (hget : tcpC.getConnection n = some conTo) (hlive : conTo'.status ≠ .none)
    (hkey : conTo'.publicKey = conTo.publicKey) (hwithin : conTo'.Within conTo) : (tcpC.setConnection n conTo').Sound :=
  h.setConnection hget hlive hkey (hwithin.once (h.once n conTo hget)) fun i k hk =>
    h.named n conTo i k hget (hwithin i k hk)

/-- A connection is wiped. -/
theorem getConnection_wipe (hget : tcpC.getConnection n = some conTo) :
    (tcpC.wipeConnection n).getConnection = update tcpC.getConnection n none := by
  unfold wipeConnection getConnection
  dsimp only
  rw [view_rdropWhile, view_set (getConnection_eq_some.mp hget).1]
  · rfl
  · intro conTo hnone
    rw [TcpConnectionTo.live?, if_pos (of_decide_eq_true hnone)]

/-- A relay is wiped. -/
theorem getTcpConnection_wipe (hget : tcpC.getTcpConnection k = some tcpCon) :
    (tcpC.wipeTcpConnection k).getTcpConnection = update tcpC.getTcpConnection k none := by
  unfold wipeTcpConnection getTcpConnection
  dsimp only
  rw [view_rdropWhile, view_set (getTcpConnection_eq_some.mp hget).1]
  · rfl
  · intro tcpCon hnone
    rw [TcpCon.live?, if_pos (of_decide_eq_true hnone)]

/-- A connection is wiped. -/
theorem Sound.wipeConnection (h : tcpC.Sound) (hget : tcpC.getConnection n = some conTo) :
    (tcpC.wipeConnection n).Sound := by
  have hview := getConnection_wipe hget
  refine h.of_views (fun m a' ha' => ?_) (fun l t' ht' => ⟨t', ht', rfl, h.fit l t' ht'⟩) h.onion h.onionMax h.onionOff
    ⟨(h.clean.1.set n fun _ => rfl).rdropWhile _, h.clean.2⟩
  rw [hview] at ha'
  by_cases hmn : m = n
  · subst hmn
    rw [update_self] at ha'
    nomatch ha'
  · rw [update_of_ne hmn] at ha'
    exact ⟨a', ha', rfl, h.once m a' ha', fun i l hl => h.named m a' i l ha' hl⟩

variable {f : TcpConnectionTo → TcpConnectionTo}

/-- Something is done to every connection. -/
theorem getConnection_map (hf : ∀ conTo, (f conTo).status = conTo.status) (n : ℕ) :
    (tcpC.mapConnections f).getConnection n = (tcpC.getConnection n).map f := by
  rw [mapConnections, getConnection, getConnection, view_map, view, view]
  cases tcpC.connections[n]? with
  | none => rfl
  | some conTo =>
    rw [bind_some, bind_some, Function.comp_apply, TcpConnectionTo.live?, TcpConnectionTo.live?]
    by_cases hnone : conTo.status = .none
    · rw [if_pos hnone, if_pos hnone]
      rfl
    · rw [if_neg hnone, if_neg hnone, hf, if_neg hnone]
      rfl

/-- The onion loses a relay. -/
theorem Sound.dropOnion (h : tcpC.Sound) (hget : tcpC.getTcpConnection k = some tcpCon) {x : TcpCon}
    (hx : usedByOnion x = false) :
    (tcpC.dropOnion tcpCon).onionNumConns.toNat = (tcpC.tcpConnections.set k x).countP usedByOnion ∧
      (tcpC.dropOnion tcpCon).onionNumConns.toNat ≤ numOnionTcpConnections ∧
      (tcpC.onionStatus = false → (tcpC.dropOnion tcpCon).onionNumConns = 0) := by
  obtain ⟨hold, hlive⟩ := getTcpConnection_eq_some.mp hget
  have hcount := countP_set (p := usedByOnion) hold x
  rw [hx, if_neg Bool.false_ne_true, Nat.add_zero, ← h.onion] at hcount
  have hmax := h.onionMax
  rw [TcpConnections.dropOnion]
  by_cases honion : tcpCon.onion = true
  · have hused : usedByOnion tcpCon = true := decide_eq_true ⟨hlive, honion⟩
    rw [hused, if_pos rfl] at hcount
    have hpos : 1 ≤ tcpC.onionNumConns := by
      rw [UInt16.le_iff_toNat_le, UInt16.toNat_one]
      omega
    have hsub := UInt16.toNat_sub_of_le tcpC.onionNumConns 1 hpos
    rw [UInt16.toNat_one] at hsub
    rw [if_pos honion]
    refine ⟨by dsimp only; omega, by dsimp only; omega, fun hstatus => ?_⟩
    rw [h.onionOff hstatus] at hcount
    exact absurd hcount (Nat.succ_ne_zero _)
  · have hunused : usedByOnion tcpCon = false := decide_eq_false fun hboth => honion hboth.2
    rw [hunused, if_neg Bool.false_ne_true, Nat.add_zero] at hcount
    rw [if_neg honion]
    exact ⟨hcount.symm, hmax, h.onionOff⟩

/-- A relay that is not used by the onion any more is written or wiped, while connections lose its slot or their
status on it. -/
theorem Sound.replaceRelay (h : tcpC.Sound) (hget : tcpC.getTcpConnection k = some tcpCon) (relay : Option TcpCon)
    (x : TcpCon) {next : TcpConnections} (hconns : ∀ n, next.getConnection n = (tcpC.getConnection n).map f)
    (hkey : ∀ conTo, (f conTo).publicKey = conTo.publicKey) (hwithin : ∀ conTo, (f conTo).Within conTo)
    (hrelays : next.getTcpConnection = update tcpC.getTcpConnection k relay)
    (hrelay : ∀ t, relay = some t → t.key? = tcpCon.key? ∧ t.Fit)
    (hgone : relay = none → ∀ conTo i, conTo.Once → ((f conTo).connections i).tcpConnection ≠ some k)
    (hx : usedByOnion x = false) (hnum : next.onionNumConns = (tcpC.dropOnion tcpCon).onionNumConns)
    (hcount : next.tcpConnections.countP usedByOnion = (tcpC.tcpConnections.set k x).countP usedByOnion)
    (hstatus : next.onionStatus = tcpC.onionStatus) (hclean : next.CleanTables) : next.Sound := by
  obtain ⟨honion, hmax, hoff⟩ := h.dropOnion hget hx
  refine h.of_views (fun n a' ha' => ?_) (fun l t' ht' => ?_) (by rw [hnum, honion, hcount]) (hnum ▸ hmax)
    (fun hnone => hnum ▸ hoff (hstatus ▸ hnone)) hclean
  · rw [hconns] at ha'
    obtain ⟨a, ha, rfl⟩ := map_eq_some_iff.mp ha'
    have honce := h.once n a ha
    refine ⟨a, ha, hkey a, (hwithin a).once honce, fun i l hl => ?_⟩
    rw [hrelays]
    by_cases hlk : l = k
    · subst hlk
      rw [update_self]
      cases relay with
      | none => exact absurd hl (hgone rfl a i honce)
      | some t => rfl
    · rw [update_of_ne hlk]
      exact h.named n a i l ha (hwithin a i l hl)
  · rw [hrelays] at ht'
    by_cases hlk : l = k
    · subst hlk
      rw [update_self] at ht'
      exact ⟨tcpCon, hget, hrelay t' ht'⟩
    · rw [update_of_ne hlk] at ht'
      exact ⟨t', ht', rfl, h.fit l t' ht'⟩

/-- Connections are mapped, and the onion loses a relay. -/
theorem dropOnion_mapped (tcpC : TcpConnections) (tcpCon : TcpCon) (hf : ∀ conTo, (f conTo).status = conTo.status) :
    ∃ next, (tcpC.mapConnections f).dropOnion tcpCon = next ∧
      (∀ n, next.getConnection n = (tcpC.getConnection n).map f) ∧
      next.getTcpConnection = tcpC.getTcpConnection ∧ next.connections = (tcpC.mapConnections f).connections ∧
      next.tcpConnections = tcpC.tcpConnections ∧ next.onionStatus = tcpC.onionStatus ∧
      next.onionNumConns = (tcpC.dropOnion tcpCon).onionNumConns := by
  refine ⟨_, rfl, fun n => ?_, ?_, ?_⟩
  · rw [← getConnection_map hf, getConnection, getConnection, dropOnion]
    split <;> rfl
  · unfold getTcpConnection dropOnion
    split <;> rfl
  · rw [dropOnion, dropOnion]
    split <;> exact ⟨rfl, rfl, rfl, rfl⟩

/-- A relay that is taken off leaves status and key alone. -/
theorem rm_fields (conTo : TcpConnectionTo) (k : ℕ) : (conTo.rmTcpConnectionFromConn k).status = conTo.status ∧
    (conTo.rmTcpConnectionFromConn k).publicKey = conTo.publicKey := by
  unfold TcpConnectionTo.rmTcpConnectionFromConn
  split <;> exact ⟨rfl, rfl⟩

/-- Free slots stay cleared while connections are mapped. -/
theorem Sound.cleanMap (h : tcpC.Sound) (hf : ∀ conTo, (f conTo).status = conTo.status) :
    Clean (fun conTo => conTo.status = .none) .zero (tcpC.mapConnections f).connections := by
  refine h.clean.1.map fun conTo hfree => ?_
  by_cases hnone : conTo.status = .none
  · exact if_pos hnone
  · rw [if_neg hnone] at hfree
    exact absurd ((hf conTo).symm.trans (of_decide_eq_true hfree)) hnone

/-- A relay is killed. -/
theorem Sound.killTcpRelayConnection (h : tcpC.Sound) (k : ℕ) : (tcpC.killTcpRelayConnection k).2.Sound := by
  unfold TcpConnections.killTcpRelayConnection
  cases hget : tcpC.getTcpConnection k with
  | none => exact h
  | some tcpCon =>
    obtain ⟨next, hnext, hconns, hrelays, hmapped, htable, hstatus, hnum⟩ :=
      dropOnion_mapped tcpC tcpCon fun conTo => (rm_fields conTo k).1
    have hclean := h.cleanMap fun conTo => (rm_fields conTo k).1
    rw [← hmapped] at hclean
    simp only [hnext]
    have hget' : next.getTcpConnection k = some tcpCon := by rw [hrelays, hget]
    refine h.replaceRelay hget none .zero hconns (fun conTo => (rm_fields conTo k).2)
      (fun conTo => conTo.within_rm k) ?_ nofun (fun _ conTo i honce =>
        conTo.rm_not_named honce k i) rfl hnum ?_ hstatus
      ⟨hclean, ((htable ▸ h.clean.2 : Clean _ _ next.tcpConnections).set k fun _ => rfl).rdropWhile _⟩
    · rw [getTcpConnection_wipe hget', hrelays]
    · rw [wipeTcpConnection, countP_rdropWhile, htable]
      exact fun t hnone => decide_eq_false fun hboth => hboth.1 (of_decide_eq_true hnone)

/-- Connections lose their status on a relay. -/
theorem clear_fields (conTo : TcpConnectionTo) (k : ℕ) :
    ((conTo.setTcpConnectionStatus k .none 0).getD conTo).status = conTo.status ∧
      ((conTo.setTcpConnectionStatus k .none 0).getD conTo).publicKey = conTo.publicKey ∧
      ((conTo.setTcpConnectionStatus k .none 0).getD conTo).Within conTo := by
  cases hset : conTo.setTcpConnectionStatus k .none 0 with
  | none => exact ⟨rfl, rfl, .refl _⟩
  | some conTo' =>
    rw [getD_some]
    have hwithin := TcpConnectionTo.setTcpConnectionStatus_within hset
    obtain ⟨i, -, -, rfl⟩ := TcpConnectionTo.setTcpConnectionStatus_some hset
    exact ⟨rfl, rfl, hwithin⟩

/-- A relay is reset, with the same key. -/
theorem Sound.resetRelay (h : tcpC.Sound) (hget : tcpC.getTcpConnection k = some tcpCon)
    (hlive : tcpCon'.status ≠ .none) (hkey : tcpCon'.key? = tcpCon.key?) (hfit : tcpCon'.Fit)
    (honion : tcpCon'.onion = false) :
    (((tcpC.clearStatuses k).dropOnion tcpCon).setTcpConnection k tcpCon').Sound := by
  obtain ⟨next, hnext, hconns, hrelays, hmapped, htable, hstatus, hnum⟩ :=
    dropOnion_mapped tcpC tcpCon fun conTo => (clear_fields conTo k).1
  have hclean := h.cleanMap fun conTo => (clear_fields conTo k).1
  rw [← hmapped] at hclean
  rw [clearStatuses, hnext]
  have hget' : next.getTcpConnection k = some tcpCon := by rw [hrelays, hget]
  refine h.replaceRelay hget (some tcpCon') tcpCon' hconns (fun conTo => (clear_fields conTo k).2.1)
    (fun conTo => (clear_fields conTo k).2.2) ?_ ?_ nofun (decide_eq_false fun hboth => ?_) hnum ?_ hstatus
    ⟨hclean, (htable ▸ h.clean.2 : Clean _ _ next.tcpConnections).set k fun hfree =>
      absurd (of_decide_eq_true hfree) hlive⟩
  · rw [getTcpConnection_set hget' hlive, hrelays]
  · rintro t ⟨⟩
    exact ⟨hkey, hfit⟩
  · rw [honion] at hboth
    exact Bool.false_ne_true hboth.2
  · rw [setTcpConnection, htable]

end TcpConnections

end Toxcore
