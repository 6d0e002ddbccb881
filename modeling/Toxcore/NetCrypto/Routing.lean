import Toxcore.Data.Reentrant
import Toxcore.NetCrypto.Handling
import Toxcore.NetCrypto.Operations
import Toxcore.NetCrypto.Routes

/-!
# The connection table and the address index agree

Every operation on `Net_Crypto` keeps the routes valid, on its failing paths too, whatever the
callbacks do. So in every reachable state no two live connections have the same real key, the index
maps exactly the current addresses of live connections, and a UDP packet that is routed by its source
goes to a live connection that has this source as an address.
-/

namespace Toxcore

open ByteStrings List

namespace NetCrypto

/-- The routes of the table are valid with the address index. -/
def RoutesValid (c : NetCrypto) : Prop := Toxcore.RoutesValid c.ipPortList c.routes

/-- Writing a connection writes its route. -/
theorem routes_setConnection (c : NetCrypto) (id : ℕ) (conn : CryptoConnection) :
    (c.setConnection id conn).routes = c.routes.set id (routeOf conn) :=
  map_set

variable {c c' : NetCrypto} {conn : CryptoConnection} {id : ℕ}

/-- The route of a connection. -/
theorem routes_get (hconn : c.cryptoConnections[id]? = some conn) : c.routes[id]? = some (routeOf conn) := by
  rw [routes, getElem?_map, hconn, Option.map_some]

/-- Sending changes no route. -/
theorem SendsOnly.routes (h : SendsOnly c c') : c'.routes = c.routes := by
  have hquiet : (routeOf ∘ quiet) = routeOf := rfl
  rw [NetCrypto.routes, NetCrypto.routes, ← hquiet, ← map_map, h.connections, map_map]

/-- Sending keeps the routes valid. -/
theorem SendsOnly.routesValid (h : SendsOnly c c') (hvalid : c.RoutesValid) : c'.RoutesValid := by
  rw [RoutesValid, h.ipPortList, h.routes]
  exact hvalid

/-- A connection may be written back when its route is the same. -/
theorem RoutesValid.setConnection (h : c.RoutesValid) (hconn : c.cryptoConnections[id]? = some conn)
    (conn' : CryptoConnection) (hroute : routeOf conn' = routeOf conn) : (c.setConnection id conn').RoutesValid := by
  have hsame : (c.setConnection id conn').routes = c.routes := by
    rw [routes_setConnection, hroute, ← routes_setConnection, setConnection_self hconn]
  rw [RoutesValid, hsame]
  exact h

variable {f : CryptoConnection → CryptoConnection}

/-- A connection is changed that keeps its route. -/
theorem RoutesValid.modifyConnection (h : c.RoutesValid) (id : ℕ) (hf : ∀ conn, routeOf (f conn) = routeOf conn) :
    (c.modifyConnection id f).RoutesValid :=
  modifyConnection_kept h fun conn hconn => h.setConnection hconn _ (hf conn)

/-- A connection in use has a live route. -/
theorem routeOf_live (hlive : conn.status ≠ .noConnection) : (routeOf conn).live = true :=
  decide_eq_true hlive

/-! ## Addresses -/

/-- The IPv4 address of a route is written. -/
theorem routeOf_ipPortv4 (conn : CryptoConnection) (ipPort : IpPort) :
    routeOf { conn with ipPortv4 := ipPort } = (routeOf conn).setAddress .v4 ipPort := by
  refine Route.ext rfl rfl ?_
  funext family
  cases family <;> rfl

/-- The IPv6 address of a route is written. -/
theorem routeOf_ipPortv6 (conn : CryptoConnection) (ipPort : IpPort) :
    routeOf { conn with ipPortv6 := ipPort } = (routeOf conn).setAddress .v6 ipPort := by
  refine Route.ext rfl rfl ?_
  funext family
  cases family <;> rfl

/-- One branch of `add_ip_port_connection`. -/
theorem RoutesValid.replaceAddress (h : c.RoutesValid) {conn' : CryptoConnection}
    (hconn : c.getCryptoConnection id = some conn) (family : AddressFamily) {ipPort : IpPort}
    (hfamily : ipPort.ip.family = family.code) (hroute : routeOf conn' = (routeOf conn).setAddress family ipPort)
    (env : Env) {list : BsList} (hadd : bsListAdd (env.alloc .indexGrow) c.ipPortList ipPort.stored id = (true, list)) :
    NetCrypto.RoutesValid ({ c with
      ipPortList := (bsListRemove (env.alloc .indexShrink) list ((routeOf conn).address family).stored id).2
      }.setConnection id conn') := by
  obtain ⟨hget, hlive⟩ := getCryptoConnection_eq_some.mp hconn
  have hstored : ipPort.stored.length = c.ipPortList.elementSize := by rw [IpPort.stored_length, h.size]
  rw [NetCrypto.RoutesValid, routes_setConnection, hroute]
  rcases h.wellFormed.bsListAdd_spec hstored (env.alloc .indexGrow) id with
    ⟨list', heq, hwell, hsize, hadded⟩ | ⟨heq, -⟩
  · obtain rfl : list = list' := (Prod.mk.inj (hadd.symm.trans heq)).2
    exact Toxcore.RoutesValid.replaceAddress h (routes_get hget) (routeOf_live hlive) hfamily hwell hsize
      hadded _
  · rw [hadd] at heq
    exact absurd (Prod.mk.inj heq).1 Bool.true_eq_false.mp

/-- An address is put into the index. -/
theorem RoutesValid.addIpPortConnection (h : c.RoutesValid) (env : Env) (id : ℕ) (ipPort : IpPort) :
    (addIpPortConnection env c id ipPort).2.RoutesValid := by
  unfold NetCrypto.addIpPortConnection
  split
  · exact h
  · rename_i conn hconn
    split
    · rename_i hfamily
      split
      · split
        · exact h
        · rename_i list hadd
          exact h.replaceAddress hconn .v4 hfamily (routeOf_ipPortv4 conn ipPort) env hadd
      · exact h
    · split
      · rename_i hfamily
        split
        · split
          · exact h
          · rename_i list hadd
            exact h.replaceAddress hconn .v6 hfamily (routeOf_ipPortv6 conn ipPort) env hadd
        · exact h
      · exact h

/-- The time of a direct packet is not part of the route. -/
theorem routeOf_setDirectLastrecvTime (time : UInt64) (ipPort : IpPort) (conn : CryptoConnection) :
    routeOf (setDirectLastrecvTime time ipPort conn) = routeOf conn := by
  unfold setDirectLastrecvTime
  split <;> rfl

/-- The source of a packet is noted. -/
theorem RoutesValid.cryptoConnectionAddSource (h : c.RoutesValid) (env : Env) (id : ℕ) (source : IpPort) :
    (cryptoConnectionAddSource env c id source).2.RoutesValid := by
  unfold NetCrypto.cryptoConnectionAddSource
  split
  · exact h
  · have hadd := h.addIpPortConnection env id source
    split
    · dsimp only
      split
      · exact hadd.modifyConnection id (routeOf_setDirectLastrecvTime _ _)
      · exact hadd
    · split <;> exact h

/-- A direct address is set from above. -/
theorem RoutesValid.setDirectIpPort (h : c.RoutesValid) (env : Env) (id : ℕ) (ipPort : IpPort) (connected : Bool) :
    (setDirectIpPort env c id ipPort connected).2.RoutesValid := by
  unfold NetCrypto.setDirectIpPort
  split
  · exact h
  · have hadd := h.addIpPortConnection env id ipPort
    dsimp only
    split
    · exact hadd.modifyConnection id (routeOf_setDirectLastrecvTime _ _)
    · exact hadd

/-! ## Creating and killing connections -/

section

variable (h : c.RoutesValid)
include h

/-- The table after a slot was found for a new connection: still valid, and without the key that the
caller looked for. -/
theorem RoutesValid.createCryptoConnection {env : Env} {result : Option ℕ}
    (hcreate : createCryptoConnection env c = (result, c')) :
    c'.RoutesValid ∧ ∀ publicKey, getcryptconnectionId c publicKey = none →
      ∀ (j : ℕ) route, c'.routes[j]? = some route → route.live = true → route.publicKey ≠ publicKey := by
  have hzero : (routeOf .zero).live = false ∧ (routeOf .zero).Unset :=
    ⟨rfl, fun family => by cases family <;> rfl⟩
  have hroutes : c'.RoutesValid ∧ (c'.routes = c.routes ∨ c'.routes = c.routes ++ [routeOf .zero]) := by
    rcases (createCryptoConnection_spec hcreate).1 with rfl | rfl
    · exact ⟨h, .inl rfl⟩
    · have hroutes : NetCrypto.routes { c with cryptoConnections := c.cryptoConnections ++ [.zero] } =
          c.routes ++ [routeOf .zero] := map_append
      refine ⟨?_, .inr hroutes⟩
      rw [NetCrypto.RoutesValid, hroutes]
      exact Toxcore.RoutesValid.append h hzero.1 hzero.2
  refine ⟨hroutes.1, fun publicKey hnone j route hroute hlive => ?_⟩
  have hmem : route ∈ c.routes := by
    have hmem := mem_of_getElem? hroute
    rcases hroutes.2 with heq | heq
    · rwa [heq] at hmem
    · rw [heq, mem_append, mem_singleton] at hmem
      rcases hmem with hmem | rfl
      · exact hmem
      · rw [hzero.1] at hlive
        contradiction
  obtain ⟨conn, hconn, rfl⟩ := mem_map.mp hmem
  exact getcryptconnectionId_none hnone hconn (of_decide_eq_true hlive)

/-- A slot without addresses may change hands. -/
theorem RoutesValid.setIdentity {conn' : CryptoConnection} (hconn : c.cryptoConnections[id]? = some conn)
    (hunset : (routeOf conn).Unset) (haddress : (routeOf conn').address = (routeOf conn).address)
    (hfresh : (routeOf conn').live = true → ∀ (j : ℕ) route, c.routes[j]? = some route → route.live = true →
      route.publicKey = conn'.publicKey → j = id) : (c.setConnection id conn').RoutesValid := by
  rw [NetCrypto.RoutesValid, routes_setConnection]
  exact Toxcore.RoutesValid.setIdentity h (routes_get hconn) _ hunset haddress hfresh

/-- A free slot is filled with a connection to a key that is not in the table. -/
theorem RoutesValid.fill (hconn : c.cryptoConnections[id]? = some conn) (hfree : conn.status = .noConnection)
    (haddress : (routeOf (f conn)).address = (routeOf conn).address)
    (hfresh : ∀ (j : ℕ) route, c.routes[j]? = some route → route.live = true → route.publicKey ≠ (f conn).publicKey) :
    (c.modifyConnection id f).RoutesValid ∧ (c.modifyConnection id f).cryptoConnections[id]? = some (f conn) ∧
      (routeOf (f conn)).Unset := by
  have hunset : (routeOf conn).Unset := h.dead id _ (routes_get hconn) (decide_eq_false (not_not.mpr hfree))
  rw [modifyConnection_eq hconn]
  refine ⟨h.setIdentity hconn hunset haddress ?_, ?_, ?_⟩
  · intro _ j route hroute hlive hkey
    exact absurd hkey (hfresh j route hroute hlive)
  · exact getElem?_set_self (List.getElem?_eq_some_iff.mp hconn).1
  · intro family
    rw [haddress]
    exact hunset family

/-- The slot of a new connection is filled for a key that is not in the table, or given up again. -/
theorem RoutesValid.fills {env : Env} {result : Option ℕ} (hfills : Fills env c f result c') (key : PublicKey)
    (hnone : getcryptconnectionId c key = none)
    (hf : ∀ conn, (routeOf (f conn)).address = (routeOf conn).address ∧ (f conn).publicKey = key) : c'.RoutesValid := by
  have hslot {id : ℕ} {c₁ : NetCrypto} (dht : DhtKeys) (hcreate : NetCrypto.createCryptoConnection env c =
    (some id, c₁)) :
      ({ c₁ with dht := dht }.modifyConnection id f).RoutesValid ∧ ∃ conn,
        ({ c₁ with dht := dht }.modifyConnection id f).cryptoConnections[id]? = some conn ∧ (routeOf conn).Unset := by
    obtain ⟨h₁, hfresh⟩ := h.createCryptoConnection hcreate
    obtain ⟨conn, hconn, hfree⟩ := (createCryptoConnection_spec hcreate).2 id rfl
    obtain ⟨h₂, hfilled⟩ := RoutesValid.fill (c := { c₁ with dht := dht }) h₁ hconn hfree (hf conn).1
      ((hf conn).2 ▸ hfresh key hnone)
    exact ⟨h₂, _, hfilled⟩
  cases hfills with
  | unfilled hcreate => exact (h.createCryptoConnection hcreate).1
  | givenUp dht hcreate hsends =>
    obtain ⟨h₂, conn, hconn, hunset⟩ := hslot dht hcreate
    obtain ⟨conn', hconn', hquiet⟩ := hsends.get hconn
    have hroute : routeOf (quiet conn') = routeOf (quiet conn) := congrArg routeOf hquiet
    have hunset' : (routeOf (quiet conn')).Unset := hroute ▸ hunset
    rw [modifyConnection_eq hconn']
    exact (hsends.routesValid h₂).setIdentity hconn' hunset' rfl nofun
  | filled dht hcreate hsends => exact hsends.routesValid (hslot dht hcreate).1

/-- A connection of a peer is accepted. -/
theorem RoutesValid.acceptCryptoConnection (sodium : Sodium) (env : Env) (nC : NewConnection) :
    (acceptCryptoConnection sodium env c nC).2.RoutesValid := by
  rcases haccept : NetCrypto.acceptCryptoConnection sodium env c nC with ⟨result, c'⟩
  obtain ⟨-, rfl⟩ | ⟨hnone, number, c₃, hfills, hafter⟩ := acceptCryptoConnection_cases haccept
  · exact h
  · have h₃ := h.fills hfills nC.publicKey hnone fun _ => ⟨rfl, rfl⟩
    obtain ⟨-, rfl⟩ | ⟨id, -, rfl⟩ := hafter
    · exact h₃
    · apply RoutesValid.cryptoConnectionAddSource
      exact h₃.modifyConnection id fun _ => rfl

/-- A connection is requested. -/
theorem RoutesValid.newCryptoConnection (sodium : Sodium) (env : Env) (realPublicKey dhtPublicKey : PublicKey) :
    (newCryptoConnection sodium env c realPublicKey dhtPublicKey).2.RoutesValid := by
  rcases hnew : NetCrypto.newCryptoConnection sodium env c realPublicKey dhtPublicKey with ⟨result, c'⟩
  obtain ⟨-, -, rfl⟩ | ⟨hnone, number, sharedKey, hfills⟩ := newCryptoConnection_cases hnew
  · exact h
  · exact h.fills hfills realPublicKey hnone fun _ => ⟨rfl, rfl⟩

end

/-- A slot that is free after wiping does not route, so the table may shrink. -/
theorem RoutesValid.wipeCryptoConnection (h : (c.setConnection id .zero).RoutesValid) :
    (wipeCryptoConnection c id).RoutesValid := by
  let free : CryptoConnection → Bool := fun conn => conn.status = .noConnection
  set table := c.cryptoConnections.set id .zero with htable
  have hsplit : (table.rdropWhile free).map routeOf ++ (table.rtakeWhile free).map routeOf =
      (c.setConnection id .zero).routes := by
    rw [← map_append, rdropWhile_append_rtakeWhile]
    rfl
  rw [NetCrypto.RoutesValid, ← hsplit] at h
  apply Toxcore.RoutesValid.trim h
  intro route hroute
  obtain ⟨conn, hconn, rfl⟩ := mem_map.mp hroute
  have hfree : free conn = true := mem_rtakeWhile_imp hconn
  exact decide_eq_false (not_not.mpr (of_decide_eq_true hfree))

/-- A connection is killed from above. -/
theorem RoutesValid.cryptoKill (h : c.RoutesValid) (sodium : Sodium) (env : Env) (id : ℕ) :
    (cryptoKill sodium env c id).2.RoutesValid := by
  unfold NetCrypto.cryptoKill
  split
  · exact h
  · rename_i conn hconn
    have hsend := killNotice_sendsOnly sodium env c id conn
    dsimp only
    set c₁ := if conn.status = .established then (sendKillPacket sodium env c id).2 else c
    have hlt : id < c₁.routes.length := by
      rw [hsend.routes]
      exact (List.getElem?_eq_some_iff.mp (routes_get (getCryptoConnection_eq_some.mp hconn).1)).1
    have hroute : c₁.routes[id]? = some (routeOf conn) := by
      rw [hsend.routes]
      exact routes_get (getCryptoConnection_eq_some.mp hconn).1
    have hfirst := Toxcore.RoutesValid.clearAddress (hsend.routesValid h) hroute .v4 (env.alloc .indexShrink)
    have hsecond := hfirst.clearAddress (getElem?_set_self hlt) .v6 (env.alloc .indexShrink)
    rw [set_set] at hsecond
    apply RoutesValid.wipeCryptoConnection
    rw [NetCrypto.RoutesValid, routes_setConnection]
    have hwiped := hsecond.setIdentity (getElem?_set_self hlt) (routeOf .zero)
      (fun family => by cases family <;> rfl) (by funext family; cases family <;> rfl) nofun
    rwa [set_set] at hwiped

variable {α : Type}

/-- A connection is killed, and the layer above is told. -/
theorem RoutesValid.connectionKill {w : World α} (h : w.net.RoutesValid) (sodium : Sodium)
    {callbacks : Callbacks α} (hcalls : ∀ u v, callbacks.Calls u v → u.net.RoutesValid → v.net.RoutesValid)
    (env : Env) (id : ℕ) : (connectionKill sodium callbacks env w id).net.RoutesValid := by
  unfold NetCrypto.connectionKill
  split
  · exact h
  · exact (hcalls _ _ (.connectionStatus w id false) h).cryptoKill sodium env id

/-! ## Packets -/

/-- The identity of a connection has its route. -/
theorem routeOf_identityOf (conn : CryptoConnection) : routeOf (identityOf conn) = routeOf conn := by
  refine Route.ext ?_ rfl rfl
  by_cases hdead : conn.status = .noConnection
  · simp [routeOf, identityOf, hdead]
  · simp [routeOf, identityOf, hdead]

/-- Only the routes are looked at, not the sessions. -/
theorem routesValid_ignoresSessions : IgnoresSessions fun w : World α => w.net.RoutesValid where
  write w id conn conn' hconn hidentity h := by
    apply h.setConnection hconn conn'
    rw [← routeOf_identityOf, hidentity, routeOf_identityOf]
  send _ _ hsend h := hsend.routesValid h

/-- The calls of the layer above keep the routes valid. -/
theorem routesValid_keptByCalls (sodium : Sodium) {callbacks : Callbacks α}
    (hcalls : ∀ u v, callbacks.Calls u v → u.net.RoutesValid → v.net.RoutesValid) (env : Env) :
    KeptByCalls sodium callbacks env fun w => w.net.RoutesValid where
  kill _ id h := h.connectionKill sodium hcalls env id
  confirm w id _ _ := hcalls _ _ (.connectionStatus w id true)
  data w id data := hcalls _ _ (.connectionData w id data)
  lossyData w id data := hcalls _ _ (.connectionLossyData w id data)
  dhtPk w id dhtPublicKey := hcalls _ _ (.dhtPk w id dhtPublicKey)
  newConnection w nC := hcalls _ _ (.newConnection w nC)
  addSource _ id source h := h.cryptoConnectionAddSource env id source

end NetCrypto

/-! ## Runs -/

/-- The worlds reached from one to another by operations, each with its callbacks. -/
abbrev WorldReaches {α : Type} (sodium : Sodium) : World α → World α → Prop :=
  Reentrant.Reaches (fun callbacks op w => Operation.exec sodium callbacks op w) Callbacks.Calls fun _ _ => True

/-- Every operation keeps the routes valid. -/
theorem Operation.exec_routesValid {α : Type} {sodium : Sodium} {callbacks : Callbacks α}
    (hcalls : ∀ u v, callbacks.Calls u v → u.net.RoutesValid → v.net.RoutesValid) (op : Operation α) {w : World α}
    (h : w.net.RoutesValid) : (op.exec sodium callbacks w).net.RoutesValid := by
  cases op with
  | newCryptoConnection env realPublicKey dhtPublicKey =>
    exact h.newCryptoConnection sodium env realPublicKey dhtPublicKey
  | acceptCryptoConnection env nC => exact h.acceptCryptoConnection sodium env nC
  | setDirectIpPort env id ipPort connected => exact h.setDirectIpPort env id ipPort connected
  | cryptoConnectionAddSource env id source => exact h.cryptoConnectionAddSource env id source
  | handleNewConnectionHandshake env source data =>
    exact (NetCrypto.routesValid_keptByCalls sodium hcalls env).handleNewConnectionHandshake
      NetCrypto.routesValid_ignoresSessions h source data
  | handlePacketConnection env id packet udp =>
    exact (NetCrypto.routesValid_keptByCalls sodium hcalls env).handlePacketConnection
      NetCrypto.routesValid_ignoresSessions h id packet udp
  | udpHandlePacket env source packet =>
    exact (NetCrypto.routesValid_keptByCalls sodium hcalls env).udpHandlePacket
      NetCrypto.routesValid_ignoresSessions h source packet
  | cryptoKill env id => exact h.cryptoKill sodium env id
  | application f => exact h

/-- A fresh `Net_Crypto` has valid routes. -/
theorem NetCrypto.new_routesValid (dht : DhtKeys) (selfPublicKey : PublicKey) (selfSecretKey : SecretKey)
    (secretSymmetricKey : SharedKey) : (new dht selfPublicKey selfSecretKey secretSymmetricKey).RoutesValid := by
  refine ⟨BsList.bsListInit_wellFormed 32 8, rfl, nofun, nofun, nofun, ?_⟩
  intro x id
  exact ⟨nofun, fun ⟨_, _, _, hroute, _⟩ => nomatch hroute⟩

/-- The current direct addresses of a connection. -/
def CryptoConnection.HasAddress (conn : CryptoConnection) (ipPort : IpPort) : Prop :=
  (ipPort = conn.ipPortv4 ∨ ipPort = conn.ipPortv6) ∧ ipPort.ip.family ≠ 0

/-- A route owns the addresses of its connection. -/
theorem routeOf_owns (conn : CryptoConnection) (ipPort : IpPort) :
    (routeOf conn).Owns ipPort.stored ↔ conn.HasAddress ipPort := by
  constructor
  · rintro ⟨family, hset, heq⟩
    obtain rfl := IpPort.stored_injective heq
    cases family
    · exact ⟨.inl rfl, hset⟩
    · exact ⟨.inr rfl, hset⟩
  · rintro ⟨rfl | rfl, hset⟩
    · exact ⟨.v4, hset, rfl⟩
    · exact ⟨.v6, hset, rfl⟩

/-- The index maps exactly the addresses of live connections. -/
theorem NetCrypto.RoutesValid.maps_iff_hasAddress {c : NetCrypto} (h : c.RoutesValid) (ipPort : IpPort) (id : ℕ) :
    c.ipPortList.Maps ipPort.stored id ↔
      ∃ conn, c.getCryptoConnection id = some conn ∧ conn.HasAddress ipPort := by
  constructor
  · intro hmaps
    obtain ⟨i, route, hid, hroute, howns⟩ := (h.maps _ _).mp hmaps
    obtain rfl := Int.ofNat_inj.mp hid
    obtain ⟨conn, hconn, rfl⟩ := Option.map_eq_some_iff.mp (getElem?_map ▸ hroute)
    have hlive : conn.status ≠ .noConnection := by
      intro hdead
      exact (h.dead id _ hroute (decide_eq_false (not_not.mpr hdead))).not_owns _ howns
    exact ⟨conn, getCryptoConnection_eq_some.mpr ⟨hconn, hlive⟩, (routeOf_owns conn ipPort).mp howns⟩
  · rintro ⟨conn, hconn, haddress⟩
    rw [Toxcore.RoutesValid.maps_iff h (routes_get (getCryptoConnection_eq_some.mp hconn).1)]
    exact (routeOf_owns conn ipPort).mpr haddress

/-- In every reachable state live connections have distinct real keys, the index maps an address to an
id exactly when the connection with that id is live and has the address, and a packet is routed by its
source only to a live connection that has this source as an address. -/
theorem worldReaches_table_valid {α : Type} (sodium : Sodium) (dht : DhtKeys) (selfPublicKey : PublicKey)
    (selfSecretKey : SecretKey) (secretSymmetricKey : SharedKey) (app : α) (w : World α)
    (hreach : WorldReaches sodium ⟨.new dht selfPublicKey selfSecretKey secretSymmetricKey, app⟩ w) :
    (∀ i j a b, w.net.getCryptoConnection i = some a → w.net.getCryptoConnection j = some b →
      a.publicKey = b.publicKey → i = j) ∧
    (∀ (ipPort : IpPort) (id : ℤ), w.net.ipPortList.Maps ipPort.stored id ↔
      ∃ (i : ℕ) (conn : CryptoConnection), id = i ∧ w.net.getCryptoConnection i = some conn ∧
        conn.HasAddress ipPort) ∧
    (∀ source, NetCrypto.cryptoIdIpPort w.net source = -1 ∨
      ∃ (i : ℕ) (conn : CryptoConnection), NetCrypto.cryptoIdIpPort w.net source = i ∧
        w.net.getCryptoConnection i = some conn ∧ conn.HasAddress source) := by
  have hvalid : w.net.RoutesValid := hreach.invariant (P := fun w => w.net.RoutesValid)
    (fun callbacks op w hcalls _ h => op.exec_routesValid hcalls h)
    (NetCrypto.new_routesValid dht selfPublicKey selfSecretKey secretSymmetricKey)
  have hmaps (ipPort : IpPort) (id : ℤ) : w.net.ipPortList.Maps ipPort.stored id ↔
      ∃ (i : ℕ) (conn : CryptoConnection), id = i ∧ w.net.getCryptoConnection i = some conn ∧
        conn.HasAddress ipPort := by
    constructor
    · intro h
      obtain ⟨i, route, rfl, -, -⟩ := (hvalid.maps _ _).mp h
      obtain ⟨conn, hconn, haddress⟩ := (hvalid.maps_iff_hasAddress ipPort i).mp h
      exact ⟨i, conn, rfl, hconn, haddress⟩
    · rintro ⟨i, conn, rfl, hconn, haddress⟩
      exact (hvalid.maps_iff_hasAddress ipPort i).mpr ⟨conn, hconn, haddress⟩
  refine ⟨?_, hmaps, ?_⟩
  · intro i j a b ha hb hkey
    obtain ⟨ha, halive⟩ := NetCrypto.getCryptoConnection_eq_some.mp ha
    obtain ⟨hb, hblive⟩ := NetCrypto.getCryptoConnection_eq_some.mp hb
    exact hvalid.keys i j _ _ (NetCrypto.routes_get ha) (NetCrypto.routes_get hb)
      (NetCrypto.routeOf_live halive) (NetCrypto.routeOf_live hblive) hkey
  · intro source
    have hstored : source.stored.length = w.net.ipPortList.elementSize := by
      rw [IpPort.stored_length, hvalid.size]
    rcases hvalid.wellFormed.bsListFind_spec hstored with hfound | ⟨hnone, -⟩
    · obtain ⟨i, conn, hid, hconn, haddress⟩ := (hmaps source _).mp hfound
      exact .inr ⟨i, conn, hid, hconn, haddress⟩
    · exact .inl hnone

/-- An address that ends with this byte. -/
def exampleAddress (byte : UInt8) : IpPort :=
  ⟨⟨afInet, List.Vector.replicate 7 0, List.Vector.replicate 16 byte⟩, 33445, List.Vector.replicate 6 0⟩

/-- A fresh node. -/
def routedNode : World Unit :=
  let key : PublicKey := List.Vector.replicate 32 1
  ⟨.new ⟨key, key, fun _ => .zero⟩ key key key, ()⟩

/-- Two connections get addresses, the first is killed, and a third one takes its slot and gets another address. -/
def exampleRouted : List (Operation Unit) :=
  let key (byte : UInt8) : PublicKey := List.Vector.replicate 32 byte
  [.newCryptoConnection .calm (key 2) (key 4), .newCryptoConnection .calm (key 3) (key 5),
    .setDirectIpPort .calm 0 (exampleAddress 6) true, .setDirectIpPort .calm 1 (exampleAddress 7) true,
      .cryptoKill .calm 0,
    .newCryptoConnection .calm (key 8) (key 9), .setDirectIpPort .calm 0 (exampleAddress 10) true]

/-- Operations one after the other reach their world. -/
theorem WorldReaches.foldl {start w : World Unit} (h : WorldReaches .plain start w) (ops : List (Operation Unit)) :
    WorldReaches .plain start (ops.foldl (fun w op => op.exec .plain .unset w) w) := by
  induction ops generalizing w with
  | nil => exact h
  | cons op ops ih =>
    exact ih (Reentrant.Reaches.step_quiet h Callbacks.unset op (fun _ _ => Callbacks.unset_calls) trivial)

/-- After these, packets from the addresses in use go to their connections, and no packet goes to the one that was
killed. -/
theorem worldReaches_table_valid_killed :
    [6, 7, 10].map (fun byte => NetCrypto.cryptoIdIpPort
      (exampleRouted.foldl (fun w op => op.exec .plain .unset w) routedNode).net (exampleAddress byte)) = [-1, 1, 0] ∧
    ∀ source, NetCrypto.cryptoIdIpPort (exampleRouted.foldl (fun w op =>
      op.exec .plain .unset w) routedNode).net source = -1 ∨
      ∃ (i : ℕ) (conn : CryptoConnection),
        NetCrypto.cryptoIdIpPort (exampleRouted.foldl (fun w op => op.exec .plain .unset w) routedNode).net source = i ∧
          (exampleRouted.foldl (fun w op => op.exec .plain .unset w) routedNode).net.getCryptoConnection i = some conn ∧
          conn.HasAddress source :=
  ⟨by decide +kernel,
    (worldReaches_table_valid .plain _ _ _ _ () _ (WorldReaches.foldl (.refl routedNode) exampleRouted)).2.2⟩

end Toxcore
