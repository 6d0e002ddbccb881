import Toxcore.Data.Links
import Toxcore.Friends.LockCounts
import Toxcore.NetCrypto.Owners

/-!
# What the operations on friend connections keep

A friend connection is a holder of a crypto connection, and it has a lock count. Most of what the operations write
shows in neither, and the rest is written in few places. So a property of friend connections and crypto connections is
kept by all operations as soon as it is kept there, and by the layers above. Taking a hold on a friend connection and
letting one go are left out.
-/

namespace Toxcore

open ByteStrings Links TableView

/-- What a friend connection says about its crypto connection, if it is in use. -/
def holderOf (friendCon : FriendConn) : Option (Holder PublicKey) :=
  if friendCon.status = .none then none
  else some ⟨friendCon.realPublicKey, decide (friendCon.status = .connected), friendCon.cryptConnectionId⟩

/-- The friend connections, as holders of crypto connections. -/
def FriendConnections.holders (frC : FriendConnections) : ℕ → Option (Holder PublicKey) := view holderOf frC.conns

/-- A connection that is not in use holds nothing. -/
theorem holderOf_eq_none {friendCon : FriendConn} : holderOf friendCon = none ↔ friendCon.status = .none := by
  unfold holderOf
  split <;> simp [*]

namespace FriendConnections

variable {frC frC' : FriendConnections} {n : ℕ} {friendCon friendCon' : FriendConn}

/-- What a friend connection in use holds. -/
theorem holders_live (hconn : frC.getConn n = some friendCon) : frC.holders n =
    some ⟨friendCon.realPublicKey, decide (friendCon.status = .connected), friendCon.cryptConnectionId⟩ := by
  obtain ⟨hget, hlive⟩ := getConn_eq_some.mp hconn
  rw [holders, view_get hget, holderOf, if_neg hlive]

/-- What is held is held by a friend connection. -/
theorem holders_eq_some {holder : Holder PublicKey} (h : frC.holders n = some holder) :
    ∃ friendCon, frC.getConn n = some friendCon ∧ holder =
      ⟨friendCon.realPublicKey, decide (friendCon.status = .connected), friendCon.cryptConnectionId⟩ := by
  obtain ⟨friendCon, hget, hholder⟩ := Option.bind_eq_some_iff.mp h
  unfold holderOf at hholder
  split at hholder
  · contradiction
  · rename_i hlive
    exact ⟨friendCon, getConn_eq_some.mpr ⟨hget, hlive⟩, (Option.some_inj.mp hholder).symm⟩

/-- A friend connection is written. -/
theorem holders_setConn (hconn : frC.getConn n = some friendCon) (friendCon' : FriendConn) :
    (frC.setConn n friendCon').holders = Function.update frC.holders n (holderOf friendCon') :=
  view_set (getConn_eq_some.mp hconn).1 friendCon'

/-- A friend connection is written that holds the same. -/
theorem holders_setConn_same (hconn : frC.getConn n = some friendCon)
    (hsame : holderOf friendCon' = holderOf friendCon) :
    (frC.setConn n friendCon').holders = frC.holders :=
  view_set_same (getConn_eq_some.mp hconn).1 hsame

/-! ## What does not show -/

/-- The holders and the lock counts are the same. -/
structure Alike (frC frC' : FriendConnections) : Prop where
  holders : frC'.holders = frC.holders
  locks : LocksKept frC frC'

namespace Alike

theorem refl (frC : FriendConnections) : Alike frC frC := ⟨rfl, .refl frC⟩

/-- Two changes that do not show. -/
theorem trans {frC'' : FriendConnections} (h : Alike frC frC') (h' : Alike frC' frC'') : Alike frC frC'' :=
  ⟨h'.holders.trans h.holders, h.locks.trans h'.locks⟩

/-- Whatever happens beside the table. -/
theorem of_conns (h : frC'.conns = frC.conns) : Alike frC frC' :=
  ⟨congrArg (view holderOf) h, .of_conns h⟩

/-- A friend connection in use is written, together with what is beside the table. -/
theorem setConn (hconn : frC.getConn n = some friendCon) (hsame : holderOf friendCon' = holderOf friendCon)
    (hlock : friendCon'.lockCount = friendCon.lockCount) (hconns : frC'.conns = frC.conns) :
    Alike frC (frC'.setConn n friendCon') := by
  obtain ⟨hget, hlive⟩ := getConn_eq_some.mp hconn
  have hlive' : friendCon'.status ≠ .none := by rwa [Ne, ← holderOf_eq_none, hsame, holderOf_eq_none]
  have hset : Alike frC (frC.setConn n friendCon') := ⟨view_set_same hget hsame, .setConn hconn hlive' hlock⟩
  exact hset.trans (of_conns (congrArg (fun conns => conns.set n friendCon') hconns))

/-- A relay of a friend is added. -/
theorem friendAddTcpRelay (frC : FriendConnections) (n : ℕ) (ipPort : IpPort) (publicKey : PublicKey) :
    Alike frC (frC.friendAddTcpRelay n ipPort publicKey) := by
  unfold FriendConnections.friendAddTcpRelay
  split
  · exact .refl frC
  · rename_i friendCon hconn
    split
    · split
      · exact .setConn hconn rfl rfl rfl
      · exact .setConn hconn rfl rfl rfl
    · exact .setConn hconn rfl rfl rfl

/-- Relays of a friend are added. -/
theorem addTcpRelays (frC : FriendConnections) (n : ℕ) (nodes : List NodeFormat) :
    Alike frC (frC.addTcpRelays n nodes) := by
  unfold FriendConnections.addTcpRelays
  induction nodes generalizing frC with
  | nil => exact .refl frC
  | cons node nodes ih => exact (friendAddTcpRelay frC n node.ipPort node.publicKey).trans (ih _)

/-- The nodes of an announcement are taken. -/
theorem takeAnnouncedNodes (friendNum : ℕ) (nodes : List NodeFormat) (frC : FriendConnections) :
    Alike frC (nodes.foldl (takeAnnouncedNode friendNum) frC) := by
  induction nodes generalizing frC with
  | nil => exact .refl frC
  | cons node nodes ih =>
    refine .trans ?_ (ih _)
    unfold takeAnnouncedNode
    split
    · split
      · exact .refl frC
      · unfold tcpRelayNodeCallback
        split
        · exact .refl frC
        · exact friendAddTcpRelay _ _ _ _
    · exact .refl frC

/-- The DHT key of a friend changes. -/
theorem changeDhtPk (env : FriendEnv) (frC : FriendConnections) (n : ℕ) (dhtPublicKey : PublicKey) :
    Alike frC (frC.changeDhtPk env n dhtPublicKey) := by
  unfold FriendConnections.changeDhtPk
  split
  · exact .refl frC
  · rename_i friendCon hconn
    dsimp only
    split
    · split
      · exact .setConn hconn rfl rfl rfl
      · exact .setConn hconn rfl rfl rfl
    · exact .setConn hconn rfl rfl rfl

/-- A slot is written that keeps its status and its lock count. -/
theorem modify (frC : FriendConnections) (n : ℕ) {f : FriendConn → FriendConn}
    (hf : ∀ friendCon, holderOf (f friendCon) = holderOf friendCon ∧ (f friendCon).lockCount = friendCon.lockCount) :
    Alike frC { frC with conns := frC.conns.modify n f } := by
  have hstatus (friendCon : FriendConn) : (f friendCon).status = .none ↔ friendCon.status = .none := by
    rw [← holderOf_eq_none, (hf friendCon).1, holderOf_eq_none]
  refine ⟨view_modify_same fun friendCon => (hf friendCon).1, view_modify_same fun friendCon => ?_, fun hfree => ?_⟩
  · simp only [lockOf, hstatus, (hf friendCon).2]
  · cases hget : frC.conns[n]? with
    | none =>
      rw [List.modify_eq_self (List.getElem?_eq_none_iff.mp hget)]
      exact hfree
    | some friendCon =>
      rw [modify_eq_set hget]
      refine hfree.setConn n fun hnone => ?_
      rw [(hf friendCon).2]
      exact hfree friendCon (List.mem_of_getElem? hget) ((hstatus friendCon).mp hnone)

end Alike

end FriendConnections

open FriendConnections

/-! ## What shows -/

section

variable {sodium : Sodium} {env : FriendEnv}

/-- A direct address changes no owner. -/
theorem owners_setDirect (c : NetCrypto) (id : Option ℕ) (ipPort : IpPort) (connected : Bool) :
    (setDirect env c id ipPort connected).owners = c.owners := by
  cases id with
  | none => rfl
  | some id => exact NetCrypto.owners_setDirectIpPort env.net c id ipPort connected

/-- A packet to a friend changes no owner. -/
theorem owners_writeFriendPacket {c' : NetCrypto} {id : Option ℕ} {data : Bytes} {ok : Bool}
    (h : writeFriendPacket sodium env c id data = (ok, c')) : c'.owners = c.owners := by
  cases id with
  | none =>
    obtain ⟨-, rfl⟩ := Prod.mk.inj h
    rfl
  | some id =>
    obtain ⟨-, rfl⟩ := Prod.mk.inj h
    exact NetCrypto.owners_writeCryptpacket sodium env.net c id data false

end

/-- The places where the operations leave a property to what is proved of it. -/
structure KeptByFriends (sodium : Sodium) (above : LayerAbove) (P : FriendWorld → Prop) : Prop where
  alike : ∀ (w : FriendWorld) (c : NetCrypto) (frC : FriendConnections), w.app.Alike frC →
    c.owners = w.net.owners → P w →
    P ⟨c, frC⟩
  friendNewConnection : ∀ env w n, P w → P (friendNewConnection sodium env w n).2
  goOffline : ∀ env w n, P w → P (goOffline sodium env w n)
  handleNewConnections : ∀ env w nC, P w → P (handleNewConnections sodium env w nC).2
  connectionKill : ∀ inner env w id, P w →
    P (NetCrypto.connectionKill sodium (friendCallbacks above sodium inner) env w id)
  confirm : ∀ inner w id conn, w.net.getCryptoConnection id = some conn → P w →
    P ((friendCallbacks above sodium inner).connectionStatus w id true)
  calls : ∀ u v, above.Calls u v → P u → P v

namespace KeptByFriends

variable {sodium : Sodium} {above : LayerAbove} {P : FriendWorld → Prop} (hkept : KeptByFriends sodium above P)
  {w : FriendWorld}
include hkept

/-- A change of the friend connections that does not show. -/
theorem setApp (h : P w) {frC : FriendConnections} (halike : w.app.Alike frC) : P { w with app := frC } :=
  hkept.alike w w.net frC halike rfl h

/-- A change of the crypto connections that does not show. -/
theorem setNet (h : P w) {c : NetCrypto} (howners : c.owners = w.net.owners) : P { w with net := c } :=
  hkept.alike w c w.app (.refl _) howners h

/-- The DHT key of a friend is found. -/
theorem dhtPkCallback (env : FriendEnv) (h : P w) (n : ℕ) (dhtPublicKey : PublicKey) :
    P (dhtPkCallback sodium env w n dhtPublicKey) := by
  unfold Toxcore.dhtPkCallback
  split
  · exact h
  · split
    · exact h
    · have hchanged := hkept.setApp h (.changeDhtPk env w.app n dhtPublicKey)
      dsimp only
      refine hkept.setApp (hkept.friendNewConnection env _ n ?_) (.of_conns rfl)
      split
      · exact hkept.goOffline env _ n hchanged
      · exact hchanged

/-- The address of a friend is found. -/
theorem dhtIpCallback (env : FriendEnv) (h : P w) (n : ℕ) (ipPort : IpPort) :
    P (dhtIpCallback sodium env w n ipPort) := by
  unfold Toxcore.dhtIpCallback
  split
  · exact h
  · rename_i friendCon _
    have hnew : P (if friendCon.cryptConnectionId =
      none then (Toxcore.friendNewConnection sodium env w n).2 else w) := by
      split
      · exact hkept.friendNewConnection env w n h
      · exact h
    dsimp only
    split
    · exact hkept.setNet hnew (owners_setDirect _ _ _ _)
    · rename_i friendCon' hconn'
      have hset := @Alike.setConn _ _ _ _
        { friendCon' with dhtIpPort := ipPort, dhtIpPortLastrecv := env.net.unixTime } hconn' rfl rfl rfl
      split
      · have hadded := hset.trans (.friendAddTcpRelay _ n ipPort friendCon'.dhtTempPk)
        exact hkept.alike _ _ _ (hadded.trans (.modify _ n fun _ => ⟨rfl, rfl⟩)) (owners_setDirect _ _ _ _) hnew
      · exact hkept.alike _ _ _ hset (owners_setDirect _ _ _ _) hnew

/-! ### The main loop -/

/-- A friend is pinged. -/
theorem sendPing (env : FriendEnv) (h : P w) (n : ℕ) : P (sendPing sodium env w n) := by
  unfold Toxcore.sendPing
  split
  · exact h
  · rename_i friendCon hconn
    split
    · rename_i c hwrite
      exact hkept.setNet h (owners_writeFriendPacket hwrite)
    · rename_i c hwrite
      exact hkept.alike w c _ (.setConn hconn rfl rfl rfl) (owners_writeFriendPacket hwrite) h

/-- Relays are sent to a friend. -/
theorem sendRelays (env : FriendEnv) (h : P w) (n : ℕ) : P (sendRelays sodium env w n) := by
  have hrelays := Alike.addTcpRelays w.app n (env.connectedTcpRelays.take maxSharedRelays)
  unfold Toxcore.sendRelays
  dsimp only
  split
  · exact h
  · rename_i friendCon hconn
    split
    · exact hkept.setApp h hrelays
    · split
      · rename_i c hwrite
        exact hkept.alike w c _ hrelays (owners_writeFriendPacket hwrite) h
      · rename_i c hwrite
        exact hkept.alike w c _ (hrelays.trans (.setConn hconn rfl rfl rfl)) (owners_writeFriendPacket hwrite) h

/-- A friend that is not connected is served. -/
theorem serveConnecting (env : FriendEnv) (tempTime : UInt64) (h : P w) {n : ℕ} {friendCon : FriendConn}
    (hconn : w.app.getConn n = some friendCon) : P (serveConnecting sodium env tempTime w n friendCon) := by
  have hexpired : P { w with
      app := { w.app with dht := (expireDhtLock env tempTime w.app.dht friendCon).2 }.setConn n
        { friendCon with
          dhtLock := (expireDhtLock env tempTime w.app.dht friendCon).1
          dhtIpPort := expireDhtIpPort tempTime friendCon } } :=
    hkept.setApp h (.setConn hconn rfl rfl rfl)
  have hnew := hkept.friendNewConnection env _ n hexpired
  unfold Toxcore.serveConnecting
  dsimp only
  split
  · exact hexpired
  · split
    · rename_i heq
      rwa [heq] at hnew
    · rename_i heq
      rw [heq] at hnew
      exact hkept.setNet hnew (owners_setDirect _ _ _ _)

/-- A connected friend is served. -/
theorem serveConnected (env : FriendEnv) (tempTime : UInt64) (h : P w) (n : ℕ) (friendCon : FriendConn) :
    P (serveConnected sodium env tempTime w n friendCon) := by
  have hsent (ping share : Prop) [Decidable ping] [Decidable share] : P (
      if share then Toxcore.sendRelays sodium env (if ping then Toxcore.sendPing sodium env w n else w) n
      else if ping then Toxcore.sendPing sodium env w n else w) := by
    have hping : P (if ping then Toxcore.sendPing sodium env w n else w) := by
      split
      · exact hkept.sendPing env h n
      · exact h
    split
    · exact hkept.sendRelays env hping n
    · exact hping
  unfold Toxcore.serveConnected
  dsimp only
  split
  · exact hkept.goOffline env _ n (hsent _ _)
  · exact hsent _ _

/-- A friend is served. -/
theorem serveFriend (env : FriendEnv) (tempTime : UInt64) (h : P w) (n : ℕ) :
    P (serveFriend sodium env tempTime w n) := by
  unfold Toxcore.serveFriend
  split
  · exact h
  · rename_i friendCon hconn
    split
    · exact hkept.serveConnecting env tempTime h hconn
    · exact hkept.serveConnected env tempTime h n friendCon

/-- All friends are served. -/
theorem doFriendConnections (env : ℕ → FriendEnv) (tempTime : UInt64) (h : P w) :
    P (doFriendConnections sodium env tempTime w) := by
  have hloop (indices : List ℕ) {w : FriendWorld} (h : P w) :
    P (doFriendConnectionsLoop sodium env tempTime indices w) := by
    induction indices generalizing w with
    | nil => exact h
    | cons i rest ih => exact ih (hkept.serveFriend (env i) tempTime h i)
  exact hkept.setApp (hloop _ h) (.of_conns rfl)

/-! ### Announcements -/

/-- The DHT key of an announcement is taken. -/
theorem takeAnnouncement (env : FriendEnv) (h : P w) (friendNum : ℕ) (friend : OnionFriend) (data : Bytes) :
    P (takeAnnouncement sodium env w friendNum friend data) := by
  unfold Toxcore.takeAnnouncement
  dsimp only
  split
  · exact hkept.alike w w.net _ (.of_conns rfl) rfl h
  · refine hkept.setApp (hkept.dhtPkCallback env ?_ _ _) (.of_conns rfl)
    exact hkept.setApp h (.of_conns rfl)

/-- The nodes of an announcement are taken. -/
theorem takeAnnouncedNodes (env : FriendEnv) (h : P w) (friendNum : ℕ) (data : Bytes) :
    P (takeAnnouncedNodes env w friendNum data).2 := by
  unfold Toxcore.takeAnnouncedNodes
  split
  · exact h
  · split
    · exact hkept.setApp h (.takeAnnouncedNodes friendNum _ _)
    · exact h

/-- An announcement arrives. -/
theorem handleDhtpkAnnounce (env : FriendEnv) (h : P w) (sourcePubkey : PublicKey) (data : Bytes) :
    P (handleDhtpkAnnounce sodium env w sourcePubkey data).2 := by
  unfold Toxcore.handleDhtpkAnnounce
  split
  · exact h
  · split
    · exact h
    · cases onionFriendNum w.app.onionC sourcePubkey with
      | none => exact h
      | some friendNum =>
        by_cases hreplay : announcedNoReplay data ≤ (w.app.onionC.friendsList.getD friendNum .zero).lastNoreplay
        · simp only [if_pos hreplay]
          exact h
        · simp only [if_neg hreplay]
          exact hkept.takeAnnouncedNodes env (hkept.takeAnnouncement env h friendNum _ data) friendNum data

/-! ### The callbacks of `Net_Crypto` -/

omit hkept in

/-- The callbacks of a friend are called one after the other. -/
theorem runCallbacks {call : FriendWorld → ℕ → Fin maxFriendConnectionCallbacks → Bytes → FriendWorld}
    (hcall : ∀ w n i data, P w → P (call w n i data)) (indices : List (Fin maxFriendConnectionCallbacks))
    (h : P w) (n : ℕ) (data : Bytes) : P (runCallbacks call indices w n data) := by
  induction indices generalizing w with
  | nil => exact h
  | cons i rest ih =>
    unfold Toxcore.runCallbacks
    dsimp only
    split
    · exact hcall w n i data h
    · exact ih (hcall w n i data h)

/-- A packet of a friend arrives. -/
theorem handlePacket (inner : FriendEnv) (h : P w) (n : ℕ) (data : Bytes) : P (handlePacket above inner w n data) := by
  unfold Toxcore.handlePacket
  split
  · rename_i packetId friendCon _ hconn
    split
    · exact hkept.calls _ _ (.frRequest w friendCon.realPublicKey data) h
    · split
      · exact hkept.setApp h (.setConn hconn rfl rfl rfl)
      · split
        · split
          · exact hkept.setApp h (.addTcpRelays _ _ _)
          · exact h
        · exact runCallbacks (fun w n i data => hkept.calls _ _ (.dataCallback w n i data)) _ h n data
  · exact h

/-- A lossy packet of a friend arrives. -/
theorem handleLossyPacket (h : P w) (n : ℕ) (data : Bytes) : P (handleLossyPacket above w n data) := by
  unfold Toxcore.handleLossyPacket
  split
  · exact runCallbacks (fun w n i data => hkept.calls _ _ (.lossyDataCallback w n i data)) _ h n data
  · exact h

omit hkept in

/-- A callback is called if one is registered. -/
theorem callRegistered (h : P w) {id : ℕ} {callback : CryptoConnection → Option ℕ} {call : ℕ → FriendWorld}
    (hcall : ∀ n, P (call n)) : P (callRegistered callback w id call) := by
  unfold Toxcore.callRegistered
  split
  · exact h
  · exact hcall _

/-- The calls of the crypto connections keep it. -/
theorem keptByCalls (inner : FriendEnv) (env : Env) :
    NetCrypto.KeptByCalls sodium (friendCallbacks above sodium inner) env P where
  kill w id h := hkept.connectionKill inner env w id h
  confirm w id conn hconn h := hkept.confirm inner w id conn hconn h
  data _ _ data h := callRegistered h fun n => hkept.handlePacket inner h n data
  lossyData _ _ data h := callRegistered h fun n => hkept.handleLossyPacket h n data
  dhtPk _ _ dhtPublicKey h := callRegistered h fun n => hkept.dhtPkCallback inner h n dhtPublicKey
  newConnection w nC h := hkept.handleNewConnections inner w nC h
  addSource _ id source h := hkept.setNet h (NetCrypto.owners_cryptoConnectionAddSource env _ id source)

/-- It does not depend on the sessions. -/
theorem ignoresSessions : NetCrypto.IgnoresSessions P :=
  NetCrypto.ignoresSessions_owners fun _ _ howners h => hkept.setNet h howners

/-- Connections that timed out are killed. -/
theorem killTimedout (inner : FriendEnv) (env : Env) (h : P w) :
    P (NetCrypto.killTimedout sodium (friendCallbacks above sodium inner) env w) := by
  have hloop (ids : List ℕ) {w : FriendWorld} (h : P w) :
      P (NetCrypto.killTimedoutLoop sodium (friendCallbacks above sodium inner) env ids w) := by
    induction ids generalizing w with
    | nil => exact h
    | cons id rest ih =>
      unfold NetCrypto.killTimedoutLoop
      split
      · exact h
      · split
        · exact ih (hkept.connectionKill inner env w id h)
        · exact ih h
  exact hloop _ h

end KeptByFriends

/-- An operation takes no hold on a friend connection, and lets none go. -/
def FriendOperation.HoldsNothing : FriendOperation → Prop
  | .newFriendConnection .. => False
  | .killFriendConnection .. => False
  | _ => True

/-- What is kept in these places is kept by every operation that takes no hold on a friend connection and lets none
go. -/
theorem KeptByFriends.exec {sodium : Sodium} {above : LayerAbove} {P : FriendWorld → Prop}
    (hkept : KeptByFriends sodium above P)
    (op : FriendOperation) (hop : op.HoldsNothing) {w : FriendWorld} (h : P w) : P (op.exec sodium above w) := by
  cases op with
  | newFriendConnection => exact hop.elim
  | killFriendConnection => exact hop.elim
  | setDhtTempPk env friendconId dhtTempPk => exact hkept.dhtPkCallback env h friendconId dhtTempPk
  | doFriendConnections env tempTime => exact hkept.doFriendConnections env tempTime h
  | dhtIpCallback env number ipPort => exact hkept.dhtIpCallback env h number ipPort
  | dhtPkCallback env number dhtPublicKey => exact hkept.dhtPkCallback env h number dhtPublicKey
  | handleDhtpkAnnounce env sourcePubkey data => exact hkept.handleDhtpkAnnounce env h sourcePubkey data
  | handleNewConnections env nC => exact hkept.handleNewConnections env w nC h
  | handleNewConnectionHandshake env inner source data =>
    exact (hkept.keptByCalls inner env).handleNewConnectionHandshake hkept.ignoresSessions h source data
  | handlePacketConnection env inner id packet udp =>
    exact (hkept.keptByCalls inner env).handlePacketConnection hkept.ignoresSessions h id packet udp
  | udpHandlePacket env inner source packet =>
    exact (hkept.keptByCalls inner env).udpHandlePacket hkept.ignoresSessions h source packet
  | connectionKill env inner id => exact hkept.connectionKill inner env w id h
  | killTimedout env inner => exact hkept.killTimedout inner env h

/-! ## Lock counts -/

namespace FriendConnections.LocksKept

/-- A status callback leaves the locks alone. -/
theorem handleStatus (env : FriendEnv) (frC : FriendConnections) (n : ℕ) (status : Bool) :
    LocksKept frC (frC.handleStatus env n status) := by
  have hset {frC' : FriendConnections} {friendCon friendCon' : FriendConn} (hconn : frC.getConn n = some friendCon)
      (hconns : frC'.conns = frC.conns) (hlive : friendCon'.status ≠ .none)
      (hsame : friendCon'.lockCount = friendCon.lockCount) : LocksKept frC (frC'.setConn n friendCon') :=
    (setConn hconn hlive hsame).trans (of_conns (congrArg (fun conns => conns.set n friendCon') hconns))
  unfold FriendConnections.handleStatus
  split
  · exact .refl frC
  · rename_i friendCon hconn
    dsimp only
    split
    · exact hset hconn rfl nofun rfl
    · split
      · exact hset hconn rfl nofun rfl
      · exact hset hconn rfl nofun rfl

/-- A new connection of a peer leaves the locks alone. -/
theorem handleNewConnections (sodium : Sodium) (env : FriendEnv) (w : FriendWorld) (nC : NewConnection) :
    LocksKept w.app (handleNewConnections sodium env w nC).2.app := by
  unfold Toxcore.handleNewConnections
  split
  · exact .refl _
  · rename_i n _
    split
    · exact .refl _
    · rename_i friendCon hconn
      have hlive := (getConn_eq_some.mp hconn).2
      split
      · exact .refl _
      · split
        · exact .refl _
        · dsimp only
          split
          · split
            · refine .trans ?_ (Alike.changeDhtPk env _ n nC.dhtPublicKey).locks
              exact .setConn hconn hlive rfl
            · exact .setConn hconn hlive rfl
          · split
            · refine .trans ?_ (Alike.changeDhtPk env _ n nC.dhtPublicKey).locks
              exact .setConn hconn hlive rfl
            · exact .setConn hconn hlive rfl

end FriendConnections.LocksKept

section LocksKept

variable {sodium : Sodium} {above : LayerAbove} (habove : ∀ u v, above.Calls u v → LocksKept u.app v.app)
include habove

/-- The locks are kept in all that the friend connections do by themselves. -/
theorem locksKept_keptByFriends (start : FriendConnections) :
    KeptByFriends sodium above fun w => LocksKept start w.app where
  alike _ _ _ halike _ h := h.trans halike.locks
  friendNewConnection env w n h := by
    refine h.trans ?_
    unfold Toxcore.friendNewConnection
    split
    · exact .refl _
    · rename_i friendCon hconn
      split
      · exact .refl _
      · split
        · exact .refl _
        · split
          · exact .refl _
          · exact .setConn hconn (getConn_eq_some.mp hconn).2 rfl
  goOffline env w n h := h.trans (.handleStatus env w.app n false)
  handleNewConnections env w nC h := h.trans (.handleNewConnections sodium env w nC)
  connectionKill inner env w id h := by
    unfold NetCrypto.connectionKill
    split
    · exact h
    · exact KeptByFriends.callRegistered (P := fun w => LocksKept start w.app) h fun n =>
        h.trans (.handleStatus inner w.app n false)
  confirm inner w id _ _ h :=
    KeptByFriends.callRegistered (P := fun w => LocksKept start w.app) h fun n =>
      h.trans (.handleStatus inner w.app n true)
  calls u v hcalls h := h.trans (habove u v hcalls)

/-- All operations but those that take a hold or let one go keep the lock counts. -/
theorem FriendOperation.exec_locksKept (op : FriendOperation) (hop : op.HoldsNothing) (w : FriendWorld) :
    LocksKept w.app (op.exec sodium above w).app :=
  (locksKept_keptByFriends habove w.app).exec op hop (.refl _)

end LocksKept

/-- Changing the temporary key of a friend keeps the lock counts. -/
theorem FriendConnections.LocksKept.dhtPkCallback (sodium : Sodium) (env : FriendEnv) (w : FriendWorld) (n : ℕ)
    (dhtPublicKey : PublicKey) : LocksKept w.app (dhtPkCallback sodium env w n dhtPublicKey).app :=
  @FriendOperation.exec_locksKept sodium .unset (fun _ _ hcalls => LayerAbove.unset_calls hcalls ▸ .refl _)
    (.dhtPkCallback env n dhtPublicKey) trivial w

end Toxcore
