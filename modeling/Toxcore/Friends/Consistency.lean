import Toxcore.Friends.Keeping

/-!
# Friend connections and crypto connections stay consistent

The friend connections and the crypto connections are linked tables: a friend connection holds the crypto connection
it refers to, and a crypto connection carries the number of the friend connection in its callbacks. Every operation
keeps them linked. Inside `connection_kill` they are not, from the call of the status callback until the slot is
wiped, but nothing else runs in between.
-/

namespace Toxcore

open ByteStrings Links TableView Function

/-- The friend connections and the crypto connections refer to each other. -/
def Consistent (w : FriendWorld) : Prop := Links.Linked Registered.all w.app.holders w.net.owners

/-! ## The table of friend connections -/

namespace FriendConnections

variable {frC frC' : FriendConnections} {n : ℕ} {friendCon friendCon' : FriendConn}

/-- A friend connection that goes online or offline. -/
theorem holders_handleStatus (env : FriendEnv) (hconn : frC.getConn n = some friendCon) (status : Bool) :
    (frC.handleStatus env n status).holders = update frC.holders n
      (some ⟨friendCon.realPublicKey, status, if status then friendCon.cryptConnectionId else none⟩) := by
  have hget := (getConn_eq_some.mp hconn).1
  unfold handleStatus
  simp only [hconn]
  cases status with
  | true => exact view_set hget _
  | false =>
    simp only [Bool.false_eq_true, if_false]
    split
    · exact view_set hget _
    · exact view_set hget _

/-- A wiped friend connection holds nothing. -/
theorem holders_wipeFriendConn (hconn : frC.getConn n = some friendCon) :
    (frC.wipeFriendConn n).holders = update frC.holders n none := by
  have hzero : (frC.setConn n .zero).holders = update frC.holders n none := holders_setConn hconn .zero
  rw [← hzero]
  apply view_rdropWhile
  intro friendCon' hfree
  rw [holderOf, if_pos (of_decide_eq_true hfree)]

/-- A slot that was found for a new friend connection is free, and the holders are the same. -/
theorem holders_createFriendConn {env : FriendEnv} {result : Option ℕ} (h : frC.createFriendConn env = (result, frC')) :
    frC'.holders = frC.holders ∧ ∀ id, result = some id → ∃ friendCon, frC'.conns[id]? = some friendCon ∧
      frC.holders id = none := by
  obtain ⟨hconns, hslot⟩ := createFriendConn_spec h
  have hsame : frC'.holders = frC.holders := by
    rcases hconns with hconns | hconns
    · rw [holders, holders, hconns]
    · rw [holders, hconns]
      exact view_concat rfl
  refine ⟨hsame, fun id hid => ?_⟩
  obtain ⟨friendCon, hget, hfree⟩ := hslot id hid
  exact ⟨friendCon, hget, by rw [← hsame, holders, view_get hget, holderOf_eq_none.mpr hfree]⟩

/-- A key that is not found is held by nobody. -/
theorem getfriendConnIdPk_none {realPk : PublicKey} (h : frC.getfriendConnIdPk realPk = none) (m : ℕ)
    (holder : Holder PublicKey) (hholder : frC.holders m = some holder) : holder.key ≠ realPk := by
  obtain ⟨friendCon, hconn, rfl⟩ := holders_eq_some hholder
  obtain ⟨hget, hlive⟩ := getConn_eq_some.mp hconn
  have hnot := List.findIdx?_eq_none_iff.mp h friendCon (List.mem_of_getElem? hget)
  intro hkey
  exact of_decide_eq_false hnot ⟨hlive, hkey⟩

/-- The crypto connection that is found is that of the friend connection. -/
theorem friendConnectionCryptConnectionId_some {id : ℕ} (h : frC.friendConnectionCryptConnectionId n = some id) :
    ∃ friendCon, frC.getConn n = some friendCon ∧ friendCon.cryptConnectionId = some id := by
  unfold friendConnectionCryptConnectionId at h
  split at h
  · contradiction
  · rename_i friendCon hconn
    exact ⟨friendCon, hconn, h⟩

end FriendConnections

open FriendConnections

/-! ## The operations of friend connections -/

section Operations

variable {sodium : Sodium} {env : FriendEnv} {w : FriendWorld}

/-- A change that neither table shows. -/
theorem Consistent.of_same (h : Consistent w) {w' : FriendWorld} (happ : w'.app.holders = w.app.holders)
    (hnet : w'.net.owners = w.net.owners) : Consistent w' := by
  rw [Consistent, happ, hnet]
  exact h

variable {c : NetCrypto} {id n : ℕ}

/-- A killed crypto connection has no owner. -/
theorem owners_killCryptConnection (sodium : Sodium) (env : FriendEnv) (c : NetCrypto) (id : Option ℕ) :
    (killCryptConnection sodium env c id).owners = erase c.owners id := by
  cases id with
  | none => rfl
  | some id => exact NetCrypto.owners_cryptoKill sodium env.net c id

/-- A live connection whose callbacks are registered with a number, but for the one for DHT keys. -/
theorem owners_registerHandlers {key : PublicKey} {registered : Registered}
    (howner : c.owners id = some (key, registered)) (n : ℕ) :
    (registerHandlers c id n).owners =
      update c.owners id (some (key, { Registered.all n with dhtPk := registered.dhtPk })) := by
  have hstatus : (c.connectionStatusHandler id n).2.owners = _ := NetCrypto.owners_setCallback howner
    (fun registered => { registered with status := some n }) (fun _ => rfl) (fun _ => rfl) fun _ => rfl
  have hdata : (((c.connectionStatusHandler id n).2).connectionDataHandler id n).2.owners = _ :=
    NetCrypto.owners_setCallback (by rw [hstatus, update_self])
      (fun registered => { registered with data := some n }) (fun _ => rfl) (fun _ => rfl) fun _ => rfl
  have hlossy : (registerHandlers c id n).owners = _ :=
    NetCrypto.owners_setCallback (by rw [hdata, update_self])
      (fun registered => { registered with lossyData := some n }) (fun _ => rfl) (fun _ => rfl) fun _ => rfl
  rw [hlossy, hdata, hstatus, update_idem, update_idem]
  rfl

/-- A live connection whose callbacks are all registered with a number. -/
theorem owners_registered {c' : NetCrypto} {key : PublicKey} {registered : Registered}
    (howner : c.owners id = some (key, registered)) (hsame : c'.owners = (registerHandlers c id n).owners) :
    (c'.ncDhtPkCallback id n).2.owners = update c.owners id (some (key, Registered.all n)) := by
  have hhandlers := hsame.trans (owners_registerHandlers howner n)
  have hdhtPk : (c'.ncDhtPkCallback id n).2.owners = _ :=
    NetCrypto.owners_setCallback (by rw [hhandlers, update_self])
      (fun registered => { registered with dhtPk := some n }) (fun _ => rfl) (fun _ => rfl) fun _ => rfl
  rw [hdhtPk, hhandlers, update_idem]
  rfl

section

variable (h : Consistent w)
include h

/-- A friend connection without a crypto connection takes a new one. -/
theorem Consistent.take {friendCon : FriendConn} (hconn : w.app.getConn n = some friendCon)
    (hnone : friendCon.cryptConnectionId = none) (hfree : w.net.owners id = none) {w' : FriendWorld}
    (happ : w'.app.holders = update w.app.holders n (holderOf { friendCon with cryptConnectionId := some id }))
    (hnet : w'.net.owners = update w.net.owners id (some (friendCon.realPublicKey, Registered.all n))) :
    Consistent w' := by
  have hlive := (getConn_eq_some.mp hconn).2
  have hlinked := Links.Linked.take h (holders_live hconn) hnone hfree
  rw [holderOf, if_neg (show ({ friendCon with cryptConnectionId := some id } : FriendConn).status ≠ .none from hlive)]
    at happ
  rw [Consistent, happ, hnet]
  exact hlinked

/-- A crypto connection is requested. -/
theorem Consistent.friendNewConnection (sodium : Sodium) (env : FriendEnv) (n : ℕ) :
    Consistent (friendNewConnection sodium env w n).2 := by
  unfold Toxcore.friendNewConnection
  split
  · exact h
  · rename_i friendCon hconn
    split
    · exact h
    · rename_i hnone
      split
      · exact h
      · have hnone := not_not.mp hnone
        split
        · rename_i c hnew
          rcases NetCrypto.owners_newCryptoConnection hnew with ⟨-, hsame⟩ | ⟨id, registered, howner⟩ | ⟨_, _, hid, -⟩
          · exact h.of_same rfl hsame
          · exact absurd howner (Links.Linked.key_free h (holders_live hconn) hnone id registered)
          · contradiction
        · rename_i id c hnew
          rcases NetCrypto.owners_newCryptoConnection hnew with
            ⟨hid, -⟩ | ⟨id', registered, howner⟩ | ⟨id', registered, hid, hfree, howners⟩
          · contradiction
          · exact absurd howner (Links.Linked.key_free h (holders_live hconn) hnone id' registered)
          · obtain rfl := Option.some_inj.mp hid
            refine h.take hconn hnone hfree (holders_setConn hconn _) ?_
            rw [owners_registered (by rw [howners, update_self]) rfl, howners, update_idem]

/-- A friend connection goes offline. -/
theorem Consistent.goOffline (sodium : Sodium) (env : FriendEnv) (n : ℕ) : Consistent (goOffline sodium env w n) := by
  cases hconn : w.app.getConn n with
  | none =>
    refine h.of_same ?_ ?_
    · simp only [Toxcore.goOffline, handleStatus, hconn]
    · simp only [Toxcore.goOffline, friendConnectionCryptConnectionId, hconn, killCryptConnection]
  | some friendCon =>
    have hlinked := Links.Linked.release h (holders_live hconn) (.inr rfl)
    rw [Consistent, Toxcore.goOffline, holders_handleStatus env hconn false, owners_killCryptConnection,
      friendConnectionCryptConnectionId, hconn]
    exact hlinked

/-- A connection of a peer is accepted. -/
theorem Consistent.handleNewConnections (sodium : Sodium) (env : FriendEnv) (nC : NewConnection) :
    Consistent (handleNewConnections sodium env w nC).2 := by
  unfold Toxcore.handleNewConnections
  split
  · exact h
  · rename_i n hn
    split
    · exact h
    · rename_i friendCon hconn
      have hkey : friendCon.realPublicKey = nC.publicKey := by
        obtain ⟨friendCon', hconn', hkey⟩ := getfriendConnIdPk_some hn
        obtain rfl := Option.some_inj.mp (hconn.symm.trans hconn')
        exact hkey
      split
      · exact h
      · rename_i hnone
        have hnone := not_not.mp hnone
        split
        · rename_i c haccept
          rcases NetCrypto.owners_acceptCryptoConnection haccept with ⟨-, hsame⟩ | ⟨_, _, hid, -⟩
          · exact h.of_same rfl hsame
          · contradiction
        · rename_i id c haccept
          rcases NetCrypto.owners_acceptCryptoConnection haccept with
            ⟨hid, -⟩ | ⟨id', registered, hid, hfree, howners⟩
          · contradiction
          · obtain rfl := Option.some_inj.mp hid
            have howner : c.owners id = some (friendCon.realPublicKey, registered) := by
              rw [howners, update_self, hkey]
            have hregistered (c' : NetCrypto) (hsame : c'.owners = (registerHandlers c id n).owners) :
                (c'.ncDhtPkCallback id n).2.owners =
                  update w.net.owners id (some (friendCon.realPublicKey, Registered.all n)) := by
              rw [owners_registered howner hsame, howners, update_idem]
            dsimp only
            split
            · refine h.take hconn hnone hfree ?_ (hregistered _ (owners_setDirect _ _ _ _))
              split
              · exact (Alike.changeDhtPk env _ n nC.dhtPublicKey).holders.trans (holders_setConn hconn _)
              · exact holders_setConn hconn _
            · refine h.take hconn hnone hfree ?_ (hregistered _ rfl)
              split
              · exact (Alike.changeDhtPk env _ n nC.dhtPublicKey).holders.trans (holders_setConn hconn _)
              · exact holders_setConn hconn _

/-- A friend connection is killed. -/
theorem Consistent.killFriendConnection (sodium : Sodium) (env : FriendEnv) (n : ℕ) :
    Consistent (killFriendConnection sodium env w n).2 := by
  unfold Toxcore.killFriendConnection
  split
  · exact h
  · rename_i friendCon hconn
    split
    · exact h.of_same (holders_setConn_same hconn rfl) rfl
    · have hlinked := Links.Linked.release h (holders_live hconn) (.inl rfl)
      rw [← holders_wipeFriendConn hconn, ← owners_killCryptConnection sodium env] at hlinked
      exact hlinked

/-- A friend connection is made. -/
theorem Consistent.newFriendConnection (env : FriendEnv) (realPublicKey : PublicKey) :
    Consistent { w with app := (w.app.newFriendConnection env realPublicKey).2 } := by
  unfold FriendConnections.newFriendConnection
  split
  · rename_i n _
    have hlock : ∀ friendCon : FriendConn,
        holderOf { friendCon with lockCount := friendCon.lockCount + 1 } = holderOf friendCon := fun _ => rfl
    exact h.of_same (view_modify_same hlock) rfl
  · rename_i hnone
    split
    · rename_i frC hcreate
      exact h.of_same (holders_createFriendConn hcreate).1 rfl
    · rename_i n frC hcreate
      obtain ⟨hsame, hslot⟩ := holders_createFriendConn hcreate
      obtain ⟨friendCon, hget, hfree⟩ := hslot n rfl
      split
      · exact h.of_same hsame rfl
      · rename_i onionFriendnum onionC _
        have hlinked := Links.Linked.add h hfree (getfriendConnIdPk_none hnone)
        rw [Consistent, FriendConnections.holders, view_modify hget, ← FriendConnections.holders, hsame]
        exact hlinked

end

end Operations

/-! ## The callbacks of `Net_Crypto` -/

section Callbacks

variable {sodium : Sodium} {above : LayerAbove} {inner : FriendEnv} {env : Env} {w : FriendWorld}

/-- The layers above keep the tables consistent. -/
def LayerAbove.Keeps (above : LayerAbove) : Prop := ∀ u v, above.Calls u v → Consistent u → Consistent v

variable {id : ℕ} {conn : CryptoConnection}

/-- The friend connection that a live crypto connection belongs to. -/
theorem Consistent.owner (h : Consistent w) (hconn : w.net.getCryptoConnection id = some conn) :
    ∃ n friendCon, registeredOf conn = Registered.all n ∧ w.app.getConn n = some friendCon ∧
      friendCon.realPublicKey = conn.publicKey ∧ friendCon.cryptConnectionId = some id := by
  obtain ⟨n, holder, hregistered, hholder, hkey, htarget⟩ := Links.Linked.holder h id _ _ (NetCrypto.owners_live hconn)
  obtain ⟨friendCon, hfriend, rfl⟩ := holders_eq_some hholder
  exact ⟨n, friendCon, hregistered, hfriend, hkey, htarget⟩

/-- The status callback of a live crypto connection goes to the friend connection it belongs to. -/
theorem callRegistered_status {n : ℕ} (hconn : w.net.getCryptoConnection id = some conn)
    (hregistered : registeredOf conn = Registered.all n) (status : Bool) :
    (friendCallbacks above sodium inner).connectionStatus w id status =
      { w with app := w.app.handleStatus inner n status } := by
  have hnumber : conn.connectionStatusCallback = some n := congrArg Registered.status hregistered
  simp only [friendCallbacks, Toxcore.callRegistered, hconn, Option.bind_some, hnumber]

/-- A crypto connection is killed from below. -/
theorem Consistent.connectionKill (h : Consistent w) (id : ℕ) :
    Consistent (NetCrypto.connectionKill sodium (friendCallbacks above sodium inner) env w id) := by
  unfold NetCrypto.connectionKill
  split
  · exact h
  · rename_i conn hconn
    obtain ⟨n, friendCon, hregistered, hfriend, -, hid⟩ := h.owner hconn
    have hlinked := Links.Linked.release h (holders_live hfriend) (.inr rfl)
    rw [callRegistered_status hconn hregistered, Consistent, holders_handleStatus inner hfriend,
      NetCrypto.owners_cryptoKill]
    simp only [hid] at hlinked
    exact hlinked

/-- The friend connection of a crypto connection that is confirmed goes online. -/
theorem Consistent.confirm (h : Consistent w) (hconn : w.net.getCryptoConnection id = some conn) :
    Consistent ((friendCallbacks above sodium inner).connectionStatus w id true) := by
  obtain ⟨n, friendCon, hregistered, hfriend, -, hid⟩ := h.owner hconn
  have hlinked := Links.Linked.activate h (holders_live hfriend) hid
  rw [callRegistered_status hconn hregistered, Consistent, holders_handleStatus inner hfriend]
  exact hlinked

/-- The tables stay consistent in the places where they are written. -/
theorem consistent_keptByFriends (habove : above.Keeps) : KeptByFriends sodium above Consistent where
  alike _ _ _ halike howners h := h.of_same halike.holders howners
  friendNewConnection env _ n h := h.friendNewConnection sodium env n
  goOffline env _ n h := h.goOffline sodium env n
  handleNewConnections env _ nC h := h.handleNewConnections sodium env nC
  connectionKill _ _ _ id h := h.connectionKill id
  confirm _ _ _ _ hconn h := h.confirm hconn
  calls := habove

end Callbacks

/-! ## Runs -/

/-- Every operation keeps the tables consistent. -/
theorem FriendOperation.exec_consistent {sodium : Sodium} {above : LayerAbove} (habove : above.Keeps)
    (op : FriendOperation) {w : FriendWorld} (h : Consistent w) : Consistent (op.exec sodium above w) := by
  cases op with
  | newFriendConnection env realPublicKey => exact h.newFriendConnection env realPublicKey
  | killFriendConnection env friendconId => exact h.killFriendConnection sodium env friendconId
  | _ =>
    refine (consistent_keptByFriends habove).exec _ ?_ h
    trivial

/-- Nothing is connected at first. -/
theorem FriendWorld.new_consistent (dhtKeys : DhtKeys) (selfPublicKey : PublicKey) (selfSecretKey : SecretKey)
    (secretSymmetricKey : SharedKey) (onionC : OnionClient) (dht : Dht) :
    Consistent (FriendWorld.new dhtKeys selfPublicKey selfSecretKey secretSymmetricKey onionC dht) :=
  Links.Linked.empty

/-- In every reachable state a friend connection with a crypto connection refers to a live one with its real key,
whose callbacks carry its number; no two friend connections refer to the same; a connected one refers to one; and
every live crypto connection is referred to by exactly one friend connection. -/
theorem friendReaches_linked (sodium : Sodium) (dhtKeys : DhtKeys) (selfPublicKey : PublicKey)
    (selfSecretKey : SecretKey) (secretSymmetricKey : SharedKey) (onionC : OnionClient) (dht : Dht) (w : FriendWorld)
    (hreach : FriendReaches sodium
      (FriendWorld.new dhtKeys selfPublicKey selfSecretKey secretSymmetricKey onionC dht) w) :
    (∀ n friendCon id, w.app.getConn n = some friendCon → friendCon.cryptConnectionId = some id →
      ∃ conn, w.net.getCryptoConnection id = some conn ∧ conn.publicKey = friendCon.realPublicKey ∧
        conn.connectionStatusCallback = some n ∧ conn.connectionDataCallback = some n ∧
        conn.connectionLossyDataCallback = some n ∧ conn.dhtPkCallback = some n) ∧
    (∀ m n a b id, w.app.getConn m = some a → w.app.getConn n = some b → a.cryptConnectionId = some id →
      b.cryptConnectionId = some id → m = n) ∧
    (∀ n friendCon, w.app.getConn n = some friendCon → friendCon.status = .connected →
      friendCon.cryptConnectionId ≠ none) ∧
    (∀ id conn, w.net.getCryptoConnection id = some conn →
      ∃! n, ∃ friendCon, w.app.getConn n = some friendCon ∧ friendCon.cryptConnectionId = some id) := by
  have hlinked : Consistent w := hreach.invariant
    (fun above op w habove _ h => op.exec_consistent habove h)
    (FriendWorld.new_consistent dhtKeys selfPublicKey selfSecretKey secretSymmetricKey onionC dht)
  refine ⟨?_, ?_, ?_, ?_⟩
  · intro n friendCon id hfriend hid
    obtain ⟨conn, hconn, heq⟩ :=
      NetCrypto.owners_eq_some (Links.Linked.target hlinked n _ id (holders_live hfriend) hid)
    obtain ⟨hkey, hregistered⟩ := Prod.mk.inj heq
    exact ⟨conn, hconn, hkey.symm, (congrArg Registered.status hregistered).symm,
      (congrArg Registered.data hregistered).symm, (congrArg Registered.lossyData hregistered).symm,
      (congrArg Registered.dhtPk hregistered).symm⟩
  · intro m n a b id ha hb haid hbid
    exact Links.Linked.target_unique hlinked (holders_live ha) (holders_live hb) haid hbid
  · intro n friendCon hfriend hconnected
    exact Links.Linked.active hlinked n _ (holders_live hfriend) (decide_eq_true hconnected)
  · intro id conn hconn
    obtain ⟨n, friendCon, -, hfriend, -, hid⟩ := hlinked.owner hconn
    refine ⟨n, ⟨friendCon, hfriend, hid⟩, ?_⟩
    rintro m ⟨other, hother, hotherId⟩
    exact Links.Linked.target_unique hlinked (holders_live hother) (holders_live hfriend) hotherId hid

/-- A friend connection that accepted a connection is the only one that refers to it. -/
theorem friendReaches_linked_accepted :
    let key : PublicKey := List.Vector.replicate 32 1
    let friendKey : PublicKey := List.Vector.replicate 32 2
    let start := FriendWorld.new ⟨key, key, fun _ => .zero⟩ key key key ⟨[], key, key, fun _ => none⟩ (Dht.new key)
    let nC : NewConnection :=
      ⟨.zero, friendKey, .zero, List.Vector.replicate 24 0, key, List.replicate cookieLength 0⟩
    let w := (FriendOperation.handleNewConnections .calm nC).exec .plain .unset
      ((FriendOperation.newFriendConnection .calm friendKey).exec .plain .unset start)
    FriendReaches .plain start w ∧ w.app.friendConnectionCryptConnectionId 0 = some 0 ∧
      ∃! n, ∃ friendCon, w.app.getConn n = some friendCon ∧ friendCon.cryptConnectionId = some 0 := by
  intro key friendKey start nC w
  have hadded : FriendReaches .plain start _ :=
    FriendReaches.step_unset (.refl start) (.newFriendConnection .calm friendKey)
  have hreach : FriendReaches .plain start w := hadded.step_unset (.handleNewConnections .calm nC)
  have hid : w.app.friendConnectionCryptConnectionId 0 = some 0 := by decide +kernel
  obtain ⟨friendCon, hfriend, hfriendId⟩ := friendConnectionCryptConnectionId_some hid
  obtain ⟨hlive, -, -, hunique⟩ := friendReaches_linked .plain _ key key key _ _ w hreach
  obtain ⟨conn, hconn, -⟩ := hlive 0 friendCon 0 hfriend hfriendId
  exact ⟨hreach, hid, hunique 0 conn hconn⟩

end Toxcore
