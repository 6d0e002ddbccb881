import Toxcore.Data.TableView
import Toxcore.NetCrypto.Handling
import Toxcore.NetCrypto.Lossless

/-!
# Who a crypto connection belongs to

The part of the connection table that its owner relies on: which ids are in use, for which real key, and the numbers
that the callbacks of the connection were registered with. It is a function of the id, so that growing and shrinking
the table does not show. Each operation leaves it alone or changes it at one id.
-/

namespace Toxcore

open ByteStrings TableView Function

/-- The numbers that the callbacks of a connection were registered with. -/
structure Registered where
  status : Option ℕ
  data : Option ℕ
  lossyData : Option ℕ
  dhtPk : Option ℕ

/-- All callbacks registered with one number. -/
def Registered.all (number : ℕ) : Registered := ⟨some number, some number, some number, some number⟩

/-- The callbacks of a connection. -/
def registeredOf (conn : CryptoConnection) : Registered :=
  ⟨conn.connectionStatusCallback, conn.connectionDataCallback, conn.connectionLossyDataCallback, conn.dhtPkCallback⟩

/-- The real key and the callbacks of a connection, if it is live. -/
def ownerOf (conn : CryptoConnection) : Option (PublicKey × Registered) :=
  if conn.status = .noConnection then none else some (conn.publicKey, registeredOf conn)

namespace NetCrypto

/-- The real keys and the callbacks of the live connections. -/
def owners (c : NetCrypto) : ℕ → Option (PublicKey × Registered) := view ownerOf c.cryptoConnections

variable {c c' : NetCrypto} {conn old : CryptoConnection} {id : ℕ} {env : Env} {result : Option ℕ}

/-- The owner of a connection in use. -/
theorem owners_live (hconn : c.getCryptoConnection id = some conn) :
    c.owners id = some (conn.publicKey, registeredOf conn) := by
  obtain ⟨hget, hlive⟩ := getCryptoConnection_eq_some.mp hconn
  rw [owners, view_get hget, ownerOf, if_neg hlive]

/-- What is owned is owned by a connection. -/
theorem owners_eq_some {owner : PublicKey × Registered} (h : c.owners id = some owner) :
    ∃ conn, c.getCryptoConnection id = some conn ∧ owner = (conn.publicKey, registeredOf conn) := by
  obtain ⟨conn, hconn, howner⟩ := Option.bind_eq_some_iff.mp h
  unfold ownerOf at howner
  split at howner
  · contradiction
  · rename_i hlive
    exact ⟨conn, getCryptoConnection_eq_some.mpr ⟨hconn, hlive⟩, (Option.some_inj.mp howner).symm⟩

/-- A connection that is not in use has no owner. -/
theorem owners_eq_none : c.owners id = none ↔ c.getCryptoConnection id = none := by
  constructor
  · intro h
    cases hconn : c.getCryptoConnection id with
    | none => rfl
    | some conn =>
      rw [owners_live hconn] at h
      contradiction
  · intro h
    cases howner : c.owners id with
    | none => rfl
    | some owner =>
      obtain ⟨conn, hconn, -⟩ := owners_eq_some howner
      rw [h] at hconn
      contradiction

/-- A connection is written. -/
theorem owners_setConnection (hold : c.cryptoConnections[id]? = some old) (conn : CryptoConnection) :
    (c.setConnection id conn).owners = update c.owners id (ownerOf conn) :=
  view_set hold conn

/-- A connection is written that has the same owner. -/
theorem owners_setConnection_same (hold : c.cryptoConnections[id]? = some old) (hsame : ownerOf conn = ownerOf old) :
    (c.setConnection id conn).owners = c.owners :=
  view_set_same hold hsame

/-- A connection is changed that keeps its owner. -/
theorem owners_modifyConnection (c : NetCrypto) (id : ℕ) {f : CryptoConnection → CryptoConnection}
    (hf : ∀ conn, ownerOf (f conn) = ownerOf conn) : (c.modifyConnection id f).owners = c.owners :=
  view_modify_same hf

/-- Sending changes no owner. -/
theorem SendsOnly.owners (h : SendsOnly c c') : c'.owners = c.owners := by
  have hquiet : ownerOf ∘ quiet = ownerOf := rfl
  rw [NetCrypto.owners, NetCrypto.owners, ← hquiet, ← view_map, h.connections, view_map]

/-- The identity of a connection has its owner. -/
theorem ownerOf_identityOf (conn : CryptoConnection) : ownerOf (identityOf conn) = ownerOf conn := by
  by_cases hdead : conn.status = .noConnection
  · simp only [ownerOf, identityOf, hdead, if_true]
  · simp only [ownerOf, identityOf, hdead, if_false, reduceCtorEq]
    rfl

/-- What the owners decide does not look at sessions. -/
theorem ignoresSessions_owners {α : Type} {P : World α → Prop}
    (hP : ∀ (w : World α) (c : NetCrypto), c.owners = w.net.owners → P w → P { w with net := c }) :
      IgnoresSessions P where
  write w id conn conn' hconn hidentity h := by
    refine hP w _ (owners_setConnection_same hconn ?_) h
    rw [← ownerOf_identityOf, hidentity, ownerOf_identityOf]
  send w c hsend h := hP w c hsend.owners h

/-! ## Addresses and packets -/

/-- An address changes no owner. -/
theorem owners_addIpPortConnection (env : Env) (c : NetCrypto) (id : ℕ) (ipPort : IpPort) :
    (addIpPortConnection env c id ipPort).2.owners = c.owners := by
  have hset (list : BsList) {conn conn' : CryptoConnection} (hconn : c.getCryptoConnection id = some conn)
      (hsame : ownerOf conn' = ownerOf conn) :
      ({ c with ipPortList := list }.setConnection id conn').owners = c.owners :=
    owners_setConnection_same (c := { c with ipPortList := list }) (getCryptoConnection_eq_some.mp hconn).1 hsame
  unfold addIpPortConnection
  split
  · rfl
  · rename_i conn hconn
    split
    · split
      · split
        · rfl
        · exact hset _ hconn rfl
      · rfl
    · split
      · split
        · split
          · rfl
          · exact hset _ hconn rfl
        · rfl
      · rfl

/-- The time of a direct packet changes no owner. -/
theorem ownerOf_setDirectLastrecvTime (time : UInt64) (ipPort : IpPort) (conn : CryptoConnection) :
    ownerOf (setDirectLastrecvTime time ipPort conn) = ownerOf conn := by
  unfold setDirectLastrecvTime
  split <;> rfl

/-- A direct address changes no owner. -/
theorem owners_setDirectIpPort (env : Env) (c : NetCrypto) (id : ℕ) (ipPort : IpPort) (connected : Bool) :
    (setDirectIpPort env c id ipPort connected).2.owners = c.owners := by
  have hadd := owners_addIpPortConnection env c id ipPort
  unfold setDirectIpPort
  split
  · rfl
  · dsimp only
    split
    · rw [owners_modifyConnection _ _ (ownerOf_setDirectLastrecvTime _ _), hadd]
    · exact hadd

/-- The source of a packet changes no owner. -/
theorem owners_cryptoConnectionAddSource (env : Env) (c : NetCrypto) (id : ℕ) (source : IpPort) :
    (cryptoConnectionAddSource env c id source).2.owners = c.owners := by
  have hadd := owners_addIpPortConnection env c id source
  unfold cryptoConnectionAddSource
  split
  · rfl
  · split
    · dsimp only
      split
      · rw [owners_modifyConnection _ _ (ownerOf_setDirectLastrecvTime _ _), hadd]
      · exact hadd
    · split <;> rfl

variable (sodium : Sodium)

/-- Queueing changes no owner. -/
theorem Queues.owners {id : ℕ} (h : Queues id c c') : c'.owners = c.owners := by
  induction h with
  | refl => rfl
  | sends _ hsends ih => exact hsends.owners.trans ih
  | writes f _ hf ih =>
    refine (owners_modifyConnection _ id fun conn => ?_).trans ih
    obtain ⟨sendArray, mark, hconn⟩ := hf conn
    rw [hconn]
    rfl

/-- A written packet changes no owner. -/
theorem owners_writeCryptpacket (env : Env) (c : NetCrypto) (id : ℕ) (data : Bytes) (congestionControl : Bool) :
    (writeCryptpacket sodium env c id data congestionControl).2.owners = c.owners := by
  have hsend := (sendLosslessPacket_queues sodium env c id data congestionControl).owners
  unfold writeCryptpacket
  split
  · split
    · rfl
    · split
      · rfl
      · split
        · rfl
        · split
          · rename_i c₁ heq
            rwa [heq] at hsend
          · rename_i packetNum c₁ heq
            rw [heq] at hsend
            dsimp only
            split
            · rw [← hsend]
              exact owners_modifyConnection c₁ id fun _ => rfl
            · exact hsend
  · rfl

/-! ## Creating and killing connections -/

/-- A slot that was found for a new connection is free, and the owners are the same. -/
theorem owners_createCryptoConnection (h : createCryptoConnection env c = (result, c')) :
    c'.owners = c.owners ∧ ∀ id, result = some id → ∃ conn, c'.cryptoConnections[id]? = some conn ∧
      c.owners id = none := by
  obtain ⟨htable, hslot⟩ := createCryptoConnection_spec h
  have hsame : c'.owners = c.owners := by
    obtain rfl | rfl := htable
    · rfl
    · exact view_concat rfl
  refine ⟨hsame, fun id hid => ?_⟩
  obtain ⟨conn, hconn, hfree⟩ := hslot id hid
  refine ⟨conn, hconn, ?_⟩
  rw [← hsame, owners, view_get hconn, ownerOf, if_pos hfree]

/-- The slot of a new connection was free; it is filled for a key, or given up again. -/
theorem Fills.owners {fill : CryptoConnection → CryptoConnection} {k : PublicKey} (h : Fills env c fill result c')
    (hfill : ∀ conn, ownerOf (fill conn) = some (k, registeredOf conn)) :
    result = none ∧ c'.owners = c.owners ∨ ∃ id registered, result = some id ∧ c.owners id = none ∧
      c'.owners = update c.owners id (some (k, registered)) := by
  have hslot {id : ℕ} {c₁ c₃ : NetCrypto} (dht : DhtKeys) (hcreate : createCryptoConnection env c = (some id, c₁))
      (hsends : SendsOnly ({ c₁ with dht := dht }.modifyConnection id fill) c₃) :
      c.owners id = none ∧ ∃ conn conn', c₃.cryptoConnections[id]? = some conn' ∧
        c₃.owners = update c.owners id (some (k, registeredOf conn)) := by
    obtain ⟨hsame, hfree⟩ := owners_createCryptoConnection hcreate
    obtain ⟨conn, hconn, hnone⟩ := hfree id rfl
    have hconn' : { c₁ with dht := dht }.cryptoConnections[id]? = some conn := hconn
    rw [modifyConnection_eq hconn'] at hsends
    obtain ⟨conn', hget, -⟩ := hsends.get (List.getElem?_set_self (List.getElem?_eq_some_iff.mp hconn).1)
    refine ⟨hnone, conn, conn', hget, ?_⟩
    rw [hsends.owners, owners_setConnection hconn', hfill, ← hsame]
    rfl
  cases h with
  | unfilled hcreate => exact .inl ⟨rfl, (owners_createCryptoConnection hcreate).1⟩
  | givenUp dht hcreate hsends =>
    obtain ⟨hnone, conn, conn', hget, howners⟩ := hslot dht hcreate hsends
    refine .inl ⟨rfl, ?_⟩
    rw [modifyConnection_eq hget, owners_setConnection hget, howners, update_idem]
    exact update_eq_self_iff.mpr hnone.symm
  | filled dht hcreate hsends =>
    obtain ⟨hnone, conn, conn', hget, howners⟩ := hslot dht hcreate hsends
    exact .inr ⟨_, registeredOf conn, rfl, hnone, howners⟩

/-- An accepted connection is a new one, for the key it was accepted for. -/
theorem owners_acceptCryptoConnection {sodium : Sodium} {nC : NewConnection}
    (h : acceptCryptoConnection sodium env c nC = (result, c')) :
    result = none ∧ c'.owners = c.owners ∨
      ∃ id registered, result = some id ∧ c.owners id = none ∧
        c'.owners = update c.owners id (some (nC.publicKey, registered)) := by
  obtain ⟨rfl, rfl⟩ | ⟨-, number, c₃, hfills, hafter⟩ := acceptCryptoConnection_cases h
  · exact .inl ⟨rfl, rfl⟩
  · have howners := hfills.owners (k := nC.publicKey) fun _ => rfl
    obtain ⟨-, rfl⟩ | ⟨id, -, rfl⟩ := hafter
    · exact howners
    · have hsame := owners_modifyConnection c₃ id
        (f := fun conn => startCounters { conn with dhtPublicKey := nC.dhtPublicKey }) fun _ => rfl
      rwa [owners_cryptoConnectionAddSource, hsame]

/-- A requested connection is the one that exists for the key, or a new one. -/
theorem owners_newCryptoConnection {sodium : Sodium} {realPublicKey dhtPublicKey : PublicKey}
    (h : newCryptoConnection sodium env c realPublicKey dhtPublicKey = (result, c')) :
    result = none ∧ c'.owners = c.owners ∨ (∃ id registered, c.owners id = some (realPublicKey, registered)) ∨
      ∃ id registered, result = some id ∧ c.owners id = none ∧
        c'.owners = update c.owners id (some (realPublicKey, registered)) := by
  obtain ⟨id, hid, -⟩ | ⟨-, number, sharedKey, hfills⟩ := newCryptoConnection_cases h
  · obtain ⟨conn, hconn, rfl⟩ := getcryptconnectionId_some hid
    exact .inr (.inl ⟨id, registeredOf conn, owners_live hconn⟩)
  · exact (hfills.owners fun _ => rfl).imp_right .inr

/-- A wiped connection has no owner. -/
theorem owners_wipeCryptoConnection (hold : c.cryptoConnections[id]? = some old) :
    (wipeCryptoConnection c id).owners = update c.owners id none := by
  have hzero : (c.setConnection id .zero).owners = update c.owners id none := owners_setConnection hold .zero
  rw [← hzero]
  apply view_rdropWhile
  intro conn hfree
  rw [ownerOf, if_pos (of_decide_eq_true hfree)]

/-- A killed connection has no owner. -/
theorem owners_cryptoKill (env : Env) (c : NetCrypto) (id : ℕ) :
    (cryptoKill sodium env c id).2.owners = update c.owners id none := by
  unfold cryptoKill
  split
  · rename_i hnone
    rw [← owners_eq_none.mpr hnone, update_eq_self]
  · rename_i conn hconn
    have hsend := killNotice_sendsOnly sodium env c id conn
    obtain ⟨conn', hconn', -⟩ := hsend.get (getCryptoConnection_eq_some.mp hconn).1
    dsimp only
    rw [← hsend.owners]
    exact owners_wipeCryptoConnection hconn'

/-- Registering a callback changes the numbers of a live connection only. -/
theorem owners_setCallback {key : PublicKey} {registered : Registered} (howner : c.owners id = some (key, registered))
    {register : CryptoConnection → CryptoConnection} (note : Registered → Registered)
    (hstatus : ∀ conn, (register conn).status = conn.status)
    (hkey : ∀ conn, (register conn).publicKey = conn.publicKey)
    (hnote : ∀ conn, registeredOf (register conn) = note (registeredOf conn)) :
    (setCallback c id register).2.owners = update c.owners id (some (key, note registered)) := by
  obtain ⟨conn, hconn, heq⟩ := owners_eq_some howner
  obtain ⟨hget, hlive⟩ := getCryptoConnection_eq_some.mp hconn
  obtain ⟨rfl, rfl⟩ := Prod.mk.inj heq
  simp only [setCallback, hconn]
  rw [owners_setConnection hget, ownerOf, hstatus, if_neg hlive, hkey, hnote]

end NetCrypto

end Toxcore
