import Toxcore.Data.TableView
import Toxcore.NetCrypto.Ticks

/-!
# The send budget of a connection

`packets_left` is how many packets may be sent under congestion control, and `packets_left_requested` how many with
those that are sent again. `send_crypto_packets` refills both from its rate estimates, and both are decremented for
every packet, but only the first is looked at before. The floating point estimates are parameters; what is computed
from them in integers is here.
-/

namespace Toxcore

open ByteStrings TableView Function List Option

/-- What the floating point estimates of `send_crypto_packets` come to for a connection: the intervals between packets
and the numbers of packets to send, for new packets and for all with those that were requested. -/
structure SendRates where
  interval : UInt64
  numPackets : UInt32
  intervalRequested : UInt64
  numPacketsRequested : UInt32

/-- The budget of a connection, with the times it was last refilled. -/
structure SendBudget where
  packetsLeft : UInt32
  packetsLeftRequested : UInt32
  lastPacketsLeftSet : UInt64
  lastPacketsLeftRequestedSet : UInt64

namespace SendBudget

variable (rates : SendRates) (tempTime : UInt64) (b : SendBudget)

/-- `packets_left` is refilled where it is due. -/
def refillLeft : SendBudget :=
  if rates.interval + b.lastPacketsLeftSet ≤ tempTime then
    { b with
      packetsLeft := if b.packetsLeft > rates.numPackets * 4 + cryptoMinQueueLength then
        rates.numPackets * 4 + cryptoMinQueueLength else b.packetsLeft + rates.numPackets
      lastPacketsLeftSet := tempTime }
  else b

/-- `packets_left_requested` is refilled where it is due. -/
def refillRequested : SendBudget :=
  if rates.intervalRequested + b.lastPacketsLeftRequestedSet ≤ tempTime then
    { b with packetsLeftRequested := rates.numPacketsRequested, lastPacketsLeftRequestedSet := tempTime }
  else b

/-- The part of `send_crypto_packets` that refills the budget. -/
def refill : SendBudget :=
  if b.lastPacketsLeftSet = 0 ∨ b.lastPacketsLeftRequestedSet = 0 then
    ⟨cryptoMinQueueLength, cryptoMinQueueLength, tempTime, tempTime⟩
  else
    let b := (b.refillLeft rates tempTime).refillRequested rates tempTime
    if b.packetsLeft > b.packetsLeftRequested then { b with packetsLeftRequested := b.packetsLeft } else b

/-- After a refill, all packets that may be sent are among those that may be sent or sent again. -/
theorem refill_le : (b.refill rates tempTime).packetsLeft ≤ (b.refill rates tempTime).packetsLeftRequested := by
  unfold refill
  split
  · exact UInt32.le_refl _
  · dsimp only
    split
    · exact UInt32.le_refl _
    · rename_i hle
      exact UInt32.not_lt.mp hle

end SendBudget

/-- The budget of a connection, given the times. -/
def CryptoConnection.budget (conn : CryptoConnection) (sets : UInt64 × UInt64) : SendBudget :=
  ⟨conn.packetsLeft, conn.packetsLeftRequested, sets.1, sets.2⟩

/-- The status of a connection and its counters. -/
def CryptoConnection.counters (conn : CryptoConnection) : ConnStatus × UInt32 × UInt32 :=
  (conn.status, conn.packetsLeft, conn.packetsLeftRequested)

namespace NetCrypto

variable (sodium : Sodium) (env : Env)

/-! ## What sending leaves -/

/-- The counters of all connections are the same. -/
def KeepsCounters (c c' : NetCrypto) : Prop :=
  c'.cryptoConnections.map CryptoConnection.counters = c.cryptoConnections.map CryptoConnection.counters

namespace KeepsCounters

variable {c c' c'' : NetCrypto} {id : ℕ}

theorem refl (c : NetCrypto) : KeepsCounters c c := rfl

theorem trans (h : KeepsCounters c c') (h' : KeepsCounters c' c'') : KeepsCounters c c'' := Eq.trans h' h

theorem ofSendsOnly (h : SendsOnly c c') : KeepsCounters c c' := by
  have hcounters : CryptoConnection.counters ∘ quiet = CryptoConnection.counters := rfl
  have hmap := congrArg (List.map CryptoConnection.counters) h.connections
  rwa [List.map_map, List.map_map, hcounters] at hmap

variable {f : CryptoConnection → CryptoConnection}

theorem modifyConnection (h : KeepsCounters c c') (hf : ∀ conn, (f conn).counters = conn.counters) :
    KeepsCounters c (c'.modifyConnection id f) :=
  (map_modify_of_keeps hf c'.cryptoConnections id).trans h

/-- A connection is found with the same counters. -/
theorem get (h : KeepsCounters c c') {conn : CryptoConnection} (hconn : c.getCryptoConnection id = some conn) :
    ∃ conn', c'.getCryptoConnection id = some conn' ∧ conn'.counters = conn.counters := by
  obtain ⟨hget, hlive⟩ := getCryptoConnection_eq_some.mp hconn
  have hmap := congrArg (·[id]?) h
  simp only [getElem?_map, hget, map_some] at hmap
  obtain ⟨conn', hget', hsame⟩ := map_eq_some_iff.mp hmap
  have hstatus : conn'.status = conn.status := congrArg Prod.fst hsame
  exact ⟨conn', getCryptoConnection_eq_some.mpr ⟨hget', hstatus ▸ hlive⟩, hsame⟩

end KeepsCounters

variable (c : NetCrypto) (id : ℕ)

/-- A request packet is sent. -/
theorem sendRequestNow_keeps : KeepsCounters c (sendRequestNow sodium env c id) := by
  have hsend : KeepsCounters c (sendRequestPacket sodium env c id).2 := by
    unfold sendRequestPacket
    split
    · exact .refl c
    · split
      · exact .refl c
      · exact .ofSendsOnly (sendDataPacketHelper_sendsOnly sodium env c id _ _ _)
  unfold sendRequestNow
  split
  · rename_i c₁ heq
    rwa [heq] at hsend
  · rename_i c₁ heq
    rw [heq] at hsend
    exact hsend.modifyConnection fun _ => rfl

/-- A cookie request or handshake is sent again. -/
theorem serveTempPacket_keeps : KeepsCounters c (serveTempPacket env c id) := by
  unfold serveTempPacket
  split
  · exact .refl c
  · split
    · exact .ofSendsOnly (sendTempPacket_sendsOnly env c id)
    · exact .refl c

/-- The requests of a connection are served. -/
theorem serveRequests_keeps : KeepsCounters c (serveRequests sodium env c id) := by
  unfold serveRequests
  split
  · exact .refl c
  · split
    · exact sendRequestNow_keeps sodium env c id
    · exact .refl c

/-- Requests are sent at the rate that is asked for. -/
theorem serveFastRequests_keeps (rates : ℕ → CryptoConnection → RateEstimates) (c : NetCrypto) (id : ℕ)
    (conn : CryptoConnection) :
    KeepsCounters c (serveFastRequests sodium env rates c id conn) := by
  unfold serveFastRequests
  split
  · exact .refl c
  · split
    · exact sendRequestNow_keeps sodium env c id
    · exact .refl c

/-- Packets are sent again, and not more than may be. -/
theorem sendRequestedLoop_keeps {maxNum : UInt32} (numbers : List UInt32) {numSent : UInt32}
    (hsent : numSent < maxNum) (c : NetCrypto) :
    KeepsCounters c (sendRequestedLoop sodium env id maxNum numbers numSent c).2 ∧
      ∀ count, (sendRequestedLoop sodium env id maxNum numbers numSent c).1 = some count → count ≤ maxNum := by
  induction numbers generalizing numSent c with
  | nil => exact ⟨.refl c, fun count hcount => some_inj.mp hcount ▸ UInt32.le_of_lt hsent⟩
  | cons packetNum rest ih =>
    unfold sendRequestedLoop
    split
    · exact ⟨.refl c, nofun⟩
    · rename_i conn _
      split
      · exact ⟨.refl c, nofun⟩
      · exact ih hsent c
      · rename_i packet _
        have hkept := KeepsCounters.ofSendsOnly
          (sendDataPacketHelper_sendsOnly sodium env c id conn.recvArray.bufferStart packetNum packet.data)
        split
        · exact ih hsent c
        · split
          · rename_i c₁ heq
            rw [heq] at hkept
            obtain ⟨hrest, hcount⟩ := ih hsent c₁
            rw [if_neg (UInt32.not_le.mpr hsent)]
            exact ⟨hkept.trans hrest, hcount⟩
          · rename_i c₁ heq
            rw [heq] at hkept
            have hmark : KeepsCounters c (c₁.modifyConnection id fun conn =>
                { conn with sendArray := setSentTime env.monotonicTime packetNum conn.sendArray }) :=
              hkept.modifyConnection fun _ => rfl
            split
            · rename_i hlast
              refine ⟨hmark, fun count hcount => ?_⟩
              obtain rfl := some_inj.mp hcount
              rw [UInt32.le_iff_toNat_le, UInt32.toNat_add]
              have hlt := UInt32.lt_iff_toNat_lt.mp hsent
              have hmax := maxNum.toNat_lt
              rw [show (1 : UInt32).toNat = 1 from rfl]
              omega
            · rename_i hmore
              obtain ⟨hrest, hcount⟩ := ih (UInt32.not_le.mp hmore) (c₁.modifyConnection id fun conn =>
                { conn with sendArray := setSentTime env.monotonicTime packetNum conn.sendArray })
              exact ⟨hmark.trans hrest, hcount⟩

/-- Requested packets are sent, and counted. -/
theorem sendRequestedPackets_keeps (maxNum : UInt32) :
    KeepsCounters c (sendRequestedPackets sodium env c id maxNum).2 ∧
      ∀ count, (sendRequestedPackets sodium env c id maxNum).1 = some count → count ≤ maxNum := by
  unfold sendRequestedPackets
  split
  · exact ⟨.refl c, nofun⟩
  · rename_i hmax
    split
    · exact ⟨.refl c, nofun⟩
    · exact sendRequestedLoop_keeps sodium env id _ (UInt32.pos_iff_ne_zero.mpr hmax) c

/-- Queueing keeps the counters. -/
theorem Queues.keepsCounters {c' : NetCrypto} (h : Queues id c c') : KeepsCounters c c' := by
  induction h with
  | refl => exact .refl c
  | sends _ hsends ih => exact ih.trans (.ofSendsOnly hsends)
  | writes f _ hf ih =>
    refine ih.modifyConnection fun conn => ?_
    obtain ⟨sendArray, mark, hconn⟩ := hf conn
    rw [hconn]
    rfl

end NetCrypto

/-! ## Budgets that are in order -/

/-- At least one packet is left. -/
theorem one_le_iff {n : UInt32} : 1 ≤ n ↔ n ≠ 0 := by
  rw [← UInt32.pos_iff_ne_zero, UInt32.le_iff_toNat_le, UInt32.lt_iff_toNat_lt]
  exact Iff.rfl

/-- Both counters are decremented, and stay in order. -/
theorem sub_one_le_sub_one {left requested : UInt32} (hleft : left ≠ 0) (hle : left ≤ requested) :
    left - 1 ≤ requested - 1 := by
  have hone : (1 : UInt32).toNat = 1 := rfl
  have hsome := one_le_iff.mpr hleft
  have hle' := UInt32.le_iff_toNat_le.mp hle
  rw [UInt32.le_iff_toNat_le, UInt32.toNat_sub_of_le _ _ hsome,
    UInt32.toNat_sub_of_le _ _ (UInt32.le_trans hsome hle), hone]
  omega

/-- Once the budget of a connection was refilled, the packets that may be sent are among those that may be sent or
sent again. Before that nothing may be sent again, and neither in a free slot. -/
def CryptoConnection.InOrder (conn : CryptoConnection) (served : Bool) : Prop :=
  if conn.status ≠ .noConnection ∧ served = true then conn.packetsLeft ≤ conn.packetsLeftRequested
  else conn.packetsLeftRequested = 0

namespace CryptoConnection.InOrder

variable {conn conn' : CryptoConnection} {served : Bool}

/-- The order depends on the status and the counters. -/
theorem of_counters (h : conn.InOrder served) (hsame : conn'.counters = conn.counters) : conn'.InOrder served := by
  have hstatus : conn'.status = conn.status := congrArg Prod.fst hsame
  have hleft : conn'.packetsLeft = conn.packetsLeft := congrArg (·.2.1) hsame
  have hrequested : conn'.packetsLeftRequested = conn.packetsLeftRequested := congrArg (·.2.2) hsame
  rwa [CryptoConnection.InOrder, hstatus, hleft, hrequested]

/-- Packets are sent again. -/
theorem spendPackets (h : conn.InOrder served) {count : UInt32} (hcount : count ≤ conn.packetsLeftRequested) :
    (NetCrypto.spendPackets count conn).InOrder served := by
  rw [CryptoConnection.InOrder] at h ⊢
  split at h
  · rename_i hserved
    rw [if_pos (show (NetCrypto.spendPackets count conn).status ≠ .noConnection ∧ _ from hserved),
      NetCrypto.spendPackets]
    dsimp only
    rw [UInt32.le_iff_toNat_le] at h ⊢
    rw [UInt32.toNat_sub_of_le _ _ hcount]
    split
    · rename_i hmore
      rw [UInt32.toNat_sub_of_le _ _ (UInt32.le_of_lt hmore)]
      omega
    · exact Nat.zero_le _
  · rename_i hserved
    rw [if_neg (show ¬((NetCrypto.spendPackets count conn).status ≠ .noConnection ∧ _) from hserved)]
    rw [h] at hcount
    rw [NetCrypto.spendPackets, h, UInt32.le_antisymm hcount UInt32.zero_le]
    rfl

/-- A packet is counted for a connection whose budget was refilled. -/
theorem countPacket (h : conn.InOrder true) (hlive : conn.status ≠ .noConnection) (hleft : conn.packetsLeft ≠ 0) :
    (NetCrypto.countPacket conn).InOrder true := by
  rw [CryptoConnection.InOrder, if_pos ⟨hlive, rfl⟩] at h
  rw [CryptoConnection.InOrder, if_pos (show (NetCrypto.countPacket conn).status ≠ .noConnection ∧ _ from ⟨hlive, rfl⟩)]
  exact sub_one_le_sub_one hleft h

/-- Where nothing may be sent again, a connection that was not served is in order. -/
theorem of_unserved (h : conn.packetsLeftRequested = 0) : conn.InOrder false := by
  rw [CryptoConnection.InOrder, if_neg (fun hserved => Bool.false_ne_true hserved.2)]
  exact h

/-- A free slot is in order, whether or not it is said to be served. -/
theorem free (h : conn.InOrder served) (hfree : conn.status = .noConnection)
    (served' : Bool) : conn.InOrder served' := by
  rw [CryptoConnection.InOrder, if_neg (fun hserved => hserved.1 hfree)] at h ⊢
  exact h

end CryptoConnection.InOrder

namespace NetCrypto

/-- The budgets of all connections are in order. -/
def BudgetsInOrder (c : NetCrypto) (served : ℕ → Bool) : Prop :=
  ∀ (id : ℕ) (conn : CryptoConnection), c.cryptoConnections[id]? = some conn → conn.InOrder (served id)

/-- Nothing may be sent again in a slot. -/
def NothingRequested (c : NetCrypto) (id : ℕ) : Prop :=
  ∀ conn, c.cryptoConnections[id]? = some conn → conn.packetsLeftRequested = 0

variable {sodium : Sodium} {env : Env} {c c' : NetCrypto} {served : ℕ → Bool} {id : ℕ} {conn conn' : CryptoConnection}

namespace BudgetsInOrder

section

variable (h : c.BudgetsInOrder served)
include h

/-- A live connection is in order. -/
theorem getCryptoConnection (hconn : c.getCryptoConnection id = some conn) :
    conn.InOrder (served id) := h id conn (getCryptoConnection_eq_some.mp hconn).1

/-- A slot is written, which may be served with it. -/
theorem setServed (id : ℕ) {now : Bool} (hconn : conn.InOrder now) :
    (c.setConnection id conn).BudgetsInOrder (update served id now) := by
  intro i x hx
  have hset : (c.cryptoConnections.set id conn)[i]? = some x := hx
  by_cases hi : i = id
  · subst hi
    rw [getElem?_set_self'] at hset
    obtain ⟨-, -, rfl⟩ := map_eq_some_iff.mp hset
    rwa [update_self]
  · rw [getElem?_set_ne (Ne.symm hi)] at hset
    rw [update_of_ne hi]
    exact h i x hset

/-- A slot is written. -/
theorem setConnection (id : ℕ) (hconn : conn.InOrder (served id)) :
    (c.setConnection id conn).BudgetsInOrder served := by
  have hset := h.setServed id hconn
  rwa [update_eq_self] at hset

/-- What a slot holds is changed. -/
theorem modifyConnection (id : ℕ) (hf : ∀ conn, c.cryptoConnections[id]? = some conn → (f conn).InOrder (served id)) :
    (c.modifyConnection id f).BudgetsInOrder served :=
  modifyConnection_kept (P := fun c' => c'.BudgetsInOrder served) h fun conn hget => h.setConnection id (hf conn hget)

/-- The order depends on the statuses and the counters. -/
theorem ofKeepsCounters (hkept : KeepsCounters c c') : c'.BudgetsInOrder served := by
  intro id conn' hget'
  have hmap := congrArg (·[id]?) hkept
  simp only [getElem?_map, hget', map_some] at hmap
  obtain ⟨conn, hget, hsame⟩ := map_eq_some_iff.mp hmap.symm
  exact (h id conn hget).of_counters hsame.symm

/-- Sending keeps the order. -/
theorem ofSendsOnly (hsends : SendsOnly c c') : c'.BudgetsInOrder served :=
  h.ofKeepsCounters (.ofSendsOnly hsends)

/-- A connection that is killed leaves a free slot. -/
theorem cryptoKill (sodium : Sodium) (env : Env) (id : ℕ) : (cryptoKill sodium env c id).2.BudgetsInOrder served := by
  unfold NetCrypto.cryptoKill
  split
  · exact h
  · rename_i conn hconn
    have hsent := h.ofSendsOnly (killNotice_sendsOnly sodium env c id conn)
    intro i x hx
    have hfree : CryptoConnection.zero.InOrder (served id) := by
      rw [CryptoConnection.InOrder, if_neg fun hserved => hserved.1 rfl]
      rfl
    refine hsent.setConnection id hfree i x ?_
    obtain ⟨hi, rfl⟩ := List.getElem?_eq_some_iff.mp hx
    exact prefix_iff_getElem?.mp (List.rdropWhile_prefix _ _) i hi

end

end BudgetsInOrder

/-! ### Connections that are created -/

namespace NothingRequested

theorem ofSendsOnly (h : c.NothingRequested id) (hsends : SendsOnly c c') : c'.NothingRequested id := by
  intro conn' hget'
  have hkept := congrArg (·[id]?) (KeepsCounters.ofSendsOnly hsends)
  simp only [getElem?_map, hget', map_some] at hkept
  obtain ⟨conn, hget, hsame⟩ := map_eq_some_iff.mp hkept.symm
  exact (congrArg (·.2.2) hsame.symm).trans (h conn hget)

theorem modifyConnection (h : c.NothingRequested id)
    (hf : ∀ conn, (f conn).packetsLeftRequested = conn.packetsLeftRequested) :
    (c.modifyConnection id f).NothingRequested id := by
  intro conn' hget'
  rw [NetCrypto.modifyConnection, getElem?_modify_eq] at hget'
  obtain ⟨conn, hget, rfl⟩ := map_eq_some_iff.mp hget'
  exact (hf conn).trans (h conn hget)

end NothingRequested

namespace BudgetsInOrder

section

variable (h : c.BudgetsInOrder served)
include h

/-- A slot that was not served, and in which nothing may be sent again, is written. -/
theorem fill (hslot : c.NothingRequested id) (hserved : served id = false)
    (hf : ∀ conn, (f conn).packetsLeftRequested = conn.packetsLeftRequested) :
    (c.modifyConnection id f).BudgetsInOrder served :=
  h.modifyConnection id fun conn hget => hserved ▸ .of_unserved ((hf conn).trans (hslot conn hget))

/-- In the slot of a new connection there is nothing that may be sent again. -/
theorem createCryptoConnection (hlive : ∀ id, served id = true → (c.getCryptoConnection id).isSome)
    {result : Option ℕ} (hcreate : createCryptoConnection env c = (result, c')) :
    c'.BudgetsInOrder served ∧ ∀ id, result = some id → c'.NothingRequested id ∧ served id = false := by
  obtain ⟨htable, hslot⟩ := createCryptoConnection_spec hcreate
  have hold : ∀ (id : ℕ) (conn : CryptoConnection), c'.cryptoConnections[id]? = some conn →
      c.cryptoConnections[id]? = some conn ∨ c.cryptoConnections[id]? = none ∧ conn = .zero := by
    intro id conn hget
    obtain rfl | rfl := htable
    · exact .inl hget
    · rw [getElem?_append] at hget
      split at hget
      · exact .inl hget
      · rename_i hlength
        exact .inr ⟨getElem?_eq_none (Nat.le_of_not_lt hlength), mem_singleton.mp (mem_of_getElem? hget)⟩
  have hunserved (id : ℕ) (conn : CryptoConnection) (hget : c'.cryptoConnections[id]? = some conn)
      (hfree : conn.status = .noConnection) : served id = false := by
    rw [Bool.eq_false_iff]
    intro hserved
    obtain ⟨conn', hconn'⟩ := isSome_iff_exists.mp (hlive id hserved)
    obtain ⟨hget', hlive'⟩ := getCryptoConnection_eq_some.mp hconn'
    rcases hold id conn hget with hsame | ⟨hnone, -⟩
    · obtain rfl := some_inj.mp (hsame.symm.trans hget')
      exact hlive' hfree
    · rw [hnone] at hget'
      contradiction
  have horder : c'.BudgetsInOrder served := by
    intro id conn hget
    rcases hold id conn hget with hsame | ⟨-, rfl⟩
    · exact h id conn hsame
    · rw [hunserved id _ hget rfl]
      exact .of_unserved rfl
  refine ⟨horder, fun id hid => ?_⟩
  obtain ⟨conn', hget', hfree⟩ := hslot id hid
  refine ⟨fun conn hget => ?_, hunserved id conn' hget' hfree⟩
  obtain rfl := some_inj.mp (hget.symm.trans hget')
  have hinorder := horder id conn hget
  rwa [CryptoConnection.InOrder, if_neg fun hserved => hserved.1 hfree] at hinorder

/-- An address of a connection is noted. -/
theorem addIpPortConnection (env : Env) (id : ℕ) (ipPort : IpPort) :
    (addIpPortConnection env c id ipPort).2.BudgetsInOrder served := by
  have hset (list : BsList) {conn conn' : CryptoConnection} (hconn : c.getCryptoConnection id = some conn)
      (hsame : conn'.counters = conn.counters) :
      ({ c with ipPortList := list }.setConnection id conn').BudgetsInOrder served :=
    setConnection (c := { c with ipPortList := list }) h id ((h.getCryptoConnection hconn).of_counters hsame)
  unfold NetCrypto.addIpPortConnection
  split
  · exact h
  · rename_i conn hconn
    split
    · split
      · split
        · exact h
        · exact hset _ hconn rfl
      · exact h
    · split
      · split
        · split
          · exact h
          · exact hset _ hconn rfl
        · exact h
      · exact h

/-- The source of a packet is noted. -/
theorem cryptoConnectionAddSource (env : Env) (id : ℕ) (source : IpPort) :
    (cryptoConnectionAddSource env c id source).2.BudgetsInOrder served := by
  have hadd := h.addIpPortConnection env id source
  unfold NetCrypto.cryptoConnectionAddSource
  split
  · exact h
  · split
    · dsimp only
      split
      · refine hadd.modifyConnection id fun conn hget => (hadd _ conn hget).of_counters ?_
        unfold setDirectLastrecvTime
        split
        · rfl
        · rfl
      · exact hadd
    · split
      · exact h
      · exact h

/-- The slot of a new connection was not served; it is filled, or given up again. -/
theorem fills (hlive : ∀ id, served id = true → (c.getCryptoConnection id).isSome) {result : Option ℕ}
    (hfills : Fills env c f result c') (hf : ∀ conn, (f conn).packetsLeftRequested = conn.packetsLeftRequested) :
    c'.BudgetsInOrder served ∧ ∀ id, result = some id → c'.NothingRequested id ∧ served id = false := by
  have hslot {id : ℕ} {c₁ c₃ : NetCrypto} (dht : DhtKeys) (hcreate : NetCrypto.createCryptoConnection env c =
    (some id, c₁))
      (hsends : SendsOnly ({ c₁ with dht := dht }.modifyConnection id f) c₃) :
      c₃.BudgetsInOrder served ∧ c₃.NothingRequested id ∧ served id = false := by
    obtain ⟨horder, hcreated⟩ := h.createCryptoConnection hlive hcreate
    obtain ⟨hslot, hserved⟩ := hcreated id rfl
    have horder' : BudgetsInOrder { c₁ with dht := dht } served := horder
    have hslot' : NothingRequested { c₁ with dht := dht } id := hslot
    exact ⟨(horder'.fill hslot' hserved hf).ofSendsOnly hsends, (hslot'.modifyConnection hf).ofSendsOnly hsends,
      hserved⟩
  cases hfills with
  | unfilled hcreate => exact ⟨(h.createCryptoConnection hlive hcreate).1, nofun⟩
  | givenUp dht hcreate hsends =>
    obtain ⟨horder, hnone, hserved⟩ := hslot dht hcreate hsends
    exact ⟨horder.fill hnone hserved fun _ => rfl, nofun⟩
  | filled dht hcreate hsends =>
    obtain ⟨horder, hnone, hserved⟩ := hslot dht hcreate hsends
    exact ⟨horder, fun id hid => some_inj.mp hid ▸ ⟨hnone, hserved⟩⟩

/-- A connection that is accepted was not served. -/
theorem acceptCryptoConnection (hlive : ∀ id, served id = true → (c.getCryptoConnection id).isSome) (sodium : Sodium)
    (env : Env) (nC : NewConnection) : (acceptCryptoConnection sodium env c nC).2.BudgetsInOrder served := by
  rcases haccept : NetCrypto.acceptCryptoConnection sodium env c nC with ⟨result, c'⟩
  obtain ⟨-, rfl⟩ | ⟨-, number, c₃, hfills, hafter⟩ := acceptCryptoConnection_cases haccept
  · exact h
  · obtain ⟨horder, hslot⟩ := h.fills hlive hfills fun _ => rfl
    obtain ⟨-, rfl⟩ | ⟨id, hid, rfl⟩ := hafter
    · exact horder
    · obtain ⟨hnone, hserved⟩ := hslot id hid
      apply cryptoConnectionAddSource
      exact horder.fill hnone hserved fun _ => rfl

/-- A connection that is requested was not served. -/
theorem newCryptoConnection (hlive : ∀ id, served id = true → (c.getCryptoConnection id).isSome) (sodium : Sodium)
    (env : Env) (realPublicKey dhtPublicKey : PublicKey) :
    (newCryptoConnection sodium env c realPublicKey dhtPublicKey).2.BudgetsInOrder served := by
  rcases hnew : NetCrypto.newCryptoConnection sodium env c realPublicKey dhtPublicKey with ⟨result, c'⟩
  obtain ⟨-, -, rfl⟩ | ⟨-, number, sharedKey, hfills⟩ := newCryptoConnection_cases hnew
  · exact h
  · exact (h.fills hlive hfills fun _ => rfl).1

end

end BudgetsInOrder

/-! ### Packets that are received -/

/-- The order does not look at the session of a connection. -/
theorem inOrder_identityOf {served : Bool} : (identityOf conn).InOrder served ↔ conn.InOrder served := by
  by_cases hdead : conn.status = .noConnection
  · simp [CryptoConnection.InOrder, identityOf, hdead]
  · simp [CryptoConnection.InOrder, identityOf, hdead]

section Packets

variable {α : Type}

/-- Only the budgets are looked at, not the sessions. -/
theorem budgets_ignoresSessions : IgnoresSessions fun w : World α => w.net.BudgetsInOrder served where
  write _ id conn _ hget hidentity h :=
    h.setConnection id (inOrder_identityOf.mp (hidentity ▸ inOrder_identityOf.mpr (h id conn hget)))
  send _ _ hsends h := h.ofSendsOnly hsends

/-- The calls of the layer above keep the budgets in order. -/
theorem budgets_keptByCalls : KeptByCalls sodium .unset env fun w : World α => w.net.BudgetsInOrder served where
  kill w id h := by
    unfold connectionKill
    split
    · exact h
    · exact h.cryptoKill sodium env id
  confirm _ _ _ _ h := h
  data _ _ _ h := h
  lossyData _ _ _ h := h
  dhtPk _ _ _ h := h
  newConnection _ _ h := h
  addSource _ id source h := h.cryptoConnectionAddSource env id source

end Packets

end NetCrypto

end Toxcore
