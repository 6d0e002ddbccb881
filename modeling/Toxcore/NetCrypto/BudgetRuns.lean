import Toxcore.NetCrypto.SendBudget

/-!
# Runs that spend the send budget

Connections are created, send, receive and are killed, in any order. Wherever a counter is decremented, what it was
before and what it is after is noted. A tick that serves a connection puts its counters in order, with `packets_left`
not above `packets_left_requested`, and from then on no decrement wraps. But a connection is created with
`packets_left` set and `packets_left_requested` at zero: what is written under congestion control before the first
tick that serves it wraps the second counter.
-/

namespace Toxcore

open ByteStrings Function List Option NetCrypto

/-- The connections, the times when the budget was last refilled of those that were served since they were created,
and the counters before and after every decrement so far. -/
structure BudgetState where
  net : NetCrypto
  sets : ℕ → Option (UInt64 × UInt64)
  decrements : List (UInt32 × UInt32)

/-- What happens: a connection is requested, accepted or killed, `send_crypto_packets` ticks, given the rates and what
else is estimated for each connection, `write_cryptpacket` is called, or a packet of the peer is handled, which may
ask for packets again. -/
inductive BudgetOp where
  | newConnection (env : Env) (realPublicKey dhtPublicKey : PublicKey)
  | acceptConnection (env : Env) (nC : NewConnection)
  | kill (env : Env) (id : ℕ)
  | tick (env : Env) (rates : ℕ → CryptoConnection → SendRates) (estimates : ℕ → CryptoConnection → RateEstimates)
  | write (env : Env) (id : ℕ) (data : Bytes) (congestionControl : Bool)
  | handlePacket (env : Env) (id : ℕ) (packet : Bytes) (udp : Bool)

namespace BudgetState

variable (sodium : Sodium) (env : Env) (rates : ℕ → CryptoConnection → SendRates)
  (estimates : ℕ → CryptoConnection → RateEstimates) (s : BudgetState)

/-- A tick has served a connection since it was created. -/
def served (id : ℕ) : Bool := (s.sets id).isSome

/-- The connections change without spending. A slot that is not in use has no times. -/
def withNet (net : NetCrypto) : BudgetState :=
  { s with net := net, sets := fun id => if (net.getCryptoConnection id).isSome then s.sets id else none }

/-- The budget of a connection once it is refilled. -/
def refilled (id : ℕ) (conn : CryptoConnection) : SendBudget :=
  (conn.budget ((s.sets id).getD (0, 0))).refill (rates id conn) env.monotonicTime

/-- The estimates for a connection, with the budget that comes from the rates. -/
def withBudget (id : ℕ) (conn : CryptoConnection) : RateEstimates :=
  { estimates id conn with
    packetsLeft := (s.refilled env rates id conn).packetsLeft
    packetsLeftRequested := (s.refilled env rates id conn).packetsLeftRequested }

/-- The connections when the budget of one of them is refilled, and nothing was sent again yet. -/
def beforeResending (id : ℕ) (conn : CryptoConnection) : NetCrypto :=
  (serveFastRequests sodium env (s.withBudget env rates estimates)
    (serveRequests sodium env (serveTempPacket env s.net id) id) id conn).modifyConnection id
      (takeEstimates (s.withBudget env rates estimates id conn))

/-- The counters of a connection before and after they were decremented. -/
def decremented : Option CryptoConnection → Option CryptoConnection → List (UInt32 × UInt32)
  | some before, some after =>
    [(before.packetsLeft, after.packetsLeft), (before.packetsLeftRequested, after.packetsLeftRequested)]
  | _, _ => []

/-- What a tick does for one connection. -/
def serve (id : ℕ) : BudgetState :=
  let net := serveConnection sodium env (s.withBudget env rates estimates) s.net id
  match (serveRequests sodium env (serveTempPacket env s.net id) id).getCryptoConnection id with
  | none => { s with net := net }
  | some conn =>
    if conn.status = .established then
      let b := s.refilled env rates id conn
      let before := (s.beforeResending sodium env rates estimates id conn).getCryptoConnection id
      ⟨net, update s.sets id (some (b.lastPacketsLeftSet, b.lastPacketsLeftRequestedSet)),
        s.decrements ++ decremented before (net.getCryptoConnection id)⟩
    else { s with net := net }

/-- The loop of a tick over the remaining slots. -/
def tickLoop : List ℕ → BudgetState → BudgetState
  | [], s => s
  | id :: rest, s =>
    match s.net.getCryptoConnection id with
    | none => s
    | some _ => tickLoop rest (s.serve sodium env rates estimates id)

/-- One step. -/
def step : BudgetOp → BudgetState
  | .newConnection env realPublicKey dhtPublicKey =>
    s.withNet (newCryptoConnection sodium env s.net realPublicKey dhtPublicKey).2
  | .acceptConnection env nC => s.withNet (acceptCryptoConnection sodium env s.net nC).2
  | .kill env id => s.withNet (cryptoKill sodium env s.net id).2
  | .tick env rates estimates =>
    tickLoop sodium env rates estimates (List.range s.net.cryptoConnections.length) s
  | .write env id data congestionControl =>
    let net := (writeCryptpacket sodium env s.net id data congestionControl).2
    { s with
      net := net
      decrements := s.decrements ++ decremented (s.net.getCryptoConnection id) (net.getCryptoConnection id) }
  | .handlePacket env id packet udp =>
    s.withNet (handlePacketConnection sodium .unset env (⟨s.net, ()⟩ : World Unit) id packet udp).2.net

/-- Several steps. -/
def run (ops : List BudgetOp) : BudgetState := ops.foldl (step sodium) s

/-- `new_net_crypto`, before anything was spent. -/
def start (dht : DhtKeys) (selfPublicKey : PublicKey) (selfSecretKey : SecretKey)
    (secretSymmetricKey : SharedKey) : BudgetState :=
  ⟨.new dht selfPublicKey selfSecretKey secretSymmetricKey, fun _ => none, []⟩

variable {sodium env rates estimates s}

/-! ## What a tick keeps -/

/-- The budgets are in order, and only live connections were served. -/
structure Ordered (s : BudgetState) : Prop where
  order : s.net.BudgetsInOrder s.served
  live : ∀ id, s.served id = true → (s.net.getCryptoConnection id).isSome

/-- The order does not depend on what a free slot is said to be. -/
theorem Ordered.withNet {net : NetCrypto} (h : net.BudgetsInOrder s.served) : (s.withNet net).Ordered where
  order id conn hget := by
    have hinorder := h id conn hget
    by_cases hfree : conn.status = .noConnection
    · exact hinorder.free hfree _
    · have hconn : net.getCryptoConnection id = some conn := getCryptoConnection_eq_some.mpr ⟨hget, hfree⟩
      have hserved : (s.withNet net).served id = s.served id := by
        rw [served, BudgetState.withNet]
        dsimp only
        rw [hconn, isSome_some, if_pos rfl, served]
      rwa [hserved]
  live id hserved := by
    rw [served, BudgetState.withNet] at hserved
    dsimp only at hserved
    split at hserved
    · assumption
    · contradiction

/-- No connection is lost. -/
def KeepsLive (c c' : NetCrypto) : Prop := ∀ id, (c.getCryptoConnection id).isSome → (c'.getCryptoConnection id).isSome

variable {c c' : NetCrypto} {conn : CryptoConnection} {id : ℕ} {s' : BudgetState}

/-- Where the statuses are the same, no connection is lost. -/
theorem KeepsLive.of_keepsCounters (h : NetCrypto.KeepsCounters c c') : KeepsLive c c' := by
  intro id hlive
  obtain ⟨conn, hconn⟩ := isSome_iff_exists.mp hlive
  obtain ⟨conn', hconn', -⟩ := h.get hconn
  exact isSome_of_eq_some hconn'

/-- A live connection is written as a live one. -/
theorem KeepsLive.setConnection (h : KeepsLive c c') {old : CryptoConnection}
    (hget : c'.cryptoConnections[id]? = some old) (hlive : conn.status ≠ .noConnection) :
    KeepsLive c (c'.setConnection id conn) := by
  intro i hi
  by_cases hid : i = id
  · subst hid
    exact isSome_of_eq_some (setConnection_get hget hlive)
  · rw [getCryptoConnection_setConnection_ne c' hid]
    exact h i hi

/-- The connections change, but not their statuses and counters. -/
theorem Ordered.keep (h : s.Ordered) (hkept : NetCrypto.KeepsCounters s.net s'.net) (hsets : s'.sets = s.sets) :
    s'.Ordered := by
  have hserved : s'.served = s.served := funext fun id => congrArg Option.isSome (congrFun hsets id)
  constructor
  · rw [hserved]
    exact h.order.ofKeepsCounters hkept
  · intro id hid
    rw [hserved] at hid
    exact KeepsLive.of_keepsCounters hkept id (h.live id hid)

/-- Packets are sent again and paid from the budget of the connection, of which nothing is decremented below 0. -/
theorem serveRequested_spends (sodium : Sodium) (env : Env) {served : ℕ → Bool} (h : c.BudgetsInOrder served)
    (hconn : c.getCryptoConnection id = some conn) :
    (serveRequested sodium env c id).BudgetsInOrder served ∧
      KeepsLive c (serveRequested sodium env c id) ∧
      ∃ conn', (serveRequested sodium env c id).getCryptoConnection id = some conn' ∧
        conn'.packetsLeft ≤ conn.packetsLeft ∧ conn'.packetsLeftRequested ≤ conn.packetsLeftRequested := by
  obtain ⟨hkept, hcount⟩ := sendRequestedPackets_keeps sodium env c id conn.packetsLeftRequested
  obtain ⟨conn₁, hconn₁, hsame⟩ := hkept.get hconn
  have hleft : conn₁.packetsLeft = conn.packetsLeft := congrArg (·.2.1) hsame
  have hrequested : conn₁.packetsLeftRequested = conn.packetsLeftRequested := congrArg (·.2.2) hsame
  have horder := h.ofKeepsCounters hkept
  obtain ⟨hget, hlive⟩ := getCryptoConnection_eq_some.mp hconn₁
  simp only [serveRequested, hconn]
  split
  · rename_i c₁ heq
    rw [heq] at horder hconn₁ hkept
    exact ⟨horder, .of_keepsCounters hkept, conn₁, hconn₁, UInt32.le_of_eq hleft, UInt32.le_of_eq hrequested⟩
  · rename_i count c₁ heq
    rw [heq] at hcount horder hget hkept
    have hfits : count ≤ conn₁.packetsLeftRequested := hrequested ▸ hcount count rfl
    rw [modifyConnection_eq hget]
    refine ⟨horder.setConnection id ((horder id conn₁ hget).spendPackets hfits),
      (KeepsLive.of_keepsCounters hkept).setConnection hget hlive, _, setConnection_get hget hlive, ?_, ?_⟩
    · rw [← hleft, spendPackets]
      dsimp only
      split
      · exact UInt32.sub_le (UInt32.le_of_lt (by assumption))
      · exact UInt32.zero_le
    · rw [← hrequested]
      exact UInt32.sub_le hfits

/-- A refilled budget is in order, and the connection is one that was served. -/
theorem beforeResending_inOrder (sodium : Sodium) (env : Env) (rates : ℕ → CryptoConnection → SendRates)
    (estimates : ℕ → CryptoConnection → RateEstimates) (h : s.Ordered)
    (hconn : (serveRequests sodium env (serveTempPacket env s.net id) id).getCryptoConnection id =
      some conn) :
    (s.beforeResending sodium env rates estimates id conn).BudgetsInOrder (update s.served id true) ∧
      KeepsLive s.net (s.beforeResending sodium env rates estimates id conn) ∧
      ∃ conn₁, (s.beforeResending sodium env rates estimates id conn).getCryptoConnection id = some conn₁ := by
  have hrequests : NetCrypto.KeepsCounters s.net
      (serveRequests sodium env (serveTempPacket env s.net id) id) :=
    (serveTempPacket_keeps env s.net id).trans (serveRequests_keeps sodium env _ id)
  have hfast := serveFastRequests_keeps sodium env (s.withBudget env rates estimates)
    (serveRequests sodium env (serveTempPacket env s.net id) id) id conn
  obtain ⟨conn₀, hconn₀, -⟩ := hfast.get hconn
  obtain ⟨hget, hlive⟩ := getCryptoConnection_eq_some.mp hconn₀
  rw [beforeResending, modifyConnection_eq hget]
  refine ⟨((h.order.ofKeepsCounters hrequests).ofKeepsCounters hfast).setServed id ?_,
    (KeepsLive.of_keepsCounters (hrequests.trans hfast)).setConnection hget hlive, _,
      setConnection_get hget hlive⟩
  have hboth : (takeEstimates (s.withBudget env rates estimates id conn) conn₀).status ≠ .noConnection ∧
    true = true :=
    ⟨hlive, rfl⟩
  rw [CryptoConnection.InOrder, if_pos hboth]
  exact SendBudget.refill_le _ _ _

/-- More is noted, and nothing of it was decremented below 0. -/
def Spends (s s' : BudgetState) : Prop := ∃ new, s'.decrements = s.decrements ++ new ∧ ∀ d ∈ new, d.2 ≤ d.1

/-- Nothing was decremented. -/
theorem Spends.nothing {s : BudgetState} (h : s'.decrements = s.decrements) : Spends s s' :=
  ⟨[], h.trans (append_nil _).symm, fun _ hd => absurd hd not_mem_nil⟩

/-- One after the other. -/
theorem Spends.trans {s s'' : BudgetState} (h : Spends s s') (h' : Spends s' s'') : Spends s s'' := by
  obtain ⟨first, hfirst, hfits⟩ := h
  obtain ⟨others, hothers, hfits'⟩ := h'
  refine ⟨first ++ others, ?_, fun d hd => (mem_append.mp hd).elim (hfits d) (hfits' d)⟩
  rw [hothers, hfirst, append_assoc]

/-- Serving a connection keeps the order, and decrements nothing below 0. -/
theorem serve_spends (sodium : Sodium) (env : Env) (rates : ℕ → CryptoConnection → SendRates)
    (estimates : ℕ → CryptoConnection → RateEstimates) (h : s.Ordered) (id : ℕ) :
    (s.serve sodium env rates estimates id).Ordered ∧ Spends s (s.serve sodium env rates estimates id) := by
  have hrequests : NetCrypto.KeepsCounters s.net
      (serveRequests sodium env (serveTempPacket env s.net id) id) :=
    (serveTempPacket_keeps env s.net id).trans (serveRequests_keeps sodium env _ id)
  unfold BudgetState.serve
  split
  · rename_i hnone
    refine ⟨h.keep ?_ rfl, .nothing rfl⟩
    simp only [serveConnection, serveEstablished, hnone]
    exact hrequests
  · rename_i conn hconn
    split
    · rename_i hestablished
      have hserved : serveConnection sodium env (s.withBudget env rates estimates) s.net id =
          serveRequested sodium env (s.beforeResending sodium env rates estimates id conn) id := by
        simp only [serveConnection, serveEstablished, hconn, if_pos hestablished, beforeResending]
      obtain ⟨hbefore, hlive, conn₁, hconn₁⟩ := beforeResending_inOrder sodium env rates estimates h hconn
      obtain ⟨horder, hlive', conn₂, hconn₂, hleft, hrequested⟩ := serveRequested_spends sodium env hbefore hconn₁
      rw [hserved]
      refine ⟨⟨?_, fun i hi => ?_⟩, _, rfl, ?_⟩
      · convert horder using 1
        funext i
        by_cases hi : i = id
        · subst hi
          simp only [served, update_self, isSome_some]
        · simp only [served, update_of_ne hi]
      · by_cases hid : i = id
        · subst hid
          exact isSome_of_eq_some hconn₂
        · simp only [served, update_of_ne hid] at hi
          exact hlive' i (hlive i (h.live i hi))
      · rw [hconn₁, hconn₂]
        exact forall_mem_cons.mpr ⟨hleft, forall_mem_singleton.mpr hrequested⟩
    · rename_i hnot
      refine ⟨h.keep ?_ rfl, .nothing rfl⟩
      simp only [serveConnection, serveEstablished, hconn, if_neg hnot]
      exact hrequests

/-- A tick keeps the order, and decrements nothing below 0. -/
theorem tickLoop_spends (sodium : Sodium) (env : Env) (rates : ℕ → CryptoConnection → SendRates)
    (estimates : ℕ → CryptoConnection → RateEstimates) (ids : List ℕ) (h : s.Ordered) :
    (s.tickLoop sodium env rates estimates ids).Ordered ∧ Spends s (s.tickLoop sodium env rates estimates ids) := by
  induction ids generalizing s with
  | nil => exact ⟨h, .nothing rfl⟩
  | cons id rest ih =>
    unfold BudgetState.tickLoop
    split
    · exact ⟨h, .nothing rfl⟩
    · obtain ⟨hserved, hspends⟩ := serve_spends sodium env rates estimates h id
      obtain ⟨hdone, hspends'⟩ := ih hserved
      exact ⟨hdone, hspends.trans hspends'⟩

/-! ## The ticks are those of `send_crypto_packets` -/

/-- A connection is served by its own estimates. -/
theorem serveConnection_congr (sodium : Sodium) (env : Env)
    {estimates estimates' : ℕ → CryptoConnection → RateEstimates} (h : estimates id = estimates' id) (c : NetCrypto) :
    serveConnection sodium env estimates c id = serveConnection sodium env estimates' c id := by
  simp only [serveConnection, serveEstablished, serveFastRequests, h]

/-- Serving a connection is serving it with the budget that is refilled. -/
theorem serve_net (sodium : Sodium) (env : Env) (rates : ℕ → CryptoConnection → SendRates)
    (estimates : ℕ → CryptoConnection → RateEstimates) (s : BudgetState) (id : ℕ) :
    (s.serve sodium env rates estimates id).net =
      serveConnection sodium env (s.withBudget env rates estimates) s.net id := by
  unfold BudgetState.serve
  split
  · rfl
  · split
    · rfl
    · rfl

/-- Serving a connection leaves the refill times of the others. -/
theorem serve_withBudget (sodium : Sodium) (env : Env) (rates : ℕ → CryptoConnection → SendRates)
    (estimates : ℕ → CryptoConnection → RateEstimates) (s : BudgetState) {j : ℕ} (hj : j ≠ id) :
    (s.serve sodium env rates estimates id).withBudget env rates estimates j = s.withBudget env rates estimates j := by
  have hsets : (s.serve sodium env rates estimates id).sets j = s.sets j := by
    unfold BudgetState.serve
    split
    · rfl
    · split
      · exact update_of_ne hj _ _
      · rfl
  funext conn
  simp only [withBudget, refilled, hsets]

/-- The loop of a tick is that of `send_crypto_packets`. -/
theorem tickLoop_net (sodium : Sodium) (env : Env) (rates : ℕ → CryptoConnection → SendRates)
    (estimates budgets : ℕ → CryptoConnection → RateEstimates) {ids : List ℕ} (hnodup : ids.Nodup) (s : BudgetState)
    (h : ∀ id ∈ ids, s.withBudget env rates estimates id = budgets id) :
    (s.tickLoop sodium env rates estimates ids).net = sendCryptoPacketsLoop sodium env budgets ids s.net := by
  induction ids generalizing s with
  | nil => rfl
  | cons id rest ih =>
    obtain ⟨hfresh, hrest⟩ := nodup_cons.mp hnodup
    obtain ⟨hid, hothers⟩ := forall_mem_cons.mp h
    unfold BudgetState.tickLoop sendCryptoPacketsLoop
    cases s.net.getCryptoConnection id with
    | none => rfl
    | some conn =>
      dsimp only
      rw [← serveConnection_congr sodium env hid, ← serve_net]
      refine ih hrest _ fun j hj => ?_
      rw [serve_withBudget sodium env rates estimates s (ne_of_mem_of_not_mem hj hfresh)]
      exact hothers j hj

/-- A tick is one of `send_crypto_packets`, with budgets that are refilled from the rates. -/
theorem tick_net (sodium : Sodium) (env : Env) (rates : ℕ → CryptoConnection → SendRates)
    (estimates : ℕ → CryptoConnection → RateEstimates) (s : BudgetState) :
    (s.step sodium (.tick env rates estimates)).net =
      sendCryptoPackets sodium env (s.withBudget env rates estimates) s.net :=
  tickLoop_net sodium env rates estimates _ nodup_range s fun _ _ => rfl

/-! ## Writing packets -/

/-- The data has the id of a lossless packet. -/
def Lossless (data : Bytes) : Prop := ∃ packetId, data.head? = some packetId ∧ cryptoReservedPackets ≤ packetId ∧
  packetId < packetIdLossyRangeStart

/-- What `write_cryptpacket` takes under congestion control: a lossless packet that the send queue takes, for an
established connection that may send packets. -/
def Taken (sodium : Sodium) (env : Env) (s : BudgetState) (id : ℕ) (data : Bytes) (conn : CryptoConnection) : Prop :=
  s.net.getCryptoConnection id = some conn ∧ conn.status = .established ∧ Lossless data ∧ conn.packetsLeft ≠ 0 ∧
    (sendLosslessPacket sodium env s.net id data true).1.isSome

/-- A step does not write a lossless packet under congestion control for an established connection between its
creation and the first tick that serves it. -/
def Careful (s : BudgetState) : BudgetOp → Prop
  | .write _ id data true =>
    ∀ conn, s.net.getCryptoConnection id = some conn → conn.status = .established → Lossless data → s.served id = true
  | _ => True

/-- What is taken under congestion control is counted in both counters. -/
theorem Taken.write {id : ℕ} {data : Bytes} {conn : CryptoConnection} (htaken : s.Taken sodium env id data conn) :
    ∃ net conn₁, NetCrypto.KeepsCounters s.net net ∧ net.getCryptoConnection id = some conn₁ ∧
      conn₁.counters = conn.counters ∧
      (writeCryptpacket sodium env s.net id data true).2 =
        net.setConnection id (countPacket conn₁) := by
  obtain ⟨hconn, hestablished, ⟨packetId, hhead, hlow, hhigh⟩, hleft, hsome⟩ := htaken
  obtain ⟨packetNum, hnum⟩ := isSome_iff_exists.mp hsome
  have hkept := (sendLosslessPacket_queues sodium env s.net id data true).keepsCounters
  have hwrite := writeCryptpacket.eq_def sodium env s.net id data true
  rw [hhead, hconn] at hwrite
  dsimp only at hwrite
  rw [if_neg (not_or.mpr ⟨UInt8.not_lt.mpr hlow, UInt8.not_le.mpr hhigh⟩), if_neg (not_not.mpr hestablished),
    if_neg (not_and_of_not_right _ hleft)] at hwrite
  cases hsent : sendLosslessPacket sodium env s.net id data true with
  | mk result net =>
    rw [hsent] at hwrite hkept hnum
    obtain rfl : result = some packetNum := hnum
    dsimp only at hwrite
    rw [if_pos rfl] at hwrite
    obtain ⟨conn₁, hconn₁, hsame⟩ := hkept.get hconn
    refine ⟨net, conn₁, hkept, hconn₁, hsame, ?_⟩
    rw [hwrite, modifyConnection_eq (getCryptoConnection_eq_some.mp hconn₁).1]

/-- What is not taken, or not under congestion control, is not counted. -/
theorem write_refused (sodium : Sodium) (env : Env) {data : Bytes} {congestionControl : Bool}
    (hrefused : congestionControl = true → ∀ conn, ¬s.Taken sodium env id data conn) :
    NetCrypto.KeepsCounters s.net (writeCryptpacket sodium env s.net id data congestionControl).2 := by
  have hkept := (sendLosslessPacket_queues sodium env s.net id data congestionControl).keepsCounters
  unfold writeCryptpacket
  split
  · rename_i packetId conn hhead hconn
    split
    · exact .refl s.net
    · rename_i hlossy
      obtain ⟨hlow, hhigh⟩ := not_or.mp hlossy
      split
      · exact .refl s.net
      · rename_i hestablished
        split
        · exact .refl s.net
        · rename_i hleft
          split
          · rename_i c heq
            rwa [heq] at hkept
          · rename_i packetNum c heq
            rw [heq] at hkept
            split
            · rename_i hcontrol
              subst hcontrol
              refine absurd ?_ (hrefused rfl conn)
              exact ⟨hconn, not_not.mp hestablished, ⟨packetId, hhead, UInt8.not_lt.mp hlow, UInt8.not_le.mp hhigh⟩,
                fun hzero => hleft ⟨rfl, hzero⟩, by rw [heq]; rfl⟩
            · exact hkept
  · exact .refl s.net

/-- The counters that are noted for what is taken. -/
theorem Taken.decrements {data : Bytes} (htaken : s.Taken sodium env id data conn) :
    (s.step sodium (.write env id data true)).decrements = s.decrements ++
      [(conn.packetsLeft, conn.packetsLeft - 1), (conn.packetsLeftRequested, conn.packetsLeftRequested - 1)] := by
  obtain ⟨net, conn₁, -, hconn₁, hsame, hwrite⟩ := htaken.write
  have hleft : conn₁.packetsLeft = conn.packetsLeft := congrArg (·.2.1) hsame
  have hrequested : conn₁.packetsLeftRequested = conn.packetsLeftRequested := congrArg (·.2.2) hsame
  obtain ⟨hget, hlive⟩ := getCryptoConnection_eq_some.mp hconn₁
  simp only [BudgetState.step, hwrite, htaken.1]
  have hcounted : (net.setConnection id (countPacket conn₁)).getCryptoConnection id =
      some (countPacket conn₁) :=
    setConnection_get hget hlive
  rw [hcounted]
  simp only [decremented, countPacket, hleft, hrequested]

/-- What is not counted is not decremented. -/
theorem decremented_of_keepsCounters (h : NetCrypto.KeepsCounters c c') (id : ℕ) :
    ∀ d ∈ decremented (c.getCryptoConnection id) (c'.getCryptoConnection id), d.2 ≤ d.1 := by
  cases hconn : c.getCryptoConnection id with
  | none => exact fun d hd => absurd hd not_mem_nil
  | some conn =>
    obtain ⟨conn', hconn', hsame⟩ := h.get hconn
    have hleft : conn'.packetsLeft = conn.packetsLeft := congrArg (·.2.1) hsame
    have hrequested : conn'.packetsLeftRequested = conn.packetsLeftRequested := congrArg (·.2.2) hsame
    rw [hconn']
    exact forall_mem_cons.mpr ⟨UInt32.le_of_eq hleft, forall_mem_singleton.mpr (UInt32.le_of_eq hrequested)⟩

/-! ## Runs -/

/-- A write for a connection that was served keeps the order, and decrements nothing below 0: `packets_left` is not 0,
and `packets_left_requested` not below it. -/
theorem write_spends (sodium : Sodium) (h : s.Ordered) (env : Env) (id : ℕ) (data : Bytes) (congestionControl : Bool)
    (hcareful : s.Careful (.write env id data congestionControl)) :
    (s.step sodium (.write env id data congestionControl)).Ordered ∧
      Spends s (s.step sodium (.write env id data congestionControl)) := by
  by_cases htaken : congestionControl = true ∧ ∃ conn, s.Taken sodium env id data conn
  · obtain ⟨rfl, conn, htaken⟩ := htaken
    obtain ⟨net, conn₁, hkept, hconn₁, hsame, hwrite⟩ := htaken.write
    obtain ⟨hget, hlive⟩ := getCryptoConnection_eq_some.mp hconn₁
    have hdecrements := htaken.decrements
    obtain ⟨hconn, hestablished, hlossless, hleft, -⟩ := htaken
    have hserved : s.served id = true := hcareful conn hconn hestablished hlossless
    have horder := h.order.ofKeepsCounters hkept
    have hinorder : conn₁.InOrder true := hserved ▸ horder id conn₁ hget
    have hleft₁ : conn₁.packetsLeft ≠
      0 := by rwa [show conn₁.packetsLeft = conn.packetsLeft from congrArg (·.2.1) hsame]
    have hcounted := hinorder.countPacket hlive hleft₁
    rw [CryptoConnection.InOrder, if_pos ⟨hlive, rfl⟩] at hinorder
    have hone : 1 ≤ conn.packetsLeft := one_le_iff.mpr hleft
    have hone' : 1 ≤ conn.packetsLeftRequested := by
      rw [← show conn₁.packetsLeftRequested = conn.packetsLeftRequested from congrArg (·.2.2) hsame]
      exact UInt32.le_trans (one_le_iff.mpr hleft₁) hinorder
    refine ⟨⟨?_, fun i hi => ?_⟩, _, hdecrements, ?_⟩
    · simp only [BudgetState.step, hwrite]
      exact horder.setConnection id (by rwa [show _ = s.served id from rfl, hserved])
    · have hkeeps : KeepsLive s.net (net.setConnection id (countPacket conn₁)) :=
        (KeepsLive.of_keepsCounters hkept).setConnection hget hlive
      simp only [BudgetState.step, hwrite]
      exact hkeeps i (h.live i hi)
    · exact forall_mem_cons.mpr ⟨UInt32.sub_le hone, forall_mem_singleton.mpr (UInt32.sub_le hone')⟩
  · have hkept :
      NetCrypto.KeepsCounters s.net (writeCryptpacket sodium env s.net id data congestionControl).2 :=
      write_refused sodium env fun hcontrol conn hconn => htaken ⟨hcontrol, conn, hconn⟩
    exact ⟨h.keep hkept rfl, _, rfl, decremented_of_keepsCounters hkept id⟩

/-- A careful step keeps the order, and decrements nothing below 0. -/
theorem step_spends (sodium : Sodium) (h : s.Ordered) (op : BudgetOp) (hcareful : s.Careful op) :
    (s.step sodium op).Ordered ∧ Spends s (s.step sodium op) := by
  cases op with
  | newConnection env realPublicKey dhtPublicKey =>
    exact ⟨.withNet (h.order.newCryptoConnection h.live sodium env realPublicKey dhtPublicKey), .nothing rfl⟩
  | acceptConnection env nC => exact ⟨.withNet (h.order.acceptCryptoConnection h.live sodium env nC), .nothing rfl⟩
  | kill env id => exact ⟨.withNet (h.order.cryptoKill sodium env id), .nothing rfl⟩
  | handlePacket env id packet udp =>
    exact ⟨.withNet (budgets_keptByCalls.handlePacketConnection budgets_ignoresSessions (w :=
      (⟨s.net, ()⟩ : World Unit))
      h.order id packet udp),
      .nothing rfl⟩
  | tick env rates estimates =>
    exact tickLoop_spends sodium env rates estimates (List.range s.net.cryptoConnections.length) h
  | write env id data congestionControl => exact write_spends sodium h env id data congestionControl hcareful

/-- Every step of a run is careful. -/
def CarefulRun (sodium : Sodium) : BudgetState → List BudgetOp → Prop
  | _, [] => True
  | s, op :: ops => s.Careful op ∧ CarefulRun sodium (s.step sodium op) ops

/-- A careful run keeps the order, and decrements nothing below 0. -/
theorem run_spends (sodium : Sodium) (h : s.Ordered) (ops : List BudgetOp) (hcareful : s.CarefulRun sodium ops) :
    (s.run sodium ops).Ordered ∧ Spends s (s.run sodium ops) := by
  induction ops generalizing s with
  | nil => exact ⟨h, .nothing rfl⟩
  | cons op ops ih =>
    obtain ⟨horder, hspends⟩ := step_spends sodium h op hcareful.1
    obtain ⟨hdone, hspends'⟩ := ih horder hcareful.2
    exact ⟨hdone, hspends.trans hspends'⟩

/-- No counter was decremented below 0. -/
def NeverWrapped (s : BudgetState) : Prop := ∀ d ∈ s.decrements, d.2 ≤ d.1

instance : Decidable s.NeverWrapped := List.decidableBAll (fun d : UInt32 × UInt32 => d.2 ≤ d.1) s.decrements

/-- `write_cryptpacket` refuses under congestion control where `packets_left` is 0. -/
def RefusesSpent (sodium : Sodium) (s : BudgetState) : Prop := ∀ env id data conn,
  s.net.getCryptoConnection id = some conn → conn.packetsLeft = 0 →
    writeCryptpacket sodium env s.net id data true = (none, s.net)

/-- Every state refuses. -/
theorem refusesSpent (sodium : Sodium) (s : BudgetState) : s.RefusesSpent sodium := by
  intro env id data conn hconn hspent
  unfold writeCryptpacket
  split
  · rename_i conn' _ hconn'
    obtain rfl := some_inj.mp (hconn.symm.trans hconn')
    split
    · rfl
    · split
      · rfl
      · rw [if_pos ⟨rfl, hspent⟩]
  · rfl

/-- Nothing was spent at the start. -/
theorem start_ordered (dht : DhtKeys) (selfPublicKey : PublicKey) (selfSecretKey : SecretKey)
    (secretSymmetricKey : SharedKey) :
    (start dht selfPublicKey selfSecretKey secretSymmetricKey).Ordered :=
  ⟨fun _ _ hget => absurd (mem_of_getElem? hget) not_mem_nil, fun _ hserved => absurd hserved Bool.false_ne_true⟩

/-- A run from `new_net_crypto` that writes nothing under congestion control for a connection before the first tick
that serves it never decrements `packets_left` or `packets_left_requested` below 0, and packets under congestion
control are refused wherever `packets_left` is 0. The first packet that is taken for a connection before such a tick
wraps `packets_left_requested`. -/
theorem send_budget_kept (sodium : Sodium) (dht : DhtKeys) (selfPublicKey : PublicKey) (selfSecretKey : SecretKey)
    (secretSymmetricKey : SharedKey) (ops : List BudgetOp)
    (hcareful : (start dht selfPublicKey selfSecretKey secretSymmetricKey).CarefulRun sodium ops) :
    ((start dht selfPublicKey selfSecretKey secretSymmetricKey).run sodium ops).NeverWrapped ∧
      (∀ n, ((start dht selfPublicKey selfSecretKey secretSymmetricKey).run sodium (ops.take n)).RefusesSpent sodium) ∧
      ∀ env id data conn,
        ((start dht selfPublicKey selfSecretKey secretSymmetricKey).run sodium ops).Taken sodium env id data conn →
        ((start dht selfPublicKey selfSecretKey secretSymmetricKey).run sodium ops).served id = false →
        ¬((start dht selfPublicKey selfSecretKey secretSymmetricKey).run sodium (ops ++
          [.write env id data true])).NeverWrapped := by
  obtain ⟨hordered, new, hdecrements, hfits⟩ := run_spends sodium (start_ordered ..) ops hcareful
  refine ⟨?_, fun n => refusesSpent sodium _, fun env id data conn htaken hserved hkept => ?_⟩
  · rw [NeverWrapped, hdecrements]
    exact hfits
  · have hinorder := hordered.order.getCryptoConnection htaken.1
    rw [hserved, CryptoConnection.InOrder, if_neg fun hboth => Bool.false_ne_true hboth.2] at hinorder
    rw [NeverWrapped, run, foldl_append, foldl_cons, foldl_nil] at hkept
    have hwrap : 0 - 1 ≤ (0 : UInt32) := by
      refine hkept (0, 0 - 1) ?_
      rw [← hinorder]
      exact htaken.decrements ▸ mem_append_right _ (mem_cons_of_mem _ mem_cons_self)
    exact absurd hwrap (by decide)

/-- `new_net_crypto` with some keys. -/
def sampleStart : BudgetState :=
  start ⟨List.Vector.replicate 32 1, List.Vector.replicate 32 1, fun _ => .zero⟩ (List.Vector.replicate 32 2)
    (List.Vector.replicate 32 2) (List.Vector.replicate 32 3)

/-- A connection to a peer with the key `k` everywhere is accepted. -/
def accepted (k : UInt8) : BudgetOp :=
  .acceptConnection .calm
    ⟨.zero, List.Vector.replicate 32 k, List.Vector.replicate 32 (k + 1), List.Vector.replicate 24 0,
      List.Vector.replicate 32 6, List.replicate cookieLength 0⟩

/-- A data packet of the peer of connection 0 arrives at a time. -/
def received (now : UInt64) (nonce : UInt8) (data : Bytes) : BudgetOp :=
  .handlePacket { Env.calm with monotonicTime := now } 0
    ([netPacketCryptoData, 0, nonce] ++ List.replicate 8 0 ++ data ++ List.replicate macBytes 0) true

/-- A packet is written under congestion control for connection 0 at a time. -/
def written (now : UInt64) (data : UInt8) : BudgetOp := .write { Env.calm with monotonicTime := now } 0 [64, data] true

/-- A tick at a time, with one packet more every 100 ms. -/
def ticked (now : UInt64) : BudgetOp :=
  .tick { Env.calm with monotonicTime := now } (fun _ _ => ⟨100, 1, 100, 1⟩) fun _ _ => ⟨none, false, 0, 0⟩

/-- A connection is accepted, the first data packet of the peer establishes it, and a tick serves it. Two packets are
written, the peer asks for the first again, the next tick sends it again, and a third is written. The connection is
killed, and another takes its slot, which is served before a packet is written. -/
def writesAfterTicks : List BudgetOp :=
  [accepted 4, received 0 0 [cryptoReservedPackets], ticked 1000, written 1000 1, written 1000 2,
    received 3000 1 [packetIdRequest, 1],
    ticked 3000, written 3000 3, .kill .calm 0, accepted 7, received 3000 0 [cryptoReservedPackets], ticked 3000,
      written 3000 4]

/-- All that was decremented is noted, also for what was sent again, and nothing wrapped. -/
theorem send_budget_kept_served :
    (sampleStart.run .plain writesAfterTicks).decrements =
        [(64, 64), (64, 64), (64, 63), (64, 63), (63, 62), (63, 62), (63, 62), (63, 62), (62, 61), (62, 61),
          (64, 64), (64, 64), (64, 63), (64, 63)] ∧
      (sampleStart.run .plain writesAfterTicks).NeverWrapped := by
  refine ⟨by decide +kernel, (send_budget_kept .plain _ _ _ _ writesAfterTicks ?_).1⟩
  refine ⟨trivial, trivial, trivial, ?_, ?_, trivial, trivial, ?_, trivial, trivial, trivial, trivial, ?_, trivial⟩
  all_goals exact fun _ _ _ _ => by decide +kernel

/-- A connection is accepted, the first data packet of the peer establishes it, and before the first tick a packet is
written under congestion control. -/
def writeBeforeTick : List BudgetOp := [accepted 4, received 0 0 [cryptoReservedPackets], written 0 1]

/-- The packet is taken, and `packets_left_requested` wraps. -/
theorem written_before_tick_wraps :
    (sampleStart.run .plain writeBeforeTick).decrements = [(64, 63), (0, 0 - 1)] ∧
      (sampleStart.run .plain writeBeforeTick).net.cryptoConnections.map CryptoConnection.counters =
        [(.established, 63, 0 - 1)] ∧
      ¬(sampleStart.run .plain writeBeforeTick).NeverWrapped := by
  decide +kernel

end BudgetState

end Toxcore
