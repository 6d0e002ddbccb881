import Toxcore.NetCrypto.Lossless
import Toxcore.NetCrypto.Routing

/-!
# What the main loop does for each connection

`kill_timedout` and `send_crypto_packets` walk the table from its start. Killed connections leave free slots
behind wherever a later connection is still in use, and both loops give up at the first free slot: they treat
it like the end of the table. So a tick serves exactly the connections in front of the first free slot.

What `send_crypto_packets` computes in floating point is a parameter of the model, `RateEstimates`.
-/

namespace Toxcore

open ByteStrings List Option

/-- What the rate estimates of `send_crypto_packets` come to for a connection: the interval between request packets,
where the receive rate is high enough to have one, whether the counters are due, and the packets left to send. -/
structure RateEstimates where
  requestPacketInterval : Option UInt64
  countersDue : Bool
  packetsLeft : UInt32
  packetsLeftRequested : UInt32

/-- The connection has not been confirmed and was tried `MAX_NUM_SENDPACKET_TRIES` times. -/
def CryptoConnection.TimedOut (conn : CryptoConnection) : Prop :=
  (conn.status = .cookieRequesting ∨ conn.status = .handshakeSent ∨ conn.status = .notConfirmed) ∧
    maxNumSendpacketTries ≤ conn.tempPacketNumSent

instance (conn : CryptoConnection) : Decidable conn.TimedOut := inferInstanceAs (Decidable (_ ∧ _))

/-- The last attempt to send the temporary packet is older than `CRYPTO_SEND_PACKET_INTERVAL`. -/
def CryptoConnection.Overdue (env : Env) (conn : CryptoConnection) : Prop :=
  conn.tempPacketSentTime.toNat + cryptoSendPacketInterval.toNat < env.monotonicTime.toNat

namespace NetCrypto

section Loops

variable {α : Type} (sodium : Sodium) (callbacks : Callbacks α) (env : Env)
  (rates : ℕ → CryptoConnection → RateEstimates)

/-- The loop of `kill_timedout` over the remaining slots. -/
def killTimedoutLoop : List ℕ → World α → World α
  | [], w => w
  | i :: rest, w =>
    match w.net.getCryptoConnection i with
    | none => w
    | some conn =>
      if conn.TimedOut then killTimedoutLoop rest (connectionKill sodium callbacks env w i)
      else killTimedoutLoop rest w

/-- `kill_timedout`. The table does not grow in the loop, and a slot past its end looks like a free one. -/
def killTimedout (w : World α) : World α :=
  killTimedoutLoop sodium callbacks env (List.range w.net.cryptoConnections.length) w

/-- Send the temporary packet where it is due. -/
def serveTempPacket (c : NetCrypto) (id : ℕ) : NetCrypto :=
  match c.getCryptoConnection id with
  | none => c
  | some conn =>
    if cryptoSendPacketInterval + conn.tempPacketSentTime < env.monotonicTime then (sendTempPacket env c id).2 else c

/-- Send a request packet and note the time. -/
def sendRequestNow (c : NetCrypto) (id : ℕ) : NetCrypto :=
  match sendRequestPacket sodium env c id with
  | (false, c) => c
  | (true, c) => c.modifyConnection id fun conn => { conn with lastRequestPacketSent := env.monotonicTime }

/-- Send a request packet where the regular interval has passed. -/
def serveRequests (c : NetCrypto) (id : ℕ) : NetCrypto :=
  match c.getCryptoConnection id with
  | none => c
  | some conn =>
    if (conn.status = .notConfirmed ∨ conn.status = .established) ∧
        cryptoSendPacketInterval + conn.lastRequestPacketSent < env.monotonicTime then
      sendRequestNow sodium env c id
    else c

/-- Send a request packet where the interval for the receive rate has passed. -/
def serveFastRequests (c : NetCrypto) (id : ℕ) (conn : CryptoConnection) : NetCrypto :=
  match (rates id conn).requestPacketInterval with
  | none => c
  | some interval =>
    if env.monotonicTime - conn.lastRequestPacketSent > interval then sendRequestNow sodium env c id else c

/-- The counters that the rate estimates write. -/
def takeEstimates (estimates : RateEstimates) (conn : CryptoConnection) : CryptoConnection :=
  { conn with
    packetCounter := if estimates.countersDue then 0 else conn.packetCounter
    packetsSent := if estimates.countersDue then 0 else conn.packetsSent
    packetsResent := if estimates.countersDue then 0 else conn.packetsResent
    packetsLeft := estimates.packetsLeft
    packetsLeftRequested := estimates.packetsLeftRequested }

/-- The counters after packets were sent again. -/
def spendPackets (count : UInt32) (conn : CryptoConnection) : CryptoConnection :=
  { conn with
    packetsLeftRequested := conn.packetsLeftRequested - count
    packetsResent := conn.packetsResent + count
    packetsLeft := if count < conn.packetsLeft then conn.packetsLeft - count else 0 }

/-- Send the packets again that were requested. -/
def serveRequested (c : NetCrypto) (id : ℕ) : NetCrypto :=
  match c.getCryptoConnection id with
  | none => c
  | some conn =>
    match sendRequestedPackets sodium env c id conn.packetsLeftRequested with
    | (none, c) => c
    | (some count, c) => c.modifyConnection id (spendPackets count)

/-- The part of `send_crypto_packets` for established connections. -/
def serveEstablished (c : NetCrypto) (id : ℕ) : NetCrypto :=
  match c.getCryptoConnection id with
  | none => c
  | some conn =>
    if conn.status = .established then
      serveRequested sodium env ((serveFastRequests sodium env rates c id conn).modifyConnection id
        (takeEstimates (rates id conn))) id
    else c

/-- What `send_crypto_packets` does for one connection. -/
def serveConnection (c : NetCrypto) (id : ℕ) : NetCrypto :=
  serveEstablished sodium env rates (serveRequests sodium env (serveTempPacket env c id) id) id

/-- The loop of `send_crypto_packets` over the remaining slots. -/
def sendCryptoPacketsLoop : List ℕ → NetCrypto → NetCrypto
  | [], c => c
  | i :: rest, c =>
    match c.getCryptoConnection i with
    | none => c
    | some _ => sendCryptoPacketsLoop rest (serveConnection sodium env rates c i)

/-- `send_crypto_packets`. -/
def sendCryptoPackets (c : NetCrypto) : NetCrypto :=
  sendCryptoPacketsLoop sodium env rates (List.range c.cryptoConnections.length) c

end Loops

/-! ## One connection -/

variable (sodium : Sodium) (env : Env) (rates : ℕ → CryptoConnection → RateEstimates)

/-- A request packet is sent. -/
theorem sendRequestNow_actsOn (c : NetCrypto) (id : ℕ) : ActsOn id c (sendRequestNow sodium env c id) := by
  have hsend := sendRequestPacket_actsOn sodium env c id
  unfold sendRequestNow
  split
  · rename_i c₁ heq
    rwa [heq] at hsend
  · rename_i c₁ heq
    rw [heq] at hsend
    exact hsend.modifyConnection _ fun _ => rfl

/-- The requests of a connection are served. -/
theorem serveRequests_actsOn (c : NetCrypto) (id : ℕ) : ActsOn id c (serveRequests sodium env c id) := by
  unfold serveRequests
  split
  · exact .refl id c
  · split
    · exact sendRequestNow_actsOn sodium env c id
    · exact .refl id c

/-- An established connection is served. -/
theorem serveEstablished_actsOn (c : NetCrypto) (id : ℕ) : ActsOn id c (serveEstablished sodium env rates c id) := by
  unfold serveEstablished
  split
  · exact .refl id c
  · rename_i conn _
    split
    · have hfast : ActsOn id c (serveFastRequests sodium env rates c id conn) := by
        unfold serveFastRequests
        split
        · exact .refl id c
        · split
          · exact sendRequestNow_actsOn sodium env c id
          · exact .refl id c
      refine (hfast.modifyConnection (takeEstimates (rates id conn)) fun _ => rfl).trans ?_
      unfold serveRequested
      split
      · exact .refl id _
      · rename_i conn' _
        have hsend := sendRequestedPackets_actsOn sodium env
          ((serveFastRequests sodium env rates c id conn).modifyConnection id (takeEstimates (rates id conn))) id
          conn'.packetsLeftRequested
        split
        · rename_i c₁ heq
          rwa [heq] at hsend
        · rename_i count c₁ heq
          rw [heq] at hsend
          exact hsend.modifyConnection _ fun _ => rfl
    · exact .refl id c

/-- A cookie request or handshake is sent again. -/
theorem serveTempPacket_actsOn (c : NetCrypto) (id : ℕ) : ActsOn id c (serveTempPacket env c id) := by
  unfold serveTempPacket
  split
  · exact .refl id c
  · split
    · exact sendTempPacket_actsOn env c id
    · exact .refl id c

/-- A connection is served. -/
theorem serveConnection_actsOn (c : NetCrypto) (id : ℕ) : ActsOn id c (serveConnection sodium env rates c id) :=
  ((serveTempPacket_actsOn env c id).trans (serveRequests_actsOn sodium env _ id)).trans
    (serveEstablished_actsOn sodium env rates _ id)

variable {sodium env rates}

variable {conn : CryptoConnection} {c : NetCrypto}

/-- The test of `send_crypto_packets` for the temporary packet holds where the packet is overdue. -/
theorem overdue_due (h : conn.Overdue env) :
    cryptoSendPacketInterval + conn.tempPacketSentTime < env.monotonicTime := by
  have hinterval : cryptoSendPacketInterval.toNat = 1000 := rfl
  have hnow := env.monotonicTime.toNat_lt
  rw [CryptoConnection.Overdue, hinterval] at h
  rw [UInt64.lt_iff_toNat_lt, UInt64.toNat_add, hinterval]
  omega

/-- Serving a connection hands over its temporary packet where that is overdue. -/
theorem serveConnection_sent (sodium : Sodium) (rates : ℕ → CryptoConnection → RateEstimates) {id : ℕ}
    {packet : Bytes} (hconn : c.getCryptoConnection id = some conn) (hpacket : conn.tempPacket = some packet)
    (hoverdue : conn.Overdue env) :
    ∃ packets, (serveConnection sodium env rates c id).sent = c.sent ++ (id, packet) :: packets := by
  have htemp : (serveTempPacket env c id).sent = c.sent ++ [(id, packet)] := by
    simp only [serveTempPacket, hconn, if_pos (overdue_due hoverdue)]
    exact sendTempPacket_sent env hconn hpacket
  have hrest := (serveRequests_actsOn sodium env (serveTempPacket env c id) id).trans
    (serveEstablished_actsOn sodium env rates _ id)
  obtain ⟨packets, hsent, -⟩ := hrest.sent
  refine ⟨packets, ?_⟩
  rw [serveConnection, hsent, htemp, append_assoc, singleton_append]

/-! ## The whole table -/

/-- No slot from one to another is free. -/
def NoHole (c : NetCrypto) (start i : ℕ) : Prop := ∀ k, start ≤ k → k ≤ i → c.getCryptoConnection k ≠ none

/-- There is no hole behind the first place. -/
theorem NoHole.tail {c c' : NetCrypto} {start i : ℕ} (h : c.NoHole start i)
    (hothers : ∀ j, j ≠ start → c'.getCryptoConnection j = c.getCryptoConnection j) : c'.NoHole (start + 1) i := by
  intro k hk hki
  rw [hothers k (by omega)]
  exact h k (by omega) hki

/-- Nor with the first place. -/
theorem NoHole.cons {c' : NetCrypto} {start i : ℕ} (h : c'.NoHole (start + 1) i)
    (hothers : ∀ j, j ≠ start → c'.getCryptoConnection j = c.getCryptoConnection j)
    (hstart : c.getCryptoConnection start ≠ none) : c.NoHole start i := by
  intro k hk hki
  by_cases heq : k = start
  · rwa [heq]
  · rw [← hothers k heq]
    exact h k (by omega) hki

/-- The loop of `send_crypto_packets` sends for connections without a free slot in front of them only, and hands over
the overdue temporary packets of all of those. -/
theorem sendCryptoPacketsLoop_sent (sodium : Sodium) (env : Env) (rates : ℕ → CryptoConnection → RateEstimates)
    (c : NetCrypto) (start count : ℕ) :
    ∃ packets, (sendCryptoPacketsLoop sodium env rates (List.range' start count) c).sent = c.sent ++ packets ∧
      (∀ entry ∈ packets, start ≤ entry.1 ∧ c.NoHole start entry.1) ∧
      ∀ i conn packet, start ≤ i → i < start + count → c.NoHole start i → c.getCryptoConnection i = some conn →
        conn.tempPacket = some packet → conn.Overdue env → (i, packet) ∈ packets := by
  induction count generalizing start c with
  | zero => exact ⟨[], by simp [sendCryptoPacketsLoop], nofun, fun i _ _ hi hlt => by omega⟩
  | succ count ih =>
    rw [range'_succ]
    unfold sendCryptoPacketsLoop
    split
    · rename_i hfree
      exact ⟨[], by simp, nofun, fun i _ _ hi _ hholes => absurd hfree (hholes start (le_refl _) hi)⟩
    · rename_i conn₀ hconn₀
      have hstart : c.getCryptoConnection start ≠ none := by rw [hconn₀]; nofun
      have hacts := serveConnection_actsOn sodium env rates c start
      obtain ⟨first, hfirst, hown⟩ := hacts.sent
      obtain ⟨rest, hrest, hreached, hserved⟩ := ih (serveConnection sodium env rates c start) (start + 1)
      refine ⟨first ++ rest, by rw [hrest, hfirst, append_assoc], ?_, ?_⟩
      · intro entry hmem
        rcases mem_append.mp hmem with hmem | hmem
        · rw [hown entry hmem]
          refine ⟨le_refl _, fun k hk hki => ?_⟩
          rwa [Nat.le_antisymm hki hk]
        · obtain ⟨hle, hholes⟩ := hreached entry hmem
          exact ⟨by omega, hholes.cons hacts.others hstart⟩
      · intro i conn packet hi hlt hholes hconn hpacket hoverdue
        by_cases heq : i = start
        · subst heq
          obtain ⟨packets, hsent⟩ := serveConnection_sent sodium rates hconn hpacket hoverdue
          rw [hfirst] at hsent
          rw [append_cancel_left hsent]
          simp
        · apply mem_append_right
          apply hserved i conn packet (by omega) (by omega) (hholes.tail hacts.others) _ hpacket hoverdue
          rw [hacts.others i heq, hconn]

/-- Dead slots at the end of the table do not matter. -/
theorem getCryptoConnection_append (c : NetCrypto) {front back : List CryptoConnection}
    (hback : ∀ conn ∈ back, conn.status = .noConnection) (j : ℕ) :
    NetCrypto.getCryptoConnection { c with cryptoConnections := front ++ back } j =
      NetCrypto.getCryptoConnection { c with cryptoConnections := front } j := by
  unfold getCryptoConnection
  dsimp only
  by_cases hlt : j < front.length
  · rw [getElem?_append_left hlt]
  · have hle : front.length ≤ j := by omega
    rw [getElem?_append_right hle, getElem?_eq_none hle]
    cases hconn : back[j - front.length]? with
    | none => rfl
    | some conn => exact if_pos (hback conn (mem_of_getElem? hconn))

/-- A wiped connection is gone, the others stay. -/
theorem wipeCryptoConnection_get (c : NetCrypto) (id : ℕ) :
    (wipeCryptoConnection c id).getCryptoConnection id = none ∧
      ∀ j, j ≠ id → (wipeCryptoConnection c id).getCryptoConnection j = c.getCryptoConnection j := by
  let free : CryptoConnection → Bool := fun conn => conn.status = .noConnection
  have hwipe (j : ℕ) : (wipeCryptoConnection c id).getCryptoConnection j =
      (c.setConnection id .zero).getCryptoConnection j := by
    have hback (conn : CryptoConnection) (hconn : conn ∈ (c.cryptoConnections.set id .zero).rtakeWhile free) :
        conn.status = .noConnection := by
      have hfree : free conn = true := mem_rtakeWhile_imp hconn
      exact of_decide_eq_true hfree
    rw [wipeCryptoConnection, ← getCryptoConnection_append c hback, rdropWhile_append_rtakeWhile]
    rfl
  constructor
  · rw [hwipe, getCryptoConnection]
    split
    · rfl
    · rename_i conn hconn
      rcases getElem?_set_cases hconn with ⟨-, rfl⟩ | ⟨hne, -⟩
      · rfl
      · exact absurd rfl hne
  · intro j hj
    rw [hwipe, getCryptoConnection_setConnection_ne c hj]

/-- Killing a connection frees its slot and leaves the others alone. -/
theorem cryptoKill_get {id : ℕ} (hconn : c.getCryptoConnection id = some conn) :
    (cryptoKill sodium env c id).2.getCryptoConnection id = none ∧
      ∀ j, j ≠ id → (cryptoKill sodium env c id).2.getCryptoConnection j = c.getCryptoConnection j := by
  have hsend : ActsOn id c (if conn.status = .established then (sendKillPacket sodium env c id).2 else c) := by
    split
    · simp only [sendKillPacket, hconn]
      exact sendDataPacketHelper_actsOn sodium env c id _ _ _
    · exact .refl id c
  simp only [cryptoKill, hconn]
  obtain ⟨hfree, hothers⟩ := wipeCryptoConnection_get { (if conn.status = .established then
    (sendKillPacket sodium env c id).2 else c) with ipPortList := _ } id
  exact ⟨hfree, fun j hj => (hothers j hj).trans (hsend.others j hj)⟩

/-- The loop of `kill_timedout` over `count` slots reaches a connection that timed out. -/
structure KilledAt (c : NetCrypto) (start count j : ℕ) : Prop where
  timedOut : ∃ conn, c.getCryptoConnection j = some conn ∧ conn.TimedOut
  le : start ≤ j
  lt : j < start + count
  noHole : c.NoHole start j

/-- What the rest of the loop reaches behind the first slot. -/
theorem KilledAt.succ {c' : NetCrypto} {start count j : ℕ}
    (hothers : ∀ j, j ≠ start → c'.getCryptoConnection j = c.getCryptoConnection j)
    (hconn : c.getCryptoConnection start = some conn) (hj : j ≠ start) :
    c.KilledAt start (count + 1) j ↔ c'.KilledAt (start + 1) count j := by
  constructor
  · rintro ⟨htimeout, hle, hlt, hholes⟩
    exact ⟨by rwa [hothers j hj], by omega, by omega, hholes.tail hothers⟩
  · rintro ⟨htimeout, hle, hlt, hholes⟩
    exact ⟨by rwa [hothers j hj] at htimeout, by omega, by omega, hholes.cons hothers (by rw [hconn]; nofun)⟩

section Kill

variable {α : Type} {callbacks : Callbacks α} (hstatus : ∀ w id, (callbacks.connectionStatus w id false).net = w.net)

include hstatus

/-- A killed connection is gone, the others stay. -/
theorem connectionKill_get (sodium : Sodium) (env : Env) {w : World α} {id : ℕ}
    (hconn : w.net.getCryptoConnection id = some conn) :
    (connectionKill sodium callbacks env w id).net.getCryptoConnection id = none ∧
      ∀ j, j ≠ id → (connectionKill sodium callbacks env w id).net.getCryptoConnection j =
        w.net.getCryptoConnection j := by
  simp only [connectionKill, hconn, hstatus]
  exact cryptoKill_get hconn

/-- The loop of `kill_timedout` frees the slots it reaches whose connections timed out, and leaves the others alone. -/
theorem killTimedoutLoop_get (sodium : Sodium) (env : Env) (w : World α) (start count j : ℕ) :
    (w.net.KilledAt start count j →
      (killTimedoutLoop sodium callbacks env (List.range' start count) w).net.getCryptoConnection j = none) ∧
    (¬w.net.KilledAt start count j →
      (killTimedoutLoop sodium callbacks env (List.range' start count) w).net.getCryptoConnection j =
        w.net.getCryptoConnection j) := by
  induction count generalizing start w with
  | zero => exact ⟨fun h => absurd h.lt (by have := h.le; omega), fun _ => rfl⟩
  | succ count ih =>
    rw [range'_succ]
    unfold killTimedoutLoop
    split
    · rename_i hfree
      exact ⟨fun h => absurd hfree (h.noHole start (le_refl _) h.le), fun _ => rfl⟩
    · rename_i conn hconn
      have hbehind (c : NetCrypto) : ¬c.KilledAt (start + 1) count start := fun h => absurd h.le (by omega)
      split
      · rename_i htimeout
        obtain ⟨hfree, hothers⟩ := connectionKill_get hstatus sodium env hconn
        by_cases hj : j = start
        · subst hj
          have hgone := (ih (connectionKill sodium callbacks env w j) (j + 1)).2 (hbehind _)
          refine ⟨fun _ => hgone.trans hfree, fun hnot => absurd ?_ hnot⟩
          refine ⟨⟨conn, hconn, htimeout⟩, le_refl _, by omega, fun k hk hkj => ?_⟩
          rw [Nat.le_antisymm hkj hk, hconn]
          nofun
        · obtain ⟨hkilled, hkept⟩ := ih (connectionKill sodium callbacks env w start) (start + 1)
          rw [← KilledAt.succ hothers hconn hj] at hkilled hkept
          rw [hothers j hj] at hkept
          exact ⟨hkilled, hkept⟩
      · rename_i htimeout
        by_cases hj : j = start
        · subst hj
          refine ⟨fun h => ?_, fun _ => (ih w (j + 1)).2 (hbehind _)⟩
          obtain ⟨conn', hconn', htimeout'⟩ := h.timedOut
          obtain rfl : conn = conn' := some_inj.mp (hconn.symm.trans hconn')
          exact absurd htimeout' htimeout
        · obtain ⟨hkilled, hkept⟩ := ih w (start + 1)
          rw [← KilledAt.succ (fun _ _ => rfl) hconn hj] at hkilled hkept
          exact ⟨hkilled, hkept⟩

end Kill

end NetCrypto

/-! ## Ticks -/

open NetCrypto in
/-- For every table: no connection that timed out is left after `kill_timedout` exactly if none has a free slot in
front of it, and `send_crypto_packets` hands over every overdue temporary packet exactly if no connection with such a
packet has a free slot in front of it. -/
theorem tick_serves_iff {α : Type} (sodium : Sodium) (callbacks : Callbacks α)
    (hstatus : ∀ w id, (callbacks.connectionStatus w id false).net = w.net) (env : Env)
    (rates : ℕ → CryptoConnection → RateEstimates) (w : World α) :
    ((∀ i conn, (killTimedout sodium callbacks env w).net.getCryptoConnection i = some conn → ¬conn.TimedOut) ↔
      ∀ i conn, w.net.getCryptoConnection i = some conn → conn.TimedOut →
        ∀ j, j < i → w.net.getCryptoConnection j ≠ none) ∧
    ((∀ i conn packet, w.net.getCryptoConnection i = some conn → conn.tempPacket = some packet → conn.Overdue env →
        (i, packet) ∈ (sendCryptoPackets sodium env rates w.net).sent.drop w.net.sent.length) ↔
      ∀ i conn, w.net.getCryptoConnection i = some conn → conn.tempPacket ≠ none → conn.Overdue env →
        ∀ j, j < i → w.net.getCryptoConnection j ≠ none) := by
  have hbound (i : ℕ) (conn : CryptoConnection) (hconn : w.net.getCryptoConnection i = some conn) :
      i < 0 + w.net.cryptoConnections.length := by
    have := (List.getElem?_eq_some_iff.mp (getCryptoConnection_eq_some.mp hconn).1).1
    omega
  have hholes (i : ℕ) (conn : CryptoConnection) (hconn : w.net.getCryptoConnection i = some conn) :
      w.net.NoHole 0 i ↔ ∀ j, j < i → w.net.getCryptoConnection j ≠ none := by
    refine ⟨fun h j hj => h j (Nat.zero_le j) (by omega), fun h k _ hki => ?_⟩
    rcases Nat.lt_or_eq_of_le hki with hlt | rfl
    · exact h k hlt
    · rw [hconn]
      nofun
  constructor
  · have hkill (i : ℕ) := killTimedoutLoop_get hstatus sodium env w 0 w.net.cryptoConnections.length i
    rw [← range_eq_range'] at hkill
    constructor
    · intro hserved i conn hconn htimeout
      rw [← hholes i conn hconn]
      by_contra hhole
      have hkept := (hkill i).2 fun h => hhole h.noHole
      rw [hconn] at hkept
      exact hserved i conn hkept htimeout
    · intro hfront i conn hconn htimeout
      by_cases hkilled : w.net.KilledAt 0 w.net.cryptoConnections.length i
      · rw [killTimedout, (hkill i).1 hkilled] at hconn
        contradiction
      · rw [killTimedout, (hkill i).2 hkilled] at hconn
        apply hkilled
        exact ⟨⟨conn, hconn, htimeout⟩, Nat.zero_le i, hbound i conn hconn,
          (hholes i conn hconn).mpr (hfront i conn hconn htimeout)⟩
  · obtain ⟨packets, hsent, hreached, hserved⟩ := sendCryptoPacketsLoop_sent sodium env rates w.net 0
      w.net.cryptoConnections.length
    rw [← range_eq_range'] at hsent
    rw [sendCryptoPackets, hsent, drop_left]
    constructor
    · intro hall i conn hconn htemp hoverdue
      obtain ⟨packet, hpacket⟩ := ne_none_iff_exists'.mp htemp
      rw [← hholes i conn hconn]
      exact (hreached _ (hall i conn packet hconn hpacket hoverdue)).2
    · intro hfront i conn packet hconn hpacket hoverdue
      have htemp : conn.tempPacket ≠ none := by rw [hpacket]; nofun
      exact hserved i conn packet (Nat.zero_le i) (hbound i conn hconn)
        ((hholes i conn hconn).mpr (hfront i conn hconn htemp hoverdue)) hconn hpacket hoverdue

/-- A fresh node. -/
def freshNode : World Unit :=
  let key : PublicKey := List.Vector.replicate 32 1
  ⟨.new ⟨key, key, fun _ => .zero⟩ key key key, ()⟩

/-- The node connects to one peer. -/
def oneConnection : World Unit :=
  (Operation.newCryptoConnection .calm (List.Vector.replicate 32 2) (List.Vector.replicate 32 4)).exec .plain .unset
    freshNode

/-- The node connects to two peers. -/
def twoConnections : World Unit :=
  (Operation.newCryptoConnection .calm (List.Vector.replicate 32 3) (List.Vector.replicate 32 5)).exec .plain .unset
    oneConnection

/-- The node after its connection to the first peer was killed. -/
def secondConnection : World Unit := (Operation.cryptoKill .calm 0).exec .plain .unset twoConnections

/-- Surroundings five seconds later. -/
def Env.fiveSeconds : Env := { Env.calm with monotonicTime := 5000 }

/-- Estimates under which no packets are left to send. -/
def RateEstimates.idle : ℕ → CryptoConnection → RateEstimates := fun _ _ => ⟨none, false, 0, 0⟩

/-- With two connections and no free slot a tick hands over both temporary packets. -/
theorem tick_serves_iff_twoConnections : twoConnections.net.cryptoConnections.length = 2 ∧
    ∀ i conn packet, twoConnections.net.getCryptoConnection i = some conn → conn.tempPacket = some packet →
      conn.Overdue .fiveSeconds →
      (i, packet) ∈ (NetCrypto.sendCryptoPackets .plain .fiveSeconds RateEstimates.idle twoConnections.net).sent.drop
        twoConnections.net.sent.length := by
  have hlive : (List.range 2).all fun j => (twoConnections.net.getCryptoConnection j).isSome := by decide +kernel
  have hlength : twoConnections.net.cryptoConnections.length = 2 := by decide +kernel
  refine ⟨hlength, ?_⟩
  apply (tick_serves_iff .plain Callbacks.unset (fun _ _ => rfl) .fiveSeconds RateEstimates.idle twoConnections).2.mpr
  intro i conn hconn _ _ j hj
  have hi := (List.getElem?_eq_some_iff.mp (NetCrypto.getCryptoConnection_eq_some.mp hconn).1).1
  exact isSome_iff_ne_none.mp (List.all_eq_true.mp hlive j (mem_range.mpr (by omega)))

/-- Once the first of two connections was killed, a tick does not hand over the packet of the second. -/
theorem tick_misses_secondConnection :
    WorldReaches .plain freshNode secondConnection ∧
    ¬∀ i conn packet, secondConnection.net.getCryptoConnection i = some conn → conn.tempPacket = some packet →
      conn.Overdue .fiveSeconds →
      (i, packet) ∈ (NetCrypto.sendCryptoPackets .plain .fiveSeconds RateEstimates.idle secondConnection.net).sent.drop
        secondConnection.net.sent.length := by
  have hunset (u v : World Unit) : Callbacks.unset.Calls u v → v = u := Callbacks.unset_calls
  refine ⟨?_, fun hserved => ?_⟩
  · exact (((Reentrant.Reaches.refl freshNode).step_quiet _ _ hunset trivial).step_quiet _ _ hunset trivial).step_quiet
      _ _ hunset trivial
  · have hfirst : secondConnection.net.getCryptoConnection 0 = none := by
      rw [← isNone_iff_eq_none]
      decide +kernel
    have hsecond : ((secondConnection.net.getCryptoConnection 1).map fun conn =>
        (conn.tempPacket.isSome, conn.tempPacketSentTime)) = some (true, 0) := by
      decide +kernel
    have hsent : (NetCrypto.sendCryptoPackets .plain .fiveSeconds RateEstimates.idle secondConnection.net).sent =
        secondConnection.net.sent := by
      have hlength : secondConnection.net.cryptoConnections.length = 2 := by decide +kernel
      rw [NetCrypto.sendCryptoPackets, hlength, range_succ_eq_map, NetCrypto.sendCryptoPacketsLoop, hfirst]
    obtain ⟨conn, hconn, htemp⟩ := map_eq_some_iff.mp hsecond
    obtain ⟨hpacket, htime⟩ := Prod.mk.inj htemp
    obtain ⟨packet, hpacket⟩ := isSome_iff_exists.mp hpacket
    have hoverdue : conn.Overdue .fiveSeconds := by
      rw [CryptoConnection.Overdue, htime]
      decide
    have hmem := hserved 1 conn packet hconn hpacket hoverdue
    rw [hsent, drop_length] at hmem
    exact absurd hmem not_mem_nil

end Toxcore
