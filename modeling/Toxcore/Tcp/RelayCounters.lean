import Toxcore.Tcp.ConnectionTableRuns

/-!
# Counters of a relay

A relay counts the connections that are online through it, and those of them that sleep, so that it can itself be put
to sleep or killed. What is counted is in the other table, and every operation that writes one has to write the other.
-/

namespace Toxcore

open ByteStrings TableView Function List Option

namespace TcpConnectionTo

variable {conTo conTo' : TcpConnectionTo} {k l : ℕ} {asleep : Bool}

/-- A connection in use is online through a relay. -/
def onlineOn (conTo : TcpConnectionTo) (k : ℕ) : Bool :=
  conTo.status ≠ .none ∧ ∃ i, (conTo.connections i).tcpConnection = some k ∧ (conTo.connections i).status = .online

/-- What a counter of a relay counts: connections that are online, and asleep where that is asked for. -/
def counts (k : ℕ) (asleep : Bool) (conTo : TcpConnectionTo) : Bool :=
  conTo.onlineOn k ∧ (asleep = true → conTo.status = .sleeping)

/-- The slot of a relay, with what is in it. -/
def relaySlot (conTo : TcpConnectionTo) (k : ℕ) : Option RelaySlot := (conTo.slotOf k).map conTo.connections

variable {i : Fin maxFriendTcpConnections} {connection : TcpClientConnection}

/-- The slot of a relay says whether a connection is online. -/
theorem onlineOn_at (honce : conTo.Once) (hlive : conTo.status ≠ .none)
    (hi : (conTo.connections i).tcpConnection = some k) :
    conTo.onlineOn k = decide ((conTo.connections i).status = .online) := by
  apply decide_eq_decide.mpr
  constructor
  · rintro ⟨-, j, hj, honline⟩
    rw [honce i j k hi hj]
    exact honline
  · intro honline
    exact ⟨hlive, i, hi, honline⟩

/-- A connection without the relay is not online. -/
theorem onlineOn_none (hnone : ∀ i, (conTo.connections i).tcpConnection ≠ some k) : conTo.onlineOn k = false := by
  apply decide_eq_false
  rintro ⟨-, i, hi, -⟩
  exact hnone i hi

/-- A connection is online on a relay where its slot says so. -/
theorem onlineOn_eq (honce : conTo.Once) (hlive : conTo.status ≠ .none) (k : ℕ) :
    conTo.onlineOn k = decide ((conTo.relaySlot k).map RelaySlot.status = some .online) := by
  rw [relaySlot]
  cases hslot : conTo.slotOf k with
  | none => exact onlineOn_none (slotOf_none hslot)
  | some i =>
    rw [onlineOn_at honce hlive (slotOf_some hslot), map_some, map_some]
    exact decide_eq_decide.mpr (some_inj).symm

/-- Another slot is written. -/
theorem onlineOn_setSlot {slot : RelaySlot} (hbefore : (conTo.connections i).tcpConnection ≠ some k)
    (hafter : slot.tcpConnection ≠ some k) : (conTo.setSlot i slot).onlineOn k = conTo.onlineOn k := by
  apply decide_eq_decide.mpr
  apply and_congr_right
  intro _
  apply exists_congr
  intro j
  by_cases hij : j = i
  · subst hij
    rw [setSlot_self]
    exact ⟨fun h => absurd h.1 hafter, fun h => absurd h.1 hbefore⟩
  · rw [setSlot_other conTo hij]

/-- Whether a connection counts, from whether it is online and asleep. -/
theorem counts_congr (honline : conTo'.onlineOn k = conTo.onlineOn k) (hstatus : conTo'.status = conTo.status) :
    conTo'.counts k asleep = conTo.counts k asleep := by
  rw [counts, counts, honline, hstatus]

/-- A connection that is not online on a relay is not counted. -/
theorem counts_offline (hoffline : conTo.onlineOn k = false) : conTo.counts k asleep = false := by
  rw [counts, hoffline]
  exact decide_eq_false fun h => Bool.false_ne_true h.1

/-- A connection that is counted is online. -/
theorem counts_online (h : conTo.counts k asleep = true) : conTo.onlineOn k = true := (of_decide_eq_true h).1

/-- A status is written on a relay: only that relay sees it. -/
theorem setTcpConnectionStatus_online (honce : conTo.Once) (hlive : conTo.status ≠ .none) {status : RelayStatus}
    {connectionId : UInt8} (h : conTo.setTcpConnectionStatus k status connectionId = some conTo') :
    conTo'.status = conTo.status ∧ (∀ l, l ≠ k → conTo'.onlineOn l = conTo.onlineOn l) ∧
      conTo'.onlineOn k = decide (status = .online) := by
  have hwithin := setTcpConnectionStatus_within h
  obtain ⟨i, hi, -, rfl⟩ := setTcpConnectionStatus_some h
  refine ⟨rfl, fun l hl => onlineOn_setSlot ?_ ?_, ?_⟩
  · rw [hi]
    exact fun heq => hl (some_inj.mp heq).symm
  · dsimp only
    rw [hi]
    exact fun heq => hl (some_inj.mp heq).symm
  · rw [onlineOn_at (hwithin.once honce) hlive (i := i) (by rw [setSlot_self]; exact hi), setSlot_self]

/-- The slot of a relay is cleared, or its status: only that relay sees it. -/
theorem rm_online (honce : conTo.Once) (k : ℕ) : (conTo.rmTcpConnectionFromConn k).onlineOn k = false ∧
    ∀ l, l ≠ k → (conTo.rmTcpConnectionFromConn k).onlineOn l = conTo.onlineOn l := by
  refine ⟨onlineOn_none (rm_not_named honce k), fun l hl => ?_⟩
  unfold rmTcpConnectionFromConn
  cases hslot : conTo.slotOf k with
  | none => rfl
  | some i =>
    refine onlineOn_setSlot ?_ nofun
    rw [slotOf_some hslot]
    exact fun heq => hl (some_inj.mp heq).symm

/-- A cleared slot is not online, and the other relays stay. -/
theorem clear_online (honce : conTo.Once) (hlive : conTo.status ≠ .none) (k : ℕ) :
    ((conTo.setTcpConnectionStatus k .none 0).getD conTo).onlineOn k = false ∧
      ∀ l, l ≠ k → ((conTo.setTcpConnectionStatus k .none 0).getD conTo).onlineOn l = conTo.onlineOn l := by
  cases hset : conTo.setTcpConnectionStatus k .none 0 with
  | some conTo' =>
    obtain ⟨-, hother, hself⟩ := setTcpConnectionStatus_online honce hlive hset
    exact ⟨hself, hother⟩
  | none =>
    refine ⟨?_, fun l _ => rfl⟩
    rw [getD_none]
    cases hslot : conTo.slotOf k with
    | none => exact onlineOn_none (slotOf_none hslot)
    | some i =>
      rw [setTcpConnectionStatus, hslot] at hset
      dsimp only at hset
      split at hset
      · rename_i hnone
        rw [onlineOn_at honce hlive (slotOf_some hslot), hnone]
        rfl
      · nomatch hset

/-- A relay that is added is not online yet. -/
theorem add_online (h : conTo.addTcpConnectionToConn k = some conTo') :
    conTo'.status = conTo.status ∧ ∀ l, conTo'.onlineOn l = conTo.onlineOn l := by
  obtain ⟨i, hfree, hnew, rfl⟩ := addTcpConnectionToConn_some h
  refine ⟨rfl, fun l => ?_⟩
  by_cases hlk : l = k
  · subst hlk
    rw [onlineOn_none hnew]
    apply decide_eq_false
    rintro ⟨-, j, hj, honline⟩
    by_cases hij : j = i
    · subst hij
      rw [setSlot_self] at honline
      nomatch honline
    · rw [setSlot_other conTo hij] at hj
      exact hnew j hj
  · refine onlineOn_setSlot ?_ fun heq => hlk (some_inj.mp heq).symm
    rw [hfree]
    nofun

end TcpConnectionTo

/-- A counter of a relay. -/
def TcpCon.counter (tcpCon : TcpCon) (asleep : Bool) : UInt32 := if asleep then tcpCon.sleepCount else tcpCon.lockCount

namespace TcpConnections

variable {tcpC next : TcpConnections} {n k : ℕ} {conTo conTo' : TcpConnectionTo} {tcpCon tcpCon' : TcpCon}
  {asleep : Bool}

/-- The counters of every relay are right. There is no memory for too many connections, and a relay that sleeps counts
none. -/
structure Counted (tcpC : TcpConnections) : Prop where
  counter : ∀ k t, tcpC.getTcpConnection k = some t → ∀ asleep,
    (t.counter asleep).toNat = tcpC.connections.countP (TcpConnectionTo.counts k asleep)
  idle : ∀ k t, tcpC.getTcpConnection k = some t → t.status = .sleeping → ∀ asleep, t.counter asleep = 0
  length : tcpC.connections.length < 2 ^ 32

/-- What counts is counted. -/
theorem Counted.pos (h : tcpC.Counted) (hget : tcpC.getTcpConnection k = some tcpCon)
    (hconn : tcpC.getConnection n = some conTo) (hcounts : conTo.counts k asleep = true) :
    1 ≤ (tcpCon.counter asleep).toNat := by
  rw [h.counter k tcpCon hget]
  exact countP_pos_iff.mpr ⟨conTo, mem_of_getElem? (getConnection_eq_some.mp hconn).1, hcounts⟩

/-- There is room to count one more. -/
theorem Counted.room (h : tcpC.Counted) (hget : tcpC.getTcpConnection k = some tcpCon)
    (hconn : tcpC.getConnection n = some conTo)
    (hnot : conTo.counts k asleep = false) : (tcpCon.counter asleep).toNat + 1 < 2 ^ 32 := by
  have hle := countP_le_length (p := TcpConnectionTo.counts k asleep) (l := tcpC.connections)
  have hne : tcpC.connections.countP (TcpConnectionTo.counts k asleep) ≠ tcpC.connections.length := by
    intro hall
    have hcounts := countP_eq_length.mp hall conTo (mem_of_getElem? (getConnection_eq_some.mp hconn).1)
    rw [hnot] at hcounts
    nomatch hcounts
  have hlength := h.length
  rw [h.counter k tcpCon hget]
  omega

/-- Relays are written with the same counters. -/
theorem Counted.of_relays (h : tcpC.Counted) (hconns : next.connections = tcpC.connections)
    (hrelays : ∀ k t', next.getTcpConnection k = some t' → ∃ t, tcpC.getTcpConnection k = some t ∧
      (t'.status = .sleeping → t.status = .sleeping) ∧ ∀ asleep, t'.counter asleep = t.counter asleep) :
        next.Counted where
  counter k t' ht' asleep := by
    obtain ⟨t, ht, -, hsame⟩ := hrelays k t' ht'
    rw [hsame, hconns]
    exact h.counter k t ht asleep
  idle k t' ht' hasleep asleep := by
    obtain ⟨t, ht, hstatus, hsame⟩ := hrelays k t' ht'
    rw [hsame]
    exact h.idle k t ht (hstatus hasleep) asleep
  length := by
    rw [hconns]
    exact h.length

/-- A relay is written with the same counters. -/
theorem Counted.setRelay (h : tcpC.Counted) (hget : tcpC.getTcpConnection k = some tcpCon)
    (hlive : tcpCon'.status ≠ .none) (hstatus : tcpCon'.status = .sleeping → tcpCon.status = .sleeping)
    (hsame : ∀ asleep, tcpCon'.counter asleep = tcpCon.counter asleep) : (tcpC.setTcpConnection k tcpCon').Counted := by
  refine h.of_relays rfl fun l t' ht' => ?_
  rw [getTcpConnection_set hget hlive] at ht'
  by_cases hlk : l = k
  · subst hlk
    rw [update_self] at ht'
    obtain rfl := some_inj.mp ht'
    exact ⟨tcpCon, hget, hstatus, hsame⟩
  · rw [update_of_ne hlk] at ht'
    exact ⟨t', ht', id, fun _ => rfl⟩

/-- A connection is written, and the counters with it. -/
theorem Counted.setConnection (h : tcpC.Counted) (hconn : tcpC.getConnection n = some conTo)
    (hnext : next.connections = tcpC.connections.set n conTo')
    (hrelays : ∀ k t', next.getTcpConnection k = some t' → ∃ t, tcpC.getTcpConnection k = some t ∧
      t'.status = t.status ∧
      (t.status = .sleeping → conTo'.onlineOn k = true → conTo.onlineOn k = true) ∧
      ∀ asleep, (t'.counter asleep).toNat + (if conTo.counts k asleep then 1 else 0) =
        (t.counter asleep).toNat + (if conTo'.counts k asleep then 1 else 0)) : next.Counted where
  counter k t' ht' asleep := by
    obtain ⟨t, ht, -, -, hsum⟩ := hrelays k t' ht'
    have hset := countP_set (p := TcpConnectionTo.counts k asleep) (getConnection_eq_some.mp hconn).1 conTo'
    have hcounter := h.counter k t ht asleep
    have hsame := hsum asleep
    rw [hnext]
    omega
  idle k t' ht' hasleep asleep := by
    obtain ⟨t, ht, hstatus, honline, hsum⟩ := hrelays k t' ht'
    have hsleeping : t.status = .sleeping := hstatus ▸ hasleep
    have hnot : ¬conTo.counts k false = true := by
      intro hcounts
      have hpos := h.pos ht hconn hcounts
      rw [h.idle k t ht hsleeping] at hpos
      nomatch hpos
    have hnot' : ¬conTo'.counts k asleep = true := fun hcounts =>
      hnot (decide_eq_true ⟨honline hsleeping (TcpConnectionTo.counts_online hcounts), nofun⟩)
    have hsame := hsum asleep
    rw [h.idle k t ht hsleeping, if_neg hnot'] at hsame
    apply UInt32.toNat_inj.mp
    exact Nat.eq_zero_of_add_eq_zero_right hsame
  length := by
    rw [hnext, length_set]
    exact h.length

variable {f : TcpCon → RelaySlot → TcpCon} {env : TcpConnEnv}

/-- Something is done to the relay of a slot. -/
theorem getTcpConnection_onRelay (hf : ∀ t slot, (f t slot).status = t.status) (slot : RelaySlot) (k : ℕ) :
    (tcpC.onRelay f slot).getTcpConnection k =
      (tcpC.getTcpConnection k).map fun t => if slot.tcpConnection = some k then f t slot else t := by
  unfold onRelay
  cases hslot : slot.tcpConnection with
  | none => simp
  | some l =>
    dsimp only
    cases hget : tcpC.getTcpConnection l with
    | none =>
      dsimp only
      by_cases hkl : l = k
      · subst hkl
        rw [hget]
        rfl
      · simp [hkl]
    | some t =>
      have hlive := (getTcpConnection_eq_some.mp hget).2
      dsimp only
      rw [getTcpConnection_set hget ((hf t slot).symm ▸ hlive)]
      by_cases hkl : l = k
      · subst hkl
        rw [update_self, hget, map_some, if_pos rfl]
      · rw [update_of_ne (Ne.symm hkl)]
        simp [hkl]

/-- Something is done to the relay of each slot, once. -/
theorem getTcpConnection_onRelays (tcpC : TcpConnections) (honce : conTo.Once)
    (hf : ∀ t slot, (f t slot).status = t.status) (k : ℕ) : (tcpC.onRelays f conTo).getTcpConnection k =
      (tcpC.getTcpConnection k).map fun t => (conTo.relaySlot k).elim t (f t) := by
  have hfold (slots : List (Fin maxFriendTcpConnections)) (hnodup : slots.Nodup) (tcpC : TcpConnections) :
      (slots.foldl (fun tcpC i => tcpC.onRelay f (conTo.connections i)) tcpC).getTcpConnection k =
        (tcpC.getTcpConnection k).map fun t => ((slots.find? fun i =>
          (conTo.connections i).tcpConnection = some k).map conTo.connections).elim t (f t) := by
    induction slots generalizing tcpC with
    | nil => exact Option.map_id'.symm
    | cons i rest ih =>
      obtain ⟨hi, hrest⟩ := nodup_cons.mp hnodup
      rw [foldl_cons, ih hrest, getTcpConnection_onRelay hf, Option.map_map]
      apply congrFun
      apply congrArg
      funext t
      by_cases hslot : (conTo.connections i).tcpConnection = some k
      · have hnone : (rest.find? fun i => (conTo.connections i).tcpConnection = some k) = none := by
          apply find?_eq_none.mpr
          intro j hj hjk
          exact hi (honce i j k hslot (of_decide_eq_true hjk) ▸ hj)
        have hfirst : ((i :: rest).find? fun i => (conTo.connections i).tcpConnection = some k) = some i :=
          find?_cons_of_pos (decide_eq_true hslot)
        rw [Function.comp_apply, hnone, hfirst, if_pos hslot]
        rfl
      · have hlater : ((i :: rest).find? fun i => (conTo.connections i).tcpConnection = some k) =
            rest.find? fun i => (conTo.connections i).tcpConnection = some k :=
          find?_cons_of_neg (by rw [decide_eq_true_eq]; exact hslot)
        rw [Function.comp_apply, if_neg hslot, hlater]
  exact hfold _ (nodup_finRange _) tcpC

/-! ## Operations -/

/-- A release takes one from the counter where the connection was counted. -/
theorem counter_release_eq (tcpCon : TcpCon) (conTo : TcpConnectionTo) (slot : RelaySlot) (asleep : Bool) :
    (tcpCon.release conTo slot).counter asleep =
      if slot.status = .online ∧ (asleep = true → conTo.status = .sleeping) then tcpCon.counter asleep - 1
      else tcpCon.counter asleep := by
  have hsame : (if tcpCon.status = .connected then { tcpCon with
      connection := tcpCon.connection.map fun connection => connection.sendDisconnectRequest slot.connectionId }
      else tcpCon).counter asleep = tcpCon.counter asleep := by split <;> rfl
  unfold TcpCon.release
  rw [← hsame]
  generalize (if tcpCon.status = .connected then { tcpCon with
    connection := tcpCon.connection.map fun connection => connection.sendDisconnectRequest slot.connectionId }
    else tcpCon) = tcpCon
  by_cases honline : slot.status = .online
  · by_cases hsleeping : conTo.status = .sleeping
    · cases asleep <;> simp [TcpCon.counter, honline, hsleeping]
    · cases asleep <;> simp [TcpCon.counter, honline, hsleeping]
  · simp [honline]

/-- The counters of a relay that loses a connection. -/
theorem counter_release (h : tcpC.Counted) (hs : tcpC.Sound) (hget : tcpC.getTcpConnection k = some tcpCon)
    (hconn : tcpC.getConnection n = some conTo) (asleep : Bool) :
    (((conTo.relaySlot k).elim tcpCon (tcpCon.release conTo)).counter asleep).toNat +
      (if conTo.counts k asleep then 1 else 0) = (tcpCon.counter asleep).toNat := by
  have honline := TcpConnectionTo.onlineOn_eq (hs.once n conTo hconn) (getConnection_eq_some.mp hconn).2 k
  cases hslot : conTo.relaySlot k with
  | none =>
    rw [hslot] at honline
    rw [TcpConnectionTo.counts_offline honline]
    rfl
  | some slot =>
    rw [hslot, map_some] at honline
    rw [elim_some, counter_release_eq]
    by_cases hcounts : slot.status = .online ∧ (asleep = true → conTo.status = .sleeping)
    · have hboth : conTo.counts k asleep = true := by
        rw [TcpConnectionTo.counts, honline]
        exact decide_eq_true ⟨decide_eq_true (congrArg some hcounts.1), hcounts.2⟩
      have hpos := h.pos hget hconn hboth
      have hsub := UInt32.toNat_sub_of_le (tcpCon.counter asleep) 1 (UInt32.le_iff_toNat_le.mpr hpos)
      rw [UInt32.toNat_one] at hsub
      rw [if_pos hcounts, hboth, hsub, if_pos rfl]
      omega
    · have hnot : conTo.counts k asleep = false := by
        rw [TcpConnectionTo.counts, honline]
        exact decide_eq_false fun hboth => hcounts ⟨some_inj.mp (of_decide_eq_true hboth.1), hboth.2⟩
      rw [if_neg hcounts, hnot]
      rfl

/-- Free slots at the end do not count. -/
theorem counts_free (hfree : conTo.status = .none) : conTo.counts k asleep = false :=
  TcpConnectionTo.counts_offline (decide_eq_false fun h => h.1 hfree)

/-- A connection is wiped, and the counters are right without it. -/
theorem Counted.wipeConnection (h : (tcpC.setConnection n .zero).Counted) : (tcpC.wipeConnection n).Counted where
  counter k t ht asleep := by
    rw [TcpConnections.wipeConnection, countP_rdropWhile fun conTo hfree => counts_free (of_decide_eq_true hfree)]
    exact h.counter k t ht asleep
  idle k t ht := h.idle k t ht
  length := lt_of_le_of_lt (List.rdropWhile_prefix _ _).length_le h.length

/-- A connection is written, with something done to each of its relays. -/
theorem Counted.setOnRelays (h : tcpC.Counted) (hs : tcpC.Sound) (hconn : tcpC.getConnection n = some conTo)
    (hf : ∀ t slot, SameRelay t (f t slot)) (conTo' : TcpConnectionTo)
    (honline : ∀ k, conTo'.onlineOn k = true → conTo.onlineOn k = true)
    (hsum : ∀ k t, tcpC.getTcpConnection k = some t → ∀ asleep,
      (((conTo.relaySlot k).elim t (f t)).counter asleep).toNat + (if conTo.counts k asleep then 1 else 0) =
        (t.counter asleep).toNat + (if conTo'.counts k asleep then 1 else 0)) :
    ((tcpC.onRelays f conTo).setConnection n conTo').Counted := by
  have hrelays := getTcpConnection_onRelays tcpC (hs.once n conTo hconn) fun t slot => (hf t slot).status
  have hconns : ((tcpC.onRelays f conTo).setConnection n conTo').connections = tcpC.connections.set n conTo' :=
    congrArg (fun connections => connections.set n conTo') (onRelays_connections f conTo)
  refine h.setConnection hconn hconns fun k t' ht' => ?_
  obtain ⟨t, ht, rfl⟩ := map_eq_some_iff.mp ((hrelays k).symm.trans ht')
  refine ⟨t, ht, ?_, fun _ => honline k, hsum k t ht⟩
  cases conTo.relaySlot k with
  | none => rfl
  | some slot => exact (hf t slot).status

/-- A connection is killed. -/
theorem Counted.killTcpConnectionTo (h : tcpC.Counted) (hs : tcpC.Sound) (n : ℕ) :
    (tcpC.killTcpConnectionTo n).2.Counted := by
  unfold TcpConnections.killTcpConnectionTo
  cases hconn : tcpC.getConnection n with
  | none => exact h
  | some conTo =>
    exact (h.setOnRelays hs hconn (sameRelay_release conTo) .zero nofun fun k t ht =>
      counter_release h hs ht hconn).wipeConnection

/-- A counter is one more. -/
theorem toNat_add_one {x : UInt32} (hroom : x.toNat + 1 < 2 ^ 32) : (x + 1).toNat = x.toNat + 1 := by
  rw [UInt32.toNat_add, UInt32.toNat_one, Nat.mod_eq_of_lt hroom]

/-- Whether a connection is asleep does not change whether it is online. -/
theorem onlineOn_status (hlive : conTo.status ≠ .none) {status : TcpConnStatus} (hlive' : status ≠ .none) (k : ℕ) :
    TcpConnectionTo.onlineOn { conTo with status := status } k = conTo.onlineOn k :=
  decide_eq_decide.mpr (and_congr_left fun _ => ⟨fun _ => hlive, fun _ => hlive'⟩)

/-- The counters of a relay when a connection goes to sleep. -/
theorem counter_fallAsleep (h : tcpC.Counted) (hs : tcpC.Sound) (hget : tcpC.getTcpConnection k = some tcpCon)
    (hconn : tcpC.getConnection n = some conTo) (hawake : conTo.status = .valid) (asleep : Bool) :
    (((conTo.relaySlot k).elim tcpCon tcpCon.fallAsleep).counter asleep).toNat +
    (if conTo.counts k asleep then 1 else 0) =
      (tcpCon.counter asleep).toNat + (if TcpConnectionTo.counts k asleep { conTo with status :=
        .sleeping } then 1 else 0) := by
  have hlive := (getConnection_eq_some.mp hconn).2
  have honline := TcpConnectionTo.onlineOn_eq (hs.once n conTo hconn) hlive k
  have hafter : TcpConnectionTo.onlineOn { conTo with status := .sleeping } k = conTo.onlineOn k :=
    onlineOn_status hlive (by nofun) k
  have hnot : conTo.counts k true = false := decide_eq_false fun hboth => nomatch hawake.symm.trans (hboth.2 rfl)
  cases hslot : conTo.relaySlot k with
  | none =>
    rw [hslot] at honline
    rw [TcpConnectionTo.counts_offline honline, TcpConnectionTo.counts_offline (hafter.trans honline)]
    rfl
  | some slot =>
    rw [hslot, map_some] at honline
    rw [elim_some, TcpCon.fallAsleep]
    by_cases hstatus : slot.status = .online
    · have hon : conTo.onlineOn k = true := honline.trans (decide_eq_true (congrArg some hstatus))
      rw [if_pos hstatus]
      cases asleep with
      | false =>
        rw [TcpConnectionTo.counts, TcpConnectionTo.counts, hafter, hon]
        rfl
      | true =>
        have hroom := h.room hget hconn hnot
        rw [hnot, TcpConnectionTo.counts, hafter, hon]
        exact toNat_add_one hroom
    · have hoff : conTo.onlineOn k = false :=
        honline.trans (decide_eq_false fun heq => hstatus (some_inj.mp heq))
      rw [if_neg hstatus, TcpConnectionTo.counts_offline hoff, TcpConnectionTo.counts_offline (hafter.trans hoff)]

/-- A connection falls asleep. -/
theorem Counted.fallAsleep (h : tcpC.Counted) (hs : tcpC.Sound) (hconn : tcpC.getConnection n = some conTo)
    (hawake : conTo.status = .valid) :
    ((tcpC.onRelays TcpCon.fallAsleep conTo).setConnection n { conTo with status := .sleeping }).Counted := by
  have hlive := (getConnection_eq_some.mp hconn).2
  refine h.setOnRelays hs hconn sameRelay_fallAsleep { conTo with status := .sleeping }
    (fun k honline => ?_) fun k t ht =>
    counter_fallAsleep h hs ht hconn hawake
  rw [onlineOn_status hlive (by nofun)] at honline
  exact honline

/-- A connection that is online nowhere wakes up. -/
theorem Counted.wakeUp (h : tcpC.Counted) (hs : tcpC.Sound) (hconn : tcpC.getConnection n = some conTo)
    (hoffline : ∀ k, conTo.onlineOn k = false) :
    ((tcpC.onRelays TcpCon.wakeUp conTo).setConnection n { conTo with status := .valid }).Counted := by
  have hlive := (getConnection_eq_some.mp hconn).2
  have hafter (k : ℕ) : TcpConnectionTo.onlineOn { conTo with status := .valid } k = conTo.onlineOn k :=
    onlineOn_status hlive (by nofun) k
  refine h.setOnRelays hs hconn sameRelay_wakeUp { conTo with status := .valid }
    (fun k honline => ?_) fun k t _ asleep => ?_
  · exact (hafter k).symm.trans honline
  · rw [TcpConnectionTo.counts_offline (hoffline k), TcpConnectionTo.counts_offline ((hafter k).trans (hoffline k))]
    cases conTo.relaySlot k with
    | none => rfl
    | some slot =>
      rw [elim_some, TcpCon.wakeUp]
      split <;> rfl

/-! ## Relays -/

/-- Every connection in use is mapped: what a relay counts of it is what it counts of its image. -/
theorem countP_mapConnections (hs : tcpC.Sound) {f : TcpConnectionTo → TcpConnectionTo} {p : Bool}
    (hf : ∀ a, a.status ≠ .none → a.Once → (f a).counts k asleep = (p && a.counts k asleep)) :
    (tcpC.mapConnections f).connections.countP (TcpConnectionTo.counts k asleep) =
      if p then tcpC.connections.countP (TcpConnectionTo.counts k asleep) else 0 := by
  have hmapped : (tcpC.mapConnections f).connections.countP (TcpConnectionTo.counts k asleep) =
      tcpC.connections.countP fun a => p && a.counts k asleep := by
    rw [mapConnections, countP_map]
    apply countP_congr
    intro a ha
    obtain ⟨n, hn⟩ := getElem?_of_mem ha
    rw [Function.comp_apply]
    by_cases hfree : a.status = .none
    · rw [if_pos hfree, counts_free hfree, Bool.and_false]
    · rw [if_neg hfree, hf a hfree (hs.once n a (getConnection_eq_some.mpr ⟨hn, hfree⟩))]
  rw [hmapped]
  cases p with
  | true => rfl
  | false => exact countP_eq_zero.mpr fun a _ => Bool.false_ne_true

/-- A relay loses its connections, and starts to count again or is gone. -/
theorem Counted.replaceRelay (h : tcpC.Counted) (hs : tcpC.Sound) (relay : Option TcpCon)
    {f : TcpConnectionTo → TcpConnectionTo}
    (hconns : next.connections = (tcpC.mapConnections f).connections) (hstatus : ∀ a, (f a).status = a.status)
    (honline : ∀ a, a.status ≠ .none → a.Once → (f a).onlineOn k = false ∧ ∀ l, l ≠ k → (f a).onlineOn l = a.onlineOn l)
    (hrelays : next.getTcpConnection = update tcpC.getTcpConnection k relay)
    (hzero : ∀ t, relay = some t → ∀ asleep, t.counter asleep = 0) : next.Counted where
  counter l t ht asleep := by
    rw [hrelays] at ht
    rw [hconns]
    by_cases hlk : l = k
    · subst hlk
      rw [update_self] at ht
      rw [hzero t ht, countP_mapConnections hs (p := false) fun a hlive honce =>
        TcpConnectionTo.counts_offline (honline a hlive honce).1]
      rfl
    · rw [update_of_ne hlk] at ht
      rw [h.counter l t ht, countP_mapConnections hs (p := true) fun a hlive honce =>
        TcpConnectionTo.counts_congr ((honline a hlive honce).2 l hlk) (hstatus a)]
      rfl
  idle l t ht hasleep asleep := by
    rw [hrelays] at ht
    by_cases hlk : l = k
    · subst hlk
      rw [update_self] at ht
      exact hzero t ht asleep
    · rw [update_of_ne hlk] at ht
      exact h.idle l t ht hasleep asleep
  length := by
    rw [hconns, mapConnections, length_map]
    exact h.length

/-- A relay is killed. -/
theorem Counted.killTcpRelayConnection (h : tcpC.Counted) (hs : tcpC.Sound) (k : ℕ) :
    (tcpC.killTcpRelayConnection k).2.Counted := by
  unfold TcpConnections.killTcpRelayConnection
  cases hget : tcpC.getTcpConnection k with
  | none => exact h
  | some tcpCon =>
    obtain ⟨next, hnext, -, hrelays, hmapped, -⟩ := dropOnion_mapped tcpC tcpCon fun conTo => (rm_fields conTo k).1
    simp only [hnext]
    have hget' : next.getTcpConnection k = some tcpCon := by rw [hrelays, hget]
    refine h.replaceRelay hs none hmapped (fun a => (rm_fields a k).1) (fun a _ honce => a.rm_online honce k) ?_ nofun
    rw [getTcpConnection_wipe hget', hrelays]

/-- A relay is reset, and counts nothing. -/
theorem Counted.resetRelay (h : tcpC.Counted) (hs : tcpC.Sound) (hget : tcpC.getTcpConnection k = some tcpCon)
    (hlive : tcpCon'.status ≠ .none) (hzero : ∀ asleep, tcpCon'.counter asleep = 0) :
    (((tcpC.clearStatuses k).dropOnion tcpCon).setTcpConnection k tcpCon').Counted := by
  obtain ⟨next, hnext, -, hrelays, hmapped, -⟩ := dropOnion_mapped tcpC tcpCon fun conTo => (clear_fields conTo k).1
  rw [clearStatuses, hnext]
  have hget' : next.getTcpConnection k = some tcpCon := by rw [hrelays, hget]
  refine h.replaceRelay hs (some tcpCon') hmapped (fun a => (clear_fields a k).1)
    (fun a hlive honce => a.clear_online honce hlive k) ?_ ?_
  · rw [getTcpConnection_set hget' hlive, hrelays]
  · rintro t ⟨⟩
    exact hzero

/-- A relay that is reset counts from 0. -/
theorem counter_reset (tcpCon : TcpCon) (status : TcpConnStatus) (connection : Option TcpClientConnection)
    (asleep : Bool) :
    (tcpCon.reset status connection).counter asleep = 0 := by
  cases asleep <;> rfl

/-- A relay falls asleep. -/
theorem Counted.sleepTcpRelayConnection (h : tcpC.Counted) (hs : tcpC.Sound) (k : ℕ) :
    (tcpC.sleepTcpRelayConnection k).2.Counted := by
  unfold TcpConnections.sleepTcpRelayConnection
  cases hget : tcpC.getTcpConnection k with
  | none => exact h
  | some tcpCon =>
    dsimp only
    split
    · split
      · exact h
      · exact h.resetRelay hs hget nofun (counter_reset tcpCon .sleeping none)
    · exact h

/-! ## Adding connections and relays -/

section

variable (h : tcpC.Counted)
include h

/-- Connections are written that do not count. -/
theorem Counted.of_connections (hcount : ∀ k asleep, next.connections.countP (TcpConnectionTo.counts k asleep) =
      tcpC.connections.countP (TcpConnectionTo.counts k asleep)) (hlength : next.connections.length < 2 ^ 32)
    (hrelays : next.getTcpConnection = tcpC.getTcpConnection) : next.Counted where
  counter k t ht asleep := by
    rw [hrelays] at ht
    rw [hcount]
    exact h.counter k t ht asleep
  idle k t ht := by
    rw [hrelays] at ht
    exact h.idle k t ht
  length := hlength

/-- A place for a connection is made while there is memory, and does not count. -/
theorem createConnection_counts {created : Option ℕ} (hcreate : tcpC.createConnection env = (created, next)) :
    next.Counted := by
  unfold createConnection at hcreate
  split at hcreate
  · obtain ⟨-, rfl⟩ := Prod.mk.inj hcreate
    exact h
  · split at hcreate
    · rename_i hroom
      obtain ⟨-, rfl⟩ := Prod.mk.inj hcreate
      refine h.of_connections (fun k asleep => countP_concat (counts_free rfl)) ?_ rfl
      rw [length_append]
      exact hroom.2
    · obtain ⟨-, rfl⟩ := Prod.mk.inj hcreate
      exact h

/-- A connection is made: it is online nowhere. -/
theorem Counted.newTcpConnectionTo (hs : tcpC.Sound) (env : TcpConnEnv) (publicKey : PublicKey) (id : ℤ) :
    (tcpC.newTcpConnectionTo env publicKey id).2.Counted := by
  unfold TcpConnections.newTcpConnectionTo
  cases tcpC.findTcpConnectionTo publicKey with
  | some => exact h
  | none =>
    dsimp only
    generalize hcreate : tcpC.createConnection env = created
    obtain ⟨_ | n, next⟩ := created
    · exact createConnection_counts h hcreate
    · have hcreated := createConnection_counts h hcreate
      obtain ⟨hfree, -, -, -⟩ := createConnection_some hs.clean hcreate
      dsimp only
      rw [modify_eq_set hfree]
      refine hcreated.of_connections (fun k asleep => ?_) (by rw [length_set]; exact hcreated.length) rfl
      have hset := countP_set (p := TcpConnectionTo.counts k asleep) hfree
        { TcpConnectionTo.zero with status := .valid, publicKey := publicKey, id := id }
      have hnew : TcpConnectionTo.counts k asleep
          { TcpConnectionTo.zero with status := .valid, publicKey := publicKey, id := id } = false :=
        TcpConnectionTo.counts_offline (TcpConnectionTo.onlineOn_none fun i => nofun)
      rw [counts_free rfl, hnew] at hset
      exact hset

/-- A relay is added that no connection names. -/
theorem Counted.addRelay (hs : tcpC.Sound) (hconns : next.connections = tcpC.connections)
    (hfree : tcpC.getTcpConnection k = none)
    (hview : next.getTcpConnection = update tcpC.getTcpConnection k (some (addedRelay connection))) :
    next.Counted where
  counter l t ht asleep := by
    rw [hview] at ht
    rw [hconns]
    by_cases hlk : l = k
    · subst hlk
      rw [update_self] at ht
      obtain rfl := some_inj.mp ht
      have hzero : ((addedRelay connection).counter asleep).toNat = 0 := by cases asleep <;> rfl
      rw [hzero]
      refine (countP_eq_zero.mpr fun a ha hcounts => ?_).symm
      obtain ⟨hlive, i, hi, -⟩ := of_decide_eq_true (TcpConnectionTo.counts_online hcounts)
      obtain ⟨m, hm⟩ := getElem?_of_mem ha
      have hnamed := hs.named m a i l (getConnection_eq_some.mpr ⟨hm, hlive⟩) hi
      rw [hfree] at hnamed
      nomatch hnamed
    · rw [update_of_ne hlk] at ht
      exact h.counter l t ht asleep
  idle l t ht hasleep := by
    rw [hview] at ht
    by_cases hlk : l = k
    · subst hlk
      rw [update_self] at ht
      obtain rfl := some_inj.mp ht
      nomatch hasleep
    · rw [update_of_ne hlk] at ht
      exact h.idle l t ht hasleep
  length := by
    rw [hconns]
    exact h.length

/-- A relay is added: nobody is online on it. -/
theorem Counted.addTcpRelayInstance (hs : tcpC.Sound) {ipPort : IpPort} {relayPk : PublicKey} {added : Option ℕ}
    (hadd : tcpC.addTcpRelayInstance env ipPort relayPk = (added, next)) : next.Counted := by
  obtain ⟨-, -, hnext, ⟨-, hview⟩ | ⟨k, connection, -, -, hfree, hview⟩⟩ := addTcpRelayInstance_cases hs.clean hadd
  · refine h.of_relays (by rw [hnext]) fun k t ht => ?_
    rw [hview] at ht
    exact ⟨t, ht, id, fun _ => rfl⟩
  · exact h.addRelay hs (by rw [hnext]) hfree hview

/-- A connection gets a relay. -/
theorem Counted.addSlot (hconn : tcpC.getConnection n = some conTo)
    (hadd : conTo.addTcpConnectionToConn k = some conTo') : (tcpC.setConnection n conTo').Counted := by
  obtain ⟨hstatus, honline⟩ := TcpConnectionTo.add_online hadd
  refine h.setConnection hconn rfl fun l t ht => ⟨t, ht, rfl, fun _ hon => (honline l).symm.trans hon, fun asleep => ?_⟩
  rw [TcpConnectionTo.counts_congr (honline l) hstatus]

/-- A request does not change the counters. -/
theorem Counted.sendTcpRelayRoutingRequest (writes : Bool) (k : ℕ) (publicKey : PublicKey) :
    (tcpC.sendTcpRelayRoutingRequest writes k publicKey).2.Counted := by
  cases hget : tcpC.getTcpConnection k with
  | none =>
    rw [TcpConnections.sendTcpRelayRoutingRequest, hget]
    exact h
  | some tcpCon =>
    obtain ⟨connection, heq, -⟩ := sendTcpRelayRoutingRequest_eq writes hget publicKey
    rw [heq]
    refine h.setRelay hget (getTcpConnection_eq_some.mp hget).2 id fun asleep => ?_
    cases asleep <;> rfl

end

/-! ## Packets of a relay -/

/-- A status is written on a relay, and its counters with it. -/
theorem Counted.writeStatus (h : tcpC.Counted) (hs : tcpC.Sound) {status : RelayStatus} {connectionId : UInt8}
    (hget : tcpC.getTcpConnection k = some tcpCon) (hawake : tcpCon.status ≠ .sleeping)
    (hconn : tcpC.getConnection n = some conTo)
    (hset : conTo.setTcpConnectionStatus k status connectionId = some conTo') (hstatus : tcpCon'.status = tcpCon.status)
    (hsum : ∀ asleep, (tcpCon'.counter asleep).toNat + (if conTo.counts k asleep then 1 else 0) =
      (tcpCon.counter asleep).toNat + (if conTo'.counts k asleep then 1 else 0)) :
    ((tcpC.setConnection n conTo').setTcpConnection k tcpCon').Counted := by
  have hlive := (getTcpConnection_eq_some.mp hget).2
  have hlive' : tcpCon'.status ≠ .none := hstatus ▸ hlive
  obtain ⟨hsame, hother, -⟩ :=
    TcpConnectionTo.setTcpConnectionStatus_online (hs.once n conTo hconn) (getConnection_eq_some.mp hconn).2 hset
  refine h.setConnection hconn rfl fun l t' ht' => ?_
  have hget' : (tcpC.setConnection n conTo').getTcpConnection k = some tcpCon := hget
  have hrelays : ((tcpC.setConnection n conTo').setTcpConnection k tcpCon').getTcpConnection =
      update tcpC.getTcpConnection k (some tcpCon') := getTcpConnection_set hget' hlive'
  rw [hrelays] at ht'
  by_cases hlk : l = k
  · subst hlk
    rw [update_self] at ht'
    obtain rfl := some_inj.mp ht'
    exact ⟨tcpCon, hget, hstatus, fun hasleep => absurd hasleep hawake, hsum⟩
  · rw [update_of_ne hlk] at ht'
    refine ⟨t', ht', rfl, fun _ honline => (hother l hlk).symm.trans honline, fun asleep => ?_⟩
    rw [TcpConnectionTo.counts_congr (hother l hlk) hsame]

/-- A relay answers a request for a connection that is not online there. -/
theorem Counted.tcpResponseCallback (h : tcpC.Counted) (hs : tcpC.Sound) (k : ℕ)
    (connectionId : Fin numClientConnections)
    (publicKey : PublicKey) (hawake : ∀ t, tcpC.getTcpConnection k = some t → t.status ≠ .sleeping)
    (hoffline : ∀ n a, tcpC.findTcpConnectionTo publicKey = some n → tcpC.getConnection n = some a →
      a.onlineOn k = false) :
    (tcpC.tcpResponseCallback k connectionId publicKey).2.Counted := by
  unfold TcpConnections.tcpResponseCallback
  split
  · rename_i tcpCon n hget hfind
    cases hconn : tcpC.getConnection n with
    | none => exact h
    | some conTo =>
      dsimp only
      cases hset : conTo.setTcpConnectionStatus k .registered (UInt8.ofNat connectionId) with
      | none => exact h
      | some conTo' =>
        obtain ⟨-, -, hself⟩ := TcpConnectionTo.setTcpConnectionStatus_online (hs.once n conTo hconn)
          (getConnection_eq_some.mp hconn).2 hset
        refine h.writeStatus hs hget (hawake tcpCon hget) hconn hset rfl fun asleep => ?_
        rw [TcpConnectionTo.counts_offline (hoffline n conTo hfind hconn), TcpConnectionTo.counts_offline hself]
        cases asleep <;> rfl
  · exact h

/-- The counters of a relay when a connection that is online there goes offline. -/
theorem counter_offline (h : tcpC.Counted) (hget : tcpC.getTcpConnection k = some tcpCon)
    (hconn : tcpC.getConnection n = some conTo) (honline : conTo.onlineOn k = true) (asleep : Bool) :
    ((TcpCon.counter { tcpCon with
        lockCount := tcpCon.lockCount - 1
        sleepCount := tcpCon.sleepCount - if conTo.status = .sleeping then 1 else 0 } asleep).toNat +
      if conTo.counts k asleep then 1 else 0) = (tcpCon.counter asleep).toNat := by
  have hcounts : conTo.counts k asleep = decide (asleep = true → conTo.status = .sleeping) := by
    rw [TcpConnectionTo.counts, honline]
    exact decide_eq_decide.mpr (and_iff_right rfl)
  have hdec {x : UInt32} (hx : 1 ≤ x.toNat) : (x - 1).toNat + 1 = x.toNat := by
    have hsub := UInt32.toNat_sub_of_le x 1 (UInt32.le_iff_toNat_le.mpr hx)
    rw [UInt32.toNat_one] at hsub
    omega
  by_cases hcounted : conTo.counts k asleep = true
  · have hpos := h.pos hget hconn hcounted
    rw [if_pos hcounted]
    rw [hcounts] at hcounted
    cases asleep with
    | false => exact hdec hpos
    | true =>
      rw [if_pos (of_decide_eq_true hcounted rfl)]
      exact hdec hpos
  · rw [if_neg hcounted]
    rw [hcounts] at hcounted
    cases asleep with
    | false => exact absurd (decide_eq_true nofun) hcounted
    | true =>
      rw [if_neg fun hsleeping => hcounted (decide_eq_true fun _ => hsleeping), UInt32.sub_zero]
      rfl

/-- The counters of a relay when a connection comes online there. -/
theorem counter_online (h : tcpC.Counted) (hget : tcpC.getTcpConnection k = some tcpCon)
    (hconn : tcpC.getConnection n = some conTo)
    (hoffline : conTo.onlineOn k = false) (hstatus : conTo'.status = conTo.status) (honline : conTo'.onlineOn k = true)
    (asleep : Bool) :
    (TcpCon.counter { tcpCon with
        lockCount := tcpCon.lockCount + 1
        sleepCount := tcpCon.sleepCount + if conTo.status = .sleeping then 1 else 0 } asleep).toNat =
      (tcpCon.counter asleep).toNat + if conTo'.counts k asleep then 1 else 0 := by
  have hnot : conTo.counts k asleep = false := TcpConnectionTo.counts_offline hoffline
  have hroom := h.room hget hconn hnot
  have hcounts : conTo'.counts k asleep = decide (asleep = true → conTo.status = .sleeping) := by
    rw [TcpConnectionTo.counts, honline, hstatus]
    exact decide_eq_decide.mpr (and_iff_right rfl)
  rw [hcounts]
  cases asleep with
  | false => exact toNat_add_one hroom
  | true =>
    by_cases hsleeping : conTo.status = .sleeping
    · rw [if_pos hsleeping, if_pos (decide_eq_true fun _ => hsleeping)]
      exact toNat_add_one hroom
    · have hcond : ¬decide (true = true → conTo.status = .sleeping) = true := by
        intro hboth
        exact hsleeping ((of_decide_eq_true hboth : true = true → conTo.status = .sleeping) rfl)
      rw [if_neg hsleeping, if_neg hcond, UInt32.add_zero]
      rfl

/-- A relay says that a peer has come, or that a peer has gone whose connection was online or registered there. -/
theorem Counted.tcpStatusCallback (h : tcpC.Counted) (hs : tcpC.Sound) (k : ℕ) (number : UInt32)
    (connectionId : Fin numClientConnections) (status : PortStatus)
    (hawake : ∀ t, tcpC.getTcpConnection k = some t → t.status ≠ .sleeping)
    (hregistered : status = .offline → ∀ a i, tcpC.getConnection number.toNat = some a →
      (a.connections i).tcpConnection = some k → (a.connections i).status ≠ .none) :
    (tcpC.tcpStatusCallback k number connectionId status).2.Counted := by
  unfold TcpConnections.tcpStatusCallback
  split
  · rename_i tcpCon conTo hget hconn
    have honce := hs.once number.toNat conTo hconn
    have hlive := (getConnection_eq_some.mp hconn).2
    dsimp only
    cases status with
    | unused => exact h
    | offline =>
      dsimp only
      cases hset : conTo.setTcpConnectionStatus k .registered (UInt8.ofNat connectionId) with
      | none => exact h
      | some conTo' =>
        obtain ⟨-, -, hself⟩ := TcpConnectionTo.setTcpConnectionStatus_online honce hlive hset
        obtain ⟨i, hi, hchanges, -⟩ := TcpConnectionTo.setTcpConnectionStatus_some hset
        have hslot := hregistered rfl conTo i hconn hi
        have honline : conTo.onlineOn k = true := by
          rw [TcpConnectionTo.onlineOn_at honce hlive hi]
          cases hvalue : (conTo.connections i).status with
          | none => exact absurd hvalue hslot
          | registered => exact absurd hvalue hchanges
          | online => rfl
        refine h.writeStatus hs hget (hawake tcpCon hget) hconn hset rfl fun asleep => ?_
        rw [TcpConnectionTo.counts_offline hself]
        exact counter_offline h hget hconn honline asleep
    | online =>
      dsimp only
      cases hset : conTo.setTcpConnectionStatus k .online (UInt8.ofNat connectionId) with
      | none => exact h
      | some conTo' =>
        obtain ⟨hstatus, -, hself⟩ := TcpConnectionTo.setTcpConnectionStatus_online honce hlive hset
        obtain ⟨i, hi, hchanges, -⟩ := TcpConnectionTo.setTcpConnectionStatus_some hset
        have hoffline : conTo.onlineOn k = false := by
          rw [TcpConnectionTo.onlineOn_at honce hlive hi]
          exact decide_eq_false hchanges
        refine h.writeStatus hs hget (hawake tcpCon hget) hconn hset rfl fun asleep => ?_
        rw [TcpConnectionTo.counts_offline hoffline]
        exact counter_online h hget hconn hoffline hstatus hself asleep
  · exact h

/-! ## Runs -/

/-- Events that change who is online or asleep without the counters: a connection that is online somewhere wakes up, a
relay answers a request for a connection that is online there, or says that a peer has gone whose connection is not
registered there. -/
inductive Unbalanced (tcpC : TcpConnections) : TcpConnEvent → Prop where
  | wake {n : ℕ} {conTo : TcpConnectionTo} (k : ℕ) (hconn : tcpC.getConnection n = some conTo)
    (hasleep : conTo.status = .sleeping) (honline : conTo.onlineOn k) :
      tcpC.Unbalanced (.setTcpConnectionToStatus n true)
  | answer {k n : ℕ} {tcpCon : TcpCon} {connection : TcpClientConnection} {second : UInt8} {rest : Bytes}
    {port : Fin numClientConnections} {conTo : TcpConnectionTo} (hget : tcpC.getTcpConnection k = some tcpCon)
    (hconnection : tcpCon.connection = some connection) (hopen : connection.disconnected = false)
    (hcallbacks : connection.callbacks = true) (hlength : rest.length = 32) (hport : clientPort second = some port)
    (hunused : (connection.connections port).status = .unused)
    (hfind : tcpC.findTcpConnectionTo (slice 32 rest 0) = some n) (hconn : tcpC.getConnection n = some conTo)
    (honline : conTo.onlineOn k) : tcpC.Unbalanced (.receive k (tcpPacketRoutingResponse :: second :: rest))
  | gone {k : ℕ} {tcpCon : TcpCon} {connection : TcpClientConnection} {second : UInt8} {port : Fin numClientConnections}
    {conTo : TcpConnectionTo} {i : Fin maxFriendTcpConnections} (hget : tcpC.getTcpConnection k = some tcpCon)
    (hconnection : tcpCon.connection = some connection) (hopen : connection.disconnected = false)
    (hcallbacks : connection.callbacks = true) (hport : clientPort second = some port)
    (hused : (connection.connections port).status = .online)
    (hconn : tcpC.getConnection (connection.connections port).number.toNat = some conTo)
    (hi : (conTo.connections i).tcpConnection = some k) (hnone : (conTo.connections i).status = .none) :
    tcpC.Unbalanced (.receive k [tcpPacketDisconnectNotification, second])

section

variable (h : tcpC.Counted)
include h

/-- The TCP connection of a relay is written. -/
theorem Counted.setClient (hget : tcpC.getTcpConnection k = some tcpCon) (connection : TcpClientConnection) :
    (tcpC.setClient k tcpCon connection).Counted := by
  refine h.setRelay hget (getTcpConnection_eq_some.mp hget).2 id fun asleep => ?_
  cases asleep <;> rfl

/-- A packet of a relay, unless it unbalances the counters. -/
theorem Counted.handleTcpPacket (hs : tcpC.Sound) (hget : tcpC.getTcpConnection k = some tcpCon)
    (hconnection : tcpCon.connection = some connection) (hopen : connection.disconnected = false) (data : Bytes)
    (hbalanced : ¬tcpC.Unbalanced (.receive k data)) :
    (tcpC.handleTcpPacket k tcpCon connection data).2.2.Counted := by
  have hlive := (getTcpConnection_eq_some.mp hget).2
  have hawake : tcpCon.status ≠ .sleeping := (hs.fit k tcpCon hget).client.mp (by rw [hconnection]; rfl)
  have hport (conId : Fin numClientConnections) (port : TcpClientPort) :
      (tcpC.setClient k tcpCon (connection.setPort conId port)).Counted ∧
        (tcpC.setClient k tcpCon (connection.setPort conId port)).Sound ∧
        ∀ t, (tcpC.setClient k tcpCon (connection.setPort conId port)).getTcpConnection k = some t →
          t.status ≠ .sleeping := by
    refine ⟨h.setClient hget _, hs.setClient hget hconnection rfl, fun t ht => ?_⟩
    have hwritten :=
      getTcpConnection_set_self { tcpCon with connection := some (connection.setPort conId port) } hget hlive
    obtain rfl := some_inj.mp (hwritten.symm.trans ht)
    exact hawake
  rcases handleTcpPacket_cases tcpC k tcpCon connection data with hsame | ⟨-, hopens | hchanges⟩
  · rw [hsame]
    exact h
  · obtain ⟨second, rest, conId, rfl, hlength, hclient, hunused, heq⟩ := hopens
    obtain ⟨hcounted, hsound, hstatus⟩ := hport conId ⟨.offline, 0xFFFFFFFF, slice 32 rest 0⟩
    rw [heq]
    dsimp only
    split
    · rename_i hcallbacks
      refine hcounted.tcpResponseCallback hsound k conId _ hstatus fun n a hfind hconn => ?_
      refine Bool.eq_false_iff.mpr fun honline => hbalanced ?_
      exact .answer hget hconnection hopen hcallbacks hlength hclient hunused hfind hconn honline
    · exact hcounted
  · obtain ⟨kind, second, conId, before, status, rfl, hkind, hclient, hbefore, heq⟩ := hchanges
    obtain ⟨hcounted, hsound, hstatus⟩ := hport conId { connection.connections conId with status := status }
    rw [heq]
    dsimp only
    split
    · rename_i hcallbacks
      refine hcounted.tcpStatusCallback hsound k _ conId status hstatus fun hoffline a i hconn hi hnone => hbalanced ?_
      rcases hkind with ⟨-, -, honline⟩ | ⟨rfl, rfl, -⟩
      · exact absurd (hoffline.symm.trans honline) nofun
      · exact .gone hget hconnection hopen hcallbacks hclient hbefore hconn hi hnone
    · exact hcounted

/-- A packet of a relay, if the relay is there. -/
theorem Counted.receive (hs : tcpC.Sound) (k : ℕ) (data : Bytes) (hbalanced : ¬tcpC.Unbalanced (.receive k data)) :
    (tcpC.receive k data).2.Counted :=
  receive_kept h k data fun _ connection hget hconnection hopen =>
    ⟨h.handleTcpPacket hs hget hconnection hopen data hbalanced,
      h.setClient hget { connection with disconnected := true }⟩

/-- A connection falls asleep or wakes up. -/
theorem Counted.setTcpConnectionToStatus (hs : tcpC.Sound) (n : ℕ) (status : Bool)
    (hbalanced : ¬tcpC.Unbalanced (.setTcpConnectionToStatus n status)) :
    (tcpC.setTcpConnectionToStatus n status).2.Counted := by
  unfold TcpConnections.setTcpConnectionToStatus
  cases hconn : tcpC.getConnection n with
  | none => exact h
  | some conTo =>
    dsimp only
    cases status with
    | true =>
      rw [if_pos rfl]
      split
      · exact h
      · rename_i hsleeping
        refine h.wakeUp hs hconn fun k => Bool.eq_false_iff.mpr fun honline => hbalanced ?_
        exact .wake k hconn (not_not.mp hsleeping) honline
    | false =>
      rw [if_neg Bool.false_ne_true]
      split
      · exact h
      · rename_i hawake
        exact h.fallAsleep hs hconn (not_not.mp hawake)

/-- The onion takes relays or gives them up. -/
theorem Counted.setTcpOnionStatus (status : Bool) : (tcpC.setTcpOnionStatus status).2.Counted := by
  obtain ⟨hconns, halike⟩ := setTcpOnionStatus_alike tcpC status
  refine h.of_relays hconns fun k t' ht' => ?_
  obtain ⟨hnew, hlive⟩ := getTcpConnection_eq_some.mp ht'
  have hrel := halike k
  rw [hnew] at hrel
  generalize hold : tcpC.tcpConnections[k]? = old at hrel
  cases hrel with
  | some hsame =>
    refine ⟨_, getTcpConnection_eq_some.mpr ⟨hold, hsame.status ▸ hlive⟩, fun hasleep =>
      hsame.status.symm.trans hasleep,
      fun asleep => ?_⟩
    rw [TcpCon.counter, TcpCon.counter, hsame.counters.1, hsame.counters.2]

/-- A relay comes online. -/
theorem Counted.tcpRelayOnOnline (env : TcpConnEnv) (hget : tcpC.getTcpConnection k = some tcpCon) :
    (tcpC.tcpRelayOnOnline env k).Counted := by
  obtain ⟨connection, time, heq, -⟩ := tcpRelayOnOnline_eq env hget
  rw [heq]
  have hcounted : (tcpC.setTcpConnection k { tcpCon with
      connection := connection
      status := .connected
      connectedTime := time
      onion := if tcpC.onionStatus ∧ tcpC.onionNumConns < UInt16.ofNat numOnionTcpConnections then true
        else tcpCon.onion }).Counted := h.setRelay hget nofun nofun fun _ => rfl
  exact hcounted.of_relays rfl fun l t ht => ⟨t, ht, id, fun _ => rfl⟩

end

/-- The counters are right in all that is done with relays. -/
theorem counted_keptByRelays : KeptByRelays fun tcpC => tcpC.Sound ∧ tcpC.Counted where
  sound := And.left
  newConnection h env publicKey id :=
    ⟨h.1.newTcpConnectionTo env publicKey id, h.2.newTcpConnectionTo h.1 env publicKey id⟩
  onion h status := ⟨h.1.setTcpOnionStatus status, h.2.setTcpOnionStatus status⟩
  mark h hget unsleep time :=
    ⟨sound_keptByRelays.mark h.1 hget unsleep time,
      h.2.setRelay hget (getTcpConnection_eq_some.mp hget).2 id fun _ => rfl⟩
  request h writes k publicKey :=
    ⟨h.1.sendTcpRelayRoutingRequest writes k publicKey, h.2.sendTcpRelayRoutingRequest writes k publicKey⟩
  addSlot h hconn hrelay hadd := ⟨h.1.addSlot hconn hrelay hadd, h.2.addSlot hconn hadd⟩
  addRelay h hfind := ⟨sound_keptByRelays.addRelay h.1 hfind, h.2.addTcpRelayInstance h.1 rfl⟩
  kill h k := ⟨h.1.killTcpRelayConnection k, h.2.killTcpRelayConnection h.1 k⟩
  reset {_ _ tcpCon _ _ connection} h hget hawake hconnection hnew :=
    ⟨sound_keptByRelays.reset h.1 hget hawake hconnection hnew,
      h.2.resetRelay h.1 hget nofun (counter_reset tcpCon .valid (some connection))⟩
  sleep h k := ⟨h.1.sleepTcpRelayConnection k, h.2.sleepTcpRelayConnection h.1 k⟩
  wake {_ k tcpCon _ connection} h hget hasleep hnew := by
    refine ⟨sound_keptByRelays.wake h.1 hget hasleep hnew, h.2.setRelay hget nofun nofun fun asleep => ?_⟩
    rw [h.2.idle k tcpCon hget hasleep]
    exact counter_reset tcpCon .valid (some connection) asleep
  online h hget hvalid := ⟨h.1.tcpRelayOnOnline _ hget hvalid, h.2.tcpRelayOnOnline _ hget⟩

/-- There is nothing at the start. -/
theorem counted_new : new.Counted where
  counter _ _ ht := nomatch ht
  idle _ _ ht := nomatch ht
  length := by decide

/-- An event that does not unbalance the counters keeps them right. -/
theorem Counted.step (h : tcpC.Counted) (hs : tcpC.Sound) (event : TcpConnEvent) (hbalanced : ¬tcpC.Unbalanced event) :
    (tcpC.step event).Counted := by
  refine (counted_keptByRelays.step ⟨hs, h⟩ event ?_ ?_ ?_).2
  · exact fun n _ => ⟨hs.killTcpConnectionTo n, h.killTcpConnectionTo hs n⟩
  · rintro n status rfl
    exact ⟨hs.setTcpConnectionToStatus n status, h.setTcpConnectionToStatus hs n status hbalanced⟩
  · rintro k data rfl
    exact ⟨hs.receive k data, h.receive hs k data hbalanced⟩

/-- No event of a run is one that unbalances the counters. -/
def Balanced (tcpC : TcpConnections) : List TcpConnEvent → Prop
  | [] => True
  | event :: rest => ¬tcpC.Unbalanced event ∧ (tcpC.step event).Balanced rest

/-- A balanced run keeps the counters right. -/
theorem Counted.run (h : tcpC.Counted) (hs : tcpC.Sound) (events : List TcpConnEvent)
    (hbalanced : tcpC.Balanced events) :
    (tcpC.run events).Counted := by
  unfold TcpConnections.run
  induction events generalizing tcpC with
  | nil => exact h
  | cons event rest ih => exact ih (h.step hs event hbalanced.1) (hs.step event) hbalanced.2

/-- Where as many connections sleep as are online, every one that is online sleeps. -/
theorem Counted.all_asleep (h : tcpC.Counted) (hget : tcpC.getTcpConnection k = some tcpCon)
    (hsame : tcpCon.lockCount = tcpCon.sleepCount) (hconn : tcpC.getConnection n = some conTo)
    (honline : conTo.onlineOn k = true) : conTo.status = .sleeping := by
  have hlock := h.counter k tcpCon hget false
  have hsleep := h.counter k tcpCon hget true
  have hequal : tcpCon.counter false = tcpCon.counter true := hsame
  rw [hequal] at hlock
  have himp (a : TcpConnectionTo) (hcounts : a.counts k true = true) : a.counts k false = true :=
    decide_eq_true ⟨TcpConnectionTo.counts_online hcounts, nofun⟩
  have hcounts : conTo.counts k false = true := decide_eq_true ⟨honline, nofun⟩
  have hall := countP_eq_imp himp (hlock.symm.trans hsleep) (mem_of_getElem? (getConnection_eq_some.mp hconn).1) hcounts
  exact (of_decide_eq_true hall : _ ∧ (true = true → conTo.status = .sleeping)).2 rfl

section

variable (hget : tcpC.getTcpConnection k = some tcpCon)
include hget

/-- A killed relay is not found. -/
theorem getTcpConnection_kill : (tcpC.killTcpRelayConnection k).2.getTcpConnection k = none := by
  obtain ⟨next, hnext, -, hrelays, -⟩ := dropOnion_mapped tcpC tcpCon fun conTo => (rm_fields conTo k).1
  rw [TcpConnections.killTcpRelayConnection, hget]
  simp only [hnext]
  rw [getTcpConnection_wipe ((congrFun hrelays k).trans hget), update_self]

/-- A relay that was reset is found. -/
theorem getTcpConnection_reset (hlive : tcpCon'.status ≠ .none) :
    (((tcpC.clearStatuses k).dropOnion tcpCon).setTcpConnection k tcpCon').getTcpConnection k = some tcpCon' := by
  obtain ⟨next, hnext, -, hrelays, -⟩ := dropOnion_mapped tcpC tcpCon fun conTo => (clear_fields conTo k).1
  rw [clearStatuses, hnext]
  exact getTcpConnection_set_self tcpCon' ((congrFun hrelays k).trans hget) hlive

/-- A relay that reconnects is not put to sleep. -/
theorem reconnect_awake {connects : Bool} (hawake : tcpCon.status ≠ .sleeping)
    (hafter : (tcpC.reconnectTcpRelayConnection connects k).2.getTcpConnection k = some tcpCon') :
    tcpCon'.status ≠ .sleeping := by
  unfold TcpConnections.reconnectTcpRelayConnection at hafter
  rw [hget] at hafter
  dsimp only at hafter
  split at hafter
  · obtain rfl := some_inj.mp (hget.symm.trans hafter)
    exact hawake
  · obtain rfl := some_inj.mp (hget.symm.trans hafter)
    exact hawake
  · have hlive := (getTcpConnection_eq_some.mp hget).2
    split at hafter
    · have hwritten := getTcpConnection_set_self { tcpCon with connection := none } hget hlive
      nomatch (getTcpConnection_kill hwritten).symm.trans hafter
    · rename_i connection _
      obtain rfl := some_inj.mp ((getTcpConnection_reset hget (by nofun)).symm.trans hafter)
      nofun

/-- A relay that does not sleep is not woken up. -/
theorem wakeRelay_awake (hawake : tcpCon.status ≠ .sleeping) : tcpC.wakeRelay env k = tcpC := by
  rw [TcpConnections.wakeRelay, hget]
  exact if_neg fun hboth => hawake hboth.1

end

/-- Coming online leaves the connections as they are, and the relay awake. -/
theorem comesOnline_views (env : TcpConnEnv) (confirmed : Bool) (hget : tcpC.getTcpConnection k = some tcpCon)
    (hawake : tcpCon.status ≠ .sleeping) :
    (if tcpCon.status = .valid ∧ confirmed then tcpC.tcpRelayOnOnline env k else tcpC).getConnection =
      tcpC.getConnection ∧
      ∃ t, (if tcpCon.status = .valid ∧ confirmed then tcpC.tcpRelayOnOnline env k else tcpC).getTcpConnection k =
        some t ∧
        t.status ≠ .sleeping := by
  split
  · obtain ⟨connection, time, heq, -⟩ := tcpRelayOnOnline_eq env hget
    rw [heq]
    exact ⟨rfl, _, getTcpConnection_set_self _ hget (by nofun), nofun⟩
  · exact ⟨rfl, tcpCon, hget, hawake⟩

/-- A relay that is not sleeping is put to sleep by the tick only where every connection that is online through it
sleeps. -/
theorem Counted.asleep_after (h : tcpC.Counted) (hs : tcpC.Sound) {confirmed disconnected : Bool}
    (hget : tcpC.getTcpConnection k = some tcpCon) (hawake : tcpCon.status ≠ .sleeping)
    (hafter : (tcpC.afterTcpConnection env confirmed disconnected k).getTcpConnection k = some tcpCon')
    (hasleep : tcpCon'.status = .sleeping) (hconn : tcpC.getConnection n = some conTo)
    (honline : conTo.onlineOn k = true) : conTo.status = .sleeping := by
  unfold TcpConnections.afterTcpConnection at hafter
  rw [hget] at hafter
  dsimp only at hafter
  split at hafter
  · rename_i hsleeping
    exact absurd hsleeping hawake
  · obtain rfl := some_inj.mp (hget.symm.trans hafter)
    exact absurd hasleep hawake
  · split at hafter
    · split at hafter
      · exact absurd hasleep (reconnect_awake hget hawake hafter)
      · nomatch (getTcpConnection_kill hget).symm.trans hafter
    · obtain ⟨-, hcounted⟩ := counted_keptByRelays.comesOnline ⟨hs, h⟩ env confirmed hget
      obtain ⟨hconns, t, ht, hstill⟩ := comesOnline_views env confirmed hget hawake
      unfold TcpConnections.serveRelay at hafter
      dsimp only at hafter
      generalize (if tcpCon.status = .valid ∧ confirmed then tcpC.tcpRelayOnOnline env k else tcpC) =
        served at hafter hcounted ht hconns
      rw [ht] at hafter
      dsimp only at hafter
      by_cases hunneeded : unneeded env t = true
      · have hcond : t.status = .connected ∧ t.onion = false ∧ t.lockCount ≠ 0 ∧ t.lockCount = t.sleepCount ∧ _ :=
          of_decide_eq_true hunneeded
        exact hcounted.all_asleep ht hcond.2.2.2.1 ((congrFun hconns n).trans hconn) honline
      · rw [if_neg hunneeded, wakeRelay_awake ht hstill] at hafter
        obtain rfl := some_inj.mp (ht.symm.trans hafter)
        exact absurd hasleep hstill

/-- A relay is killed as unused only where no connection is online through it. -/
theorem Counted.none_killed (h : tcpC.Counted) (hkill : k ∈ tcpC.toKill env)
    (hconn : tcpC.getConnection n = some conTo) : ¬conTo.onlineOn k = true := by
  intro honline
  have hmem := mem_filter.mp (mem_of_mem_take hkill)
  cases hget : tcpC.getTcpConnection k with
  | none =>
    rw [hget] at hmem
    exact Bool.false_ne_true hmem.2
  | some tcpCon =>
    rw [hget] at hmem
    have hnonused : tcpCon.status = .connected ∧ tcpCon.onion = false ∧ tcpCon.lockCount = 0 ∧
      _ := of_decide_eq_true hmem.2
    have hcounts : conTo.counts k false = true := decide_eq_true ⟨honline, nofun⟩
    have hpos := h.pos hget hconn hcounts
    have hzero : tcpCon.counter false = 0 := hnonused.2.2.1
    rw [hzero] at hpos
    nomatch hpos

/-- While no event unbalances them, the counters of every relay are the number of connections that are online through
it and the number of those that sleep, in every state that is reached. A relay is then put to sleep only where every
connection that is online through it sleeps, and killed as unused only where there is none. -/
theorem counters_hold (events : List TcpConnEvent) (hbalanced : new.Balanced events) :
    (∀ k t, (new.run events).getTcpConnection k = some t →
      t.lockCount.toNat = (new.run events).connections.countP (fun a => a.onlineOn k) ∧
        t.sleepCount.toNat = (new.run events).connections.countP fun a => a.onlineOn k ∧ a.status = .sleeping) ∧
    (∀ env confirmed disconnected k t t', (new.run events).getTcpConnection k = some t → t.status ≠ .sleeping →
      ((new.run events).afterTcpConnection env confirmed disconnected k).getTcpConnection k = some t' →
        t'.status = .sleeping →
      ∀ n a, (new.run events).getConnection n = some a → a.onlineOn k → a.status = .sleeping) ∧
    ∀ env, ∀ k ∈ (new.run events).toKill env, ∀ n a, (new.run events).getConnection n = some a → ¬a.onlineOn k := by
  have hs := sound_new.run events
  have h := counted_new.run sound_new events hbalanced
  refine ⟨fun k t ht => ⟨?_, ?_⟩, fun env confirmed disconnected k t t' ht hawake hafter hasleep n a hconn honline =>
    h.asleep_after hs ht hawake hafter hasleep hconn honline, fun env k hkill n a hconn => h.none_killed hkill hconn⟩
  · refine (h.counter k t ht false).trans (countP_congr fun a _ => ?_)
    exact ⟨TcpConnectionTo.counts_online, fun honline => decide_eq_true ⟨honline, nofun⟩⟩
  · refine (h.counter k t ht true).trans (countP_congr fun a _ => ?_)
    rw [TcpConnectionTo.counts, decide_eq_true_eq, decide_eq_true_eq]
    exact and_congr_right fun _ => ⟨fun hsleeping => hsleeping rfl, fun hsleeping _ => hsleeping⟩

/-- That a peer has come does not unbalance the counters. -/
theorem balanced_come (tcpC : TcpConnections) (k : ℕ) (second : UInt8) :
    ¬tcpC.Unbalanced (.receive k [tcpPacketConnectionNotification, second]) := by
  intro h
  generalize hevent : TcpConnEvent.receive k [tcpPacketConnectionNotification, second] = event at h
  cases h with
  | wake => nomatch hevent
  | answer =>
    injection hevent with _ hdata
    injection hdata with hkind _
    exact absurd hkind (by decide)
  | gone =>
    injection hevent with _ hdata
    injection hdata with hkind _
    exact absurd hkind (by decide)

/-- An answer does not unbalance the counters where no connection is online through the relay. -/
theorem balanced_answer (hoffline : ∀ a ∈ tcpC.connections, a.onlineOn k = false) (second : UInt8) (rest : Bytes) :
    ¬tcpC.Unbalanced (.receive k (tcpPacketRoutingResponse :: second :: rest)) := by
  intro h
  generalize hevent : TcpConnEvent.receive k (tcpPacketRoutingResponse :: second :: rest) = event at h
  cases h with
  | wake => nomatch hevent
  | answer _ _ _ _ _ _ _ _ hconn honline =>
    injection hevent with hrelay _
    subst hrelay
    exact absurd honline (Bool.eq_false_iff.mp (hoffline _ (mem_of_getElem? (getConnection_eq_some.mp hconn).1)))
  | gone =>
    injection hevent with _ hdata
    injection hdata with hkind _
    exact absurd hkind (by decide)

/-- One connection comes online through one relay and goes to sleep. -/
def sleepEvents : List TcpConnEvent :=
  let env : TcpConnEnv := ⟨0, true, true, fun _ => true⟩
  let peer : Bytes := List.replicate 32 1
  [.addTcpRelayGlobal env ⟨⟨afInet, slice 7 [] 0, slice 16 [] 0⟩, 0, slice 6 [] 0⟩ (slice 32 [2] 0),
    .newTcpConnectionTo env (slice 32 peer 0) 5, .afterTcpConnection env true false 0,
      .addTcpNumberRelayConnection env 0 0,
    .receive 0 (tcpPacketRoutingResponse :: 16 :: peer), .receive 0 [tcpPacketConnectionNotification, 16],
    .setTcpConnectionToStatus 0 false]

/-- The counters are right after it. -/
theorem counters_hold_sleep : new.Balanced sleepEvents ∧
    (∀ k t, (new.run sleepEvents).getTcpConnection k = some t →
      t.lockCount.toNat = (new.run sleepEvents).connections.countP (fun a => a.onlineOn k) ∧
        t.sleepCount.toNat = (new.run sleepEvents).connections.countP fun a => a.onlineOn k ∧
          a.status = .sleeping) := by
  have hbalanced : new.Balanced sleepEvents :=
    ⟨nofun, nofun, nofun, nofun, balanced_answer (by decide) 16 _, balanced_come _ 0 16, nofun, trivial⟩
  exact ⟨hbalanced, (counters_hold sleepEvents hbalanced).1⟩

/-- A connection that is online through a relay goes to sleep and wakes up, and the relay still counts it as asleep. -/
theorem waking_leaves_asleep : ¬∀ events k t, (new.run events).getTcpConnection k = some t → t.status = .connected →
    t.lockCount.toNat = (new.run events).connections.countP (fun a => a.onlineOn k) ∧
      t.sleepCount.toNat = (new.run events).connections.countP fun a => a.onlineOn k ∧ a.status = .sleeping := by
  intro h
  have hcounts := h (sleepEvents ++ [.setTcpConnectionToStatus 0 true]) 0 _ rfl (by decide)
  exact absurd hcounts.2 (by decide)

end TcpConnections

end Toxcore
