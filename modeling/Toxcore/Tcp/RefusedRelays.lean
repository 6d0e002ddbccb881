import Toxcore.Tcp.ConnectionTableRuns

/-!
# Relays that are refused

What `add_tcp_relay_connection` and `add_tcp_relay_global` leave behind where they return -1. A relay is made before
there is a place for it in the list of the connection, and it stays where there is none.
-/

namespace Toxcore

open ByteStrings TableView Function Option

namespace TcpConnections

variable (tcpC : TcpConnections)

/-- The live relays, but for the mark that a relay is to be woken up. -/
def relays (k : ℕ) : Option TcpCon := (tcpC.getTcpConnection k).map fun tcpCon => { tcpCon with unsleep := false }

/-- The live relays and the relay lists of all connections are the same. -/
structure SameRelays (next : TcpConnections) : Prop where
  relays : next.relays = tcpC.relays
  connections : next.connections = tcpC.connections

/-- The number that a new relay gets: the first free slot, or the end of the table. -/
def freeRelay : ℕ := (tcpC.tcpConnections.findIdx? fun tcpCon => tcpCon.status = .none).getD tcpC.tcpConnections.length

/-- A new relay can be made: its address has a family that is known, there is a slot, and there are a socket and
memory. -/
structure MakesRelay (env : TcpConnEnv) (ipPort : IpPort) : Prop where
  family : ipPort.ip.family ∈ [afInet, afInet6, tcpInet, tcpInet6]
  room : tcpC.freeRelay < tcpC.tcpConnections.length ∨ env.alloc ∧ tcpC.tcpConnections.length + 1 < 2 ^ 32
  connects : env.connects

/-- A new relay is made for a connection and not added to its list, which is full or names the number of the new
relay. -/
structure Abandons (env : TcpConnEnv) (n : ℕ) (ipPort : IpPort) (relayPk : PublicKey) : Prop where
  makes : tcpC.MakesRelay env ipPort
  unknown : tcpC.findTcpConnectionRelay relayPk = none
  refused : ∃ conTo, tcpC.getConnection n = some conTo ∧
    conTo.onlineTcpConnectionFromConn < recommendedFriendTcpConnections ∧
    (conTo.tcpConnectionInConn tcpC.freeRelay ∨ ∀ i, (conTo.connections i).tcpConnection ≠ none)

variable {tcpC} {env : TcpConnEnv} {next : TcpConnections} {k : ℕ}

theorem SameRelays.refl (tcpC : TcpConnections) : tcpC.SameRelays tcpC := ⟨rfl, rfl⟩

/-! ## Making a relay -/

/-- A slot is created where there is room, and it is the first free one. -/
theorem createTcpConnection_free (hcreate : tcpC.createTcpConnection env = (some k, next)) :
    k = tcpC.freeRelay ∧
      (tcpC.freeRelay < tcpC.tcpConnections.length ∨ env.alloc ∧ tcpC.tcpConnections.length + 1 < 2 ^ 32) ∧
      next.getTcpConnection = tcpC.getTcpConnection ∧ next.connections = tcpC.connections ∧
        ∃ old, next.tcpConnections[k]? = some old ∧ old.status = .none := by
  unfold createTcpConnection at hcreate
  unfold freeRelay
  cases hfind : tcpC.tcpConnections.findIdx? fun tcpCon => tcpCon.status = .none with
  | some i =>
    rw [hfind] at hcreate
    obtain ⟨hi, rfl⟩ := Prod.mk.inj hcreate
    obtain rfl := some_inj.mp hi
    obtain ⟨hlt, hfree, -⟩ := List.findIdx?_eq_some_iff_getElem.mp hfind
    exact ⟨rfl, .inl hlt, rfl, rfl, _, List.getElem?_eq_getElem hlt, of_decide_eq_true hfree⟩
  | none =>
    rw [hfind] at hcreate
    dsimp only at hcreate
    split at hcreate
    · rename_i hroom
      obtain ⟨hi, rfl⟩ := Prod.mk.inj hcreate
      obtain rfl := some_inj.mp hi
      refine ⟨rfl, .inr hroom, ?_, rfl, .zero, List.getElem?_concat_length, rfl⟩
      unfold getTcpConnection
      exact view_concat rfl
    · nomatch (Prod.mk.inj hcreate).1

/-- Where no slot is created, there is no room. -/
theorem createTcpConnection_full (hcreate : tcpC.createTcpConnection env = (none, next)) :
    ¬(tcpC.freeRelay < tcpC.tcpConnections.length ∨ env.alloc ∧ tcpC.tcpConnections.length + 1 < 2 ^ 32) := by
  unfold createTcpConnection at hcreate
  unfold freeRelay
  cases hfind : tcpC.tcpConnections.findIdx? fun tcpCon => tcpCon.status = .none with
  | some i =>
    rw [hfind] at hcreate
    nomatch (Prod.mk.inj hcreate).1
  | none =>
    rw [hfind] at hcreate
    dsimp only at hcreate
    split at hcreate
    · nomatch (Prod.mk.inj hcreate).1
    · rename_i hfull
      rintro (hlt | hroom)
      · exact lt_irrefl _ hlt
      · exact hfull hroom

/-- A family is one of the internet, once the families of TCP relays are translated. -/
theorem relayFamily_iff (family : UInt8) :
    family ∈ [afInet, afInet6, tcpInet, tcpInet6] ↔
      ¬((if family = tcpInet then afInet else if family = tcpInet6 then afInet6 else family) ≠ afInet ∧
        (if family = tcpInet then afInet else if family = tcpInet6 then afInet6 else family) ≠ afInet6) := by
  split
  · rename_i heq
    simp [heq]
  · split
    · rename_i heq
      simp [heq]
    · rename_i hne hne6
      simp [hne, hne6]
      tauto

/-- A relay is made as a live one where there was none, or nothing that shows has changed. -/
theorem addTcpRelayInstance_made {ipPort : IpPort} {relayPk : PublicKey} {added : Option ℕ}
    (hadd : tcpC.addTcpRelayInstance env ipPort relayPk = (added, next)) : next.connections = tcpC.connections ∧
      (¬tcpC.MakesRelay env ipPort ∧ added = none ∧ next.getTcpConnection = tcpC.getTcpConnection ∨
        tcpC.MakesRelay env ipPort ∧ added = some tcpC.freeRelay ∧ tcpC.getTcpConnection tcpC.freeRelay = none ∧
          (next.getTcpConnection tcpC.freeRelay).isSome) := by
  have hfamily := relayFamily_iff ipPort.ip.family
  unfold addTcpRelayInstance at hadd
  dsimp only at hadd
  generalize (if ipPort.ip.family = tcpInet then afInet
    else if ipPort.ip.family = tcpInet6 then afInet6 else ipPort.ip.family) = family at hadd hfamily
  split at hadd
  · rename_i hunknown
    obtain ⟨rfl, rfl⟩ := Prod.mk.inj hadd
    exact ⟨rfl, .inl ⟨fun h => hfamily.mp h.family hunknown, rfl, rfl⟩⟩
  · rename_i hknown
    generalize hcreate : tcpC.createTcpConnection env = created at hadd
    obtain ⟨_ | k, made⟩ := created
    · obtain ⟨rfl, rfl⟩ := Prod.mk.inj hadd
      rw [createTcpConnection_none hcreate]
      exact ⟨rfl, .inl ⟨fun h => createTcpConnection_full hcreate h.room, rfl, rfl⟩⟩
    · obtain ⟨rfl, hroom, hview, hconns, old, hold, hfree⟩ := createTcpConnection_free hcreate
      have hnone : TcpCon.live? old = none := if_pos hfree
      have hbefore : tcpC.getTcpConnection tcpC.freeRelay = none := by
        rw [← hview]
        exact (view_get hold).trans hnone
      unfold TcpClientConnection.new at hadd
      rw [if_neg hknown] at hadd
      dsimp only at hadd
      cases hconnects : env.connects with
      | false =>
        rw [hconnects] at hadd
        obtain ⟨rfl, rfl⟩ := Prod.mk.inj hadd
        refine ⟨hconns, .inl ⟨fun h => Bool.false_ne_true (hconnects.symm.trans h.connects), rfl, ?_⟩⟩
        rw [← hview]
        unfold getTcpConnection
        dsimp only
        rw [view_modify hold, show TcpCon.live? { old with connection := none } = none from if_pos hfree, ← hnone,
          ← view_get (f := TcpCon.live?) hold, update_eq_self]
      | true =>
        rw [hconnects] at hadd
        obtain ⟨rfl, rfl⟩ := Prod.mk.inj hadd
        refine ⟨hconns, .inr ⟨⟨hfamily.mpr hknown, hroom, hconnects⟩, rfl, hbefore, ?_⟩⟩
        unfold getTcpConnection
        dsimp only
        rw [view_modify hold, update_self]
        rfl

/-! ## Adding a relay -/

/-- A relay is not added to a list that names it or is full. -/
theorem addTcpConnectionToConn_none_iff {conTo : TcpConnectionTo} : conTo.addTcpConnectionToConn k = none ↔
    (conTo.tcpConnectionInConn k ∨ ∀ i, (conTo.connections i).tcpConnection ≠ none) := by
  rw [TcpConnectionTo.addTcpConnectionToConn]
  split
  · rename_i hnamed
    exact ⟨fun _ => .inl hnamed, fun _ => rfl⟩
  · rename_i hnew
    rw [map_eq_none_iff, List.find?_eq_none]
    constructor
    · exact fun hfull => .inr fun i hi => hfull i (List.mem_finRange i) (decide_eq_true hi)
    · rintro (hnamed | hfull) i - hi
      · exact hnew hnamed
      · exact hfull i (of_decide_eq_true hi)

/-- A live relay that is refused is at most marked to be woken up. -/
theorem addTcpNumberRelayConnection_traceless (tcpC : TcpConnections) (env : TcpConnEnv) (n k : ℕ)
    (hrefused : (tcpC.addTcpNumberRelayConnection env n k).1 = false) :
    tcpC.SameRelays (tcpC.addTcpNumberRelayConnection env n k).2 := by
  unfold addTcpNumberRelayConnection at hrefused ⊢
  split at hrefused
  · rename_i conTo tcpCon hconTo htcpCon
    have hlive := (getTcpConnection_eq_some.mp htcpCon).2
    dsimp only at hrefused ⊢
    generalize hmarked : (if conTo.status ≠ .sleeping ∧ tcpCon.status = .sleeping then { tcpCon with unsleep := true }
      else tcpCon) = marked at hrefused ⊢
    have hsame : { marked with unsleep := false } = { tcpCon with unsleep := false } ∧ marked.status ≠ .none := by
      subst hmarked
      split
      · exact ⟨rfl, hlive⟩
      · exact ⟨rfl, hlive⟩
    cases hadd : conTo.addTcpConnectionToConn k with
    | none =>
      refine ⟨?_, rfl⟩
      funext l
      unfold relays
      rw [getTcpConnection_set htcpCon hsame.2]
      by_cases hl : l = k
      · subst hl
        rw [update_self, htcpCon, map_some, map_some, hsame.1]
      · rw [update_of_ne hl]
    | some conTo' =>
      rw [hadd] at hrefused
      dsimp only at hrefused
      split at hrefused
      · split at hrefused <;> contradiction
      · contradiction
  · exact .refl tcpC

/-- A relay that is refused for a connection leaves no trace, unless one was made. -/
theorem addTcpRelayConnection_traceless_iff (tcpC : TcpConnections) (env : TcpConnEnv) (n : ℕ) (ipPort : IpPort)
    (relayPk : PublicKey) :
    ((tcpC.addTcpRelayConnection env n ipPort relayPk).1 = false →
      tcpC.SameRelays (tcpC.addTcpRelayConnection env n ipPort relayPk).2) ↔ ¬tcpC.Abandons env n ipPort relayPk := by
  unfold addTcpRelayConnection
  cases hconTo : tcpC.getConnection n with
  | none =>
    refine iff_of_true (fun _ => .refl tcpC) fun habandons => ?_
    obtain ⟨conTo, hget, -⟩ := habandons.refused
    nomatch hconTo.symm.trans hget
  | some conTo =>
    cases hfind : tcpC.findTcpConnectionRelay relayPk with
    | some k =>
      refine iff_of_true (addTcpNumberRelayConnection_traceless tcpC env n k) fun habandons => ?_
      nomatch hfind.symm.trans habandons.unknown
    | none =>
      dsimp only
      by_cases honline : conTo.onlineTcpConnectionFromConn ≥ recommendedFriendTcpConnections
      · rw [if_pos honline]
        refine iff_of_true (fun _ => .refl tcpC) fun habandons => ?_
        obtain ⟨conTo', hget, hfew, -⟩ := habandons.refused
        obtain rfl := some_inj.mp (hconTo.symm.trans hget)
        exact Nat.not_lt.mpr honline hfew
      · rw [if_neg honline]
        generalize hadd : tcpC.addTcpRelayInstance env ipPort relayPk = made
        obtain ⟨added, next⟩ := made
        obtain ⟨hconns, ⟨hmakes, rfl, hview⟩ | ⟨hmakes, rfl, hbefore, hafter⟩⟩ := addTcpRelayInstance_made hadd
        · refine iff_of_true (fun _ => ⟨?_, hconns⟩) fun habandons => hmakes habandons.makes
          funext k
          rw [relays, relays, hview]
        · dsimp only
          cases hslot : conTo.addTcpConnectionToConn tcpC.freeRelay with
          | some conTo' =>
            refine iff_of_true nofun fun habandons => ?_
            obtain ⟨conTo', hget, -, hfull⟩ := habandons.refused
            obtain rfl := some_inj.mp (hconTo.symm.trans hget)
            rw [addTcpConnectionToConn_none_iff.mpr hfull] at hslot
            contradiction
          | none =>
            refine iff_of_false (fun htraceless => ?_) (not_not.mpr
              ⟨hmakes, hfind, conTo, hconTo, Nat.not_le.mp honline, addTcpConnectionToConn_none_iff.mp hslot⟩)
            have hrelay := congrFun (htraceless rfl).relays tcpC.freeRelay
            unfold relays at hrelay
            obtain ⟨tcpCon, htcpCon⟩ := isSome_iff_exists.mp hafter
            rw [hbefore, htcpCon] at hrelay
            contradiction

/-- `add_tcp_relay_global` leaves no trace where it returns -1. -/
theorem addTcpRelayGlobal_traceless (tcpC : TcpConnections) (env : TcpConnEnv) (ipPort : IpPort) (relayPk : PublicKey)
    (hrefused : (tcpC.addTcpRelayGlobal env ipPort relayPk).1 = false) :
    tcpC.SameRelays (tcpC.addTcpRelayGlobal env ipPort relayPk).2 := by
  unfold addTcpRelayGlobal at hrefused ⊢
  cases hfind : tcpC.findTcpConnectionRelay relayPk with
  | some k => exact .refl tcpC
  | none =>
    rw [hfind] at hrefused
    dsimp only at hrefused ⊢
    generalize hadd : tcpC.addTcpRelayInstance env ipPort relayPk = made at hrefused ⊢
    obtain ⟨added, next⟩ := made
    obtain ⟨hconns, ⟨-, -, hview⟩ | ⟨-, rfl, -⟩⟩ := addTcpRelayInstance_made hadd
    · refine ⟨?_, hconns⟩
      funext k
      rw [relays, relays, hview]
    · contradiction

/-- A relay that is refused leaves no trace exactly where it was not made for a connection whose list has no place for
it. -/
theorem refused_relay_traceless_iff (tcpC : TcpConnections) (env : TcpConnEnv) (n : ℕ) (ipPort : IpPort)
    (relayPk : PublicKey) :
    (((tcpC.addTcpRelayConnection env n ipPort relayPk).1 = false →
        tcpC.SameRelays (tcpC.addTcpRelayConnection env n ipPort relayPk).2) ∧
      ((tcpC.addTcpRelayGlobal env ipPort relayPk).1 = false →
        tcpC.SameRelays (tcpC.addTcpRelayGlobal env ipPort relayPk).2)) ↔ ¬tcpC.Abandons env n ipPort relayPk :=
  (and_iff_left (addTcpRelayGlobal_traceless tcpC env ipPort relayPk)).trans
    (addTcpRelayConnection_traceless_iff tcpC env n ipPort relayPk)

/-- An address in the internet. -/
def relayAddress : IpPort := ⟨⟨afInet, slice 7 [] 0, slice 16 [8, 8, 8, 8] 0⟩, 443, slice 6 [] 0⟩

/-- A connection to the peer with the zero key, for which six relays are added. -/
def sixRelays (env : TcpConnEnv) (ipPort : IpPort) : TcpConnections :=
  new.run (.newTcpConnectionTo env (slice 32 [] 0) 0 ::
    (List.range maxFriendTcpConnections).map fun i => .addTcpRelayConnection env 0 ipPort (slice 32 [UInt8.ofNat i] 0))

/-- A seventh relay is refused for a connection that has six, and is live. -/
theorem seventh_relay_stays :
    ¬∀ (tcpC : TcpConnections) (env : TcpConnEnv) (n : ℕ) (ipPort : IpPort) (relayPk : PublicKey),
    (tcpC.addTcpRelayConnection env n ipPort relayPk).1 = false →
      tcpC.SameRelays (tcpC.addTcpRelayConnection env n ipPort relayPk).2 := by
  intro hall
  have hsame :=
    hall (sixRelays ⟨0, true, true, fun _ => true⟩ relayAddress) ⟨0, true, true, fun _ => true⟩ 0 relayAddress
    (slice 32 [6] 0) rfl
  have hrelay := congrArg Option.isSome (congrFun hsame.relays 6)
  exact absurd hrelay (by decide)

end TcpConnections

end Toxcore
