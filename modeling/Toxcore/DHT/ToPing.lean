import Mathlib.Data.List.Nodup
import Mathlib.Data.List.TakeWhile
import Toxcore.Data.CallResults
import Toxcore.DHT.Lists

/-!
# Nodes to ping

`add_to_ping` puts a new node into the list `to_ping`, and `do_to_ping` pings the nodes of the list and clears them.
Both take the first slot without an address for the end of the list. But `do_to_ping` leaves a node that cannot be
added to the close list where it is, also behind nodes that it clears.

Of `PING` only the list and its time are modelled; `send_ping_request` touches neither, and is recorded by the node it
is called with. A key for which `add_to_close` reads past the close list has no result.
-/

namespace Toxcore

open CallResults List Option

/-- `MAX_TO_PING`. -/
abbrev maxToPing : ℕ := 32

/-- `TIME_TO_PING`, in seconds. -/
def timeToPing : UInt64 := 2

/-- The list and the time of a `PING`. -/
structure Ping where
  toPing : List NodeFormat
  lastToPing : UInt64
  toPing_length : toPing.length = maxToPing

/-- `new_ping`. -/
def newPing : Ping := ⟨List.replicate maxToPing .zero, 0, length_replicate⟩

/-- `node_addable_to_close_list`. -/
def nodeAddableToCloseList (now : UInt64) (dht : Dht) (publicKey : PublicKey) (ipPort : IpPort) : Option Bool :=
  (addToClose now dht publicKey ipPort true).map Prod.fst

/-- `in_list`. -/
def inList {n : ℕ} (now : UInt64) (list : ClientList n) (publicKey : PublicKey) (ipPort : IpPort) : Bool :=
  (List.ofFn list).any fun client =>
    let ipptp := if ipPort.ip.family = afInet then client.assoc4 else client.assoc6
    client.publicKey = publicKey ∧ ¬isTimeout now ipptp.timestamp badNodeTimeout ∧ ipportEqual ipptp.ipPort ipPort

/-- The address of an entry that is not timed out. -/
def clientAddress (now : UInt64) (client : ClientData) : Option IpPort :=
  if ¬isTimeout now client.assoc6.timestamp badNodeTimeout then some client.assoc6.ipPort
  else if ¬isTimeout now client.assoc4.timestamp badNodeTimeout then some client.assoc4.ipPort
  else none

/-- `DHT_getfriendip`: nothing for -1, and nothing inside for 0. -/
def dhtGetfriendip (now : UInt64) (dht : Dht) (publicKey : PublicKey) : Option (Option IpPort) :=
  (dht.friendsList.find? fun friend => friend.publicKey = publicKey).map fun friend =>
    ((List.ofFn friend.clientList).filter fun client => client.publicKey = publicKey).findSome? (clientAddress now)

/-- The loop of `add_to_ping`: the return value 0 as `true`, and the list; nothing if no slot is empty and no key the
same. -/
def addToPingLoop (publicKey : PublicKey) (ipPort : IpPort) : List NodeFormat → Option (Bool × List NodeFormat)
  | [] => none
  | node :: rest =>
    if ¬ipIsset node.ipPort.ip then some (true, ⟨publicKey, ipPort⟩ :: rest)
    else if node.publicKey = publicKey then some (false, node :: rest)
    else (addToPingLoop publicKey ipPort rest).map fun (added, rest) => (added, node :: rest)

/-- The list after `add_to_ping` has come to its loop, and the return value. -/
def addNodeToPing (dht : Dht) (publicKey : PublicKey) (ipPort : IpPort)
    (toPing : List NodeFormat) : Bool × List NodeFormat :=
  (addToPingLoop publicKey ipPort toPing).getD (addToList toPing publicKey ipPort dht.selfPublicKey)

/-- The loop of `do_to_ping`: how many slots it examined, the nodes it pinged, and the list. -/
def doToPingLoop (now : UInt64) (dht : Dht) : List NodeFormat → Option (ℕ × List NodeFormat × List NodeFormat)
  | [] => some (0, [], [])
  | node :: rest =>
    if ¬ipIsset node.ipPort.ip then some (0, [], node :: rest)
    else
      (nodeAddableToCloseList now dht node.publicKey node.ipPort).bind fun addable =>
        (doToPingLoop now dht rest).map fun (examined, sent, rest) =>
          if addable then (examined + 1, node :: sent, { node with ipPort := { node.ipPort with ip := .zero } } :: rest)
          else (examined + 1, sent, node :: rest)

/-! ## The list keeps its length -/

variable {rest sent toPing : List NodeFormat} {dht : Dht} {examined : ℕ} {now : UInt64}

theorem addToPingLoop_length {publicKey : PublicKey} {ipPort : IpPort} {result : Bool × List NodeFormat}
    (h : addToPingLoop publicKey ipPort toPing = some result) : result.2.length = toPing.length := by
  induction toPing generalizing result with
  | nil => cases h
  | cons node rest ih =>
    rw [addToPingLoop] at h
    split at h
    · obtain rfl := some.inj h
      rfl
    · split at h
      · obtain rfl := some.inj h
        rfl
      · obtain ⟨inner, hinner, rfl⟩ := map_eq_some_iff.mp h
        exact congrArg (· + 1) (ih hinner)

theorem addNodeToPing_length (dht : Dht) (publicKey : PublicKey) (ipPort : IpPort) (toPing : List NodeFormat) :
    (addNodeToPing dht publicKey ipPort toPing).2.length = toPing.length := by
  rw [addNodeToPing]
  cases h : addToPingLoop publicKey ipPort toPing with
  | none =>
    rw [getD_none, addToList_eq]
    exact Closest.displace_length ..
  | some result => exact addToPingLoop_length h

theorem doToPingLoop_length (h : doToPingLoop now dht toPing = some (examined, sent, rest)) :
    rest.length = toPing.length := by
  induction toPing generalizing examined sent rest with
  | nil =>
    cases h
    rfl
  | cons node nodes ih =>
    rw [doToPingLoop] at h
    split at h
    · cases h
      rfl
    · obtain ⟨addable, -, h⟩ := bind_eq_some_iff.mp h
      obtain ⟨⟨examined', sent', rest'⟩, hinner, h⟩ := map_eq_some_iff.mp h
      have hlength := ih hinner
      dsimp only at h
      split at h <;> (cases h; exact congrArg (· + 1) hlength)

/-! ## Calls -/

/-- `add_to_ping`: the return value 0 as `true`, the nodes that were pinged, and the lists. -/
def addToPing (now : UInt64) (dht : Dht) (publicKey : PublicKey) (ipPort : IpPort) (ping : Ping) :
    Option (Bool × List NodeFormat × Ping) :=
  if ¬ipIsset ipPort.ip then some (false, [], ping)
  else
    (nodeAddableToCloseList now dht publicKey ipPort).map fun addable =>
      if addable = false then (false, [], ping)
      else if inList now dht.closeClientlist publicKey ipPort then (false, [], ping)
      else if dhtGetfriendip now dht publicKey = some none then (false, [⟨publicKey, ipPort⟩], ping)
      else
        let added := addNodeToPing dht publicKey ipPort ping.toPing
        (added.1, [], ⟨added.2, ping.lastToPing, (addNodeToPing_length ..).trans ping.toPing_length⟩)

/-- `do_to_ping`: how many slots were examined, the nodes that were pinged, and the lists. -/
def doToPing (now : UInt64) (dht : Dht) (ping : Ping) : Option (ℕ × List NodeFormat × Ping) :=
  if ¬isTimeout now ping.lastToPing timeToPing then some (0, [], ping)
  else
    match h : doToPingLoop now dht ping.toPing with
    | none => none
    | some (0, sent, _) => some (0, sent, ping)
    | some (examined + 1, sent, toPing) =>
      some (examined + 1, sent, ⟨toPing, now, (doToPingLoop_length h).trans ping.toPing_length⟩)

/-- A call, with the clock and the lists of the DHT at that time. -/
inductive ToPingCall where
  | add (now : UInt64) (dht : Dht) (publicKey : PublicKey) (ipPort : IpPort)
  | ping (now : UInt64) (dht : Dht)

/-- One call: whether it has a result, and the lists. -/
def Ping.step (ping : Ping) : ToPingCall → Bool × Ping
  | .add now dht publicKey ipPort =>
    match addToPing now dht publicKey ipPort ping with
    | none => (false, ping)
    | some (_, _, next) => (true, next)
  | .ping now dht =>
    match doToPing now dht ping with
    | none => (false, ping)
    | some (_, _, next) => (true, next)

/-! ## What is promised -/

/-- A slot with an address. -/
def isOccupied (node : NodeFormat) : Bool := ipIsset node.ipPort.ip

/-- The keys of the slots with an address. -/
def occupiedKeys (toPing : List NodeFormat) : List PublicKey := (toPing.filter isOccupied).map NodeFormat.publicKey

/-- The slots from the first one on that has no address. -/
def behindEmpty (toPing : List NodeFormat) : List NodeFormat := toPing.dropWhile isOccupied

namespace Ping

variable (ping : Ping)

/-- No key is in two slots with an address. -/
def Distinct : Prop := (occupiedKeys ping.toPing).Nodup

instance : Decidable ping.Distinct := inferInstanceAs (Decidable (List.Nodup _))

/-- `do_to_ping` examines every slot with an address if its time has come, leaves no node that can be added to the
close list, and loses no node that it does not ping. -/
def PingsAll : ToPingCall → Prop
  | .add .. => True
  | .ping now dht =>
    isTimeout now ping.lastToPing timeToPing = true →
      ∀ examined sent next, doToPing now dht ping = some (examined, sent, next) →
      (∀ node ∈ ping.toPing.drop examined, isOccupied node = false) ∧
        (∀ node ∈ next.toPing, isOccupied node = true →
          nodeAddableToCloseList now dht node.publicKey node.ipPort = some false) ∧
        ∀ node ∈ ping.toPing, isOccupied node = true → node ∈ sent ∨ node ∈ next.toPing

/-- What is promised of a call: it stays in the close list, the keys are different after it, and all nodes are
pinged. -/
def Promised (call : ToPingCall) : Prop := (ping.step call).1 = true ∧ (ping.step call).2.Distinct ∧ ping.PingsAll call

/-- A call that is handled as promised. It asks only for keys for which `add_to_close` stays in the close list; a node
that is added is not in a slot behind an empty one; and when all nodes are pinged, none is behind an empty slot. -/
def Careful : ToPingCall → Prop
  | .add now dht publicKey ipPort =>
    ipIsset ipPort.ip = true → nodeAddableToCloseList now dht publicKey ipPort ≠ none ∧
      (nodeAddableToCloseList now dht publicKey ipPort = some true →
        inList now dht.closeClientlist publicKey ipPort = false →
        dhtGetfriendip now dht publicKey ≠ some none →
        ∀ node ∈ behindEmpty ping.toPing, isOccupied node = true → node.publicKey ≠ publicKey)
  | .ping now dht =>
    isTimeout now ping.lastToPing timeToPing = true →
      (∀ node ∈ ping.toPing.takeWhile isOccupied, nodeAddableToCloseList now dht node.publicKey node.ipPort ≠ none) ∧
        ∀ node ∈ behindEmpty ping.toPing, isOccupied node = false

end Ping

/-! ## Adding a node -/

/-- The loop of `add_to_ping` comes to an empty slot, or to the key, or to the end. -/
theorem addToPingLoop_cases (publicKey : PublicKey) (ipPort : IpPort) (toPing : List NodeFormat) :
    (∃ front empty rest, toPing = front ++ empty :: rest ∧
      (∀ node ∈ front, isOccupied node = true ∧ node.publicKey ≠ publicKey) ∧
        isOccupied empty = false ∧
          addToPingLoop publicKey ipPort toPing = some (true, front ++ ⟨publicKey, ipPort⟩ :: rest)) ∨
      (∃ front node rest, toPing = front ++ node :: rest ∧ (∀ other ∈ front, isOccupied other = true) ∧
        isOccupied node = true ∧
        node.publicKey = publicKey ∧ addToPingLoop publicKey ipPort toPing = some (false, toPing)) ∨
      (∀ node ∈ toPing, isOccupied node = true ∧ node.publicKey ≠ publicKey) ∧
        addToPingLoop publicKey ipPort toPing = none := by
  induction toPing with
  | nil => exact .inr (.inr ⟨fun node hnode => absurd hnode not_mem_nil, rfl⟩)
  | cons node rest ih =>
    rw [addToPingLoop]
    by_cases hip : ipIsset node.ipPort.ip = true
    · rw [if_neg (not_not.mpr hip)]
      by_cases hkey : node.publicKey = publicKey
      · rw [if_pos hkey]
        exact .inr (.inl ⟨[], node, rest, rfl, fun other hother => absurd hother not_mem_nil, hip, hkey, rfl⟩)
      · rw [if_neg hkey]
        rcases ih with ⟨front, empty, rest, rfl, hfront, hempty, hloop⟩ | ⟨front, known, rest, rfl, hfront, hknown,
          hsame, hloop⟩ |
          ⟨hall, hloop⟩
        · refine .inl ⟨node :: front, empty, rest, rfl, forall_mem_cons.mpr ⟨⟨hip, hkey⟩, hfront⟩, hempty, ?_⟩
          rw [hloop]
          rfl
        · refine .inr (.inl ⟨node :: front, known, rest, rfl, forall_mem_cons.mpr ⟨hip, hfront⟩, hknown, hsame, ?_⟩)
          rw [hloop]
          rfl
        · refine .inr (.inr ⟨forall_mem_cons.mpr ⟨⟨hip, hkey⟩, hall⟩, ?_⟩)
          rw [hloop]
          rfl
    · rw [if_pos hip]
      exact .inl ⟨[], node, rest, rfl, fun other hother => absurd hother not_mem_nil, Bool.eq_false_iff.mpr hip, rfl⟩

/-- The keys of the slots with an address, one slot after the others. -/
theorem occupiedKeys_append (front : List NodeFormat) {node : NodeFormat} (hnode : isOccupied node = true)
    (rest : List NodeFormat) :
    occupiedKeys (front ++ node :: rest) = occupiedKeys front ++ node.publicKey :: occupiedKeys rest := by
  rw [occupiedKeys, filter_append, map_append, filter_cons_of_pos hnode, map_cons]
  rfl

/-- A key is in no slot with an address. -/
theorem not_mem_occupiedKeys {publicKey : PublicKey} :
    publicKey ∉ occupiedKeys toPing ↔ ∀ node ∈ toPing, isOccupied node = true → node.publicKey ≠ publicKey := by
  rw [occupiedKeys, List.mem_map]
  refine ⟨fun h node hnode hocc hkey => h ⟨node, mem_filter.mpr ⟨hnode, hocc⟩, hkey⟩, ?_⟩
  rintro h ⟨node, hnode, hkey⟩
  exact h node (mem_filter.mp hnode).1 (mem_filter.mp hnode).2 hkey

/-- A node is added without its key being there twice if and only if the key was not behind an empty slot. -/
theorem addNodeToPing_distinct (dht : Dht) (publicKey : PublicKey) {ipPort : IpPort} (hip : ipIsset ipPort.ip = true)
    (h : (occupiedKeys toPing).Nodup) : (occupiedKeys (addNodeToPing dht publicKey ipPort toPing).2).Nodup ↔
      ∀ node ∈ behindEmpty toPing, isOccupied node = true → node.publicKey ≠ publicKey := by
  have hnew : isOccupied ⟨publicKey, ipPort⟩ = true := hip
  rw [addNodeToPing]
  rcases addToPingLoop_cases publicKey ipPort toPing with ⟨front, empty, rest, rfl, hfront, hempty, hloop⟩ |
    ⟨front, known, rest, rfl, hfront, hknown, rfl, hloop⟩ | ⟨hall, hloop⟩
  · have hbehind : behindEmpty (front ++ empty :: rest) = empty :: rest := by
      rw [behindEmpty, dropWhile_append_of_pos fun node hnode => (hfront node hnode).1,
        dropWhile_cons_of_neg (by rw [hempty]; exact Bool.false_ne_true)]
    have hbefore : occupiedKeys (front ++ empty :: rest) = occupiedKeys front ++ occupiedKeys rest := by
      rw [occupiedKeys, filter_append, filter_cons_of_neg (by rw [hempty]; exact Bool.false_ne_true),
        map_append]
      rfl
    have hkey : publicKey ∉ occupiedKeys front := not_mem_occupiedKeys.mpr fun node hnode _ => (hfront node hnode).2
    rw [hloop, getD_some, occupiedKeys_append front hnew, nodup_middle, nodup_cons, ← hbefore,
      and_iff_left h, hbefore,
      mem_append, not_or, and_iff_right hkey, not_mem_occupiedKeys, hbehind, forall_mem_cons, and_iff_right]
    exact fun hno => absurd (hempty.symm.trans hno) Bool.false_ne_true
  · rw [hloop, getD_some]
    refine iff_of_true h fun node hnode hocc hkey => ?_
    have hrest : node ∈ rest := by
      rw [behindEmpty, dropWhile_append_of_pos hfront, dropWhile_cons_of_pos hknown] at hnode
      exact (dropWhile_suffix isOccupied).subset hnode
    rw [occupiedKeys_append front hknown, nodup_middle, nodup_cons, mem_append, not_or] at h
    exact not_mem_occupiedKeys.mp h.1.2 node hrest hocc hkey
  · rw [hloop, getD_none]
    have hbehind : behindEmpty toPing = [] := dropWhile_eq_nil_iff.mpr fun node hnode => (hall node hnode).1
    refine iff_of_true ?_ (by rw [hbehind]; exact fun node hnode => absurd hnode not_mem_nil)
    have hperm := Closest.displace_perm (nodeDistance dht.selfPublicKey) toPing ⟨publicKey, ipPort⟩
    rw [← addToList_eq] at hperm
    have hnodup : (occupiedKeys (⟨publicKey, ipPort⟩ :: toPing)).Nodup := by
      refine (occupiedKeys_append [] hnew toPing).symm ▸ nodup_cons.mpr
        ⟨not_mem_occupiedKeys.mpr fun node hnode _ => ?_, h⟩
      exact (hall node hnode).2
    have hwhole := (((hperm.filter isOccupied).map NodeFormat.publicKey).nodup_iff).mpr hnodup
    exact hwhole.sublist (((sublist_cons_self _ _).filter isOccupied).map NodeFormat.publicKey)

/-! ## Pinging the nodes -/

/-- The loop of `do_to_ping` examines the slots before the first empty one, clears those whose nodes can be added to
the close list, and leaves the others. -/
theorem doToPingLoop_spec (h : doToPingLoop now dht toPing = some (examined, sent, rest)) :
    examined = (toPing.takeWhile isOccupied).length ∧ (occupiedKeys rest).Sublist (occupiedKeys toPing) ∧
      (∀ node ∈ rest, isOccupied node = true →
        nodeAddableToCloseList now dht node.publicKey node.ipPort = some false ∨ node ∈ behindEmpty toPing) ∧
      ∀ node ∈ toPing, isOccupied node = true → node ∈ sent ∨ node ∈ rest := by
  induction toPing generalizing examined sent rest with
  | nil =>
    cases h
    exact ⟨rfl, .refl _, fun node hnode => absurd hnode not_mem_nil, fun node hnode => absurd hnode not_mem_nil⟩
  | cons node nodes ih =>
    rw [doToPingLoop] at h
    by_cases hip : ipIsset node.ipPort.ip = true
    · rw [if_neg (not_not.mpr hip)] at h
      change isOccupied node = true at hip
      obtain ⟨addable, haddable, h⟩ := bind_eq_some_iff.mp h
      obtain ⟨⟨examined', sent', rest'⟩, hinner, h⟩ := map_eq_some_iff.mp h
      obtain ⟨hexamined, hkeys, hleft, hkept⟩ := ih hinner
      have htake : ((node :: nodes).takeWhile isOccupied).length = examined' + 1 := by
        rw [takeWhile_cons_of_pos hip, length_cons, hexamined]
      have hbehind : behindEmpty (node :: nodes) = behindEmpty nodes := dropWhile_cons_of_pos hip
      have hbefore : occupiedKeys (node :: nodes) = node.publicKey :: occupiedKeys nodes :=
        occupiedKeys_append [] hip nodes
      rw [htake, hbehind, hbefore]
      cases addable with
      | true =>
        cases h
        have hcleared : isOccupied { node with ipPort := { node.ipPort with ip := .zero } } = false := rfl
        refine ⟨rfl, ?_, forall_mem_cons.mpr ⟨fun hno => absurd (hcleared.symm.trans hno) Bool.false_ne_true, hleft⟩,
          forall_mem_cons.mpr ⟨fun _ => .inl mem_cons_self, fun other hother hocc => ?_⟩⟩
        · exact hkeys.trans (sublist_cons_self _ _)
        · exact (hkept other hother hocc).imp (mem_cons_of_mem _) (mem_cons_of_mem _)
      | false =>
        cases h
        refine ⟨rfl, ?_, forall_mem_cons.mpr ⟨fun _ => .inl haddable, hleft⟩,
          forall_mem_cons.mpr ⟨fun _ => .inr mem_cons_self, fun other hother hocc => ?_⟩⟩
        · exact (occupiedKeys_append [] hip rest').symm ▸ hkeys.cons_cons _
        · exact (hkept other hother hocc).imp_right (mem_cons_of_mem _)
    · rw [if_pos hip] at h
      cases h
      change ¬isOccupied node = true at hip
      have hbehind : behindEmpty (node :: nodes) = node :: nodes := dropWhile_cons_of_neg hip
      rw [takeWhile_cons_of_neg hip, hbehind]
      exact ⟨rfl, .refl _, fun other hother _ => .inr hother, fun other hother _ => .inr hother⟩

/-- The loop of `do_to_ping` has a result if `add_to_close` stays in the close list. -/
theorem doToPingLoop_isSome (now : UInt64) (dht : Dht) (toPing : List NodeFormat) : doToPingLoop now dht toPing ≠ none ↔
    ∀ node ∈ toPing.takeWhile isOccupied, nodeAddableToCloseList now dht node.publicKey node.ipPort ≠ none := by
  induction toPing with
  | nil => exact iff_of_true nofun fun node hnode => absurd hnode not_mem_nil
  | cons node nodes ih =>
    rw [doToPingLoop]
    by_cases hip : ipIsset node.ipPort.ip = true
    · have hocc : isOccupied node = true := hip
      rw [if_neg (not_not.mpr hip), takeWhile_cons_of_pos hocc, forall_mem_cons, ← ih]
      cases nodeAddableToCloseList now dht node.publicKey node.ipPort with
      | none => exact iff_of_false (absurd rfl) fun hno => hno.1 rfl
      | some addable =>
        rw [bind_some, ne_eq, map_eq_none_iff]
        exact (and_iff_right nofun).symm
    · have hocc : ¬isOccupied node = true := hip
      rw [if_pos hip, takeWhile_cons_of_neg hocc]
      exact iff_of_true nofun fun node hnode => absurd hnode not_mem_nil

/-- Where no slot is examined, the list stays. -/
theorem doToPingLoop_zero (h : doToPingLoop now dht toPing = some (0, sent, rest)) : rest = toPing := by
  cases toPing with
  | nil =>
    cases h
    rfl
  | cons node nodes =>
    rw [doToPingLoop] at h
    split at h
    · cases h
      rfl
    · obtain ⟨addable, -, h⟩ := bind_eq_some_iff.mp h
      obtain ⟨⟨examined', sent', rest'⟩, -, h⟩ := map_eq_some_iff.mp h
      cases addable <;> cases h

/-- `do_to_ping` leaves what its loop leaves. -/
theorem doToPing_eq {ping : Ping} (helapsed : isTimeout now ping.lastToPing timeToPing = true)
    (h : doToPingLoop now dht ping.toPing = some (examined, sent, rest)) :
    ∃ next, doToPing now dht ping = some (examined, sent, next) ∧ next.toPing = rest := by
  rw [doToPing, if_neg (not_not.mpr helapsed)]
  split
  · rename_i hnone
    exact absurd (hnone.symm.trans h) nofun
  · rename_i hzero
    rw [h] at hzero
    cases hzero
    exact ⟨ping, rfl, (doToPingLoop_zero h).symm⟩
  · rename_i hsome
    rw [h] at hsome
    cases hsome
    exact ⟨_, rfl, rfl⟩

/-! ## Every order of calls -/

namespace Ping

variable {ping : Ping}

/-- Adding a node. -/
theorem add_promised (h : ping.Distinct) (now : UInt64) (dht : Dht) (publicKey : PublicKey) (ipPort : IpPort) :
    ping.Promised (.add now dht publicKey ipPort) ↔ ping.Careful (.add now dht publicKey ipPort) := by
  have hstays (hstep : ping.step (.add now dht publicKey ipPort) = (true, ping)) :
    ping.Promised (.add now dht publicKey ipPort) := by
    rw [Promised, hstep]
    exact ⟨rfl, h, trivial⟩
  by_cases hip : ipIsset ipPort.ip = true
  · cases haddable : nodeAddableToCloseList now dht publicKey ipPort with
    | none =>
      refine iff_of_false (fun hno => ?_) fun hno => (hno hip).1 haddable
      have hresult := hno.1
      rw [step, addToPing, if_neg (not_not.mpr hip), haddable] at hresult
      cases hresult
    | some addable =>
      have hcareful : ping.Careful (.add now dht publicKey ipPort) ↔
        (addable = true → inList now dht.closeClientlist publicKey ipPort = false →
          dhtGetfriendip now dht publicKey ≠ some none → ∀ node ∈ behindEmpty ping.toPing, isOccupied node = true →
          node.publicKey ≠ publicKey) := by
        rw [Careful, haddable]
        refine ⟨fun hall haddable => (hall hip).2 (congrArg some haddable), fun hall _ =>
          ⟨nofun, fun hsome => hall (some.inj hsome)⟩⟩
      have hstep : ping.step (.add now dht publicKey ipPort) = (true, if addable = false then ping
          else if inList now dht.closeClientlist publicKey ipPort then ping
          else if dhtGetfriendip now dht publicKey = some none then ping
          else ⟨(addNodeToPing dht publicKey ipPort ping.toPing).2, ping.lastToPing,
            (addNodeToPing_length ..).trans ping.toPing_length⟩) := by
        rw [step, addToPing, if_neg (not_not.mpr hip), haddable, map_some]
        split_ifs <;> rfl
      rw [hcareful]
      by_cases hno : addable = false
      · rw [if_pos hno] at hstep
        exact iff_of_true (hstays hstep) fun hyes => absurd (hno.symm.trans hyes) Bool.false_ne_true
      rw [if_neg hno] at hstep
      by_cases hin : inList now dht.closeClientlist publicKey ipPort = true
      · rw [if_pos hin] at hstep
        exact iff_of_true (hstays hstep) fun _ hnot => absurd (hin.symm.trans hnot) Bool.true_eq_false.mp
      rw [if_neg hin] at hstep
      by_cases hfriend : dhtGetfriendip now dht publicKey = some none
      · rw [if_pos hfriend] at hstep
        exact iff_of_true (hstays hstep) fun _ _ hnot => absurd hfriend hnot
      rw [if_neg hfriend] at hstep
      rw [Promised, hstep]
      refine Iff.trans ?_ ((addNodeToPing_distinct dht publicKey hip h).trans ?_)
      · exact ⟨fun hall => hall.2.1, fun hdistinct => ⟨rfl, hdistinct, trivial⟩⟩
      · exact ⟨fun hall _ _ _ => hall, fun hall =>
          hall (Bool.eq_true_of_not_eq_false hno) (Bool.eq_false_iff.mpr hin) hfriend⟩
  · have hstep : ping.step (.add now dht publicKey ipPort) = (true, ping) := by
      rw [step, addToPing, if_pos hip]
    exact iff_of_true (hstays hstep) fun hno => absurd hno hip

/-- Pinging the nodes. -/
theorem ping_promised (h : ping.Distinct) (now : UInt64) (dht : Dht) : ping.Promised (.ping now dht) ↔
    ping.Careful (.ping now dht) := by
  by_cases helapsed : isTimeout now ping.lastToPing timeToPing = true
  · cases hloop : doToPingLoop now dht ping.toPing with
    | none =>
      have hstep : ping.step (.ping now dht) = (false, ping) := by
        have hnone : doToPing now dht ping = none := by
          rw [doToPing, if_neg (not_not.mpr helapsed)]
          split
          · rfl
          all_goals
            rename_i hsome
            exact absurd (hloop.symm.trans hsome) nofun
        rw [step, hnone]
      refine iff_of_false (fun hno => ?_) fun hno =>
        (doToPingLoop_isSome now dht ping.toPing).mpr (hno helapsed).1 hloop
      rw [Promised, hstep] at hno
      cases hno.1
    | some result =>
      obtain ⟨examined, sent, rest⟩ := result
      obtain ⟨rfl, hkeys, hleft, hkept⟩ := doToPingLoop_spec hloop
      obtain ⟨next, hping, rfl⟩ := doToPing_eq helapsed hloop
      have hstep : ping.step (.ping now dht) = (true, next) := by rw [step, hping]
      have hdefined := (doToPingLoop_isSome now dht ping.toPing).mp (by rw [hloop]; nofun)
      have hbehind : ping.toPing.drop (ping.toPing.takeWhile isOccupied).length = behindEmpty ping.toPing := by
        have hdrop : (ping.toPing.takeWhile isOccupied ++ ping.toPing.dropWhile isOccupied).drop
            (ping.toPing.takeWhile isOccupied).length = behindEmpty ping.toPing := drop_left
        rwa [takeWhile_append_dropWhile] at hdrop
      rw [Promised, hstep, PingsAll, Careful]
      refine ⟨fun hall _ => ⟨hdefined, ?_⟩, fun hcareful =>
        ⟨rfl, h.sublist hkeys, fun _ examined sent' next' hping' => ?_⟩⟩
      · have hexamined := (hall.2.2 helapsed _ _ _ hping).1
        rwa [hbehind] at hexamined
      · rw [hping] at hping'
        cases hping'
        have hgapless := (hcareful helapsed).2
        rw [hbehind]
        refine ⟨hgapless, fun node hnode hocc => (hleft node hnode hocc).resolve_right fun hmem => ?_, hkept⟩
        exact Bool.false_ne_true ((hgapless node hmem).symm.trans hocc)
  · have hstep : ping.step (.ping now dht) = (true, ping) := by
      rw [step, doToPing, if_pos helapsed]
    rw [Promised, hstep, PingsAll, Careful]
    exact iff_of_true ⟨rfl, h, fun hno => absurd hno helapsed⟩ fun hno => absurd hno helapsed

/-- One call. -/
theorem step_promised (h : ping.Distinct) (call : ToPingCall) : ping.Promised call ↔ ping.Careful call := by
  cases call with
  | add now dht publicKey ipPort => exact add_promised h now dht publicKey ipPort
  | ping now dht => exact ping_promised h now dht

/-- In a list whose keys are different, every call of a sequence is handled as promised if and only if every call is
careful. -/
theorem promised_iff_careful (h : ping.Distinct) (calls : List ToPingCall) :
    EachMeets step Promised calls ping ↔ EachMeets step Careful calls ping := by
  have hagree (ping : Ping) (call : ToPingCall) (h : ping.Distinct) : ping.Promised call ↔
    ping.Careful call := step_promised h call
  exact eachMeets_iff hagree (fun ping call h hcareful => ((hagree ping call h).mpr hcareful).2.1) h

/-- The keys of a new list are different: there are none. -/
theorem newPing_distinct : newPing.Distinct := by
  have hnone : newPing.toPing.filter isOccupied = [] := filter_eq_nil_iff.mpr fun node hnode => by
    rw [eq_of_mem_replicate hnode]
    decide
  rw [Distinct, occupiedKeys, hnone]
  exact nodup_nil

/-- From a new list, every call of a sequence is handled as promised if and only if every call is careful. -/
theorem newPing_promised_iff (calls : List ToPingCall) :
    EachMeets step Promised calls newPing ↔
      EachMeets step Careful calls newPing := promised_iff_careful newPing_distinct calls

/-- A node in the first bucket is added, and one in the second; when they are pinged the second bucket is full, so
that the first node is cleared and the other one stays; and when that one is added again, it is in two slots. -/
theorem added_twice :
    let first : PublicKey := ⟨128 :: List.replicate 31 0, rfl⟩
    let second : PublicKey := ⟨64 :: List.replicate 31 0, rfl⟩
    let address (host : UInt8) : IpPort :=
      ⟨⟨afInet, List.Vector.replicate 7 0, List.Vector.replicate 16 host⟩, 33445, List.Vector.replicate 6 0⟩
    let dht : Dht := .new (List.Vector.replicate 32 0)
    let full : Dht := { dht with closeClientlist := fun i => if i.val / lclientNodes = 1 then
      ⟨⟨64 :: UInt8.ofNat i :: List.replicate 30 0, rfl⟩,
        { IpptsPng.zero with ipPort := address (UInt8.ofNat i), timestamp := 1000 }, .zero⟩
      else .zero }
    ¬EachMeets step Promised
      [.add 1000 dht first (address 1), .add 1000 dht second (address 2), .ping 1001 full,
        .add 2000 full second (address 2)] newPing := by
  intro first second address dht full h
  have hdistinct := h.2.2.2.1.2.1
  revert hdistinct
  decide +kernel

end Ping

end Toxcore
