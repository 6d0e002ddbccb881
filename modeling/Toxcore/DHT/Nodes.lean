import Toxcore.CryptoCore
import Toxcore.Data.Closest
import Toxcore.Network

/-!
# Nodes and their distance

The data a DHT keeps about other nodes, the comparison of keys by exclusive or, and `add_to_list`, which keeps the
nodes closest to a key. The recursion of `add_to_list` starts again at the front of the list with the node that was
displaced; it comes to the same as one pass of insertion by displacement.
-/

namespace Toxcore

open ByteStrings List

/-- `MAX_FRIEND_CLIENTS`. -/
abbrev maxFriendClients : ℕ := 8

instance : NeZero maxFriendClients := ⟨by decide⟩

/-- `LCLIENT_NODES`. -/
abbrev lclientNodes : ℕ := maxFriendClients

/-- `LCLIENT_LENGTH`. -/
abbrev lclientLength : ℕ := 128

/-- `LCLIENT_LIST`. -/
abbrev lclientList : ℕ := lclientLength * lclientNodes

/-- `MAX_SENT_NODES`. -/
abbrev maxSentNodes : ℕ := 4

/-- `PING_INTERVAL`, in seconds. -/
def pingInterval : UInt64 := 60

/-- `BAD_NODE_TIMEOUT`, with `PINGS_MISSED_NODE_GOES_BAD` of 1 and `PING_ROUNDTRIP` of 2. -/
def badNodeTimeout : UInt64 := pingInterval + 1 * (pingInterval + 2)

/-- The flags of `Hardening`. -/
structure Hardening where
  routesRequestsOk : UInt8
  sendNodesOk : UInt8
  testingRequests : UInt8
  deriving DecidableEq

/-- `HARDENING_ALL_OK`. -/
def hardeningAllOk : UInt8 := 2

/-- `hardening_correct`. -/
def hardeningCorrect (h : Hardening) : UInt8 :=
  h.routesRequestsOk + (h.sendNodesOk <<< 1) + (h.testingRequests <<< 2)

/-- `IPPTsPng`: an address of a node and when it was last heard. -/
structure IpptsPng where
  ipPort : IpPort
  timestamp : UInt64
  lastPinged : UInt64
  hardening : Hardening
  retIpPort : IpPort
  retTimestamp : UInt64
  deriving DecidableEq

/-- An address cleared to zero bytes. -/
def IpptsPng.zero : IpptsPng := ⟨.zero, 0, 0, ⟨0, 0, 0⟩, .zero, 0⟩

/-- A key of zero bytes, the key of an unused entry. -/
def PublicKey.zero : PublicKey := List.Vector.replicate 32 0

/-- `Client_data`. -/
structure ClientData where
  publicKey : PublicKey
  assoc4 : IpptsPng
  assoc6 : IpptsPng
  deriving DecidableEq

/-- An entry cleared to zero bytes. -/
def ClientData.zero : ClientData := ⟨.zero, .zero, .zero⟩

/-- A list of entries of fixed length. -/
abbrev ClientList (n : ℕ) := Fin n → ClientData

/-- `Node_format`. -/
structure NodeFormat where
  publicKey : PublicKey
  ipPort : IpPort
  deriving DecidableEq

/-- A node cleared to zero bytes. -/
def NodeFormat.zero : NodeFormat := ⟨.zero, .zero⟩

/-- `DHT_FRIEND_MAX_LOCKS`. -/
abbrev dhtFriendMaxLocks : ℕ := 32

/-- A callback of a friend, the pointers by their addresses. -/
structure IpCallback where
  ipCallback : ℕ
  data : ℕ
  number : Int32
  deriving DecidableEq

/-- `DHT_Friend`. A callback is `none` where the function pointer is NULL. `to_bootstrap` is the list of its first
`num_to_bootstrap` nodes. -/
structure DhtFriend where
  publicKey : PublicKey
  clientList : ClientList maxFriendClients
  lockCount : UInt16
  callbacks : Fin dhtFriendMaxLocks → Option IpCallback
  toBootstrap : List NodeFormat

/-- The lists of a `DHT`. `to_bootstrap` is the list of its first `num_to_bootstrap` nodes. -/
structure Dht where
  closeClientlist : ClientList lclientList
  closeLastgetnodes : UInt64
  closeBootstrapTimes : UInt32
  selfPublicKey : PublicKey
  friendsList : List DhtFriend
  toBootstrap : List NodeFormat

/-- A new DHT. -/
def Dht.new (selfPublicKey : PublicKey) : Dht := ⟨fun _ => .zero, 0, 0, selfPublicKey, [], []⟩

/-! ## Distances -/

/-- The loop of `id_closest` over the remaining bytes. -/
def idClosestLoop : Bytes → Bytes → Bytes → Ordering
  | pk :: pks, pk1 :: pk1s, pk2 :: pk2s =>
    if pk ^^^ pk1 < pk ^^^ pk2 then .lt
    else if pk ^^^ pk2 < pk ^^^ pk1 then .gt
    else idClosestLoop pks pk1s pk2s
  | _, _, _ => .eq

/-- `id_closest`: `lt` is the return value 1 (`pk1` is closer), `gt` is 2 and `eq` is 0. -/
def idClosest (pk pk1 pk2 : PublicKey) : Ordering := idClosestLoop pk.toList pk1.toList pk2.toList

/-- The exclusive or of two keys, as a big-endian number. -/
def xorDistance (pk pk1 : PublicKey) : ℕ := beNat (List.zipWith (· ^^^ ·) pk.toList pk1.toList)

/-- The loop compares the distances. -/
theorem idClosestLoop_eq (pk pk1 pk2 : Bytes) :
    idClosestLoop pk pk1 pk2 = memcmp (List.zipWith (· ^^^ ·) pk pk1) (List.zipWith (· ^^^ ·) pk pk2) := by
  fun_induction idClosestLoop pk pk1 pk2 with
  | case1 pk pks pk1 pk1s pk2 pk2s hlt => simp [memcmp, hlt]
  | case2 pk pks pk1 pk1s pk2 pk2s hnot hlt => simp [memcmp, hnot, hlt]
  | case3 pk pks pk1 pk1s pk2 pk2s hnot hnot' ih => simp [memcmp, hnot, hnot', ih]
  | case4 pk pk1 pk2 hempty =>
    cases pk with
    | nil => rfl
    | cons x xs =>
      cases pk1 with
      | nil => rfl
      | cons y ys =>
        cases pk2 with
        | nil => rfl
        | cons z zs => exact absurd rfl (hempty x xs y ys z zs rfl rfl)

/-- The comparison of the source compares distances. -/
theorem idClosest_eq_compare (pk pk1 pk2 : PublicKey) :
    idClosest pk pk1 pk2 = compare (xorDistance pk pk1) (xorDistance pk pk2) := by
  rw [idClosest, idClosestLoop_eq, memcmp_eq_compare (by simp)]
  rfl

/-- The second key is closer. -/
theorem idClosest_eq_gt {pk pk1 pk2 : PublicKey} :
    idClosest pk pk1 pk2 = .gt ↔ xorDistance pk pk2 < xorDistance pk pk1 := by
  rw [idClosest_eq_compare, Nat.compare_eq_gt]

/-- Different keys have different distances from a key. -/
theorem xorDistance_injective (pk : PublicKey) : Function.Injective (xorDistance pk) := by
  intro pk1 pk2 hsame
  have hbytes : List.zipWith (· ^^^ ·) pk.toList pk1.toList = List.zipWith (· ^^^ ·) pk.toList pk2.toList :=
    beNat_injective (by simp) hsame
  refine List.Vector.toList_injective (ext_getElem (by simp) fun i hi hi' => ?_)
  have hbyte := getElem_of_eq hbytes (i := i) (by simpa using hi)
  rw [getElem_zipWith, getElem_zipWith] at hbyte
  exact (UInt8.xor_right_inj _).mp hbyte

/-! ## Keeping the closest nodes -/

/-- The distance of a node from a key. -/
def nodeDistance (cmpPk : PublicKey) (node : NodeFormat) : ℕ := xorDistance cmpPk node.publicKey

/-- The first node of the list that is farther from the key than the new one. -/
def firstFarther (nodes : List NodeFormat) (pk cmpPk : PublicKey) : Option ℕ :=
  nodes.findIdx? fun node => idClosest cmpPk node.publicKey pk = .gt

/-- The node found is farther, and the ones before it are not. -/
theorem firstFarther_some {nodes : List NodeFormat} {pk cmpPk : PublicKey} {i : ℕ}
    (h : firstFarther nodes pk cmpPk = some i) :
    ∃ front node rest, nodes = front ++ node :: rest ∧ front.length = i ∧
      xorDistance cmpPk pk < nodeDistance cmpPk node ∧
        ∀ other ∈ front, nodeDistance cmpPk other ≤ xorDistance cmpPk pk := by
  obtain ⟨hi, hfar, hnear⟩ := findIdx?_eq_some_iff_getElem.mp h
  refine ⟨nodes.take i, nodes[i], nodes.drop (i + 1), ?_, ?_, ?_, ?_⟩
  · rw [← drop_eq_getElem_cons hi, take_append_drop]
  · rw [length_take, Nat.min_eq_left hi.le]
  · rw [decide_eq_true_eq, idClosest_eq_gt] at hfar
    exact hfar
  · intro other hother
    obtain ⟨j, hj, rfl⟩ := mem_take_iff_getElem.mp hother
    have hj' := hnear j (by omega)
    rw [decide_eq_true_eq, idClosest_eq_gt, not_lt] at hj'
    exact hj'

/-- Where no node is farther, all are as close. -/
theorem firstFarther_none {nodes : List NodeFormat} {pk cmpPk : PublicKey} (h : firstFarther nodes pk cmpPk = none) :
    ∀ node ∈ nodes, nodeDistance cmpPk node ≤ xorDistance cmpPk pk := by
  intro node hnode
  have hnear := findIdx?_eq_none_iff.mp h node hnode
  rw [decide_eq_false_iff_not, idClosest_eq_gt, not_lt] at hnear
  exact hnear

/-- `add_to_list`: add a node and keep the ones closest to `cmp_pk`. The node that was displaced is added again, unless
it was the last one. -/
def addToList (nodes : List NodeFormat) (pk : PublicKey) (ipPort : IpPort) (cmpPk : PublicKey) :
    Bool × List NodeFormat :=
  match _h : firstFarther nodes pk cmpPk with
  | none => (false, nodes)
  | some i =>
    let bak := nodes.getD i .zero
    let nodes' := nodes.set i ⟨pk, ipPort⟩
    if i ≠ nodes.length - 1 then (true, (addToList nodes' bak.publicKey bak.ipPort cmpPk).2) else (true, nodes')
termination_by (nodes.map (nodeDistance cmpPk)).sum
decreasing_by
  obtain ⟨front, node, rest, rfl, rfl, hfar, -⟩ := firstFarther_some ‹firstFarther _ _ _ = some _›
  simp only [set_append_right _ _ (le_refl _), Nat.sub_self, set_cons_zero, map_append, map_cons,
    sum_append, sum_cons, nodeDistance] at hfar ⊢
  omega

/-- Adding a node is insertion by displacement. -/
theorem addToList_eq (nodes : List NodeFormat) (pk : PublicKey) (ipPort : IpPort) (cmpPk : PublicKey) :
    (addToList nodes pk ipPort cmpPk).2 = (Closest.displace (nodeDistance cmpPk) nodes ⟨pk, ipPort⟩).1 := by
  fun_induction addToList nodes pk ipPort cmpPk with
  | case1 nodes pk ipPort h => rw [Closest.displace_of_forall_le (nodeDistance cmpPk) (firstFarther_none h)]
  | case2 nodes pk ipPort i h bak nodes' hi ih =>
    obtain ⟨front, node, rest, hnodes, hlength, hfar, hnear⟩ := firstFarther_some h
    have hbak : bak = node := by
      simp only [bak, hnodes, ← hlength]
      simp
    have hnodes' : nodes' = front ++ ⟨pk, ipPort⟩ :: rest := by
      simp only [nodes', hnodes, ← hlength]
      simp
    rw [ih, hnodes', hbak, hnodes, Closest.displace_first (x := ⟨pk, ipPort⟩) (nodeDistance cmpPk) hnear hfar]
  | case3 nodes pk ipPort i h nodes' hi =>
    obtain ⟨front, node, rest, hnodes, hlength, hfar, hnear⟩ := firstFarther_some h
    have hrest : rest = [] := by
      rw [not_not, hnodes, length_append, length_cons] at hi
      exact length_eq_zero_iff.mp (by omega)
    have hnodes' : nodes' = front ++ [⟨pk, ipPort⟩] := by
      simp only [nodes', hnodes, hrest, ← hlength]
      simp
    have hpass : ∀ other ∈ front ++ [⟨pk, ipPort⟩], nodeDistance cmpPk other ≤ nodeDistance cmpPk node := by
      intro other hother
      rcases mem_append.mp hother with hother | hother
      · exact (hnear other hother).trans hfar.le
      · rw [mem_singleton.mp hother]
        exact hfar.le
    rw [hnodes', hnodes, hrest, Closest.displace_first (x := ⟨pk, ipPort⟩) (nodeDistance cmpPk) hnear hfar,
      Closest.displace_of_forall_le (nodeDistance cmpPk) hpass]

/-- Adding a node says whether some node of the list was farther. -/
theorem addToList_fst (nodes : List NodeFormat) (pk : PublicKey) (ipPort : IpPort) (cmpPk : PublicKey) :
    (addToList nodes pk ipPort cmpPk).1 = (firstFarther nodes pk cmpPk).isSome := by
  unfold addToList
  split
  · rename_i h
    rw [h]
    rfl
  · rename_i i h
    dsimp only
    rw [h]
    split <;> rfl

/-- Some node is farther exactly if the new one is closer than what falls out. -/
theorem firstFarther_isSome_iff (nodes : List NodeFormat) (pk : PublicKey) (ipPort : IpPort) (cmpPk : PublicKey) :
    (firstFarther nodes pk cmpPk).isSome ↔
      xorDistance cmpPk pk < nodeDistance cmpPk (Closest.displace (nodeDistance cmpPk) nodes ⟨pk, ipPort⟩).2 := by
  cases h : firstFarther nodes pk cmpPk with
  | none =>
    rw [Closest.displace_of_forall_le (nodeDistance cmpPk) (firstFarther_none h)]
    simp [nodeDistance]
  | some i =>
    obtain ⟨front, node, rest, rfl, -, hfar, -⟩ := firstFarther_some h
    have hfall := Closest.displace_farthest (nodeDistance cmpPk) (front ++ node :: rest) ⟨pk, ipPort⟩ node (by simp)
    simpa using hfar.trans_le hfall

/-- Adding a node with a new key to a list in any order keeps, as a multiset, the old nodes and the new one but for
one that no other is farther than, and returns whether the new one was stored. -/
theorem addToList_keeps_closest (nodes : List NodeFormat) (pk : PublicKey) (ipPort : IpPort) (cmpPk : PublicKey)
    (hnew : pk ∉ nodes.map NodeFormat.publicKey) :
    ∃ dropped,
      dropped ::ₘ (↑(addToList nodes pk ipPort cmpPk).2 : Multiset NodeFormat) = ⟨pk, ipPort⟩ ::ₘ ↑nodes ∧
      (∀ node ∈ ⟨pk, ipPort⟩ :: nodes, idClosest cmpPk node.publicKey dropped.publicKey ≠ .gt) ∧
      ((addToList nodes pk ipPort cmpPk).1 = true ↔ ⟨pk, ipPort⟩ ∈ (addToList nodes pk ipPort cmpPk).2) := by
  have hperm := Closest.displace_perm (nodeDistance cmpPk) nodes ⟨pk, ipPort⟩
  have hfarthest := Closest.displace_farthest (nodeDistance cmpPk) nodes ⟨pk, ipPort⟩
  have hstored := firstFarther_isSome_iff nodes pk ipPort cmpPk
  rw [← addToList_eq] at hperm
  generalize (Closest.displace (nodeDistance cmpPk) nodes ⟨pk, ipPort⟩).2 = dropped at hperm hfarthest hstored
  refine ⟨dropped, Multiset.coe_eq_coe.mpr hperm, ?_, ?_⟩
  · intro node hnode
    rw [ne_eq, idClosest_eq_gt, not_lt]
    exact hfarthest node hnode
  · rw [addToList_fst]
    constructor
    · intro hfarther
      have hne : (⟨pk, ipPort⟩ : NodeFormat) ≠ dropped := by
        rintro rfl
        exact lt_irrefl _ (hstored.mp hfarther)
      exact (mem_cons.mp (hperm.mem_iff.mpr mem_cons_self)).resolve_left hne
    · intro hmem
      by_contra hnone
      have hnear := firstFarther_none (Option.not_isSome_iff_eq_none.mp hnone)
      rw [addToList_eq, Closest.displace_of_forall_le (nodeDistance cmpPk) hnear] at hmem
      exact hnew (mem_map_of_mem hmem)

/-- In an unsorted list of two nodes, the farther one makes room. -/
theorem addToList_keeps_closest_unsorted :
    let key (byte : UInt8) : PublicKey := List.Vector.replicate 32 byte
    let nodes : List NodeFormat := [⟨key 7, .zero⟩, ⟨key 2, .zero⟩]
    (addToList nodes (key 1) .zero (key 0)).2 = [⟨key 1, .zero⟩, ⟨key 2, .zero⟩] ∧
      ∃ dropped,
        dropped ::ₘ (↑(addToList nodes (key 1) .zero (key 0)).2 : Multiset NodeFormat) = ⟨key 1, .zero⟩ ::ₘ ↑nodes ∧
        (∀ node ∈ ⟨key 1, .zero⟩ :: nodes, idClosest (key 0) node.publicKey dropped.publicKey ≠ .gt) ∧
        ((addToList nodes (key 1) .zero (key 0)).1 = true ↔
          ⟨key 1, .zero⟩ ∈ (addToList nodes (key 1) .zero (key 0)).2) := by
  intro key nodes
  refine ⟨?_, addToList_keeps_closest nodes (key 1) .zero (key 0) (by decide +kernel)⟩
  rw [addToList_eq]
  decide +kernel

end Toxcore
