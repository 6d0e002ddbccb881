import Toxcore.Data.SortedTables
import Toxcore.DHT.Offering

/-!
# Which node of a friend is replaced

`replace_all` is to store a new node instead of a bad one or of the farthest one, and to refuse it where all nodes of
the list are good and closer to the friend. The entry it writes is the first one after sorting, which is a timed out
one if there is one, and the farthest good one otherwise. Whether it writes at all depends on the first two entries
before sorting. They were the worst ones when the list was sorted last; since then nodes were refreshed, got other
keys, or timed out.
-/

namespace Toxcore

open ByteStrings SortedTables

/-! ## The comparison -/

/-- Nodes that failed a test before the others, then farther ones before closer ones. -/
def cmpGoodEntry (cmpPublicKey : PublicKey) : ClientData → ClientData → Ordering :=
  compareLex (compareOn fun client => !hardeningFailed client)
    (farther fun client => xorDistance cmpPublicKey client.publicKey)

instance (cmpPublicKey : PublicKey) : Std.TransCmp (cmpGoodEntry cmpPublicKey) :=
  inferInstanceAs (Std.TransCmp (compareLex _ _))

/-- Timed out entries are alike and come first. -/
theorem cmpDhtEntry_eq (now : UInt64) (cmpPublicKey : PublicKey) :
    cmpDhtEntry now cmpPublicKey = staleFirst (clientTimedout now) (cmpGoodEntry cmpPublicKey) := by
  funext entry1 entry2
  have hswap : (idClosest cmpPublicKey entry1.publicKey entry2.publicKey).swap =
      compare (xorDistance cmpPublicKey entry2.publicKey) (xorDistance cmpPublicKey entry1.publicKey) := by
    rw [idClosest_eq_compare, Nat.compare_swap]
  rw [cmpDhtEntry, staleFirst, hswap]
  cases clientTimedout now entry1 with
  | true => simp
  | false =>
    cases clientTimedout now entry2 with
    | true => simp
    | false =>
      cases h1 : hardeningFailed entry1 <;> cases h2 : hardeningFailed entry2 <;>
        simp [cmpGoodEntry, farther, compareLex, compareOn, h1, h2] <;> rfl

instance (now : UInt64) (cmpPublicKey : PublicKey) : Std.TransCmp (cmpDhtEntry now cmpPublicKey) := by
  rw [cmpDhtEntry_eq]
  infer_instance

/-! ## One offer -/

/-- A call of `addto_lists`, with a `qsort` that sorts. -/
structure AddtoListsCall where
  env : DhtEnv
  ipPort : IpPort
  publicKey : PublicKey
  sorts : ∀ n, Sorts (env.qsort n)

namespace AddtoListsCall

variable (call : AddtoListsCall) (friend : DhtFriend)

/-- The key that is offered is new to a friend: neither the key nor the address is in its list, and the address is one
of IPv4 or IPv6. -/
structure IsNew : Prop where
  key : ∀ i, (friend.clientList i).publicKey ≠ call.publicKey
  address : ∀ i, hasAddress (unembed call.ipPort) (friend.clientList i) = false
  family : (unembed call.ipPort).ip.family = afInet ∨ (unembed call.ipPort).ip.family = afInet6

/-- The result of `replace_all` for a friend. -/
def replaced : Option (ClientList maxFriendClients) :=
  replaceAll call.env friend.clientList call.publicKey (unembed call.ipPort) friend.publicKey

/-- The new key may take the place of an entry: it is timed out, or farther from the key of the friend. -/
def MayReplace (i : Fin maxFriendClients) : Prop :=
  clientTimedout call.env.unixTime (friend.clientList i) = true ∨
    idClosest friend.publicKey (friend.clientList i).publicKey call.publicKey = .gt

/-- The new key is refused exactly if no entry is timed out and every entry is at least as close to the friend. -/
def RefusedRightly : Prop :=
  call.replaced friend = none ↔
    (∀ i, clientTimedout call.env.unixTime (friend.clientList i) = false) ∧
      ∀ i, idClosest friend.publicKey (friend.clientList i).publicKey call.publicKey ≠ .gt

/-- If the new key is stored, the entries are reordered and one of them is overwritten: a timed out one if there is
one, and otherwise, if the nodes do not differ in the tests they failed, the farthest one. -/
def OverwritesWorst : Prop :=
  ∀ list, call.replaced friend = some list → ∃ order : Equiv.Perm (Fin maxFriendClients),
    list = Function.update (friend.clientList ∘ order) 0
        (storeClient call.env.unixTime call.publicKey (unembed call.ipPort) (friend.clientList (order 0))) ∧
      ((∃ i, clientTimedout call.env.unixTime (friend.clientList i) = true) →
        clientTimedout call.env.unixTime (friend.clientList (order 0)) = true) ∧
      ((∀ i, clientTimedout call.env.unixTime (friend.clientList i) = false) →
        (∀ i j, hardeningFailed (friend.clientList i) = hardeningFailed (friend.clientList j)) →
          ∀ i, idClosest friend.publicKey (friend.clientList i).publicKey (friend.clientList (order 0)).publicKey ≠ .gt)

/-- If the new key may take the place of some entry, it may take that of one of the first two. -/
def Witnessed : Prop := (∃ i, call.MayReplace friend i) → call.MayReplace friend 0 ∨ call.MayReplace friend 1

/-- When a node may be stored in an entry. -/
theorem storeNodeOk_iff (i : Fin maxFriendClients) :
    storeNodeOk call.env.unixTime (friend.clientList i) call.publicKey friend.publicKey = true ↔
      call.MayReplace friend i := by
  rw [storeNodeOk, Bool.or_eq_true, beq_iff_eq, MayReplace]

/-- The decision of `replace_all` is that of the first two entries. -/
theorem replaced_eq_none_iff (h : call.IsNew friend) :
    call.replaced friend = none ↔ ¬(call.MayReplace friend 0 ∨ call.MayReplace friend 1) := by
  have hfamily : ¬((unembed call.ipPort).ip.family ≠ afInet ∧ (unembed call.ipPort).ip.family ≠ afInet6) := by
    rintro ⟨h4, h6⟩
    rcases h.family with heq | heq
    · exact h4 heq
    · exact h6 heq
  rw [replaced, replaceAll, if_neg hfamily, ← storeNodeOk_iff, ← storeNodeOk_iff, or_comm, ← Bool.or_eq_true]
  split
  · rename_i hstore
    simp [hstore]
  · rename_i hrefuse
    simp [hrefuse]

/-- When a refusal is right. -/
theorem refusedRightly_iff (h : call.IsNew friend) : call.RefusedRightly friend ↔ call.Witnessed friend := by
  have hnone : ((∀ i, clientTimedout call.env.unixTime (friend.clientList i) = false) ∧
      ∀ i, idClosest friend.publicKey (friend.clientList i).publicKey call.publicKey ≠ .gt) ↔
        ¬∃ i, call.MayReplace friend i := by
    simp [MayReplace, not_or, forall_and]
  rw [RefusedRightly, replaced_eq_none_iff call friend h, hnone, not_iff_not]
  constructor
  · intro hiff
    exact hiff.mpr
  · intro hwitnessed
    refine ⟨?_, hwitnessed⟩
    rintro (h0 | h1)
    · exact ⟨0, h0⟩
    · exact ⟨1, h1⟩

/-- Among nodes that do not differ in the tests they failed, those before the others are farther. -/
theorem not_closer_of_cmpGoodEntry {cmpPublicKey : PublicKey} {client1 client2 : ClientData}
    (hsame : hardeningFailed client1 = hardeningFailed client2)
    (hle : (cmpGoodEntry cmpPublicKey client1 client2).isLE) :
    idClosest cmpPublicKey client2.publicKey client1.publicKey ≠ .gt := by
  rw [ne_eq, idClosest_eq_gt, Nat.not_lt]
  have heq : cmpGoodEntry cmpPublicKey client1 client2 =
      farther (fun client => xorDistance cmpPublicKey client.publicKey) client1 client2 := by
    simp [cmpGoodEntry, compareLex, compareOn, hsame]
  rw [heq] at hle
  exact isLE_farther.mp hle

/-- Whatever the list is, what is overwritten is the worst entry. -/
theorem overwritesWorst : call.OverwritesWorst friend := by
  intro list hlist
  unfold replaced replaceAll at hlist
  split at hlist
  · contradiction
  split at hlist
  · have hfirst := call.sorts maxFriendClients (cmpDhtEntry call.env.unixTime friend.publicKey) friend.clientList
    rw [cmpDhtEntry_eq] at hfirst
    set order := call.env.qsort maxFriendClients
      (staleFirst (clientTimedout call.env.unixTime) (cmpGoodEntry friend.publicKey)) friend.clientList with horder
    have hresult : list = Function.update (friend.clientList ∘ order) 0
        (storeClient call.env.unixTime call.publicKey (unembed call.ipPort) (friend.clientList (order 0))) := by
      rw [horder, ← cmpDhtEntry_eq]
      exact (Option.some.inj hlist).symm
    refine ⟨order, hresult, ?_, ?_⟩
    · rintro ⟨i, hi⟩
      exact hfirst.order_stale hi
    · intro hgood hsame i
      exact not_closer_of_cmpGoodEntry (hsame _ _) (hfirst.order_le hgood i)
  · contradiction

/-- Replacement in the list of a friend, for a new key. -/
def Replaces : Prop := call.IsNew friend → call.RefusedRightly friend ∧ call.OverwritesWorst friend

/-- When a node is put in as it should be. -/
theorem replaces_iff : call.Replaces friend ↔ (call.IsNew friend → call.Witnessed friend) := by
  apply forall_congr'
  intro hnew
  rw [refusedRightly_iff call friend hnew]
  exact and_iff_left (overwritesWorst call friend)

/-- A friend after a call. -/
def friendAfter : DhtFriend :=
  match offerToFriend call.env call.publicKey (unembed call.ipPort) friend with
  | none => friend
  | some list => { friend with clientList := list }

theorem offerToFriends_fst (friends : List DhtFriend) (used : ℕ) (foundip : Option DhtFriend) :
    (offerToFriends call.env call.publicKey (unembed call.ipPort) friends used foundip).1 =
      friends.map call.friendAfter := by
  induction friends generalizing used foundip with
  | nil => rfl
  | cons friend rest ih =>
    rw [offerToFriends, List.map_cons, friendAfter]
    cases offerToFriend call.env call.publicKey (unembed call.ipPort) friend with
    | none => simp only [ih]
    | some list => simp only [ih]

end AddtoListsCall

/-! ## Runs -/

/-- The DHT after a call, `none` where the close list is read past its end. -/
def Dht.after (dht : Dht) (call : AddtoListsCall) : Option Dht :=
  (addtoLists call.env dht call.ipPort call.publicKey).map fun result => result.2.1

/-- `addto_lists` does the same to every friend, whatever the close list is. -/
theorem Dht.after_friendsList {dht dht' : Dht} {call : AddtoListsCall} (h : dht.after call = some dht') :
    dht'.friendsList = dht.friendsList.map call.friendAfter := by
  obtain ⟨⟨used, dht', callbacks⟩, hadd, rfl⟩ := Option.map_eq_some_iff.mp h
  obtain ⟨start, hfriends, -⟩ := addtoLists_friends hadd
  rw [hfriends, call.offerToFriends_fst]

/-- A property of a call and the DHT it meets, for every call of a run. -/
def AllCalls (P : AddtoListsCall → Dht → Prop) : Dht → List AddtoListsCall → Prop
  | _, [] => True
  | dht, call :: calls => P call dht ∧ ∀ dht', dht.after call = some dht' → AllCalls P dht' calls

/-- Two properties of calls that agree. -/
theorem allCalls_congr {P Q : AddtoListsCall → Dht → Prop} (h : ∀ call dht, P call dht ↔ Q call dht) (dht : Dht)
    (calls : List AddtoListsCall) : AllCalls P dht calls ↔ AllCalls Q dht calls := by
  induction calls generalizing dht with
  | nil => exact Iff.rfl
  | cons call calls ih => exact and_congr (h call dht) (forall₂_congr fun dht' _ => ih dht')

/-- The lists of friends keep the closest nodes: in a run of `addto_lists`, every new key that is offered to a friend
is refused exactly if no entry of the friend is timed out or farther, and otherwise takes the place of the worst
entry. It holds exactly if for every such key that may take the place of some entry, one of the first two entries is
one of those. -/
theorem replace_all_worst_iff (dht : Dht) (calls : List AddtoListsCall) :
    AllCalls (fun call dht => ∀ friend ∈ dht.friendsList, call.Replaces friend) dht calls ↔
      AllCalls (fun call dht => ∀ friend ∈ dht.friendsList, call.IsNew friend → call.Witnessed friend) dht calls := by
  apply allCalls_congr
  intro call dht
  exact forall₂_congr fun friend _ => call.replaces_iff friend

/-- Where the keys share too few bits with our own to reach the end of the close list, a run goes on: what holds for
all calls holds for the last one, with the friends as the calls before left them. -/
theorem AllCalls.last {P : AddtoListsCall → Dht → Prop} {dht : Dht} (calls : List AddtoListsCall)
    {call : AddtoListsCall} (hbits : ∀ call ∈ calls, bitByBitCmp call.publicKey dht.selfPublicKey ≠ lclientLength)
    (h : AllCalls P dht (calls ++ [call])) :
    ∃ dht', P call dht' ∧
      dht'.friendsList = dht.friendsList.map fun friend =>
        calls.foldl (fun friend call => call.friendAfter friend) friend := by
  induction calls generalizing dht with
  | nil => exact ⟨dht, h.1, (List.map_id _).symm⟩
  | cons first rest ih =>
    obtain ⟨hfirst, hrest⟩ := List.forall_mem_cons.mp hbits
    rw [bitByBitCmp_eq] at hfirst
    obtain ⟨used, mid, hclose, hself, -⟩ := offerToClose_keys first.env.unixTime (unembed first.ipPort) hfirst
    obtain ⟨dht₁, hafter, hself₁⟩ : ∃ dht₁, dht.after first = some dht₁ ∧ dht₁.selfPublicKey = dht.selfPublicKey := by
      refine ⟨{ mid with
        friendsList := (offerToFriends first.env first.publicKey (unembed first.ipPort) mid.friendsList used none).1 },
          ?_, hself⟩
      rw [Dht.after, addtoLists, hclose]
      rfl
    have hfriends := Dht.after_friendsList hafter
    obtain ⟨dht', hlast, hfriends'⟩ := ih (hself₁ ▸ hrest) (h.2 dht₁ hafter)
    refine ⟨dht', hlast, ?_⟩
    rw [hfriends', hfriends, List.map_map]
    rfl

/-- A node with a key that is this far from zero, heard from at its own IPv4 address. -/
def heardFrom (now : UInt64) (distance : UInt8) : AddtoListsCall where
  env := ⟨now, fun _ => 0, fun _ => insertionSort⟩
  ipPort := ⟨⟨afInet, List.Vector.replicate 7 0, distance ::ᵥ List.Vector.replicate 15 0⟩, 0, List.Vector.replicate 6 0⟩
  publicKey := distance ::ᵥ List.Vector.replicate 31 0
  sorts _ := insertionSort_sorts

/-- Eight nodes fill the list of a friend, and the last two of them are heard from again. -/
def eightNodes : List AddtoListsCall :=
  (List.range 8).map (fun i => heardFrom 1000 (UInt8.ofNat (i + 1))) ++ [heardFrom 1100 8, heardFrom 1100 7]

/-- A DHT with a friend whose key is zero and whose list is empty. -/
def oneFriend : Dht :=
  { Dht.new (List.Vector.replicate 32
    255) with friendsList := [⟨PublicKey.zero, fun _ => .zero, 1, fun _ => none, []⟩] }

/-- When the other six are timed out, a farther node is refused. -/
theorem timedout_not_replaced :
    ¬AllCalls (fun call dht => ∀ friend ∈ dht.friendsList, call.Replaces friend) oneFriend
      (eightNodes ++ [heardFrom 1150 9]) := by
  intro hall
  obtain ⟨dht, hreplaces, hfriends⟩ := hall.last eightNodes (by decide +kernel)
  set friend := eightNodes.foldl (fun friend call => call.friendAfter friend)
    ⟨PublicKey.zero, fun _ => .zero, 1, fun _ => none, []⟩ with hfriend
  have hmem : friend ∈ dht.friendsList := by
    rw [hfriends]
    exact List.mem_singleton_self _
  have hnew : (heardFrom 1150 9).IsNew friend := by
    refine ⟨?_, ?_, .inl rfl⟩
    · decide +kernel
    · decide +kernel
  have hrefused : ((heardFrom 1150 9).replaced friend).isNone = true := by decide +kernel
  have htimedout : clientTimedout 1150 (friend.clientList 2) = true := by decide +kernel
  have hgood := ((hreplaces friend hmem hnew).1.mp (Option.isNone_iff_eq_none.mp hrefused)).1 2
  rw [show (heardFrom 1150 9).env.unixTime = 1150 from rfl, htimedout] at hgood
  contradiction

end Toxcore
