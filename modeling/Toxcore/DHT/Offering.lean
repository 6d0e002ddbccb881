import Toxcore.DHT.Friends

/-!
# What offering a node to the lists reports

`add_to_close` stays inside the close list for all keys but those that share exactly `LCLIENT_LENGTH` bits with our
own: the comparison that limits the bucket is off by one. `addto_lists` is to return whether the node is in some list
afterwards. It counts the failures of `add_to_close` where it should count the successes.
-/

namespace Toxcore

open ByteStrings Function List Option

/-! ## The bucket bound -/

/-- The indices of the close list that the loop of `add_to_close` accesses, among the ones it would look at: it stops
at a timed out entry, which it may write, and what follows an access past the end is not known. -/
def accessedIndices (now : UInt64) (list : ClientList lclientList) : List ℕ → List ℕ
  | [] => []
  | index :: rest =>
    if h : index < lclientList then
      if clientTimedout now (list ⟨index, h⟩) then [index] else index :: accessedIndices now list rest
    else [index]

/-- All indices that `add_to_close` accesses belong to the close list. -/
def CloseAccessesValid (now : UInt64) (dht : Dht) (publicKey : PublicKey) : Prop :=
  ∀ index ∈ accessedIndices now dht.closeClientlist (closeIndices dht.selfPublicKey publicKey), index < lclientList

theorem accessedIndices_subset (now : UInt64) (list : ClientList lclientList) (indices : List ℕ) :
    accessedIndices now list indices ⊆ indices := by
  induction indices with
  | nil => exact List.Subset.refl _
  | cons index rest ih =>
    rw [accessedIndices]
    split
    · split
      · exact cons_subset_cons index (nil_subset rest)
      · exact cons_subset_cons index ih
    · exact cons_subset_cons index (nil_subset rest)

/-- The loop has a result exactly if it stays inside the list, and the entry it finds is one it accessed. -/
theorem addToCloseLoop_accessed (now : UInt64) (list : ClientList lclientList) (indices : List ℕ) :
    (addToCloseLoop now list indices ≠ none ↔ ∀ index ∈ accessedIndices now list indices, index < lclientList) ∧
      ∀ i, addToCloseLoop now list indices = some (some i) → i.val ∈ accessedIndices now list indices := by
  induction indices with
  | nil => simp [addToCloseLoop, accessedIndices]
  | cons index rest ih =>
    rw [addToCloseLoop, accessedIndices]
    split
    · rename_i hindex
      split
      · simp [hindex, eq_comm]
      · obtain ⟨hsome, hfound⟩ := ih
        refine ⟨by rw [hsome, forall_mem_cons, and_iff_right hindex], fun i hi => ?_⟩
        exact mem_cons_of_mem index (hfound i hi)
    · rename_i hindex
      simp [hindex]

/-- `add_to_close` has a result exactly if all its accesses are valid. -/
theorem addToClose_ne_none_iff (now : UInt64) (dht : Dht) (publicKey : PublicKey) (ipPort : IpPort) (simulate : Bool) :
    addToClose now dht publicKey ipPort simulate ≠ none ↔ CloseAccessesValid now dht publicKey := by
  rw [CloseAccessesValid, ← (addToCloseLoop_accessed now _ _).1]
  unfold addToClose
  cases addToCloseLoop now dht.closeClientlist (closeIndices dht.selfPublicKey publicKey) with
  | none => simp
  | some found =>
    cases found with
    | none => simp
    | some i => cases simulate <;> simp

/-- The accesses are valid exactly if the bucket is one of the list. -/
theorem closeAccessesValid_iff (now : UInt64) (dht : Dht) (publicKey : PublicKey) :
    CloseAccessesValid now dht publicKey ↔ bitByBitCmp publicKey dht.selfPublicKey ≠ lclientLength := by
  constructor
  · intro hvalid hbits
    have hindices : closeIndices dht.selfPublicKey publicKey =
        lclientList :: (List.range 7).map fun i => lclientList + (i + 1) := by
      rw [closeIndices, closeIndex, hbits, if_neg (lt_irrefl _)]
      rfl
    have hpast : lclientList < lclientList := by
      apply hvalid
      rw [hindices, accessedIndices, dif_neg (lt_irrefl _)]
      exact mem_singleton_self _
    exact lt_irrefl _ hpast
  · intro hbits index hindex
    rw [bitByBitCmp_eq] at hbits
    exact (mem_closeIndices hbits (accessedIndices_subset now _ _ hindex)).1

variable {dht : Dht} {ipPort : IpPort} {now : UInt64} {publicKey : PublicKey} {env : DhtEnv}

/-- What `add_to_close` writes is an entry it accessed. -/
theorem addToClose_writes {dht' : Dht} {simulate ok : Bool}
    (h : addToClose now dht publicKey ipPort simulate = some (ok, dht')) {i : Fin lclientList}
    (hwritten : dht'.closeClientlist i ≠ dht.closeClientlist i) :
    i.val ∈ accessedIndices now dht.closeClientlist (closeIndices dht.selfPublicKey publicKey) := by
  unfold addToClose at h
  split at h
  · contradiction
  · obtain ⟨-, rfl⟩ := Prod.mk.inj (some_inj.mp h)
    exact absurd rfl hwritten
  · rename_i found hloop
    split at h
    · obtain ⟨-, rfl⟩ := Prod.mk.inj (some_inj.mp h)
      exact absurd rfl hwritten
    · obtain ⟨-, rfl⟩ := Prod.mk.inj (some_inj.mp h)
      have hsame : i = found := by
        by_contra hne
        exact hwritten (update_of_ne hne _ _)
      rw [hsame]
      exact (addToCloseLoop_accessed now _ _).2 found hloop

/-- Every index `add_to_close` reads or writes, simulating or not, is below `LCLIENT_LIST` exactly if the key does not
share exactly `LCLIENT_LENGTH` bits with our own. -/
theorem addToClose_in_bounds_iff (now : UInt64) (dht : Dht) (publicKey : PublicKey) (ipPort : IpPort)
    (simulate : Bool) :
    (CloseAccessesValid now dht publicKey ∧
        ∃ ok dht', addToClose now dht publicKey ipPort simulate = some (ok, dht') ∧
          ∀ i, dht'.closeClientlist i ≠ dht.closeClientlist i →
            i.val ∈ accessedIndices now dht.closeClientlist (closeIndices dht.selfPublicKey publicKey)) ↔
      bitByBitCmp publicKey dht.selfPublicKey ≠ lclientLength := by
  rw [← closeAccessesValid_iff now]
  refine and_iff_left_of_imp fun hvalid => ?_
  obtain ⟨⟨ok, dht'⟩, hadd⟩ :=
    ne_none_iff_exists'.mp ((addToClose_ne_none_iff now dht publicKey ipPort simulate).mpr hvalid)
  exact ⟨ok, dht', hadd, fun i => addToClose_writes hadd⟩

/-- Keys that share the first 16 bytes and no further bit: the first entry past the close list is read. -/
theorem boundary_key_reads_past :
    let publicKey : PublicKey := .ofFn fun i => if i.val = 16 then 128 else 0
    bitByBitCmp publicKey .zero = lclientLength ∧
      accessedIndices 1000 (Dht.new .zero).closeClientlist (closeIndices .zero publicKey) = [lclientList] ∧
      ¬CloseAccessesValid 1000 (.new .zero) publicKey := by
  intro publicKey
  have hbits : bitByBitCmp publicKey .zero = lclientLength := by decide +kernel
  refine ⟨hbits, by decide +kernel, ?_⟩
  rw [closeAccessesValid_iff]
  exact fun hne => hne hbits

/-! ## The use that is reported -/

/-- A key is in a list. -/
def InList {n : ℕ} (publicKey : PublicKey) (list : ClientList n) : Prop := ∃ i, (list i).publicKey = publicKey

/-- A key is in the close list or in the list of a friend. -/
def InSomeList (publicKey : PublicKey) (dht : Dht) : Prop :=
  InList publicKey dht.closeClientlist ∨ ∃ friend ∈ dht.friendsList, InList publicKey friend.clientList

/-- `addto_lists` returns more than 0 exactly if the key is in some list afterwards, and 0 exactly if it is in none. -/
def ReportsUse (env : DhtEnv) (dht : Dht) (ipPort : IpPort) (publicKey : PublicKey) : Prop :=
  ∃ used dht' callbacks, addtoLists env dht ipPort publicKey = some (used, dht', callbacks) ∧
    (used > 0 ↔ InSomeList publicKey dht') ∧ (used = 0 ↔ ¬InSomeList publicKey dht')

/-- A list has the key of a node or its address. -/
def KnowsNode {n : ℕ} (publicKey : PublicKey) (ipPort : IpPort) (list : ClientList n) : Prop :=
  ∃ i, (list i).publicKey = publicKey ∨ hasAddress ipPort (list i) = true

/-- The list of a friend has a node, or room for it: one of its first two entries is bad or farther. -/
def FriendTakes (now : UInt64) (publicKey : PublicKey) (ipPort : IpPort) (friend : DhtFriend) : Prop :=
  KnowsNode publicKey ipPort friend.clientList ∨
    (ipPort.ip.family = afInet ∨ ipPort.ip.family = afInet6) ∧
      (storeNodeOk now (friend.clientList 1) publicKey friend.publicKey = true ∨
        storeNodeOk now (friend.clientList 0) publicKey friend.publicKey = true)

/-- The list knows a node by its key or its address. -/
theorem clientOrIpPortInList_ne_none_iff {n : ℕ} {now : UInt64} {list : ClientList n} {publicKey : PublicKey}
    {ipPort : IpPort} : clientOrIpPortInList now list publicKey ipPort ≠ none ↔ KnowsNode publicKey ipPort list := by
  unfold clientOrIpPortInList KnowsNode
  split
  · rename_i i hfind
    have hkey := find?_some hfind
    exact iff_of_true (some_ne_none _) ⟨i, .inl (of_decide_eq_true hkey)⟩
  · rename_i hnokey
    split
    · rename_i i hfind
      have haddress := find?_some hfind
      exact iff_of_true (some_ne_none _) ⟨i, .inr haddress⟩
    · rename_i hnoaddress
      refine iff_of_false (fun h => h rfl) ?_
      rintro ⟨i, hkey | haddress⟩
      · exact keysOf_ne hnokey i hkey
      · exact find?_eq_none.mp hnoaddress i (mem_finRange i) haddress

/-- Where the key or the address is found, the key is in the list afterwards. -/
theorem clientOrIpPortInList_stores {n : ℕ} {list list' : ClientList n}
    (h : clientOrIpPortInList now list publicKey ipPort = some list') : InList publicKey list' := by
  unfold clientOrIpPortInList at h
  split at h
  · rename_i i hfind
    obtain rfl := some_inj.mp h
    have hkey := find?_some hfind
    refine ⟨i, ?_⟩
    rw [update_self, refreshClient_publicKey]
    exact of_decide_eq_true hkey
  · split at h
    · rename_i i _
      obtain rfl := some_inj.mp h
      exact ⟨i, by rw [update_self, replaceKey_publicKey]⟩
    · contradiction

variable {list : ClientList maxFriendClients}

/-- When a node takes the place of another. -/
theorem replaceAll_ne_none_iff {compPublicKey : PublicKey} :
    replaceAll env list publicKey ipPort compPublicKey ≠ none ↔
      (ipPort.ip.family = afInet ∨ ipPort.ip.family = afInet6) ∧
        (storeNodeOk env.unixTime (list 1) publicKey compPublicKey = true ∨
          storeNodeOk env.unixTime (list 0) publicKey compPublicKey = true) := by
  unfold replaceAll
  split
  · rename_i hfamily
    exact iff_of_false (fun h => h rfl) fun h => h.1.elim hfamily.1 hfamily.2
  · rename_i hfamily
    have hip : ipPort.ip.family = afInet ∨ ipPort.ip.family = afInet6 := by
      by_contra hnot
      exact hfamily (not_or.mp hnot)
    rw [and_iff_right hip, ← Bool.or_eq_true]
    split
    · rename_i hok
      exact iff_of_true (some_ne_none _) hok
    · rename_i hok
      exact iff_of_false (fun h => h rfl) hok

/-- The node that is put in is stored. -/
theorem replaceAll_stores {list' : ClientList maxFriendClients} {compPublicKey : PublicKey}
    (h : replaceAll env list publicKey ipPort compPublicKey = some list') : InList publicKey list' := by
  unfold replaceAll at h
  split at h
  · contradiction
  · split at h
    · obtain rfl := some_inj.mp h
      exact ⟨0, by rw [update_self, storeClient_publicKey]⟩
    · contradiction

section Friends

variable {env : DhtEnv} {publicKey : PublicKey} {ipPort : IpPort}

variable {friend : DhtFriend}

/-- The list of a friend is used exactly if it takes the node. -/
theorem offerToFriend_ne_none_iff :
    offerToFriend env publicKey ipPort friend ≠ none ↔ FriendTakes env.unixTime publicKey ipPort friend := by
  rw [FriendTakes, ← @clientOrIpPortInList_ne_none_iff _ env.unixTime, ← replaceAll_ne_none_iff]
  unfold offerToFriend
  cases hin : clientOrIpPortInList env.unixTime friend.clientList publicKey ipPort with
  | some list => simp
  | none => simp

/-- A list that is used has the key afterwards. -/
theorem offerToFriend_stores (h : offerToFriend env publicKey ipPort friend = some list) : InList publicKey list := by
  unfold offerToFriend at h
  split at h
  · rename_i list' hin
    obtain rfl := some_inj.mp h
    exact clientOrIpPortInList_stores hin
  · exact replaceAll_stores h

/-- A list that is not used does not have the key. -/
theorem offerToFriend_none (h : offerToFriend env publicKey ipPort friend = none) :
    ¬InList publicKey friend.clientList := by
  rintro ⟨i, hi⟩
  have htakes : FriendTakes env.unixTime publicKey ipPort friend := .inl ⟨i, .inl hi⟩
  exact offerToFriend_ne_none_iff.mpr htakes h

/-- The lists used are counted, and they are the ones that have the key afterwards. -/
theorem offerToFriends_reports (friends : List DhtFriend) (used : ℕ) (foundip : Option DhtFriend) :
    used ≤ (offerToFriends env publicKey ipPort friends used foundip).2.1 ∧
      (used < (offerToFriends env publicKey ipPort friends used foundip).2.1 ↔
        ∃ friend ∈ friends, FriendTakes env.unixTime publicKey ipPort friend) ∧
      ((∃ friend ∈ (offerToFriends env publicKey ipPort friends used foundip).1, InList publicKey friend.clientList) ↔
        ∃ friend ∈ friends, FriendTakes env.unixTime publicKey ipPort friend) := by
  induction friends generalizing used foundip with
  | nil => simp [offerToFriends]
  | cons friend rest ih =>
    rw [offerToFriends]
    cases hoffer : offerToFriend env publicKey ipPort friend with
    | none =>
      obtain ⟨hle, hcount, hstored⟩ := ih used foundip
      have hnot : ¬FriendTakes env.unixTime publicKey ipPort friend := fun htakes =>
        offerToFriend_ne_none_iff.mpr htakes hoffer
      refine ⟨hle, ?_, ?_⟩
      · rw [exists_mem_cons_iff, or_iff_right hnot]
        exact hcount
      · dsimp only
        rw [exists_mem_cons_iff, exists_mem_cons_iff, or_iff_right hnot,
          or_iff_right (offerToFriend_none hoffer)]
        exact hstored
    | some list =>
      have htakes : FriendTakes env.unixTime publicKey ipPort friend :=
        offerToFriend_ne_none_iff.mp (by rw [hoffer]; exact some_ne_none list)
      have htaken : ∃ other ∈ friend :: rest, FriendTakes env.unixTime publicKey ipPort other :=
        ⟨friend, mem_cons_self, htakes⟩
      refine ⟨(Nat.le_succ used).trans (ih (used + 1) _).1, iff_of_true (ih (used + 1) _).1 htaken,
        iff_of_true ?_ htaken⟩
      exact ⟨{ friend with clientList := list }, mem_cons_self, offerToFriend_stores hoffer⟩

end Friends

/-- A node that the list does not know. -/
theorem clientOrIpPortInList_eq_none {n : ℕ} (now : UInt64) {list : ClientList n}
    (hunknown : ¬KnowsNode publicKey ipPort list) : clientOrIpPortInList now list publicKey ipPort = none := by
  by_contra hne
  exact hunknown (clientOrIpPortInList_ne_none_iff.mp hne)

/-- A node the close list knows is counted, and in the list afterwards. -/
theorem offerToClose_known (now : UInt64) (hknown : KnowsNode publicKey ipPort dht.closeClientlist) :
    ∃ dht', offerToClose now dht publicKey ipPort = some (1, dht') ∧ InList publicKey dht'.closeClientlist := by
  obtain ⟨list, hlist⟩ := ne_none_iff_exists'.mp
    ((@clientOrIpPortInList_ne_none_iff _ now _ _ _).mpr hknown)
  unfold offerToClose
  rw [hlist]
  have hstored : InList publicKey list := clientOrIpPortInList_stores hlist
  exact ⟨{ dht with closeClientlist := list }, rfl, hstored⟩

/-- What `addto_lists` counts for the close list where it does not know the node: a failure to store it. -/
theorem offerToClose_unknown (hunknown : ¬KnowsNode publicKey ipPort dht.closeClientlist)
    (hvalid : CloseAccessesValid now dht publicKey) :
    ∃ used dht', offerToClose now dht publicKey ipPort = some (used, dht') ∧
      (used = 0 ↔ InList publicKey dht'.closeClientlist) := by
  unfold offerToClose addToClose
  rw [clientOrIpPortInList_eq_none now hunknown]
  obtain ⟨found, hfound⟩ := ne_none_iff_exists'.mp ((addToCloseLoop_accessed now _ _).1.mpr hvalid)
  rw [hfound]
  cases found with
  | none =>
    refine ⟨1, dht, rfl, iff_of_false (by decide) ?_⟩
    rintro ⟨i, hi⟩
    exact hunknown ⟨i, .inl hi⟩
  | some i =>
    refine ⟨0, _, rfl, iff_of_true rfl ⟨i, ?_⟩⟩
    dsimp only
    rw [update_self, storeClient_publicKey]

/-- Where the node is not known and `add_to_close` reads past the list, nothing can be said. -/
theorem offerToClose_past (hunknown : ¬KnowsNode publicKey ipPort dht.closeClientlist)
    (hvalid : ¬CloseAccessesValid now dht publicKey) : offerToClose now dht publicKey ipPort = none := by
  have hpast : addToClose now dht publicKey ipPort false = none := by
    by_contra hne
    exact hvalid ((addToClose_ne_none_iff now dht publicKey ipPort false).mp hne)
  unfold offerToClose
  rw [clientOrIpPortInList_eq_none now hunknown, hpast]
  rfl

/-- The report, from what was counted for the close list. -/
theorem reportsUse_iff_of_close {dht' : Dht} {used : ℕ}
    (hclose : offerToClose env.unixTime dht publicKey (unembed ipPort) = some (used, dht')) :
    ReportsUse env dht ipPort publicKey ↔
      ((used > 0 ∨ ∃ friend ∈ dht.friendsList, FriendTakes env.unixTime publicKey (unembed ipPort) friend) ↔
        InList publicKey dht'.closeClientlist ∨
          ∃ friend ∈ dht.friendsList, FriendTakes env.unixTime publicKey (unembed ipPort) friend) := by
  have hadd : addtoLists env dht ipPort publicKey = _ := congrArg (Option.map _) hclose
  have hmem (total : ℕ) (dht'' : Dht) (callbacks : List IpCallback)
      (h : addtoLists env dht ipPort publicKey = some (total, dht'', callbacks)) :
      ReportsUse env dht ipPort publicKey ↔ (total > 0 ↔ InSomeList publicKey dht'') := by
    constructor
    · rintro ⟨total', dht₂, callbacks', h', huse, -⟩
      obtain ⟨rfl, rfl, -⟩ : total = total' ∧ dht'' = dht₂ ∧ callbacks = callbacks' := by simpa [h] using h'
      exact huse
    · intro huse
      exact ⟨total, dht'', callbacks, h, huse, by rw [← huse, gt_iff_lt, not_lt, Nat.le_zero]⟩
  rw [hmem _ _ _ hadd, InSomeList]
  obtain ⟨hle, hcount, hstored⟩ := @offerToFriends_reports env publicKey (unembed ipPort) dht'.friendsList used none
  dsimp only
  rw [hstored, ← offerToClose_friendsList hclose]
  have htotal : (offerToFriends env publicKey (unembed ipPort) dht'.friendsList used none).2.1 > 0 ↔
      used > 0 ∨ ∃ friend ∈ dht'.friendsList, FriendTakes env.unixTime publicKey (unembed ipPort) friend := by
    rw [← hcount]
    omega
  rw [htotal]

/-- The use is reported truthfully exactly where the close list knows the node, or the list of some friend takes it
and `add_to_close` stays inside the close list. -/
theorem addtoLists_reportsUse_iff (env : DhtEnv) (dht : Dht) (ipPort : IpPort) (publicKey : PublicKey) :
    ReportsUse env dht ipPort publicKey ↔
      KnowsNode publicKey (unembed ipPort) dht.closeClientlist ∨
        bitByBitCmp publicKey dht.selfPublicKey ≠ lclientLength ∧
          ∃ friend ∈ dht.friendsList, FriendTakes env.unixTime publicKey (unembed ipPort) friend := by
  by_cases hknown : KnowsNode publicKey (unembed ipPort) dht.closeClientlist
  · obtain ⟨dht', hclose, hstored⟩ := offerToClose_known env.unixTime hknown
    rw [reportsUse_iff_of_close hclose]
    exact iff_of_true (iff_of_true (.inl Nat.one_pos) (.inl hstored)) (.inl hknown)
  · rw [or_iff_right hknown, ← closeAccessesValid_iff env.unixTime]
    by_cases hvalid : CloseAccessesValid env.unixTime dht publicKey
    · obtain ⟨used, dht', hclose, hused⟩ := offerToClose_unknown hknown hvalid
      rw [reportsUse_iff_of_close hclose, and_iff_right hvalid, ← hused, gt_iff_lt, Nat.pos_iff_ne_zero]
      by_cases hfriend : ∃ friend ∈ dht.friendsList, FriendTakes env.unixTime publicKey (unembed ipPort) friend
      · exact iff_of_true (iff_of_true (.inr hfriend) (.inr hfriend)) hfriend
      · simp only [hfriend, or_false, not_iff_self]
    · refine iff_of_false ?_ fun h => hvalid h.1
      rintro ⟨used, dht', callbacks, hadd, -⟩
      obtain ⟨⟨count, mid⟩, hclose, -⟩ := map_eq_some_iff.mp hadd
      rw [offerToClose_past hknown hvalid] at hclose
      cases hclose

/-- The first node a new DHT hears of is stored in the close list, and no use is reported. -/
theorem stored_node_not_reported :
    let publicKey : PublicKey := List.Vector.replicate 32 128
    (addtoLists .calm (.new .zero) publicAddress publicKey).map
        (fun result => (result.1, (result.2.1.closeClientlist 0).publicKey)) = some (0, publicKey) ∧
      ¬ReportsUse .calm (.new .zero) publicAddress publicKey := by
  intro publicKey
  have hfirst : (addtoLists .calm (.new .zero) publicAddress publicKey).map
      (fun result => (result.1, (result.2.1.closeClientlist 0).publicKey)) = some (0, publicKey) := by
    decide +kernel
  refine ⟨hfirst, ?_⟩
  rintro ⟨used, dht, callbacks, hadd, huse, -⟩
  rw [hadd, map_some, some_inj, Prod.mk.injEq] at hfirst
  obtain ⟨rfl, hkey⟩ := hfirst
  exact absurd (huse.mpr (.inl ⟨0, hkey⟩)) (lt_irrefl 0)

end Toxcore
