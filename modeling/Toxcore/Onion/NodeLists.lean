import Toxcore.Data.SortedTables
import Toxcore.Onion.Client
import Toxcore.Onion.Searching

/-!
# The nodes that responded

The client keeps the nodes that are closest to its own key, and for each friend those closest to the friend's. A
response is sorted in: the list is sorted first, a node whose key is in it is updated, and any other takes the place
of the first entry if that is timed out or farther.

The entries of a new list have the key zero, so the key zero is found in an unused entry, whether or not a node with
this key is in the list. Every other key is in the list at most once.
-/

namespace Toxcore

open ByteStrings SortedTables Function

/-- `MAX_ONION_CLIENTS_ANNOUNCE`. -/
abbrev maxOnionClientsAnnounce : ℕ := 12

/-- `NUMBER_ONION_PATHS`. -/
abbrev numberOnionPaths : ℕ := 6

/-- `Onion_Node`, with all its fields. -/
structure OnionListNode where
  publicKey : PublicKey
  ipPort : IpPort
  pingId : Block onionPingIdSize
  dataPublicKey : PublicKey
  isStored : UInt8
  timestamp : UInt64
  lastPinged : UInt64
  pathUsed : UInt32

/-- A node cleared to zero bytes. -/
def OnionListNode.zero : OnionListNode := ⟨.zero, .zero, List.Vector.replicate _ 0, .zero, 0, 0, 0, 0⟩

/-- The entry is timed out. -/
def OnionListNode.timedout (now : UInt64) (node : OnionListNode) : Bool := isTimeout now node.timestamp onionNodeTimeout

/-- The nodes of a friend, with its real key. -/
structure FriendNodes where
  realPublicKey : PublicKey
  clientsList : Fin maxOnionClients → OnionListNode

/-- The part of an `Onion_Client` that `client_add_to_list` uses, with the key of its `Net_Crypto`. The length of
`friendsList` is `num_friends`. -/
structure OnionNodeLists where
  selfPublicKey : PublicKey
  tempPublicKey : PublicKey
  clientsAnnounceList : Fin maxOnionClientsAnnounce → OnionListNode
  friendsList : List FriendNodes

/-- What a call observes: the clock, the numbers of the own paths and of those for friends, and the permutations by
which `qsort` sorts the lists. -/
structure NodeListEnv where
  unixTime : UInt64
  pathNums : Bool → Fin numberOnionPaths → UInt32
  qsort : (n : ℕ) → TableSort OnionListNode n

/-- `cmp_entry` of the onion client: timed out nodes first, then farther ones before closer ones. -/
def OnionListNode.cmpEntry (now : UInt64) (cmpPublicKey : PublicKey) (entry1 entry2 : OnionListNode) : Ordering :=
  let t1 := entry1.timedout now
  let t2 := entry2.timedout now
  if t1 && t2 then .eq
  else if t1 then .lt
  else if t2 then .gt
  else (idClosest cmpPublicKey entry1.publicKey entry2.publicKey).swap

/-- The return value of `set_path_timeouts`, for the own paths or those for friends. -/
def setPathTimeouts (env : NodeListEnv) (own : Bool) (pathNum : UInt32) : UInt32 :=
  if env.pathNums own (Fin.ofNat numberOnionPaths pathNum.toNat) = pathNum then pathNum else 0xFFFFFFFF

/-- What a response writes to an entry; `stored` says whether its key was in the list. -/
def writeNode (env : NodeListEnv) (call : ClientAddToList) (isStored : UInt8) (stored : Bool) (node : OnionListNode) :
    OnionListNode where
  publicKey := call.publicKey
  ipPort := call.ipPort
  pingId := if isStored = 1 then node.pingId else call.pingidOrKey
  dataPublicKey := if isStored = 1 then call.pingidOrKey else node.dataPublicKey
  isStored := isStored
  timestamp := env.unixTime
  lastPinged := if stored then node.lastPinged else 0
  pathUsed := setPathTimeouts env (call.num = 0) call.pathNum

/-- The part of `client_add_to_list` that works on one list. -/
def addToNodes {n : ℕ} [NeZero n] (env : NodeListEnv) (referenceId : PublicKey) (listNodes : Fin n → OnionListNode)
    (call : ClientAddToList) (isStored : UInt8) : Fin n → OnionListNode :=
  let listNodes := listNodes ∘ env.qsort n (OnionListNode.cmpEntry env.unixTime referenceId) listNodes
  match (List.finRange n).find? fun i => (listNodes i).publicKey = call.publicKey with
  | some i => update listNodes i (writeNode env call isStored true (listNodes i))
  | none =>
    if (listNodes 0).timedout env.unixTime ∨ idClosest referenceId (listNodes 0).publicKey call.publicKey = .gt then
      update listNodes 0 (writeNode env call isStored false (listNodes 0))
    else listNodes

/-- `client_add_to_list`, with the return value 0 as `true`. -/
def clientAddToList (env : NodeListEnv) (onionC : OnionNodeLists) (call : ClientAddToList) : Bool × OnionNodeLists :=
  if call.num.toNat > onionC.friendsList.length then (false, onionC)
  else if call.num = 0 then
    let isStored := if call.isStored = 1 ∧ call.pingidOrKey ≠ onionC.tempPublicKey then 0 else call.isStored
    (true, { onionC with
      clientsAnnounceList := addToNodes env onionC.selfPublicKey onionC.clientsAnnounceList call isStored })
  else if call.isStored ≥ 2 then (false, onionC)
  else
    (true, { onionC with
      friendsList := onionC.friendsList.modify (call.num.toNat - 1) fun friend =>
        { friend with clientsList := addToNodes env friend.realPublicKey friend.clientsList call call.isStored } })

/-! ## One list -/

/-- Timed out nodes are alike and come first. -/
theorem OnionListNode.cmpEntry_eq (now : UInt64) (cmpPublicKey : PublicKey) :
    OnionListNode.cmpEntry now cmpPublicKey =
      staleFirst (OnionListNode.timedout now) (farther fun node => xorDistance cmpPublicKey node.publicKey) := by
  funext entry1 entry2
  rw [OnionListNode.cmpEntry, staleFirst, idClosest_eq_compare, Nat.compare_swap]
  rfl

instance (now : UInt64) (cmpPublicKey : PublicKey) : Std.TransCmp (OnionListNode.cmpEntry now cmpPublicKey) := by
  rw [OnionListNode.cmpEntry_eq]
  infer_instance

/-- A key other than zero is in the list at most once. -/
def KeysOnce {n : ℕ} (listNodes : Fin n → OnionListNode) : Prop :=
  ∀ i j, (listNodes i).publicKey = (listNodes j).publicKey → (listNodes i).publicKey ≠ .zero → i = j

/-- Entries that are not timed out have distinct keys, but for the key zero. -/
def LiveKeysDistinct {n : ℕ} (now : UInt64) (listNodes : Fin n → OnionListNode) : Prop :=
  ∀ i j, (listNodes i).timedout now = false → (listNodes j).timedout now = false →
    (listNodes i).publicKey = (listNodes j).publicKey → (listNodes i).publicKey ≠ .zero → i = j

/-- A call of `client_add_to_list`, with a `qsort` that sorts. -/
structure NodeListCall where
  env : NodeListEnv
  call : ClientAddToList
  sorts : ∀ n, Sorts (env.qsort n)

section OneList

variable {n : ℕ} [NeZero n] (c : NodeListCall) (referenceId : PublicKey) (listNodes : Fin n → OnionListNode)

/-- An entry with the key of the response is updated. The others keep their contents, up to reordering. -/
def NodeListCall.Updates (listNodes' : Fin n → OnionListNode) : Prop :=
  ∃ (order : Equiv.Perm (Fin n)) (pos : Fin n) (isStored : UInt8),
    (listNodes (order pos)).publicKey = c.call.publicKey ∧
      listNodes' = update (listNodes ∘ order) pos (writeNode c.env c.call isStored true (listNodes (order pos)))

/-- The response takes the place of an entry: of a timed out one if there is one, and otherwise of the farthest, which
is farther than its key. The others keep their contents, up to reordering. -/
def NodeListCall.Replaces (listNodes' : Fin n → OnionListNode) : Prop :=
  ∃ (order : Equiv.Perm (Fin n)) (pos : Fin n) (isStored : UInt8),
    listNodes' = update (listNodes ∘ order) pos (writeNode c.env c.call isStored false (listNodes (order pos))) ∧
      ((∃ i, (listNodes i).timedout c.env.unixTime = true) → (listNodes (order pos)).timedout c.env.unixTime = true) ∧
      ((∀ i, (listNodes i).timedout c.env.unixTime = false) →
        idClosest referenceId c.call.publicKey (listNodes (order pos)).publicKey = .lt ∧
          ∀ i, idClosest referenceId (listNodes i).publicKey (listNodes (order pos)).publicKey ≠ .gt)

/-- There is an entry that a response with a new key may take the place of. -/
def NodeListCall.HasRoom : Prop :=
  (∃ i, (listNodes i).timedout c.env.unixTime = true) ∨
    ∃ i, idClosest referenceId c.call.publicKey (listNodes i).publicKey = .lt

/-- What a response does to a list. -/
structure NodeListCall.TakenIn (listNodes' : Fin n → OnionListNode) : Prop where
  known : (∃ i, (listNodes i).publicKey = c.call.publicKey) → c.Updates listNodes listNodes'
  room : (∀ i, (listNodes i).publicKey ≠ c.call.publicKey) → c.HasRoom referenceId listNodes →
    c.Replaces referenceId listNodes listNodes'
  full : (∀ i, (listNodes i).publicKey ≠ c.call.publicKey) → ¬c.HasRoom referenceId listNodes →
    ∃ order : Equiv.Perm (Fin n), listNodes' = listNodes ∘ order

/-- The order that a call finds its place in. -/
def NodeListCall.order :
    Equiv.Perm (Fin n) := c.env.qsort n (OnionListNode.cmpEntry c.env.unixTime referenceId) listNodes

variable {referenceId listNodes}

omit [NeZero n] in
/-- The entries are sorted in that order. -/
theorem NodeListCall.order_sorted :
    SortedBy (staleFirst (OnionListNode.timedout c.env.unixTime) (farther fun node =>
      xorDistance referenceId node.publicKey))
      (listNodes ∘ c.order referenceId listNodes) := by
  rw [← OnionListNode.cmpEntry_eq]
  exact c.sorts n _ listNodes

/-- A timed out entry comes first. -/
theorem NodeListCall.order_timedout {i : Fin n} (hi : (listNodes i).timedout c.env.unixTime = true) :
    (listNodes (c.order referenceId listNodes 0)).timedout c.env.unixTime = true :=
  c.order_sorted.order_stale hi

/-- While no entry is timed out, the farthest comes first. -/
theorem NodeListCall.order_farthest (hlive : ∀ i, (listNodes i).timedout c.env.unixTime = false) (i : Fin n) :
    xorDistance referenceId (listNodes i).publicKey ≤
      xorDistance referenceId (listNodes (c.order referenceId listNodes 0)).publicKey :=
  isLE_farther.mp (c.order_sorted.order_le hlive i)

/-- There is room exactly if the first entry after sorting may be replaced. -/
theorem NodeListCall.hasRoom_iff :
    c.HasRoom referenceId listNodes ↔
      (listNodes (c.order referenceId listNodes 0)).timedout c.env.unixTime = true ∨
        idClosest referenceId (listNodes (c.order referenceId listNodes 0)).publicKey c.call.publicKey = .gt := by
  constructor
  · intro hroom
    by_cases hstale : ∃ i, (listNodes i).timedout c.env.unixTime = true
    · obtain ⟨i, hi⟩ := hstale
      exact .inl (c.order_timedout hi)
    · have hlive : ∀ i, (listNodes i).timedout c.env.unixTime = false := by simpa using hstale
      obtain ⟨i, hi⟩ := hroom.resolve_left hstale
      rw [idClosest_eq_compare, Nat.compare_eq_lt] at hi
      exact .inr (idClosest_eq_gt.mpr (hi.trans_le (c.order_farthest hlive i)))
  · rintro (hstale | hfarther)
    · exact .inl ⟨_, hstale⟩
    · refine .inr ⟨c.order referenceId listNodes 0, ?_⟩
      rw [idClosest_eq_compare, Nat.compare_eq_lt]
      exact idClosest_eq_gt.mp hfarther

/-- A response is taken in. -/
theorem NodeListCall.addToNodes_takenIn (isStored : UInt8) :
    c.TakenIn referenceId listNodes (addToNodes c.env referenceId listNodes c.call isStored) := by
  unfold addToNodes
  dsimp only
  rw [show c.env.qsort n (OnionListNode.cmpEntry c.env.unixTime referenceId) listNodes =
    c.order referenceId listNodes from rfl]
  split
  · rename_i pos hpos
    have hkey : (listNodes (c.order referenceId listNodes pos)).publicKey = c.call.publicKey := by
      simpa using List.find?_some hpos
    refine ⟨fun _ => ⟨_, pos, isStored, hkey, rfl⟩, fun hnew => absurd hkey (hnew _), fun hnew => absurd hkey (hnew _)⟩
  · rename_i hnone
    have hnew (i : Fin n) : (listNodes i).publicKey ≠ c.call.publicKey := by
      have hskipped := List.find?_eq_none.mp hnone ((c.order referenceId listNodes).symm i) (List.mem_finRange _)
      simpa using hskipped
    split
    · rename_i hfirst
      have hroom := c.hasRoom_iff.mpr hfirst
      refine ⟨fun ⟨i, hi⟩ => absurd hi (hnew i), fun _ _ => ?_, fun _ hfull => absurd hroom hfull⟩
      refine ⟨_, 0, isStored, rfl, fun ⟨i, hi⟩ => c.order_timedout hi, fun hlive => ⟨?_, fun i => ?_⟩⟩
      · rw [idClosest_eq_compare, Nat.compare_eq_lt]
        exact idClosest_eq_gt.mp (hfirst.resolve_left (by simp [hlive]))
      · rw [ne_eq, idClosest_eq_gt, Nat.not_lt]
        exact c.order_farthest hlive i
    · rename_i hfirst
      have hfull : ¬c.HasRoom referenceId listNodes := fun hroom => hfirst (c.hasRoom_iff.mp hroom)
      exact ⟨fun ⟨i, hi⟩ => absurd hi (hnew i), fun _ hroom => absurd hroom hfull, fun _ _ => ⟨_, rfl⟩⟩

/-- A response keeps the keys other than zero distinct. -/
theorem KeysOnce.addToNodes (h : KeysOnce listNodes) (isStored : UInt8) :
    KeysOnce (addToNodes c.env referenceId listNodes c.call isStored) := by
  have hordered (order : Equiv.Perm (Fin n)) : KeysOnce (listNodes ∘ order) := by
    intro i j hsame hkey
    exact order.injective (h _ _ hsame hkey)
  -- an entry gets a key that no other entry has
  have hwritten (order : Equiv.Perm (Fin n)) (pos : Fin n) (node : OnionListNode)
      (hother : ∀ i ≠ pos, node.publicKey ≠ .zero → (listNodes (order i)).publicKey ≠ node.publicKey) :
      KeysOnce (update (listNodes ∘ order) pos node) := by
    intro i j hsame hkey
    by_cases hi : i = pos
    · by_cases hj : j = pos
      · rw [hi, hj]
      · rw [hi, update_self] at hsame hkey
        rw [update_of_ne hj] at hsame
        exact absurd hsame.symm (hother j hj hkey)
    · rw [update_of_ne hi] at hsame hkey
      by_cases hj : j = pos
      · rw [hj, update_self] at hsame
        exact absurd hsame (hother i hi (hsame ▸ hkey))
      · rw [update_of_ne hj] at hsame
        exact hordered order i j hsame hkey
  have htaken : c.TakenIn referenceId listNodes _ := c.addToNodes_takenIn isStored
  by_cases hknown : ∃ i, (listNodes i).publicKey = c.call.publicKey
  · obtain ⟨order, pos, stored, hpos, heq⟩ := htaken.known hknown
    rw [heq]
    refine hwritten order pos _ fun i hi hkey hsame => hi ?_
    exact hordered order i pos (hsame.trans hpos.symm) (hsame ▸ hkey)
  · have hnew : ∀ i, (listNodes i).publicKey ≠ c.call.publicKey := by simpa using hknown
    by_cases hroom : c.HasRoom referenceId listNodes
    · obtain ⟨order, pos, stored, heq, -⟩ := htaken.room hnew hroom
      rw [heq]
      exact hwritten order pos _ fun i _ _ => hnew (order i)
    · obtain ⟨order, heq⟩ := htaken.full hnew hroom
      rw [heq]
      exact hordered order

end OneList

/-! ## Runs -/

/-- The lists after a call. -/
def OnionNodeLists.after (onionC : OnionNodeLists) (c : NodeListCall) : OnionNodeLists :=
  (clientAddToList c.env onionC c.call).2

/-- All lists are cleared to zero bytes. -/
structure OnionNodeLists.Zeroed (onionC : OnionNodeLists) : Prop where
  announce : onionC.clientsAnnounceList = fun _ => .zero
  friends : ∀ friend ∈ onionC.friendsList, friend.clientsList = fun _ => .zero

/-- The clock and the lists after calls of `client_add_to_list` in passing time. -/
inductive NodeListsRun : UInt64 → OnionNodeLists → Prop
  | zeroed {clock : UInt64} {onionC : OnionNodeLists} (h : onionC.Zeroed) : NodeListsRun clock onionC
  | wait {clock clock' : UInt64} {onionC : OnionNodeLists} (hrun : NodeListsRun clock onionC) (hle : clock ≤ clock') :
      NodeListsRun clock' onionC
  | add {onionC : OnionNodeLists} (c : NodeListCall) (hrun : NodeListsRun c.env.unixTime onionC) :
      NodeListsRun c.env.unixTime (onionC.after c)

/-- A call is for one list: the own one or that of a friend. -/
theorem OnionNodeLists.after_cases (onionC : OnionNodeLists) (c : NodeListCall) :
    (c.call.num = 0 ∧ ∃ isStored, onionC.after c = { onionC with
        clientsAnnounceList := addToNodes c.env onionC.selfPublicKey onionC.clientsAnnounceList c.call isStored }) ∨
      (c.call.num ≠ 0 ∧ (c.call.isStored ≥ 2 ∨ c.call.num.toNat > onionC.friendsList.length) ∧
        onionC.after c = onionC) ∨
      c.call.num ≠ 0 ∧ c.call.isStored < 2 ∧ c.call.num.toNat ≤ onionC.friendsList.length ∧
        onionC.after c = { onionC with
        friendsList := onionC.friendsList.modify (c.call.num.toNat - 1) fun friend =>
          { friend with
            clientsList := addToNodes c.env friend.realPublicKey friend.clientsList c.call c.call.isStored } } := by
  rw [OnionNodeLists.after, clientAddToList]
  by_cases hnum : c.call.num = 0
  · have hown : ¬c.call.num.toNat > onionC.friendsList.length := by simp [hnum]
    rw [if_neg hown, if_pos hnum]
    exact .inl ⟨hnum, _, rfl⟩
  · by_cases hpast : c.call.num.toNat > onionC.friendsList.length
    · rw [if_pos hpast]
      exact .inr (.inl ⟨hnum, .inr hpast, rfl⟩)
    · rw [if_neg hpast, if_neg hnum]
      by_cases hrefused : c.call.isStored ≥ 2
      · rw [if_pos hrefused]
        exact .inr (.inl ⟨hnum, .inl hrefused, rfl⟩)
      · rw [if_neg hrefused]
        exact .inr (.inr ⟨hnum, UInt8.not_le.mp hrefused, Nat.not_lt.mp hpast, rfl⟩)

/-- In every list the keys other than zero are distinct. -/
theorem NodeListsRun.keysOnce {clock : UInt64} {onionC : OnionNodeLists} (hrun : NodeListsRun clock onionC) :
    KeysOnce onionC.clientsAnnounceList ∧ ∀ friend ∈ onionC.friendsList, KeysOnce friend.clientsList := by
  have hzero {n : ℕ} : KeysOnce fun _ : Fin n => OnionListNode.zero := fun _ _ _ hkey => absurd rfl hkey
  induction hrun with
  | zeroed h =>
    refine ⟨h.announce ▸ hzero, fun friend hfriend => ?_⟩
    rw [h.friends friend hfriend]
    exact hzero
  | wait _ _ ih => exact ih
  | @add onionC c _ ih =>
    obtain ⟨hannounce, hfriends⟩ := ih
    rcases onionC.after_cases c with ⟨-, isStored, heq⟩ | ⟨-, -, heq⟩ | ⟨-, -, -, heq⟩
    · rw [heq]
      exact ⟨hannounce.addToNodes c isStored, hfriends⟩
    · rw [heq]
      exact ⟨hannounce, hfriends⟩
    · rw [heq]
      refine ⟨hannounce, fun friend' hfriend' => ?_⟩
      obtain ⟨i, hi⟩ := List.mem_iff_getElem?.mp hfriend'
      rw [List.getElem?_modify] at hi
      obtain ⟨friend, hfriend, hmodified⟩ := Option.map_eq_some_iff.mp hi
      have honce := hfriends friend (List.mem_of_getElem? hfriend)
      split at hmodified
      · rw [← hmodified]
        exact honce.addToNodes c _
      · rw [← hmodified]
        exact honce

/-- What a call does to the lists: a response for ourselves is taken in to the own list, one for a friend to the list
of the friend, and no other list changes. -/
structure OnionNodeLists.TakenIn (onionC : OnionNodeLists) (c : NodeListCall) : Prop where
  own : c.call.num = 0 →
    c.TakenIn onionC.selfPublicKey onionC.clientsAnnounceList (onionC.after c).clientsAnnounceList ∧
      (onionC.after c).friendsList = onionC.friendsList
  refused : c.call.num ≠ 0 → c.call.isStored ≥ 2 ∨ c.call.num.toNat > onionC.friendsList.length →
    onionC.after c = onionC
  friend : c.call.num ≠ 0 → c.call.isStored < 2 → ∀ friend, onionC.friendsList[c.call.num.toNat - 1]? = some friend →
    ∃ friend', (onionC.after c).friendsList = onionC.friendsList.set (c.call.num.toNat - 1) friend' ∧
      friend'.realPublicKey = friend.realPublicKey ∧
      c.TakenIn friend.realPublicKey friend.clientsList friend'.clientsList ∧
      (onionC.after c).clientsAnnounceList = onionC.clientsAnnounceList

/-- A response is taken in. -/
theorem OnionNodeLists.after_takenIn (onionC : OnionNodeLists) (c : NodeListCall) : onionC.TakenIn c := by
  rcases onionC.after_cases c with ⟨hnum, isStored, heq⟩ | ⟨hnum, hrefused, heq⟩ | ⟨hnum, hok, hfits, heq⟩
  · refine ⟨fun _ => ?_, fun hother => absurd hnum hother, fun hother => absurd hnum hother⟩
    rw [heq]
    exact ⟨c.addToNodes_takenIn isStored, rfl⟩
  · refine ⟨fun hown => absurd hown hnum, fun _ _ => heq, fun _ hok friend hfriend => ?_⟩
    rcases hrefused with hrefused | hpast
    · exact absurd hok (UInt8.not_lt.mpr hrefused)
    · have hlt := (List.getElem?_eq_some_iff.mp hfriend).1
      omega
  · refine ⟨fun hown => absurd hown hnum, fun _ hrefused => ?_, fun _ _ friend hfriend => ?_⟩
    · rcases hrefused with hrefused | hpast
      · exact absurd hok (UInt8.not_lt.mpr hrefused)
      · exact absurd hfits (Nat.not_le.mpr hpast)
    · rw [heq]
      refine ⟨{ friend with
        clientsList := addToNodes c.env friend.realPublicKey friend.clientsList c.call c.call.isStored },
        ?_, rfl, c.addToNodes_takenIn _, rfl⟩
      exact List.modify_eq_set_getElem? .. |>.trans (by simp [hfriend])

/-- The node lists of the onion client, after any calls of `client_add_to_list` in passing time: entries that are not
timed out have distinct keys, but for the key zero; a response whose key is in its list updates an entry with the key;
any other takes the place of a timed out entry if there is one, and otherwise that of the farthest entry if it is
farther than the response; and all other entries keep their contents. -/
theorem onion_nodes_replaced {clock : UInt64} {onionC : OnionNodeLists} (hrun : NodeListsRun clock onionC) :
    (LiveKeysDistinct clock onionC.clientsAnnounceList ∧
        ∀ friend ∈ onionC.friendsList, LiveKeysDistinct clock friend.clientsList) ∧
      ∀ c : NodeListCall, c.env.unixTime = clock → onionC.TakenIn c := by
  obtain ⟨hannounce, hfriends⟩ := hrun.keysOnce
  refine ⟨⟨fun i j _ _ => hannounce i j, fun friend hfriend i j _ _ => hfriends friend hfriend i j⟩, fun c _ => ?_⟩
  exact onionC.after_takenIn c

/-- A client without friends that got no response yet. -/
def noResponses : OnionNodeLists := ⟨List.Vector.replicate 32 255, .zero, fun _ => .zero, []⟩

theorem noResponses_zeroed : noResponses.Zeroed := ⟨rfl, by simp [noResponses]⟩

/-- A response for ourselves, from a node with a key of this byte. -/
def respondsAt (now : UInt64) (byte : UInt8) : NodeListCall where
  env := ⟨now, fun _ _ => 0, fun _ => insertionSort⟩
  call := ⟨0, List.Vector.replicate 32 byte, .zero, 0, List.Vector.replicate 32 0, 0⟩
  sorts _ := insertionSort_sorts

/-- A response for the first friend. -/
def respondsToFriend (now : UInt64) (byte : UInt8) : NodeListCall :=
  { respondsAt now byte with
    call := ⟨1, List.Vector.replicate 32 byte, .zero, 0, List.Vector.replicate 32 0, 0⟩ }

/-- A client with a friend, after a response for ourselves, one for the friend, and another one for ourselves. -/
def threeResponses : OnionNodeLists :=
  (({ noResponses with friendsList := [⟨List.Vector.replicate 32 7, fun _ => .zero⟩] }.after (respondsAt 1000 1)).after
    (respondsToFriend 1010 5)).after (respondsAt 1020 2)

/-- After these responses both nodes that responded for ourselves are live and distinct, the response of a third takes
the place of an entry that is timed out, and another one of the node that responded for the friend updates its
entry. -/
theorem onion_nodes_replaced_fourth :
    LiveKeysDistinct 1030 threeResponses.clientsAnnounceList ∧
      (∀ byte ∈ [1, 2], ∃ i, (threeResponses.clientsAnnounceList i).publicKey = List.Vector.replicate 32 byte ∧
        (threeResponses.clientsAnnounceList i).timedout 1030 = false) ∧
      (respondsAt 1030 3).Replaces threeResponses.selfPublicKey threeResponses.clientsAnnounceList
        (threeResponses.after (respondsAt 1030 3)).clientsAnnounceList ∧
      ∃ friend friend', threeResponses.friendsList = [friend] ∧
        (threeResponses.after (respondsToFriend 1030 5)).friendsList = [friend'] ∧
        (respondsToFriend 1030 5).Updates friend.clientsList friend'.clientsList := by
  have hzeroed :
    OnionNodeLists.Zeroed { noResponses with friendsList := [⟨List.Vector.replicate 32 7, fun _ => .zero⟩] } :=
    ⟨rfl, by simp⟩
  have hfirst := (NodeListsRun.zeroed hzeroed).add (respondsAt 1000 1)
  have hsecond := (hfirst.wait (show 1000 ≤ 1010 by decide)).add (respondsToFriend 1010 5)
  have hthird := (hsecond.wait (show 1010 ≤ 1020 by decide)).add (respondsAt 1020 2)
  obtain ⟨⟨hdistinct, -⟩, htaken⟩ := onion_nodes_replaced (hthird.wait (show 1020 ≤ 1030 by decide))
  refine ⟨hdistinct, by decide +kernel, ?_, ?_⟩
  · exact ((htaken (respondsAt 1030 3) rfl).own rfl).1.room (by decide +kernel) (.inl ⟨5, by decide +kernel⟩)
  · obtain ⟨friend', hlist, -, hupdated, -⟩ :=
      (htaken (respondsToFriend 1030 5) rfl).friend (by decide) (by decide) _ rfl
    exact ⟨_, friend', rfl, hlist, hupdated.known (by decide +kernel)⟩

/-- A node with the key zero that responds twice is in the list twice. -/
theorem zero_key_twice :
    ∃ onionC, NodeListsRun 1000 onionC ∧ ∃ i j : Fin maxOnionClientsAnnounce, i ≠ j ∧
      (onionC.clientsAnnounceList i).timedout 1000 = false ∧ (onionC.clientsAnnounceList j).timedout 1000 = false ∧
      (onionC.clientsAnnounceList i).publicKey = (onionC.clientsAnnounceList j).publicKey := by
  have hrun : NodeListsRun 1000 ((noResponses.after (respondsAt 1000 0)).after (respondsAt 1000 0)) :=
    ((NodeListsRun.zeroed noResponses_zeroed).add (respondsAt 1000 0)).add (respondsAt 1000 0)
  refine ⟨_, hrun, 0, 11, by decide, ?_, ?_, ?_⟩
  · decide +kernel
  · decide +kernel
  · decide +kernel

end Toxcore
