import Toxcore.DHT.Nodes

/-!
# The nodes closest to a key

`get_close_nodes` looks through the close list and the lists of all friends and fills an array of `MAX_SENT_NODES`
nodes, first in the order they are found and then by `add_to_list`. An unused element of the array has a key of zero
bytes, so an entry with that key counts as present until the array is full.

The main result is that the nodes returned are the closest ones of all that may be sent.
-/

namespace Toxcore

open List

open Closest (Selects)

/-- `client_in_nodelist`. -/
def clientInNodelist (list : List NodeFormat) (publicKey : PublicKey) : Bool :=
  list.any fun node => node.publicKey = publicKey

/-- The address of an entry that is looked at: the one of the family, or the one heard last for family 0. -/
def chosenAssoc (saFamily : UInt16) (client : ClientData) : IpptsPng :=
  if saFamily = afInet.toUInt16 then client.assoc4
  else if saFamily = afInet6.toUInt16 then client.assoc6
  else if client.assoc4.timestamp ≥ client.assoc6.timestamp then client.assoc4
  else client.assoc6

/-- `nodes_list` and `num_nodes` of a search. -/
structure NodesFound where
  nodesList : List NodeFormat
  numNodes : ℕ

/-- An array without nodes. -/
def NodesFound.empty : NodesFound := ⟨List.replicate maxSentNodes .zero, 0⟩

/-- The nodes found. -/
def NodesFound.nodes (found : NodesFound) : List NodeFormat := found.nodesList.take found.numNodes

variable (now : UInt64) (publicKey : PublicKey) (saFamily : UInt16) (isLan : Bool)

/-- The body of the loop of `get_close_nodes_inner`. -/
def considerClient (wantGood : Bool) (found : NodesFound) (client : ClientData) : NodesFound :=
  if clientInNodelist found.nodesList client.publicKey then found
  else
    let ipptp := chosenAssoc saFamily client
    if isTimeout now ipptp.timestamp badNodeTimeout then found
    else if lanIp ipptp.ipPort.ip ∧ !isLan then found
    else if !lanIp ipptp.ipPort.ip ∧ wantGood ∧ hardeningCorrect ipptp.hardening ≠ hardeningAllOk ∧
        publicKey ≠ client.publicKey then found
    else if found.numNodes < maxSentNodes then
      ⟨found.nodesList.set found.numNodes ⟨client.publicKey, ipptp.ipPort⟩, found.numNodes + 1⟩
    else { found with nodesList := (addToList found.nodesList client.publicKey ipptp.ipPort publicKey).2 }

/-- `get_close_nodes_inner`. -/
def getCloseNodesInner (clientList : List ClientData) (wantGood : Bool) (found : NodesFound) : NodesFound :=
  if saFamily ≠ afInet.toUInt16 ∧ saFamily ≠ afInet6.toUInt16 ∧ saFamily ≠ 0 then found
  else clientList.foldl (considerClient now publicKey saFamily isLan wantGood) found

/-- `get_somewhat_close_nodes`. The flag `want_good` is not passed on. -/
def getSomewhatCloseNodes (dht : Dht) (_wantGood : Bool) (found : NodesFound) : NodesFound :=
  dht.friendsList.foldl
    (fun found friend => getCloseNodesInner now publicKey saFamily isLan (List.ofFn friend.clientList) false found)
    (getCloseNodesInner now publicKey saFamily isLan (List.ofFn dht.closeClientlist) false found)

/-- `get_close_nodes`, without `ENABLE_ASSOC_DHT`. -/
def getCloseNodes (dht : Dht) (wantGood : Bool) : NodesFound :=
  getSomewhatCloseNodes now publicKey saFamily isLan dht wantGood .empty

/-! ## What may be sent -/

/-- An entry whose address may be sent: it is not timed out, and is no LAN address unless these are allowed. -/
def Eligible (client : ClientData) : Prop :=
  isTimeout now (chosenAssoc saFamily client).timestamp badNodeTimeout = false ∧
    (lanIp (chosenAssoc saFamily client).ipPort.ip = true → isLan = true)

instance (client : ClientData) : Decidable (Eligible now saFamily isLan client) := inferInstanceAs (Decidable (_ ∧ _))

/-- The node that is sent for an entry. -/
def sentNode (client : ClientData) : NodeFormat := ⟨client.publicKey, (chosenAssoc saFamily client).ipPort⟩

/-- All entries of the close list and of the lists of friends. -/
def Dht.clients (dht : Dht) : List ClientData :=
  List.ofFn dht.closeClientlist ++ dht.friendsList.flatMap fun friend => List.ofFn friend.clientList

/-- The non-zero keys with an entry that may be sent. -/
def eligibleKeys (clients : List ClientData) : Finset PublicKey :=
  ((clients.filter fun client => Eligible now saFamily isLan client).map ClientData.publicKey).toFinset.erase .zero

variable {now publicKey saFamily isLan}

/-- The keys that may be sent. -/
theorem mem_eligibleKeys {clients : List ClientData} {key : PublicKey} :
    key ∈ eligibleKeys now saFamily isLan clients ↔
      key ≠ .zero ∧ ∃ client ∈ clients, Eligible now saFamily isLan client ∧ client.publicKey = key := by
  simp [eligibleKeys, and_assoc]

/-! ## The search -/

/-- The array holds the closest of the keys offered: every eligible key that is not zero was, and the zero key only
when there were enough others. -/
structure Searched (now : UInt64) (publicKey : PublicKey) (saFamily : UInt16) (isLan : Bool) (seen : List ClientData)
    (found : NodesFound) (chosen : List NodeFormat) (offered : Finset PublicKey) : Prop where
  nodesList : found.nodesList = chosen ++ List.replicate (maxSentNodes - found.numNodes) .zero
  numNodes : chosen.length = found.numNodes
  selects : Selects (xorDistance publicKey) maxSentNodes offered (chosen.map NodeFormat.publicKey)
  sent : ∀ node ∈ chosen, ∃ client ∈ seen, Eligible now saFamily isLan client ∧ node = sentNode saFamily client
  offered_eligible : ∀ key ∈ offered, ∃ client ∈ seen, Eligible now saFamily isLan client ∧ client.publicKey = key
  eligible_offered : ∀ client ∈ seen, Eligible now saFamily isLan client → client.publicKey ≠ .zero →
    client.publicKey ∈ offered
  zero : .zero ∈ offered → maxSentNodes ≤ (offered.erase .zero).card

namespace Searched

variable {seen : List ClientData} {found : NodesFound} {chosen : List NodeFormat} {offered : Finset PublicKey}

theorem empty : Searched now publicKey saFamily isLan [] .empty [] ∅ :=
  ⟨rfl, rfl, Selects.empty maxSentNodes, by simp, by simp, by simp, by simp⟩

/-- At most four nodes are found. -/
theorem numNodes_le (h : Searched now publicKey saFamily isLan seen found chosen offered) :
    found.numNodes ≤ maxSentNodes := by
  have hlength := h.selects.length_le
  rwa [length_map, h.numNodes] at hlength

variable {client : ClientData}

section

variable (h : Searched now publicKey saFamily isLan seen found chosen offered)
include h

/-- An entry with nothing new to offer. -/
theorem skip (hclient : Eligible now saFamily isLan client → client.publicKey ≠ .zero → client.publicKey ∈ offered) :
    Searched now publicKey saFamily isLan (seen ++ [client]) found chosen offered := by
  refine ⟨h.nodesList, h.numNodes, h.selects, ?_, ?_, ?_, h.zero⟩
  · intro node hnode
    obtain ⟨other, hother, hrest⟩ := h.sent node hnode
    exact ⟨other, mem_append_left _ hother, hrest⟩
  · intro key hkey
    obtain ⟨other, hother, hrest⟩ := h.offered_eligible key hkey
    exact ⟨other, mem_append_left _ hother, hrest⟩
  · intro other hother heligible hnonzero
    rcases mem_append.mp hother with hother | hother
    · exact h.eligible_offered other hother heligible hnonzero
    · obtain rfl := mem_singleton.mp hother
      exact hclient heligible hnonzero

/-- An entry that is offered, with the new array and the nodes in it. -/
theorem offer (heligible : Eligible now saFamily isLan client) {found' : NodesFound} {chosen' : List NodeFormat}
    (hnodes : found'.nodesList = chosen' ++ List.replicate (maxSentNodes - found'.numNodes) .zero)
    (hnum : chosen'.length = found'.numNodes)
    (hselects : Selects (xorDistance publicKey) maxSentNodes (insert client.publicKey offered)
      (chosen'.map NodeFormat.publicKey))
    (hchosen : ∀ node ∈ chosen', node ∈ chosen ∨ node = sentNode saFamily client)
    (hzero : client.publicKey = .zero → maxSentNodes ≤ (offered.erase .zero).card) :
    Searched now publicKey saFamily isLan (seen ++ [client]) found' chosen' (insert client.publicKey offered) := by
  have hmem : client ∈ seen ++ [client] := mem_append_right _ (mem_singleton_self client)
  refine ⟨hnodes, hnum, hselects, ?_, ?_, ?_, ?_⟩
  · intro node hnode
    rcases hchosen node hnode with hold | hnew
    · obtain ⟨other, hother, hrest⟩ := h.sent node hold
      exact ⟨other, mem_append_left _ hother, hrest⟩
    · exact ⟨client, hmem, heligible, hnew⟩
  · intro key hkey
    rcases Finset.mem_insert.mp hkey with rfl | hkey
    · exact ⟨client, hmem, heligible, rfl⟩
    · obtain ⟨other, hother, hrest⟩ := h.offered_eligible key hkey
      exact ⟨other, mem_append_left _ hother, hrest⟩
  · intro other hother heligible' hnonzero
    rw [Finset.mem_insert]
    rcases mem_append.mp hother with hother | hother
    · exact .inr (h.eligible_offered other hother heligible' hnonzero)
    · rw [mem_singleton.mp hother]
      exact .inl rfl
  · intro hmem'
    have hcard : maxSentNodes ≤ (offered.erase .zero).card := by
      rcases Finset.mem_insert.mp hmem' with hkey | hold
      · exact hzero hkey.symm
      · exact h.zero hold
    exact hcard.trans (Finset.card_le_card (Finset.erase_subset_erase _ (Finset.subset_insert _ _)))

/-- Whether an entry counts as present. -/
theorem clientInNodelist_iff (key : PublicKey) :
    clientInNodelist found.nodesList key = true ↔
      key ∈ chosen.map NodeFormat.publicKey ∨ found.numNodes < maxSentNodes ∧ key = .zero := by
  simp only [clientInNodelist, any_eq_true, decide_eq_true_eq, h.nodesList, mem_append, mem_map,
    mem_replicate]
  constructor
  · rintro ⟨node, hnode | ⟨hroom, rfl⟩, rfl⟩
    · exact .inl ⟨node, hnode, rfl⟩
    · exact .inr ⟨by omega, rfl⟩
  · rintro (⟨node, hnode, rfl⟩ | ⟨hroom, rfl⟩)
    · exact ⟨node, .inl hnode, rfl⟩
    · exact ⟨.zero, .inr ⟨by omega, rfl⟩, rfl⟩

/-- An eligible entry is put in the next free place. -/
theorem fill (heligible : Eligible now saFamily isLan client)
    (hnew : client.publicKey ∉ chosen.map NodeFormat.publicKey) (hroom : found.numNodes < maxSentNodes)
    (hnonzero : client.publicKey ≠ .zero) :
    Searched now publicKey saFamily isLan (seen ++ [client])
      ⟨found.nodesList.set found.numNodes (sentNode saFamily client), found.numNodes + 1⟩
      (chosen ++ [sentNode saFamily client]) (insert client.publicKey offered) := by
  have hnum := h.numNodes
  refine h.offer heligible ?_ (by simp [hnum]) ?_ ?_ fun hzero => absurd hzero hnonzero
  · have hsplit : List.replicate (maxSentNodes - found.numNodes) NodeFormat.zero =
        .zero :: List.replicate (maxSentNodes - (found.numNodes + 1)) .zero := by
      rw [← replicate_succ]
      congr 1
      omega
    rw [h.nodesList, hsplit, set_append_right _ _ hnum.le, hnum, Nat.sub_self, set_cons_zero,
      append_assoc, singleton_append]
  · rw [map_append]
    exact h.selects.push hnew (by rwa [length_map, hnum])
  · intro node hnode
    exact (mem_append.mp hnode).imp_right mem_singleton.mp

/-- An eligible entry is inserted by displacement. -/
theorem displaced (heligible : Eligible now saFamily isLan client)
    (hnew : client.publicKey ∉ chosen.map NodeFormat.publicKey) (hfull : found.numNodes = maxSentNodes) :
    Searched now publicKey saFamily isLan (seen ++ [client])
      { found with
        nodesList := (addToList found.nodesList client.publicKey (chosenAssoc saFamily client).ipPort publicKey).2 }
      (Closest.displace (nodeDistance publicKey) chosen (sentNode saFamily client)).1
      (insert client.publicKey offered) := by
  have hlist : found.nodesList = chosen := by
    rw [h.nodesList, hfull, Nat.sub_self, replicate_zero, append_nil]
  have hlength : (chosen.map NodeFormat.publicKey).length = maxSentNodes := by
    rw [length_map, h.numNodes, hfull]
  refine h.offer heligible ?_ ?_ ?_ ?_ ?_
  · rw [hlist, addToList_eq, hfull, Nat.sub_self, replicate_zero, append_nil]
    rfl
  · rw [Closest.displace_length, h.numNodes]
  · have hkeys := Closest.displace_map (xorDistance publicKey) NodeFormat.publicKey chosen (sentNode saFamily client)
    have hselects := h.selects.displace hnew hlength
    rw [show client.publicKey = (sentNode saFamily client).publicKey from rfl, hkeys] at hselects
    exact hselects
  · intro node hnode
    have hperm := Closest.displace_perm (nodeDistance publicKey) chosen (sentNode saFamily client)
    exact (mem_cons.mp (hperm.mem_iff.mp (mem_cons_of_mem _ hnode))).symm
  · intro _
    by_cases hzero : PublicKey.zero ∈ offered
    · exact h.zero hzero
    · have hcard := h.selects.length_eq
      rw [Finset.erase_eq_of_notMem hzero]
      omega

/-- One entry is looked at. -/
theorem considerClient (client : ClientData) :
    ∃ chosen' offered', Searched now publicKey saFamily isLan (seen ++ [client])
      (considerClient now publicKey saFamily isLan false found client) chosen' offered' := by
  have hpresent := h.clientInNodelist_iff client.publicKey
  have hle := h.numNodes_le
  unfold Toxcore.considerClient
  split
  · rename_i hin
    refine ⟨chosen, offered, h.skip fun _ hnonzero => ?_⟩
    rcases hpresent.mp hin with hchosen | ⟨-, hzero⟩
    · exact h.selects.subset _ hchosen
    · exact absurd hzero hnonzero
  · rename_i hnew
    rw [hpresent, not_or, not_and] at hnew
    obtain ⟨hnew, hnonzero⟩ := hnew
    dsimp only
    split
    · rename_i htimeout
      exact ⟨chosen, offered, h.skip fun heligible _ => absurd htimeout (by rw [heligible.1]; decide)⟩
    · rename_i htimeout
      split
      · rename_i hlan
        refine ⟨chosen, offered, h.skip fun heligible _ => absurd hlan.2 ?_⟩
        rw [heligible.2 hlan.1]
        decide
      · rename_i hlan
        have heligible : Eligible now saFamily isLan client := by
          refine ⟨by simpa using htimeout, fun hislan => ?_⟩
          simpa [hislan] using hlan
        rw [if_neg (by simp)]
        split
        · rename_i hroom
          exact ⟨_, _, h.fill heligible hnew hroom (hnonzero hroom)⟩
        · exact ⟨_, _, h.displaced heligible hnew (by omega)⟩

/-- A list of entries is looked at. -/
theorem foldl (clients : List ClientData) :
    ∃ chosen' offered', Searched now publicKey saFamily isLan (seen ++ clients)
      (clients.foldl (Toxcore.considerClient now publicKey saFamily isLan false) found) chosen' offered' := by
  induction clients generalizing seen found chosen offered with
  | nil =>
    rw [append_nil]
    exact ⟨chosen, offered, h⟩
  | cons client rest ih =>
    obtain ⟨chosen₁, offered₁, h₁⟩ := h.considerClient client
    obtain ⟨chosen₂, offered₂, h₂⟩ := ih h₁
    rw [append_assoc, singleton_append] at h₂
    exact ⟨chosen₂, offered₂, h₂⟩

end

/-- The first list is looked at. -/
theorem first (hfamily : saFamily = 0 ∨ saFamily = afInet.toUInt16 ∨ saFamily = afInet6.toUInt16)
    (clients : List ClientData) :
    ∃ chosen offered, Searched now publicKey saFamily isLan clients
      (getCloseNodesInner now publicKey saFamily isLan clients false .empty) chosen offered := by
  rw [getCloseNodesInner, if_neg (by tauto)]
  exact Searched.empty.foldl clients

section

variable (h : Searched now publicKey saFamily isLan seen found chosen offered)
include h

/-- The lists of all friends are looked at. -/
theorem friends (hfamily : saFamily = 0 ∨ saFamily = afInet.toUInt16 ∨ saFamily = afInet6.toUInt16)
    (friends : List DhtFriend) :
    ∃ chosen' offered', Searched now publicKey saFamily isLan
      (seen ++ friends.flatMap fun friend => List.ofFn friend.clientList)
      (friends.foldl (fun found friend =>
        getCloseNodesInner now publicKey saFamily isLan (List.ofFn friend.clientList) false found) found)
      chosen' offered' := by
  induction friends generalizing seen found chosen offered with
  | nil =>
    rw [flatMap_nil, append_nil]
    exact ⟨chosen, offered, h⟩
  | cons friend rest ih =>
    obtain ⟨chosen₁, offered₁, h₁⟩ := h.foldl (List.ofFn friend.clientList)
    obtain ⟨chosen₂, offered₂, h₂⟩ := ih h₁
    rw [append_assoc] at h₂
    rw [flatMap_cons, foldl_cons, getCloseNodesInner, if_neg (by tauto)]
    exact ⟨chosen₂, offered₂, h₂⟩

/-- The keys offered, without the zero key, are the eligible ones. -/
theorem erase_zero : offered.erase .zero = eligibleKeys now saFamily isLan seen := by
  ext key
  rw [mem_eligibleKeys, Finset.mem_erase]
  constructor
  · rintro ⟨hnonzero, hkey⟩
    exact ⟨hnonzero, h.offered_eligible key hkey⟩
  · rintro ⟨hnonzero, client, hclient, heligible, rfl⟩
    exact ⟨hnonzero, h.eligible_offered client hclient heligible hnonzero⟩

/-- As many nodes are found as there are eligible keys, up to the length of the array. -/
theorem numNodes_eq : found.numNodes = min maxSentNodes (eligibleKeys now saFamily isLan seen).card := by
  have hlength := h.selects.length_eq
  rw [length_map, h.numNodes] at hlength
  rw [← h.erase_zero]
  by_cases hzero : PublicKey.zero ∈ offered
  · have hmany := h.zero hzero
    have hmore : (offered.erase .zero).card ≤ offered.card := Finset.card_le_card (Finset.erase_subset _ _)
    omega
  · rw [Finset.erase_eq_of_notMem hzero, hlength]

end

end Searched

/-- The nodes returned have different keys, there are as many as there are eligible keys or `MAX_SENT_NODES`, each is
the node of an eligible entry, and no eligible key that was left out is closer to the searched one. -/
theorem getCloseNodes_closest (now : UInt64) (dht : Dht) (publicKey : PublicKey) (saFamily : UInt16)
    (isLan wantGood : Bool) (hfamily : saFamily = 0 ∨ saFamily = afInet.toUInt16 ∨ saFamily = afInet6.toUInt16) :
    let found := getCloseNodes now publicKey saFamily isLan dht wantGood
    found.numNodes = min maxSentNodes (eligibleKeys now saFamily isLan dht.clients).card ∧
      found.nodes.length = found.numNodes ∧ (found.nodes.map NodeFormat.publicKey).Nodup ∧
      (∀ node ∈ found.nodes, ∃ client ∈ dht.clients, Eligible now saFamily isLan client ∧
        node = sentNode saFamily client) ∧
      ∀ key ∈ eligibleKeys now saFamily isLan dht.clients, key ∉ found.nodes.map NodeFormat.publicKey →
        ∀ node ∈ found.nodes, ¬xorDistance publicKey key < xorDistance publicKey node.publicKey := by
  intro found
  obtain ⟨chosen₁, offered₁, h₁⟩ := Searched.first hfamily (List.ofFn dht.closeClientlist)
  obtain ⟨chosen, offered, h⟩ :
    ∃ chosen offered, Searched now publicKey saFamily isLan dht.clients found chosen offered :=
    h₁.friends hfamily dht.friendsList
  have hnodes : found.nodes = chosen := by
    rw [NodesFound.nodes, h.nodesList, ← h.numNodes, take_left]
  rw [hnodes]
  refine ⟨h.numNodes_eq, h.numNodes, h.selects.nodup, h.sent, fun key hkey hout node hnode => ?_⟩
  rw [← h.erase_zero] at hkey
  have hcloser := (h.selects.closest key (Finset.mem_of_mem_erase hkey) hout).2
  exact not_lt.mpr (hcloser node.publicKey (mem_map_of_mem hnode))

/-- Six entries with the keys of bytes 1 to 6; the first one was last heard at time 0. -/
def sixNodes : Dht :=
  { Dht.new (List.Vector.replicate 32 9) with
    closeClientlist := fun i =>
      if i.val < 6 then
        ⟨List.Vector.replicate 32 (UInt8.ofNat (i.val + 1)),
          { IpptsPng.zero with timestamp := if i.val = 0 then 0 else 1000 }, .zero⟩
      else .zero }

/-- Five of the six entries are eligible. -/
theorem sixNodes_eligible : 5 ≤ (eligibleKeys 1000 afInet.toUInt16 false sixNodes.clients).card := by
  let client (i : Fin 5) : ClientData :=
    sixNodes.closeClientlist ⟨i.val + 1, (Nat.succ_lt_succ i.isLt).trans (by decide)⟩
  have hboth : ∀ i, (client i).publicKey ≠ .zero ∧ Eligible 1000 afInet.toUInt16 false (client i) := by decide
  have hcard : ((List.finRange 5).map fun i => (client i).publicKey).toFinset.card = 5 := by decide
  rw [← hcard]
  apply Finset.card_le_card
  intro key hkey
  obtain ⟨i, -, rfl⟩ := mem_map.mp (mem_toFinset.mp hkey)
  exact mem_eligibleKeys.mpr
    ⟨(hboth i).1, client i, mem_append_left _ (mem_ofFn.mpr ⟨_, rfl⟩), (hboth i).2, rfl⟩

/-- `MAX_SENT_NODES` of them are returned. -/
theorem getCloseNodes_closest_sixNodes :
    (getCloseNodes 1000 (List.Vector.replicate 32 2) afInet.toUInt16 false sixNodes false).numNodes = maxSentNodes ∧
      ((getCloseNodes 1000 (List.Vector.replicate 32 2) afInet.toUInt16 false sixNodes false).nodes.map
        NodeFormat.publicKey).Nodup := by
  have hcard := sixNodes_eligible
  have hsent : maxSentNodes = 4 := rfl
  obtain ⟨hnum, -, hnodup, -⟩ := getCloseNodes_closest 1000 sixNodes (List.Vector.replicate 32 2) afInet.toUInt16 false
    false (.inr (.inl rfl))
  exact ⟨hnum.trans (by omega), hnodup⟩

end Toxcore
