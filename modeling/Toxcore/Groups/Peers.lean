import Toxcore.Data.TableView
import Toxcore.Messenger.FriendList

/-!
# The peers of a group chat

A group keeps its peers in an array. A new peer is put at the end, and only if its key and its number are not taken;
the last peer takes the place of one that is deleted. So the keys of the peers are pairwise distinct, whatever
arrives, and so are their numbers.

The functions return the calls they make: of the callbacks, and of the functions that keep the close connections,
which do not touch the peers.
-/

namespace Toxcore

open ByteStrings TableView List

/-! ## The group -/

/-- `Group_Peer`. The name is the part of `nick` that `nick_len` says. -/
structure GroupPeer where
  realPk : PublicKey
  tempPk : PublicKey
  lastRecv : UInt64
  lastMessageNumber : UInt32
  nick : Bytes
  peerNumber : UInt16

/-- `GROUPCHAT_STATUS_*`. -/
inductive GroupchatStatus where
  | none
  | valid
  | connected
  deriving DecidableEq

/-- `GROUP_IDENTIFIER_LENGTH`. -/
abbrev groupIdentifierLength : ℕ := 1 + 32

/-- The peers of a `Group_c`, its status, identifier and title, and our own number in it. -/
structure GroupC where
  status : GroupchatStatus
  identifier : Block groupIdentifierLength
  group : List GroupPeer
  peerNumber : UInt16
  title : Bytes
  distinct : (group.map GroupPeer.peerNumber).Nodup
  distinctKeys : (group.map GroupPeer.realPk).Nodup

/-- What the callback of the name list is told. -/
inductive ChatChange where
  | peerAdd
  | peerDel
  | peerName
  deriving DecidableEq

/-- A call that a function of a group makes: of a callback, of `add_to_closest`, of the part of `delpeer` that forgets
the connections of a peer, of `send_peer_query` or `send_peers` for a close connection, of the part of
`handle_direct_packet` that lets a close connection go, of `group_name_send`, or of `send_message_all_close`. -/
inductive GroupCall where
  | namelistChange (peerIndex : ℕ) (change : ChatChange)
  | peerOnJoin (peerIndex : ℕ)
  | peerOnLeave (peerIndex : ℕ)
  | titleChange (peerIndex : ℤ) (title : Bytes)
  | message (peerIndex : ℕ) (data : Bytes)
  | action (peerIndex : ℕ) (data : Bytes)
  | addToClosest (realPk tempPk : PublicKey)
  | forgetConnections (realPk : PublicKey)
  | sendPeerQuery (closeIndex : ℕ)
  | sendPeers (closeIndex : ℕ)
  | killClose (closeIndex : ℕ)
  | groupNameSend
  | sendMessageAllClose (data : Bytes)
  deriving DecidableEq

/-- `peer_in_chat`, `none` for -1. -/
def GroupC.peerInChat (g : GroupC) (realPk : PublicKey) : Option ℕ := g.group.findIdx? fun peer => peer.realPk = realPk

/-- `get_peer_index`, `none` for -1. -/
def GroupC.getPeerIndex (g : GroupC) (peerNumber : UInt16) : Option ℕ :=
  g.group.findIdx? fun peer => peer.peerNumber = peerNumber

/-! ## Changes of the array -/

/-- Change a peer, but neither its number nor its key. -/
def GroupC.modify (g : GroupC) (i : ℕ) (f : GroupPeer → GroupPeer)
    (hf : ∀ peer, (f peer).peerNumber = peer.peerNumber ∧ (f peer).realPk = peer.realPk) : GroupC :=
  { g with
    group := g.group.modify i f
    distinct := by
      rw [map_modify_of_keeps fun peer => (hf peer).1]
      exact g.distinct
    distinctKeys := by
      rw [map_modify_of_keeps fun peer => (hf peer).2]
      exact g.distinctKeys }

/-- After a change of a peer there are the old peers, and the one that was changed. -/
theorem GroupC.mem_of_mem_modify {g : GroupC} {i : ℕ} {f : GroupPeer → GroupPeer}
    (hf : ∀ peer, (f peer).peerNumber = peer.peerNumber ∧ (f peer).realPk = peer.realPk) {peer' : GroupPeer}
    (h : peer' ∈ (g.modify i f hf).group) : peer' ∈ g.group ∨ ∃ peer ∈ g.group, f peer = peer' := by
  change peer' ∈ g.group.modify i f at h
  obtain ⟨j, hj, rfl⟩ := mem_iff_getElem.mp h
  have hlength : j < g.group.length := by
    rw [length_modify] at hj
    exact hj
  rw [getElem_modify]
  split
  · right
    exact ⟨g.group[j], getElem_mem hlength, rfl⟩
  · left
    exact getElem_mem hlength

/-- A number that is not found is not taken. -/
theorem GroupC.getPeerIndex_none {g : GroupC} {peerNumber : UInt16} (h : g.getPeerIndex peerNumber = none) :
    peerNumber ∉ g.group.map GroupPeer.peerNumber := by
  intro hmem
  obtain ⟨peer, hpeer, hnumber⟩ := mem_map.mp hmem
  have hskipped := findIdx?_eq_none_iff.mp h peer hpeer
  simp [hnumber] at hskipped

/-- A key that is not found is not taken. -/
theorem GroupC.peerInChat_none {g : GroupC} {realPk : PublicKey} (h : g.peerInChat realPk = none) :
    realPk ∉ g.group.map GroupPeer.realPk := by
  intro hmem
  obtain ⟨peer, hpeer, hkey⟩ := mem_map.mp hmem
  have hskipped := findIdx?_eq_none_iff.mp h peer hpeer
  simp [hkey] at hskipped

/-- Put a peer with a new key and a new number at the end. -/
def GroupC.push (g : GroupC) (peer : GroupPeer) (hkey : g.peerInChat peer.realPk = none)
    (hnumber : g.getPeerIndex peer.peerNumber = none) : GroupC :=
  { g with
    group := g.group ++ [peer]
    distinct := by
      rw [map_append, map_singleton, nodup_append_comm]
      exact nodup_cons.mpr ⟨getPeerIndex_none hnumber, g.distinct⟩
    distinctKeys := by
      rw [map_append, map_singleton, nodup_append_comm]
      exact nodup_cons.mpr ⟨peerInChat_none hkey, g.distinctKeys⟩ }

/-- Up to the order, removing an element by moving the last one is erasing it. -/
theorem swapRemove_perm_eraseIdx {α : Type*} {elements : List α} {i : ℕ} (h : i < elements.length) :
    (swapRemove elements i).Perm (elements.eraseIdx i) := by
  have hperm := swapRemove_perm (elements.take i) elements[i] (elements.drop (i + 1))
  rw [getElem_cons_drop, take_append_drop, length_take_of_le (Nat.le_of_lt h)] at hperm
  rw [eraseIdx_eq_take_drop_succ]
  exact hperm

/-- Remove a peer. -/
def GroupC.remove (g : GroupC) (i : ℕ) (h : i < g.group.length) : GroupC :=
  { g with
    group := swapRemove g.group i
    distinct := by
      rw [((swapRemove_perm_eraseIdx h).map GroupPeer.peerNumber).nodup_iff]
      exact g.distinct.sublist ((eraseIdx_sublist ..).map _)
    distinctKeys := by
      rw [((swapRemove_perm_eraseIdx h).map GroupPeer.realPk).nodup_iff]
      exact g.distinctKeys.sublist ((eraseIdx_sublist ..).map _) }

/-! ## Peers -/

/-- `addpeer`: the index or `none` for -1, the group, and the calls. `alloc` is the outcome of an allocation for a
number of peers. -/
def GroupC.addpeer (now : UInt64) (alloc : ℕ → Bool) (g : GroupC) (realPk tempPk : PublicKey) (peerNumber : UInt16) :
    Option ℕ × GroupC × List GroupCall :=
  match hkey : g.peerInChat realPk with
  | some peerIndex =>
    (if (g.group[peerIndex]?.map GroupPeer.peerNumber) ≠ some peerNumber then none else some peerIndex,
      g.modify peerIndex (fun peer => { peer with tempPk := tempPk }) (fun _ => ⟨rfl, rfl⟩), [])
  | none =>
    match hnumber : g.getPeerIndex peerNumber with
    | some _ => (none, g, [])
    | none =>
      if !alloc (g.group.length + 1) then (none, g, [])
      else
        (some g.group.length, g.push ⟨realPk, tempPk, now, 0, [], peerNumber⟩ hkey hnumber,
          [.addToClosest realPk tempPk, .namelistChange g.group.length .peerAdd, .peerOnJoin g.group.length])

/-- `delpeer`: the group and the calls. Where the array cannot be made smaller, the callbacks are not called. -/
def GroupC.delpeer (alloc : ℕ → Bool) (g : GroupC) (peerIndex : ℕ) (h : peerIndex < g.group.length) :
    GroupC × List GroupCall :=
  (g.remove peerIndex h, .forgetConnections (g.group[peerIndex]).realPk ::
    if g.group.length ≠ 1 ∧ !alloc (g.group.length - 1) then []
    else [.namelistChange peerIndex .peerDel, .peerOnLeave peerIndex])

/-- `setnick`, `none` for -1. -/
def GroupC.setnick (g : GroupC) (peerIndex : ℕ) (nick : Bytes) : Option (GroupC × List GroupCall) :=
  if nick.length > maxNameLength then none
  else if (g.group[peerIndex]?.map GroupPeer.nick) = some nick then some (g, [])
  else
    some (g.modify peerIndex (fun peer => { peer with nick := nick }) (fun _ => ⟨rfl, rfl⟩),
      [.namelistChange peerIndex .peerName])

/-- `settitle`, `none` for -1. -/
def GroupC.settitle (g : GroupC) (peerIndex : ℤ) (title : Bytes) : Option (GroupC × List GroupCall) :=
  if title.length > maxNameLength ∨ title.length = 0 then none
  else if g.title = title then some (g, [])
  else some ({ g with title := title }, [.titleChange peerIndex title])

end Toxcore
