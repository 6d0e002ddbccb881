import Toxcore.Groups.CloseConnections

/-!
# Groups that go on

Whatever a group receives, it is still there afterwards, and it lets a close connection go only where the peer at that
connection says that it leaves. What happens to one group leaves all others in the array.
-/

namespace Toxcore

open ByteStrings TableView List Option

/-- A group is there after a function, which lets no close connection go for its index. -/
structure GroupC.Continues (g : GroupC) (after : GroupC × List GroupCall) : Prop where
  there : after.1.status = .none → g.status = .none
  keepsClose : ∀ closeIndex, GroupCall.killClose closeIndex ∉ after.2

namespace GroupC.Continues

variable {g g' : GroupC} {after : GroupC × List GroupCall} {calls : List GroupCall} {packet : GroupPacket} {index : ℕ}

theorem refl (g : GroupC) : g.Continues (g, []) := ⟨id, fun _ => not_mem_nil⟩

/-- One function after another. -/
theorem trans (h : g.Continues (g', calls)) (h' : g'.Continues after) : g.Continues (after.1, calls ++ after.2) :=
  ⟨h.there ∘ h'.there, fun closeIndex hmem =>
    (mem_append.mp hmem).elim (h.keepsClose closeIndex) (h'.keepsClose closeIndex)⟩

variable (now : UInt64) (alloc : ℕ → Bool)

/-- A peer is added. -/
theorem addpeer (g : GroupC) (realPk tempPk : PublicKey) (peerNumber : UInt16) :
    g.Continues (g.addpeer now alloc realPk tempPk peerNumber).2 := by
  rw [GroupC.addpeer]
  split
  · exact ⟨id, fun _ => not_mem_nil⟩
  · split
    · exact refl g
    · split
      · exact refl g
      · exact ⟨id, by simp⟩

/-- A peer is deleted. -/
theorem delpeer (hindex : index < g.group.length) : g.Continues (g.delpeer alloc index hindex) := by
  refine ⟨id, fun closeIndex => ?_⟩
  rw [GroupC.delpeer]
  split <;> simp

/-- A peer is given its name. -/
theorem setnick {nick : Bytes} (h : g.setnick index nick = some after) : g.Continues after := by
  rw [GroupC.setnick] at h
  split at h
  · contradiction
  · split at h
    · obtain rfl := some_inj.mp h
      exact refl g
    · obtain rfl := some_inj.mp h
      exact ⟨id, by simp⟩

/-- The title is written. -/
theorem settitle {peerIndex : ℤ} {title : Bytes} (h : g.settitle peerIndex title = some after) : g.Continues after := by
  rw [GroupC.settitle] at h
  split at h
  · contradiction
  · split at h
    · obtain rfl := some_inj.mp h
      exact refl g
    · obtain rfl := some_inj.mp h
      exact ⟨id, by simp⟩

/-- A function that may fail, and then leaves the group. -/
theorem getD {result : Option (GroupC × List GroupCall)} (h : ∀ after, result = some after → g.Continues after) :
    g.Continues (result.getD (g, [])) := by
  cases result with
  | none => exact refl g
  | some after => exact h after rfl

/-- A message of a peer is handled. -/
theorem handleMessage {hindex : index < g.group.length} {messageId : UInt8} {msgData : Bytes}
    (h : g.handleMessage packet index hindex messageId msgData = some after) : g.Continues after := by
  rw [GroupC.handleMessage] at h
  split at h
  · split at h
    · contradiction
    · obtain rfl := some_inj.mp h
      exact ⟨id, fun _ => not_mem_nil⟩
  split at h
  · split at h
    · contradiction
    · obtain rfl := some_inj.mp h
      exact addpeer ..
  split at h
  · split at h
    · contradiction
    · split at h
      · obtain rfl := some_inj.mp h
        exact delpeer ..
      · contradiction
  split at h
  · exact setnick h
  split at h
  · exact settitle h
  split at h
  · split at h
    · contradiction
    · obtain rfl := some_inj.mp h
      exact ⟨id, by simp⟩
  split at h
  · split at h
    · contradiction
    · obtain rfl := some_inj.mp h
      exact ⟨id, by simp⟩
  · contradiction

/-- A packet of the group is handled. -/
theorem handleMessagePacketGroup (g : GroupC) (packet : GroupPacket) :
    g.Continues (g.handleMessagePacketGroup packet) := by
  rw [GroupC.handleMessagePacketGroup]
  split
  · exact refl g
  split
  · exact ⟨id, by simp⟩
  · dsimp only
    split
    · exact refl g
    · split
      · exact ⟨id, fun _ => not_mem_nil⟩
      · rename_i index _ _ _ g' calls heq
        have hcounted : g.Continues (g.setLast index packet.messageNumber, []) := ⟨id, fun _ => not_mem_nil⟩
        have hhandled := hcounted.trans (handleMessage heq)
        have hsent : g'.Continues (g', [.sendMessageAllClose packet.data]) := ⟨id, by simp⟩
        exact hhandled.trans hsent

variable (selfPk : PublicKey)

/-- The group is joined under a number. -/
theorem joinAs (g : GroupC) (realPk : PublicKey) (peerNumber : UInt16) :
    g.Continues (g.joinAs selfPk realPk peerNumber) := by
  rw [GroupC.joinAs]
  split
  · exact ⟨(by intro h; cases h), by simp⟩
  · exact refl g

/-- The records of a peer list are read. -/
theorem handlePeerRecords (now : UInt64) (alloc : ℕ → Bool) (g : GroupC) (data : Bytes) :
    g.Continues (g.handlePeerRecords selfPk now alloc data).2 := by
  induction hlength : data.length using Nat.strong_induction_on generalizing g data with
  | h length ih =>
    subst hlength
    have hadded := addpeer now alloc g (slice 32 data 2) (slice 32 data (2 + 32)) (networkUInt16 data)
    rw [GroupC.handlePeerRecords]
    split
    · exact refl g
    · rename_i hrecord
      split
      · rename_i heq
        rw [heq] at hadded
        exact hadded
      · rename_i peerIndex g₁ added heq
        rw [heq] at hadded
        have hjoined := hadded.trans (joinAs selfPk g₁ (slice 32 data 2) (networkUInt16 data))
        dsimp only
        split
        · exact hjoined
        · refine (hjoined.trans (getD fun _ => setnick)).trans (ih _ ?_ _ _ rfl)
          have hsize : peerRecordLength = 67 := rfl
          rw [length_drop, length_drop]
          omega

/-- A direct packet lets the close connection go that it came from, or none. -/
theorem handleDirectPacket (g : GroupC) (packet : GroupPacket) :
    g.handleDirectPacket selfPk packet = (g, [.killClose packet.closeIndex]) ∨
      g.Continues (g.handleDirectPacket selfPk packet) := by
  rw [GroupC.handleDirectPacket]
  split
  · exact .inr (refl g)
  split
  · exact .inl rfl
  right
  split
  · exact ⟨id, by simp⟩
  split
  · rw [GroupC.handleSendPeers]
    split
    · exact refl g
    · exact handlePeerRecords ..
  split
  · exact getD fun _ => settitle
  · exact refl g

/-- Peers that timed out are deleted, from an index on. -/
theorem clearTimedoutLoop (fuel i : ℕ) (g : GroupC) : g.Continues (g.clearTimedoutLoop now alloc fuel i) := by
  induction fuel generalizing i g with
  | zero => exact refl g
  | succ fuel ih =>
    rw [GroupC.clearTimedoutLoop]
    split
    · dsimp only
      split
      · exact (delpeer alloc _).trans (ih _ _)
      · exact (refl g).trans (ih _ _)
    · exact refl g

/-- Peers that timed out are deleted. -/
theorem clearTimedout (g : GroupC) : g.Continues (g.clearTimedout now alloc) :=
  clearTimedoutLoop now alloc _ 0 g

end GroupC.Continues

/-- A new peer takes no connections from anybody. -/
theorem GroupC.addpeer_forgets_nothing (now : UInt64) (alloc : ℕ → Bool) (g : GroupC) (realPk tempPk : PublicKey)
    (peerNumber : UInt16) (forgotten : PublicKey) :
    GroupCall.forgetConnections forgotten ∉ (g.addpeer now alloc realPk tempPk peerNumber).2.2 := by
  rw [addpeer]
  split
  · exact not_mem_nil
  · split
    · exact not_mem_nil
    · split
      · exact not_mem_nil
      · simp

/-! ## The array -/

variable {chats : List GroupC}

/-- The groups that are found are those in use. -/
theorem getGroupC_eq_some {groupnumber : ℕ} {g : GroupC} :
    getGroupC chats groupnumber = some g ↔ chats[groupnumber]? = some g ∧ g.status ≠ .none := by
  rw [getGroupC, filter_eq_some_iff, decide_eq_true_iff]

/-- Where none is found, none is in use. -/
theorem getGroupC_eq_none {groupnumber : ℕ} :
    getGroupC chats groupnumber = none ↔ ∀ g, chats[groupnumber]? = some g → g.status = .none := by
  rw [eq_none_iff_forall_ne_some]
  constructor
  · intro h g hg
    by_contra hstatus
    exact h g (getGroupC_eq_some.mpr ⟨hg, hstatus⟩)
  · intro h g hg
    obtain ⟨hget, hstatus⟩ := getGroupC_eq_some.mp hg
    exact hstatus (h g hget)

/-- The group that is wiped is gone, and all others are there. -/
theorem getGroupC_wipeGroupChat (chats : List GroupC) (groupnumber n : ℕ) :
    getGroupC (wipeGroupChat chats groupnumber) n = if groupnumber = n then none else getGroupC chats n := by
  have hview (chats : List GroupC) : getGroupC chats = view (Option.guard fun g => g.status ≠ .none) chats :=
    funext fun _ => (bind_guard ..).symm
  have hcut : getGroupC (wipeGroupChat chats groupnumber) = getGroupC (chats.set groupnumber .zero) := by
    rw [hview, hview]
    apply view_rdropWhile
    intro g hg
    rw [guard_eq_none_iff]
    simpa using hg
  rw [hcut]
  split
  · rename_i heq
    subst heq
    refine getGroupC_eq_none.mpr fun g hg => ?_
    obtain ⟨hlt, hat⟩ := List.getElem?_eq_some_iff.mp hg
    rw [← hat, getElem_set_self]
    rfl
  · rename_i hne
    rw [getGroupC, getGroupC, getElem?_set_ne hne]

/-- The group that a response is for exists. -/
theorem respondedGroup_there {data : Bytes} {groupnum : ℕ} {g : GroupC}
    (h : respondedGroup chats data = some (groupnum, g)) : getGroupC chats groupnum = some g := by
  rw [respondedGroup] at h
  split at h
  · contradiction
  · obtain ⟨found, hfound, hresult⟩ := bind_eq_some_iff.mp h
    split at hresult
    · contradiction
    · obtain ⟨rfl, rfl⟩ := Prod.mk.inj (some_inj.mp hresult)
      exact hfound

/-- All groups are still there. -/
structure GroupsStay (chats chats' : List GroupC) : Prop where
  length : chats.length ≤ chats'.length
  there : ∀ n, getGroupC chats' n = none → getGroupC chats n = none

namespace GroupsStay

variable {chats chats' : List GroupC} {groupnumber : ℕ} {g g' : GroupC}

theorem refl (chats : List GroupC) : GroupsStay chats chats := ⟨Nat.le_refl _, fun _ => id⟩

/-- A place is written at which no group was. -/
theorem set_free (h : GroupsStay chats chats') (hfree : getGroupC chats groupnumber = none) (g : GroupC) :
    GroupsStay chats (chats'.set groupnumber g) := by
  refine ⟨?_, fun n hn => ?_⟩
  · rw [length_set]
    exact h.length
  · by_cases heq : groupnumber = n
    · exact heq ▸ hfree
    · refine h.there n (getGroupC_eq_none.mpr fun g' hg' => ?_)
      exact getGroupC_eq_none.mp hn g' ((getElem?_set_ne heq).trans hg')

/-- A place that is free is written. -/
theorem modify_free (h : GroupsStay chats chats') (hfree : getGroupC chats groupnumber = none) (f : GroupC → GroupC) :
    GroupsStay chats (chats'.modify groupnumber f) := by
  cases hget : chats'[groupnumber]? with
  | none =>
    rw [modify_eq_self (List.getElem?_eq_none_iff.mp hget)]
    exact h
  | some g =>
    rw [modify_eq_set hget]
    exact h.set_free hfree (f g)

/-- A group is written that is still there. -/
theorem set (hget : getGroupC chats groupnumber = some g) (hthere : g'.status = .none → g.status = .none) :
    GroupsStay chats (chats.set groupnumber g') := by
  obtain ⟨hat, hstatus⟩ := getGroupC_eq_some.mp hget
  have hlt := (List.getElem?_eq_some_iff.mp hat).1
  refine ⟨(length_set ..).ge, fun n hn => getGroupC_eq_none.mpr fun other hother => ?_⟩
  by_cases heq : groupnumber = n
  · subst heq
    exact absurd (hthere (getGroupC_eq_none.mp hn g' (getElem?_set_self hlt))) hstatus
  · exact getGroupC_eq_none.mp hn other ((getElem?_set_ne heq).trans hother)

/-- `create_group_chat` finds a place at which no group is. -/
theorem createGroupChat {alloc : Bool} (h : createGroupChat alloc chats = some (groupnumber, chats')) :
    GroupsStay chats chats' ∧ getGroupC chats groupnumber = none ∧ groupnumber < chats'.length := by
  rw [Toxcore.createGroupChat] at h
  split at h
  · rename_i i hfound
    obtain ⟨rfl, rfl⟩ := Prod.mk.inj (some_inj.mp h)
    obtain ⟨hlt, hfree, -⟩ := findIdx?_eq_some_iff_getElem.mp hfound
    refine ⟨refl chats, getGroupC_eq_none.mpr fun g hg => ?_, hlt⟩
    obtain rfl := some_inj.mp ((getElem?_eq_getElem hlt).symm.trans hg)
    exact of_decide_eq_true hfree
  · split at h
    · obtain ⟨rfl, rfl⟩ := Prod.mk.inj (some_inj.mp h)
      refine ⟨⟨by simp, fun n hn => getGroupC_eq_none.mpr fun g hg => ?_⟩,
        getGroupC_eq_none.mpr fun g hg => ?_, by simp⟩
      · have hlt := (List.getElem?_eq_some_iff.mp hg).1
        exact getGroupC_eq_none.mp hn g ((getElem?_append_left hlt).trans hg)
      · rw [getElem?_eq_none (Nat.le_refl _)] at hg
        contradiction
    · contradiction

/-- A group is made. -/
theorem addGroupchat (now : UInt64) (allocChats : Bool) (alloc : ℕ → Bool) (identifier : Block groupIdentifierLength)
    (selfPk tempPk : PublicKey) (name : Bytes) (chats : List GroupC) :
    GroupsStay chats (addGroupchat now allocChats alloc identifier selfPk tempPk name chats).1 := by
  rw [Toxcore.addGroupchat]
  split
  · exact refl chats
  · rename_i groupnumber chats' hcreate
    obtain ⟨hstay, hfree, -⟩ := createGroupChat hcreate
    split
    · exact hstay
    · dsimp only
      split <;> exact hstay.set_free hfree _

/-- The calls of `add_groupchat` are those of the new group. -/
theorem addGroupchat_calls {allocChats : Bool}
    (hcreate : Toxcore.createGroupChat allocChats chats = some (groupnumber, chats'))
    (now : UInt64) (alloc : ℕ → Bool) (identifier : Block groupIdentifierLength) (selfPk tempPk : PublicKey)
    (name : Bytes) :
    ∃ calls : List GroupCall,
      (Toxcore.addGroupchat now allocChats alloc identifier selfPk tempPk name chats).2 =
        calls.map (.group groupnumber) ∧
      ∀ closeIndex, GroupCall.killClose closeIndex ∉ calls := by
  rw [Toxcore.addGroupchat, hcreate]
  dsimp only
  split
  · exact ⟨[], rfl, fun _ => not_mem_nil⟩
  · rename_i g _
    have hadded := GroupC.Continues.addpeer now alloc
      { g with status := .connected, identifier := identifier, peerNumber := 0 } selfPk tempPk 0
    split
    · rename_i heq
      rw [heq] at hadded
      exact ⟨_, rfl, hadded.keepsClose⟩
    · rename_i peerIndex g' calls heq
      rw [heq] at hadded
      exact ⟨_, rfl, (hadded.trans (.getD fun _ => GroupC.Continues.setnick)).keepsClose⟩

/-- An invited group is joined. -/
theorem joinGroupchat (allocChats friendExists sent : Bool) (expectedType : UInt8) (data : Bytes)
    (chats : List GroupC) :
    GroupsStay chats (joinGroupchat allocChats friendExists sent expectedType data chats).1 := by
  rw [Toxcore.joinGroupchat]
  split
  · exact refl chats
  split
  · exact refl chats
  split
  · exact refl chats
  split
  · exact refl chats
  split
  · exact refl chats
  · rename_i groupnumber chats' hcreate
    obtain ⟨hstay, hfree, -⟩ := createGroupChat hcreate
    split <;> exact hstay.modify_free hfree _

/-- An invite packet of a friend is handled. -/
theorem handleFriendInvitePacket (chats : List GroupC) (packet : InvitePacket) :
    GroupsStay chats (handleFriendInvitePacket chats packet).1 := by
  rw [Toxcore.handleFriendInvitePacket]
  split
  · exact refl chats
  split
  · split
    · exact refl chats
    split <;> exact refl chats
  split
  · split
    · exact refl chats
    · rename_i groupnum g hgroup
      split
      · exact refl chats
      · rename_i peerNumber _
        exact set (respondedGroup_there hgroup)
          (GroupC.Continues.addpeer packet.now packet.alloc g packet.realPk packet.tempPk peerNumber).there
  · exact refl chats

end GroupsStay

/-- What `handle_friend_invite_packet` calls: nothing that the groups do, or, for a response for which a number is
drawn, what is called for a new peer, and the function that adds its connection. -/
theorem handleFriendInvitePacket_calls (chats : List GroupC) (packet : InvitePacket) :
    (∀ call ∈ (handleFriendInvitePacket chats packet).2, ∃ type data, call = .inviteCallback type data) ∨
      ∃ groupnum g peerNumber, packet.data.getD 0 0 = inviteResponseId ∧
        respondedGroup chats packet.data = some (groupnum, g) ∧ g.drawPeerNumber packet.rand = some peerNumber ∧
        (handleFriendInvitePacket chats packet).2 =
          (g.addpeer packet.now packet.alloc packet.realPk packet.tempPk peerNumber).2.2.map (.group groupnum) ++
            [.addConnToGroupchat groupnum (networkUInt16 (packet.data.drop 1)),
              .groupNewPeerSend groupnum peerNumber packet.realPk packet.tempPk] := by
  rw [handleFriendInvitePacket]
  split
  · exact .inl (by simp)
  split
  · left
    split
    · simp
    split <;> simp
  split
  · rename_i hid
    split
    · exact .inl (by simp)
    · rename_i groupnum g hgroup
      split
      · exact .inl (by simp)
      · rename_i peerNumber hdrawn
        exact .inr ⟨groupnum, g, peerNumber, hid, hgroup, hdrawn, rfl⟩
  · exact .inl (by simp)

end Toxcore
