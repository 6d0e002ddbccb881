import Toxcore.Groups.Continuing
import Toxcore.Groups.Holders

/-!
# What the groups do with their holds

The functions of the groups, one after another: each of them takes a hold for every close connection that it adds, and
lets one go for every close connection that it takes away.
-/

namespace Toxcore

open ByteStrings TableView FriendConnections Function List

namespace GroupChats

variable {sodium : Sodium} {s s' : GroupChats} {c c' : GroupConnections} {groupnumber friendconId : ℕ}
  {i : Fin maxGroupConnections}

namespace SameNamed

/-- A call of a group that neither lets a close connection go nor forgets those of a peer. -/
theorem execGroupCall (sodium : Sodium) (env : FriendEnv) (groupnumber : ℕ) {call : GroupCall}
    (hkill : ∀ closeIndex, call ≠ .killClose closeIndex) (hforget : ∀ realPk, call ≠ .forgetConnections realPk) :
    SameNamed s (s.execGroupCall sodium env groupnumber call) := by
  cases call with
  | addToClosest realPk tempPk =>
    rw [GroupChats.execGroupCall]
    split
    · exact refl s
    · rename_i c hget
      exact setConns hget (GroupConnections.addToClosest_named ..)
  | forgetConnections realPk => exact absurd rfl (hforget realPk)
  | killClose closeIndex => exact absurd rfl (hkill closeIndex)
  | _ => exact refl s

/-- Calls for one group that neither let a close connection go nor forget those of a peer. -/
theorem execChatCalls (sodium : Sodium) (env : ℕ → FriendEnv) (friendconId : ℕ) (joined : Bool) {calls : List GroupCall}
    (hkill : ∀ closeIndex, GroupCall.killClose closeIndex ∉ calls)
    (hforget : ∀ realPk, GroupCall.forgetConnections realPk ∉ calls) (groupnumber : ℕ) :
    SameNamed s (s.execChatCalls sodium env friendconId joined (calls.map (.group groupnumber))) := by
  refine List.foldlRecOn (motive := SameNamed s) _ _ (refl s) fun s' hs' call hcall => hs'.trans ?_
  obtain ⟨groupCall, hmem, heq⟩ := mem_map.mp (fst_mem_of_mem_zipIdx hcall)
  rw [← heq]
  exact execGroupCall sodium _ groupnumber (fun closeIndex heq => hkill closeIndex (heq ▸ hmem))
    fun realPk heq => hforget realPk (heq ▸ hmem)

end SameNamed

/-- A friend connection that can be locked. -/
theorem AddFits.of_lockable (h : s.m.world.app.Lockable friendconId)
    (groupnumber : ℕ) : s.AddFits friendconId groupnumber :=
  fun _ _ _ _ => h

/-- A hold that fits still does where the close connections name the same. -/
theorem AddFits.of_sameNamed (h : s.AddFits friendconId groupnumber) (hsame : SameNamed s s') :
    s'.AddFits friendconId groupnumber := by
  intro c' hget hfriend hfree
  obtain ⟨c, hget, hnamed⟩ := hsame.getConns hget
  rw [GroupConnections.friendInClose_eq, hnamed, ← GroupConnections.friendInClose_eq] at hfriend
  rw [GroupConnections.freeClose_eq, hnamed, ← GroupConnections.freeClose_eq] at hfree
  rw [hsame.m]
  exact h c hget hfriend hfree

/-- A hold that fits still does where the peers were written. -/
theorem AddFits.setChats (h : s.AddFits friendconId groupnumber) (hlength : s.conns.length = s.chats.length)
    (hgroup : getGroupC s.chats groupnumber ≠ none) (chats : List GroupC) :
    (s.setChats chats).AddFits friendconId groupnumber := by
  intro c hget
  have hat : (s.conns ++ List.replicate _ _)[groupnumber]? = some c := (getConns_eq_some.mp hget).1
  have hlt : groupnumber < s.conns.length := by
    rw [hlength]
    by_contra hge
    exact hgroup (getGroupC_eq_none.mpr fun g hg => absurd (List.getElem?_eq_some_iff.mp hg).1 hge)
  rw [getElem?_append_left hlt] at hat
  exact h c (getConns_eq_some.mpr ⟨hat, hgroup⟩)

/-- The calls for one group come before the call that adds a connection, and the peer that is announced changes
nothing. -/
theorem execChatCalls_append (s : GroupChats) (env : ℕ → FriendEnv) (friendconId : ℕ) (joined : Bool)
    (calls : List ChatCall) (groupnumber : ℕ) (otherGroupnum peerNumber : UInt16) (realPk tempPk : PublicKey) :
    s.execChatCalls sodium env friendconId joined (calls ++ [.addConnToGroupchat groupnumber otherGroupnum,
        .groupNewPeerSend groupnumber peerNumber realPk tempPk]) =
      (s.execChatCalls sodium env friendconId joined calls).addJoined friendconId groupnumber otherGroupnum joined := by
  rw [execChatCalls, zipIdx_append, foldl_append]
  rfl

/-! ## Conditions -/

/-- A group is joined. -/
structure Joins (chats : List GroupC) (allocChats sent : Bool) (expectedType : UInt8) (data : Bytes) : Prop where
  length : data.length = 2 + groupIdentifierLength
  type : data.getD 2 0 = expectedType
  fresh : getGroupNum chats (slice groupIdentifierLength data 2) = none
  room : createGroupChat allocChats chats ≠ none
  sent : sent = true

/-- The friend connection through which a group is joined can be locked. -/
def JoinFits (s : GroupChats) (allocChats sent : Bool) (friendnumber : ℕ) (expectedType : UInt8)
    (data : Bytes) : Prop :=
  ∀ friendconId, s.m.getfriendconId friendnumber = some friendconId → Joins s.chats allocChats sent expectedType data →
    s.m.world.app.Lockable friendconId

/-- The invite can be sent, or the group has no close connections. -/
def InviteFits (s : GroupChats) (groupnumber : ℕ) (send : Bytes → Bool) : Prop :=
  ∀ g c, getGroupC s.chats groupnumber = some g → s.getConns groupnumber = some c →
    send (g.invitePacket groupnumber) = false →
    ∀ i, c.named i = none

/-- The friend connection of a friend that answers an invite can be locked, where it has to be. -/
def ResponseFits (s : GroupChats) (friendnumber : ℕ) (rand : ℕ → UInt16) (data : Bytes) : Prop :=
  ∀ friend groupnum g peerNumber, s.m.getFriend friendnumber = some friend → data.getD 0 0 = inviteResponseId →
    respondedGroup s.chats data = some (groupnum, g) → g.drawPeerNumber rand = some peerNumber →
      s.AddFits friend.friendconId groupnum

/-- Whoever connects a closest peer takes a hold that fits, or makes a friend connection for which a close connection
is free. -/
structure PeerFits (s : GroupChats) (env : FriendEnv) (groupnumber : ℕ) (peer : ClosestPeer) : Prop where
  locked : peer.entry = true → ∀ friendconId, s.m.world.app.getfriendConnIdPk peer.realPk = some friendconId →
    s.AddFits friendconId groupnumber
  room : peer.entry = true → s.m.world.app.getfriendConnIdPk peer.realPk = none →
    (s.m.world.app.newFriendConnection env peer.realPk).1 ≠ none → ∃ c, s.getConns groupnumber = some c ∧
      c.freeClose ≠ none

/-- All closest peers fit, one after another. -/
def RoomToConnect (sodium : Sodium) (env : ℕ → FriendEnv) (groupnumber : ℕ) (c : GroupConnections) :
    List (Fin desiredCloseConnections) → GroupChats → Prop
  | [], _ => True
  | i :: rest, s => s.PeerFits (env i) groupnumber (c.closestPeers i) ∧
      RoomToConnect sodium env groupnumber c rest (s.connectPeer sodium (env i) groupnumber (c.closestPeers i))

/-- Where the closest peers have changed, those that are to be connected fit. -/
def ConnectFits (s : GroupChats) (sodium : Sodium) (envDrop envConnect : ℕ → FriendEnv) (stackPk : PublicKey)
    (groupnumber : ℕ) : Prop :=
  ∀ g c, getGroupC s.chats groupnumber = some g → s.getConns groupnumber = some c → c.changed ≠ .none →
    RoomToConnect sodium envConnect groupnumber (s.refillClosest g c) (List.finRange desiredCloseConnections)
      (s.beforeConnecting sodium envDrop stackPk groupnumber g c)

/-- A join that calls has found a place. -/
theorem joins_of_calls {chats : List GroupC} {allocChats sent : Bool} {expectedType : UInt8} {data : Bytes}
    (h : (Toxcore.joinGroupchat allocChats true sent expectedType data chats).2 ≠ []) :
    Joins chats allocChats sent expectedType data := by
  rw [Toxcore.joinGroupchat] at h
  split at h
  · exact absurd rfl h
  rename_i hlength
  split at h
  · exact absurd rfl h
  rename_i htype
  split at h
  · exact absurd rfl h
  split at h
  · exact absurd rfl h
  rename_i hfresh
  split at h
  · exact absurd rfl h
  · rename_i hcreate
    split at h
    · rename_i hsent
      refine ⟨not_not.mp hlength, not_not.mp htype, ?_, ?_, hsent⟩
      · simpa using hfresh
      · rw [hcreate]
        simp
    · exact absurd rfl h

namespace Counted

/-- The peers are written, and all groups stay. -/
theorem setChats (h : s.Counted) {chats : List GroupC} (hstay : GroupsStay s.chats chats) :
    (s.setChats chats).Counted := by
  have hzero (n : ℕ) : GroupConnections.zero.holds n = 0 := GroupConnections.holds_free (fun _ => rfl) n
  refine ⟨fun n => ?_, h.unlocked, ?_, fun n c hc hnone => ?_⟩
  · have hcount := h.counted n
    rw [holders] at hcount
    change _ = s.m.holds n + ((s.conns ++ List.replicate _ _).map _).sum
    rw [map_append, map_replicate, hzero, sum_append, sum_replicate, Nat.nsmul_eq_mul, Nat.mul_zero,
      Nat.add_zero]
    exact hcount
  · change (s.conns ++ List.replicate _ _).length = chats.length
    rw [length_append, length_replicate, h.length]
    exact Nat.add_sub_cancel' hstay.length
  · rcases Nat.lt_or_ge n s.conns.length with hlt | hge
    · have hold : s.conns[n]? = some c := (getElem?_append_left hlt).symm.trans hc
      exact h.free n c hold (hstay.there n hnone)
    · have hnew :
        (List.replicate (chats.length - s.conns.length) GroupConnections.zero)[n - s.conns.length]? = some c :=
        (getElem?_append_right hge).symm.trans hc
      rw [eq_of_mem_replicate (mem_of_getElem? hnew)]
      exact fun _ => rfl

/-- The connections of a group are the same where the peers were written. -/
theorem setChats_getConns (hget : s.getConns groupnumber = some c) {chats : List GroupC}
    (hgroup : getGroupC chats groupnumber ≠ none) : (s.setChats chats).getConns groupnumber = some c := by
  obtain ⟨hat, -⟩ := getConns_eq_some.mp hget
  refine getConns_eq_some.mpr ⟨?_, hgroup⟩
  exact (getElem?_append_left (List.getElem?_eq_some_iff.mp hat).1).trans hat

/-- A group without close connections is wiped. -/
theorem wipeGroup (h : s.Counted) (hfree : ∀ c, s.getConns groupnumber = some c → ∀ i, c.named i = none) :
    (s.wipeGroup groupnumber).Counted := by
  have hnone : ∀ c, s.conns[groupnumber]? = some c → ∀ i, c.named i = none := by
    intro c hc
    by_cases hgroup : getGroupC s.chats groupnumber = none
    · exact h.free groupnumber c hc hgroup
    · exact hfree c (getConns_eq_some.mpr ⟨hc, hgroup⟩)
  have hle : (wipeGroupChat s.chats groupnumber).length ≤ (s.conns.set groupnumber .zero).length := by
    have hlength := (List.rdropWhile_prefix (fun g => g.status = .none) (l := s.chats.set groupnumber .zero)).length_le
    rwa [length_set, ← h.length, ← length_set (i := groupnumber) (a := GroupConnections.zero)] at hlength
  -- Where no group is after the wipe, none was before, or it is the one that is wiped.
  have hwiped : ∀ n c, (s.conns.set groupnumber .zero)[n]? = some c →
    getGroupC (wipeGroupChat s.chats groupnumber) n = none →
      ∀ i, c.named i = none := by
    intro n c hc hgone
    rw [getGroupC_wipeGroupChat] at hgone
    by_cases heq : groupnumber = n
    · subst heq
      obtain ⟨hlt, hat⟩ := List.getElem?_eq_some_iff.mp hc
      rw [← hat, getElem_set_self]
      exact fun _ => rfl
    · rw [if_neg heq] at hgone
      exact h.free n c ((getElem?_set_ne heq).symm.trans hc) hgone
  have hset (n : ℕ) :
    ((s.conns.set groupnumber .zero).map fun c => c.holds n).sum = (s.conns.map fun c => c.holds n).sum := by
    cases hget : s.conns[groupnumber]? with
    | none => rw [set_eq_of_length_le (List.getElem?_eq_none_iff.mp hget)]
    | some c =>
      have hsum := sum_set (f := fun c : GroupConnections => c.holds n) hget .zero
      rw [GroupConnections.holds_free (hnone c hget), GroupConnections.holds_free fun _ => rfl] at hsum
      exact hsum
  have hcut (n : ℕ) : (((s.conns.set groupnumber .zero).drop (wipeGroupChat s.chats groupnumber).length).map
      fun c => c.holds n).sum = 0 := by
    refine sum_eq_zero fun k hk => ?_
    obtain ⟨c, hc, rfl⟩ := mem_map.mp hk
    obtain ⟨j, hj⟩ := mem_iff_getElem?.mp hc
    rw [getElem?_drop] at hj
    refine GroupConnections.holds_free (hwiped _ c hj (getGroupC_eq_none.mpr fun g hg => ?_)) n
    rw [getElem?_eq_none (Nat.le_add_right _ j)] at hg
    contradiction
  refine ⟨fun n => ?_, h.unlocked, ?_, fun n c hc hgone => ?_⟩
  · have hcount := h.counted n
    rw [holders, ← hset n,
      ← take_append_drop (wipeGroupChat s.chats groupnumber).length (s.conns.set groupnumber .zero),
      map_append, sum_append, hcut, Nat.add_zero] at hcount
    exact hcount
  · exact length_take_of_le hle
  · refine hwiped n c ?_ hgone
    have htaken : ((s.conns.set groupnumber .zero).take (wipeGroupChat s.chats groupnumber).length)[n]? = some c := hc
    rw [getElem?_take] at htaken
    split at htaken
    · exact htaken
    · contradiction

/-! ### Calls -/

/-- A call of a group, but not one that lets a close connection go for its index. -/
theorem execGroupCall (h : s.Counted) (sodium : Sodium) (env : FriendEnv) (groupnumber : ℕ) {call : GroupCall}
    (hcall : ∀ closeIndex, call ≠ .killClose closeIndex) : (s.execGroupCall sodium env groupnumber call).Counted := by
  cases call with
  | forgetConnections realPk => exact h.forgetConnections sodium env groupnumber realPk
  | killClose closeIndex => exact absurd rfl (hcall closeIndex)
  | _ => exact h.of_sameNamed (.execGroupCall sodium env groupnumber nofun nofun)

/-- Calls that kill no connection. -/
theorem execGroupCalls (h : s.Counted) (sodium : Sodium) (env : ℕ → FriendEnv) (groupnumber : ℕ)
    {calls : List GroupCall} (hcalls : ∀ closeIndex, GroupCall.killClose closeIndex ∉ calls) :
    (s.execGroupCalls sodium env groupnumber calls).Counted := by
  refine List.foldlRecOn (motive := Counted) _ _ h fun s hs call hcall => ?_
  refine hs.execGroupCall sodium _ groupnumber fun closeIndex heq => hcalls closeIndex ?_
  rw [← heq]
  exact fst_mem_of_mem_zipIdx hcall

/-- A close connection is killed. -/
theorem killClose (h : s.Counted) (sodium : Sodium) (env : FriendEnv) (hget : s.getConns groupnumber = some c)
    (hnamed : c.named i = some friendconId) : (s.killClose sodium env groupnumber i).Counted := by
  rw [GroupChats.killClose, hget]
  dsimp only
  rw [dif_pos i.isLt]
  split
  · exact h
  · exact h.letGo sodium env hget rfl hnamed

/-- Calls for one group, but none that lets a close connection go for its index. -/
theorem execChatCalls (h : s.Counted) (sodium : Sodium) (env : ℕ → FriendEnv) (friendconId : ℕ) (joined : Bool)
    {calls : List GroupCall} (hcalls : ∀ closeIndex, GroupCall.killClose closeIndex ∉ calls) (groupnumber : ℕ) :
    (s.execChatCalls sodium env friendconId joined (calls.map (.group groupnumber))).Counted := by
  refine List.foldlRecOn (motive := Counted) _ _ h fun s hs call hcall => ?_
  obtain ⟨groupCall, hmem, heq⟩ := mem_map.mp (fst_mem_of_mem_zipIdx hcall)
  rw [← heq]
  exact hs.execGroupCall sodium _ groupnumber fun closeIndex hkill => hcalls closeIndex (hkill ▸ hmem)

/-! ### Groups -/

variable {friendnumber : ℕ}

section

variable (h : s.Counted)
include h

/-- A friend holds its friend connection. -/
theorem friend_there (hid : s.m.getfriendconId friendnumber = some friendconId) :
    s.m.world.app.locks friendconId ≠ none := by
  obtain ⟨friend, hfriend, rfl⟩ := Option.map_eq_some_iff.mp hid
  rw [h.counted.there_iff]
  obtain ⟨hget, hnamed⟩ := Messenger.getFriend_named hfriend
  have hpos : 0 < s.m.holds friend.friendconId :=
    countP_pos_iff.mpr ⟨friend, mem_of_getElem? hget, decide_eq_true hnamed⟩
  exact Nat.lt_of_lt_of_le hpos (Nat.le_add_right ..)

/-- A group is made. -/
theorem addGroupchat (sodium : Sodium) (env : ℕ → FriendEnv) (now : UInt64) (allocChats : Bool) (alloc : ℕ → Bool)
    (identifier : Block groupIdentifierLength) (tempPk : PublicKey) :
    (s.addGroupchat sodium env now allocChats alloc identifier tempPk).Counted := by
  rw [GroupChats.addGroupchat]
  split
  · exact h
  · rename_i groupnumber chats hcreate
    have hstay := GroupsStay.addGroupchat now allocChats alloc identifier s.selfPk tempPk s.m.name s.chats
    obtain ⟨calls, hcalls, hkill⟩ :=
      GroupsStay.addGroupchat_calls hcreate now alloc identifier s.selfPk tempPk s.m.name
    dsimp only
    rw [hcalls]
    exact ((h.setChats hstay).of_sameNamed (.startGroup groupnumber)).execChatCalls sodium env 0 false hkill groupnumber

/-- All close connections are let go, of which those that are not among the places have been. -/
theorem letAllGo (sodium : Sodium) (env : ℕ → FriendEnv) (hget : s.getConns groupnumber = some c)
    (places : List (Fin maxGroupConnections)) (hfree : ∀ i, i ∉ places → c.named i = none) :
    (letAllGo sodium env groupnumber places s).Counted ∧
      ∀ c, (letAllGo sodium env groupnumber places s).getConns groupnumber = some c → ∀ i, c.named i = none := by
  induction places generalizing s c with
  | nil =>
    refine ⟨h, fun c' hc' i => ?_⟩
    obtain rfl := Option.some_inj.mp (hget.symm.trans hc')
    exact hfree i not_mem_nil
  | cons place rest ih =>
    rw [GroupChats.letAllGo, hget]
    dsimp only
    split
    · rename_i htype
      refine ih h hget fun i hi => ?_
      by_cases heq : i = place
      · subst heq
        exact if_pos htype
      · exact hfree i (by simp [heq, hi])
    · rename_i htype
      have hnamed : c.named place = some (c.close place).number := if_neg htype
      have hwritten : (s.letGo sodium (env place) groupnumber c place).getConns groupnumber =
          some (c.setClose place { c.close place with type := .none }) := by
        obtain ⟨hat, hgroup⟩ := getConns_eq_some.mp hget
        exact getConns_eq_some.mpr ⟨getElem?_set_self (List.getElem?_eq_some_iff.mp hat).1, hgroup⟩
      refine ih (h.letGo sodium (env place) hget rfl hnamed) hwritten fun i hi => ?_
      rw [GroupConnections.named_setClose]
      by_cases heq : i = place
      · subst heq
        rw [update_self]
        rfl
      · rw [update_of_ne heq]
        exact hfree i (by simp [heq, hi])

/-- A group is deleted. -/
theorem delGroupchat (sodium : Sodium) (env : ℕ → FriendEnv) (groupnumber : ℕ) :
    (s.delGroupchat sodium env groupnumber).Counted := by
  rw [GroupChats.delGroupchat]
  split
  · exact h
  · rename_i c hget
    obtain ⟨hcounted, hfree⟩ := h.letAllGo sodium env hget (List.finRange maxGroupConnections)
      fun i hi => absurd (mem_finRange i) hi
    exact hcounted.wipeGroup hfree

/-- A group is written and makes its calls. -/
theorem writeGroup (sodium : Sodium) (env : ℕ → FriendEnv) {g : GroupC} {after : GroupC × List GroupCall}
    (hgroup : getGroupC s.chats groupnumber = some g) (hcontinues : g.Continues after) :
    ((s.setChats (s.chats.set groupnumber after.1)).execGroupCalls sodium env groupnumber after.2).Counted :=
  (h.setChats (.set hgroup hcontinues.there)).execGroupCalls sodium env groupnumber hcontinues.keepsClose

/-- An invited group is joined. -/
theorem joinGroupchat {allocChats sent : Bool} {expectedType : UInt8} {data : Bytes}
    (hfits : s.JoinFits allocChats sent friendnumber expectedType data) :
    (s.joinGroupchat allocChats sent friendnumber expectedType data).Counted := by
  have hstay := GroupsStay.joinGroupchat allocChats true sent expectedType data s.chats
  rw [GroupChats.joinGroupchat]
  split
  · exact h
  · rename_i friendconId hid
    split
    · rename_i chats groupnumber otherGroupnum heq
      rw [heq] at hstay
      have hjoins : (Toxcore.joinGroupchat allocChats true sent expectedType data s.chats).2 ≠ [] := by
        rw [heq]
        exact cons_ne_nil _ _
      have hcounted := (h.setChats hstay).of_sameNamed (.startGroup groupnumber)
      have hlockable : ((s.setChats chats).startGroup groupnumber).m.world.app.Lockable friendconId :=
        hfits friendconId hid (joins_of_calls hjoins)
      exact hcounted.addJoined (h.friend_there hid) (.of_lockable hlockable groupnumber) otherGroupnum true
    · rename_i heq
      rw [heq] at hstay
      exact h.setChats hstay

/-- A friend is invited. -/
theorem inviteFriend {send : Bytes → Bool} (hfits : s.InviteFits groupnumber send) :
    (s.inviteFriend groupnumber send).Counted := by
  rw [GroupChats.inviteFriend]
  split
  · exact h
  · rename_i g hgroup
    split
    · exact h
    · rename_i hfailed
      exact h.wipeGroup fun c hget => hfits g c hgroup hget (by simpa using hfailed)

/-- Peers that timed out are deleted. -/
theorem clearTimedout (sodium : Sodium) (env : ℕ → FriendEnv) (groupnumber : ℕ) (now : UInt64) (alloc : ℕ → Bool) :
    (s.clearTimedout sodium env groupnumber now alloc).Counted := by
  rw [GroupChats.clearTimedout]
  split
  · exact h
  · rename_i g hgroup
    exact h.writeGroup sodium env hgroup (.clearTimedout now alloc g)

/-- An invite packet of a friend is handled. -/
theorem handleFriendInvitePacket (sodium : Sodium) (env : ℕ → FriendEnv) (stackPks : PublicKey × PublicKey)
    (now : UInt64) (alloc : ℕ → Bool) {rand : ℕ → UInt16} {data : Bytes}
    (hfits : s.ResponseFits friendnumber rand data) :
    (s.handleFriendInvitePacket sodium env friendnumber stackPks now alloc rand data).Counted := by
  rw [GroupChats.handleFriendInvitePacket]
  split
  · exact h
  · rename_i friend hfriend
    split
    · exact h
    · dsimp only
      generalize (s.m.world.app.getFriendconPublicKeys friend.friendconId).getD stackPks = keys
      have hid : s.m.getfriendconId friendnumber =
        some friend.friendconId := by rw [Messenger.getfriendconId, hfriend]; rfl
      have hcounted := h.setChats (.handleFriendInvitePacket s.chats ⟨now, alloc, rand, keys.1, keys.2, data⟩)
      rcases handleFriendInvitePacket_calls s.chats ⟨now, alloc, rand, keys.1, keys.2, data⟩ with
        hnothing | ⟨groupnum, g, peerNumber, hresponse, hgroup, hdrawn, hcalls⟩
      · refine List.foldlRecOn (motive := Counted) _ _ hcounted fun s hs call hcall => ?_
        obtain ⟨type, data, heq⟩ := hnothing call.1 (fst_mem_of_mem_zipIdx hcall)
        rw [heq]
        exact hs
      · rw [hcalls, execChatCalls_append]
        have hadded := GroupC.Continues.addpeer now alloc g keys.1 keys.2 peerNumber
        have hsame := SameNamed.execChatCalls (s := s.setChats (Toxcore.handleFriendInvitePacket s.chats
          ⟨now, alloc, rand, keys.1, keys.2, data⟩).1) sodium env friend.friendconId false hadded.keepsClose
          (GroupC.addpeer_forgets_nothing now alloc g keys.1 keys.2 peerNumber) groupnum
        have hgroupThere : getGroupC s.chats groupnum ≠ none := by
          rw [respondedGroup_there hgroup]
          nofun
        have hfits' :=
          (hfits friend groupnum g peerNumber hfriend hresponse hgroup hdrawn).setChats h.length hgroupThere
          (Toxcore.handleFriendInvitePacket s.chats ⟨now, alloc, rand, keys.1, keys.2, data⟩).1
        refine (hcounted.of_sameNamed hsame).addJoined ?_ (hfits'.of_sameNamed hsame) _ false
        rw [hsame.m]
        exact h.friend_there hid

end

/-! ### Packets -/

/-- A close connection comes online. -/
theorem handlePacketOnline (h : s.Counted) (sodium : Sodium) (env : FriendEnv) (friendconId : ℕ) (data : Bytes) :
    (s.handlePacketOnline sodium env friendconId data).Counted := by
  unfold GroupChats.handlePacketOnline
  split
  · exact h
  split
  · exact h
  split
  · exact h
  rename_i groupnumber _ _ c hget
  split
  · exact h
  rename_i index hindex
  split
  · exact h
  dsimp only
  have hnamed := GroupConnections.friendInClose_some hindex
  -- The connection that comes online was in use before.
  have honline :
    (c.setClose index { c.close index with groupNumber := networkUInt16 data, type := .online }).named = c.named := by
    rw [GroupConnections.named_setClose, update_eq_self_iff, hnamed, ← (GroupConnections.named_number hnamed).1]
    rfl
  have hcounted := h.setConns hget honline
  have hwritten : (s.setConns groupnumber
      (c.setClose index { c.close index with groupNumber := networkUInt16 data, type := .online })).getConns
        groupnumber =
        some (c.setClose index { c.close index with groupNumber := networkUInt16 data, type := .online }) := by
    obtain ⟨hat, hgroup⟩ := getConns_eq_some.mp hget
    exact getConns_eq_some.mpr ⟨getElem?_set_self (List.getElem?_eq_some_iff.mp hat).1, hgroup⟩
  split
  · exact hcounted
  split
  · exact hcounted
  split
  · exact hcounted
  rename_i frCloseIndex hfound
  split
  · exact hcounted
  · exact hcounted.letGo sodium env hwritten rfl (GroupConnections.friendInClose_some hfound)

/-- A packet of a close connection is handled. -/
theorem handlePacket (h : s.Counted) (sodium : Sodium) (env : ℕ → FriendEnv) (friendconId : ℕ) (now : UInt64)
    (alloc : ℕ → Bool) (data : Bytes) : (s.handlePacket sodium env friendconId now alloc data).Counted := by
  unfold GroupChats.handlePacket
  split
  · exact h
  split
  · exact h.handlePacketOnline sodium (env 0) friendconId data.tail
  split
  · exact h
  dsimp only
  split
  · rename_i g c hgroup hget
    split
    · exact h
    · rename_i index hindex
      split
      · rcases GroupC.Continues.handleDirectPacket s.selfPk g ⟨now, alloc, data.drop (1 + 2),
          index⟩ with hkill | hcontinues
        · rw [hkill]
          have hstay : GroupsStay s.chats (s.chats.set (networkUInt16 data.tail).toNat g) := .set hgroup id
          have hgone : getGroupC (s.chats.set (networkUInt16 data.tail).toNat g) (networkUInt16 data.tail).toNat ≠
            none := by
            rw [set_same (getGroupC_eq_some.mp hgroup).1, hgroup]
            nofun
          exact (h.setChats hstay).killClose sodium (env 0) (setChats_getConns hget hgone)
            (GroupConnections.friendInClose_some hindex)
        · exact h.writeGroup sodium env hgroup hcontinues
      · exact h.writeGroup sodium env hgroup (.handleMessagePacketGroup g _)
  · exact h

/-- A friend connection goes up or down. -/
theorem handleStatus (h : s.Counted) (friendconId : ℕ) (status : Bool) :
    (s.handleStatus friendconId status).Counted := by
  unfold GroupChats.handleStatus
  split
  · exact h
  · refine h.of_sameNamed ⟨rfl, rfl, ?_⟩
    rw [map_map]
    refine map_congr_left fun c _ => funext fun i => ?_
    rw [Function.comp_apply, GroupConnections.named, GroupConnections.named]
    dsimp only
    split
    · rename_i hconn
      exact (if_neg hconn.1).symm
    · rfl

/-! ### The closest peers -/

section

variable (h : s.Counted)
include h

/-- Connections that are no longer close are dropped. -/
theorem dropConnections (sodium : Sodium) (env : ℕ → FriendEnv) (stackPk : PublicKey) (groupnumber : ℕ)
    (places : List (Fin maxGroupConnections)) :
    (dropConnections sodium env stackPk groupnumber places s).Counted := by
  induction places generalizing s with
  | nil => exact h
  | cons place rest ih =>
    unfold GroupChats.dropConnections
    split
    · exact h
    · rename_i c hget
      dsimp only
      split
      · exact ih h
      · rename_i hkept
        have hused : (c.close place).type ≠ .none := fun hfree => hkept (.inl hfree)
        exact ih (h.letGo sodium (env place) hget rfl (if_neg hused))

/-- What is done before peers are connected. -/
theorem beforeConnecting (sodium : Sodium) (env : ℕ → FriendEnv) (stackPk : PublicKey) (g : GroupC)
    (hget : s.getConns groupnumber = some c) : (s.beforeConnecting sodium env stackPk groupnumber g c).Counted := by
  have hrefill : (s.refillClosest g c).named = c.named := by
    rw [GroupChats.refillClosest]
    split
    · refine List.foldlRecOn (motive := fun refilled : GroupConnections => refilled.named = c.named) _ _ rfl ?_
      intro refilled hsame peer _
      rw [GroupConnections.addToClosest_named, hsame]
    · rfl
  exact (h.setConns hget hrefill).dropConnections sodium env stackPk groupnumber _

/-- A closest peer is connected, with a hold for the friend connection, whether there was one or not. -/
theorem connectPeer (sodium : Sodium) {env : FriendEnv} {peer : ClosestPeer} (hfits : s.PeerFits env groupnumber peer) :
    (s.connectPeer sodium env groupnumber peer).Counted := by
  rw [GroupChats.connectPeer]
  split
  · exact h
  rename_i hentry
  have hentry' : peer.entry = true := by simpa using hentry
  split
  · rename_i friendconId hfound
    obtain ⟨friendCon, hconn, -⟩ := getfriendConnIdPk_some hfound
    have hthere : s.m.world.app.locks friendconId ≠ none := by
      rw [locks_live hconn]
      nofun
    exact (h.addConnToGroupchat hthere (hfits.locked hentry' friendconId hfound) true).1
  · rename_i hnone
    have hroom := hfits.room hentry' hnone
    split
    · rename_i frC hnew
      obtain ⟨hunlocked, hlocks⟩ := newFriendConnection_locks h.unlocked hnew fun n hn =>
        absurd hn (by rw [hnone]; nofun)
      rcases hlocks with ⟨-, hlocks⟩ | ⟨n, hn, -⟩
      · exact h.setWorld ⟨hlocks, fun _ => hunlocked⟩
      · contradiction
    · rename_i friendconId frC hnew
      obtain ⟨hunlocked, hlocks⟩ := newFriendConnection_locks h.unlocked hnew fun n hn =>
        absurd hn (by rw [hnone]; nofun)
      rcases hlocks with ⟨hn, -⟩ | ⟨n, hn, habsent, hlocks⟩
      · contradiction
      obtain rfl := Option.some_inj.mp hn
      have hkept := LocksKept.dhtPkCallback sodium env { s.m.world with app := frC } friendconId peer.tempPk
      obtain ⟨c, hget, hfree⟩ := hroom (by rw [hnew]; nofun)
      obtain ⟨ind, hind⟩ := Option.ne_none_iff_exists'.mp hfree
      have hfriend : c.friendInClose friendconId = none :=
        GroupConnections.friendInClose_none fun i => h.not_named (getConns_eq_some.mp hget).1 (habsent hnone)
      have hget' (world : FriendWorld) : (s.setWorld world).getConns groupnumber = some c := hget
      dsimp only
      rw [GroupChats.addConnToGroupchat, hget']
      dsimp only
      rw [hfriend, hind]
      exact h.add hget (GroupConnections.freeClose_some hind) (hkept.locks.trans hlocks) (hkept.free hunlocked) rfl

/-- Where no close connection is free, a friend connection that is made for a closest peer has no holder. -/
theorem connectPeer_leaks (sodium : Sodium) {env : FriendEnv} {peer : ClosestPeer} {frC : FriendConnections}
    (hget : s.getConns groupnumber = some c) (hfull : c.freeClose = none) (hentry : peer.entry = true)
    (hnone : s.m.world.app.getfriendConnIdPk peer.realPk = none)
    (hnew : s.m.world.app.newFriendConnection env peer.realPk = (some friendconId, frC)) :
    (s.connectPeer sodium env groupnumber peer).m.world.app.locks friendconId = some 0 ∧
      (s.connectPeer sodium env groupnumber peer).holders friendconId = 0 := by
  obtain ⟨-, ⟨hn, -⟩ | ⟨n, hn, habsent, hlocks⟩⟩ :=
    newFriendConnection_locks h.unlocked hnew fun n hn => absurd hn (by rw [hnone]; nofun)
  · contradiction
  obtain rfl := Option.some_inj.mp hn
  have hkept := LocksKept.dhtPkCallback sodium env { s.m.world with app := frC } friendconId peer.tempPk
  have hfriend : c.friendInClose friendconId = none :=
    GroupConnections.friendInClose_none fun i => h.not_named (getConns_eq_some.mp hget).1 (habsent hnone)
  have hget' (world : FriendWorld) : (s.setWorld world).getConns groupnumber = some c := hget
  have hconnected : s.connectPeer sodium env groupnumber peer =
      s.setWorld (setDhtTempPk sodium env { s.m.world with app := frC } friendconId peer.tempPk) := by
    rw [GroupChats.connectPeer, if_neg (by simp [hentry]), hnone, hnew]
    dsimp only
    rw [GroupChats.addConnToGroupchat, hget']
    dsimp only
    rw [hfriend, hfull]
  rw [hconnected]
  refine ⟨?_, ?_⟩
  · have hmade : frC.locks friendconId = some 0 := by
      rw [hlocks, update_self, habsent hnone]
      rfl
    exact (congrFun hkept.locks friendconId).trans hmade
  · have hcount := h.counted friendconId
    rw [habsent hnone] at hcount
    exact hcount.symm

/-- The closest peers are connected. -/
theorem connectPeers (sodium : Sodium) {env : ℕ → FriendEnv} {places : List (Fin desiredCloseConnections)}
    (hfits : RoomToConnect sodium env groupnumber c places s) :
    (connectPeers sodium env groupnumber c places s).Counted := by
  induction places generalizing s with
  | nil => exact h
  | cons place rest ih => exact ih (h.connectPeer sodium hfits.1) hfits.2

/-- The pass that connects a group to its closest peers. -/
theorem connectToClosest (sodium : Sodium) {envDrop envConnect : ℕ → FriendEnv} {stackPk : PublicKey}
    (hfits : s.ConnectFits sodium envDrop envConnect stackPk groupnumber) :
    (s.connectToClosest sodium envDrop envConnect stackPk groupnumber).Counted := by
  unfold GroupChats.connectToClosest
  split
  · rename_i g c hgroup hget
    split
    · exact h
    · rename_i hchanged
      have hbefore := h.beforeConnecting sodium envDrop stackPk g hget
      exact (hbefore.connectPeers sodium (hfits g c hgroup hget hchanged)).of_sameNamed
        (.modify groupnumber fun _ => rfl)
  · exact h

end

end Counted

end GroupChats

end Toxcore
