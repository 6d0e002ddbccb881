import Toxcore.Groups.CloseConnections
import Toxcore.Messenger.FriendHolds

/-!
# The holders of friend connections

A friend holds its friend connection, and so does every close connection of a group. The lock count of a friend
connection is one less than the number of its holders, so it goes away with the last of them. Three things break the
count. A group that is wiped because an invite could not be sent keeps its holds. `connect_to_closest` makes a friend
connection for a closest peer before it looks for a free close connection, and where there is none, nobody holds it.
And the lock count has only 16 bits.
-/

namespace Toxcore

open ByteStrings TableView FriendConnections Function List Option

/-! ## Counting -/

/-- The friend connection that a close connection holds. -/
def CloseConnection.named (conn : CloseConnection) : Option ℕ := if conn.type = .none then none else some conn.number

namespace GroupConnections

/-- The friend connections that the close connections hold. -/
def named (c : GroupConnections) (i : Fin maxGroupConnections) : Option ℕ := (c.close i).named

/-- How many close connections hold a friend connection. -/
def holds (c : GroupConnections) (n : ℕ) : ℕ := ∑ i, if c.named i = some n then 1 else 0

variable {c c' : GroupConnections} {i : Fin maxGroupConnections} {n : ℕ}

/-- A close connection is written. -/
theorem named_setClose (c : GroupConnections) (i : Fin maxGroupConnections) (conn : CloseConnection) :
    (c.setClose i conn).named = update c.named i conn.named := by
  funext j
  by_cases hj : j = i
  · subst hj
    rw [update_self]
    exact congrArg CloseConnection.named (update_self ..)
  · rw [update_of_ne hj]
    exact congrArg CloseConnection.named (update_of_ne hj ..)

/-- A close connection is written. -/
theorem holds_update {holding : Option ℕ} (h : c'.named = update c.named i holding) (n : ℕ) :
    c'.holds n + (if c.named i = some n then 1 else 0) = c.holds n + if holding = some n then 1 else 0 := by
  have hsplit (g : Fin maxGroupConnections → Option ℕ) : (∑ j, if g j = some n then 1 else 0) =
      (if g i = some n then 1 else 0) + ∑ j ∈ Finset.univ.erase i, if g j = some n then 1 else 0 :=
    (Finset.add_sum_erase _ _ (Finset.mem_univ i)).symm
  have hrest : (∑ j ∈ Finset.univ.erase i, if c'.named j = some n then 1 else 0) =
      ∑ j ∈ Finset.univ.erase i, if c.named j = some n then 1 else 0 := by
    apply Finset.sum_congr rfl
    intro j hj
    rw [h, update_of_ne (Finset.ne_of_mem_erase hj)]
  rw [holds, holds, hsplit c'.named, hsplit c.named, hrest, h, update_self]
  omega

/-- A connection that is named is held. -/
theorem holds_pos (h : c.named i = some n) : 0 < c.holds n := by
  refine Finset.sum_pos' (fun _ _ => Nat.zero_le _) ⟨i, Finset.mem_univ i, ?_⟩
  rw [if_pos h]
  exact Nat.one_pos

/-- Where no close connection is in use, none holds anything. -/
theorem holds_free (h : ∀ i, c.named i = none) (n : ℕ) : c.holds n = 0 := by
  apply Finset.sum_eq_zero
  intro i _
  rw [h i]
  rfl

/-- A friend connection is found where it is named. -/
theorem friendInClose_eq (c : GroupConnections) (n : ℕ) :
    c.friendInClose n = (List.finRange maxGroupConnections).find? fun i => c.named i = some n := by
  rw [friendInClose]
  congr 1
  funext i
  rw [named, CloseConnection.named]
  by_cases hused : (c.close i).type = .none <;> simp [hused]

/-- A place is free where nothing is named. -/
theorem freeClose_eq (c : GroupConnections) :
    c.freeClose = (List.finRange maxGroupConnections).reverse.find? fun i => c.named i = none := by
  rw [freeClose]
  congr 1
  funext i
  rw [named, CloseConnection.named]
  by_cases hused : (c.close i).type = .none <;> simp [hused]

/-- The close connection that is found names the friend connection. -/
theorem friendInClose_some (h : c.friendInClose n = some i) : c.named i = some n := by
  rw [friendInClose_eq] at h
  have hfound := find?_some h
  exact of_decide_eq_true hfound

/-- None is found where none names it. -/
theorem friendInClose_none (h : ∀ i, c.named i ≠ some n) : c.friendInClose n = none := by
  rw [friendInClose_eq]
  exact find?_eq_none.mpr fun i _ hi => h i (of_decide_eq_true hi)

/-- What a named close connection holds. -/
theorem named_number (h : c.named i = some n) : (c.close i).number = n ∧ (c.close i).type ≠ .none := by
  rw [named, CloseConnection.named] at h
  split at h
  · contradiction
  · rename_i hused
    exact ⟨some_inj.mp h, hused⟩

/-- A free close connection names nothing. -/
theorem freeClose_some (h : c.freeClose = some i) : c.named i = none := by
  rw [freeClose_eq] at h
  have hfound := find?_some h
  exact of_decide_eq_true hfound

/-- The closest peers are apart from the close connections. -/
theorem addToClosest_close (selfPk : PublicKey) (c : GroupConnections) (realPk tempPk : PublicKey) :
    (c.addToClosest selfPk realPk tempPk).close = c.close := by
  induction hspread : c.spread selfPk using Nat.strong_induction_on generalizing c realPk tempPk with
  | h spread ih =>
    subst hspread
    rw [addToClosest]
    split
    · rfl
    split
    · rfl
    split
    · rfl
    · rename_i index hplace
      by_cases hentry : (c.closestPeers index).entry = true
      · have hcloser : (c.setClosest index ⟨true, realPk, tempPk⟩).spread selfPk < _ := spread_setClosest hplace hentry
        have hinner := ih _ hcloser _ (c.closestPeers index).realPk (c.closestPeers index).tempPk rfl
        simp only [dif_pos hentry]
        split <;> exact hinner
      · simp only [dif_neg hentry]
        split <;> rfl

/-- The list of the closest peers names nothing. -/
theorem addToClosest_named (selfPk : PublicKey) (c : GroupConnections) (realPk tempPk : PublicKey) :
    (c.addToClosest selfPk realPk tempPk).named = c.named := by
  funext i
  rw [named, addToClosest_close, named]

end GroupConnections

namespace GroupChats

/-- How many friends and close connections hold a friend connection. -/
def holders (s : GroupChats) (n : ℕ) : ℕ := s.m.holds n + (s.conns.map fun c => c.holds n).sum

/-- The lock counts stand for the holders, and only groups that exist have close connections in use. -/
structure Counted (s : GroupChats) : Prop where
  counted : ReferenceCounts.Counted s.m.world.app.locks s.holders
  unlocked : s.m.world.app.FreeUnlocked
  length : s.conns.length = s.chats.length
  free : ∀ (n : ℕ) c, s.conns[n]? = some c → getGroupC s.chats n = none → ∀ i, c.named i = none

variable {sodium : Sodium} {s s' : GroupChats} {c c' : GroupConnections} {groupnumber friendconId : ℕ}
  {i : Fin maxGroupConnections}

/-- The connections of a group in use. -/
theorem getConns_eq_some :
    s.getConns groupnumber = some c ↔ s.conns[groupnumber]? = some c ∧ getGroupC s.chats groupnumber ≠ none := by
  rw [getConns]
  cases getGroupC s.chats groupnumber with
  | none => simp
  | some g => simp

/-- The connections of a group are written. -/
theorem holders_setConns (hget : s.conns[groupnumber]? = some c) (c' : GroupConnections) (n : ℕ) :
    (s.setConns groupnumber c').holders n + c.holds n = s.holders n + c'.holds n := by
  have hsum := sum_set (f := fun c : GroupConnections => c.holds n) hget c'
  rw [holders, holders, setConns]
  dsimp only at hsum ⊢
  omega

/-- The close connections name the same friend connections. -/
structure SameNamed (s s' : GroupChats) : Prop where
  m : s'.m = s.m
  chats : s'.chats = s.chats
  named : s'.conns.map GroupConnections.named = s.conns.map GroupConnections.named

namespace SameNamed

theorem refl (s : GroupChats) : SameNamed s s := ⟨rfl, rfl, rfl⟩

theorem trans {s'' : GroupChats} (h : SameNamed s s') (h' : SameNamed s' s'') : SameNamed s s'' :=
  ⟨h'.m.trans h.m, h'.chats.trans h.chats, h'.named.trans h.named⟩

/-- The connections of a group are written, and name the same. -/
theorem setConns (hget : s.getConns groupnumber = some c) (hsame : c'.named = c.named) :
    SameNamed s (s.setConns groupnumber c') := by
  refine ⟨rfl, rfl, ?_⟩
  have hat : (s.conns.map GroupConnections.named)[groupnumber]? = some c.named := by
    rw [getElem?_map, (getConns_eq_some.mp hget).1]
    rfl
  rw [GroupChats.setConns, map_set, hsame, set_same hat]

/-- The connections of a group are changed in place, and name the same. -/
theorem modify (groupnumber : ℕ) {f : GroupConnections → GroupConnections} (hf : ∀ c, (f c).named = c.named) :
    SameNamed s { s with conns := s.conns.modify groupnumber f } :=
  ⟨rfl, rfl, map_modify_of_keeps hf s.conns groupnumber⟩

/-- A group starts. -/
theorem startGroup (groupnumber : ℕ) : SameNamed s (s.startGroup groupnumber) := modify groupnumber fun _ => rfl

/-- They are found as before. -/
theorem getConns (h : SameNamed s s') (hget : s'.getConns groupnumber = some c') :
    ∃ c, s.getConns groupnumber = some c ∧ c'.named = c.named := by
  obtain ⟨hat, hgroup⟩ := getConns_eq_some.mp hget
  have hnamed : (s.conns.map GroupConnections.named)[groupnumber]? = some c'.named := by
    rw [← h.named, getElem?_map, hat]
    rfl
  rw [getElem?_map] at hnamed
  obtain ⟨c, hc, hsame⟩ := map_eq_some_iff.mp hnamed
  exact ⟨c, getConns_eq_some.mpr ⟨hc, h.chats ▸ hgroup⟩, hsame.symm⟩

end SameNamed

namespace Counted

/-- The connections of a group are written, and the world may change with them. -/
theorem write (h : s.Counted) (hget : s.getConns groupnumber = some c) {c' : GroupConnections} {m : Messenger}
    (hcounted : ReferenceCounts.Counted m.world.app.locks fun n =>
      ({ s.setConns groupnumber c' with m := m } : GroupChats).holders n)
    (hunlocked : m.world.app.FreeUnlocked) : ({ s.setConns groupnumber c' with m := m } : GroupChats).Counted where
  counted := hcounted
  unlocked := hunlocked
  length := (length_set ..).trans h.length
  free n d hd hnone := by
    obtain ⟨-, hgroup⟩ := getConns_eq_some.mp hget
    have hne : groupnumber ≠ n := fun heq => hgroup (heq ▸ hnone)
    have hd' : s.conns[n]? = some d := (getElem?_set_ne hne).symm.trans hd
    exact h.free n d hd' hnone

/-- Nothing is taken or let go where the close connections name the same. -/
theorem of_sameNamed (h : s.Counted) (hsame : SameNamed s s') : s'.Counted := by
  refine ⟨fun n => ?_, ?_, ?_, fun n c' hc' hnone i => ?_⟩
  · have hcount := h.counted n
    have hholds : s'.conns.map (fun c => c.holds n) = s.conns.map fun c => c.holds n := by
      have hmap := congrArg (List.map fun named => ∑ i, if named i = some n then 1 else 0) hsame.named
      rwa [List.map_map, List.map_map] at hmap
    rw [hsame.m, hcount, holders, holders, hsame.m, hholds]
  · rw [hsame.m]
    exact h.unlocked
  · have hlength := congrArg List.length hsame.named
    rw [length_map, length_map] at hlength
    rw [hlength, h.length, hsame.chats]
  · have hat : (s.conns.map GroupConnections.named)[n]? = some c'.named := by
      rw [← hsame.named, getElem?_map, hc']
      rfl
    rw [getElem?_map] at hat
    obtain ⟨c, hc, hnamed⟩ := map_eq_some_iff.mp hat
    rw [← hnamed]
    exact h.free n c hc (hsame.chats ▸ hnone) i

/-- The connections of a group are written, and hold the same. -/
theorem setConns (h : s.Counted) (hget : s.getConns groupnumber = some c) (hsame : c'.named = c.named) :
    (s.setConns groupnumber c').Counted := h.of_sameNamed (.setConns hget hsame)

/-- The friend connections change, but not their lock counts. -/
theorem setWorld (h : s.Counted) {world : FriendWorld} (hkept : LocksKept s.m.world.app world.app) :
    (s.setWorld world).Counted where
  counted := by
    change ReferenceCounts.Counted world.app.locks s.holders
    rw [hkept.locks]
    exact h.counted
  unlocked := hkept.free h.unlocked
  length := h.length
  free := h.free

/-- What is named by a close connection is there. -/
theorem named_there (h : s.Counted) (hget : s.conns[groupnumber]? = some c) {n : ℕ} (hnamed : c.named i = some n) :
    s.m.world.app.locks n ≠ none := by
  rw [h.counted.there_iff]
  have hpos := GroupConnections.holds_pos hnamed
  have hle : c.holds n ≤ (s.conns.map fun c => c.holds n).sum :=
    single_le_sum (fun _ _ => Nat.zero_le _) _ (List.mem_map_of_mem (mem_of_getElem? hget))
  rw [holders]
  omega

/-- A friend connection that is not there is not named. -/
theorem not_named (h : s.Counted) (hget : s.conns[groupnumber]? = some c)
    (habsent : s.m.world.app.locks friendconId = none) :
    c.named i ≠ some friendconId := fun hnamed => h.named_there hget hnamed habsent

end Counted

/-! ## Taking a hold and letting go -/

/-- Whoever adds a close connection takes a hold, and the lock count can be raised. -/
def AddFits (s : GroupChats) (friendconId groupnumber : ℕ) : Prop :=
  ∀ c, s.getConns groupnumber = some c → c.friendInClose friendconId = none → c.freeClose ≠ none →
    s.m.world.app.Lockable friendconId

namespace Counted

/-- A close connection is taken away, with the hold that was let go for it. -/
theorem drop (h : s.Counted) (hget : s.getConns groupnumber = some c') (hsame : c.named = c'.named)
    (hnamed : c.named i = some friendconId) {world : FriendWorld}
    (hlocks : world.app.locks = update s.m.world.app.locks friendconId
      (ReferenceCounts.release (s.m.world.app.locks friendconId)))
    (hunlocked : world.app.FreeUnlocked) {conn : CloseConnection} (hnone : conn.named = none) :
    ((s.setConns groupnumber (c.setClose i conn)).setWorld world).Counted := by
  have hconns := (getConns_eq_some.mp hget).1
  have hold : c'.named i = some friendconId := by rw [← hsame, hnamed]
  refine h.write hget (m := { s.m with world := world })
    (ReferenceCounts.Counted.release (i := friendconId) h.counted hlocks fun j => ?_) hunlocked
  have hwritten : (c.setClose i conn).named = update c'.named i none := by
    rw [GroupConnections.named_setClose, hsame, hnone]
  have hcount := GroupConnections.holds_update hwritten j
  have hholders := holders_setConns hconns (c.setClose i conn) j
  simp only [hold, some_inj, reduceCtorEq, if_false] at hcount
  change (s.setConns groupnumber _).holders j + _ = _
  omega

/-- A close connection is let go. -/
theorem letGo (h : s.Counted) (sodium : Sodium) (env : FriendEnv) (hget : s.getConns groupnumber = some c')
    (hsame : c.named = c'.named) (hnamed : c.named i = some friendconId) :
    (s.letGo sodium env groupnumber c i).Counted := by
  have hold : c'.named i = some friendconId := by rw [← hsame, hnamed]
  have hthere := h.named_there (getConns_eq_some.mp hget).1 hold
  obtain ⟨hunlocked, hlocks⟩ := killFriendConnection_locks sodium env h.unlocked hthere
  rw [GroupChats.letGo, (GroupConnections.named_number hnamed).1]
  exact h.drop hget hsame hnamed hlocks hunlocked rfl

/-- A close connection is added, with the hold that was taken for it. -/
theorem add (h : s.Counted) (hget : s.getConns groupnumber = some c) (hfree : c.named i = none) {world : FriendWorld}
    (hlocks : world.app.locks = update s.m.world.app.locks friendconId
      (ReferenceCounts.acquire (s.m.world.app.locks friendconId)))
    (hunlocked : world.app.FreeUnlocked) {conn : CloseConnection} (hnamed : conn.named = some friendconId) :
    ((s.setWorld world).setConns groupnumber (c.setClose i conn)).Counted := by
  have hconns := (getConns_eq_some.mp hget).1
  refine h.write hget (m := { s.m with world := world })
    (ReferenceCounts.Counted.acquire (i := friendconId) h.counted hlocks fun j => ?_) hunlocked
  have hcount := GroupConnections.holds_update (GroupConnections.named_setClose c i conn) j
  have hholders := holders_setConns hconns (c.setClose i conn) j
  simp only [hfree, hnamed, some_inj, reduceCtorEq, if_false] at hcount
  change (s.setConns groupnumber _).holders j = _
  omega

/-- `add_conn_to_groupchat` takes a hold for a friend connection that is there. -/
theorem addConnToGroupchat (h : s.Counted) (hthere : s.m.world.app.locks friendconId ≠ none)
    (hfits : s.AddFits friendconId groupnumber) (closest : Bool) :
    (s.addConnToGroupchat friendconId groupnumber closest true).2.Counted ∧
      ∀ i, (s.addConnToGroupchat friendconId groupnumber closest true).1 = some i →
        ∃ c, (s.addConnToGroupchat friendconId groupnumber closest true).2.getConns groupnumber = some c ∧
          c.named i = some friendconId := by
  rw [GroupChats.addConnToGroupchat]
  cases hget : s.getConns groupnumber with
  | none => exact ⟨h, nofun⟩
  | some c =>
    dsimp only
    obtain ⟨hconns, hgroup⟩ := getConns_eq_some.mp hget
    have hlt := (List.getElem?_eq_some_iff.mp hconns).1
    cases hfriend : c.friendInClose friendconId with
    | some i =>
      have hnamed := GroupConnections.friendInClose_some hfriend
      have hkept : (c.setClose i { c.close i with closest := closest }).named = c.named := by
        rw [GroupConnections.named_setClose, update_eq_self_iff]
        rfl
      refine ⟨h.setConns hget hkept, fun j hj => ?_⟩
      obtain rfl := some_inj.mp hj
      exact ⟨_, getConns_eq_some.mpr ⟨getElem?_set_self hlt, hgroup⟩, hkept ▸ hnamed⟩
    | none =>
      cases hplace : c.freeClose with
      | none => exact ⟨h, nofun⟩
      | some ind =>
        have hlockable := hfits c hget hfriend (by rw [hplace]; nofun)
        obtain ⟨friendCon, hconn⟩ : ∃ friendCon, s.m.world.app.getConn friendconId = some friendCon := by
          cases hconn : s.m.world.app.getConn friendconId with
          | none => exact absurd (locks_absent hconn) hthere
          | some friendCon => exact ⟨friendCon, rfl⟩
        refine ⟨h.add hget (GroupConnections.freeClose_some hplace) (locks_friendConnectionLock hconn hlockable)
          (h.unlocked.friendConnectionLock friendconId) rfl, fun j hj => ?_⟩
        obtain rfl := some_inj.mp hj
        refine ⟨_, getConns_eq_some.mpr ⟨getElem?_set_self hlt, hgroup⟩, ?_⟩
        rw [GroupConnections.named_setClose, update_self]
        rfl

/-- A friend that has joined holds its friend connection. -/
theorem addJoined (h : s.Counted) (hthere : s.m.world.app.locks friendconId ≠ none)
    (hfits : s.AddFits friendconId groupnumber)
    (otherGroupnum : UInt16) (joined : Bool) : (s.addJoined friendconId groupnumber otherGroupnum joined).Counted := by
  have hadded := h.addConnToGroupchat hthere hfits false
  unfold GroupChats.addJoined
  split
  · rename_i s' heq
    rw [heq] at hadded
    exact hadded.1
  · rename_i i s' heq
    rw [heq] at hadded
    obtain ⟨hcounted, hentry⟩ := hadded
    obtain ⟨c, hget, hnamed⟩ := hentry i rfl
    dsimp only at hget
    rw [hget]
    refine hcounted.setConns hget ?_
    change (c.setClose i { c.close i with groupNumber := otherGroupnum, type := .online }).named = c.named
    rw [GroupConnections.named_setClose, update_eq_self_iff, hnamed, ← (GroupConnections.named_number hnamed).1]
    rfl

/-- A friend connection is removed from a group. -/
theorem removeCloseConn (h : s.Counted) (sodium : Sodium) (env : FriendEnv) (groupnumber friendconId : ℕ) :
    (s.removeCloseConn sodium env groupnumber friendconId).Counted := by
  unfold GroupChats.removeCloseConn
  split
  · exact h
  · rename_i c hget
    split
    · exact h
    · rename_i i hfriend
      exact h.letGo sodium env hget rfl (GroupConnections.friendInClose_some hfriend)

/-- The connections to a peer are forgotten. -/
theorem forgetConnections (h : s.Counted) (sodium : Sodium) (env : FriendEnv) (groupnumber : ℕ) (realPk : PublicKey) :
    (s.forgetConnections sodium env groupnumber realPk).Counted := by
  unfold GroupChats.forgetConnections
  split
  · exact h
  · rename_i c hget
    have hkept : (c.removeClosest realPk).named = c.named := by
      unfold GroupConnections.removeClosest
      split <;> rfl
    have hremoved := h.setConns hget hkept
    dsimp only
    split
    · exact hremoved
    · exact hremoved.removeCloseConn sodium env groupnumber _

end Counted

end GroupChats

end Toxcore
