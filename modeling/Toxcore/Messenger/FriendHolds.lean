import Toxcore.Friends.Keeping
import Toxcore.Messenger.Reachable

/-!
# The friends as holders of friend connections

A friend in the list holds its friend connection. Adding a friend takes a hold and deleting one lets it go; whatever
else happens to a messenger leaves the holds of its friends.
-/

namespace Toxcore

open ByteStrings TableView FriendConnections List

/-- The friend connection that a friend holds. -/
def Friend.named (friend : Friend) : Option ℕ := if friend.status = .nofriend then none else some friend.friendconId

/-- The friend connection that a friend in use names. -/
theorem Friend.named_eq_some {friend : Friend} {n : ℕ} :
    friend.named = some n ↔ friend.status ≠ .nofriend ∧ friend.friendconId = n := by
  rw [named]
  by_cases hfree : friend.status = .nofriend <;> simp [hfree]

/-- It depends on the status and the number. -/
theorem Friend.named_congr {friend friend' : Friend} (hfree : friend'.status = .nofriend ↔ friend.status = .nofriend)
    (hid : friend'.friendconId = friend.friendconId) : friend'.named = friend.named := by
  rw [named, named, hid]
  exact if_congr hfree rfl rfl

namespace Messenger

/-- How many friends hold a friend connection. -/
def holds (m : Messenger) (n : ℕ) : ℕ := m.friendlist.countP fun friend => friend.named = some n

/-- The lock counts stand for the friends, and for what others hold. -/
structure Counted (m : Messenger) (others : ℕ → ℕ) : Prop where
  counted : ReferenceCounts.Counted m.world.app.locks fun n => m.holds n + others n
  unlocked : m.world.app.FreeUnlocked

variable {sodium : Sodium} {m m' : Messenger} {others : ℕ → ℕ} {env : MessengerEnv} {realPk : PublicKey}
  {friendnumber : ℕ}
  {friend : Friend}

/-- A friend that is found names its connection. -/
theorem getFriend_named (h : m.getFriend friendnumber = some friend) :
    m.friendlist[friendnumber]? = some friend ∧ friend.named = some friend.friendconId :=
  (getFriend_some h).imp_right fun hused => if_neg hused

/-- What is held depends on what is named. -/
theorem holds_congr (h : m'.friendlist.map Friend.named = m.friendlist.map Friend.named) : m'.holds = m.holds := by
  funext n
  have hcount (m : Messenger) : m.holds n = (m.friendlist.map Friend.named).countP fun named => named = some n := by
    rw [countP_map]
    rfl
  rw [hcount, hcount, h]

variable {f : Friend → Friend}

/-- Fields of a friend are written, and it holds the same. -/
theorem named_modifyFriend {i : ℕ} (hf : ∀ friend, m.friendlist[i]? = some friend → (f friend).named = friend.named) :
    (m.modifyFriend i f).friendlist.map Friend.named = m.friendlist.map Friend.named := by
  change (m.friendlist.modify i f).map Friend.named = _
  cases hget : m.friendlist[i]? with
  | none => rw [modify_eq_self (List.getElem?_eq_none_iff.mp hget)]
  | some friend =>
    have hat : (m.friendlist.map Friend.named)[i]? = some friend.named := by
      rw [getElem?_map, hget]
      rfl
    rw [modify_eq_set hget, map_set, hf friend hget, set_same hat]

/-! ## Adding and deleting -/

/-- Where a friend with a key is new, its friend connection can be locked, if there is one. -/
def AddFits (m : Messenger) (env : MessengerEnv) (realPk : PublicKey) : Prop :=
  env.allocFriendlist = true → publicKeyValid realPk = true → realPk ≠ m.world.net.selfPublicKey →
    m.getfriendId realPk = none →
    ∀ n, m.world.app.getfriendConnIdPk realPk = some n → m.world.app.Lockable n

/-- The friend connection of a friend that is sent a request can be locked, if there is one. -/
def RequestFits (m : Messenger) (env : MessengerEnv) (address : Block friendAddressSize) (data : Bytes) : Prop :=
  data.length ≤ maxFriendRequestDataSize → 1 ≤ data.length →
    address.toList.drop (32 + 4) = addressChecksum (address.toList.take (32 + 4)) →
      m.AddFits env (slice 32 address.toList 0)

namespace Counted

/-- A friend takes a place in which nobody holds anything, with the hold that was taken for it. -/
theorem add (h : m.Counted others) {friendconId : ℕ} (hunlocked : m'.world.app.FreeUnlocked)
    (hlocks : m'.world.app.locks = Function.update m.world.app.locks friendconId
      (ReferenceCounts.acquire (m.world.app.locks friendconId)))
    (hholds : ∀ n, m'.holds n = m.holds n + if friendconId = n then 1 else 0) : m'.Counted others := by
  refine ⟨ReferenceCounts.Counted.acquire h.counted hlocks fun n => ?_, hunlocked⟩
  rw [hholds]
  omega

section

variable (h : m.Counted others)
include h

/-- A friend is added. -/
theorem initNewFriend (sodium : Sodium) (env : MessengerEnv) (status : FriendStatus) (hstatus : status ≠ .nofriend)
    (hfits : env.allocFriendlist = true → ∀ n, m.world.app.getfriendConnIdPk realPk = some n → m.world.app.Lockable n) :
    (m.initNewFriend sodium env realPk status).2.Counted others := by
  unfold Messenger.initNewFriend
  split
  · exact h
  rename_i halloc
  have hfits := hfits (eq_true_of_ne_false halloc)
  split
  · rename_i frC hnew
    obtain ⟨hunlocked, ⟨-, hlocks⟩ | ⟨n, hn, -⟩⟩ := newFriendConnection_locks h.unlocked hnew hfits
    · refine ⟨?_, hunlocked⟩
      change ReferenceCounts.Counted frC.locks _
      rw [hlocks]
      exact h.counted
    · contradiction
  · rename_i friendconId frC hnew
    obtain ⟨hunlocked, ⟨hn, -⟩ | ⟨n, hn, -, hlocks⟩⟩ := newFriendConnection_locks h.unlocked hnew hfits
    · contradiction
    obtain rfl := Option.some_inj.mp hn
    have hfriend (friend : Friend) (n : ℕ) : decide ((initFriend friend friendconId realPk status).named = some n) =
        decide (friendconId = n) := by
      rw [decide_eq_decide, Friend.named_eq_some]
      exact and_iff_right hstatus
    dsimp only
    split
    · rename_i i hfind
      obtain ⟨hlt, hfree, -⟩ := findIdx?_eq_some_iff_getElem.mp hfind
      obtain ⟨-, hlist, happ⟩ := sendStatusPacket_onlyFriends sodium
        (({ m with world := { m.world with app := frC } } : Messenger).modifyFriend i
          fun friend => initFriend friend friendconId realPk status) env.below friendconId packetIdOnline
      have hset := modify_eq_set (getElem?_eq_getElem hlt) fun friend => initFriend friend friendconId realPk status
      refine h.add (by rw [happ]; exact hunlocked) (by rw [happ]; exact hlocks) fun n => ?_
      rw [holds, hlist]
      change (m.friendlist.modify i _).countP _ = _
      have hcount := countP_set (p := fun friend => friend.named = some n) (getElem?_eq_getElem hlt)
        (initFriend m.friendlist[i] friendconId realPk status)
      have hnone : m.friendlist[i].named = none := if_pos (of_decide_eq_true hfree)
      rw [hset]
      simp only [hnone, hfriend, reduceCtorEq, decide_false, decide_eq_true_eq, Bool.false_eq_true, if_false,
        Nat.add_zero] at hcount
      exact hcount
    · obtain ⟨-, hlist, happ⟩ := sendStatusPacket_onlyFriends sodium
        ({ m with
          world := { m.world with app := frC }
          friendlist := m.friendlist ++ [initFriend .zero friendconId realPk status] } : Messenger)
        env.below friendconId packetIdOnline
      refine h.add (by rw [happ]; exact hunlocked) (by rw [happ]; exact hlocks) fun n => ?_
      rw [holds, hlist]
      change (m.friendlist ++ [_]).countP _ = _
      rw [countP_append, countP_singleton, hfriend]
      simp only [decide_eq_true_eq]
      rfl

/-- Nothing is taken or let go. -/
theorem of_same (hlocks : LocksKept m.world.app m'.world.app) (hholds : m'.holds = m.holds) : m'.Counted others := by
  refine ⟨?_, hlocks.free h.unlocked⟩
  rw [hlocks.locks, hholds]
  exact h.counted

/-- Fields of a friend are written, and it holds the same. -/
theorem modifyFriend {i : ℕ} (hf : ∀ friend, m.friendlist[i]? = some friend → (f friend).named = friend.named) :
    (m.modifyFriend i f).Counted others :=
  h.of_same (.refl _) (holds_congr (named_modifyFriend hf))

/-- A friend is added with a request. -/
theorem mAddfriend (sodium : Sodium) {address : Block friendAddressSize} {data : Bytes}
    (hfits : m.RequestFits env address data) : (m.mAddfriend sodium env address data).2.Counted others := by
  unfold Messenger.mAddfriend
  dsimp only
  split
  · exact h
  rename_i hlong
  split
  · exact h
  rename_i hvalid
  split
  · exact h
  rename_i hchecksum
  split
  · exact h
  rename_i hshort
  split
  · exact h
  rename_i hown
  split
  · split
    · exact h
    split
    · exact h
    · exact h.modifyFriend fun _ _ => Friend.named_congr .rfl rfl
  · rename_i hnew
    have hadds := hfits (Nat.le_of_not_lt hlong) (Nat.le_of_not_lt hshort) (not_not.mp hchecksum)
    have hinit := h.initNewFriend sodium env .added nofun fun halloc =>
      hadds halloc (eq_true_of_ne_false hvalid) hown hnew
    split
    · rename_i heq
      rw [heq] at hinit
      exact hinit
    · rename_i heq
      rw [heq] at hinit
      exact hinit.modifyFriend fun _ _ => Friend.named_congr .rfl rfl

/-- A friend is added without one. -/
theorem mAddfriendNorequest (sodium : Sodium) (hfits : m.AddFits env realPk) :
    (m.mAddfriendNorequest sodium env realPk).2.Counted others := by
  unfold Messenger.mAddfriendNorequest
  split
  · exact h
  rename_i hknown
  split
  · exact h
  rename_i hvalid
  split
  · exact h
  rename_i hown
  have hinit := h.initNewFriend sodium env .confirmed nofun
    fun halloc => hfits halloc (eq_true_of_ne_false hvalid) hown (not_not.mp hknown)
  split
  · rename_i heq
    rw [heq] at hinit
    exact hinit
  · rename_i heq
    rw [heq] at hinit
    exact hinit

/-- A friend is deleted. -/
theorem mDelfriend (sodium : Sodium) (env : MessengerEnv) (friendnumber : ℕ) :
    (m.mDelfriend sodium env friendnumber).2.Counted others := by
  unfold Messenger.mDelfriend
  split
  · exact h
  · rename_i friend hfriend
    obtain ⟨hget, hnamed⟩ := getFriend_named hfriend
    obtain ⟨-, hlist, happ⟩ := sendStatusPacket_onlyFriends sodium m env.below friend.friendconId packetIdOffline
    have hthere : m.world.app.locks friend.friendconId ≠ none := by
      rw [h.counted.there_iff]
      have hpos : 0 < m.holds friend.friendconId :=
        countP_pos_iff.mpr ⟨friend, mem_of_getElem? hget, decide_eq_true hnamed⟩
      omega
    rw [← happ] at hthere
    have hunlocked := h.unlocked
    rw [← happ] at hunlocked
    obtain ⟨hunlocked, hlocks⟩ := killFriendConnection_locks sodium env.below hunlocked hthere
    rw [happ] at hlocks
    refine ⟨ReferenceCounts.Counted.release h.counted hlocks fun n => ?_, hunlocked⟩
    have hcount := countP_set (p := fun friend => friend.named = some n) hget .zero
    have hzero : Friend.zero.named = none := rfl
    have hcut : ((m.friendlist.set friendnumber .zero).rdropWhile fun friend => friend.status = .nofriend).countP
        (fun friend => friend.named = some n) =
          (m.friendlist.set friendnumber .zero).countP fun friend => friend.named = some n := by
      apply countP_rdropWhile
      intro friend hfree
      rw [Friend.named, if_pos (of_decide_eq_true hfree)]
      rfl
    simp only [hnamed, hzero, Option.some_inj, reduceCtorEq, decide_false, decide_eq_true_eq, Bool.false_eq_true,
      if_false,
      Nat.add_zero] at hcount
    rw [← hlist] at hcut
    change (List.rdropWhile _ _).countP _ + others n + _ = m.friendlist.countP _ + others n
    rw [hcut, hlist, ← hcount]
    omega

end

/-! ### What leaves the holds -/

section

variable (h : m.Counted others)
include h

/-- Friends that keep their places hold what they held. -/
theorem keepsFriends (hkeeps : m.KeepsFriends m') : m'.Counted others := by
  refine h.of_same (hkeeps.world ▸ .refl _) (holds_congr (ext_getElem ?_ fun i hi hi' => ?_))
  · rw [length_map, length_map, hkeeps.friends.length_eq]
  · rw [getElem_map, getElem_map]
    have hkeeps' := hkeeps.friends.get (by simpa using hi') (by simpa using hi)
    exact Friend.named_congr hkeeps'.free hkeeps'.friendconId

end

end Counted

/-- The layers below keep the lock counts. A save is loaded by adding its friends, and is no operation of its own
here. -/
def Operation.KeepsLocks (m : Messenger) : Operation → Prop
  | below world => LocksKept m.world.app world.app
  | load .. => False
  | _ => True

/-- The friend connection of a friend that is added can be locked, if there is one. -/
def Operation.Fits (m : Messenger) : Operation → Prop
  | addfriend env address data => m.RequestFits env address data
  | addfriendNorequest env realPk => m.AddFits env realPk
  | _ => True

/-- An operation that fits keeps the count. -/
theorem Operation.exec_counted (h : m.Counted others) (sodium : Sodium) (op : Operation) (hkeeps : op.KeepsLocks m)
    (hfits : op.Fits m) : (op.exec sodium m).Counted others := by
  cases op with
  | addfriend env address data => exact h.mAddfriend sodium hfits
  | addfriendNorequest env realPk => exact h.mAddfriendNorequest sodium hfits
  | delfriend env friendnumber => exact h.mDelfriend sodium env friendnumber
  | setname name => exact h.keepsFriends (.setname m name)
  | setStatusmessage status => exact h.keepsFriends (.mSetStatusmessage m status)
  | setUserstatus status => exact h.keepsFriends (.mSetUserstatus m status)
  | setNospam num => exact h.of_same (.refl _) rfl
  | loadSecretKey sk => exact h.of_same (.refl _) rfl
  | load => exact hkeeps.elim
  | handleStatus friendnumber status => exact h.keepsFriends (.handleStatus m friendnumber status)
  | handlePacket friendnumber packet => exact h.keepsFriends (.handlePacket m friendnumber packet)
  | doFriends sends tempTime time => exact h.keepsFriends (.doFriends m sends tempTime time)
  | below world => exact h.of_same hkeeps rfl

end Messenger

end Toxcore
