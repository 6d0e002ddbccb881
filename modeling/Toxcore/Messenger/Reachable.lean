import Mathlib.Data.List.Forall2
import Toxcore.Messenger.SavedState

/-!
# What holds of every messenger

The client adds and deletes friends and sets its name and status, friends send packets, the layers below work, and a
save may be loaded at any time. In every state reached so, the lengths are within their bounds, the keys of the
friends are valid and differ, a friend that was only added has a request, and the key pair belongs together.

That no friend has our own key is not among this: a save with another key pair may be loaded when friends are there.
-/

namespace Toxcore

open ByteStrings List

/-! ## What the layers below keep -/

/-- The key pair of a node. -/
def NetCrypto.keyPair (c : NetCrypto) : PublicKey × SecretKey := (c.selfPublicKey, c.selfSecretKey)

namespace NetCrypto

/-- Sending leaves the key pair alone. -/
theorem SendsOnly.keyPair {c c' : NetCrypto} (h : SendsOnly c c') : c'.keyPair = c.keyPair :=
  Prod.ext h.selfPublicKey h.selfSecretKey

variable (sodium : Sodium) (env : Env) (c : NetCrypto) (id : ℕ)

/-- Queueing leaves the key pair alone. -/
theorem Queues.keyPair {c c' : NetCrypto} {id : ℕ} (h : Queues id c c') : c'.keyPair = c.keyPair := by
  induction h with
  | refl => rfl
  | sends _ hsends ih => exact hsends.keyPair.trans ih
  | writes _ _ _ ih => exact ih

/-- A written packet leaves the key pair alone. -/
theorem keyPair_writeCryptpacket (data : Bytes) (congestionControl : Bool) :
    (writeCryptpacket sodium env c id data congestionControl).2.keyPair = c.keyPair := by
  have hsend := (sendLosslessPacket_queues sodium env c id data congestionControl).keyPair
  unfold writeCryptpacket
  split
  · split
    · rfl
    · split
      · rfl
      · split
        · rfl
        · split
          · rename_i heq
            rwa [heq] at hsend
          · rename_i heq
            rw [heq] at hsend
            rw [← hsend]
            dsimp only
            split <;> rfl
  · rfl

/-- A killed connection leaves the key pair alone. -/
theorem keyPair_cryptoKill : (cryptoKill sodium env c id).2.keyPair = c.keyPair := by
  unfold cryptoKill
  split
  · rfl
  · rename_i conn _
    exact (killNotice_sendsOnly sodium env c id conn).keyPair

end NetCrypto

/-- The addresses of an entry are in their places. -/
def ClientData.Addressed (client : ClientData) : Prop :=
  (client.assoc4.timestamp ≠ 0 → client.assoc4.ipPort.ip.family = afInet) ∧
    (client.assoc6.timestamp ≠ 0 → client.assoc6.ipPort.ip.family = afInet6)

/-- The addresses of all entries are in their places. -/
structure Dht.Addressed (dht : Dht) : Prop where
  close : ∀ i, (dht.closeClientlist i).Addressed
  friends : ∀ friend ∈ dht.friendsList, ∀ i, (friend.clientList i).Addressed

namespace Dht.Addressed

variable {dht : Dht}

/-- What is left was there before. -/
theorem mem_swapRemove {α : Type*} {l : List α} {i : ℕ} {x : α} (h : x ∈ swapRemove l i) : x ∈ l := by
  unfold swapRemove at h
  split at h
  · contradiction
  · rename_i last hlast
    rcases mem_or_eq_of_mem_set (mem_of_mem_dropLast h) with hmem | rfl
    · exact hmem
    · exact mem_of_getLast? hlast

/-- A deleted friend keeps the addresses of the others. -/
theorem delfriend (h : dht.Addressed) (alloc : Bool) (publicKey : PublicKey) (number : UInt16) :
    (dhtDelfriend alloc dht publicKey number).2.Addressed := by
  unfold dhtDelfriend
  split
  · exact h
  · rename_i friendNum hnum
    obtain ⟨hlt, -⟩ := findIdx?_eq_some_iff_getElem.mp hnum
    dsimp only
    split
    · refine ⟨h.close, fun friend hfriend i => ?_⟩
      rcases mem_or_eq_of_mem_set hfriend with hmem | rfl
      · exact h.friends friend hmem i
      · rw [getD_eq_getElem _ _ hlt]
        exact h.friends _ (getElem_mem hlt) i
    · exact ⟨h.close, fun friend hfriend => h.friends friend (mem_swapRemove hfriend)⟩

end Dht.Addressed

/-- What the layers below keep: the key pair, and that addresses are in their places. -/
structure FriendWorld.KeptBelow (w w' : FriendWorld) : Prop where
  keyPair : w'.net.keyPair = w.net.keyPair
  addressed : w.app.dht.Addressed → w'.app.dht.Addressed

namespace FriendWorld.KeptBelow

theorem refl (w : FriendWorld) : KeptBelow w w := ⟨rfl, id⟩

/-- Two steps of the layers below. -/
theorem trans {w w' w'' : FriendWorld} (h : KeptBelow w w') (h' : KeptBelow w' w'') : KeptBelow w w'' :=
  ⟨h'.keyPair.trans h.keyPair, h'.addressed ∘ h.addressed⟩

/-- A packet to a friend is kept below. -/
theorem writeFriendPacket (sodium : Sodium) (env : FriendEnv) (w : FriendWorld) (id : Option ℕ) (data : Bytes) :
    KeptBelow w { w with net := (writeFriendPacket sodium env w.net id data).2 } := by
  refine ⟨?_, fun h => h⟩
  cases id with
  | none => rfl
  | some id => exact NetCrypto.keyPair_writeCryptpacket sodium env.net w.net id data false

/-- A new friend connection is kept below. -/
theorem newFriendConnection (env : FriendEnv) (w : FriendWorld) (realPublicKey : PublicKey) :
    KeptBelow w { w with app := (w.app.newFriendConnection env realPublicKey).2 } := by
  refine ⟨rfl, fun h => ?_⟩
  have hdht : (w.app.newFriendConnection env realPublicKey).2.dht = w.app.dht := by
    unfold FriendConnections.newFriendConnection FriendConnections.createFriendConn
    split
    · rfl
    · split <;> rename_i heq
      · split at heq
        · obtain ⟨-, rfl⟩ := Prod.mk.inj heq
          rfl
        · split at heq
          all_goals
            obtain ⟨-, rfl⟩ := Prod.mk.inj heq
            rfl
      · split at heq
        · obtain ⟨-, rfl⟩ := Prod.mk.inj heq
          split <;> rfl
        · split at heq
          all_goals
            obtain ⟨-, rfl⟩ := Prod.mk.inj heq
            split <;> rfl
  change (w.app.newFriendConnection env realPublicKey).2.dht.Addressed
  rwa [hdht]

/-- A killed friend connection is kept below. -/
theorem killFriendConnection (sodium : Sodium) (env : FriendEnv) (w : FriendWorld) (friendconId : ℕ) :
    KeptBelow w (killFriendConnection sodium env w friendconId).2 := by
  unfold Toxcore.killFriendConnection
  split
  · exact refl w
  · rename_i friendCon _
    split
    · exact ⟨rfl, fun h => h⟩
    · refine ⟨?_, fun h => ?_⟩
      · change (killCryptConnection sodium env w.net friendCon.cryptConnectionId).keyPair = _
        cases friendCon.cryptConnectionId with
        | none => rfl
        | some id => exact NetCrypto.keyPair_cryptoKill sodium env.net w.net id
      · change (if friendCon.dhtLock ≠ 0 then _ else w.app.dht : Dht).Addressed
        split
        · exact h.delfriend _ _ _
        · exact h

end FriendWorld.KeptBelow

/-! ## Friends -/

/-- What holds of each place of a friend list. -/
structure Friend.Sound (friend : Friend) : Prop where
  name : friend.name.length ≤ maxNameLength
  statusmessage : friend.statusmessage.length ≤ maxStatusmessageLength
  info : friend.info.length ≤ maxFriendRequestDataSize
  valid : friend.status ≠ .nofriend → publicKeyValid friend.realPk = true
  request : friend.status = .added ∨ friend.status = .requested → 1 ≤ friend.info.length

/-- A zeroed friend is sound. -/
theorem Friend.zero_sound : Friend.zero.Sound :=
    ⟨by simp [zero], by simp [zero], by simp [zero], by simp [zero], by simp [zero]⟩

/-- A change to a place of the list that leaves the friend in it. -/
structure Friend.Keeps (friend friend' : Friend) : Prop where
  realPk : friend'.realPk = friend.realPk
  friendconId : friend'.friendconId = friend.friendconId
  free : friend'.status = .nofriend ↔ friend.status = .nofriend
  sound : friend.Sound → friend'.Sound

theorem Friend.Keeps.refl (friend : Friend) : friend.Keeps friend := ⟨rfl, rfl, .rfl, id⟩

/-- Two changes of a friend. -/
theorem Friend.Keeps.trans {friend friend' friend'' : Friend} (h : friend.Keeps friend') (h' : friend'.Keeps friend'') :
    friend.Keeps friend'' :=
  ⟨h'.realPk.trans h.realPk, h'.friendconId.trans h.friendconId, h'.free.trans h.free, h'.sound ∘ h.sound⟩

/-- Fields are written that no other friend and no limit is about. -/
theorem Friend.Keeps.written {friend friend' : Friend}
    (h : (friend'.realPk, friend'.friendconId, friend'.status) = (friend.realPk, friend.friendconId, friend.status))
    (htexts : (friend'.name, friend'.statusmessage, friend'.info) = (friend.name, friend.statusmessage, friend.info)) :
    friend.Keeps friend' := by
  obtain ⟨hrealPk, hfriendconId, hstatus⟩ := by simpa only [Prod.mk.injEq] using h
  obtain ⟨hname, hstatusmessage, hinfo⟩ := by simpa only [Prod.mk.injEq] using htexts
  refine ⟨hrealPk, hfriendconId, by rw [hstatus], fun hs => ⟨?_, ?_, ?_, ?_, ?_⟩⟩
  · exact hname ▸ hs.name
  · exact hstatusmessage ▸ hs.statusmessage
  · exact hinfo ▸ hs.info
  · rw [hstatus, hrealPk]
    exact hs.valid
  · rw [hstatus, hinfo]
    exact hs.request

/-- Two places hold different friends. -/
def Friend.Differ (friend friend' : Friend) : Prop :=
  friend.status ≠ .nofriend → friend'.status ≠ .nofriend → friend.realPk ≠ friend'.realPk

/-- What holds of a friend list. -/
structure FriendsSound (friendlist : List Friend) : Prop where
  each : ∀ friend ∈ friendlist, friend.Sound
  differ : friendlist.Pairwise Friend.Differ

namespace FriendsSound

variable {friendlist friendlist' : List Friend}

section

variable (h : FriendsSound friendlist)
include h

/-- Kept friends stay sound. -/
theorem keeps (hkeeps : List.Forall₂ Friend.Keeps friendlist friendlist') : FriendsSound friendlist' := by
  obtain ⟨hlength, hget⟩ := forall₂_iff_get.mp hkeeps
  refine ⟨fun friend hfriend => ?_, ?_⟩
  · obtain ⟨i, hi, rfl⟩ := getElem_of_mem hfriend
    exact (hget i (by omega) hi).sound (h.each _ (getElem_mem _))
  · rw [pairwise_iff_getElem]
    intro i j hi hj hij hfirst hsecond
    have hfirst' := hget i (by omega) hi
    have hsecond' := hget j (by omega) hj
    rw [get_eq_getElem, get_eq_getElem] at hfirst' hsecond'
    rw [hfirst'.realPk, hsecond'.realPk]
    exact pairwise_iff_getElem.mp h.differ i j (by omega) (by omega) hij (hfirst ∘ hfirst'.free.mpr)
      (hsecond ∘ hsecond'.free.mpr)

/-- A friend in a place of its own. -/
theorem set {i : ℕ} {friend : Friend} (hfriend : friend.Sound) (hnew : ∀ other ∈ friendlist, other.Differ friend) :
    FriendsSound (friendlist.set i friend) := by
  refine ⟨fun other hother => ?_, ?_⟩
  · rcases mem_or_eq_of_mem_set hother with hmem | rfl
    · exact h.each other hmem
    · exact hfriend
  · rw [pairwise_iff_getElem]
    intro j k hj hk hjk
    rw [length_set] at hj hk
    simp only [getElem_set]
    split
    · split
      · omega
      · intro hfirst hsecond heq
        exact hnew _ (getElem_mem hk) hsecond hfirst heq.symm
    · split
      · exact hnew _ (getElem_mem hj)
      · exact pairwise_iff_getElem.mp h.differ j k hj hk hjk

/-- A friend that differs from the others is appended. -/
theorem append {friend : Friend} (hfriend : friend.Sound) (hnew : ∀ other ∈ friendlist, other.Differ friend) :
    FriendsSound (friendlist ++ [friend]) := by
  refine ⟨fun other hother => ?_, ?_⟩
  · rcases mem_append.mp hother with hmem | hmem
    · exact h.each other hmem
    · rw [mem_singleton.mp hmem]
      exact hfriend
  · rw [pairwise_append]
    exact ⟨h.differ, pairwise_singleton _ _, fun other hother _ hmem => mem_singleton.mp hmem ▸ hnew other hother⟩

/-- Friends taken off the list leave the others sound. -/
theorem sublist (hsub : friendlist'.Sublist friendlist) : FriendsSound friendlist' :=
  ⟨fun friend hfriend => h.each friend (hsub.subset hfriend), h.differ.sublist hsub⟩

end

end FriendsSound

/-! ## Messengers -/

namespace Messenger

/-- What holds of every messenger. -/
structure Sound (sodium : Sodium) (m : Messenger) : Prop where
  keys : m.world.net.keyPair.1 = sodium.scalarmultBase m.world.net.keyPair.2
  addressed : m.world.app.dht.Addressed
  name : m.name.length ≤ maxNameLength
  statusmessage : m.statusmessage.length ≤ maxStatusmessageLength
  userstatus : m.userstatus < userstatusInvalid
  friends : FriendsSound m.friendlist

/-- A change to the friend list and to the layers below. -/
structure OnlyFriends (m m' : Messenger) : Prop where
  rest : m' = { m with world := m'.world, friendlist := m'.friendlist }
  below : FriendWorld.KeptBelow m.world m'.world

namespace OnlyFriends

variable {m m' m'' : Messenger}

theorem refl (m : Messenger) : OnlyFriends m m := ⟨rfl, .refl _⟩

/-- Two changes of friends alone. -/
theorem trans (h : OnlyFriends m m') (h' : OnlyFriends m' m'') : OnlyFriends m m'' := by
  refine ⟨?_, h.below.trans h'.below⟩
  rw [h'.rest, h.rest]

/-- Fields of a friend are written. -/
theorem modifyFriend (m : Messenger) (i : ℕ) (f : Friend → Friend) :
    OnlyFriends m (m.modifyFriend i f) := ⟨rfl, .refl _⟩

/-- Where only friends change, these decide whether the messenger stays sound. -/
theorem sound {sodium : Sodium} (h : OnlyFriends m m') (hm : m.Sound sodium) (hfriends : FriendsSound m'.friendlist) :
    m'.Sound sodium := by
  have hkeys := hm.keys
  rw [← h.below.keyPair] at hkeys
  have haddressed := h.below.addressed hm.addressed
  rw [h.rest]
  exact ⟨hkeys, haddressed, hm.name, hm.statusmessage, hm.userstatus, hfriends⟩

end OnlyFriends

section Adding

variable {sodium : Sodium} {m m' : Messenger} {env : MessengerEnv} {realPk : PublicKey} {status : FriendStatus}

/-- A status packet changes no friend. -/
theorem sendStatusPacket_onlyFriends (sodium : Sodium) (m : Messenger) (env : FriendEnv) (friendconId : ℕ)
    (packet : UInt8) :
    OnlyFriends m (m.sendStatusPacket sodium env friendconId packet) ∧
      (m.sendStatusPacket sodium env friendconId packet).friendlist = m.friendlist ∧
      (m.sendStatusPacket sodium env friendconId packet).world.app = m.world.app := by
  unfold sendStatusPacket
  split
  · exact ⟨⟨rfl, .writeFriendPacket sodium env m.world _ _⟩, rfl, rfl⟩
  · exact ⟨.refl m, rfl, rfl⟩

/-- The friend list after a place was taken: one that was free, or a new one at the end. -/
inductive Takes (friendlist : List Friend) (i friendconId : ℕ) (realPk : PublicKey) (status : FriendStatus) :
    List Friend → Prop
  | free {friend : Friend} (hfriend : friendlist[i]? = some friend) (hfree : friend.status = .nofriend) :
      Takes friendlist i friendconId realPk status (friendlist.set i (initFriend friend friendconId realPk status))
  | fresh (hi : i = friendlist.length) (hused : ∀ friend ∈ friendlist, friend.status ≠ .nofriend) :
      Takes friendlist i friendconId realPk status (friendlist ++ [initFriend .zero friendconId realPk status])

/-- What `init_new_friend` does: nothing to the friend list if it fails. -/
theorem initNewFriend_cases {result : Option ℕ} (h : m.initNewFriend sodium env realPk status = (result, m')) :
    OnlyFriends m m' ∧
      ((result = none ∧ m'.friendlist = m.friendlist) ∨
        ∃ i friendconId, result = some i ∧ Takes m.friendlist i friendconId realPk status m'.friendlist) := by
  unfold initNewFriend at h
  split at h
  · obtain ⟨rfl, rfl⟩ := Prod.mk.inj h
    exact ⟨.refl m, .inl ⟨rfl, rfl⟩⟩
  · have hbelow := FriendWorld.KeptBelow.newFriendConnection env.below m.world realPk
    split at h
    · rename_i frC heq
      rw [heq] at hbelow
      obtain ⟨rfl, rfl⟩ := Prod.mk.inj h
      exact ⟨⟨rfl, hbelow⟩, .inl ⟨rfl, rfl⟩⟩
    · rename_i friendconId frC heq
      rw [heq] at hbelow
      dsimp only at h
      split at h
      · rename_i i hfind
        obtain ⟨hlt, hfree, -⟩ := findIdx?_eq_some_iff_getElem.mp hfind
        obtain ⟨rfl, rfl⟩ := Prod.mk.inj h
        obtain ⟨honly, hlist, -⟩ := sendStatusPacket_onlyFriends sodium
          (({ m with world := { m.world with app := frC } } : Messenger).modifyFriend i
            fun friend => initFriend friend friendconId realPk status) env.below friendconId packetIdOnline
        refine ⟨.trans ⟨rfl, hbelow⟩ honly, .inr ⟨i, friendconId, rfl, ?_⟩⟩
        rw [hlist]
        have hset : m.friendlist.modify i (fun friend => initFriend friend friendconId realPk status) =
            m.friendlist.set i (initFriend m.friendlist[i] friendconId realPk status) := by
          rw [modify_eq_set_getElem?, getElem?_eq_getElem hlt]
          rfl
        change Takes _ _ _ _ _ (m.friendlist.modify i fun friend => initFriend friend friendconId realPk status)
        rw [hset]
        exact .free (getElem?_eq_getElem hlt) (by simpa using hfree)
      · rename_i hfind
        obtain ⟨rfl, rfl⟩ := Prod.mk.inj h
        obtain ⟨honly, hlist, -⟩ := sendStatusPacket_onlyFriends sodium
          ({ m with
            world := { m.world with app := frC }
            friendlist := m.friendlist ++ [initFriend .zero friendconId realPk status] } : Messenger)
          env.below friendconId packetIdOnline
        refine ⟨.trans ⟨rfl, hbelow⟩ honly, .inr ⟨m.friendlist.length, friendconId, rfl, ?_⟩⟩
        rw [hlist]
        refine .fresh rfl fun friend hfriend => ?_
        simpa using findIdx?_eq_none_iff.mp hfind friend hfriend

/-- A place that was taken by a new friend, with some fields written. -/
theorem Takes.sound {friendlist friendlist' : List Friend} {i friendconId : ℕ}
    (h : Takes friendlist i friendconId realPk status friendlist') (hsound : FriendsSound friendlist)
    (hnew : ∀ friend ∈ friendlist, friend.status ≠ .nofriend → friend.realPk ≠ realPk) {f : Friend → Friend}
    (hf : ∀ friend, friend.Sound → (f (initFriend friend friendconId realPk status)).Sound)
    (hpk : ∀ friend, (f friend).realPk = friend.realPk) : FriendsSound (friendlist'.modify i f) := by
  have hdiffer : ∀ friend, ∀ other ∈ friendlist, other.Differ (f (initFriend friend friendconId realPk status)) := by
    intro friend other hother hused _
    rw [hpk]
    exact hnew other hother hused
  cases h with
  | free hfriend =>
    rename_i friend _
    obtain ⟨hlt, -⟩ := List.getElem?_eq_some_iff.mp hfriend
    have hset : (friendlist.set i (initFriend friend friendconId realPk status)).modify i f =
        friendlist.set i (f (initFriend friend friendconId realPk status)) := by
      rw [modify_eq_set_getElem?, getElem?_set_self hlt]
      simp
    rw [hset]
    exact hsound.set (hf friend (hsound.each friend (mem_of_getElem? hfriend))) (hdiffer friend)
  | fresh hi =>
    subst hi
    have happend : (friendlist ++ [initFriend .zero friendconId realPk status]).modify friendlist.length f =
        friendlist ++ [f (initFriend .zero friendconId realPk status)] := by
      rw [modify_eq_set_getElem?, getElem?_concat_length]
      simp
    rw [happend]
    exact hsound.append (hf .zero Friend.zero_sound) (hdiffer .zero)

/-- A key that is not found belongs to no friend. -/
theorem getfriendId_none (h : m.getfriendId realPk = none) :
    ∀ friend ∈ m.friendlist, friend.status ≠ .nofriend → friend.realPk ≠ realPk := by
  intro friend hfriend hused heq
  have hnot := findIdx?_eq_none_iff.mp h friend hfriend
  simp [hused, heq] at hnot

end Adding

/-- A friend whose request goes out or has to go out again. -/
theorem keeps_requesting {friend friend' : Friend} (hrealPk : friend'.realPk = friend.realPk)
    (hfriendconId : friend'.friendconId = friend.friendconId) (hname : friend'.name = friend.name)
    (hstatusmessage : friend'.statusmessage = friend.statusmessage) (hinfo : friend'.info = friend.info)
    (hbefore : friend.status = .added ∨ friend.status = .requested)
    (hafter : friend'.status = .added ∨ friend'.status = .requested) : friend.Keeps friend' := by
  have hused : friend.status ≠ .nofriend := by rcases hbefore with heq | heq <;> simp [heq]
  have hused' : friend'.status ≠ .nofriend := by rcases hafter with heq | heq <;> simp [heq]
  refine ⟨hrealPk, hfriendconId, iff_of_false hused' hused, fun hs => ⟨?_, ?_, ?_, fun _ => ?_, fun _ => ?_⟩⟩
  · exact hname ▸ hs.name
  · exact hstatusmessage ▸ hs.statusmessage
  · exact hinfo ▸ hs.info
  · exact hrealPk ▸ hs.valid hused
  · exact hinfo ▸ hs.request hbefore

/-- A pass over a friend keeps what is saved of it. -/
theorem doFriend_keeps (sends : FriendSends) (tempTime time : UInt64) (friend : Friend) :
    friend.Keeps (doFriend sends tempTime time friend) := by
  unfold doFriend
  dsimp only
  set asked : Friend := if friend.status = .added ∧ sends.request = true then
    { friend with status := .requested, friendrequestLastsent := tempTime } else friend with hasked
  have hkeeps : friend.Keeps asked := by
    rw [hasked]
    split
    · rename_i hadded
      exact keeps_requesting rfl rfl rfl rfl rfl (.inl hadded.1) (.inr rfl)
    · exact .refl friend
  set checked : Friend :=
    if asked.status = .requested then checkFriendRequestTimedOut asked tempTime else asked with hchecked
  have hkeeps' : asked.Keeps checked := by
    rw [hchecked]
    split
    · rename_i hrequested
      unfold checkFriendRequestTimedOut
      split
      · exact keeps_requesting rfl rfl rfl rfl rfl (.inr hrequested) (.inl rfl)
      · exact .refl asked
    · exact .refl asked
  refine (hkeeps.trans hkeeps').trans ?_
  split
  · exact .written rfl rfl
  · exact .refl checked

/-- A number that is answered is that of a friend in the list. -/
theorem getFriend_some {m : Messenger} {friendnumber : ℕ} {friend : Friend}
    (h : m.getFriend friendnumber = some friend) :
    m.friendlist[friendnumber]? = some friend ∧ friend.status ≠ .nofriend := by
  unfold getFriend at h
  split at h
  · contradiction
  · rename_i hget
    split at h
    · contradiction
    · rename_i hused
      obtain rfl := Option.some_inj.mp h
      exact ⟨hget, hused⟩

/-- A change that leaves the layers below and every friend in its place. -/
structure KeepsFriends (m m' : Messenger) : Prop where
  world : m'.world = m.world
  name : m.name.length ≤ maxNameLength → m'.name.length ≤ maxNameLength
  statusmessage : m.statusmessage.length ≤ maxStatusmessageLength → m'.statusmessage.length ≤ maxStatusmessageLength
  userstatus : m.userstatus < userstatusInvalid → m'.userstatus < userstatusInvalid
  friends : List.Forall₂ Friend.Keeps m.friendlist m'.friendlist

namespace KeepsFriends

/-- A messenger whose friends are kept stays sound. -/
theorem sound {sodium : Sodium} {m m' : Messenger} (h : m.KeepsFriends m') (hm : m.Sound sodium) : m'.Sound sodium :=
  ⟨h.world ▸ hm.keys, h.world ▸ hm.addressed, h.name hm.name, h.statusmessage hm.statusmessage,
    h.userstatus hm.userstatus,
    hm.friends.keeps h.friends⟩

theorem refl (m : Messenger) : m.KeepsFriends m := ⟨rfl, id, id, id, forall₂_same.mpr fun friend _ => .refl friend⟩

variable (m : Messenger)

/-- Fields of a friend are written. -/
theorem modifyFriend {i : ℕ} {f : Friend → Friend}
    (hkeeps : ∀ friend, m.friendlist[i]? = some friend → friend.Keeps (f friend)) :
      m.KeepsFriends (m.modifyFriend i f) := by
  refine ⟨rfl, id, id, id, forall₂_iff_get.mpr ⟨by simp [Messenger.modifyFriend], fun j hj hj' => ?_⟩⟩
  simp only [Messenger.modifyFriend, get_eq_getElem, getElem_modify]
  split
  · rename_i heq
    subst heq
    exact hkeeps _ (getElem?_eq_getElem hj)
  · exact .refl _

/-- A flag of every friend is written. -/
theorem friends_map {f : Friend → Friend} (hkeeps : ∀ friend : Friend, friend.Keeps (f friend)) :
    List.Forall₂ Friend.Keeps m.friendlist (m.friendlist.map f) :=
  forall₂_map_right_iff.mpr (forall₂_same.mpr fun friend _ => hkeeps friend)

/-- The own name is short enough, or refused. -/
theorem setname (name : Bytes) : m.KeepsFriends (m.setname name).2 := by
  unfold Messenger.setname
  split
  · exact .refl m
  · rename_i hlong
    split
    · exact .refl m
    · exact ⟨rfl, fun _ => Nat.le_of_not_lt hlong, id, id, friends_map m fun _ => .written rfl rfl⟩

/-- The own status message is short enough, or refused. -/
theorem mSetStatusmessage (status : Bytes) : m.KeepsFriends (m.mSetStatusmessage status).2 := by
  unfold Messenger.mSetStatusmessage
  split
  · exact .refl m
  · rename_i hlong
    split
    · exact .refl m
    · exact ⟨rfl, id, fun _ => Nat.le_of_not_lt hlong, id, friends_map m fun _ => .written rfl rfl⟩

/-- The own status is a valid one, or refused. -/
theorem mSetUserstatus (status : UInt8) : m.KeepsFriends (m.mSetUserstatus status).2 := by
  unfold Messenger.mSetUserstatus
  split
  · exact .refl m
  · rename_i hinvalid
    split
    · exact .refl m
    · exact ⟨rfl, id, id, fun _ => UInt8.not_le.mp hinvalid, friends_map m fun _ => .written rfl rfl⟩

/-- The name of a friend is written. -/
theorem setfriendname (friendnumber : ℕ) (name : Bytes) : m.KeepsFriends (m.setfriendname friendnumber name).2 := by
  unfold Messenger.setfriendname
  split
  · exact .refl m
  · split
    · exact .refl m
    · rename_i hlong
      exact .modifyFriend m fun friend _ =>
        ⟨rfl, rfl, .rfl, fun hs => ⟨by dsimp only; omega, hs.statusmessage, hs.info, hs.valid, hs.request⟩⟩

/-- The status message of a friend is written. -/
theorem setFriendStatusmessage (friendnumber : ℕ) (status : Bytes) :
    m.KeepsFriends (m.setFriendStatusmessage friendnumber status).2 := by
  unfold Messenger.setFriendStatusmessage
  split
  · exact .refl m
  · split
    · exact .refl m
    · rename_i hlong
      exact .modifyFriend m fun friend _ =>
        ⟨rfl, rfl, .rfl, fun hs => ⟨hs.name, Nat.le_of_not_lt hlong, hs.info, hs.valid, hs.request⟩⟩

/-- The status of a friend is written. -/
theorem setFriendUserstatus (friendnumber : ℕ) (status : UInt8) :
    m.KeepsFriends (m.setFriendUserstatus friendnumber status) :=
  .modifyFriend m fun _ _ => .written rfl rfl

/-- A friend in the list is confirmed or comes online. -/
theorem setFriendStatus {friendnumber : ℕ} {friend : Friend} (hfriend : m.getFriend friendnumber = some friend)
    {status : FriendStatus} (hstatus : status = .confirmed ∨ status = .online) :
    m.KeepsFriends (m.setFriendStatus friendnumber status) := by
  obtain ⟨hget, hused⟩ := getFriend_some hfriend
  refine .modifyFriend m fun other hother => ?_
  obtain rfl := Option.some_inj.mp (hget.symm.trans hother)
  have hnot : status ≠ .nofriend := by rcases hstatus with rfl | rfl <;> decide
  have hold : ¬(status = .added ∨ status = .requested) := by rcases hstatus with rfl | rfl <;> decide
  split
  all_goals exact ⟨rfl, rfl, iff_of_false hnot hused, fun hs =>
    ⟨hs.name, hs.statusmessage, hs.info, fun _ => hs.valid hused, fun hadded => absurd hadded hold⟩⟩

/-- A friend goes online or offline. -/
theorem handleStatus (friendnumber : ℕ) (status : Bool) : m.KeepsFriends (m.handleStatus friendnumber status) := by
  unfold Messenger.handleStatus
  split
  · exact .refl m
  · rename_i hfriend
    split
    · exact .setFriendStatus m hfriend (.inl rfl)
    · exact .refl m

/-- A packet of a friend writes its profile. -/
theorem handlePacket (friendnumber : ℕ) (packet : Bytes) : m.KeepsFriends (m.handlePacket friendnumber packet) := by
  unfold Messenger.handlePacket
  split
  · rename_i friend packetId data hfriend
    split
    · split
      · exact .setFriendStatus m hfriend (.inr rfl)
      · exact .refl m
    · unfold handleStatePacket
      split
      · split
        · exact .refl m
        · exact .setFriendStatus m hfriend (.inl rfl)
      · split
        · split
          · exact .refl m
          · rename_i hlong
            exact .modifyFriend m fun friend _ =>
              ⟨rfl, rfl, .rfl, fun hs => ⟨Nat.le_of_not_lt hlong, hs.statusmessage, hs.info, hs.valid, hs.request⟩⟩
        · split
          · split
            · exact .refl m
            · exact .setFriendStatusmessage m friendnumber data
          · split
            · split
              · split
                · exact .refl m
                · exact .setFriendUserstatus m friendnumber _
              · exact .refl m
            · split
              · split
                · exact .modifyFriend m fun _ _ => .written rfl rfl
                · exact .refl m
              · exact .refl m
  · exact .refl m

/-- The pass over all friends. -/
theorem doFriends (sends : ℕ → FriendSends) (tempTime time : UInt64) :
    m.KeepsFriends (m.doFriends sends tempTime time) := by
  refine ⟨rfl, id, id, id, forall₂_iff_get.mpr ⟨by simp [Messenger.doFriends], fun j hj hj' => ?_⟩⟩
  simp only [Messenger.doFriends, get_eq_getElem, getElem_mapIdx]
  exact doFriend_keeps (sends j) tempTime time _

end KeepsFriends

namespace Sound

variable {sodium : Sodium} {m : Messenger}

section

variable (h : m.Sound sodium)
include h

/-- A friend that is added with a request keeps the messenger sound. -/
theorem mAddfriend (env : MessengerEnv) (address : Block friendAddressSize) (data : Bytes) :
    (m.mAddfriend sodium env address data).2.Sound sodium := by
  unfold Messenger.mAddfriend
  dsimp only
  split
  · exact h
  · rename_i hlong
    split
    · exact h
    · rename_i hvalid
      split
      · exact h
      · split
        · exact h
        · rename_i hshort
          split
          · exact h
          · split
            · split
              · exact h
              · split
                · exact h
                · exact KeepsFriends.sound (.modifyFriend m fun _ _ => .written rfl rfl) h
            · rename_i hid
              split
              · rename_i m' heq
                obtain ⟨honly, ⟨-, hlist⟩ | ⟨i, friendconId, hi, -⟩⟩ := initNewFriend_cases heq
                · exact honly.sound h (hlist ▸ h.friends)
                · contradiction
              · rename_i ret m' heq
                obtain ⟨honly, ⟨hnone, -⟩ | ⟨i, friendconId, hi, htakes⟩⟩ := initNewFriend_cases heq
                · contradiction
                · obtain rfl := Option.some_inj.mp hi
                  refine (honly.trans (.modifyFriend m' ret _)).sound h ?_
                  refine htakes.sound h.friends (getfriendId_none hid) (fun friend hs => ?_) fun _ => rfl
                  exact ⟨hs.name, Nat.zero_le _, Nat.le_of_not_lt hlong, fun _ => eq_true_of_ne_false hvalid,
                    fun _ => Nat.le_of_not_lt hshort⟩

/-- A friend that is added without one keeps the messenger sound. -/
theorem mAddfriendNorequest (env : MessengerEnv) (realPk : PublicKey) :
    (m.mAddfriendNorequest sodium env realPk).2.Sound sodium := by
  unfold Messenger.mAddfriendNorequest
  split
  · exact h
  · rename_i hid
    split
    · exact h
    · rename_i hvalid
      split
      · exact h
      · split
        · rename_i m' heq
          obtain ⟨honly, ⟨-, hlist⟩ | ⟨i, friendconId, hi, -⟩⟩ := initNewFriend_cases heq
          · exact honly.sound h (hlist ▸ h.friends)
          · contradiction
        · rename_i ret m' heq
          obtain ⟨honly, ⟨hnone, -⟩ | ⟨i, friendconId, hi, htakes⟩⟩ := initNewFriend_cases heq
          · contradiction
          · refine honly.sound h ?_
            have hfriends :=
              htakes.sound (f := id) h.friends (getfriendId_none (not_not.mp hid)) (fun friend hs => ?_) fun _ => rfl
            · rwa [modify_id] at hfriends
            · exact ⟨hs.name, Nat.zero_le _, hs.info, fun _ => eq_true_of_ne_false hvalid,
                fun hadded => absurd hadded (by simp [initFriend])⟩

/-- A deleted friend keeps the messenger sound. -/
theorem mDelfriend (env : MessengerEnv) (friendnumber : ℕ) :
    (m.mDelfriend sodium env friendnumber).2.Sound sodium := by
  unfold Messenger.mDelfriend
  split
  · exact h
  · rename_i friend _
    obtain ⟨honly, hlist, -⟩ := sendStatusPacket_onlyFriends sodium m env.below friend.friendconId packetIdOffline
    refine (honly.trans ⟨rfl, .killFriendConnection sodium env.below _ friend.friendconId⟩).sound h ?_
    dsimp only
    rw [hlist]
    refine FriendsSound.sublist ?_ (List.rdropWhile_prefix _ _).sublist
    exact h.friends.set Friend.zero_sound fun other _ _ hzero => absurd rfl hzero

/-- A saved friend that was confirmed is loaded. -/
theorem loadConfirmed (fnum : ℕ) (temp : SavedFriend) : (m.loadConfirmed fnum temp).Sound sodium := by
  have hname := (KeepsFriends.setfriendname m fnum (temp.name.toList.take temp.nameLength.toNat)).sound h
  unfold Messenger.loadConfirmed
  dsimp only
  set named := (m.setfriendname fnum (temp.name.toList.take temp.nameLength.toNat)).2
  set texted := if temp.statusmessageLength.toNat > maxStatusmessageLength then named else
    (named.setFriendStatusmessage fnum (temp.statusmessage.toList.take temp.statusmessageLength.toNat)).2 with htexted
  have hkeeps : texted.Sound sodium := by
    rw [htexted]
    split
    · exact hname
    · exact (KeepsFriends.setFriendStatusmessage named fnum _).sound hname
  have hstatus := (KeepsFriends.setFriendUserstatus texted fnum temp.userstatus).sound hkeeps
  exact KeepsFriends.sound (.modifyFriend _ fun _ _ => .written rfl rfl) hstatus

/-- A saved friend is loaded. -/
theorem loadFriend (env : MessengerEnv) (temp : SavedFriend) : (loadFriend sodium env m temp).Sound sodium := by
  unfold Messenger.loadFriend
  split
  · have hadd := h.mAddfriendNorequest env temp.realPk
    split <;> rename_i heq <;> rw [heq] at hadd
    · exact hadd
    · exact hadd.loadConfirmed _ temp
  · split
    · split
      · exact h
      · exact h.mAddfriend env temp.address _
    · exact h

end

/-- The saved friends are loaded one by one. -/
theorem friendsListLoadLoop (env : ℕ → MessengerEnv) (num i : ℕ) (h : m.Sound sodium) (data : Bytes) :
    (friendsListLoadLoop sodium env num i m data).Sound sodium := by
  induction num generalizing i m data with
  | zero => exact h
  | succ num ih => exact ih (i + 1) (h.loadFriend (env i) _) _

/-- The nospam value is written. -/
theorem setNospam (h : m.Sound sodium) (num : UInt32) : ({ m with nospam := num } : Messenger).Sound sodium :=
  ⟨h.keys, h.addressed, h.name, h.statusmessage, h.userstatus, h.friends⟩

/-- The saved secret key is loaded with its public key. -/
theorem loadSecretKey (h : m.Sound sodium) (sk : SecretKey) : (m.loadSecretKey sodium sk).Sound sodium :=
  ⟨rfl, h.addressed, h.name, h.statusmessage, h.userstatus, h.friends⟩

/-- A section of the saved data is loaded. -/
theorem messengerLoadStateCallback (h : m.Sound sodium) (env : ℕ → MessengerEnv) (stackNodes : ℕ → NodeFormat)
    (data : Bytes)
    (type : UInt16) : (messengerLoadStateCallback sodium env stackNodes m data type).2.Sound sodium := by
  unfold Messenger.messengerLoadStateCallback
  split
  · split
    · have hkeys := (h.setNospam (lendianToHost32 data)).loadSecretKey (slice 32 data (4 + 32))
      dsimp only
      split <;> exact hkeys
    · exact h
  split
  · exact ⟨h.keys, h.addressed, h.name, h.statusmessage, h.userstatus, h.friends⟩
  split
  · unfold friendsListLoad
    split
    · exact h
    · exact friendsListLoadLoop env _ 0 h data
  split
  · split
    · exact (KeepsFriends.setname m data).sound h
    · exact h
  split
  · split
    · exact (KeepsFriends.mSetStatusmessage m data).sound h
    · exact h
  split
  · split
    · exact (KeepsFriends.mSetUserstatus m _).sound h
    · exact h
  split
  · split
    · exact h
    · exact ⟨h.keys, h.addressed, h.name, h.statusmessage, h.userstatus, h.friends⟩
  split
  · split
    · exact h
    · split
      · exact ⟨h.keys, h.addressed, h.name, h.statusmessage, h.userstatus, h.friends⟩
      · exact h
  split
  · split <;> exact h
  · exact h

/-- Saved data is loaded. -/
theorem messengerLoad (h : m.Sound sodium) (env : ℕ → MessengerEnv) (stackNodes : ℕ → NodeFormat) (data : Bytes) :
    (m.messengerLoad sodium env stackNodes data).2.Sound sodium := by
  unfold Messenger.messengerLoad
  split
  · exact h
  · split
    · exact loadState_keeps (fun m data type hm => hm.messengerLoadStateCallback env stackNodes data type) _ m _ h
    · exact h

end Sound

/-! ## Operations -/

/-- What can happen to a messenger. -/
inductive Operation where
  | addfriend (env : MessengerEnv) (address : Block friendAddressSize) (data : Bytes)
  | addfriendNorequest (env : MessengerEnv) (realPk : PublicKey)
  | delfriend (env : MessengerEnv) (friendnumber : ℕ)
  | setname (name : Bytes)
  | setStatusmessage (status : Bytes)
  | setUserstatus (status : UInt8)
  | setNospam (num : UInt32)
  | loadSecretKey (sk : SecretKey)
  | load (env : ℕ → MessengerEnv) (stackNodes : ℕ → NodeFormat) (data : Bytes)
  | handleStatus (friendnumber : ℕ) (status : Bool)
  | handlePacket (friendnumber : ℕ) (packet : Bytes)
  | doFriends (sends : ℕ → FriendSends) (tempTime time : UInt64)
  | below (world : FriendWorld)

/-- The messenger after an operation. -/
def Operation.exec (sodium : Sodium) (m : Messenger) : Operation → Messenger
  | addfriend env address data => (m.mAddfriend sodium env address data).2
  | addfriendNorequest env realPk => (m.mAddfriendNorequest sodium env realPk).2
  | delfriend env friendnumber => (m.mDelfriend sodium env friendnumber).2
  | setname name => (m.setname name).2
  | setStatusmessage status => (m.mSetStatusmessage status).2
  | setUserstatus status => (m.mSetUserstatus status).2
  | setNospam num => { m with nospam := num }
  | loadSecretKey sk => m.loadSecretKey sodium sk
  | load env stackNodes data => (m.messengerLoad sodium env stackNodes data).2
  | handleStatus friendnumber status => m.handleStatus friendnumber status
  | handlePacket friendnumber packet => m.handlePacket friendnumber packet
  | doFriends sends tempTime time => m.doFriends sends tempTime time
  | below world => { m with world := world }

/-- The layers below do anything that keeps the key pair and the addresses in their places. -/
def Operation.Allowed (m : Messenger) : Operation → Prop
  | below world => FriendWorld.KeptBelow m.world world
  | _ => True

/-- The messengers that operations reach from a new one. -/
inductive Reachable (sodium : Sodium) : Messenger → Prop
  | new (dhtKeys : DhtKeys) (selfSecretKey : SecretKey) (secretSymmetricKey : SharedKey) (onionC : OnionClient)
      (dht : Dht)
      (hdht : dht.Addressed) (nospam : UInt32) :
      Reachable sodium
        (.new (.new dhtKeys (sodium.scalarmultBase selfSecretKey) selfSecretKey secretSymmetricKey onionC dht)
        nospam)
  | step {m : Messenger} (h : Reachable sodium m) (op : Operation) (hop : op.Allowed m) :
      Reachable sodium (op.exec sodium m)

/-- An operation keeps the messenger sound. -/
theorem Operation.exec_sound {sodium : Sodium} {m : Messenger} (h : m.Sound sodium) (op : Operation)
    (hop : op.Allowed m) :
    (op.exec sodium m).Sound sodium := by
  cases op with
  | addfriend env address data => exact h.mAddfriend env address data
  | addfriendNorequest env realPk => exact h.mAddfriendNorequest env realPk
  | delfriend env friendnumber => exact h.mDelfriend env friendnumber
  | setname name => exact (KeepsFriends.setname m name).sound h
  | setStatusmessage status => exact (KeepsFriends.mSetStatusmessage m status).sound h
  | setUserstatus status => exact (KeepsFriends.mSetUserstatus m status).sound h
  | setNospam num => exact h.setNospam num
  | loadSecretKey sk => exact h.loadSecretKey sk
  | load env stackNodes data => exact h.messengerLoad env stackNodes data
  | handleStatus friendnumber status => exact (KeepsFriends.handleStatus m friendnumber status).sound h
  | handlePacket friendnumber packet => exact (KeepsFriends.handlePacket m friendnumber packet).sound h
  | doFriends sends tempTime time => exact (KeepsFriends.doFriends m sends tempTime time).sound h
  | below world => exact OnlyFriends.sound ⟨rfl, hop⟩ h h.friends

/-- Every messenger that is reached is sound. -/
theorem Reachable.sound {sodium : Sodium} {m : Messenger} (h : Reachable sodium m) : m.Sound sodium := by
  induction h with
  | new dhtKeys selfSecretKey secretSymmetricKey onionC dht hdht nospam =>
    exact ⟨rfl, hdht, Nat.zero_le _, Nat.zero_le _,
      show (0 : UInt8) < 3 by decide, ⟨fun _ h => absurd h not_mem_nil, .nil⟩⟩
  | step _ op hop ih => exact op.exec_sound ih hop

end Messenger

end Toxcore
