import Toxcore.Friends.Consistency

/-!
# Key announcements that are taken twice

An announcement is taken once because its number is stored. But a friend connection that is online drops its crypto
connection over an announcement of another DHT key, goes offline by that, and going offline starts the numbers over.
So right after it was taken such an announcement is taken again; every other one is refused.
-/

namespace Toxcore

open ByteStrings FriendConnections List Option

/-- What decides about an announcement of a friend: whether the friend is in use, its real key, and the last number. -/
def announceState (friend : OnionFriend) : Bool × PublicKey × UInt64 :=
  (friend.status, friend.realPublicKey, friend.lastNoreplay)

/-- What decides about announcements. -/
def OnionClient.announceStates (onionC : OnionClient) : List (Bool × PublicKey × UInt64) :=
  onionC.friendsList.map announceState

/-- The last number is written. -/
def setNumber (number : UInt64) (state : Bool × PublicKey × UInt64) : Bool × PublicKey × UInt64 :=
  (state.1, state.2.1, number)

variable (onionC : OnionClient)

/-- The friend number of a key depends on what decides about announcements only. -/
theorem onionFriendNum_eq (publicKey : PublicKey) :
    onionFriendNum onionC publicKey =
      onionC.announceStates.findIdx? fun state => state.1 = true ∧ state.2.1 = publicKey := by
  rw [OnionClient.announceStates, findIdx?_map]
  rfl

variable {f : OnionFriend → OnionFriend}

/-- A friend is written in place. -/
theorem announceStates_modify (friendNum : ℕ) {g : Bool × PublicKey × UInt64 → Bool × PublicKey × UInt64}
    (hf : ∀ friend, announceState (f friend) = g (announceState friend)) :
    OnionClient.announceStates { onionC with friendsList := onionC.friendsList.modify friendNum f } =
      onionC.announceStates.modify friendNum g := by
  apply ext_getElem?
  intro j
  rw [OnionClient.announceStates, OnionClient.announceStates, getElem?_map, getElem?_modify,
    getElem?_modify, getElem?_map]
  cases onionC.friendsList[j]? with
  | none => rfl
  | some friend =>
    by_cases hj : friendNum = j
    · simp [hj, hf]
    · simp [hj]

theorem announceStates_modify_same (friendNum : ℕ) (hf : ∀ friend, announceState (f friend) = announceState friend) :
    OnionClient.announceStates { onionC with friendsList := onionC.friendsList.modify friendNum f } =
      onionC.announceStates := by
  have hid : ∀ friend, announceState (f friend) = id (announceState friend) := hf
  rw [announceStates_modify onionC friendNum hid, modify_id]

/-- The number of a friend is written. -/
theorem setNumber_findIdx (states : List (Bool × PublicKey × UInt64)) (friendNum : ℕ) (number : UInt64)
    (publicKey : PublicKey) :
    ((states.modify friendNum (setNumber number)).findIdx? fun state => state.1 = true ∧ state.2.1 = publicKey) =
      states.findIdx? fun state => state.1 = true ∧ state.2.1 = publicKey := by
  induction states generalizing friendNum with
  | nil => rw [modify_nil]
  | cons state states ih =>
    cases friendNum with
    | zero => rw [modify_zero_cons, findIdx?_cons, findIdx?_cons]; rfl
    | succ friendNum => rw [modify_succ_cons, findIdx?_cons, findIdx?_cons, ih]

/-- The DHT key of a friend is no part of it. -/
theorem announceStates_onionSetFriendDhtPubkey (now : UInt64) (onionC : OnionClient) (friendNum : ℕ)
    (dhtKey : PublicKey) :
    (onionSetFriendDhtPubkey now onionC friendNum dhtKey).announceStates = onionC.announceStates := by
  apply announceStates_modify_same
  intro friend
  split
  · rfl
  · split <;> rfl

/-- A friend that goes offline starts its numbers over. -/
theorem announceStates_onionSetFriendOnline (now : UInt64) (onionC : OnionClient) (friendNum : ℕ) :
    (onionSetFriendOnline now onionC friendNum false).announceStates =
      onionC.announceStates.modify friendNum (setNumber 0) := by
  apply announceStates_modify
  intro friend
  rfl

/-! ## What an announcement does to the numbers -/

section Numbers

variable {sodium : Sodium} {env : FriendEnv} {w : FriendWorld} {frC : FriendConnections} {n : ℕ}
  {friendCon : FriendConn}

/-- A relay of a friend leaves the onion client alone. -/
theorem onionC_friendAddTcpRelay (frC : FriendConnections) (n : ℕ) (ipPort : IpPort) (publicKey : PublicKey) :
    (frC.friendAddTcpRelay n ipPort publicKey).onionC = frC.onionC := by
  unfold friendAddTcpRelay
  split
  · rfl
  · split
    · split <;> rfl
    · rfl

/-- So do the nodes of an announcement. -/
theorem onionC_takeAnnouncedNodes (friendNum : ℕ) (nodes : List NodeFormat) (frC : FriendConnections) :
    (nodes.foldl (takeAnnouncedNode friendNum) frC).onionC = frC.onionC := by
  induction nodes generalizing frC with
  | nil => rfl
  | cons node nodes ih =>
    rw [foldl_cons, ih]
    unfold takeAnnouncedNode tcpRelayNodeCallback
    split
    · split
      · rfl
      · split
        · rfl
        · exact onionC_friendAddTcpRelay _ _ _ _
    · rfl

/-- So does a requested connection. -/
theorem onionC_friendNewConnection (sodium : Sodium) (env : FriendEnv) (w : FriendWorld) (n : ℕ) :
    (friendNewConnection sodium env w n).2.app.onionC = w.app.onionC := by
  unfold friendNewConnection
  split
  · rfl
  · split
    · rfl
    · split
      · rfl
      · split <;> rfl

/-- A changed DHT key leaves the onion client and the rest of the friend connection alone. -/
theorem changeDhtPk_spec (env : FriendEnv) (hconn : frC.getConn n = some friendCon) (dhtPublicKey : PublicKey) :
    (frC.changeDhtPk env n dhtPublicKey).onionC = frC.onionC ∧
      ∃ friendCon', (frC.changeDhtPk env n dhtPublicKey).getConn n = some friendCon' ∧
        friendCon'.status = friendCon.status ∧ friendCon'.onionFriendnum = friendCon.onionFriendnum := by
  have hlive := (getConn_eq_some.mp hconn).2
  have hset (dht : Dht) (lastrecv : UInt64) (lock : UInt16) (key : PublicKey) :
      FriendConnections.getConn ({ frC with dht := dht }.setConn n { friendCon with
        dhtPkLastrecv := lastrecv, dhtLock := lock, dhtTempPk := key }) n = some { friendCon with
          dhtPkLastrecv := lastrecv, dhtLock := lock, dhtTempPk := key } :=
    setConn_get (show FriendConnections.getConn { frC with dht := dht } n = some friendCon from hconn) hlive
  unfold changeDhtPk
  simp only [hconn]
  split
  · split
    · exact ⟨rfl, _, hset _ _ _ _, rfl, rfl⟩
    · exact ⟨rfl, _, hset _ _ _ _, rfl, rfl⟩
  · exact ⟨rfl, _, hset _ _ _ _, rfl, rfl⟩

/-- Going offline starts the numbers over for a friend that was online. -/
theorem announceStates_goOffline (hconn : w.app.getConn n = some friendCon) :
    (goOffline sodium env w n).app.onionC.announceStates =
      if friendCon.status = .connected then w.app.onionC.announceStates.modify friendCon.onionFriendnum (setNumber 0)
      else w.app.onionC.announceStates := by
  have hlive := (getConn_eq_some.mp hconn).2
  simp only [goOffline, handleStatus, hconn, Bool.false_eq_true, if_false]
  cases hstatus : friendCon.status with
  | none => exact absurd hstatus hlive
  | connecting => rfl
  | connected => exact announceStates_onionSetFriendOnline env.net.unixTime w.app.onionC friendCon.onionFriendnum

/-- The friend of the onion client whose numbers start over when a friend connection is told a DHT key: it is online,
has a crypto connection, and knows another key. -/
def droppedFriend (frC : FriendConnections) (n : ℕ) (dhtPublicKey : PublicKey) : Option ℕ :=
  match frC.getConn n with
  | none => none
  | some friendCon =>
    if friendCon.status = .connected ∧ friendCon.cryptConnectionId ≠ none ∧ friendCon.dhtTempPk ≠ dhtPublicKey then
      some friendCon.onionFriendnum
    else none

/-- The numbers after one friend, if any, started over. -/
def startOver (states : List (Bool × PublicKey × UInt64)) : Option ℕ → List (Bool × PublicKey × UInt64)
  | none => states
  | some friendNum => states.modify friendNum (setNumber 0)

theorem announceStates_dhtPkCallback (sodium : Sodium) (env : FriendEnv) (w : FriendWorld) (n : ℕ)
    (dhtPublicKey : PublicKey) :
    (dhtPkCallback sodium env w n dhtPublicKey).app.onionC.announceStates =
      startOver w.app.onionC.announceStates (droppedFriend w.app n dhtPublicKey) := by
  unfold dhtPkCallback droppedFriend
  cases hconn : w.app.getConn n with
  | none => rfl
  | some friendCon =>
    dsimp only
    by_cases hkey : friendCon.dhtTempPk = dhtPublicKey
    · rw [if_pos hkey, if_neg (by simp [hkey])]
      rfl
    · rw [if_neg hkey]
      obtain ⟨honion, friendCon', hconn', hstatus, hnum⟩ := changeDhtPk_spec env hconn dhtPublicKey
      rw [announceStates_onionSetFriendDhtPubkey, onionC_friendNewConnection]
      by_cases hid : friendCon.cryptConnectionId = none
      · rw [if_neg (not_not.mpr hid), if_neg (by simp [hid]), honion]
        rfl
      · rw [if_pos hid, announceStates_goOffline hconn', hstatus, hnum, honion]
        by_cases honline : friendCon.status = .connected
        · rw [if_pos honline, if_pos ⟨honline, hid, hkey⟩]
          rfl
        · rw [if_neg honline, if_neg fun h => honline h.1]
          rfl

/-- The numbers after an announcement was taken. -/
theorem announceStates_takeAnnouncement (sodium : Sodium) (env : FriendEnv) (w : FriendWorld) (friendNum : ℕ)
    (friend : OnionFriend) (data : Bytes) :
    (takeAnnouncement sodium env w friendNum friend data).app.onionC.announceStates =
      startOver (w.app.onionC.announceStates.modify friendNum (setNumber (announcedNoReplay data)))
        (friend.dhtPkCallback.bind fun number => droppedFriend w.app number.toNat (announcedKey data)) := by
  have hseen (frC : FriendConnections) :
      (frC.modifyOnionFriend friendNum fun friend =>
        { friend with lastSeen := env.net.unixTime }).onionC.announceStates =
        frC.onionC.announceStates := by
    apply announceStates_modify_same
    intro friend
    rfl
  have hnumber : (w.app.modifyOnionFriend friendNum fun friend =>
      { friend with lastNoreplay := announcedNoReplay data }).onionC.announceStates =
        w.app.onionC.announceStates.modify friendNum (setNumber (announcedNoReplay data)) := by
    apply announceStates_modify
    intro friend
    rfl
  unfold takeAnnouncement
  dsimp only
  rw [hseen, announceStates_onionSetFriendDhtPubkey]
  cases friend.dhtPkCallback with
  | none => exact hnumber
  | some number =>
    dsimp only
    rw [announceStates_dhtPkCallback, hnumber]
    rfl

end Numbers

/-! ## Announcements that are delivered twice -/

section Twice

variable {sodium : Sodium} {env : FriendEnv} {w : FriendWorld} {sourcePubkey : PublicKey} {data : Bytes}

variable {friend : OnionFriend} {friendNum : ℕ} {number : UInt64}

/-- An announcement of a friend, of the right length. -/
theorem handleDhtpkAnnounce_known (hmin : ¬data.length < dhtpkDataMinLength)
    (hmax : ¬data.length > dhtpkDataMaxLength) (hnum : onionFriendNum w.app.onionC sourcePubkey = some friendNum)
    (hfriend : w.app.onionC.friendsList[friendNum]? = some friend) :
    handleDhtpkAnnounce sodium env w sourcePubkey data =
      if announcedNoReplay data ≤ friend.lastNoreplay then (.replayed, w)
      else takeAnnouncedNodes env (takeAnnouncement sodium env w friendNum friend data) friendNum data := by
  have hget : w.app.onionC.friendsList.getD friendNum .zero = friend := by
    rw [getD_eq_getElem?_getD, hfriend, getD_some]
  simp only [handleDhtpkAnnounce, if_neg hmin, if_neg hmax, hnum, hget]

/-- The nodes of an announcement leave the onion client alone, and do not make it a replayed one. -/
theorem takeAnnouncedNodes_spec (env : FriendEnv) (w : FriendWorld) (friendNum : ℕ) (data : Bytes) :
    (takeAnnouncedNodes env w friendNum data).1.Accepted ∧
      (takeAnnouncedNodes env w friendNum data).2.app.onionC = w.app.onionC := by
  unfold takeAnnouncedNodes
  split
  · exact ⟨.inr rfl, rfl⟩
  · split
    · exact ⟨.inr rfl, onionC_takeAnnouncedNodes _ _ _⟩
    · exact ⟨.inl rfl, rfl⟩

/-- An accepted announcement is one of a friend, and has a number above the last one. -/
theorem accepted_inv (haccepted : (handleDhtpkAnnounce sodium env w sourcePubkey data).1.Accepted) :
    ¬data.length < dhtpkDataMinLength ∧ ¬data.length > dhtpkDataMaxLength ∧
      ∃ friendNum friend, onionFriendNum w.app.onionC sourcePubkey = some friendNum ∧
        w.app.onionC.friendsList[friendNum]? = some friend ∧ ¬announcedNoReplay data ≤ friend.lastNoreplay ∧
        (handleDhtpkAnnounce sodium env w sourcePubkey data).2.app.onionC =
          (takeAnnouncement sodium env w friendNum friend data).app.onionC := by
  by_cases hmin : data.length < dhtpkDataMinLength
  · rw [handleDhtpkAnnounce, if_pos hmin] at haccepted
    exact absurd haccepted (show ¬AnnounceReturn.badLength.Accepted by decide)
  by_cases hmax : data.length > dhtpkDataMaxLength
  · rw [handleDhtpkAnnounce, if_neg hmin, if_pos hmax] at haccepted
    exact absurd haccepted (show ¬AnnounceReturn.badLength.Accepted by decide)
  cases hnum : onionFriendNum w.app.onionC sourcePubkey with
  | none =>
    simp only [handleDhtpkAnnounce, if_neg hmin, if_neg hmax, hnum] at haccepted
    exact absurd haccepted (by decide)
  | some friendNum =>
    obtain ⟨hlt, -, -⟩ := findIdx?_eq_some_iff_getElem.mp hnum
    have hfriend := getElem?_eq_getElem hlt
    rw [handleDhtpkAnnounce_known hmin hmax hnum hfriend] at haccepted ⊢
    by_cases hreplay : announcedNoReplay data ≤ (w.app.onionC.friendsList[friendNum]).lastNoreplay
    · rw [if_pos hreplay] at haccepted
      exact absurd haccepted (show ¬AnnounceReturn.replayed.Accepted by decide)
    · rw [if_neg hreplay]
      exact ⟨hmin, hmax, friendNum, _, rfl, hfriend, hreplay, (takeAnnouncedNodes_spec _ _ _ _).2⟩

/-- The announcement is for another DHT key than the one a friend connection knows, which is online and drops its crypto
connection over it: the numbers of the friend that made the announcement start over. -/
def DropsOnline (w : FriendWorld) (sourcePubkey : PublicKey) (data : Bytes) : Prop :=
  ∃ friendNum friend number friendCon, onionFriendNum w.app.onionC sourcePubkey = some friendNum ∧
    w.app.onionC.friendsList[friendNum]? = some friend ∧ friend.dhtPkCallback = some number ∧
    w.app.getConn number.toNat = some friendCon ∧ friendCon.onionFriendnum = friendNum ∧
    friendCon.status = .connected ∧ friendCon.cryptConnectionId ≠ none ∧ friendCon.dhtTempPk ≠ announcedKey data

/-- When an announcement drops a connected friend. -/
theorem dropsOnline_iff (data : Bytes) (hnum : onionFriendNum w.app.onionC sourcePubkey = some friendNum)
    (hfriend : w.app.onionC.friendsList[friendNum]? = some friend) :
    DropsOnline w sourcePubkey data ↔
      (friend.dhtPkCallback.bind fun number => droppedFriend w.app number.toNat (announcedKey data)) =
        some friendNum := by
  constructor
  · rintro ⟨friendNum', friend', number, friendCon, hnum', hfriend', hcallback, hconn, hown, hrest⟩
    obtain rfl := some_inj.mp (hnum.symm.trans hnum')
    obtain rfl := some_inj.mp (hfriend.symm.trans hfriend')
    rw [hcallback, bind_some, droppedFriend, hconn]
    exact (if_pos hrest).trans (congrArg some hown)
  · intro h
    obtain ⟨number, hcallback, hdropped⟩ := bind_eq_some_iff.mp h
    unfold droppedFriend at hdropped
    split at hdropped
    · contradiction
    · rename_i friendCon hconn
      split at hdropped
      · rename_i hrest
        exact ⟨friendNum, friend, number, friendCon, hnum, hfriend, hcallback, hconn, some_inj.mp hdropped, hrest⟩
      · contradiction

/-- The friend that made an announcement keeps its number when the numbers change. -/
theorem onionFriendNum_startOver {onionC onionC' : OnionClient} {dropped : Option ℕ}
    (hstates : onionC'.announceStates = startOver (onionC.announceStates.modify friendNum (setNumber number)) dropped) :
    onionFriendNum onionC' sourcePubkey = onionFriendNum onionC sourcePubkey := by
  rw [onionFriendNum_eq, hstates, onionFriendNum_eq]
  cases dropped with
  | none => exact setNumber_findIdx _ _ _ _
  | some other => exact (setNumber_findIdx _ _ _ _).trans (setNumber_findIdx _ _ _ _)

/-- The last number of the friend that made an announcement. -/
theorem lastNoreplay_startOver {onionC onionC' : OnionClient} {dropped : Option ℕ}
    (hfriend : onionC.friendsList[friendNum]? = some friend)
    (hstates : onionC'.announceStates = startOver (onionC.announceStates.modify friendNum (setNumber number)) dropped) :
    ∃ friend', onionC'.friendsList[friendNum]? = some friend' ∧
      friend'.lastNoreplay = if dropped = some friendNum then 0 else number := by
  have hstate : onionC.announceStates[friendNum]? = some (announceState friend) := by
    rw [OnionClient.announceStates, getElem?_map, hfriend, map_some]
  have hget : onionC'.friendsList[friendNum]?.map announceState =
      some (setNumber (if dropped = some friendNum then 0 else number) (announceState friend)) := by
    rw [← getElem?_map, ← OnionClient.announceStates, hstates]
    cases dropped with
    | none => simp [startOver, hstate]
    | some other =>
      by_cases hother : other = friendNum
      · simp [startOver, hstate, hother, setNumber]
      · simp [startOver, hstate, hother]
  obtain ⟨friend', hfriend', heq⟩ := map_eq_some_iff.mp hget
  exact ⟨friend', hfriend', congrArg (fun state => state.2.2) heq⟩

/-- A number above another one is not 0. -/
theorem not_le_zero_of_not_le {last : UInt64} (h : ¬number ≤ last) : ¬number ≤ 0 := by
  intro hzero
  exact h (UInt64.le_trans hzero (UInt64.le_iff_toNat_le.mpr (Nat.zero_le _)))

/-- The friend that made an announcement, after it was taken: the numbers start over where the friend connection was
online and dropped its crypto connection. -/
theorem accepted_friend (haccepted : (handleDhtpkAnnounce sodium env w sourcePubkey data).1.Accepted) :
    ¬data.length < dhtpkDataMinLength ∧ ¬data.length > dhtpkDataMaxLength ∧ ¬announcedNoReplay data ≤ 0 ∧
      ∃ friendNum friend,
        onionFriendNum (handleDhtpkAnnounce sodium env w sourcePubkey data).2.app.onionC sourcePubkey = some friendNum ∧
        (handleDhtpkAnnounce sodium env w sourcePubkey data).2.app.onionC.friendsList[friendNum]? = some friend ∧
        (DropsOnline w sourcePubkey data → friend.lastNoreplay = 0) ∧
        (¬DropsOnline w sourcePubkey data → friend.lastNoreplay = announcedNoReplay data) := by
  obtain ⟨hmin, hmax, friendNum, friend, hnum, hfriend, hnew, honion⟩ := accepted_inv haccepted
  have hstates := announceStates_takeAnnouncement sodium env w friendNum friend data
  rw [← honion] at hstates
  have hdrops := dropsOnline_iff data hnum hfriend
  obtain ⟨friend', hfriend', hlast⟩ := lastNoreplay_startOver hfriend hstates
  refine ⟨hmin, hmax, not_le_zero_of_not_le hnew, friendNum, friend',
    (onionFriendNum_startOver hstates).trans hnum, hfriend', fun h => ?_, fun h => ?_⟩
  · rw [hlast, if_pos (hdrops.mp h)]
  · rw [hlast, if_neg fun hdropped => h (hdrops.mpr hdropped)]

end Twice

/-- An accepted announcement that is delivered again right after is refused as replayed, if and only if it did not
make an online friend connection drop its crypto connection. -/
theorem announcement_replayed_iff (sodium : Sodium) (env env' : FriendEnv) (w : FriendWorld) (sourcePubkey : PublicKey)
    (data : Bytes) (haccepted : (handleDhtpkAnnounce sodium env w sourcePubkey data).1.Accepted) :
    (handleDhtpkAnnounce sodium env' (handleDhtpkAnnounce sodium env w sourcePubkey data).2 sourcePubkey data).1 =
      .replayed ↔ ¬DropsOnline w sourcePubkey data := by
  obtain ⟨hmin, hmax, hpos, friendNum, friend, hnum, hfriend, hdrops, hkeeps⟩ := accepted_friend haccepted
  rw [handleDhtpkAnnounce_known hmin hmax hnum hfriend]
  constructor
  · intro hreplayed honline
    rw [hdrops honline, if_neg hpos] at hreplayed
    have haccepted' := (takeAnnouncedNodes_spec env' (takeAnnouncement sodium env'
      (handleDhtpkAnnounce sodium env w sourcePubkey data).2 friendNum friend data) friendNum data).1
    rw [hreplayed] at haccepted'
    exact absurd haccepted' (by decide)
  · intro hoffline
    rw [hkeeps hoffline, if_pos (UInt64.le_refl _)]

/-- The key of the friend in the runs below. -/
def exampleFriendKey : PublicKey := List.Vector.replicate 32 2

/-- A messenger that was just started. -/
def exampleStart : FriendWorld :=
  let key : PublicKey := List.Vector.replicate 32 1
  FriendWorld.new ⟨key, key, fun _ => .zero⟩ key key key ⟨[], key, key, fun _ => none⟩ (Dht.new key)

/-- The friend is added. -/
def exampleAdded : FriendWorld :=
  (FriendOperation.newFriendConnection .calm exampleFriendKey).exec .plain .unset exampleStart

/-- The connection that the friend opens. -/
def exampleConnection : NewConnection :=
  ⟨.zero, exampleFriendKey, .zero, List.Vector.replicate 24 0, List.Vector.replicate 32 1,
    List.replicate cookieLength 0⟩

/-- The connection of the friend is accepted. -/
def exampleAccepted : FriendWorld :=
  (FriendOperation.handleNewConnections .calm exampleConnection).exec .plain .unset exampleAdded

/-- A first data packet of the friend. -/
def examplePacket : Bytes := netPacketCryptoData :: (List.replicate 10 0 ++ packetIdAlive :: List.replicate macBytes 0)

/-- The first data packet confirms the connection. -/
def exampleOnline : FriendWorld :=
  (FriendOperation.handlePacketConnection .calm .calm 0 examplePacket false).exec .plain .unset exampleAccepted

/-- An announcement of the friend. -/
def exampleAnnouncement : Bytes := [156, 0, 0, 0, 0, 0, 0, 0, 1] ++ List.replicate 32 3

/-- An announcement of a friend that is not online is taken once. -/
theorem announcement_replayed_iff_offline :
    (handleDhtpkAnnounce .plain .calm exampleAdded exampleFriendKey exampleAnnouncement).1.Accepted ∧
      ¬DropsOnline exampleAdded exampleFriendKey exampleAnnouncement := by
  have haccepted :
    (handleDhtpkAnnounce .plain .calm exampleAdded exampleFriendKey exampleAnnouncement).1 = .handled := by
    decide +kernel
  have hreplayed : (handleDhtpkAnnounce .plain .calm
      (handleDhtpkAnnounce .plain .calm exampleAdded exampleFriendKey exampleAnnouncement).2
      exampleFriendKey exampleAnnouncement).1 = .replayed := by
    decide +kernel
  exact ⟨.inr haccepted, (announcement_replayed_iff .plain .calm .calm exampleAdded exampleFriendKey exampleAnnouncement
    (.inr haccepted)).mp hreplayed⟩

/-- A friend is online, and its announcement of another DHT key is taken twice in a row. -/
theorem announcement_taken_twice :
    FriendReaches .plain exampleStart exampleOnline ∧
      (handleDhtpkAnnounce .plain .calm exampleOnline exampleFriendKey exampleAnnouncement).1.Accepted ∧
      (handleDhtpkAnnounce .plain .calm
        (handleDhtpkAnnounce .plain .calm exampleOnline exampleFriendKey exampleAnnouncement).2
        exampleFriendKey exampleAnnouncement).1 = .handled := by
  have hadded : FriendReaches .plain exampleStart exampleAdded :=
    FriendReaches.step_unset (.refl exampleStart) (.newFriendConnection .calm exampleFriendKey)
  have haccepted : FriendReaches .plain exampleStart exampleAccepted :=
    hadded.step_unset (.handleNewConnections .calm exampleConnection)
  have honline : FriendReaches .plain exampleStart exampleOnline :=
    haccepted.step_unset (.handlePacketConnection .calm .calm 0 examplePacket false)
  have htaken : (handleDhtpkAnnounce .plain .calm exampleOnline exampleFriendKey exampleAnnouncement).1 = .handled := by
    decide +kernel
  refine ⟨honline, .inr htaken, ?_⟩
  decide +kernel

end Toxcore
