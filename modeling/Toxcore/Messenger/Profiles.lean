import Toxcore.Messenger.FriendList

/-!
# What friends know of each other

A friend that is online is told our name, our status message, our status and whether we are typing, and it is told
again what changes. A flag for each says whether it was told. The packets of a connection come in the order in which
they were sent, and those that are on their way when it ends may be lost; a new connection to a friend is taken only
after the old one is gone.

If a flag is set while both are online and no packet is on its way, then the friend knows what we have set last,
however often the connection was lost in between and whatever could not be sent.
-/

namespace Toxcore

open ByteStrings Function List Option

/-! ## What is told -/

/-- A messenger, and `user_istyping` of its friends. -/
structure ProfileMessenger where
  messenger : Messenger
  userIstyping : ℕ → Bool

/-- What a friend is told of us. -/
inductive ProfileField where
  | name
  | statusmessage
  | userstatus
  | istyping
  deriving DecidableEq

namespace ProfileField

/-- The id of the packets with a field. -/
def packetId : ProfileField → UInt8
  | name => packetIdNickname
  | statusmessage => packetIdStatusmessage
  | userstatus => packetIdUserstatus
  | istyping => packetIdTyping

/-- Our own value of a field, as it is sent to a friend. -/
def own (field : ProfileField) (p : ProfileMessenger) (friendnumber : ℕ) : Bytes :=
  match field with
  | name => p.messenger.name
  | statusmessage => p.messenger.statusmessage
  | userstatus => [p.messenger.userstatus]
  | istyping => [if p.userIstyping friendnumber then 1 else 0]

/-- Whether our value was sent to a friend. -/
def sent (field : ProfileField) (friend : Friend) : Bool :=
  match field with
  | name => friend.nameSent
  | statusmessage => friend.statusmessageSent
  | userstatus => friend.userstatusSent
  | istyping => friend.userIstypingSent

/-- The value of a friend. -/
def stored (field : ProfileField) (friend : Friend) : Bytes :=
  match field with
  | name => friend.name
  | statusmessage => friend.statusmessage
  | userstatus => [friend.userstatus]
  | istyping => [if friend.isTyping then 1 else 0]

/-- What is kept of the data of a packet, unless it is thrown away. -/
def kept (field : ProfileField) (data : Bytes) : Option Bytes :=
  match field with
  | name => if data.length > maxNameLength then none else some data
  | statusmessage => if data.length > maxStatusmessageLength then none else some data
  | userstatus => if data.length ≠ 1 ∨ data.headD 0 ≥ userstatusInvalid then none else some data
  | istyping => if data.length ≠ 1 then none else some [if data.headD 0 ≠ 0 then 1 else 0]

/-- Whether a field can be sent now. -/
def sends (field : ProfileField) (sends : Messenger.FriendSends) : Bool :=
  match field with
  | name => sends.name
  | statusmessage => sends.statusmessage
  | userstatus => sends.userstatus
  | istyping => sends.istyping

end ProfileField

namespace ProfileMessenger

variable (p : ProfileMessenger)

/-- `setname`. -/
def setname (name : Bytes) : ProfileMessenger := { p with messenger := (p.messenger.setname name).2 }

/-- `m_set_statusmessage`. -/
def mSetStatusmessage (status : Bytes) : ProfileMessenger :=
    { p with messenger := (p.messenger.mSetStatusmessage status).2 }

/-- `m_set_userstatus`. -/
def mSetUserstatus (status : UInt8) : ProfileMessenger := { p with messenger := (p.messenger.mSetUserstatus status).2 }

/-- `m_set_usertyping`, with the return value 0 as `true`. -/
def mSetUsertyping (friendnumber : ℕ) (isTyping : UInt8) : Bool × ProfileMessenger :=
  if isTyping ≠ 0 ∧ isTyping ≠ 1 then (false, p)
  else if p.messenger.getFriend friendnumber = none then (false, p)
  else if p.userIstyping friendnumber = decide (isTyping = 1) then (true, p)
  else (true,
    { messenger := p.messenger.modifyFriend friendnumber fun friend => { friend with userIstypingSent := false }
      userIstyping := update p.userIstyping friendnumber (isTyping = 1) })

/-- The fields that `do_friends` sends to a friend, in their order. -/
def fieldsToSend (friend : Friend) (sends : Messenger.FriendSends) : List ProfileField :=
  if friend.status = .online then
    [.name, .statusmessage, .userstatus, .istyping].filter fun field => !field.sent friend && field.sends sends
  else []

/-- The packet with a field for a friend. -/
def fieldPacket (friendnumber : ℕ) (field : ProfileField) : Bytes := field.packetId :: field.own p friendnumber

/-- The packets that `do_friends` sends to a friend: `m_sendname`, `send_statusmessage`, `send_userstatus` and
`send_user_istyping`. -/
def profilePackets (friendnumber : ℕ) (sends : Messenger.FriendSends) : List Bytes :=
  match p.messenger.getFriend friendnumber with
  | none => []
  | some friend => (fieldsToSend friend sends).map (p.fieldPacket friendnumber)

/-- `do_friends`. -/
def doFriends (sends : ℕ → Messenger.FriendSends) (tempTime time : UInt64) : ProfileMessenger :=
  { p with messenger := p.messenger.doFriends sends tempTime time }

end ProfileMessenger

/-- What a packet does to a friend that is or is not online, and to a field of it. -/
def ProfileField.listen (field : ProfileField) : Bool × Bytes → Bytes → Bool × Bytes
  | (online, value), [] => (online, value)
  | (false, value), packetId :: data => (decide (packetId = packetIdOnline ∧ data = []), value)
  | (true, value), packetId :: data =>
    if packetId = packetIdOffline then (decide (data ≠ []), value)
    else if packetId = field.packetId then (true, (field.kept data).getD value)
    else (true, value)

/-- A packet of another kind: a message, a part of a file, a custom packet. -/
def isOtherPacket (packet : Bytes) : Bool :=
  match packet with
  | [] => false
  | packetId :: _ => packetId ≠ packetIdOnline && packetId ≠ packetIdOffline &&
    packetId ≠ packetIdNickname && packetId ≠ packetIdStatusmessage && packetId ≠ packetIdUserstatus && packetId ≠
      packetIdTyping

/-! ## One packet -/

namespace ProfileField

/-- Write what is kept of the data of a packet. -/
def write (field : ProfileField) (value : Bytes) (friend : Friend) : Friend :=
  match field with
  | name => { friend with name := value }
  | statusmessage => { friend with statusmessage := value }
  | userstatus => { friend with userstatus := value.headD 0 }
  | istyping => { friend with isTyping := value.headD 0 ≠ 0 }

variable (field : ProfileField)

/-- A profile field is written: the status of the friend stays. -/
theorem status_write (value : Bytes) (friend : Friend) : (field.write value friend).status = friend.status := by
  cases field <;> rfl

/-- So do the marks of what was sent. -/
theorem sent_write (other : ProfileField) (value : Bytes) (friend : Friend) :
    other.sent (field.write value friend) = other.sent friend := by
  cases field <;> cases other <;> rfl

/-- A write changes its own field. -/
theorem stored_write {field : ProfileField} {data value : Bytes} (h : field.kept data = some value)
    (other : ProfileField) (friend : Friend) :
      other.stored (field.write value friend) = if other = field then value else other.stored friend := by
  by_cases hother : other = field
  · subst hother
    rw [if_pos rfl]
    cases other with
    | name => rfl
    | statusmessage => rfl
    | userstatus =>
      rw [kept] at h
      split at h
      · contradiction
      · rename_i hvalid
        rw [not_or, not_not] at hvalid
        obtain ⟨status, rfl⟩ := length_eq_one_iff.mp hvalid.1
        rw [← some.inj h]
        rfl
    | istyping =>
      rw [kept] at h
      split at h
      · contradiction
      · rw [← some.inj h]
        by_cases htyping : data.headD 0 = 0
        · rw [htyping]
          rfl
        · rw [if_pos htyping]
          rfl
  · rw [if_neg hother]
    cases field <;> cases other <;> first | rfl | contradiction

/-- No field is sent as an offline packet. -/
theorem packetId_ne_offline : field.packetId ≠ packetIdOffline := by
  cases field <;> decide

/-- No field is sent as an online packet. -/
theorem packetId_ne_online : field.packetId ≠ packetIdOnline := by
  cases field <;> decide

/-- Two fields have two packet ids. -/
theorem packetId_inj {field other : ProfileField} (h : field.packetId = other.packetId) : field = other := by
  cases field <;> cases other <;> first | rfl | exact absurd h (by decide)

/-- Only the packets with a field change it. -/
theorem listen_field (other : ProfileField) (value data : Bytes) :
    other.listen (true, value) (field.packetId :: data) =
      (true, if other = field then (other.kept data).getD value else value) := by
  rw [listen, if_neg field.packetId_ne_offline]
  by_cases hother : other = field
  · rw [hother, if_pos rfl, if_pos rfl]
  · rw [if_neg hother, if_neg fun hsame => hother (packetId_inj hsame).symm]

end ProfileField

namespace Messenger

variable {m : Messenger} {friendnumber : ℕ} {friend : Friend}

/-- The friends that are found are those in use. -/
theorem getFriend_eq_some : m.getFriend friendnumber = some friend ↔
    m.friendlist[friendnumber]? = some friend ∧ friend.status ≠ .nofriend := by
  rw [getFriend]
  cases m.friendlist[friendnumber]? with
  | none => simp
  | some found =>
    dsimp only
    split
    · rename_i hfree
      simp only [reduceCtorEq, some.injEq, false_iff]
      rintro ⟨rfl, hused⟩
      exact hused hfree
    · rename_i hused
      rw [some.injEq]
      exact ⟨fun h => ⟨h, h ▸ hused⟩, fun h => h.1⟩

/-- A friend is changed. -/
theorem getFriend_modifyFriend_self (h : m.getFriend friendnumber = some friend) {f : Friend → Friend}
    (hf : (f friend).status ≠ .nofriend) :
    (m.modifyFriend friendnumber f).getFriend friendnumber = some (f friend) := by
  rw [getFriend_eq_some] at h ⊢
  refine ⟨?_, hf⟩
  rw [modifyFriend]
  dsimp only
  rw [getElem?_modify_eq, h.1]
  rfl

/-- The other friends stay. -/
theorem getFriend_modifyFriend_other {i : ℕ} (hi : i ≠ friendnumber) (f : Friend → Friend) :
    (m.modifyFriend i f).getFriend friendnumber = m.getFriend friendnumber := by
  unfold getFriend modifyFriend
  dsimp only
  rw [getElem?_modify_ne _ _ hi]

/-- A change of all friends that keeps their statuses. -/
theorem getFriend_map (h : m.getFriend friendnumber = some friend) {m' : Messenger} {f : Friend → Friend}
    (hlist : m'.friendlist = m.friendlist.map f) (hf : (f friend).status = friend.status) :
    m'.getFriend friendnumber = some (f friend) := by
  rw [getFriend_eq_some] at h ⊢
  rw [hlist, getElem?_map, h.1, hf]
  exact ⟨rfl, h.2⟩

/-- The packets with a field are written to it, if they are kept. -/
theorem handleStatePacket_field (h : m.getFriend friendnumber = some friend) (field : ProfileField) (data : Bytes) :
    m.handleStatePacket friendnumber field.packetId data =
      (field.kept data).elim m fun value => m.modifyFriend friendnumber (field.write value) := by
  cases field with
  | name =>
    change (if data.length > maxNameLength then m else m.modifyFriend friendnumber fun friend =>
      { friend with name := data }) = _
    rw [ProfileField.kept]
    split <;> rfl
  | statusmessage =>
    change (if data.length > maxStatusmessageLength then m else (m.setFriendStatusmessage friendnumber data).2) = _
    rw [ProfileField.kept]
    split
    · rfl
    · rename_i hshort
      rw [setFriendStatusmessage, h]
      dsimp only
      rw [if_neg hshort]
      rfl
  | userstatus =>
    rcases data with _ | ⟨status, _ | ⟨more, rest⟩⟩
    · rfl
    · change (if status ≥ userstatusInvalid then m else m.setFriendUserstatus friendnumber status) = _
      rw [ProfileField.kept]
      by_cases hvalid : status ≥ userstatusInvalid
      · rw [if_pos hvalid, if_pos (Or.inr (show [status].headD 0 ≥ userstatusInvalid from hvalid))]
        rfl
      · have hkept : ¬([status].length ≠ 1 ∨ [status].headD 0 ≥ userstatusInvalid) := by
          rintro (hlength | hinvalid)
          · exact hlength rfl
          · exact hvalid hinvalid
        rw [if_neg hvalid, if_neg hkept]
        rfl
    · have hlong : (status :: more :: rest).length ≠ 1 := by simp
      rw [ProfileField.kept, if_pos (Or.inl hlong)]
      rfl
  | istyping =>
    rcases data with _ | ⟨typing, _ | ⟨more, rest⟩⟩
    · rfl
    · change (m.modifyFriend friendnumber fun friend => { friend with isTyping := typing ≠ 0 }) = _
      rw [ProfileField.kept, if_neg (not_not_intro (show [typing].length = 1 from rfl)), elim_some]
      congr 1
      funext friend
      unfold ProfileField.write
      by_cases htyping : typing = 0
      · subst htyping
        rfl
      · simp [htyping]
    · have hlong : (typing :: more :: rest).length ≠ 1 := by simp
      rw [ProfileField.kept, if_pos hlong]
      rfl

/-- Other packets change nothing here. -/
theorem handleStatePacket_other {packetId : UInt8} (hoffline : packetId ≠ packetIdOffline)
    (hnone : ∀ field : ProfileField, packetId ≠ field.packetId) (data : Bytes) :
    m.handleStatePacket friendnumber packetId data = m := by
  have hname : packetId ≠ packetIdNickname := hnone .name
  have hmessage : packetId ≠ packetIdStatusmessage := hnone .statusmessage
  have hstatus : packetId ≠ packetIdUserstatus := hnone .userstatus
  have htyping : packetId ≠ packetIdTyping := hnone .istyping
  unfold handleStatePacket
  rw [if_neg hoffline, if_neg hname, if_neg hmessage, if_neg hstatus, if_neg htyping]

/-- What a packet does to a friend that is online. -/
theorem handleStatePacket_listen (h : m.getFriend friendnumber = some friend) (honline : friend.status = .online)
    (packetId : UInt8) (data : Bytes) :
    ∃ friend', (m.handleStatePacket friendnumber packetId data).getFriend friendnumber = some friend' ∧
      (∀ field : ProfileField, (decide (friend'.status = .online), field.stored friend') =
        field.listen (true, field.stored friend) (packetId :: data)) ∧
      ∀ field : ProfileField, friend'.status = .online → field.sent friend' = true → field.sent friend = true := by
  by_cases hoffline : packetId = packetIdOffline
  · subst hoffline
    unfold handleStatePacket
    rw [if_pos rfl]
    split
    · rename_i hdata
      refine ⟨friend, h, ?_, fun _ _ hsent => hsent⟩
      intro field
      rw [ProfileField.listen, if_pos rfl, decide_eq_true honline,
        decide_eq_true (ne_nil_of_length_pos (Nat.pos_of_ne_zero hdata))]
    · rename_i hdata
      rw [not_not, length_eq_zero_iff] at hdata
      subst hdata
      refine ⟨_, getFriend_modifyFriend_self h ?_, ?_, ?_⟩
      · rw [if_neg fun hboth => absurd hboth.1 (by decide)]
        exact FriendStatus.noConfusion
      · intro field
        rw [if_neg fun hboth => absurd hboth.1 (by decide)]
        cases field <;> rfl
      · intro field honline' _
        rw [if_neg fun hboth => absurd hboth.1 (by decide)] at honline'
        contradiction
  · by_cases hfield : ∃ field : ProfileField, packetId = field.packetId
    · obtain ⟨field, rfl⟩ := hfield
      rw [handleStatePacket_field h]
      cases hkept : field.kept data with
      | none =>
        refine ⟨friend, h, ?_, fun _ _ hsent => hsent⟩
        intro other
        rw [ProfileField.listen_field, decide_eq_true honline]
        split
        · rename_i hsame
          rw [hsame, hkept]
          rfl
        · rfl
      | some value =>
        refine ⟨field.write value friend, getFriend_modifyFriend_self h ?_, ?_, ?_⟩
        · rw [ProfileField.status_write]
          exact (getFriend_eq_some.mp h).2
        · intro other
          rw [ProfileField.listen_field, ProfileField.status_write, decide_eq_true honline,
            ProfileField.stored_write hkept]
          split
          · rename_i hsame
            rw [hsame, hkept]
            rfl
          · rfl
        · intro other _ hsent
          rw [ProfileField.sent_write] at hsent
          exact hsent
    · have hnone (field : ProfileField) : packetId ≠ field.packetId := fun hsame => hfield ⟨field, hsame⟩
      rw [handleStatePacket_other hoffline hnone]
      refine ⟨friend, h, ?_, fun _ _ hsent => hsent⟩
      intro field
      rw [ProfileField.listen, if_neg hoffline, if_neg (hnone field), decide_eq_true honline]

/-- What a packet does to the friend that it is from: `listen` says it for each field, and a friend that was not
online was told nothing yet. -/
theorem handlePacket_listen (h : m.getFriend friendnumber = some friend) (packet : Bytes) :
    ∃ friend', (m.handlePacket friendnumber packet).getFriend friendnumber = some friend' ∧
      (∀ field : ProfileField, (decide (friend'.status = .online), field.stored friend') =
        field.listen (decide (friend.status = .online), field.stored friend) packet) ∧
      (∀ field : ProfileField, friend'.status = .online → field.sent friend' = true →
        friend.status = .online ∧ field.sent friend = true) := by
  obtain ⟨-, hused⟩ := getFriend_eq_some.mp h
  unfold handlePacket
  rw [h]
  cases packet with
  | nil => exact ⟨friend, h, fun _ => rfl, fun _ honline hsent => ⟨honline, hsent⟩⟩
  | cons packetId data =>
    dsimp only
    by_cases honline : friend.status = .online
    · rw [if_neg (not_not_intro honline)]
      obtain ⟨friend', hfriend, hlisten, hsent⟩ := handleStatePacket_listen h honline packetId data
      refine ⟨friend', hfriend, ?_, fun field honline' hsent' => ⟨honline, hsent field honline' hsent'⟩⟩
      intro field
      rw [decide_eq_true honline]
      exact hlisten field
    · rw [if_pos honline]
      have hlisten (field : ProfileField) :
        field.listen (decide (friend.status = .online), field.stored friend) (packetId :: data) =
          (decide (packetId = packetIdOnline ∧ data = []), field.stored friend) := by
        rw [decide_eq_false honline]
        rfl
      split
      · rename_i hcomes
        refine ⟨_, getFriend_modifyFriend_self h ?_, ?_, ?_⟩
        · rw [if_pos ⟨rfl, honline⟩]
          exact FriendStatus.noConfusion
        · intro field
          rw [hlisten, decide_eq_true hcomes, if_pos ⟨rfl, honline⟩]
          cases field <;> rfl
        · intro field _ hsent
          rw [if_pos ⟨rfl, honline⟩] at hsent
          cases field <;> contradiction
      · rename_i hstays
        refine ⟨friend, h, ?_, fun _ honline' => absurd honline' honline⟩
        intro field
        rw [hlisten, decide_eq_false hstays, decide_eq_false honline]

/-- A packet changes only the friend that it is from. -/
theorem handlePacket_eq_modifyFriend (m : Messenger) (friendnumber : ℕ) (packet : Bytes) :
    ∃ f, m.handlePacket friendnumber packet = m.modifyFriend friendnumber f := by
  have hnothing : ∃ f, m = m.modifyFriend friendnumber f := ⟨id, by rw [modifyFriend, modify_id]⟩
  unfold handlePacket
  cases hget : m.getFriend friendnumber with
  | none => exact hnothing
  | some friend =>
    cases packet with
    | nil => exact hnothing
    | cons packetId data =>
      dsimp only
      split
      · split
        · exact ⟨_, rfl⟩
        · exact hnothing
      by_cases hoffline : packetId = packetIdOffline
      · unfold handleStatePacket
        rw [if_pos hoffline]
        split
        · exact hnothing
        · exact ⟨_, rfl⟩
      · by_cases hfield : ∃ field : ProfileField, packetId = field.packetId
        · obtain ⟨field, rfl⟩ := hfield
          rw [handleStatePacket_field hget]
          cases field.kept data with
          | none => exact hnothing
          | some value => exact ⟨_, rfl⟩
        · rw [handleStatePacket_other hoffline fun field hsame => hfield ⟨field, hsame⟩]
          exact hnothing

/-- A friend is not online when the connection is lost. -/
theorem handleStatus_offline (h : m.getFriend friendnumber = some friend) :
    ∃ friend', (m.handleStatus friendnumber false).getFriend friendnumber = some friend' ∧
      friend'.status ≠ .online := by
  rw [handleStatus, h]
  dsimp only
  split
  · refine ⟨_, getFriend_modifyFriend_self h ?_, ?_⟩
    · rw [if_neg fun hboth => absurd hboth.1 (by decide)]
      exact FriendStatus.noConfusion
    · rw [if_neg fun hboth => absurd hboth.1 (by decide)]
      exact FriendStatus.noConfusion
  · rename_i hoffline
    exact ⟨friend, h, fun honline => hoffline ⟨rfl, honline⟩⟩

/-- The connection to a friend changes only the friend. -/
theorem handleStatus_eq_modifyFriend (m : Messenger) (friendnumber : ℕ) (status : Bool) :
    ∃ f, m.handleStatus friendnumber status = m.modifyFriend friendnumber f := by
  have hnothing : ∃ f, m = m.modifyFriend friendnumber f := ⟨id, by rw [modifyFriend, modify_id]⟩
  unfold handleStatus
  split
  · exact hnothing
  · split
    · exact ⟨_, rfl⟩
    · exact hnothing

end Messenger

/-! ## What a messenger does by itself -/

/-- Every value of ours is kept as it is by those who are told it. -/
def ProfileMessenger.Valid (p : ProfileMessenger) (friendnumber : ℕ) : Prop :=
  ∀ field : ProfileField, field.kept (field.own p friendnumber) = some (field.own p friendnumber)

/-- A friend keeps its values, and a value of ours that was told to it is the same as before. -/
structure ProfileMessenger.Keeps (friendnumber : ℕ) (p p' : ProfileMessenger) : Prop where
  valid : p.Valid friendnumber → p'.Valid friendnumber
  friend : ∀ friend, p.messenger.getFriend friendnumber = some friend →
    ∃ friend', p'.messenger.getFriend friendnumber = some friend' ∧ friend'.status = friend.status ∧
      (∀ field : ProfileField, field.stored friend' = field.stored friend) ∧
      ∀ field : ProfileField, field.sent friend' = true →
        field.sent friend = true ∧ field.own p' friendnumber = field.own p friendnumber

namespace ProfileMessenger.Keeps

variable {friendnumber : ℕ} {p : ProfileMessenger}

theorem refl (friendnumber : ℕ) (p : ProfileMessenger) : Keeps friendnumber p p where
  valid := id
  friend friend h := ⟨friend, h, rfl, fun _ => rfl, fun _ hsent => ⟨hsent, rfl⟩⟩

/-- A change of another friend. -/
theorem other {i : ℕ} (hi : i ≠ friendnumber) (p : ProfileMessenger) (f : Friend → Friend) :
    Keeps friendnumber p { p with messenger := p.messenger.modifyFriend i f } where
  valid h field := by
    have hown : field.own { p with messenger := p.messenger.modifyFriend i f } friendnumber =
      field.own p friendnumber := by
      cases field <;> rfl
    rw [hown]
    exact h field
  friend friend h := by
    refine ⟨friend, (Messenger.getFriend_modifyFriend_other hi f).trans h, rfl, fun _ => rfl, fun field hsent =>
      ⟨hsent, ?_⟩⟩
    cases field <;> rfl

/-- A new value of a field that a friend is to be told. -/
theorem changed (field : ProfileField) {p' : ProfileMessenger} {f : Friend → Friend}
    (hfriend : ∀ friend, p.messenger.getFriend friendnumber = some friend →
      p'.messenger.getFriend friendnumber = some (f friend)) (hstatus : ∀ friend, (f friend).status = friend.status)
    (hstored : ∀ (field : ProfileField) friend, field.stored (f friend) = field.stored friend)
    (hsent : ∀ (other : ProfileField) friend, other.sent (f friend) = if other =
      field then false else other.sent friend)
    (hown : ∀ other : ProfileField, other ≠ field → other.own p' friendnumber = other.own p friendnumber)
    (hnew : field.kept (field.own p' friendnumber) = some (field.own p' friendnumber)) : Keeps friendnumber p p' where
  valid h other := by
    by_cases hother : other = field
    · rw [hother]
      exact hnew
    · rw [hown other hother]
      exact h other
  friend friend h := by
    refine ⟨f friend, hfriend friend h, hstatus friend, fun field => hstored field friend, ?_⟩
    intro other hother
    rw [hsent] at hother
    split at hother
    · contradiction
    · rename_i hne
      exact ⟨hother, hown other hne⟩

/-- The own name is set. -/
theorem setname (friendnumber : ℕ) (p : ProfileMessenger) (name : Bytes) : Keeps friendnumber p (p.setname name) := by
  unfold ProfileMessenger.setname Messenger.setname
  split
  · exact refl friendnumber p
  split
  · exact refl friendnumber p
  · rename_i hshort _
    refine changed .name (fun _ h => Messenger.getFriend_map h rfl rfl) (fun _ => rfl) ?_ ?_ ?_ (if_neg hshort)
    · exact fun field _ => by cases field <;> rfl
    · exact fun other _ => by cases other <;> rfl
    · intro other hother
      cases other <;> first | rfl | contradiction

/-- The own status message is set. -/
theorem mSetStatusmessage (friendnumber : ℕ) (p : ProfileMessenger) (status : Bytes) :
    Keeps friendnumber p (p.mSetStatusmessage status) := by
  unfold ProfileMessenger.mSetStatusmessage Messenger.mSetStatusmessage
  split
  · exact refl friendnumber p
  split
  · exact refl friendnumber p
  · rename_i hshort _
    refine changed .statusmessage (fun _ h => Messenger.getFriend_map h rfl rfl) (fun _ => rfl) ?_ ?_ ?_ (if_neg hshort)
    · exact fun field _ => by cases field <;> rfl
    · exact fun other _ => by cases other <;> rfl
    · intro other hother
      cases other <;> first | rfl | contradiction

/-- The own status is set. -/
theorem mSetUserstatus (friendnumber : ℕ) (p : ProfileMessenger) (status : UInt8) :
    Keeps friendnumber p (p.mSetUserstatus status) := by
  unfold ProfileMessenger.mSetUserstatus Messenger.mSetUserstatus
  split
  · exact refl friendnumber p
  split
  · exact refl friendnumber p
  · rename_i hvalid _
    refine changed .userstatus (fun _ h => Messenger.getFriend_map h rfl rfl) (fun _ => rfl) ?_ ?_ ?_ (if_neg ?_)
    · exact fun field _ => by cases field <;> rfl
    · exact fun other _ => by cases other <;> rfl
    · intro other hother
      cases other <;> first | rfl | contradiction
    · rintro (hlength | hinvalid)
      · exact hlength rfl
      · exact hvalid hinvalid

/-- Typing is told to a friend. -/
theorem mSetUsertyping (friendnumber : ℕ) (p : ProfileMessenger) (i : ℕ) (isTyping : UInt8) :
    Keeps friendnumber p (p.mSetUsertyping i isTyping).2 := by
  unfold ProfileMessenger.mSetUsertyping
  split
  · exact refl friendnumber p
  split
  · exact refl friendnumber p
  split
  · exact refl friendnumber p
  · by_cases hi : i = friendnumber
    · subst hi
      refine changed .istyping (fun _ h => Messenger.getFriend_modifyFriend_self h (Messenger.getFriend_eq_some.mp h).2)
        (fun _ => rfl) ?_ ?_ ?_ ?_
      · exact fun field _ => by cases field <;> rfl
      · exact fun other _ => by cases other <;> rfl
      · intro other hother
        cases other <;> first | rfl | contradiction
      · rw [ProfileField.own, ProfileField.kept]
        split <;> rfl
    · have hkeeps := other hi p fun friend => { friend with userIstypingSent := false }
      have hown (field : ProfileField) : field.own
          { messenger := p.messenger.modifyFriend i fun friend => { friend with userIstypingSent := false }
            userIstyping := update p.userIstyping i (isTyping = 1) } friendnumber = field.own p friendnumber := by
        cases field with
        | istyping =>
          have hsame : update p.userIstyping i (decide (isTyping = 1)) friendnumber = p.userIstyping friendnumber :=
            update_of_ne (Ne.symm hi) ..
          exact congrArg (fun typing : Bool => [if typing then (1 : UInt8) else 0]) hsame
        | _ => rfl
      constructor
      · intro h field
        rw [hown]
        exact h field
      · intro friend h
        obtain ⟨friend', hfriend, hstatus, hstored, hsent⟩ := hkeeps.friend friend h
        exact ⟨friend', hfriend, hstatus, hstored, fun field hfield => ⟨(hsent field hfield).1, hown field⟩⟩

/-- A packet or a change of the connection of another friend. -/
theorem otherStatus {i : ℕ} (hi : i ≠ friendnumber) (p : ProfileMessenger) (status : Bool) :
    Keeps friendnumber p { p with messenger := p.messenger.handleStatus i status } := by
  obtain ⟨f, hf⟩ := p.messenger.handleStatus_eq_modifyFriend i status
  rw [hf]
  exact other hi p f

/-- A packet of another friend arrives. -/
theorem otherPacket {i : ℕ} (hi : i ≠ friendnumber) (p : ProfileMessenger) (packet : Bytes) :
    Keeps friendnumber p { p with messenger := p.messenger.handlePacket i packet } := by
  obtain ⟨f, hf⟩ := p.messenger.handlePacket_eq_modifyFriend i packet
  rw [hf]
  exact other hi p f

end ProfileMessenger.Keeps

/-! ## What is on the way -/

namespace ProfileField

variable {field : ProfileField} {p : ProfileMessenger} {friendnumber : ℕ}

/-- What a friend that gets some packets will be, and its value of a field. -/
def hears (field : ProfileField) (friend : Friend) (packets : List Bytes) : Bool × Bytes :=
  packets.foldl field.listen (decide (friend.status = .online), field.stored friend)

/-- The packets of `do_friends` bring our values to a friend that is online when they come. -/
theorem foldl_fieldPackets (hvalid : p.Valid friendnumber) (fields : List ProfileField) (online : Bool)
    (value : Bytes) :
    (fields.map (p.fieldPacket friendnumber)).foldl field.listen (online, value) =
      (online, if online = true ∧ field ∈ fields then field.own p friendnumber else value) := by
  induction fields generalizing value with
  | nil => simp
  | cons other fields ih =>
    rw [map_cons, foldl_cons, ProfileMessenger.fieldPacket]
    cases online with
    | false =>
      have hstays : field.listen (false, value) (other.packetId :: other.own p friendnumber) = (false, value) := by
        rw [listen, decide_eq_false fun hboth => other.packetId_ne_online hboth.1]
      rw [hstays, ih, if_neg (by simp), if_neg (by simp)]
    | true =>
      rw [listen_field, ih]
      by_cases hsame : field = other
      · subst hsame
        rw [if_pos rfl, hvalid field, getD_some, ite_self, if_pos ⟨rfl, mem_cons_self⟩]
      · rw [if_neg hsame]
        simp [hsame]

/-- Packets of other kinds do not matter. -/
theorem listen_otherPacket {packet : Bytes} (h : isOtherPacket packet = true) (state : Bool × Bytes) :
    field.listen state packet = state := by
  obtain ⟨online, value⟩ := state
  cases packet with
  | nil => rfl
  | cons packetId data =>
    simp only [isOtherPacket, Bool.and_eq_true, decide_eq_true_eq] at h
    obtain ⟨⟨⟨⟨⟨honline, hoffline⟩, hname⟩, hmessage⟩, hstatus⟩, htyping⟩ := h
    cases online with
    | false => rw [listen, decide_eq_false fun hboth => honline hboth.1]
    | true =>
      have hne : packetId ≠ field.packetId := by
        cases field <;> assumption
      rw [listen, if_neg hoffline, if_neg hne]

end ProfileField

variable {friend : Friend}

/-- A friend that is not online is only asked again. -/
theorem doFriend_offline (h : friend.status ≠ .online) (sends : Messenger.FriendSends) (tempTime time : UInt64) :
    (Messenger.doFriend sends tempTime time friend).status ≠ .online ∧
      (friend.status ≠ .nofriend → (Messenger.doFriend sends tempTime time friend).status ≠ .nofriend) ∧
      ∀ field : ProfileField, field.stored (Messenger.doFriend sends tempTime time friend) = field.stored friend := by
  unfold Messenger.doFriend
  dsimp only
  set asked : Friend := if friend.status = .added ∧ sends.request = true then
    { friend with status := .requested, friendrequestLastsent := tempTime } else friend with hasked
  have haskedStays : asked.status ≠ .online ∧ (friend.status ≠ .nofriend → asked.status ≠ .nofriend) ∧
      ∀ field : ProfileField, field.stored asked = field.stored friend := by
    rw [hasked]
    split
    · exact ⟨FriendStatus.noConfusion, fun _ => FriendStatus.noConfusion, fun field => by cases field <;> rfl⟩
    · exact ⟨h, id, fun _ => rfl⟩
  set checked : Friend :=
    if asked.status = .requested then Messenger.checkFriendRequestTimedOut asked tempTime else asked
    with hchecked
  have hcheckedStays : checked.status ≠ .online ∧ (friend.status ≠ .nofriend → checked.status ≠ .nofriend) ∧
      ∀ field : ProfileField, field.stored checked = field.stored friend := by
    rw [hchecked]
    split
    · unfold Messenger.checkFriendRequestTimedOut
      split
      · refine ⟨FriendStatus.noConfusion, fun _ => FriendStatus.noConfusion, fun field => ?_⟩
        rw [← haskedStays.2.2]
        cases field <;> rfl
      · exact haskedStays
    · exact haskedStays
  rw [if_neg hcheckedStays.1]
  exact hcheckedStays

/-- A friend that is online is told what was not told yet, if it can be sent. -/
theorem doFriend_online (h : friend.status = .online) (sends : Messenger.FriendSends) (tempTime time : UInt64) :
    (Messenger.doFriend sends tempTime time friend).status = .online ∧
      (∀ field : ProfileField, field.stored (Messenger.doFriend sends tempTime time friend) = field.stored friend) ∧
      ∀ field : ProfileField, field.sent (Messenger.doFriend sends tempTime time friend) =
        (field.sent friend || field.sends sends) := by
  have hasked : ¬(friend.status = .added ∧ sends.request = true) := by
    rw [h]
    exact fun hboth => absurd hboth.1 (by decide)
  have hchecked : friend.status ≠ .requested := by
    rw [h]
    decide
  unfold Messenger.doFriend
  dsimp only
  rw [if_neg hasked, if_neg hchecked, if_pos h]
  refine ⟨h, fun field => ?_, fun field => ?_⟩
  · cases field <;> rfl
  · cases field <;> rfl

/-- `do_friends` goes through every friend. -/
theorem ProfileMessenger.getFriend_doFriends {p : ProfileMessenger} {friendnumber : ℕ}
    (h : p.messenger.getFriend friendnumber = some friend) (sends : ℕ → Messenger.FriendSends)
    (tempTime time : UInt64) :
    (p.doFriends sends tempTime time).messenger.getFriend friendnumber =
      some (Messenger.doFriend (sends friendnumber) tempTime time friend) := by
  obtain ⟨hlist, hused⟩ := Messenger.getFriend_eq_some.mp h
  rw [Messenger.getFriend_eq_some]
  constructor
  · change (p.messenger.friendlist.mapIdx _)[friendnumber]? = _
    rw [getElem?_mapIdx, hlist, map_some]
  · by_cases honline : friend.status = .online
    · rw [(doFriend_online honline ..).1]
      decide
    · exact (doFriend_offline honline ..).2.1 hused

end Toxcore
