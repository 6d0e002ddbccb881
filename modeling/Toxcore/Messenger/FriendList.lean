import Toxcore.DHT.SavedState
import Toxcore.Friends.Operations
import Toxcore.Messenger.FileTransfers
import Toxcore.Messenger.Receipts

/-!
# The friend list of a messenger

A messenger has a name, a status message and a user status of its own, and a list of friends. A friend that was added
is sent requests until it answers; then it is confirmed, and it is online while it says so. A free place in the list
has the status `NOFRIEND` and is used again.

Callbacks of the friend connections are registered exactly for the friends in the list, so that a packet or a change
of the status of a connection comes only for those. The host is little-endian.
-/

namespace Toxcore

open ByteStrings

/-- `MAX_NAME_LENGTH`. -/
abbrev maxNameLength : ℕ := 128

/-- `MAX_STATUSMESSAGE_LENGTH`. -/
abbrev maxStatusmessageLength : ℕ := 1007

/-- `MAX_FRIEND_REQUEST_DATA_SIZE`, with the sizes of the onion packets around a friend request. -/
abbrev maxFriendRequestDataSize : ℕ := 1400 - (24 + 67 * 3 + 1) - (1 + 32 + 24 + 32 + 16) - (32 + 16) - (1 + 4)

/-- `FRIEND_ADDRESS_SIZE`. -/
abbrev friendAddressSize : ℕ := 32 + 4 + 2

/-- `FRIENDREQUEST_TIMEOUT`. -/
def friendrequestTimeout : UInt32 := 5

/-- `USERSTATUS_INVALID`. -/
def userstatusInvalid : UInt8 := 3

/-- `PACKET_ID_NICKNAME`. -/
def packetIdNickname : UInt8 := 48

/-- `PACKET_ID_STATUSMESSAGE`. -/
def packetIdStatusmessage : UInt8 := 49

/-- `PACKET_ID_USERSTATUS`. -/
def packetIdUserstatus : UInt8 := 50

/-- `PACKET_ID_TYPING`. -/
def packetIdTyping : UInt8 := 51

/-- The status of a friend. -/
inductive FriendStatus where
  | nofriend
  | added
  | requested
  | confirmed
  | online
  deriving DecidableEq

/-- The number of a status. -/
def FriendStatus.number : FriendStatus → UInt8
  | nofriend => 0
  | added => 1
  | requested => 2
  | confirmed => 3
  | online => 4

/-- The `FAERR_*` values. -/
inductive Faerr where
  | toolong
  | nomessage
  | ownkey
  | alreadysent
  | badchecksum
  | setnewnospam
  | nomem
  deriving DecidableEq

/-- `Friend`. The arrays `info`, `name` and `statusmessage` are kept up to their lengths. -/
structure Friend where
  realPk : PublicKey
  friendconId : ℕ
  friendrequestLastsent : UInt64
  friendrequestTimeout : UInt32
  status : FriendStatus
  info : Bytes
  name : Bytes
  nameSent : Bool
  statusmessage : Bytes
  statusmessageSent : Bool
  userstatus : UInt8
  userstatusSent : Bool
  userIstypingSent : Bool
  isTyping : Bool
  messageId : UInt32
  friendrequestNospam : UInt32
  lastSeenTime : UInt64

/-- A friend cleared to zero bytes. -/
def Friend.zero : Friend where
  realPk := .zero
  friendconId := 0
  friendrequestLastsent := 0
  friendrequestTimeout := 0
  status := .nofriend
  info := []
  name := []
  nameSent := false
  statusmessage := []
  statusmessageSent := false
  userstatus := 0
  userstatusSent := false
  userIstypingSent := false
  isTyping := false
  messageId := 0
  friendrequestNospam := 0
  lastSeenTime := 0

/-- `Messenger`, with `Net_Crypto` and the friend connections it works on. `loadedRelays` is an array, and `pathNodes`
lists the nodes handed to `onion_add_bs_path_node` from a save. -/
structure Messenger where
  world : FriendWorld
  nospam : UInt32
  name : Bytes
  statusmessage : Bytes
  userstatus : UInt8
  friendlist : List Friend
  hasAddedRelays : Bool
  loadedRelays : ℕ → NodeFormat
  loadedNodes : LoadedNodes
  pathNodes : List NodeFormat

/-- What a call observes of its surroundings: what the layers below do, and whether the friend list can grow. -/
structure MessengerEnv where
  below : FriendEnv
  allocFriendlist : Bool

/-- `public_key_valid`. -/
def publicKeyValid (publicKey : PublicKey) : Bool := publicKey.toList.getD 31 0 < 128

/-- The loop of `address_checksum`. -/
def addressChecksumLoop : Bytes → UInt8 × UInt8 → UInt8 × UInt8
  | [], checksum => checksum
  | [byte], (first, second) => (first ^^^ byte, second)
  | byte :: byte' :: address, (first, second) => addressChecksumLoop address (first ^^^ byte, second ^^^ byte')

/-- `address_checksum`. -/
def addressChecksum (address : Bytes) : Bytes :=
  let (first, second) := addressChecksumLoop address (0, 0)
  [first, second]

namespace Messenger

/-- `new_messenger`, over new friend connections. -/
def new (world : FriendWorld) (nospam : UInt32) : Messenger where
  world := world
  nospam := nospam
  name := []
  statusmessage := []
  userstatus := 0
  friendlist := []
  hasAddedRelays := false
  loadedRelays _ := .zero
  loadedNodes := ⟨[], 0⟩
  pathNodes := []

variable (m : Messenger)

/-- The friend with a number, unless `friend_not_valid`. -/
def getFriend (friendnumber : ℕ) : Option Friend :=
  match m.friendlist[friendnumber]? with
  | none => none
  | some friend => if friend.status = .nofriend then none else some friend

/-- Write some fields of a friend. -/
def modifyFriend (friendnumber : ℕ) (f : Friend → Friend) : Messenger :=
  { m with friendlist := m.friendlist.modify friendnumber f }

/-- `getfriend_id`. -/
def getfriendId (realPk : PublicKey) : Option ℕ :=
  m.friendlist.findIdx? fun friend => friend.status ≠ .nofriend ∧ friend.realPk = realPk

/-- `getfriendcon_id`. -/
def getfriendconId (friendnumber : ℕ) : Option ℕ := (m.getFriend friendnumber).map Friend.friendconId

/-! ## Adding and deleting -/

section Sending

variable (sodium : Sodium)

/-- Hand a packet for a friend connection to `write_cryptpacket`. -/
def writePacket (env : FriendEnv) (friendconId : ℕ) (packet : Bytes) : Bool × Messenger :=
  let (sent, c) :=
    writeFriendPacket sodium env m.world.net (m.world.app.friendConnectionCryptConnectionId friendconId) packet
  (sent, { m with world := { m.world with net := c } })

/-- `send_online_packet` and `send_offline_packet`, with the number of the connection, if it is connected. -/
def sendStatusPacket (env : FriendEnv) (friendconId : ℕ) (packet : UInt8) : Messenger :=
  if m.world.app.friendConConnected friendconId =
    .connected then (m.writePacket sodium env friendconId [packet]).2 else m

/-- The fields that `init_new_friend` writes. -/
def initFriend (friend : Friend) (friendconId : ℕ) (realPk : PublicKey) (status : FriendStatus) : Friend :=
  { friend with
    status := status
    friendconId := friendconId
    friendrequestLastsent := 0
    realPk := realPk
    statusmessage := []
    userstatus := 0
    isTyping := false
    messageId := 0 }

/-- `init_new_friend`. The place after the last one is cleared before the first free place is looked for. -/
def initNewFriend (env : MessengerEnv) (realPk : PublicKey) (status : FriendStatus) : Option ℕ × Messenger :=
  if env.allocFriendlist = false then (none, m)
  else
    match m.world.app.newFriendConnection env.below realPk with
    | (none, frC) => (none, { m with world := { m.world with app := frC } })
    | (some friendconId, frC) =>
      let m := { m with world := { m.world with app := frC } }
      match m.friendlist.findIdx? fun friend => friend.status = .nofriend with
      | some i =>
        let m := m.modifyFriend i fun friend => initFriend friend friendconId realPk status
        (some i, m.sendStatusPacket sodium env.below friendconId packetIdOnline)
      | none =>
        let i := m.friendlist.length
        let m := { m with friendlist := m.friendlist ++ [initFriend .zero friendconId realPk status] }
        (some i, m.sendStatusPacket sodium env.below friendconId packetIdOnline)

/-- `m_addfriend`. The checksum and the number against spam are at the end of the address. -/
def mAddfriend (env : MessengerEnv) (address : Block friendAddressSize) (data : Bytes) : Except Faerr ℕ × Messenger :=
  let realPk : PublicKey := slice 32 address.toList 0
  let nospam := lendianToHost32 (address.toList.drop 32)
  if data.length > maxFriendRequestDataSize then (.error .toolong, m)
  else if publicKeyValid realPk = false then (.error .badchecksum, m)
  else if address.toList.drop (32 + 4) ≠ addressChecksum (address.toList.take (32 + 4)) then (.error .badchecksum, m)
  else if data.length < 1 then (.error .nomessage, m)
  else if realPk = m.world.net.selfPublicKey then (.error .ownkey, m)
  else
    match m.getfriendId realPk with
    | some friendId =>
      let friend := m.friendlist.getD friendId .zero
      if friend.status = .confirmed ∨ friend.status = .online then (.error .alreadysent, m)
      else if friend.friendrequestNospam = nospam then (.error .alreadysent, m)
      else (.error .setnewnospam, m.modifyFriend friendId fun friend => { friend with friendrequestNospam := nospam })
    | none =>
      match m.initNewFriend sodium env realPk .added with
      | (none, m) => (.error .nomem, m)
      | (some ret, m) =>
        (.ok ret, m.modifyFriend ret fun friend =>
          { friend with
            friendrequestTimeout := Toxcore.friendrequestTimeout
            info := data
            friendrequestNospam := nospam })

/-- `m_addfriend_norequest`. -/
def mAddfriendNorequest (env : MessengerEnv) (realPk : PublicKey) : Except Faerr ℕ × Messenger :=
  if m.getfriendId realPk ≠ none then (.error .alreadysent, m)
  else if publicKeyValid realPk = false then (.error .badchecksum, m)
  else if realPk = m.world.net.selfPublicKey then (.error .ownkey, m)
  else
    match m.initNewFriend sodium env realPk .confirmed with
    | (none, m) => (.error .nomem, m)
    | (some ret, m) => (.ok ret, m)

/-- `m_delfriend`, with the return value 0 as `true`: the free places are cut off the end of the list. -/
def mDelfriend (env : MessengerEnv) (friendnumber : ℕ) : Bool × Messenger :=
  match m.getFriend friendnumber with
  | none => (false, m)
  | some friend =>
    let m := m.sendStatusPacket sodium env.below friend.friendconId packetIdOffline
    let m := { m with world := (killFriendConnection sodium env.below m.world friend.friendconId).2 }
    (true, { m with
      friendlist := (m.friendlist.set friendnumber .zero).rdropWhile fun friend => friend.status = .nofriend })

end Sending

/-! ## Names and statuses -/

/-- `setname`, with the return value 0 as `true`. -/
def setname (name : Bytes) : Bool × Messenger :=
  if name.length > maxNameLength then (false, m)
  else if m.name = name then (true, m)
  else (true, { m with name := name, friendlist := m.friendlist.map fun friend => { friend with nameSent := false } })

/-- `m_set_statusmessage`, with the return value 0 as `true`. -/
def mSetStatusmessage (status : Bytes) : Bool × Messenger :=
  if status.length > maxStatusmessageLength then (false, m)
  else if m.statusmessage = status then (true, m)
  else (true, { m with
    statusmessage := status
    friendlist := m.friendlist.map fun friend => { friend with statusmessageSent := false } })

/-- `m_set_userstatus`, with the return value 0 as `true`. -/
def mSetUserstatus (status : UInt8) : Bool × Messenger :=
  if status ≥ userstatusInvalid then (false, m)
  else if m.userstatus = status then (true, m)
  else (true, { m with
    userstatus := status
    friendlist := m.friendlist.map fun friend => { friend with userstatusSent := false } })

/-- `setfriendname`, with the return value 0 as `true`. -/
def setfriendname (friendnumber : ℕ) (name : Bytes) : Bool × Messenger :=
  match m.getFriend friendnumber with
  | none => (false, m)
  | some _ =>
    if name.length > maxNameLength ∨ name.length = 0 then (false, m)
    else (true, m.modifyFriend friendnumber fun friend => { friend with name := name })

/-- `set_friend_statusmessage`, with the return value 0 as `true`. -/
def setFriendStatusmessage (friendnumber : ℕ) (status : Bytes) : Bool × Messenger :=
  match m.getFriend friendnumber with
  | none => (false, m)
  | some _ =>
    if status.length > maxStatusmessageLength then (false, m)
    else (true, m.modifyFriend friendnumber fun friend => { friend with statusmessage := status })

/-- `set_friend_userstatus`. -/
def setFriendUserstatus (friendnumber : ℕ) (status : UInt8) : Messenger :=
  m.modifyFriend friendnumber fun friend => { friend with userstatus := status }

/-- `set_friend_status`: a friend that comes online is told again what it was told before. -/
def setFriendStatus (friendnumber : ℕ) (status : FriendStatus) : Messenger :=
  m.modifyFriend friendnumber fun friend =>
    if status = .online ∧ friend.status ≠ .online then
      { friend with
        nameSent := false, userstatusSent := false, statusmessageSent := false, userIstypingSent := false,
          status := status }
    else { friend with status := status }

/-! ## What comes from friends -/

/-- `handle_status`, for a friend in the list. -/
def handleStatus (friendnumber : ℕ) (status : Bool) : Messenger :=
  match m.getFriend friendnumber with
  | none => m
  | some friend =>
    if status = false ∧ friend.status = .online then m.setFriendStatus friendnumber .confirmed else m

/-- The `switch` of `handle_packet`, as far as it writes the fields of a friend here. -/
def handleStatePacket (friendnumber : ℕ) (packetId : UInt8) (data : Bytes) : Messenger :=
  if packetId = packetIdOffline then
    if data.length ≠ 0 then m else m.setFriendStatus friendnumber .confirmed
  else if packetId = packetIdNickname then
    if data.length > maxNameLength then m else m.modifyFriend friendnumber fun friend => { friend with name := data }
  else if packetId = packetIdStatusmessage then
    if data.length > maxStatusmessageLength then m else (m.setFriendStatusmessage friendnumber data).2
  else if packetId = packetIdUserstatus then
    match data with
    | [status] => if status ≥ userstatusInvalid then m else m.setFriendUserstatus friendnumber status
    | _ => m
  else if packetId = packetIdTyping then
    match data with
    | [typing] => m.modifyFriend friendnumber fun friend => { friend with isTyping := typing ≠ 0 }
    | _ => m
  else m

/-- `handle_packet`, for a friend in the list. The answer to a friend that comes online changes only `Net_Crypto`. -/
def handlePacket (friendnumber : ℕ) (packet : Bytes) : Messenger :=
  match m.getFriend friendnumber, packet with
  | some friend, packetId :: data =>
    if friend.status ≠ .online then
      if packetId = packetIdOnline ∧ data = [] then m.setFriendStatus friendnumber .online else m
    else m.handleStatePacket friendnumber packetId data
  | _, _ => m

/-! ## The main loop -/

/-- What `do_friends` observes for a friend: whether a friend request could be sent, and the name, the status message,
the status and whether we are typing. What is sent changes only `Net_Crypto`. -/
structure FriendSends where
  request : Bool
  name : Bool
  statusmessage : Bool
  userstatus : Bool
  istyping : Bool

/-- `check_friend_request_timed_out`. -/
def checkFriendRequestTimedOut (friend : Friend) (t : UInt64) : Friend :=
  if friend.friendrequestLastsent + friend.friendrequestTimeout.toUInt64 < t then
    { friend with status := .added, friendrequestTimeout := friend.friendrequestTimeout * 2 }
  else friend

/-- The body of the loop of `do_friends`, at the clock value `tempTime` and the calendar time `time`. -/
def doFriend (sends : FriendSends) (tempTime time : UInt64) (friend : Friend) : Friend :=
  let friend := if friend.status = .added ∧ sends.request = true then
    { friend with status := .requested, friendrequestLastsent := tempTime } else friend
  let friend := if friend.status = .requested then checkFriendRequestTimedOut friend tempTime else friend
  if friend.status = .online then
    { friend with
      nameSent := friend.nameSent || sends.name
      statusmessageSent := friend.statusmessageSent || sends.statusmessage
      userstatusSent := friend.userstatusSent || sends.userstatus
      userIstypingSent := friend.userIstypingSent || sends.istyping
      lastSeenTime := time }
  else friend

/-- `do_friends`. -/
def doFriends (sends : ℕ → FriendSends) (tempTime time : UInt64) : Messenger :=
  { m with friendlist := m.friendlist.mapIdx fun i friend => doFriend (sends i) tempTime time friend }

end Messenger

end Toxcore
