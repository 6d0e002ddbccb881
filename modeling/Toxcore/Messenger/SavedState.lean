import Toxcore.Messenger.FriendList

/-!
# Saving and loading a messenger

`messenger_save` writes sections into a buffer of `messenger_size` bytes that it clears first: each has its length,
its type and its contents. The sections of the TCP relays and of the path nodes may be shorter than the room for them,
so that zero bytes follow the last section. Lengths have 32 bits. What a save writes past the end of the buffer is
part of the memory here.

`messenger_load` hands each section to a callback, which uses the functions that the client uses: a friend of the save
is added again, and refused if it would be refused there.
-/

namespace Toxcore

open ByteStrings

/-- `MESSENGER_STATE_COOKIE_GLOBAL`. -/
def messengerStateCookieGlobal : UInt32 := 0x15ed1b1f

/-- `MESSENGER_STATE_COOKIE_TYPE`. -/
def messengerStateCookieType : UInt16 := 0x01ce

/-- `MESSENGER_STATE_TYPE_NOSPAMKEYS`. -/
def messengerStateTypeNospamkeys : UInt16 := 1

/-- `MESSENGER_STATE_TYPE_DHT`. -/
def messengerStateTypeDht : UInt16 := 2

/-- `MESSENGER_STATE_TYPE_FRIENDS`. -/
def messengerStateTypeFriends : UInt16 := 3

/-- `MESSENGER_STATE_TYPE_NAME`. -/
def messengerStateTypeName : UInt16 := 4

/-- `MESSENGER_STATE_TYPE_STATUSMESSAGE`. -/
def messengerStateTypeStatusmessage : UInt16 := 5

/-- `MESSENGER_STATE_TYPE_STATUS`. -/
def messengerStateTypeStatus : UInt16 := 6

/-- `MESSENGER_STATE_TYPE_TCP_RELAY`. -/
def messengerStateTypeTcpRelay : UInt16 := 10

/-- `MESSENGER_STATE_TYPE_PATH_NODE`. -/
def messengerStateTypePathNode : UInt16 := 11

/-- `MESSENGER_STATE_TYPE_END`. -/
def messengerStateTypeEnd : UInt16 := 255

/-- `SAVED_FRIEND_REQUEST_SIZE`. -/
abbrev savedFriendRequestSize : ℕ := 1024

/-- `NUM_SAVED_TCP_RELAYS`. -/
abbrev numSavedTcpRelays : ℕ := 8

/-- `NUM_SAVED_PATH_NODES`. -/
abbrev numSavedPathNodes : ℕ := 8

/-- `struct SAVED_FRIEND`. The lengths and the time are in network order in memory; they are the numbers here. -/
structure SavedFriend where
  status : UInt8
  realPk : PublicKey
  info : Block savedFriendRequestSize
  infoSize : UInt16
  name : Block maxNameLength
  nameLength : UInt16
  statusmessage : Block maxStatusmessageLength
  statusmessageLength : UInt16
  userstatus : UInt8
  friendrequestNospam : UInt32
  lastSeenTime : UInt64

/-- `sizeof(struct SAVED_FRIEND)`, with the padding before `info_size`, `statusmessage_length` and
`friendrequest_nospam`. -/
abbrev sizeofSavedFriend : ℕ := 2216

namespace SavedFriend

/-- The bytes of a saved friend. -/
def toBytes (temp : SavedFriend) : Bytes :=
  [temp.status] ++ (temp.realPk.toList ++ (temp.info.toList ++ ([0] ++ ((beBlock 2 temp.infoSize.toNat).toList ++
    (temp.name.toList ++ ((beBlock 2 temp.nameLength.toNat).toList ++ (temp.statusmessage.toList ++ ([0] ++
      ((beBlock 2 temp.statusmessageLength.toNat).toList ++ ([temp.userstatus] ++ ([0, 0, 0] ++
        (hostToLendian32 temp.friendrequestNospam ++ (beBlock 8 temp.lastSeenTime.toNat).toList))))))))))))

/-- The saved friend at the front of some bytes. -/
def ofBytes (data : Bytes) : SavedFriend where
  status := data.getD 0 0
  realPk := slice 32 data 1
  info := slice savedFriendRequestSize data 33
  infoSize := UInt16.ofNat (beNat (slice 2 data 1058).toList)
  name := slice maxNameLength data 1060
  nameLength := UInt16.ofNat (beNat (slice 2 data 1188).toList)
  statusmessage := slice maxStatusmessageLength data 1190
  statusmessageLength := UInt16.ofNat (beNat (slice 2 data 2198).toList)
  userstatus := data.getD 2200 0
  friendrequestNospam := lendianToHost32 (data.drop 2204)
  lastSeenTime := UInt64.ofNat (beNat (slice 8 data 2208).toList)

/-- A saved friend cleared to zero bytes. -/
def zero : SavedFriend := ⟨0, .zero, slice _ [] 0, 0, slice _ [] 0, 0, slice _ [] 0, 0, 0, 0, 0⟩

/-- The body of the loop of `friends_list_save`. -/
def ofFriend (friend : Friend) : SavedFriend :=
  let temp := { zero with status := friend.status.number, realPk := friend.realPk }
  if temp.status < 3 then
    { temp with
      info := slice savedFriendRequestSize friend.info 0
      infoSize := UInt16.ofNat friend.info.length
      friendrequestNospam := friend.friendrequestNospam }
  else
    { temp with
      name := slice maxNameLength friend.name 0
      nameLength := UInt16.ofNat friend.name.length
      statusmessage := slice maxStatusmessageLength friend.statusmessage 0
      statusmessageLength := UInt16.ofNat friend.statusmessage.length
      userstatus := friend.userstatus
      lastSeenTime := friend.lastSeenTime }

/-- The address that `friends_list_load` makes for a friend that was only added. -/
def address (temp : SavedFriend) : Block friendAddressSize :=
  let front := temp.realPk.toList ++ hostToLendian32 temp.friendrequestNospam
  slice friendAddressSize (front ++ addressChecksum front) 0

end SavedFriend

/-! ## Memory -/

/-- Memory after bytes were written at an offset. Memory that was not written before reads as zero. -/
def writeAt (memory : Bytes) (offset : ℕ) (bytes : Bytes) : Bytes :=
  memory.take offset ++ (List.replicate (offset - memory.length) 0 ++ (bytes ++ memory.drop (offset + bytes.length)))

/-- The buffer of `messenger_save`, and the offset of its pointer `data` from the start. -/
structure SaveBuffer where
  memory : Bytes
  data : ℕ

namespace SaveBuffer

variable (buffer : SaveBuffer)

/-- Write where the pointer is. -/
def write (bytes : Bytes) : SaveBuffer := { buffer with memory := writeAt buffer.memory buffer.data bytes }

/-- Move the pointer. -/
def advance (len : ℕ) : SaveBuffer := { buffer with data := buffer.data + len }

/-- `z_state_save_subheader`. -/
def zStateSaveSubheader (len : UInt32) (type : UInt16) : SaveBuffer :=
  (buffer.write (hostToLendian32 len ++
    hostToLendian32 (messengerStateCookieType.toUInt32 <<< 16 ||| type.toUInt32))).advance 8

/-- A section whose length is known before: the bytes are written behind its header, and the pointer is moved by its
length. -/
def saveSection (len : UInt32) (type : UInt16) (bytes : Bytes) : SaveBuffer :=
  ((buffer.zStateSaveSubheader len type).write bytes).advance len.toNat

/-- A section of nodes: its header is written again when the nodes are packed. -/
def saveNodes (type : UInt16) (room : UInt16) (nodes : List NodeFormat) : SaveBuffer :=
  let (l, packed) := packNodes room nodes (UInt16.ofNat nodes.length)
  let written := (buffer.zStateSaveSubheader 0 type).write packed
  match l with
  | none => written
  | some len =>
    if len > 0 then
      (({ written with data := buffer.data }).zStateSaveSubheader (UInt32.ofNat len) type).advance len
    else written

end SaveBuffer

namespace Messenger

/-! ## Saving -/

section Saving

variable (m : Messenger)

end Saving

/-! ## Loading -/

section Loading

variable (sodium : Sodium)

/-- A confirmed friend of `friends_list_load`, once it is in the list. -/
def loadConfirmed (m : Messenger) (fnum : ℕ) (temp : SavedFriend) : Messenger :=
  let m := (m.setfriendname fnum (temp.name.toList.take temp.nameLength.toNat)).2
  let m := if temp.statusmessageLength.toNat > maxStatusmessageLength then m
    else (m.setFriendStatusmessage fnum (temp.statusmessage.toList.take temp.statusmessageLength.toNat)).2
  let m := m.setFriendUserstatus fnum temp.userstatus
  m.modifyFriend fnum fun friend => { friend with lastSeenTime := temp.lastSeenTime }

/-- The body of the loop of `friends_list_load`. -/
def loadFriend (env : MessengerEnv) (m : Messenger) (temp : SavedFriend) : Messenger :=
  if temp.status ≥ 3 then
    match m.mAddfriendNorequest sodium env temp.realPk with
    | (.error _, m) => m
    | (.ok fnum, m) => m.loadConfirmed fnum temp
  else if temp.status ≠ 0 then
    if temp.infoSize.toNat > maxFriendRequestDataSize then m
    else (m.mAddfriend sodium env temp.address (temp.info.toList.take temp.infoSize.toNat)).2
  else m

/-- The loop of `friends_list_load`, by the number of friends that are left. -/
def friendsListLoadLoop (env : ℕ → MessengerEnv) : ℕ → ℕ → Messenger → Bytes → Messenger
  | 0, _, m, _ => m
  | num + 1, i, m, data =>
    friendsListLoadLoop env num (i + 1) (loadFriend sodium (env i) m (.ofBytes data)) (data.drop sizeofSavedFriend)

/-- `friends_list_load`. Its return value is not used. -/
def friendsListLoad (env : ℕ → MessengerEnv) (m : Messenger) (data : Bytes) : Messenger :=
  if data.length % sizeofSavedFriend ≠ 0 then m
  else friendsListLoadLoop sodium env (data.length / sizeofSavedFriend) 0 m data

/-- `load_secret_key`. -/
def loadSecretKey (m : Messenger) (sk : SecretKey) : Messenger :=
  { m with world := { m.world with
    net := { m.world.net with selfSecretKey := sk, selfPublicKey := sodium.scalarmultBase sk } } }

/-- The nodes that `unpack_nodes` has stored when it returns, also where it fails after some of them. -/
def unpackedRelays (loadedRelays : ℕ → NodeFormat) (data : Bytes) : List NodeFormat :=
  ((List.range (numSavedTcpRelays + 1)).reverse.findSome? fun number =>
    match unpackNodes loadedRelays (UInt16.ofNat number) data (UInt16.ofNat data.length) true with
    | some (some (nodes, _)) => some nodes
    | _ => none).getD []

/-- `messenger_load_state_callback`. -/
def messengerLoadStateCallback (env : ℕ → MessengerEnv) (stackNodes : ℕ → NodeFormat) (m : Messenger) (data : Bytes)
    (type : UInt16) : LoadStatus × Messenger :=
  if type = messengerStateTypeNospamkeys then
    if data.length = 32 + 32 + 4 then
      let m := ({ m with nospam := lendianToHost32 data }).loadSecretKey sodium (slice 32 data (4 + 32))
      if slice 32 data 4 ≠ m.world.net.selfPublicKey then (.failed, m) else (.loaded, m)
    else (.failed, m)
  else if type = messengerStateTypeDht then (.loaded, { m with loadedNodes := (dhtLoad m.loadedNodes data).2 })
  else if type = messengerStateTypeFriends then (.loaded, friendsListLoad sodium env m data)
  else if type = messengerStateTypeName then
    if data.length > 0 ∧ data.length ≤ maxNameLength then (.loaded, (m.setname data).2) else (.loaded, m)
  else if type = messengerStateTypeStatusmessage then
    if data.length > 0 ∧
      data.length < maxStatusmessageLength then (.loaded, (m.mSetStatusmessage data).2) else (.loaded, m)
  else if type = messengerStateTypeStatus then
    match data with
    | [status] => (.loaded, (m.mSetUserstatus status).2)
    | _ => (.loaded, m)
  else if type = messengerStateTypeTcpRelay then
    if data.length = 0 then (.loaded, m)
    else
      let unpacked := unpackedRelays m.loadedRelays data
      (.loaded, { m with loadedRelays := fun i => unpacked.getD i (m.loadedRelays i), hasAddedRelays := false })
  else if type = messengerStateTypePathNode then
    if data.length = 0 then (.loaded, m)
    else
      match unpackNodes stackNodes (UInt16.ofNat numSavedPathNodes) data (UInt16.ofNat data.length) false with
      | some (some (nodes, _)) => (.loaded, { m with pathNodes := m.pathNodes ++ nodes })
      | _ => (.loaded, m)
  else if type = messengerStateTypeEnd then
    if data.length ≠ 0 then (.failed, m) else (.ended, m)
  else (.loaded, m)

/-- `messenger_load`, with the return value 0 as `true`. `env` is what the allocations for the friends of a section
observe. -/
def messengerLoad (env : ℕ → MessengerEnv) (stackNodes : ℕ → NodeFormat) (m : Messenger)
    (data : Bytes) : Bool × Messenger :=
  if data.length < 8 then (false, m)
  else if data.take 4 = List.replicate 4 0 ∧ lendianToHost32 (data.drop 4) = messengerStateCookieGlobal then
    loadState (messengerLoadStateCallback sodium env stackNodes) messengerStateCookieType m (data.drop 8)
  else (false, m)

end Loading

end Messenger

end Toxcore
