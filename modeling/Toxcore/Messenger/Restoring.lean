import Toxcore.Messenger.Reachable

/-!
# Restoring a messenger

A messenger that was saved is loaded into a new one. The sections are read back one by one, as long as the size of the
save has 32 bits. A status message of the greatest length that can be set is not loaded: the test of its length is
strict there. A friend that has our own key is refused when it is added again.
-/

namespace Toxcore

open ByteStrings List

/-! ## Saved friends -/

namespace SavedFriend

variable (temp : SavedFriend)

@[simp] theorem toBytes_length : temp.toBytes.length = sizeofSavedFriend := by
  simp only [toBytes, length_append, length_cons, length_nil, List.Vector.toList_length, hostToLendian32_length,
    savedFriendRequestSize, maxNameLength, maxStatusmessageLength, sizeofSavedFriend]

/-- A saved friend is read back from its bytes. -/
theorem ofBytes_toBytes (rest : Bytes) : ofBytes (temp.toBytes ++ rest) = temp := by
  have h16 (n : UInt16) : UInt16.ofNat (beNat (beBlock 2 n.toNat).toList) = n := by
    rw [beBlock_toList, beNat_beBytes_of_lt n.toNat_lt, UInt16.ofNat_toNat]
  have h64 (n : UInt64) : UInt64.ofNat (beNat (beBlock 8 n.toNat).toList) = n := by
    rw [beBlock_toList, beNat_beBytes_of_lt n.toNat_lt, UInt64.ofNat_toNat]
  obtain ⟨status, realPk, info, infoSize, name, nameLength, statusmessage, statusmessageLength, userstatus,
    nospam, time⟩ := temp
  generalize hsource : toBytes _ ++ rest = source
  simp only [toBytes, append_assoc] at hsource
  obtain ⟨hstatus, hdrop⟩ := @read_byte 0 _ _ _ hsource.symm
  obtain ⟨hrealPk, hdrop⟩ := read_block hdrop
  obtain ⟨hinfo, hdrop⟩ := read_block hdrop
  obtain ⟨hinfoSize, hdrop⟩ := read_block (read_byte hdrop).2
  obtain ⟨hname, hdrop⟩ := read_block hdrop
  obtain ⟨hnameLength, hdrop⟩ := read_block hdrop
  obtain ⟨hstatusmessage, hdrop⟩ := read_block hdrop
  obtain ⟨hstatusmessageLength, hdrop⟩ := read_block (read_byte hdrop).2
  obtain ⟨huserstatus, hdrop⟩ := read_byte hdrop
  have hnospam := drop_bytes hdrop (show [0, 0, 0].length = 3 from rfl)
  have htime := (read_block (drop_bytes hnospam (hostToLendian32_length nospam))).1
  simp only [ofBytes, SavedFriend.mk.injEq]
  exact ⟨hstatus, hrealPk, hinfo, hinfoSize ▸ h16 _, hname, hnameLength ▸ h16 _, hstatusmessage,
    hstatusmessageLength ▸ h16 _, huserstatus, hnospam ▸ lendianToHost32_append _ _, htime ▸ h64 _⟩

end SavedFriend

/-! ## Memory -/

/-- What is written behind a part of the memory. -/
theorem writeAt_append (front rest bytes : Bytes) :
    writeAt (front ++ rest) front.length bytes = front ++ (bytes ++ rest.drop bytes.length) := by
  have hnone : front.length - (front ++ rest).length = 0 := by
    rw [length_append]
    omega
  rw [writeAt, take_left, hnone, ← drop_drop, drop_left]
  rfl

/-- The header of a section. -/
def sectionHeader (len : UInt32) (type : UInt16) : Bytes :=
  hostToLendian32 len ++ hostToLendian32 (messengerStateCookieType.toUInt32 <<< 16 ||| type.toUInt32)

@[simp] theorem sectionHeader_length (len : UInt32) (type : UInt16) : (sectionHeader len type).length = 8 := by
  simp [sectionHeader]

namespace SaveBuffer

variable {buffer : SaveBuffer} {front rest : Bytes}

/-- The memory up to the pointer, and from there on. -/
structure Holds (buffer : SaveBuffer) (front rest : Bytes) : Prop where
  memory : buffer.memory = front ++ rest
  data : buffer.data = front.length

/-- Bytes are written behind. -/
theorem Holds.put (h : Holds buffer front rest) (bytes : Bytes) :
    Holds ((buffer.write bytes).advance bytes.length) (front ++ bytes) (rest.drop bytes.length) := by
  refine ⟨?_, ?_⟩
  · change writeAt buffer.memory buffer.data bytes = _
    rw [h.memory, h.data, writeAt_append, append_assoc]
  · change buffer.data + bytes.length = _
    rw [h.data, length_append]

/-- A header is written behind. -/
theorem Holds.header (h : Holds buffer front rest) (len : UInt32) (type : UInt16) :
    Holds (buffer.zStateSaveSubheader len type) (front ++ sectionHeader len type) (rest.drop 8) := by
  have hput := h.put (sectionHeader len type)
  rwa [sectionHeader_length] at hput

variable {bytes : Bytes}

/-- A section for which there is room. Where its bytes are fewer than its length, it takes over what is behind them. -/
theorem Holds.saveSection (h : Holds buffer front rest) {len : UInt32} (type : UInt16)
    (hbytes : bytes.length ≤ len.toNat) (hroom : 8 + len.toNat ≤ rest.length) :
    ∃ padding, (bytes ++ padding).length = len.toNat ∧
      Holds (buffer.saveSection len type bytes) (front ++ (sectionHeader len type ++ (bytes ++ padding)))
        (rest.drop (8 + len.toNat)) := by
  have hheader := h.header len type
  have hlength : (bytes ++ ((rest.drop 8).drop bytes.length).take (len.toNat - bytes.length)).length = len.toNat := by
    simp only [length_append, length_take, length_drop]
    omega
  refine ⟨((rest.drop 8).drop bytes.length).take (len.toNat - bytes.length), hlength, ?_, ?_⟩
  · change writeAt (buffer.zStateSaveSubheader len type).memory (buffer.zStateSaveSubheader len type).data bytes = _
    have hrest : (rest.drop 8).drop bytes.length =
        ((rest.drop 8).drop bytes.length).take (len.toNat - bytes.length) ++ rest.drop (8 + len.toNat) := by
      conv_lhs => rw [← take_append_drop (len.toNat - bytes.length) ((rest.drop 8).drop bytes.length)]
      rw [drop_drop, drop_drop, show 8 + bytes.length + (len.toNat - bytes.length) = 8 + len.toNat by omega]
    rw [hheader.memory, hheader.data, writeAt_append]
    conv_lhs => rw [hrest]
    simp only [append_assoc]
  · change (buffer.zStateSaveSubheader len type).data + len.toNat = _
    rw [hheader.data, length_append, length_append, length_append, hlength, sectionHeader_length]
    omega

/-- Packed nodes are no longer than the room for them, and they are as long as `pack_nodes` says. -/
theorem packNodes_fits {room number : UInt16} {nodes : List NodeFormat} {l : Option ℕ} {packed : Bytes}
    (h : packNodes room nodes number = (l, packed)) :
    packed.length ≤ room.toNat ∧ ∀ len, l = some len → packed.length = len := by
  have hle := packNodesLoop_written_le room.toNat (nodes.take number.toNat) (Nat.zero_le _)
  unfold packNodes at h
  rw [h, Nat.zero_add] at hle
  refine ⟨hle, ?_⟩
  rintro len rfl
  obtain ⟨entries, -, -, hlen, -⟩ := packNodesLoop_some (Nat.zero_le _) h
  rw [hlen, Nat.zero_add]

/-- A section of nodes is no longer than the room for it. -/
theorem Holds.saveNodes (h : Holds buffer front rest) (type room : UInt16) (nodes : List NodeFormat)
    (hroom : 8 + room.toNat ≤ rest.length) :
    ∃ (len : UInt32) (contents rest' : Bytes), len.toNat = contents.length ∧ contents.length ≤ room.toNat ∧
      rest'.length + (8 + contents.length) = rest.length ∧
      Holds (buffer.saveNodes type room nodes) (front ++ (sectionHeader len type ++ contents)) rest' := by
  rcases hpack : packNodes room nodes (UInt16.ofNat nodes.length) with ⟨l, packed⟩
  obtain ⟨hfits, hlen⟩ := packNodes_fits hpack
  have hheader := h.header 0 type
  have hmemory : ((buffer.zStateSaveSubheader 0 type).write packed).memory =
      front ++ (sectionHeader 0 type ++ (packed ++ (rest.drop 8).drop packed.length)) := by
    change writeAt (buffer.zStateSaveSubheader 0 type).memory (buffer.zStateSaveSubheader 0 type).data packed = _
    rw [hheader.memory, hheader.data, writeAt_append, append_assoc]
  have hlength : (packed ++ (rest.drop 8).drop packed.length).length + 8 = rest.length := by
    simp only [length_append, length_drop]
    omega
  have hempty : ∃ (len : UInt32) (contents rest' : Bytes), len.toNat = contents.length ∧ contents.length ≤ room.toNat ∧
      rest'.length + (8 + contents.length) = rest.length ∧
      Holds ((buffer.zStateSaveSubheader 0 type).write packed)
        (front ++ (sectionHeader len type ++ contents)) rest' := by
    refine ⟨0, [], packed ++ (rest.drop 8).drop packed.length, rfl, Nat.zero_le _, hlength, ?_, ?_⟩
    · rw [hmemory, append_nil, append_assoc]
    · rw [append_nil]
      exact hheader.data
  unfold SaveBuffer.saveNodes
  rw [hpack]
  dsimp only
  cases l with
  | none => exact hempty
  | some len =>
    obtain rfl := hlen len rfl
    dsimp only
    split
    · have hlen32 : (UInt32.ofNat packed.length).toNat = packed.length :=
        UInt32.toNat_ofNat_of_lt' (by have := room.toNat_lt; change _ < 2 ^ 32; omega)
      have hagain : Holds ({ (buffer.zStateSaveSubheader 0 type).write packed with data := buffer.data })
          front (sectionHeader 0 type ++ (packed ++ (rest.drop 8).drop packed.length)) := ⟨hmemory, h.data⟩
      have hwritten := hagain.header (UInt32.ofNat packed.length) type
      rw [drop_left' (sectionHeader_length 0 type)] at hwritten
      refine ⟨_, packed, (rest.drop 8).drop packed.length, hlen32, hfits, ?_, ?_, ?_⟩
      · simp only [length_append] at hlength
        omega
      · refine hwritten.memory.trans ?_
        simp only [append_assoc]
      · refine (congrArg (· + packed.length) hwritten.data).trans ?_
        simp only [length_append]
        omega
    · exact hempty

end SaveBuffer

/-! ## Sections -/

/-- A section with its header. -/
def savedSection (type : UInt16) (contents : Bytes) : Bytes :=
  sectionHeader (UInt32.ofNat contents.length) type ++ contents

/-- The header of a section with the length of its contents. -/
theorem savedSection_eq {len : UInt32} {contents : Bytes} (h : contents.length = len.toNat) (type : UInt16) :
    savedSection type contents = sectionHeader len type ++ contents := by
  rw [savedSection, h, UInt32.ofNat_toNat]

/-- The memory up to the pointer, and how much there is behind it. -/
def SaveBuffer.Room (buffer : SaveBuffer) (front : Bytes) (room : ℕ) : Prop :=
  ∃ rest : Bytes, rest.length = room ∧ buffer.Holds front rest

namespace SaveBuffer.Room

variable {buffer : SaveBuffer} {front : Bytes} {room : ℕ}

theorem start {memory : Bytes} (h : memory.length = room) : SaveBuffer.Room ⟨memory, 0⟩ [] room :=
    ⟨memory, h, ⟨rfl, rfl⟩⟩

section

variable (h : buffer.Room front room)
include h

theorem put (bytes : Bytes) :
    ((buffer.write bytes).advance bytes.length).Room (front ++ bytes) (room - bytes.length) := by
  obtain ⟨rest, rfl, hholds⟩ := h
  exact ⟨_, length_drop, hholds.put bytes⟩

/-- A section whose bytes may be fewer than its length. -/
theorem saveSection (len : UInt32) (type : UInt16) (hbytes : bytes.length ≤ len.toNat) (hroom : 8 + len.toNat ≤ room) :
    ∃ padding, (bytes ++ padding).length = len.toNat ∧
      (buffer.saveSection len type bytes).Room (front ++ savedSection type (bytes ++ padding))
      (room - (8 + len.toNat)) := by
  obtain ⟨rest, rfl, hholds⟩ := h
  obtain ⟨padding, hpadding, hsection⟩ := hholds.saveSection type hbytes hroom
  exact ⟨padding, hpadding, _, length_drop, savedSection_eq hpadding type ▸ hsection⟩

/-- Nodes are saved in the room there is. -/
theorem saveNodes (limit type : UInt16) (nodes : List NodeFormat) (hroom : 8 + limit.toNat ≤ room) :
    ∃ contents : Bytes, contents.length ≤ limit.toNat ∧
      (buffer.saveNodes type limit nodes).Room (front ++ savedSection type contents)
      (room - (8 + contents.length)) := by
  obtain ⟨rest, rfl, hholds⟩ := h
  obtain ⟨len, contents, rest', hlen, hle, hrest, hsection⟩ := hholds.saveNodes type limit nodes hroom
  exact ⟨contents, hle, rest', by omega, savedSection_eq hlen.symm type ▸ hsection⟩

end

end SaveBuffer.Room

namespace Messenger

variable (m : Messenger)

end Messenger

/-! ## Loading friends -/

/-- What a save keeps of a friend. -/
inductive RestoredFriend where
  | confirmed (realPk : PublicKey) (name statusmessage : Bytes) (userstatus : UInt8) (lastSeenTime : UInt64)
  | requested (realPk : PublicKey) (info : Bytes) (nospam : UInt32)

/-- The key of a friend. -/
def RestoredFriend.realPk : RestoredFriend → PublicKey
  | confirmed realPk _ _ _ _ => realPk
  | requested realPk _ _ => realPk

/-- What a save keeps of a friend: more for one that is confirmed. -/
def Friend.restored (friend : Friend) : RestoredFriend :=
  if friend.status = .confirmed ∨ friend.status = .online then
    .confirmed friend.realPk friend.name friend.statusmessage friend.userstatus friend.lastSeenTime
  else .requested friend.realPk friend.info friend.friendrequestNospam

/-- Allocations succeed. -/
structure MessengerEnv.Succeeds (env : MessengerEnv) : Prop where
  friendlist : env.allocFriendlist = true
  conns : env.below.allocConns = true
  onionFriends : env.below.allocOnionFriends = true

/-- With memory a friend connection is made. -/
theorem FriendConnections.newFriendConnection_succeeds {env : FriendEnv} (hconns : env.allocConns = true)
    (honion : env.allocOnionFriends = true) (frC : FriendConnections) (realPk : PublicKey) :
    (frC.newFriendConnection env realPk).1 ≠ none := by
  unfold FriendConnections.newFriendConnection
  split
  · exact Option.some_ne_none _
  · split <;> rename_i heq
    · unfold createFriendConn at heq
      rw [hconns] at heq
      split at heq <;> exact absurd (congrArg Prod.fst heq) (by simp)
    · split <;> rename_i heq'
      · unfold onionAddfriend at heq'
        rw [honion] at heq'
        split at heq'
        · exact absurd (congrArg Prod.fst heq') (by simp)
        · split at heq' <;> exact absurd (congrArg Prod.fst heq') (by simp)
      · exact Option.some_ne_none _

namespace SavedFriend

variable {friend : Friend}

/-- The parts of the address that is made for a friend. -/
theorem address_parts (temp : SavedFriend) :
    slice 32 temp.address.toList 0 = temp.realPk ∧
      lendianToHost32 (temp.address.toList.drop 32) = temp.friendrequestNospam ∧
      temp.address.toList.drop 36 = addressChecksum (temp.address.toList.take 36) := by
  have hlength : (addressChecksum (temp.realPk.toList ++ hostToLendian32 temp.friendrequestNospam)).length = 2 := rfl
  have hfront : (temp.realPk.toList ++ hostToLendian32 temp.friendrequestNospam).length = 36 := by simp
  have haddress : temp.address.toList = temp.realPk.toList ++ (hostToLendian32 temp.friendrequestNospam ++
      addressChecksum (temp.realPk.toList ++ hostToLendian32 temp.friendrequestNospam)) := by
    rw [address, slice_toList (by rw [length_append, hfront, hlength]; decide), drop_zero,
      take_of_length_le (by rw [length_append, hfront, hlength]), append_assoc]
  refine ⟨?_, ?_, ?_⟩
  · rw [haddress, slice_block]
  · rw [haddress, drop_left' temp.realPk.toList_length, lendianToHost32_append]
  · rw [haddress, ← append_assoc, drop_left' hfront, take_left' hfront]

end SavedFriend

namespace Messenger

section LoadingFriends

variable {sodium : Sodium} {m : Messenger} {env : MessengerEnv} {friend : Friend}

/-- A list without free places grows at the end. -/
theorem initNewFriend_append (sodium : Sodium) (henv : env.Succeeds)
    (hused : ∀ friend ∈ m.friendlist, friend.status ≠ .nofriend) (realPk : PublicKey) (status : FriendStatus) :
    ∃ friendconId m', m.initNewFriend sodium env realPk status = (some m.friendlist.length, m') ∧ OnlyFriends m m' ∧
      m'.friendlist = m.friendlist ++ [initFriend .zero friendconId realPk status] := by
  rcases hinit : m.initNewFriend sodium env realPk status with ⟨result, m'⟩
  have hsome : result ≠ none := by
    rintro rfl
    unfold initNewFriend at hinit
    rw [if_neg (by simp [henv.friendlist])] at hinit
    have hconn := FriendConnections.newFriendConnection_succeeds henv.conns henv.onionFriends m.world.app realPk
    split at hinit
    · rename_i heq
      rw [heq] at hconn
      exact hconn rfl
    · dsimp only at hinit
      split at hinit <;> exact absurd (congrArg Prod.fst hinit) (by simp)
  obtain ⟨honly, ⟨hnone, -⟩ | ⟨i, friendconId, rfl, htakes⟩⟩ := initNewFriend_cases hinit
  · exact absurd hnone hsome
  · generalize hlist : m'.friendlist = friendlist' at htakes
    cases htakes with
    | free hfriend hfree => exact absurd hfree (hused _ (mem_of_getElem? hfriend))
    | fresh hi =>
      subst hi
      exact ⟨friendconId, m', rfl, honly, hlist⟩

end LoadingFriends

/-! ## Loading a save -/

section LoadingSaves

variable (sodium : Sodium) (env : ℕ → MessengerEnv) (stackNodes : ℕ → NodeFormat) {m : Messenger}

/-- A messenger with the number against spam, the keys and the friends of another one. -/
structure Carries (m m' : Messenger) : Prop where
  nospam : m'.nospam = m.nospam
  keyPair : m'.world.net.keyPair = m.world.net.keyPair
  used : (∀ friend ∈ m.friendlist, friend.status ≠ .nofriend) → ∀ friend ∈ m'.friendlist, friend.status ≠ .nofriend
  friends : m'.friendlist.map Friend.restored = m.friendlist.map Friend.restored

theorem Carries.refl (m : Messenger) : Carries m m := ⟨rfl, rfl, id, rfl⟩

theorem Carries.trans {m' m'' : Messenger} (h : Carries m m') (h' : Carries m' m'') : Carries m m'' :=
  ⟨h'.nospam.trans h.nospam, h'.keyPair.trans h.keyPair, h'.used ∘ h.used, h'.friends.trans h.friends⟩

/-- A note in each friend that it has to be told something again. -/
theorem Carries.map {m' : Messenger} {f : Friend → Friend} (hnospam : m'.nospam = m.nospam)
    (hkeyPair : m'.world.net.keyPair = m.world.net.keyPair) (hlist : m'.friendlist = m.friendlist.map f)
    (hstatus : ∀ friend, (f friend).status = friend.status)
    (hrestored : ∀ friend, (f friend).restored = friend.restored) : Carries m m' := by
  refine ⟨hnospam, hkeyPair, fun hused friend hfriend => ?_, ?_⟩
  · rw [hlist] at hfriend
    obtain ⟨before, hbefore, rfl⟩ := mem_map.mp hfriend
    rw [hstatus]
    exact hused before hbefore
  · rw [hlist, map_map]
    exact map_congr_left fun friend _ => hrestored friend

variable {target : Messenger}

end LoadingSaves

end Messenger

end Toxcore
