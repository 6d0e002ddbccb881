import Toxcore.Data.RecentKeys
import Toxcore.Messenger.Profiles
import Toxcore.Messenger.Requests
import Toxcore.Messenger.SaveRoundTrip

/-!
# Receiving friend requests

`friend_requests.c`: a friend request is reported if it has the number against spam, does not come from a friend, and
its sender is not among the last 32 whose requests were reported. Deleting a friend strikes the key out of those 32,
so that the friend can ask again.

Whatever happens in between, requests of one sender are reported 32 requests apart, unless the sender was a friend and
was deleted. A request that is made to the address of a messenger is reported with its text while the messenger has
the number of the address.
-/

namespace Toxcore

open ByteStrings RecentKeys List

/-- `MAX_RECEIVED_STORED`. -/
abbrev maxReceivedStored : ℕ := 32

/-- `Friend_Requests`. The number against spam is a field of `Messenger`. -/
structure FriendRequests where
  handleFriendrequestIsset : Bool
  receivedRequests : Fin maxReceivedStored → PublicKey
  receivedRequestsIndex : ℕ

namespace FriendRequests

/-- Friend requests cleared to zero bytes. -/
def zero : FriendRequests := ⟨false, fun _ => .zero, 0⟩

variable (fr : FriendRequests)

/-- `callback_friendrequest`. -/
def callbackFriendrequest : FriendRequests := { fr with handleFriendrequestIsset := true }

/-- `addto_receivedlist`. -/
def addtoReceivedlist (realPk : PublicKey) : FriendRequests :=
  let index := if fr.receivedRequestsIndex ≥ maxReceivedStored then 0 else fr.receivedRequestsIndex
  { fr with
    receivedRequests := Function.update fr.receivedRequests (Fin.ofNat maxReceivedStored index) realPk
    receivedRequestsIndex := index + 1 }

/-- `request_received`. -/
def requestReceived (realPk : PublicKey) : Bool := (List.finRange maxReceivedStored).any fun i =>
    fr.receivedRequests i = realPk

/-- `remove_request_received`, with the return value 0 as `true`. -/
def removeRequestReceived (realPk : PublicKey) : Bool × FriendRequests :=
  match (List.finRange maxReceivedStored).find? fun i => fr.receivedRequests i = realPk with
  | some i => (true, { fr with receivedRequests := Function.update fr.receivedRequests i .zero })
  | none => (false, fr)

/-- `friendreq_handlepacket`, with the message that is handed to the callback. The filter function gives `true` for
0. -/
def friendreqHandlepacket (nospam : UInt32) (filterFunction : Option (PublicKey → Bool)) (source : PublicKey)
    (packet : Bytes) :
    Option Bytes × FriendRequests :=
  if packet.length ≤ 1 + 4 ∨ packet.length > onionClientMaxDataSize then (none, fr)
  else if fr.handleFriendrequestIsset = false then (none, fr)
  else if fr.requestReceived source then (none, fr)
  else if (packet.drop 1).take 4 ≠ hostToLendian32 nospam then (none, fr)
  else if filterFunction.any fun accepts => !accepts source then (none, fr)
  else (some (packet.drop (1 + 4)), fr.addtoReceivedlist source)

end FriendRequests

namespace Messenger

/-- `friend_already_added`, with 0 as `true`. -/
def friendAlreadyAdded (m : Messenger) (realPk : PublicKey) : Bool := m.getfriendId realPk = none

/-- `getaddress`. -/
def getaddress (m : Messenger) : Block friendAddressSize :=
  let front := m.world.net.selfPublicKey.toList ++ hostToLendian32 m.nospam
  slice friendAddressSize (front ++ addressChecksum front) 0

end Messenger

/-- A messenger with its `Friend_Requests`. -/
structure RequestMessenger where
  messenger : Messenger
  fr : FriendRequests

/-- What can happen to a messenger and its friend requests. A request comes from a friend connection or out of the
onion. -/
inductive RequestEvent where
  | request (source : PublicKey) (packet : Bytes)
  | callback
  | operation (op : Messenger.Operation)

namespace RequestMessenger

/-- What is reported for a packet with a request, and the friend requests after it. -/
def receive (s : RequestMessenger) (source : PublicKey) (packet : Bytes) : Option Bytes × FriendRequests :=
  s.fr.friendreqHandlepacket s.messenger.nospam (some s.messenger.friendAlreadyAdded) source packet

/-- The keys that an operation strikes out of the received requests. -/
def struckOut (s : RequestMessenger) : Messenger.Operation → Option PublicKey
  | .delfriend _ friendnumber => (s.messenger.getFriend friendnumber).map Friend.realPk
  | _ => none

/-- The messenger after an event. `m_delfriend` also strikes out the key of the friend. -/
def exec (sodium : Sodium) (s : RequestMessenger) : RequestEvent → RequestMessenger
  | .request source packet => { s with fr := (s.receive source packet).2 }
  | .callback => { s with fr := s.fr.callbackFriendrequest }
  | .operation op =>
    { messenger := op.exec sodium s.messenger
      fr := (s.struckOut op).elim s.fr fun realPk => (s.fr.removeRequestReceived realPk).2 }

/-- What becomes of keys in an event. -/
def marks (s : RequestMessenger) : RequestEvent → List (Mark PublicKey)
  | .request source packet => ((s.receive source packet).1.map fun _ => .noted source).toList
  | .callback => []
  | .operation op => ((s.struckOut op).map .struck).toList

/-- What events reach from a messenger without requests, with the reported and the deleted keys, the newest first. -/
inductive Run (sodium : Sodium) (m : Messenger) : RequestMessenger → List (Mark PublicKey) → Prop
  | start : Run sodium m ⟨m, .zero⟩ []
  | step {s : RequestMessenger} {history : List (Mark PublicKey)} (h : Run sodium m s history) (event : RequestEvent) :
      Run sodium m (s.exec sodium event) (s.marks event ++ history)

end RequestMessenger

/-! ## The received requests -/

namespace FriendRequests

/-- The keys in the slots are those that were reported last, and the index tells the next slot. -/
structure Notes (fr : FriendRequests) (history : List (Mark PublicKey)) : Prop where
  laidOut : LaidOut .zero fr.receivedRequests history
  fresh : Fresh maxReceivedStored history
  index : fr.receivedRequestsIndex ≤ maxReceivedStored ∧
    fr.receivedRequestsIndex % maxReceivedStored = (entries history).length % maxReceivedStored

/-- Nothing is noted at first. -/
theorem Notes.zero : Notes .zero [] := ⟨.start, .nil, Nat.zero_le _, rfl⟩

variable {fr : FriendRequests} {history : List (Mark PublicKey)} {realPk : PublicKey}

/-- A request is known where an entry has its key. -/
theorem requestReceived_iff : fr.requestReceived realPk = true ↔ ∃ i, fr.receivedRequests i = realPk := by
  rw [requestReceived, any_eq_true]
  constructor
  · rintro ⟨i, -, hi⟩
    exact ⟨i, of_decide_eq_true hi⟩
  · rintro ⟨i, hi⟩
    exact ⟨i, mem_finRange i, decide_eq_true hi⟩

/-- The slot that is written next. -/
theorem Notes.nextSlot (h : fr.Notes history) :
    Fin.ofNat maxReceivedStored (if fr.receivedRequestsIndex ≥ maxReceivedStored then 0 else fr.receivedRequestsIndex) =
      Fin.ofNat maxReceivedStored (entries history).length := by
  obtain ⟨hle, hindex⟩ := h.index
  apply Fin.ext
  rw [Fin.val_ofNat, Fin.val_ofNat, ← hindex]
  simp only [maxReceivedStored] at hle ⊢
  split
  · omega
  · rfl

/-- A request is noted. -/
theorem Notes.addtoReceivedlist (h : fr.Notes history) (hkey : fr.requestReceived realPk = false) :
    (fr.addtoReceivedlist realPk).Notes (.noted realPk :: history) := by
  have hnot : ∀ i, fr.receivedRequests i ≠ realPk := by
    intro i hi
    rw [requestReceived_iff.mpr ⟨i, hi⟩] at hkey
    contradiction
  refine ⟨?_, .noted h.fresh ?_, ?_⟩
  · have hnote := h.laidOut.note hnot
    rw [← h.nextSlot] at hnote
    exact hnote
  · intro hrecent
    obtain ⟨i, hi⟩ := h.laidOut.exists_slot hrecent
    exact hnot i hi
  · obtain ⟨hle, hindex⟩ := h.index
    rw [entries, length_cons]
    simp only [FriendRequests.addtoReceivedlist, maxReceivedStored] at hle hindex ⊢
    split <;> omega

/-- A request is struck. -/
theorem Notes.removeRequestReceived (h : fr.Notes history) (realPk : PublicKey) :
    (fr.removeRequestReceived realPk).2.Notes (.struck realPk :: history) := by
  have hlength : (entries (.struck realPk :: history)).length = (entries history).length := by rw [entries, length_map]
  have hstrike := h.laidOut.strike realPk
  rw [FriendRequests.removeRequestReceived]
  split
  · rename_i i hfind
    have hi : fr.receivedRequests i = realPk := by simpa using find?_some hfind
    rw [← h.laidOut.clear_slot hi] at hstrike
    exact ⟨hstrike, .struck realPk h.fresh, by rw [hlength]; exact h.index⟩
  · rename_i hfind
    have hsame : clear .zero fr.receivedRequests realPk = fr.receivedRequests := by
      funext i
      exact if_neg fun hi => find?_eq_none.mp hfind i (mem_finRange i) (decide_eq_true hi)
    rw [hsame] at hstrike
    exact ⟨hstrike, .struck realPk h.fresh, by rw [hlength]; exact h.index⟩

/-- A request is unknown where it is not recent. -/
theorem Notes.requestReceived_eq_false (h : fr.Notes history) (hkey : realPk ≠ .zero) :
    fr.requestReceived realPk = false ↔ ¬Recent maxReceivedStored history realPk := by
  rw [← h.laidOut.mem_iff hkey, ← requestReceived_iff, Bool.not_eq_true]

/-- A request is reported exactly if nothing in it or about its sender is against it. -/
theorem friendreqHandlepacket_eq_some {nospam : UInt32} {filterFunction : Option (PublicKey → Bool)}
    {source : PublicKey} {packet message : Bytes} :
    (fr.friendreqHandlepacket nospam filterFunction source packet).1 = some message ↔
      (1 + 4 < packet.length ∧ packet.length ≤ onionClientMaxDataSize ∧
        (packet.drop 1).take 4 = hostToLendian32 nospam ∧
        packet.drop (1 + 4) = message) ∧
      fr.handleFriendrequestIsset = true ∧ fr.requestReceived source = false ∧
        (filterFunction.any fun accepts => !accepts source) = false := by
  rw [friendreqHandlepacket]
  split_ifs with hlength hisset hreceived hnospam hfilter
  · refine iff_of_false id fun h => ?_
    omega
  · refine iff_of_false id fun h => ?_
    rw [h.2.1] at hisset
    contradiction
  · refine iff_of_false id fun h => ?_
    rw [h.2.2.1] at hreceived
    contradiction
  · exact iff_of_false id fun h => hnospam h.1.2.2.1
  · refine iff_of_false id fun h => ?_
    rw [h.2.2.2] at hfilter
    contradiction
  · rw [Option.some_inj]
    rw [not_or, Nat.not_le, Nat.not_lt] at hlength
    constructor
    · intro hmessage
      exact ⟨⟨hlength.1, hlength.2, of_not_not hnospam, hmessage⟩, eq_true_of_ne_false hisset,
        eq_false_of_ne_true hreceived,
        eq_false_of_ne_true hfilter⟩
    · intro h
      exact h.1.2.2.2

/-- A request that is not reported changes nothing, and one that is reported is noted. -/
theorem friendreqHandlepacket_cases (fr : FriendRequests) (nospam : UInt32) (filterFunction : Option (PublicKey → Bool))
    (source : PublicKey) (packet : Bytes) :
    fr.friendreqHandlepacket nospam filterFunction source packet = (none, fr) ∨
      fr.requestReceived source = false ∧ ∃ message,
        fr.friendreqHandlepacket nospam filterFunction source packet = (some message, fr.addtoReceivedlist source) := by
  rw [friendreqHandlepacket]
  split_ifs with hlength hisset hreceived hnospam hfilter
  · exact .inl rfl
  · exact .inl rfl
  · exact .inl rfl
  · exact .inl rfl
  · exact .inl rfl
  · exact .inr ⟨eq_false_of_ne_true hreceived, _, rfl⟩

end FriendRequests

/-! ## Runs -/

namespace RequestMessenger

variable {sodium : Sodium} {m : Messenger} {s : RequestMessenger} {history : List (Mark PublicKey)}

/-- An event notes the sender of a request that is reported, and strikes out a friend that is deleted. -/
theorem exec_notes (h : s.fr.Notes history) (event : RequestEvent) :
    (s.exec sodium event).fr.Notes (s.marks event ++ history) := by
  cases event with
  | request source packet =>
    rcases s.fr.friendreqHandlepacket_cases s.messenger.nospam (some s.messenger.friendAlreadyAdded) source packet with
      hrefused | ⟨hkey, message, hreported⟩
    · rw [exec, marks, receive, hrefused]
      exact h
    · rw [exec, marks, receive, hreported]
      exact h.addtoReceivedlist hkey
  | callback => exact ⟨h.laidOut, h.fresh, h.index⟩
  | operation op =>
    rw [exec, marks]
    cases s.struckOut op with
    | none => exact h
    | some realPk => exact h.removeRequestReceived realPk

/-- A run notes its history. -/
theorem Run.notes (h : Run sodium m s history) : s.fr.Notes history := by
  induction h with
  | start => exact .zero
  | step _ event ih => exact exec_notes ih event

/-- After any events, a packet is reported as a request with a message exactly if the packet is one with the number
against spam and the message, requests are reported at all, its sender is no friend, and the sender is not among the
last 32 whose requests were reported and that were not deleted as friends since. -/
theorem request_reported_iff (h : Run sodium m s history) {source : PublicKey} (hsource : source ≠ .zero)
    (packet message : Bytes) :
    (s.receive source packet).1 = some message ↔
      (1 + 4 < packet.length ∧ packet.length ≤ onionClientMaxDataSize ∧
        (packet.drop 1).take 4 = hostToLendian32 s.messenger.nospam ∧ packet.drop (1 + 4) = message) ∧
      s.fr.handleFriendrequestIsset = true ∧ s.messenger.getfriendId source = none ∧
        ¬Recent maxReceivedStored history source := by
  have hfilter : ((some s.messenger.friendAlreadyAdded).any fun accepts => !accepts source) = false ↔
      s.messenger.getfriendId source = none := by
    rw [Option.any_some, Messenger.friendAlreadyAdded, Bool.not_eq_false', decide_eq_true_eq]
  rw [receive, FriendRequests.friendreqHandlepacket_eq_some, h.notes.requestReceived_eq_false hsource, hfilter,
    and_comm (a := ¬Recent maxReceivedStored history source)]

/-- Whatever happens, at least 32 requests are reported between two of one key, unless a friend with the key was
deleted in between. -/
theorem requests_apart (h : Run sodium m s history) : Apart maxReceivedStored history := h.notes.fresh.apart

/-- Events one after the other, with the reported and the deleted keys. -/
def follow (sodium : Sodium) : List RequestEvent → RequestMessenger × List (Mark PublicKey) →
    RequestMessenger × List (Mark PublicKey)
  | [], reached => reached
  | event :: events, (s, history) => follow sodium events (s.exec sodium event, s.marks event ++ history)

/-- Events that are followed are a run. -/
theorem Run.follow (h : Run sodium m s history) (events : List RequestEvent) :
    Run sodium m (RequestMessenger.follow sodium events (s, history)).1 (RequestMessenger.follow sodium events (s,
      history)).2 := by
  induction events generalizing s history with
  | nil => exact h
  | cons event events ih => exact ih (h.step event)

/-- A request with the message "hi", from a key of this byte. -/
def exampleRequest (byte : UInt8) : RequestEvent := .request (List.Vector.replicate 32 byte) [32, 7, 0, 0, 0, 104, 105]

/-- Requests of the keys 1 to 33, and again of 33 and of 1. Then 1 is added as a friend, and sends a request, before
it is deleted. -/
def exampleRequests : List RequestEvent :=
  .callback :: (List.range 33).map (fun n => exampleRequest (UInt8.ofNat (n + 1))) ++
    [exampleRequest 33, exampleRequest 1,
      .operation (.addfriendNorequest Messenger.calmEnv (List.Vector.replicate 32 1)),
      exampleRequest 1, .operation (.delfriend Messenger.calmEnv 0)]

/-- The messenger after these requests, with what was reported and deleted. -/
def exampleRequested :
    RequestMessenger × List (Mark PublicKey) := follow .plain exampleRequests (⟨Messenger.first, .zero⟩, [])

theorem exampleRequested_run : Run .plain Messenger.first exampleRequested.1 exampleRequested.2 :=
    Run.start.follow exampleRequests

/-- A request of the friend that was deleted is reported, and one of the last 32 is not. -/
theorem request_reported_again :
    (exampleRequested.1.receive (List.Vector.replicate 32 1) [32, 7, 0, 0, 0, 104, 105]).1 = some [104, 105] ∧
      (exampleRequested.1.receive (List.Vector.replicate 32 33) [32, 7, 0, 0, 0, 104, 105]).1 ≠ some [104, 105] := by
  refine ⟨(request_reported_iff exampleRequested_run (by decide) _ _).mpr ?_, fun h => ?_⟩
  · refine ⟨⟨by decide, by decide, by decide +kernel, rfl⟩, by decide +kernel, by decide +kernel, ?_⟩
    rw [recent_iff_entries]
    decide +kernel
  · obtain ⟨-, -, -, hrecent⟩ := (request_reported_iff exampleRequested_run (by decide) _ _).mp h
    rw [recent_iff_entries] at hrecent
    revert hrecent
    decide +kernel

/-- The second request of 1 is reported behind 32 others, and the last one as the friend was deleted. -/
theorem requests_apart_again :
    Apart maxReceivedStored (exampleRequested.1.marks (exampleRequest 1) ++ exampleRequested.2) ∧
      exampleRequested.1.marks (exampleRequest 1) ++ exampleRequested.2 =
        [.noted (List.Vector.replicate 32 1), .struck (List.Vector.replicate 32 1),
          .noted (List.Vector.replicate 32 1)] ++
          (List.range 33).reverse.map fun n => .noted (List.Vector.replicate 32 (UInt8.ofNat (n + 1))) :=
  ⟨requests_apart (exampleRequested_run.step (exampleRequest 1)), by decide +kernel⟩

end RequestMessenger

/-! ## Addresses -/

namespace Messenger

/-- The parts of the address of a messenger. -/
theorem getaddress_parts (m : Messenger) :
    slice 32 m.getaddress.toList 0 = m.world.net.selfPublicKey ∧
      lendianToHost32 (m.getaddress.toList.drop 32) = m.nospam ∧
      m.getaddress.toList.drop (32 + 4) = addressChecksum (m.getaddress.toList.take (32 + 4)) :=
  SavedFriend.address_parts { SavedFriend.ofFriend Friend.zero with
    realPk := m.world.net.selfPublicKey
    friendrequestNospam := m.nospam }

variable {address : Bytes} {i : ℕ}

/-- The checksum loop keeps sums apart. -/
theorem addressChecksumLoop_injective {sums sums' : UInt8 × UInt8}
    (h : addressChecksumLoop address sums = addressChecksumLoop address sums') : sums = sums' := by
  induction address, sums using addressChecksumLoop.induct generalizing sums' with
  | case1 sums => exact h
  | case2 byte first second =>
    obtain ⟨hfirst, hsecond⟩ := Prod.mk.inj h
    exact Prod.ext ((UInt8.xor_left_inj _).mp hfirst) hsecond
  | case3 byte byte' address first second ih =>
    obtain ⟨hfirst, hsecond⟩ := Prod.mk.inj (ih h)
    exact Prod.ext ((UInt8.xor_left_inj _).mp hfirst) ((UInt8.xor_left_inj _).mp hsecond)

/-- A byte that is changed changes the checksum. -/
theorem addressChecksumLoop_set (sums : UInt8 × UInt8) {byte : UInt8} (hi : i < address.length)
    (hbyte : address[i] ≠ byte) :
    addressChecksumLoop (address.set i byte) sums ≠ addressChecksumLoop address sums := by
  induction address, sums using addressChecksumLoop.induct generalizing i with
  | case1 sums => exact absurd hi (Nat.not_lt_zero i)
  | case2 first sum sum' =>
    intro h
    obtain rfl : i = 0 := Nat.lt_one_iff.mp hi
    exact hbyte ((UInt8.xor_right_inj _).mp (Prod.mk.inj h).1).symm
  | case3 first second address sum sum' ih =>
    intro h
    cases i with
    | zero => exact hbyte ((UInt8.xor_right_inj _).mp (Prod.mk.inj (addressChecksumLoop_injective h)).1).symm
    | succ i =>
      cases i with
      | zero => exact hbyte ((UInt8.xor_right_inj _).mp (Prod.mk.inj (addressChecksumLoop_injective h)).2).symm
      | succ i => exact ih (Nat.lt_of_succ_lt_succ (Nat.lt_of_succ_lt_succ hi)) hbyte h

/-- A changed byte changes the checksum. -/
theorem addressChecksum_set {byte : UInt8} (hi : i < address.length) (hbyte : address[i] ≠ byte) :
    addressChecksum (address.set i byte) ≠ addressChecksum address := by
  intro h
  obtain ⟨hfirst, hsecond⟩ := List.cons.inj h
  exact addressChecksumLoop_set (0, 0) hi hbyte (Prod.ext hfirst (List.cons.inj hsecond).1)

/-- An address with one byte that is not right is not added. -/
theorem corrupted_address_refused (sodium : Sodium) (env : MessengerEnv) (m m' : Messenger) {i : Fin friendAddressSize}
    {byte : UInt8}
    (hbyte : m'.getaddress.get i ≠ byte) {data : Bytes} (hdata : data.length ≤ maxFriendRequestDataSize) :
    m.mAddfriend sodium env (m'.getaddress.set i byte) data = (.error .badchecksum, m) := by
  obtain ⟨-, -, hchecksum⟩ := m'.getaddress_parts
  have hlength : m'.getaddress.toList.length = 38 := m'.getaddress.toList_length
  have hi : i.val < 38 := i.isLt
  have hget : m'.getaddress.toList[i.val] ≠ byte := by
    rw [List.Vector.get_eq_get_toList] at hbyte
    exact hbyte
  have hset : (m'.getaddress.set i byte).toList = m'.getaddress.toList.set i byte := List.Vector.toList_set _ _ _
  have hwrong :
    (m'.getaddress.set i byte).toList.drop (32 + 4) ≠
      addressChecksum ((m'.getaddress.set i byte).toList.take (32 + 4)) := by
    rw [hset]
    intro h
    by_cases hfront : i.val < 36
    · rw [drop_set_of_lt hfront, take_set, hchecksum] at h
      refine addressChecksum_set ?_ ?_ h.symm
      · rw [length_take]
        omega
      · rw [getElem_take]
        exact hget
    · rw [take_set_of_le (Nat.le_of_not_lt hfront), ← hchecksum, drop_set, if_neg hfront] at h
      have hbytes : _[i.val - 36]? = _[i.val - 36]? := congrArg (fun bytes : Bytes => bytes[i.val - 36]?) h
      rw [getElem?_set_self (by rw [length_drop]; omega), getElem?_drop,
        Nat.add_sub_cancel' (Nat.le_of_not_lt hfront),
        getElem?_eq_getElem (by omega)] at hbytes
      exact hget (Option.some.inj hbytes).symm
  rw [mAddfriend]
  dsimp only
  rw [if_neg (Nat.not_lt.mpr hdata)]
  by_cases hvalid : publicKeyValid (slice 32 (m'.getaddress.set i byte).toList 0) = false
  · rw [if_pos hvalid]
  · rw [if_neg hvalid, if_pos hwrong]

/-- A byte of the number against spam is wrong. -/
theorem corrupted_address_refused_first :
    first.mAddfriend .plain calmEnv (first.getaddress.set 33 1) [104] = (.error .badchecksum, first) :=
  corrupted_address_refused .plain calmEnv first first (i := 33) (by decide) (by decide)

/-! ## From an address to the request -/

/-- The place of a friend that was added. -/
theorem Takes.get {friendlist friendlist' : List Friend} {friendconId : ℕ} {realPk : PublicKey}
    {status : FriendStatus} (h : Takes friendlist i friendconId realPk status friendlist') :
    ∃ friend, friendlist'[i]? = some (initFriend friend friendconId realPk status) := by
  cases h with
  | free hfriend =>
    obtain ⟨hlt, -⟩ := List.getElem?_eq_some_iff.mp hfriend
    exact ⟨_, getElem?_set_self hlt⟩
  | fresh hi =>
    subst hi
    exact ⟨.zero, getElem?_concat_length⟩

/-- A friend that is added with an address has the parts of the address, and the data for the request. -/
theorem mAddfriend_ok {sodium : Sodium} {env : MessengerEnv} {m m' : Messenger} {address : Block friendAddressSize}
    {data : Bytes} {number : ℕ} (h : m.mAddfriend sodium env address data = (.ok number, m')) :
    data.length ≠ 0 ∧ data.length ≤ maxFriendRequestDataSize ∧ ∃ friend, m'.getFriend number = some friend ∧
      friend.status = .added ∧ friend.realPk = slice 32 address.toList 0 ∧
      friend.friendrequestNospam = lendianToHost32 (address.toList.drop 32) ∧ friend.info = data := by
  unfold mAddfriend at h
  dsimp only at h
  split at h
  · cases h
  rename_i hlong
  split at h
  · cases h
  split at h
  · cases h
  split at h
  · cases h
  rename_i hshort
  split at h
  · cases h
  split at h
  · split at h
    · cases h
    · split at h
      · cases h
      · cases h
  split at h
  · cases h
  rename_i ret m₂ hinit
  obtain ⟨hret, rfl⟩ := Prod.mk.inj h
  obtain rfl := Except.ok.inj hret
  obtain ⟨-, ⟨hnone, -⟩ | ⟨i, friendconId, hi, htakes⟩⟩ := initNewFriend_cases hinit
  · contradiction
  · obtain rfl := Option.some.inj hi
    obtain ⟨friend, hget⟩ := htakes.get
    have hfriend : m₂.getFriend ret = some (initFriend friend friendconId (slice 32 address.toList 0) .added) :=
      getFriend_eq_some.mpr ⟨hget, FriendStatus.noConfusion⟩
    have hsome : data.length ≠ 0 := by omega
    exact ⟨hsome, Nat.le_of_not_lt hlong, _, getFriend_modifyFriend_self hfriend FriendStatus.noConfusion, rfl, rfl,
      rfl, rfl⟩

/-- The address of a messenger can be added by one whose friend list has no free places. -/
theorem mAddfriend_getaddress (sodium : Sodium) {env : MessengerEnv} {m owner : Messenger} (henv : env.Succeeds)
    (hused : ∀ friend ∈ m.friendlist, friend.status ≠ .nofriend)
    (hvalid : publicKeyValid owner.world.net.selfPublicKey = true)
    (hother : owner.world.net.selfPublicKey ≠ m.world.net.selfPublicKey)
    (hnew : m.getfriendId owner.world.net.selfPublicKey = none) {data : Bytes} (hsome : data.length ≠ 0)
    (hfits : data.length ≤ maxFriendRequestDataSize) :
    ∃ m', m.mAddfriend sodium env owner.getaddress data = (.ok m.friendlist.length, m') := by
  obtain ⟨hkey, -, hchecksum⟩ := owner.getaddress_parts
  obtain ⟨friendconId, m', hinit, -, -⟩ := initNewFriend_append sodium henv hused owner.world.net.selfPublicKey .added
  have hlong : ¬data.length < 1 := by omega
  rw [mAddfriend]
  dsimp only
  rw [hkey, if_neg (Nat.not_lt.mpr hfits), if_neg (by rw [hvalid]; exact Bool.noConfusion),
    if_neg (not_not_intro hchecksum),
    if_neg hlong, if_neg hother, hnew]
  dsimp only
  rw [hinit]
  exact ⟨_, rfl⟩

end Messenger

/-- The packet with the request to a friend. -/
def friendRequestPacket (packetId : UInt8) (friend : Friend) : Bytes :=
  packetId :: ((hostBytes32 friend.friendrequestNospam).toList ++ friend.info)

/-- The packets that a request is sent in: directly to a friend that is connected, and through the onion to others. -/
structure RequestSent (sodium : Sodium) (env : RequestEnv sodium) (w : FriendWorld) (friend : Friend) : Prop where
  direct : ∀ friendCon, w.app.getConn friend.friendconId = some friendCon → friendCon.status = .connected →
    (sendFriendRequestPacket sodium env w friend.friendconId friend.friendrequestNospam friend.info).queued =
      (writeFriendPacket sodium env.below w.net friendCon.cryptConnectionId
        (friendRequestPacket packetIdFriendRequests friend)).1
  onion : ∀ friendCon, w.app.getConn friend.friendconId = some friendCon → friendCon.status ≠ .connected →
    (sendFriendRequestPacket sodium env w friend.friendconId friend.friendrequestNospam friend.info).routed =
      (env.onionDataSent sodium w.app.onionC friendCon.onionFriendnum
        (friendRequestPacket cryptoPacketFriendReq friend)).getD 0

/-- A friend that is added sends its request. -/
theorem requestSent (sodium : Sodium) (env : RequestEnv sodium) (w : FriendWorld) {friend : Friend}
    (hsome : friend.info.length ≠ 0)
    (hfits : friend.info.length ≤ maxFriendRequestDataSize) : RequestSent sodium env w friend := by
  have hsizes : maxFriendRequestDataSize + 5 = onionClientMaxDataSize := rfl
  have hsent : ¬(1 + 4 + friend.info.length > onionClientMaxDataSize ∨ friend.info.length = 0) := by omega
  constructor
  · intro friendCon hconn hconnected
    rw [sendFriendRequestPacket, if_neg hsent, hconn]
    dsimp only
    rw [if_pos hconnected]
    rfl
  · intro friendCon hconn hother
    rw [sendFriendRequestPacket, if_neg hsent, hconn]
    dsimp only
    rw [if_neg hother, friendRequestPacket]
    split
    · rename_i hnone
      rw [hnone]
      rfl
    · rename_i hnum
      rw [hnum]
      rfl

namespace RequestMessenger

variable {sodium : Sodium} {m : Messenger} {s : RequestMessenger} {history : List (Mark PublicKey)}

/-- A friend that is added with the address of a messenger has the key of that messenger. The packets of the request
carry the data that was given, and the messenger reports them while it has the number of the address, reports requests
at all, and neither has the sender as a friend nor reported a request of it lately. -/
theorem address_request_reported (h : Run sodium m s history) {owner asker asker' : Messenger} {env : MessengerEnv}
    {data : Bytes} {number : ℕ} (hadd : asker.mAddfriend sodium env owner.getaddress data = (.ok number, asker'))
    (hnospam : s.messenger.nospam = owner.nospam) (hisset : s.fr.handleFriendrequestIsset = true) (source : PublicKey)
    (hsource : source ≠ .zero) (hfriend : s.messenger.getfriendId source = none)
    (hrecent : ¬Recent maxReceivedStored history source) :
    ∃ friend, asker'.getFriend number = some friend ∧ friend.realPk = owner.world.net.selfPublicKey ∧
      (∀ env w, RequestSent sodium env w friend) ∧
      ∀ packetId, (s.receive source (friendRequestPacket packetId friend)).1 = some data := by
  obtain ⟨hsome, hfits, friend, hget, -, hpk, hnumber, rfl⟩ := Messenger.mAddfriend_ok hadd
  obtain ⟨hkey, hparts, -⟩ := owner.getaddress_parts
  rw [hkey] at hpk
  rw [hparts] at hnumber
  refine ⟨friend, hget, hpk, fun env w => requestSent sodium env w hsome hfits, fun packetId => ?_⟩
  have hsizes : maxFriendRequestDataSize + 5 = onionClientMaxDataSize := rfl
  have hlength : (friendRequestPacket packetId friend).length = 5 + friend.info.length := by
    rw [friendRequestPacket, length_cons, length_append, List.Vector.toList_length]
    omega
  have hfour : (hostBytes32 friend.friendrequestNospam).toList.length = 4 := List.Vector.toList_length _
  refine FriendRequests.friendreqHandlepacket_eq_some.mpr
    ⟨⟨?_, ?_, ?_, ?_⟩, hisset, (h.notes.requestReceived_eq_false hsource).mpr hrecent, ?_⟩
  · omega
  · omega
  · rw [hnospam, ← hnumber]
    exact take_left' hfour
  · exact drop_left' hfour
  · rw [Option.any_some, Messenger.friendAlreadyAdded, decide_eq_true hfriend]
    rfl

/-- A messenger with another key than the first one. -/
def other : Messenger :=
  { Messenger.first with
    world := { Messenger.first.world with
      net := { Messenger.first.world.net with selfPublicKey := List.Vector.replicate 32 1 } } }

/-- The first messenger is asked by another one. -/
theorem address_request_reported_first :
    ∃ asker' friend, other.mAddfriend .plain Messenger.calmEnv Messenger.first.getaddress [104, 105] = (.ok 0, asker') ∧
      asker'.getFriend 0 = some friend ∧ friend.realPk = Messenger.first.world.net.selfPublicKey ∧
      (∀ env w, RequestSent .plain env w friend) ∧
      ∀ packetId, (((⟨Messenger.first, .zero⟩ :
        RequestMessenger).exec .plain .callback).receive (List.Vector.replicate 32 1)
        (friendRequestPacket packetId friend)).1 = some [104, 105] := by
  have hasked :
    ∃ asker', other.mAddfriend .plain Messenger.calmEnv Messenger.first.getaddress [104, 105] = (.ok 0, asker') :=
    Messenger.mAddfriend_getaddress .plain ⟨rfl, rfl, rfl⟩ (fun _ h => absurd h not_mem_nil) (by decide) (by decide) rfl
      (by decide) (by decide)
  obtain ⟨asker', hadd⟩ := hasked
  obtain ⟨friend, hfriend⟩ :=
    address_request_reported (.step .start .callback) hadd rfl rfl (List.Vector.replicate 32 1) (by decide)
    rfl recent_nil
  exact ⟨asker', friend, hadd, hfriend⟩

end RequestMessenger

end Toxcore
