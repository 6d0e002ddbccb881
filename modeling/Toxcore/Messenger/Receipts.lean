import Toxcore.NetCrypto.Lossless

/-!
# Read receipts

A message that was sent waits in a queue for the peer to report that it has the packet with the message. The queue is
emptied from the front, and thrown away when the friend goes offline; a connection that is made anew counts its
packets from zero.
-/

namespace Toxcore

open ByteStrings RingWindow List Option

/-- `PACKET_ID_ONLINE`. -/
def packetIdOnline : UInt8 := 24

/-- `PACKET_ID_MESSAGE`. -/
def packetIdMessage : UInt8 := 64

/-- `MESSAGE_ACTION`, the last of the types of messages. -/
def messageAction : UInt8 := 1

/-- `struct Receipts`. -/
structure Receipt where
  packetNum : UInt32
  msgId : UInt32

/-- The fields of `Friend` for messages, with the send array of the connection to the friend. There is none while
`friend_connection_crypt_connection_id` is -1. -/
structure MessageFriend where
  online : Bool
  messageId : UInt32
  receipts : List Receipt
  connection : Option PacketsArray

/-- `cryptpacket_received` for a connection that exists. -/
def cryptpacketReceived (sendArray : PacketsArray) (packetNumber : UInt32) : Bool :=
  sendArray.bufferEnd - sendArray.bufferStart < packetNumber - sendArray.bufferStart

namespace MessageFriend

variable (f : MessageFriend)

/-- `clear_receipts`. -/
def clearReceipts : MessageFriend := { f with receipts := [] }

/-- `add_receipt`; the allocation may fail. -/
def addReceipt (alloc : Bool) (packetNum msgId : UInt32) : MessageFriend :=
  if alloc then { f with receipts := f.receipts ++ [⟨packetNum, msgId⟩] } else f

/-- `friend_received_packet`. -/
def friendReceivedPacket (number : UInt32) : Bool :=
  match f.connection with
  | none => false
  | some sendArray => cryptpacketReceived sendArray number

/-- The loop of `do_receipts`: the messages for which `read_receipt` is called, and the receipts that stay. -/
def doReceiptsLoop (received : UInt32 → Bool) : List Receipt → List Receipt × List Receipt
  | [] => ([], [])
  | receipt :: rest =>
    if received receipt.packetNum then (receipt :: (doReceiptsLoop received rest).1, (doReceiptsLoop received rest).2)
    else ([], receipt :: rest)

/-- `do_receipts`. -/
def doReceipts : List UInt32 × MessageFriend :=
  let (called, left) := doReceiptsLoop f.friendReceivedPacket f.receipts
  (called.map Receipt.msgId, { f with receipts := left })

/-- `write_cryptpacket` on the connection to the friend, without congestion control. -/
def writeCryptpacket (alloc : Bool) (packet : Bytes) : Option (UInt32 × MessageFriend) :=
  match packet.head?, f.connection with
  | some packetId, some sendArray =>
    if packetId < cryptoReservedPackets ∨ packetId ≥ packetIdLossyRangeStart then none
    else if packet.length > maxCryptoDataSize then none
    else (addDataEndOfBuffer alloc sendArray ⟨0, packet⟩).map fun (number, sendArray) =>
      (number, { f with connection := some sendArray })
  | _, _ => none

/-- `m_send_message_generic`, with the number of the packet that carries the message. -/
def mSendMessageGeneric (writeAlloc receiptAlloc : Bool) (type : UInt8) (message : Bytes) :
    ℤ × Option UInt32 × MessageFriend :=
  if type > messageAction then (-5, none, f)
  else if message.length ≥ maxCryptoDataSize then (-2, none, f)
  else if f.online = false then (-3, none, f)
  else
    match f.writeCryptpacket writeAlloc ((type + packetIdMessage) :: message) with
    | none => (-4, none, f)
    | some (packetNum, f) =>
      let msgId := f.messageId + 1
      (0, some packetNum, addReceipt { f with messageId := msgId } receiptAlloc packetNum msgId)

/-- `send_online_packet`. -/
def sendOnlinePacket (alloc : Bool) : MessageFriend :=
  ((f.writeCryptpacket alloc [packetIdOnline]).map Prod.snd).getD f

/-- `set_friend_status`, with `check_friend_connectionstatus`, for a friend that is online or confirmed. -/
def setFriendStatus (online : Bool) : MessageFriend :=
  if online ≠ f.online ∧ f.online then { f.clearReceipts with online := online } else { f with online := online }

/-- The `buffer_start` of a packet of the peer, in `handle_data_packet_helper`. -/
def acknowledge (bufferStart : UInt32) : MessageFriend :=
  match f.connection with
  | none => f
  | some sendArray =>
    if bufferStart = sendArray.bufferStart then f
    else
      match clearBufferUntil sendArray bufferStart with
      | none => f
      | some sendArray => { f with connection := some sendArray }

/-- The connection is established, and `handle_status` is called. -/
def connected (alloc : Bool) : MessageFriend :=
  match f.connection with
  | some _ => f
  | none => sendOnlinePacket { f with connection := some (.emptyAt 0) } alloc

/-- The connection is lost, and `handle_status` is called. -/
def disconnected : MessageFriend :=
  let f := { f with connection := none }
  if f.online then f.setFriendStatus false else f

/-- `handle_packet` for the packet that starts a session; it needs a connection to arrive. -/
def handleOnline (alloc : Bool) : MessageFriend :=
  if f.connection.isSome ∧ f.online = false then (f.setFriendStatus true).sendOnlinePacket alloc else f

/-- `handle_packet` for the packet that ends a session. -/
def handleOffline : MessageFriend := if f.online then f.setFriendStatus false else f

/-- The connection has carried fewer than 2^31 packets. -/
def Short : Prop := ∀ sendArray ∈ f.connection, sendArray.bufferEnd.toNat < 2 ^ 31

end MessageFriend

/-! ## Runs -/

/-- A message that was sent: the connection it was sent on, how often the friend had gone offline then, the number of
its packet and its id. -/
structure SentMessage where
  session : ℕ
  offlines : ℕ
  packetNum : UInt32
  msgId : UInt32

/-- A call of `read_receipt`, with what the peer had reported on the connection until then. -/
structure ReceiptCall where
  session : ℕ
  offlines : ℕ
  reports : List UInt32
  msgId : UInt32

/-- A friend, and what happened: the connections made, how often the friend went offline, the numbers `buffer_start`
that the peer sent on the connection, the messages that were sent and the calls of `read_receipt`. -/
structure MessageTrace where
  friend : MessageFriend
  session : ℕ
  offlines : ℕ
  reports : List UInt32
  messages : List SentMessage
  calls : List ReceiptCall

/-- What happens to a friend. -/
inductive MessageStep where
  | message (writeAlloc receiptAlloc : Bool) (type : UInt8) (text : Bytes)
  | write (alloc : Bool) (packet : Bytes)
  | acknowledge (bufferStart : UInt32)
  | receipts
  | connected (alloc : Bool)
  | disconnected
  | online (alloc : Bool)
  | offline

/-- A friend that changed; it may have gone offline. -/
def MessageTrace.become (t : MessageTrace) (f : MessageFriend) : MessageTrace :=
  { t with friend := f, offlines := if t.friend.online ∧ f.online = false then t.offlines + 1 else t.offlines }

/-- A friend after something happened. -/
def MessageStep.exec (step : MessageStep) (t : MessageTrace) : MessageTrace :=
  match step with
  | .message writeAlloc receiptAlloc type text =>
    match t.friend.mSendMessageGeneric writeAlloc receiptAlloc type text with
    | (_, none, f) => { t with friend := f }
    | (_, some packetNum, f) =>
      { t with friend := f, messages := t.messages ++ [⟨t.session, t.offlines, packetNum, f.messageId⟩] }
  | .write alloc packet => { t with friend := ((t.friend.writeCryptpacket alloc packet).map Prod.snd).getD t.friend }
  | .acknowledge bufferStart =>
    { t with friend := t.friend.acknowledge bufferStart, reports := t.reports ++ [bufferStart] }
  | .receipts =>
    { t with
      friend := t.friend.doReceipts.2
      calls := t.calls ++ t.friend.doReceipts.1.map fun msgId => ⟨t.session, t.offlines, t.reports, msgId⟩ }
  | .connected alloc =>
    { t with
      friend := t.friend.connected alloc
      session := if t.friend.connection.isNone then t.session + 1 else t.session
      reports := if t.friend.connection.isNone then [] else t.reports }
  | .disconnected => t.become t.friend.disconnected
  | .online alloc => t.become (t.friend.handleOnline alloc)
  | .offline => t.become t.friend.handleOffline

/-- A friend that was added. -/
def MessageTrace.new : MessageTrace := ⟨⟨false, 0, [], none⟩, 0, 0, [], [], []⟩

/-- What can have happened while each connection carried fewer than 2^31 packets. -/
inductive MessageTrace.Reachable : MessageTrace → Prop
  | new : Reachable .new
  | step (t : MessageTrace) (h : Reachable t) (step : MessageStep) (hshort : (step.exec t).friend.Short) :
    Reachable (step.exec t)

/-! ## Receipts are truthful -/

/-- The call confirms the message: it has its id, the friend has not been offline since, and the peer has reported on
the same connection that its `buffer_start` has passed the packet. -/
def ReceiptCall.Confirms (message : SentMessage) (call : ReceiptCall) : Prop :=
  call.msgId = message.msgId ∧ call.session = message.session ∧ call.offlines = message.offlines ∧
    ∃ bufferStart ∈ call.reports, message.packetNum < bufferStart

/-- A receipt that waits for the given message. -/
def MessageTrace.Awaits (t : MessageTrace) (message : SentMessage) (receipt : Receipt) : Prop :=
  message.packetNum = receipt.packetNum ∧ message.msgId = receipt.msgId ∧ message.session = t.session ∧
    message.offlines = t.offlines

/-- The send array of a connection that counts from zero, and what the peer reported on it. -/
structure Counted (sendArray : PacketsArray) (reports : List UInt32) : Prop where
  start_le : sendArray.bufferStart.toNat ≤ sendArray.bufferEnd.toNat
  start_reported : sendArray.bufferStart = 0 ∨ sendArray.bufferStart ∈ reports
  short : sendArray.bufferEnd.toNat < 2 ^ 31

/-- What holds whatever happened to a friend. -/
structure MessageTrace.Sound (t : MessageTrace) (confirmed pending : List SentMessage) : Prop where
  sublist : (confirmed ++ pending).Sublist t.messages
  confirms : List.Forall₂ ReceiptCall.Confirms confirmed t.calls
  awaits : List.Forall₂ t.Awaits pending t.friend.receipts
  online_of_receipts : t.friend.receipts ≠ [] → t.friend.online = true
  connected_of_online : t.friend.online = true → t.friend.connection.isSome
  counted : ∀ sendArray ∈ t.friend.connection, Counted sendArray t.reports
  session_le : ∀ message ∈ t.messages, message.session ≤ t.session
  ids : ∀ sendArray ∈ t.friend.connection, ∀ message ∈ t.messages, message.session = t.session →
    offset message.msgId t.friend.messageId + message.packetNum.toNat < sendArray.bufferEnd.toNat
  distinct : t.messages.Pairwise fun m m' => m.session = m'.session → m.msgId ≠ m'.msgId

variable {number : UInt32} {f : MessageFriend} {packet : Bytes}

/-- A packet of a short connection that was received has been passed by `buffer_start`. -/
theorem cryptpacketReceived_passed {sendArray : PacketsArray} {reports : List UInt32} (h : Counted sendArray reports)
    (hsent : number.toNat < sendArray.bufferEnd.toNat) (hreceived : cryptpacketReceived sendArray number = true) :
    number.toNat < sendArray.bufferStart.toNat := by
  have hstart := h.start_le
  have hshort := h.short
  by_contra hle
  have hend := UInt32.toNat_sub_of_le sendArray.bufferEnd sendArray.bufferStart (UInt32.le_iff_toNat_le.mpr hstart)
  have hnumber := UInt32.toNat_sub_of_le number sendArray.bufferStart (UInt32.le_iff_toNat_le.mpr (not_lt.mp hle))
  simp only [cryptpacketReceived, decide_eq_true_eq, UInt32.lt_iff_toNat_lt, hend, hnumber] at hreceived
  omega

/-- What writing a packet does. -/
theorem writeCryptpacket_cases {f' : MessageFriend} {alloc : Bool}
    (h : f.writeCryptpacket alloc packet = some (number, f')) :
    ∃ sendArray sendArray', f.connection = some sendArray ∧ f' = { f with connection := some sendArray' } ∧
      number = sendArray.bufferEnd ∧ sendArray'.bufferStart = sendArray.bufferStart ∧
      sendArray'.bufferEnd = sendArray.bufferEnd + 1 := by
  unfold MessageFriend.writeCryptpacket at h
  split at h
  · rename_i packetId sendArray _ hconnection
    split_ifs at h
    simp only [map_eq_some_iff, addDataEndOfBuffer] at h
    obtain ⟨⟨n, array⟩, hadd, heq⟩ := h
    split_ifs at hadd
    cases hadd
    cases heq
    exact ⟨sendArray, _, hconnection, rfl, rfl, rfl, rfl⟩
  · cases h

/-- What a report of the peer does. -/
theorem acknowledge_cases (f : MessageFriend) (bufferStart : UInt32) :
    f.acknowledge bufferStart = f ∨
      ∃ sendArray sendArray', f.connection = some sendArray ∧
        f.acknowledge bufferStart = { f with connection := some sendArray' } ∧ sendArray'.bufferStart = bufferStart ∧
        sendArray'.bufferEnd = sendArray.bufferEnd ∧
        offset sendArray.bufferStart bufferStart ≤ offset sendArray.bufferStart sendArray.bufferEnd := by
  unfold MessageFriend.acknowledge
  cases hconnection : f.connection with
  | none => exact .inl rfl
  | some sendArray =>
    simp only [clearBufferUntil]
    split_ifs with hsame hrange
    · exact .inl rfl
    · exact .inl rfl
    · exact .inr ⟨sendArray, _, rfl, rfl, rfl, rfl, not_lt.mp (not_or.mp hrange).2⟩

/-- The receipts that are called come first, and their packets were received. -/
theorem doReceiptsLoop_eq (received : UInt32 → Bool) (receipts : List Receipt) :
    (MessageFriend.doReceiptsLoop received receipts).1 ++ (MessageFriend.doReceiptsLoop received receipts).2 =
      receipts ∧
      ∀ receipt ∈ (MessageFriend.doReceiptsLoop received receipts).1, received receipt.packetNum = true := by
  induction receipts with
  | nil => exact ⟨rfl, nofun⟩
  | cons receipt rest ih =>
    simp only [MessageFriend.doReceiptsLoop]
    split_ifs with hreceived
    · refine ⟨by rw [cons_append, ih.1], fun r hr => ?_⟩
      obtain rfl | hr := mem_cons.mp hr
      · exact hreceived
      · exact ih.2 r hr
    · exact ⟨rfl, nofun⟩

namespace MessageTrace.Sound

variable {t : MessageTrace} {confirmed pending : List SentMessage}

/-- A packet is written. -/
theorem write (h : t.Sound confirmed pending) {f : MessageFriend} {alloc : Bool} {packet : Bytes} {number : UInt32}
    (hwrite : t.friend.writeCryptpacket alloc packet = some (number, f)) (hshort : f.Short) :
    Sound { t with friend := f } confirmed pending := by
  obtain ⟨sendArray, sendArray', hconnection, rfl, -, hstart, hend⟩ := writeCryptpacket_cases hwrite
  have hcounted := h.counted sendArray hconnection
  have hend' : sendArray'.bufferEnd.toNat = sendArray.bufferEnd.toNat + 1 := by
    have := hcounted.short
    rw [hend, UInt32.toNat_add]
    change (sendArray.bufferEnd.toNat + 1) % 2 ^ 32 = _
    omega
  refine { h with connected_of_online := fun _ => rfl, counted := ?_, ids := ?_ }
  · intro array harray
    obtain rfl : sendArray' = array := some_injective _ harray
    refine ⟨?_, by rw [hstart]; exact hcounted.start_reported, hshort _ harray⟩
    have := hcounted.start_le
    rw [hstart]
    omega
  · intro array harray message hmessage hsession
    obtain rfl : sendArray' = array := some_injective _ harray
    have := h.ids sendArray hconnection message hmessage hsession
    rw [hend']
    exact Nat.lt_succ_of_lt this

/-- A packet may be written. -/
theorem write_getD (h : t.Sound confirmed pending) {alloc : Bool}
    (hshort : (((t.friend.writeCryptpacket alloc packet).map Prod.snd).getD t.friend).Short) :
    Sound { t with friend := ((t.friend.writeCryptpacket alloc packet).map Prod.snd).getD t.friend } confirmed
      pending := by
  cases hwrite : t.friend.writeCryptpacket alloc packet with
  | none => exact h
  | some result =>
    rw [hwrite] at hshort
    exact h.write hwrite hshort

/-- A message is sent. -/
theorem message (h : t.Sound confirmed pending) {writeAlloc : Bool} (receiptAlloc : Bool)
    (honline : t.friend.online = true) (hwrite : t.friend.writeCryptpacket writeAlloc packet = some (number, f))
    (hshort : f.Short) :
    ∃ pending', Sound
      { t with
        friend := { f with messageId := f.messageId + 1 }.addReceipt receiptAlloc number (f.messageId + 1)
        messages := t.messages ++ [⟨t.session, t.offlines, number, f.messageId + 1⟩] } confirmed pending' := by
  have hwritten := h.write hwrite hshort
  obtain ⟨sendArray, sendArray', hconnection, rfl, rfl, hstart, hend⟩ := writeCryptpacket_cases hwrite
  have hend' : sendArray'.bufferEnd.toNat = sendArray.bufferEnd.toNat + 1 := by
    have := (h.counted sendArray hconnection).short
    rw [hend, UInt32.toNat_add]
    change (sendArray.bufferEnd.toNat + 1) % 2 ^ 32 = _
    omega
  have hnext (message : SentMessage) (hmessage : message ∈ t.messages) (hsession : message.session = t.session) :
      offset message.msgId (t.friend.messageId + 1) = offset message.msgId t.friend.messageId + 1 := by
    have hids := h.ids sendArray hconnection message hmessage hsession
    have hcount := (h.counted sendArray hconnection).short
    exact offset_succ (by omega)
  have hsession : ∀ message ∈ t.messages ++ [⟨t.session, t.offlines, sendArray.bufferEnd, t.friend.messageId + 1⟩],
      message.session ≤ t.session := by
    intro message hmessage
    obtain hmessage | hmessage := mem_append.mp hmessage
    · exact h.session_le message hmessage
    · rw [mem_singleton.mp hmessage]
  have hids : ∀ array ∈ some sendArray',
      ∀ message ∈ t.messages ++ [⟨t.session, t.offlines, sendArray.bufferEnd, t.friend.messageId + 1⟩],
      message.session = t.session →
        offset message.msgId (t.friend.messageId + 1) + message.packetNum.toNat < array.bufferEnd.toNat := by
    rintro array harray message hmessage hsame
    obtain rfl : sendArray' = array := some_injective _ harray
    rw [hend']
    obtain hmessage | hmessage := mem_append.mp hmessage
    · have hids := h.ids sendArray hconnection message hmessage hsame
      rw [hnext message hmessage hsame]
      omega
    · rw [mem_singleton.mp hmessage]
      simp
  have hdistinct : List.Pairwise (fun m m' : SentMessage => m.session = m'.session → m.msgId ≠ m'.msgId)
      (t.messages ++ [⟨t.session, t.offlines, sendArray.bufferEnd, t.friend.messageId + 1⟩]) := by
    refine pairwise_append.mpr ⟨h.distinct, pairwise_singleton _ _,
      fun message hmessage message' hnew hsame heq => ?_⟩
    rw [mem_singleton.mp hnew] at hsame heq
    have hoffset := hnext message hmessage hsame
    have heq : message.msgId = t.friend.messageId + 1 := heq
    rw [← heq, offset_self] at hoffset
    omega
  cases receiptAlloc with
  | false =>
    exact ⟨pending, h.sublist.trans (sublist_append_left _ _), h.confirms, h.awaits, h.online_of_receipts,
      fun _ => rfl, hwritten.counted, hsession, hids, hdistinct⟩
  | true =>
    refine ⟨pending ++ [⟨t.session, t.offlines, sendArray.bufferEnd, t.friend.messageId + 1⟩], ?_, h.confirms, ?_,
      fun _ => honline, fun _ => rfl, hwritten.counted, hsession, hids, hdistinct⟩
    · rw [← append_assoc]
      exact h.sublist.append (List.Sublist.refl _)
    · have hlast : List.Forall₂ t.Awaits [⟨t.session, t.offlines, sendArray.bufferEnd, t.friend.messageId + 1⟩]
          [⟨sendArray.bufferEnd, t.friend.messageId + 1⟩] := .cons ⟨rfl, rfl, rfl, rfl⟩ .nil
      exact rel_append h.awaits hlast

/-- The peer reports. -/
theorem acknowledge (h : t.Sound confirmed pending) (bufferStart : UInt32) :
    Sound { t with friend := t.friend.acknowledge bufferStart, reports := t.reports ++ [bufferStart] } confirmed
      pending := by
  have hmore (sendArray : PacketsArray) (hcounted : Counted sendArray t.reports) :
      Counted sendArray (t.reports ++ [bufferStart]) :=
    ⟨hcounted.start_le, hcounted.start_reported.imp_right (mem_append_left _), hcounted.short⟩
  obtain hsame | ⟨sendArray, sendArray', hconnection, hnext, hstart, hend, hrange⟩ :=
    acknowledge_cases t.friend bufferStart
  · rw [hsame]
    exact { h with counted := fun array harray => hmore array (h.counted array harray) }
  · rw [hnext]
    have hcounted := h.counted sendArray hconnection
    refine { h with connected_of_online := fun _ => rfl, counted := ?_, ids := ?_ }
    · intro array harray
      obtain rfl : sendArray' = array := some_injective _ harray
      refine ⟨?_, .inr ?_, by rw [hend]; exact hcounted.short⟩
      · have hle := hcounted.start_le
        have hshort := hcounted.short
        have heq := toNat_eq sendArray.bufferStart bufferStart
        have heq' := offset_eq sendArray.bufferStart sendArray.bufferEnd
        rw [hstart, hend]
        omega
      · rw [hstart]
        exact mem_append_right _ (mem_singleton_self _)
    · intro array harray message hmessage hsession
      obtain rfl : sendArray' = array := some_injective _ harray
      rw [hend]
      exact h.ids sendArray hconnection message hmessage hsession

section

variable (h : t.Sound confirmed pending)
include h

/-- A receipt whose packet was received confirms its message. -/
theorem confirms_of_received {message : SentMessage} {receipt : Receipt} (hmessage : message ∈ t.messages)
    (hawaits : t.Awaits message receipt) (hreceived : t.friend.friendReceivedPacket receipt.packetNum = true) :
    ReceiptCall.Confirms message ⟨t.session, t.offlines, t.reports, receipt.msgId⟩ := by
  obtain ⟨hnumber, hid, hsession, hofflines⟩ := hawaits
  unfold MessageFriend.friendReceivedPacket at hreceived
  split at hreceived
  · cases hreceived
  · rename_i sendArray hconnection
    have hcounted := h.counted sendArray hconnection
    have hids := h.ids sendArray hconnection message hmessage hsession
    have hpassed := cryptpacketReceived_passed hcounted (by rw [← hnumber]; omega) hreceived
    refine ⟨hid.symm, hsession.symm, hofflines.symm, sendArray.bufferStart, ?_, ?_⟩
    · obtain hzero | hreported := hcounted.start_reported
      · rw [hzero] at hpassed
        exact absurd hpassed (Nat.not_lt_zero _)
      · exact hreported
    · rw [hnumber, UInt32.lt_iff_toNat_lt]
      exact hpassed

/-- `do_receipts` is called. -/
theorem receipts : ∃ confirmed' pending', Sound (MessageStep.receipts.exec t) confirmed' pending' := by
  obtain ⟨hsplit, hreceived⟩ := doReceiptsLoop_eq t.friend.friendReceivedPacket t.friend.receipts
  generalize hcalled : (MessageFriend.doReceiptsLoop t.friend.friendReceivedPacket t.friend.receipts).1 = called at *
  generalize hleft : (MessageFriend.doReceiptsLoop t.friend.friendReceivedPacket t.friend.receipts).2 = left at *
  have hexec : MessageStep.receipts.exec t =
      { t with
        friend := { t.friend with receipts := left }
        calls := t.calls ++ called.map fun receipt => ⟨t.session, t.offlines, t.reports, receipt.msgId⟩ } := by
    simp only [MessageStep.exec, MessageFriend.doReceipts, hcalled, hleft, List.map_map]
    rfl
  have hawaits := h.awaits
  rw [← hsplit] at hawaits
  have hfirst := forall₂_take_append _ _ _ hawaits
  have hrest := forall₂_drop_append _ _ _ hawaits
  refine ⟨confirmed ++ pending.take called.length, pending.drop called.length, ?_⟩
  rw [hexec]
  refine { h with
    sublist := ?_, confirms := rel_append h.confirms ?_, awaits := hrest, online_of_receipts := fun hleft => ?_ }
  · rw [append_assoc, take_append_drop]
    exact h.sublist
  · rw [forall₂_map_right_iff]
    rw [forall₂_iff_zip]
    refine ⟨hfirst.length_eq, fun {message receipt} hpair => ?_⟩
    obtain ⟨hmessage, hreceipt⟩ := of_mem_zip hpair
    have hsent : message ∈ t.messages :=
      h.sublist.subset (mem_append_right _ (mem_of_mem_take hmessage))
    exact h.confirms_of_received hsent (forall₂_zip hfirst hpair) (hreceived receipt hreceipt)
  · exact h.online_of_receipts (by rw [← hsplit]; simp [hleft])

/-- A friend that is not online has no receipts. -/
theorem receipts_eq_nil (honline : t.friend.online = false) : t.friend.receipts = [] := by
  by_contra hne
  rw [h.online_of_receipts hne] at honline
  cases honline

/-- A friend without receipts, whatever its session and the connection are now. -/
theorem forget {t' : MessageTrace} (hmessages : t'.messages = t.messages) (hcalls : t'.calls = t.calls)
    (hreceipts : t'.friend.receipts = []) (honline : t'.friend.online = true → t'.friend.connection.isSome)
    (hcounted : ∀ sendArray ∈ t'.friend.connection, Counted sendArray t'.reports) (hsession : t.session ≤ t'.session)
    (hids : ∀ sendArray ∈ t'.friend.connection, ∀ message ∈ t.messages, message.session = t'.session →
      offset message.msgId t'.friend.messageId + message.packetNum.toNat < sendArray.bufferEnd.toNat) :
    Sound t' confirmed [] where
  sublist := by
    rw [hmessages, append_nil]
    exact (sublist_append_left _ _).trans h.sublist
  confirms := by
    rw [hcalls]
    exact h.confirms
  awaits := by
    rw [hreceipts]
    exact .nil
  online_of_receipts := fun hne => absurd hreceipts hne
  connected_of_online := honline
  counted := hcounted
  session_le := by
    rw [hmessages]
    exact fun message hmessage => (h.session_le message hmessage).trans hsession
  ids := by
    rw [hmessages]
    exact hids
  distinct := by
    rw [hmessages]
    exact h.distinct

/-- A connection is made. -/
theorem connected (alloc : Bool) (hconnection : t.friend.connection = none)
    (hshort : (t.friend.connected alloc).Short) :
    Sound { t with friend := t.friend.connected alloc, session := t.session + 1, reports := [] } confirmed [] := by
  have honline : t.friend.online = false := by
    by_contra hon
    have hsome := h.connected_of_online (by simpa using hon)
    simp [hconnection] at hsome
  have hnew : Sound
      { t with friend := { t.friend with connection := some (.emptyAt 0) }, session := t.session + 1, reports := [] }
      confirmed [] := by
    refine h.forget rfl rfl (h.receipts_eq_nil honline) (fun _ => rfl) ?_ (Nat.le_succ _) ?_
    · rintro sendArray ⟨⟩
      exact ⟨le_rfl, .inl rfl, by decide⟩
    · intro _ _ message hmessage hsession
      have := h.session_le message hmessage
      change message.session = t.session + 1 at hsession
      omega
  have heq : t.friend.connected alloc =
      (({ t.friend with connection := some (.emptyAt 0) } : MessageFriend).sendOnlinePacket alloc) := by
    simp only [MessageFriend.connected, hconnection]
  rw [heq] at hshort ⊢
  exact hnew.write_getD hshort

/-- The friend goes offline. -/
theorem offline
    (hf : f = ⟨false, t.friend.messageId, [], t.friend.connection⟩ ∨ f = ⟨false, t.friend.messageId, [], none⟩) :
    Sound (t.become f) confirmed [] := by
  obtain rfl | rfl := hf
  · exact h.forget rfl rfl rfl nofun h.counted le_rfl h.ids
  · exact h.forget rfl rfl rfl nofun nofun le_rfl nofun

end

/-- Whatever happens to a friend. -/
theorem step (h : t.Sound confirmed pending) (step : MessageStep) (hshort : (step.exec t).friend.Short) :
    ∃ confirmed' pending', Sound (step.exec t) confirmed' pending' := by
  cases step with
  | message writeAlloc receiptAlloc type text =>
    simp only [MessageStep.exec, MessageFriend.mSendMessageGeneric] at hshort ⊢
    split_ifs at hshort ⊢ with htype hlength honline
    · exact ⟨confirmed, pending, h⟩
    · exact ⟨confirmed, pending, h⟩
    · exact ⟨confirmed, pending, h⟩
    · cases hwrite : t.friend.writeCryptpacket writeAlloc ((type + packetIdMessage) :: text) with
      | none => exact ⟨confirmed, pending, h⟩
      | some result =>
        obtain ⟨number, f⟩ := result
        simp only [hwrite] at hshort
        have hshort' : f.Short := by cases receiptAlloc <;> exact hshort
        have hmessage := h.message receiptAlloc (by simpa using honline) hwrite hshort'
        have hid (g : MessageFriend) (number msgId : UInt32) :
          (g.addReceipt receiptAlloc number msgId).messageId = g.messageId := by
          cases receiptAlloc <;> rfl
        obtain ⟨pending', hsound⟩ := hmessage
        exact ⟨confirmed, pending', by simpa only [hid] using hsound⟩
  | write alloc packet => exact ⟨confirmed, pending, h.write_getD hshort⟩
  | acknowledge bufferStart => exact ⟨confirmed, pending, h.acknowledge bufferStart⟩
  | receipts => exact h.receipts
  | connected alloc =>
    cases hconnection : t.friend.connection with
    | some sendArray =>
      have hexec : (MessageStep.connected alloc).exec t = t := by
        simp [MessageStep.exec, MessageFriend.connected, hconnection]
      rw [hexec]
      exact ⟨confirmed, pending, h⟩
    | none =>
      have hexec : (MessageStep.connected alloc).exec t =
          { t with friend := t.friend.connected alloc, session := t.session + 1, reports := [] } := by
        simp [MessageStep.exec, hconnection]
      rw [hexec] at hshort ⊢
      exact ⟨confirmed, [], h.connected alloc hconnection hshort⟩
  | disconnected =>
    refine ⟨confirmed, [], h.offline (.inr ?_)⟩
    cases honline : t.friend.online with
    | true => simp [MessageFriend.disconnected, MessageFriend.setFriendStatus, MessageFriend.clearReceipts, honline]
    | false => simp [MessageFriend.disconnected, honline, h.receipts_eq_nil honline]
  | online alloc =>
    by_cases hstart : t.friend.connection.isSome ∧ t.friend.online = false
    · have hon : Sound { t with friend := ⟨true, t.friend.messageId, t.friend.receipts, t.friend.connection⟩ }
        confirmed [] :=
        h.forget rfl rfl (h.receipts_eq_nil hstart.2) (fun _ => hstart.1) h.counted le_rfl h.ids
      have hexec : (MessageStep.online alloc).exec t =
          { t with friend :=
              (⟨true, t.friend.messageId, t.friend.receipts, t.friend.connection⟩ :
                MessageFriend).sendOnlinePacket alloc } := by
        simp [MessageStep.exec, MessageTrace.become, MessageFriend.handleOnline, hstart, MessageFriend.setFriendStatus]
      rw [hexec] at hshort ⊢
      exact ⟨confirmed, [], hon.write_getD hshort⟩
    · have hexec : (MessageStep.online alloc).exec t = t := by
        simp only [MessageStep.exec, MessageTrace.become, MessageFriend.handleOnline, if_neg hstart]
        cases t.friend.online <;> simp
      rw [hexec]
      exact ⟨confirmed, pending, h⟩
  | offline =>
    refine ⟨confirmed, [], h.offline (.inl ?_)⟩
    cases honline : t.friend.online with
    | true => simp [MessageFriend.handleOffline, MessageFriend.setFriendStatus, MessageFriend.clearReceipts, honline]
    | false =>
      have hreceipts := h.receipts_eq_nil honline
      simp only [MessageFriend.handleOffline, honline, Bool.false_eq_true, if_false]
      rw [← honline, ← hreceipts]

/-- What holds in every run. -/
theorem of_reachable (h : t.Reachable) : ∃ confirmed pending, t.Sound confirmed pending := by
  induction h with
  | new =>
    exact ⟨[], [], .slnil, .nil, .nil, nofun, nofun, nofun, nofun, nofun, .nil⟩
  | step t _ step hshort ih =>
    obtain ⟨_, _, hsound⟩ := ih
    exact hsound.step step hshort

end MessageTrace.Sound

/-- Calls have the connections and the ids of the messages that they confirm. -/
theorem map_calls_eq {confirmed : List SentMessage} {calls : List ReceiptCall}
    (h : List.Forall₂ ReceiptCall.Confirms confirmed calls) :
    (calls.map fun call => (call.session, call.msgId)) = confirmed.map fun message =>
    (message.session, message.msgId) := by
  induction h with
  | nil => rfl
  | cons hfirst _ ih => rw [map_cons, map_cons, ih, hfirst.1, hfirst.2.1]

/-- The calls of `read_receipt` are for messages that were sent, in the order in which they were sent, each message at
most once and no id twice on one connection; each call comes after the peer has reported, on the connection on which
the message was sent, that its `buffer_start` has passed the packet, and before the friend has gone offline. -/
theorem messageTrace_receipts_truthful {t : MessageTrace} (h : t.Reachable) :
    (∃ confirmed, confirmed.Sublist t.messages ∧ List.Forall₂ ReceiptCall.Confirms confirmed t.calls) ∧
      (t.calls.map fun call => (call.session, call.msgId)).Nodup := by
  obtain ⟨confirmed, pending, hsound⟩ := MessageTrace.Sound.of_reachable h
  have hsublist : confirmed.Sublist t.messages := (sublist_append_left _ _).trans hsound.sublist
  refine ⟨⟨confirmed, hsublist, hsound.confirms⟩, ?_⟩
  rw [map_calls_eq hsound.confirms, List.Nodup, pairwise_map]
  refine (hsound.distinct.sublist hsublist).imp fun hne heq => ?_
  obtain ⟨hsession, hid⟩ := Prod.mk.inj heq
  exact hne hsession hid

/-- A friend comes online, a message is sent, and the peer reports that it has the packet. -/
def exampleMessageTrace : MessageTrace :=
  [.connected true, .online true, .message true true 0 [7], .acknowledge 3, .receipts].foldl
    (fun t step => MessageStep.exec step t) MessageTrace.new

/-- A message, its report and its receipt. -/
theorem messageTrace_receipts_truthful_message :
    exampleMessageTrace.calls.map ReceiptCall.msgId = [1] ∧
      (∃ confirmed, confirmed.Sublist exampleMessageTrace.messages ∧
        List.Forall₂ ReceiptCall.Confirms confirmed exampleMessageTrace.calls) ∧
      (exampleMessageTrace.calls.map fun call => (call.session, call.msgId)).Nodup := by
  refine ⟨by decide +kernel, messageTrace_receipts_truthful ?_⟩
  refine .step _ (.step _ (.step _ (.step _ (.step _ .new (.connected true) ?_) (.online true) ?_)
    (.message true true 0 [7]) ?_) (.acknowledge 3) ?_) .receipts ?_
  all_goals
    rintro _ ⟨⟩
    decide +kernel

end Toxcore
