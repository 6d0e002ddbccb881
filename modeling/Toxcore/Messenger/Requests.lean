import Toxcore.Friends.Replay
import Toxcore.Messenger.FriendList

/-!
# Sending friend requests

A friend request goes directly to a friend that is connected, and through the onion to one that is not. `do_friends`
takes a request for sent if the return value is not negative. The onion gives back -1 or the number of packets; what
is given back for a connected friend is whether `write_cryptpacket` took the packet, which is 0 where it did not.
-/

namespace Toxcore

open ByteStrings TableView

/-! ## When `write_cryptpacket` takes a packet -/

/-- The number of packets in the send array of a connection, if it is live. -/
def queuedOf (conn : CryptoConnection) : Option ℕ :=
  if conn.status = .noConnection then none else some (numPacketsArray conn.sendArray)

namespace NetCrypto

/-- The numbers of packets in the send arrays of the live connections. -/
def queued (c : NetCrypto) : ℕ → Option ℕ := view queuedOf c.cryptoConnections

/-- The packets that wait on a connection. -/
theorem queued_live {c : NetCrypto} {id : ℕ} {conn : CryptoConnection} (hconn : c.getCryptoConnection id = some conn) :
    c.queued id = some (numPacketsArray conn.sendArray) := by
  obtain ⟨hget, hlive⟩ := getCryptoConnection_eq_some.mp hconn
  rw [queued, view_get hget, queuedOf, if_neg hlive]

theorem queued_none {c : NetCrypto} {id : ℕ} (hconn : c.getCryptoConnection id = none) : c.queued id = none := by
  rw [queued, view, Option.bind_eq_none_iff]
  intro conn hget
  rw [queuedOf, if_pos]
  by_contra hlive
  rw [getCryptoConnection_eq_some.mpr ⟨hget, hlive⟩] at hconn
  contradiction

/-- Sending queues nothing. -/
theorem SendsOnly.queued {c c' : NetCrypto} (h : SendsOnly c c') : c'.queued = c.queued := by
  have hquiet : queuedOf ∘ quiet = queuedOf := rfl
  rw [NetCrypto.queued, NetCrypto.queued, ← hquiet, ← view_map, h.connections, view_map]

/-- A connection is changed that keeps its queue. -/
theorem queued_modifyConnection (c : NetCrypto) (id : ℕ) {f : CryptoConnection → CryptoConnection}
    (hf : ∀ conn, queuedOf (f conn) = queuedOf conn) : (c.modifyConnection id f).queued = c.queued :=
  view_modify_same hf

variable (sodium : Sodium) (env : Env)

/-- Trying the last packet again leaves the numbers of packets alone. -/
theorem queued_resetMaxSpeedReached (c : NetCrypto) (id : ℕ) :
    (resetMaxSpeedReached sodium env c id).2.queued = c.queued := by
  unfold resetMaxSpeedReached
  split
  · rfl
  · rename_i conn _
    split
    · rfl
    · split
      · rename_i packet _
        have hsend := (sendDataPacketHelper_sendsOnly sodium env c id conn.recvArray.bufferStart
          (conn.sendArray.bufferEnd - 1) packet.data).queued
        split
        · split
          · rename_i c₁ heq
            rwa [heq] at hsend
          · rename_i c₁ heq
            rw [heq] at hsend
            rw [← hsend]
            exact queued_modifyConnection c₁ id fun _ => rfl
        · exact queued_modifyConnection c id fun _ => rfl
      · exact queued_modifyConnection c id fun _ => rfl

/-- A connection can take one more lossless packet: it is established, its send array is not full and the packet can be
allocated. -/
def CanQueue (env : Env) (c : NetCrypto) (id : ℕ) : Prop :=
  (∃ conn, c.getCryptoConnection id = some conn ∧ conn.status = .established ∧
    numPacketsArray conn.sendArray < cryptoPacketBufferSize) ∧ env.alloc .packet = true

/-- A packet is queued where there is room. -/
theorem addDataEndOfBuffer_isSome (alloc : Bool) (array : PacketsArray) (data : PacketData) :
    (addDataEndOfBuffer alloc array data).isSome ↔
      numPacketsArray array < cryptoPacketBufferSize ∧ alloc = true := by
  unfold addDataEndOfBuffer
  split
  · rename_i hfull
    simp [Nat.not_lt.mpr hfull]
  · rename_i hroom
    cases alloc with
    | true => simpa using hroom
    | false => simp

/-- A lossless packet without congestion control gets a number exactly if the send array has room for it. -/
theorem sendLosslessPacket_isSome (c : NetCrypto) (id : ℕ) (data : Bytes) (hsome : data.length ≠ 0)
    (hfits : data.length ≤ maxCryptoDataSize) :
    (sendLosslessPacket sodium env c id data false).1.isSome ↔
      (∃ count, c.queued id = some count ∧ count < cryptoPacketBufferSize) ∧ env.alloc .packet = true := by
  have hlength : ¬(data.length = 0 ∨ data.length > maxCryptoDataSize) := by
    rintro (hnone | hlong)
    · exact hsome hnone
    · exact Nat.not_lt.mpr hfits hlong
  rw [← queued_resetMaxSpeedReached sodium env c id, sendLosslessPacket, if_neg hlength]
  cases hconn : (resetMaxSpeedReached sodium env c id).2.getCryptoConnection id with
  | none => simp [queued_none hconn]
  | some conn =>
    have hadd := addDataEndOfBuffer_isSome (env.alloc .packet) conn.sendArray ⟨0, data⟩
    rw [queued_live hconn]
    cases hnumbered : addDataEndOfBuffer (env.alloc .packet) conn.sendArray ⟨0, data⟩ with
    | none => simpa [hnumbered] using hadd
    | some numbered => simpa [hnumbered] using hadd

/-- `write_cryptpacket` takes a lossless packet without congestion control exactly if the connection can take one. -/
theorem writeCryptpacket_isSome (c : NetCrypto) (id : ℕ) {packetId : UInt8} {data : Bytes}
    (hid : ¬(packetId < cryptoReservedPackets ∨ packetId ≥ packetIdLossyRangeStart))
    (hfits : (packetId :: data).length ≤ maxCryptoDataSize) :
    (writeCryptpacket sodium env c id (packetId :: data) false).1.isSome ↔ c.CanQueue env id := by
  have hsend := sendLosslessPacket_isSome sodium env c id (packetId :: data) (Nat.succ_ne_zero _) hfits
  rw [writeCryptpacket, List.head?_cons]
  cases hconn : c.getCryptoConnection id with
  | none => simp [CanQueue, hconn]
  | some conn =>
    rw [queued_live hconn] at hsend
    by_cases hestablished : conn.status = .established
    · simp only [if_neg hid, hestablished, ne_eq, not_true_eq_false, if_false, Bool.false_eq_true, false_and]
      cases hsent : sendLosslessPacket sodium env c id (packetId :: data) false with
      | mk number c₁ =>
        rw [hsent] at hsend
        cases number with
        | none => simpa [CanQueue, hconn, hestablished] using hsend
        | some number => simpa [CanQueue, hconn, hestablished] using hsend
    · simp [CanQueue, hconn, hestablished, hid]

end NetCrypto

/-! ## The request -/

/-- `CRYPTO_PACKET_FRIEND_REQ`. -/
def cryptoPacketFriendReq : UInt8 := 32

/-- What sending a friend request observes: the surroundings of `Net_Crypto` and of the onion client with its key
pair, and the outcome of `send_onion_packet_tcp_udp`. -/
structure RequestEnv (sodium : Sodium) where
  below : FriendEnv
  onion : OnionDataEnv sodium
  self : KeyPair sodium
  sendOnionPacketTcpUdp : OnionPath × IpPort × Bytes → Bool

/-- What `send_friend_request_packet` returns and does: the return value, whether `write_cryptpacket` queued the
packet, how many onion packets were sent, and `Net_Crypto`. -/
structure RequestResult where
  returned : ℤ
  queued : Bool
  routed : ℕ
  net : NetCrypto

section Requests

variable (sodium : Sodium) (env : RequestEnv sodium)

/-- The return value of `send_onion_data`, `none` for -1. -/
def RequestEnv.onionDataSent (onionC : OnionClient) (friendNum : ℕ) (data : Bytes) : Option ℕ :=
  (sendOnionData sodium env.onion onionC env.self friendNum data).map fun requests =>
    requests.countP env.sendOnionPacketTcpUdp

/-- `send_friend_request_packet`. -/
def sendFriendRequestPacket (w : FriendWorld) (friendconId : ℕ) (nospamNum : UInt32) (data : Bytes) : RequestResult :=
  if 1 + 4 + data.length > onionClientMaxDataSize ∨ data.length = 0 then ⟨-1, false, 0, w.net⟩
  else
    match w.app.getConn friendconId with
    | none => ⟨-1, false, 0, w.net⟩
    | some friendCon =>
      let packet := (hostBytes32 nospamNum).toList ++ data
      if friendCon.status = .connected then
        let (queued, net) := writeFriendPacket sodium env.below w.net friendCon.cryptConnectionId
          (packetIdFriendRequests :: packet)
        ⟨if queued then 1 else 0, queued, 0, net⟩
      else
        match env.onionDataSent sodium w.app.onionC friendCon.onionFriendnum (cryptoPacketFriendReq :: packet) with
        | none => ⟨-1, false, 0, w.net⟩
        | some num => ⟨if num = 0 then -1 else num, false, num, w.net⟩

/-- Where the friend is connected, and the request is one that is sent, the crypto connection can take one more
packet. -/
def RoomIfConnected (w : FriendWorld) (friendconId : ℕ) (data : Bytes) : Prop :=
  ∀ friendCon, w.app.getConn friendconId = some friendCon → friendCon.status = .connected →
    1 + 4 + data.length ≤ onionClientMaxDataSize → data.length ≠ 0 →
      ∃ id, friendCon.cryptConnectionId = some id ∧ w.net.CanQueue env.below.net id

/-- A request that is not too long for the onion is taken for a connected friend exactly if there is room. -/
theorem writeFriendPacket_request (w : FriendWorld) (cryptConnectionId : Option ℕ) (nospamNum : UInt32) {data : Bytes}
    (hfits : 1 + 4 + data.length ≤ onionClientMaxDataSize) :
    (writeFriendPacket sodium env.below w.net cryptConnectionId
        (packetIdFriendRequests :: ((hostBytes32 nospamNum).toList ++ data))).1 = true ↔
      ∃ id, cryptConnectionId = some id ∧ w.net.CanQueue env.below.net id := by
  cases cryptConnectionId with
  | none => simp [writeFriendPacket]
  | some id =>
    have hlonger : onionClientMaxDataSize ≤ maxCryptoDataSize := by decide
    have hlength : (packetIdFriendRequests :: ((hostBytes32 nospamNum).toList ++ data)).length ≤ maxCryptoDataSize := by
      rw [List.length_cons, List.length_append, List.Vector.toList_length]
      omega
    rw [writeFriendPacket, NetCrypto.writeCryptpacket_isSome sodium env.below.net w.net id (by decide) hlength]
    constructor
    · intro hroom
      exact ⟨id, rfl, hroom⟩
    · rintro ⟨_, ⟨⟩, hroom⟩
      exact hroom

/-- Something was sent for a request. -/
def RequestResult.Sent (result : RequestResult) : Prop := result.queued = true ∨ 0 < result.routed

theorem not_nonneg_neg_one : ¬(0 : ℤ) ≤ -1 := by decide

/-- The return value tells whether something was sent exactly if there is room for the packet of a connected friend. -/
theorem sendFriendRequestPacket_returned (w : FriendWorld) (friendconId : ℕ) (nospamNum : UInt32) (data : Bytes) :
    (0 ≤ (sendFriendRequestPacket sodium env w friendconId nospamNum data).returned ↔
        (sendFriendRequestPacket sodium env w friendconId nospamNum data).Sent) ↔
      RoomIfConnected sodium env w friendconId data := by
  rw [sendFriendRequestPacket]
  split
  · rename_i hrefused
    refine iff_of_true (iff_of_false not_nonneg_neg_one (by simp [RequestResult.Sent])) ?_
    intro friendCon _ _ hfits hsome
    rcases hrefused with hlong | hnone
    · exact absurd hlong (Nat.not_lt.mpr hfits)
    · exact absurd hnone hsome
  · rename_i hok
    rw [not_or, Nat.not_lt] at hok
    split
    · rename_i hnone
      refine iff_of_true (iff_of_false not_nonneg_neg_one (by simp [RequestResult.Sent])) ?_
      intro friendCon hconn
      rw [hnone] at hconn
      contradiction
    · rename_i friendCon hconn
      dsimp only
      split
      · rename_i hconnected
        have hroom : RoomIfConnected sodium env w friendconId data ↔
            (writeFriendPacket sodium env.below w.net friendCon.cryptConnectionId
              (packetIdFriendRequests :: ((hostBytes32 nospamNum).toList ++ data))).1 = true := by
          rw [writeFriendPacket_request sodium env w _ nospamNum hok.1]
          constructor
          · intro hroom
            exact hroom friendCon hconn hconnected hok.1 hok.2
          · rintro hroom _ hsame _ _ _
            rw [← Option.some.inj (hconn.symm.trans hsame)]
            exact hroom
        rw [hroom]
        cases (writeFriendPacket sodium env.below w.net friendCon.cryptConnectionId
          (packetIdFriendRequests :: ((hostBytes32 nospamNum).toList ++ data))).1 with
        | true => simp [RequestResult.Sent]
        | false => simp [RequestResult.Sent]
      · rename_i hother
        have hroom : RoomIfConnected sodium env w friendconId data := by
          intro _ hsame hconnected
          rw [← Option.some.inj (hconn.symm.trans hsame)] at hconnected
          exact absurd hconnected hother
        refine iff_of_true ?_ hroom
        split
        · exact iff_of_false not_nonneg_neg_one (by simp [RequestResult.Sent])
        · rename_i num _
          by_cases hnum : num = 0
          · subst hnum
            exact iff_of_false not_nonneg_neg_one (by simp [RequestResult.Sent])
          · rw [if_neg hnum]
            exact iff_of_true (Int.natCast_nonneg num) (.inr (Nat.pos_of_ne_zero hnum))

/-- `do_friends` moves a friend from `FRIEND_ADDED` to `FRIEND_REQUESTED` only if the request could be sent. -/
theorem doFriend_requested {sends : Messenger.FriendSends} {tempTime time : UInt64} {friend : Friend}
    (hadded : friend.status = .added) (h : (Messenger.doFriend sends tempTime time friend).status = .requested) :
    sends.request = true := by
  by_contra hnot
  simp [Messenger.doFriend, hnot, hadded] at h

/-- A friend request is marked as sent only if something was sent: the return value of `send_friend_request_packet`
tells, and `do_friends` moves no friend to `FRIEND_REQUESTED` for whom nothing was sent. It holds exactly if there is
room in the send array for the packet to a friend that is connected. -/
theorem friend_request_sent_iff (w : FriendWorld) (friendconId : ℕ) (nospamNum : UInt32) (data : Bytes) :
    ((0 ≤ (sendFriendRequestPacket sodium env w friendconId nospamNum data).returned ↔
          (sendFriendRequestPacket sodium env w friendconId nospamNum data).Sent) ∧
        ∀ (friend : Friend) (sends : Messenger.FriendSends) (tempTime time : UInt64),
          friend.friendconId = friendconId → friend.friendrequestNospam = nospamNum → friend.info = data →
          sends.request = decide (0 ≤ (sendFriendRequestPacket sodium env w friendconId nospamNum data).returned) →
          friend.status = .added → (Messenger.doFriend sends tempTime time friend).status = .requested →
            (sendFriendRequestPacket sodium env w friendconId nospamNum data).Sent) ↔
      RoomIfConnected sodium env w friendconId data := by
  rw [sendFriendRequestPacket_returned]
  constructor
  · rintro ⟨hroom, -⟩
    exact hroom
  · intro hroom
    refine ⟨hroom, ?_⟩
    intro friend sends tempTime time _ _ _ hrequest hadded hmoved
    have hreturned := doFriend_requested hadded hmoved
    rw [hrequest, decide_eq_true_iff] at hreturned
    exact ((sendFriendRequestPacket_returned sodium env w friendconId nospamNum data).mpr hroom).mp hreturned

end Requests

/-- The world in which the send queue of an online friend is full. -/
def exampleFull : FriendWorld :=
  { exampleOnline with
    net := exampleOnline.net.modifyConnection 0 fun conn =>
      { conn with sendArray := ⟨fun _ => some ⟨0, [packetIdAlive]⟩, 0, 32768⟩ } }

/-- Calm surroundings in which every onion packet is sent. -/
def RequestEnv.calm : RequestEnv .plain where
  below := .calm
  onion := ⟨0, List.Vector.replicate 24 0, fun _ => none, fun _ => plainKeyPair 1⟩
  self := plainKeyPair 1
  sendOnionPacketTcpUdp _ := true

/-- The request to an online friend whose send queue is full is not sent, and is taken for sent. -/
theorem full_queue_requested :
    (sendFriendRequestPacket .plain .calm exampleFull 0 0 [1]).returned = 0 ∧
      ¬(sendFriendRequestPacket .plain .calm exampleFull 0 0 [1]).Sent := by
  have hreturned : (sendFriendRequestPacket .plain .calm exampleFull 0 0 [1]).returned = 0 := by decide +kernel
  have hqueued : (sendFriendRequestPacket .plain .calm exampleFull 0 0 [1]).queued = false := by decide +kernel
  have hrouted : (sendFriendRequestPacket .plain .calm exampleFull 0 0 [1]).routed = 0 := by decide +kernel
  refine ⟨hreturned, ?_⟩
  simp [RequestResult.Sent, hqueued, hrouted]

end Toxcore
