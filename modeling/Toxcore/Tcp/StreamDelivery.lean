import Toxcore.Tcp.Stream

/-!
# What a TCP stream carries

Three places hold bytes that were not sent: the rest of an ordinary packet, the queue of priority packets, and the
packet at hand. What was put on the socket, followed by what is pending, is always the frames of the packets that were
taken, in the order of the calls. The reader is always at some point of these frames, with the nonce of that point.
-/

namespace Toxcore

open ByteStrings List

/-! ## Frames -/

section Frames

variable (sodium : Sodium) (key : SharedKey)

/-- The frame of a packet. -/
def tcpFrame (nonce : Nonce) (data : Bytes) : Bytes :=
  beBytes 2 (data.length + macBytes) ++ (encryptDataSymmetric sodium key nonce data).getD []

/-- The frames of packets, each with the next nonce. -/
def tcpFrames : Nonce → List Bytes → Bytes
  | _, [] => []
  | nonce, data :: rest => tcpFrame sodium key nonce data ++ tcpFrames (incrementNonce nonce) rest

/-- Packets are framed in two parts. -/
theorem tcpFrames_append (nonce : Nonce) (packets packets' : List Bytes) :
    tcpFrames sodium key nonce (packets ++ packets') =
      tcpFrames sodium key nonce packets ++ tcpFrames sodium key (nonceAdd nonce packets.length) packets' := by
  induction packets generalizing nonce with
  | nil => rw [nil_append, length_nil, nonceAdd_zero, tcpFrames, nil_append]
  | cons data packets ih =>
    rw [cons_append, tcpFrames, ih, tcpFrames, append_assoc, incrementNonce_eq, nonceAdd_add, length_cons,
      Nat.add_comm 1]

/-- A packet that may be written. -/
def FitsFrame (data : Bytes) : Prop := 1 ≤ data.length ∧ data.length ≤ tcpMaxPacketSize - macBytes

/-- A packet that fits has a frame, which can be decrypted. -/
theorem FitsFrame.encrypts {data : Bytes} {sodium : Sodium} (h : FitsFrame data) (hlawful : sodium.Lawful)
    (nonce : Nonce) :
    ∃ encrypted, encryptDataSymmetric sodium key nonce data = some encrypted ∧
      encrypted.length = data.length + macBytes ∧
      decryptDataSymmetric sodium key nonce encrypted = some data ∧
      tcpFrame sodium key nonce data = beBytes 2 (data.length + macBytes) ++ encrypted := by
  have hpos := h.1
  obtain ⟨encrypted, hencrypt, hlength, hdecrypt⟩ :=
    hlawful.encrypt_decrypt key nonce (Nat.pos_iff_ne_zero.mp hpos)
  exact ⟨encrypted, hencrypt, hlength, hdecrypt, by rw [tcpFrame, hencrypt, Option.getD_some]⟩

end Frames

/-! ## Writing -/

namespace SendSocket

/-- What `send` takes is the front of what it is offered. -/
theorem send_accepted (sock : SendSocket) (bytes : Bytes) :
    (sock.send bytes).2.accepted = sock.accepted ++ bytes.take (sock.send bytes).1.toNat := by
  unfold send
  split
  · simp
  · simp
  · rename_i count answers _
    rw [show ((min (count : ℤ) bytes.length)).toNat = min count bytes.length by omega, ← take_take, take_length]

/-- Nothing is taken where nothing is accepted. -/
theorem send_nothing {sock : SendSocket} {bytes : Bytes} (h : (sock.send bytes).1 ≤ 0) :
    (sock.send bytes).2.accepted = sock.accepted := by
  rw [send_accepted, Int.toNat_of_nonpos h, take_zero, append_nil]

/-- Everything is taken where the whole length is accepted. -/
theorem send_all (sock : SendSocket) (bytes : Bytes) (h : (sock.send bytes).1 = bytes.length) :
    (sock.send bytes).2.accepted = sock.accepted ++ bytes := by
  rw [send_accepted, h, Int.toNat_natCast, take_length]

end SendSocket

namespace TcpWriter

variable {writer : TcpWriter}

/-- The bytes in a queue that were not sent. -/
def queued (queue : List TcpPriorityPacket) : Bytes := queue.flatMap fun p => p.data.drop p.sent

/-- The bytes of a connection that were not sent. -/
def pending (writer : TcpWriter) : Bytes := writer.lastPacket.drop writer.lastPacketSent ++ queued writer.priorityQueue

/-- Sending what is pending of the ordinary packet. -/
theorem sendPendingDataNonpriority_moves (writer : TcpWriter) (sock : SendSocket) :
    let result := sendPendingDataNonpriority writer sock
    result.2.2.accepted ++ result.2.1.pending = sock.accepted ++ writer.pending ∧
      (result.1 = true → result.2.1.lastPacket = []) := by
  dsimp only
  unfold sendPendingDataNonpriority
  split
  · rename_i hempty
    exact ⟨rfl, fun _ => length_eq_zero_iff.mp hempty⟩
  · dsimp only
    have hall := sock.send_all (writer.lastPacket.drop writer.lastPacketSent)
    rw [length_drop] at hall
    have haccepted := sock.send_accepted (writer.lastPacket.drop writer.lastPacketSent)
    split
    · rename_i hnone
      exact ⟨by rw [SendSocket.send_nothing hnone], nofun⟩
    · split
      · rename_i hdone
        refine ⟨?_, fun _ => rfl⟩
        rw [hall hdone, pending, drop_nil, nil_append, pending, append_assoc]
      · refine ⟨?_, nofun⟩
        rw [haccepted, pending, pending, ← drop_drop, append_assoc, ← append_assoc (List.take _ _),
          take_append_drop]

/-- Sending priority packets. -/
theorem sendPriority_moves (sock : SendSocket) (queue : List TcpPriorityPacket) :
    (sendPriority sock queue).2.accepted ++ queued (sendPriority sock queue).1 = sock.accepted ++ queued queue := by
  induction queue generalizing sock with
  | nil => rfl
  | cons p queue ih =>
    have hall := sock.send_all (p.data.drop p.sent)
    rw [length_drop] at hall
    have haccepted := sock.send_accepted (p.data.drop p.sent)
    have hcons (p : TcpPriorityPacket) (queue : List TcpPriorityPacket) :
        queued (p :: queue) = p.data.drop p.sent ++ queued queue := rfl
    rw [sendPriority]
    dsimp only
    split
    · rename_i hdone
      rw [ih, hall hdone, hcons, append_assoc]
    · split
      · rw [haccepted, hcons, hcons, ← drop_drop, append_assoc, ← append_assoc (List.take _ _),
          take_append_drop]
      · rename_i hnone
        rw [SendSocket.send_nothing (Int.not_lt.mp hnone)]

/-- Sending what is pending moves it to the socket; the key and the nonce stay. -/
structure Moves (writer writer' : TcpWriter) (sock sock' : SendSocket) : Prop where
  bytes : sock'.accepted ++ writer'.pending = sock.accepted ++ writer.pending
  sharedKey : writer'.sharedKey = writer.sharedKey
  sentNonce : writer'.sentNonce = writer.sentNonce

/-- What is sent is taken off what is pending. -/
theorem sendPendingDataNonpriority_fields (writer : TcpWriter) (sock : SendSocket) :
    let result := sendPendingDataNonpriority writer sock
    result.2.1.sharedKey = writer.sharedKey ∧ result.2.1.sentNonce = writer.sentNonce ∧
      result.2.1.priorityQueue = writer.priorityQueue := by
  dsimp only
  unfold sendPendingDataNonpriority
  split
  · exact ⟨rfl, rfl, rfl⟩
  · dsimp only
    split
    · exact ⟨rfl, rfl, rfl⟩
    · split
      · exact ⟨rfl, rfl, rfl⟩
      · exact ⟨rfl, rfl, rfl⟩

/-- `send_pending_data` moves bytes, and where it succeeds nothing is pending. -/
theorem sendPendingData_moves (writer : TcpWriter) (sock : SendSocket) :
    let result := sendPendingData writer sock
    Moves writer result.2.1 sock result.2.2 ∧
      (result.1 = true → result.2.1.lastPacket = [] ∧ result.2.1.priorityQueue = []) := by
  have hmoves := sendPendingDataNonpriority_moves writer sock
  have hfields := sendPendingDataNonpriority_fields writer sock
  dsimp only at hmoves hfields ⊢
  unfold sendPendingData
  generalize sendPendingDataNonpriority writer sock = result at hmoves hfields
  obtain ⟨done, writer', sock'⟩ := result
  obtain ⟨hbytes, hdone⟩ := hmoves
  obtain ⟨hkey, hnonce, hqueue⟩ := hfields
  cases done with
  | false => exact ⟨⟨hbytes, hkey, hnonce⟩, nofun⟩
  | true =>
    have hpriority := sendPriority_moves sock' writer'.priorityQueue
    have hlast := hdone rfl
    dsimp only at hlast hpriority hbytes ⊢
    refine ⟨⟨?_, hkey, hnonce⟩, fun hempty => ⟨hlast, List.isEmpty_iff.mp hempty⟩⟩
    rw [← hbytes, pending, pending, hlast, drop_nil, nil_append, nil_append]
    exact hpriority

/-- Nothing is pending where no packet is held. -/
theorem pending_eq_nil (hlast : writer.lastPacket = []) (hqueue : writer.priorityQueue = []) : writer.pending = [] := by
  rw [pending, hlast, hqueue, drop_nil, nil_append]
  rfl

/-- A packet behind the queue is behind everything that is pending. -/
theorem addPriority_pending (writer : TcpWriter) (packet : Bytes) (sent : ℕ) :
    (addPriority writer true packet sent).2.pending = writer.pending ++ packet.drop sent := by
  rw [addPriority, if_pos rfl, pending, pending, queued, queued, flatMap_append, flatMap_singleton,
    append_assoc]

/-- What a call of `write_packet_TCP_secure_connection` does where memory is allocated: the frame is put behind what is
pending, or the packet is not taken. -/
theorem writePacket_moves (writer : TcpWriter) (sock : SendSocket) {sodium : Sodium} (hlawful : sodium.Lawful)
    {data : Bytes} (hfits : FitsFrame data) (priority : Bool) :
    let result := writePacket writer sock sodium true data priority
    result.2.1.sharedKey = writer.sharedKey ∧
      (result.1 = .notSent ∧ result.2.1.sentNonce = writer.sentNonce ∧
          result.2.2.accepted ++ result.2.1.pending = sock.accepted ++ writer.pending ∨
        result.1 = .sent ∧ result.2.1.sentNonce = incrementNonce writer.sentNonce ∧
          result.2.2.accepted ++ result.2.1.pending =
            sock.accepted ++ writer.pending ++ tcpFrame sodium writer.sharedKey writer.sentNonce data) := by
  have hmoves := sendPendingData_moves writer sock
  have hmax : ¬data.length + macBytes > tcpMaxPacketSize := by
    have hle := hfits.2
    simp only [tcpMaxPacketSize, macBytes] at hle ⊢
    omega
  dsimp only at hmoves ⊢
  rw [writePacket, if_neg hmax]
  dsimp only
  generalize sendPendingData writer sock = result at hmoves
  obtain ⟨done, writer', sock'⟩ := result
  obtain ⟨⟨hbytes, hkey, hnonce⟩, hdone⟩ := hmoves
  dsimp only at hbytes hkey hnonce hdone ⊢
  obtain ⟨encrypted, hencrypt, hlength, -, hframe⟩ := hfits.encrypts writer'.sharedKey hlawful writer'.sentNonce
  split
  · exact ⟨hkey, .inl ⟨rfl, hnonce, hbytes⟩⟩
  · rename_i hwrites
    rw [hencrypt, ← hbytes, ← hkey, ← hnonce, hframe]
    dsimp only
    have hpacket : (beBytes 2 (data.length + macBytes) ++ encrypted).length ≠ 0 := by
      have hpos := hfits.1
      rw [length_append, hlength]
      omega
    generalize beBytes 2 (data.length + macBytes) ++ encrypted = packet at hpacket
    have hall := sock'.send_all packet
    have haccepted := sock'.send_accepted packet
    by_cases hready : done = true
    · obtain ⟨hlast, hqueue⟩ := hdone hready
      have hpending := pending_eq_nil hlast hqueue
      rw [hpending, append_nil, if_pos hready]
      cases priority with
      | true =>
        rw [if_pos rfl]
        by_cases hsent : max (sock'.send packet).1 0 = packet.length
        · rw [if_pos hsent]
          refine ⟨rfl, .inr ⟨rfl, rfl, ?_⟩⟩
          change _ ++ writer'.pending = _
          rw [hall (by omega), hpending, append_nil]
        · rw [if_neg hsent]
          refine ⟨rfl, .inr ⟨rfl, rfl, ?_⟩⟩
          dsimp only
          rw [addPriority_pending, haccepted, show (max (sock'.send packet).1 0).toNat =
            (sock'.send packet).1.toNat by omega]
          change _ ++ (writer'.pending ++ _) = _
          rw [hpending, nil_append, append_assoc, take_append_drop]
      | false =>
        rw [if_neg Bool.false_ne_true]
        by_cases hnone : (sock'.send packet).1 ≤ 0
        · rw [if_pos hnone]
          refine ⟨rfl, .inl ⟨rfl, rfl, ?_⟩⟩
          rw [SendSocket.send_nothing hnone, hpending, append_nil]
        · rw [if_neg hnone]
          by_cases hsent : (sock'.send packet).1 = packet.length
          · rw [if_pos hsent]
            refine ⟨rfl, .inr ⟨rfl, rfl, ?_⟩⟩
            change _ ++ writer'.pending = _
            rw [hall hsent, hpending, append_nil]
          · rw [if_neg hsent]
            refine ⟨rfl, .inr ⟨rfl, rfl, ?_⟩⟩
            dsimp only
            rw [pending, hqueue, haccepted, queued, flatMap_nil, append_nil, append_assoc,
              take_append_drop]
    · have hurgent : priority = true :=
        Bool.eq_true_of_not_eq_false fun hnot => hwrites ⟨Bool.eq_false_of_not_eq_true hready, hnot⟩
      rw [if_neg hready, if_pos hurgent]
      dsimp only
      rw [if_neg (by omega)]
      refine ⟨rfl, .inr ⟨rfl, rfl, ?_⟩⟩
      dsimp only
      rw [addPriority_pending, append_assoc]
      rfl

end TcpWriter

/-! ## Reading -/

namespace TcpReader

variable {sodium : Sodium} {reader : TcpReader} {available rest : Bytes} {packets : List Bytes} {key : SharedKey}
  {nonce : Nonce}

/-- What was read of the next frame: nothing, or its length. -/
def begun (reader : TcpReader) : Bytes :=
  if reader.nextPacketLength = 0 then [] else beBytes 2 reader.nextPacketLength.toNat

/-- A reader before the frames of some packets, of which a part is available and the rest is not. -/
structure Before (sodium : Sodium) (key : SharedKey) (reader : TcpReader) (available rest : Bytes) (nonce : Nonce)
    (packets : List Bytes) : Prop where
  sharedKey : reader.sharedKey = key
  recvNonce : reader.recvNonce = nonce
  bytes : reader.begun ++ (available ++ rest) = tcpFrames sodium key nonce packets

/-- The outcome of a call of `read_packet_TCP_secure_connection`: the next packet, or no packet because its frame is not
there. -/
def Reads (sodium : Sodium) (key : SharedKey) (rest : Bytes) (nonce : Nonce) (packets : List Bytes) :
    ReadResult × TcpReader × Bytes → Prop
  | (.failed, _) => False
  | (.noPacket, reader, available) => Before sodium key reader available rest nonce packets ∧
      ∀ data ∈ packets.head?, (reader.begun ++ available).length < (tcpFrame sodium key nonce data).length
  | (.packet data, reader, available) => ∃ packets', packets = data :: packets' ∧
      Before sodium key reader available rest (incrementNonce nonce) packets'

/-- Reading the body of a frame. -/
theorem Before.readBody (hlawful : sodium.Lawful) (hfits : ∀ data ∈ packets, FitsFrame data) {maxLen : ℕ}
    (hmax : tcpMaxPacketSize ≤ maxLen + macBytes) (h : Before sodium key reader available rest nonce packets)
    (hbegun : reader.nextPacketLength ≠ 0) :
    Reads sodium key rest nonce packets (readBody sodium reader available maxLen) := by
  have hbytes := h.bytes
  rw [begun, if_neg hbegun] at hbytes
  cases packets with
  | nil =>
    have hempty := congrArg List.length hbytes
    rw [length_append, beBytes_length] at hempty
    exact absurd hempty (by rw [tcpFrames, length_nil]; omega)
  | cons data packets =>
    have hfit := hfits data mem_cons_self
    obtain ⟨encrypted, -, hlength, hdecrypt, hframe⟩ := hfit.encrypts key hlawful nonce
    rw [tcpFrames, hframe, append_assoc] at hbytes
    obtain ⟨hhead, hrest⟩ := append_inj hbytes (by rw [beBytes_length, beBytes_length])
    have hnext := reader.nextPacketLength.toNat_lt
    have hmost := hfit.2
    simp only [tcpMaxPacketSize, macBytes] at hmax hmost hlength hhead
    have hvalue := congrArg beNat hhead
    rw [beNat_beBytes_of_lt (by omega), beNat_beBytes_of_lt (by omega), ← hlength] at hvalue
    rw [TcpReader.readBody, if_neg (by simp only [macBytes]; omega), readTcpPacket, hvalue]
    by_cases hthere : available.length ≥ encrypted.length
    · have htake := congrArg (List.take encrypted.length) hrest
      have hdrop := congrArg (List.drop encrypted.length) hrest
      rw [take_append_of_le_length hthere, take_left] at htake
      rw [drop_append_of_le_length hthere, drop_left] at hdrop
      rw [if_pos hthere, htake]
      dsimp only
      rw [h.sharedKey, h.recvNonce, hdecrypt, if_neg]
      · exact ⟨packets, rfl, rfl, rfl, hdrop⟩
      · rw [Option.elim_some, hlength]
        exact fun hne => hne rfl
    · rw [if_neg hthere]
      refine ⟨h, fun data' hhead' => ?_⟩
      obtain rfl := Option.some_inj.mp hhead'
      rw [begun, if_neg hbegun, hframe, length_append, length_append, beBytes_length, beBytes_length]
      omega

/-- Every call of `read_packet_TCP_secure_connection` returns the next packet, or 0 while its frame is not there. -/
theorem Before.readPacket (hlawful : sodium.Lawful) (hfits : ∀ data ∈ packets, FitsFrame data) {maxLen : ℕ}
    (hmax : tcpMaxPacketSize ≤ maxLen + macBytes) (h : Before sodium key reader available rest nonce packets) :
    Reads sodium key rest nonce packets (readPacket sodium reader available maxLen) := by
  rw [TcpReader.readPacket]
  by_cases hbegun : reader.nextPacketLength = 0
  · have hbytes := h.bytes
    rw [begun, if_pos hbegun, nil_append] at hbytes
    rw [if_pos hbegun, readTcpLength]
    by_cases hthere : available.length ≥ 2
    · rw [if_pos hthere]
      cases packets with
      | nil =>
        have hempty := congrArg List.length hbytes
        rw [tcpFrames, length_append, length_nil] at hempty
        omega
      | cons data packets =>
        have hfit := hfits data mem_cons_self
        obtain ⟨encrypted, -, hlength, -, hframe⟩ := hfit.encrypts key hlawful nonce
        have htake := congrArg (List.take 2) hbytes
        have hdrop := congrArg (List.drop 2) hbytes
        rw [tcpFrames, hframe, append_assoc, take_append_of_le_length hthere,
          take_left' (beBytes_length _ _)] at htake
        have hmost := hfit.2
        simp only [tcpMaxPacketSize, macBytes] at hmost
        have hvalue : beNat (available.take 2) = data.length + macBytes := by
          rw [htake, beNat_beBytes_of_lt (by simp only [macBytes]; omega)]
        have hlen : (UInt16.ofNat (data.length + macBytes)).toNat = data.length + macBytes :=
          UInt16.toNat_ofNat_of_lt' (by change data.length + 16 < 65536; omega)
        have hzero : UInt16.ofNat (data.length + macBytes) ≠ 0 := by
          intro hzero
          rw [hzero] at hlen
          change 0 = data.length + 16 at hlen
          omega
        have hvalid : UInt16.ofNat (data.length + macBytes) ≠ 65535 := by
          intro hinvalid
          rw [hinvalid] at hlen
          change 65535 = data.length + 16 at hlen
          omega
        have hsmall : ¬data.length + macBytes > tcpMaxPacketSize := by
          simp only [tcpMaxPacketSize, macBytes]
          omega
        dsimp only
        rw [hvalue, hlen, if_neg hsmall, if_neg hvalid, if_neg hzero]
        have hbefore : Before sodium key { reader with nextPacketLength := UInt16.ofNat (data.length + macBytes) }
            (available.drop 2) rest nonce (data :: packets) := by
          refine ⟨h.sharedKey, h.recvNonce, ?_⟩
          rw [begun, if_neg hzero]
          dsimp only
          rw [hlen, ← htake, ← append_assoc, take_append_drop, hbytes]
        exact hbefore.readBody hlawful hfits hmax hzero
    · rw [if_neg hthere]
      dsimp only
      rw [if_neg (by decide), if_pos rfl]
      refine ⟨h, fun data _ => ?_⟩
      rw [begun, if_pos hbegun, nil_append, tcpFrame, length_append, beBytes_length]
      omega
  · rw [if_neg hbegun]
    exact h.readBody hlawful hfits hmax hbegun

end TcpReader

end Toxcore
