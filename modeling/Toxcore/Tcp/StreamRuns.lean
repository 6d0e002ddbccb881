import Toxcore.Tcp.StreamDelivery

/-!
# Runs of a TCP stream

One side writes and sends what is pending, the bytes it put on the socket become available at the other side in any
pieces, and the other side reads.
-/

namespace Toxcore

open ByteStrings List

/-- One direction of a connection: both ends, everything that was put on the socket, what of it has not arrived, what
has arrived and was not read, the packets for which a call of `write_packet_TCP_secure_connection` returned 1, and
what the calls of `read_packet_TCP_secure_connection` returned. -/
structure TcpStream where
  writer : TcpWriter
  reader : TcpReader
  onSocket : Bytes
  inFlight : Bytes
  available : Bytes
  written : List Bytes
  returned : List ReadResult

/-- What happens on a stream. Every write and every sending of pending data is given the answers of its calls of
`send`. -/
inductive TcpStreamEvent where
  | write (data : Bytes) (priority : Bool) (answers : List (Option ℕ))
  | sendPending (answers : List (Option ℕ))
  | arrive (count : ℕ)
  | read (maxLen : ℕ)

/-- The packets that were returned. -/
def packetsRead (returned : List ReadResult) : List Bytes :=
  returned.filterMap fun
    | .packet data => some data
    | _ => none

/-- What is written is 1 to `MAX_PACKET_SIZE - 16` bytes long, and what is read into has room for any packet. -/
def TcpStreamEvent.Fits : TcpStreamEvent → Prop
  | .write data _ _ => FitsFrame data
  | .read maxLen => tcpMaxPacketSize ≤ maxLen + macBytes
  | _ => True

namespace TcpStream

/-- A connection after its handshake. -/
def new (key : SharedKey) (nonce : Nonce) : TcpStream where
  writer := ⟨key, nonce, [], 0, []⟩
  reader := ⟨key, nonce, 0⟩
  onSocket := []
  inFlight := []
  available := []
  written := []
  returned := []

/-- The writer made calls of `send`. -/
def putOn (stream : TcpStream) (writer : TcpWriter) (sock : SendSocket) : TcpStream :=
  { stream with
    writer := writer, onSocket := stream.onSocket ++ sock.accepted, inFlight := stream.inFlight ++ sock.accepted }

/-- One event. -/
def step (sodium : Sodium) (stream : TcpStream) : TcpStreamEvent → TcpStream
  | .write data priority answers =>
    let (result, writer, sock) := stream.writer.writePacket ⟨answers, []⟩ sodium true data priority
    { stream.putOn writer sock with
      written := if result = .sent then stream.written ++ [data] else stream.written }
  | .sendPending answers =>
    let (_, writer, sock) := stream.writer.sendPendingData ⟨answers, []⟩
    stream.putOn writer sock
  | .arrive count =>
    { stream with
      available := stream.available ++ stream.inFlight.take count, inFlight := stream.inFlight.drop count }
  | .read maxLen =>
    let (result, reader, available) := stream.reader.readPacket sodium stream.available maxLen
    { stream with reader := reader, available := available, returned := stream.returned ++ [result] }

/-- Several events. -/
def run (sodium : Sodium) (stream : TcpStream) (events : List TcpStreamEvent) : TcpStream :=
    events.foldl (step sodium) stream

/-- Both ends are at their points of the frames of the packets that were written. -/
structure Synchronized (sodium : Sodium) (key : SharedKey) (nonce : Nonce) (stream : TcpStream) : Prop where
  sharedKey : stream.writer.sharedKey = key
  sentNonce : stream.writer.sentNonce = nonceAdd nonce stream.written.length
  fits : ∀ data ∈ stream.written, FitsFrame data
  frames : stream.onSocket ++ stream.writer.pending = tcpFrames sodium key nonce stream.written
  unread : ∃ unread, stream.written = packetsRead stream.returned ++ unread ∧
    stream.reader.Before sodium key stream.available (stream.inFlight ++ stream.writer.pending)
      (nonceAdd nonce (packetsRead stream.returned).length) unread
  reads : .failed ∉ stream.returned

section Runs

variable {sodium : Sodium} {key : SharedKey} {nonce : Nonce} {stream : TcpStream}

/-- Both ends start with one nonce. -/
theorem synchronized_new (sodium : Sodium) (key : SharedKey) (nonce : Nonce) :
    (new key nonce).Synchronized sodium key nonce where
  sharedKey := rfl
  sentNonce := (nonceAdd_zero nonce).symm
  fits := nofun
  frames := rfl
  unread := ⟨[], rfl, rfl, (nonceAdd_zero nonce).symm, rfl⟩
  reads := nofun

/-- Bytes move from what is pending to the socket. -/
theorem Synchronized.putOn (h : stream.Synchronized sodium key nonce) {writer : TcpWriter} {sock : SendSocket}
    (hkey : writer.sharedKey = stream.writer.sharedKey) (hnonce : writer.sentNonce = stream.writer.sentNonce)
    (hbytes : sock.accepted ++ writer.pending = stream.writer.pending) :
    (stream.putOn writer sock).Synchronized sodium key nonce := by
  obtain ⟨unread, hwritten, hbefore⟩ := h.unread
  refine ⟨hkey.trans h.sharedKey, hnonce.trans h.sentNonce, h.fits, ?_, ⟨unread, hwritten, ?_⟩, h.reads⟩
  · have hframes := h.frames
    rw [← hbytes, ← append_assoc] at hframes
    exact hframes
  · rw [← hbytes, ← append_assoc] at hbefore
    exact hbefore

/-- The frame of a further packet comes behind what is pending. -/
theorem Synchronized.write (h : stream.Synchronized sodium key nonce) {writer : TcpWriter} {sock : SendSocket}
    {data : Bytes} (hfits : FitsFrame data) (hkey : writer.sharedKey = stream.writer.sharedKey)
    (hnonce : writer.sentNonce = incrementNonce stream.writer.sentNonce)
    (hbytes : sock.accepted ++ writer.pending =
      stream.writer.pending ++ tcpFrame sodium stream.writer.sharedKey stream.writer.sentNonce data) :
    { stream.putOn writer sock with written := stream.written ++ [data] : TcpStream }.Synchronized sodium key
      nonce := by
  obtain ⟨unread, hwritten, hbefore⟩ := h.unread
  rw [h.sharedKey, h.sentNonce] at hbytes
  have hframes : tcpFrames sodium key nonce (stream.written ++ [data]) =
      tcpFrames sodium key nonce stream.written ++ tcpFrame sodium key (nonceAdd nonce stream.written.length) data := by
    rw [tcpFrames_append, tcpFrames, tcpFrames, append_nil]
  refine ⟨hkey.trans h.sharedKey, ?_, ?_, ?_, ⟨unread ++ [data], ?_, hbefore.sharedKey, hbefore.recvNonce, ?_⟩, h.reads⟩
  · rw [TcpStream.putOn]
    dsimp only
    rw [hnonce, h.sentNonce, incrementNonce_eq, nonceAdd_add, length_append, length_singleton]
  · intro data' hmem
    rcases mem_append.mp hmem with hmem | hmem
    · exact h.fits data' hmem
    · rw [mem_singleton.mp hmem]
      exact hfits
  · rw [TcpStream.putOn]
    dsimp only
    rw [hframes, ← h.frames, append_assoc, append_assoc, hbytes]
  · dsimp only
    rw [hwritten, append_assoc]
    rfl
  · have hlength : (packetsRead stream.returned).length + unread.length = stream.written.length := by
      rw [hwritten, length_append]
    rw [TcpStream.putOn]
    dsimp only
    rw [tcpFrames_append, ← hbefore.bytes, nonceAdd_add, hlength, tcpFrames, tcpFrames, append_nil]
    simp only [append_assoc]
    rw [hbytes]

/-- Bytes arrive. -/
theorem Synchronized.arrive (h : stream.Synchronized sodium key nonce) (count : ℕ) :
    (stream.step sodium (.arrive count)).Synchronized sodium key nonce := by
  obtain ⟨unread, hwritten, hbefore⟩ := h.unread
  refine ⟨h.sharedKey, h.sentNonce, h.fits, h.frames, ⟨unread, hwritten, hbefore.sharedKey, hbefore.recvNonce, ?_⟩,
    h.reads⟩
  rw [step]
  dsimp only
  rw [← hbefore.bytes, append_assoc, ← append_assoc (stream.inFlight.take count), take_append_drop]

theorem packetsRead_append (returned : List ReadResult) (result : ReadResult) :
    packetsRead (returned ++ [result]) = packetsRead returned ++ packetsRead [result] := filterMap_append

/-- A packet is read, or none is there. -/
theorem Synchronized.read (hlawful : sodium.Lawful) (h : stream.Synchronized sodium key nonce) {maxLen : ℕ}
    (hmax : tcpMaxPacketSize ≤ maxLen + macBytes) :
    (stream.step sodium (.read maxLen)).Synchronized sodium key nonce := by
  obtain ⟨unread, hwritten, hbefore⟩ := h.unread
  have hfits : ∀ data ∈ unread, FitsFrame data := fun data hmem =>
    h.fits data (hwritten ▸ mem_append_right _ hmem)
  have hreads := hbefore.readPacket hlawful hfits hmax
  rw [step]
  generalize stream.reader.readPacket sodium stream.available maxLen = outcome at hreads
  obtain ⟨result, reader, available⟩ := outcome
  dsimp only
  cases result with
  | failed => exact hreads.elim
  | noPacket =>
    have hsame : packetsRead (stream.returned ++ [.noPacket]) = packetsRead stream.returned := by
      rw [packetsRead_append]
      exact append_nil _
    refine ⟨h.sharedKey, h.sentNonce, h.fits, h.frames, ⟨unread, ?_, ?_⟩, ?_⟩
    · dsimp only
      rw [hsame, hwritten]
    · dsimp only
      rw [hsame]
      exact hreads.1
    · exact fun hmem => (mem_append.mp hmem).elim h.reads nofun
  | packet data =>
    obtain ⟨packets', rfl, hbefore'⟩ := hreads
    refine ⟨h.sharedKey, h.sentNonce, h.fits, h.frames, ⟨packets', ?_, ?_⟩, ?_⟩
    · dsimp only
      rw [packetsRead_append, append_assoc]
      exact hwritten
    · dsimp only
      rw [packetsRead_append, length_append, ← nonceAdd_add]
      rw [incrementNonce_eq] at hbefore'
      exact hbefore'
    · exact fun hmem => (mem_append.mp hmem).elim h.reads nofun

/-- Every event keeps both ends synchronized. -/
theorem Synchronized.step (hlawful : sodium.Lawful) (h : stream.Synchronized sodium key nonce) {event : TcpStreamEvent}
    (hfits : event.Fits) : (stream.step sodium event).Synchronized sodium key nonce := by
  cases event with
  | write data priority answers =>
    have hmoves := TcpWriter.writePacket_moves stream.writer ⟨answers, []⟩ hlawful hfits priority
    rw [TcpStream.step]
    generalize stream.writer.writePacket ⟨answers, []⟩ sodium true data priority = outcome at hmoves
    obtain ⟨result, writer, sock⟩ := outcome
    obtain ⟨hkey, ⟨rfl, hnonce, hbytes⟩ | ⟨rfl, hnonce, hbytes⟩⟩ := hmoves
    · exact h.putOn hkey hnonce hbytes
    · exact h.write hfits hkey hnonce hbytes
  | sendPending answers =>
    have hmoves := (TcpWriter.sendPendingData_moves stream.writer ⟨answers, []⟩).1
    exact h.putOn hmoves.sharedKey hmoves.sentNonce hmoves.bytes
  | arrive count => exact h.arrive count
  | read maxLen => exact h.read hlawful hfits

/-- Both ends are synchronized in every run. -/
theorem Synchronized.run (hlawful : sodium.Lawful) (h : stream.Synchronized sodium key nonce)
    {events : List TcpStreamEvent}
    (hfits : ∀ event ∈ events, event.Fits) : (stream.run sodium events).Synchronized sodium key nonce := by
  induction events generalizing stream with
  | nil => exact h
  | cons event events ih =>
    exact ih (h.step hlawful (hfits event mem_cons_self)) fun event' hmem => hfits event' (mem_cons_of_mem _ hmem)

/-- Where the frame of the next packet has arrived, it is read. -/
theorem Synchronized.read_progress (hlawful : sodium.Lawful) (h : stream.Synchronized sodium key nonce) {maxLen : ℕ}
    (hmax : tcpMaxPacketSize ≤ maxLen + macBytes) {count : ℕ} (hcount : count ≤ stream.written.length)
    (harrived : (tcpFrames sodium key nonce (stream.written.take count)).length + stream.inFlight.length ≤
      stream.onSocket.length) :
    min count ((packetsRead stream.returned).length + 1) ≤
      (packetsRead (stream.step sodium (.read maxLen)).returned).length := by
  obtain ⟨unread, hwritten, hbefore⟩ := h.unread
  have hfits : ∀ data ∈ unread, FitsFrame data := fun data hmem =>
    h.fits data (hwritten ▸ mem_append_right _ hmem)
  have hreads := hbefore.readPacket hlawful hfits hmax
  have hframes := congrArg List.length h.frames
  rw [TcpStream.step]
  generalize stream.reader.readPacket sodium stream.available maxLen = outcome at hreads
  obtain ⟨result, reader, available⟩ := outcome
  dsimp only
  rw [packetsRead_append, length_append]
  cases result with
  | failed => exact hreads.elim
  | packet data => exact min_le_right _ _
  | noPacket =>
    obtain ⟨hbefore', hmissing⟩ := hreads
    have hbytes := congrArg List.length hbefore'.bytes
    have hsplit := congrArg List.length (tcpFrames_append sodium key nonce (packetsRead stream.returned) unread)
    rw [← hwritten] at hsplit
    by_contra hless
    have hlate : (packetsRead stream.returned).length < count := by
      by_contra hdone
      exact hless ((min_le_left _ _).trans ((Nat.not_lt.mp hdone).trans (Nat.le_add_right _ _)))
    cases unread with
    | nil =>
      rw [append_nil] at hwritten
      rw [hwritten] at hcount
      omega
    | cons data unread =>
      have hframe := hmissing data rfl
      have htake : stream.written.take count = packetsRead stream.returned ++
          data :: unread.take (count - (packetsRead stream.returned).length - 1) := by
        rw [hwritten, take_append, take_of_length_le hlate.le,
          show count - (packetsRead stream.returned).length =
            count - (packetsRead stream.returned).length - 1 + 1 by omega,
          take_succ_cons, Nat.add_sub_cancel]
      rw [htake, tcpFrames_append, tcpFrames] at harrived
      simp only [length_append] at hframes hbytes hsplit hframe harrived
      omega

/-- Enough calls of `read_packet_TCP_secure_connection` return every packet whose frame has arrived. -/
theorem Synchronized.reads_progress (hlawful : sodium.Lawful) (h : stream.Synchronized sodium key nonce) {maxLen : ℕ}
    (hmax : tcpMaxPacketSize ≤ maxLen + macBytes) {count : ℕ} (hcount : count ≤ stream.written.length)
    (harrived : (tcpFrames sodium key nonce (stream.written.take count)).length + stream.inFlight.length ≤
      stream.onSocket.length) (calls : ℕ) :
    (stream.run sodium (List.replicate calls (.read maxLen))).written = stream.written ∧
      min count ((packetsRead stream.returned).length + calls) ≤
        (packetsRead (stream.run sodium (List.replicate calls (.read maxLen))).returned).length := by
  induction calls generalizing stream with
  | zero => exact ⟨rfl, min_le_right _ _⟩
  | succ calls ih =>
    have hread := h.read_progress hlawful hmax hcount harrived
    obtain ⟨hwritten, hreads⟩ := ih (h.read hlawful hmax) hcount harrived
    rw [replicate_succ]
    refine ⟨hwritten, le_trans ?_ hreads⟩
    omega

end Runs

/-- In every run of a stream whose ends share the key and the nonce, the bytes put on the socket are a front of the
frames of the packets that were written; the packets that were read are a front of these packets; no read fails; the
nonces are equal when everything was read; and enough calls of `read_packet_TCP_secure_connection` read every packet
whose frame has arrived. -/
theorem streams_faithfully (sodium : Sodium) (hlawful : sodium.Lawful) (key : SharedKey) (nonce : Nonce)
    (events : List TcpStreamEvent) (hfits : ∀ event ∈ events, event.Fits) :
    let stream := (new key nonce).run sodium events
    stream.onSocket <+: tcpFrames sodium key nonce stream.written ∧
      packetsRead stream.returned <+: stream.written ∧ .failed ∉ stream.returned ∧
      (packetsRead stream.returned = stream.written → stream.reader.recvNonce = stream.writer.sentNonce) ∧
      ∀ maxLen, tcpMaxPacketSize ≤ maxLen + macBytes → ∀ calls, stream.written.length ≤ calls →
        ∀ count ≤ stream.written.length,
          (tcpFrames sodium key nonce (stream.written.take count)).length + stream.inFlight.length ≤
            stream.onSocket.length →
          stream.written.take count <+: packetsRead
            (stream.run sodium (List.replicate calls (.read maxLen))).returned := by
  have h := (synchronized_new sodium key nonce).run hlawful hfits
  dsimp only
  generalize (new key nonce).run sodium events = stream at h
  obtain ⟨unread, hwritten, hbefore⟩ := h.unread
  refine ⟨⟨_, h.frames⟩, ⟨_, hwritten.symm⟩, h.reads, fun hall => ?_, ?_⟩
  · rw [hbefore.recvNonce, h.sentNonce, hall]
  · intro maxLen hmax calls hcalls count hcount harrived
    obtain ⟨hsame, hreads⟩ := h.reads_progress hlawful hmax hcount harrived calls
    have hrun : (stream.run sodium (List.replicate calls (.read maxLen))).Synchronized sodium key nonce :=
      h.run hlawful fun event hmem => by
        rw [eq_of_mem_replicate hmem]
        exact hmax
    obtain ⟨unread', hwritten', -⟩ := hrun.unread
    rw [hsame] at hwritten'
    refine prefix_of_prefix_length_le (List.take_prefix _ _) ⟨unread', hwritten'.symm⟩ ?_
    rw [length_take]
    omega

/-- A priority packet overtakes nothing: it waits behind an ordinary packet of which 5 bytes were sent. -/
theorem streams_faithfully_priority :
    let stream := (new (slice 32 [] 0) (slice 24 [] 0)).run .plain
      [.write [1, 2] false [some 5], .write [3] true [none], .write [4] false [some 0], .arrive 4, .read 2048,
        .sendPending [some 100, some 100], .arrive 100, .read 2048, .read 2048]
    packetsRead stream.returned <+: stream.written ∧ .failed ∉ stream.returned ∧ stream.written = [[1, 2], [3]] ∧
      stream.returned = [.noPacket, .packet [1, 2], .packet [3]] := by
  have h := streams_faithfully .plain Sodium.plain_lawful (slice 32 [] 0) (slice 24 [] 0)
      [.write [1, 2] false [some 5], .write [3] true [none], .write [4] false [some 0], .arrive 4, .read 2048,
        .sendPending [some 100, some 100], .arrive 100, .read 2048, .read 2048]
      (by simp [TcpStreamEvent.Fits, FitsFrame, tcpMaxPacketSize, macBytes])
  exact ⟨h.2.1, h.2.2.1, by decide +kernel, by decide +kernel⟩

end TcpStream

end Toxcore
