import Toxcore.Messenger.Profiles

/-!
# Friends that know each other's values

Two messengers that are friends, with all that they do by themselves, what they send to each other, and the
connections between them that come and go. The packets of a connection come in the order in which they were sent;
those that are on their way when the one they are for leaves it are lost. A new connection is made only after both
have left the old one.
-/

namespace Toxcore

open ByteStrings Function List Option

/-! ## Two friends -/

/-- Where a side is in a connection: it has not joined it yet, it is connected, or it has left it. -/
inductive SessionPhase where
  | fresh
  | joined
  | left
  deriving DecidableEq

/-- Two messengers that are friends, how far each is with the connection between them, and the packets on their way
from each to the other, the oldest first. -/
structure ProfilePair where
  side : Bool → ProfileMessenger
  phase : Bool → SessionPhase
  link : Bool → List Bytes

/-- What one of the two does, or what happens to both. A packet that is written is none of those modelled here. -/
inductive ProfileStep where
  | setname (b : Bool) (name : Bytes)
  | setStatusmessage (b : Bool) (status : Bytes)
  | setUserstatus (b : Bool) (status : UInt8)
  | setUsertyping (b : Bool) (friendnumber : ℕ) (isTyping : UInt8)
  | doFriends (b : Bool) (sends : ℕ → Messenger.FriendSends) (tempTime time : UInt64)
  | join (b : Bool) (sent : Bool)
  | leave (b : Bool)
  | receive (b : Bool) (sent : Bool)
  | write (b : Bool) (packet : Bytes)
  | otherStatus (b : Bool) (friendnumber : ℕ) (status : Bool)
  | otherPacket (b : Bool) (friendnumber : ℕ) (packet : Bytes)
  | reset

namespace ProfilePair

/-- Put packets of a side on their way. -/
def send (pair : ProfilePair) (b : Bool) (packets : List Bytes) : ProfilePair :=
  { pair with link := update pair.link b (pair.link b ++ packets) }

/-- Change the messenger of a side. -/
def set (pair : ProfilePair) (b : Bool) (p : ProfileMessenger) : ProfilePair :=
  { pair with side := update pair.side b p }

section Steps

variable (number : Bool → ℕ)

/-- `handle_status` for a new connection. -/
def join (pair : ProfilePair) (b sent : Bool) : ProfilePair :=
  if pair.phase b = .fresh then
    { pair with phase := update pair.phase b .joined }.send b (if sent then [[packetIdOnline]] else [])
  else pair

/-- `handle_status` for a connection that is lost. -/
def leave (pair : ProfilePair) (b : Bool) : ProfilePair :=
  if pair.phase b = .joined then
    { pair with phase := update pair.phase b .left }.set b
      { pair.side b with messenger := (pair.side b).messenger.handleStatus (number b) false }
  else pair

/-- `handle_packet`, and its answer to a friend that comes online. -/
def receive (pair : ProfilePair) (b sent : Bool) : ProfilePair :=
  match pair.phase b, pair.link (!b) with
  | .joined, packet :: rest =>
    let answers := ((pair.side b).messenger.getFriend (number b)).any fun friend =>
      friend.status ≠ .online ∧ packet = [packetIdOnline]
    ({ pair with link := update pair.link (!b) rest }.set b
      { pair.side b with messenger := (pair.side b).messenger.handlePacket (number b) packet }).send b
        (if answers && sent then [[packetIdOnline]] else [])
  | _, _ => pair

/-- A step of the two. -/
def exec (pair : ProfilePair) : ProfileStep → ProfilePair
  | .setname b name => pair.set b ((pair.side b).setname name)
  | .setStatusmessage b status => pair.set b ((pair.side b).mSetStatusmessage status)
  | .setUserstatus b status => pair.set b ((pair.side b).mSetUserstatus status)
  | .setUsertyping b friendnumber isTyping => pair.set b ((pair.side b).mSetUsertyping friendnumber isTyping).2
  | .doFriends b sends tempTime time =>
    (pair.set b ((pair.side b).doFriends sends tempTime time)).send b
      ((pair.side b).profilePackets (number b) (sends (number b)))
  | .join b sent => pair.join b sent
  | .leave b => pair.leave number b
  | .receive b sent => pair.receive number b sent
  | .write b packet => if pair.phase b = .joined ∧ isOtherPacket packet then pair.send b [packet] else pair
  | .otherStatus b friendnumber status =>
    if friendnumber = number b then pair
    else pair.set b { pair.side b with messenger := (pair.side b).messenger.handleStatus friendnumber status }
  | .otherPacket b friendnumber packet =>
    if friendnumber = number b then pair
    else pair.set b { pair.side b with messenger := (pair.side b).messenger.handlePacket friendnumber packet }
  | .reset =>
    if pair.phase false ≠ .joined ∧ pair.phase true ≠ .joined then
      { pair with phase := fun _ => .fresh, link := fun _ => [] }
    else pair

/-- The two after some steps. -/
def run (pair : ProfilePair) (steps : List ProfileStep) : ProfilePair := steps.foldl (exec number) pair

end Steps

end ProfilePair

/-! ## The invariant -/

namespace ProfilePair

/-- Two friends that know, or will know when the packets on their way have come, what the other has told them. -/
structure Sound (number : Bool → ℕ) (pair : ProfilePair) : Prop where
  valid : ∀ b, (pair.side b).Valid (number b)
  friend : ∀ b, ∃ friend, (pair.side b).messenger.getFriend (number b) = some friend ∧
    (friend.status = .online → pair.phase b = .joined)
  told : ∀ b friend friend', (pair.side b).messenger.getFriend (number b) = some friend → friend.status = .online →
    (pair.side (!b)).messenger.getFriend (number (!b)) = some friend' → pair.phase (!b) ≠ .left →
    ∀ field : ProfileField, field.sent friend = true → (field.hears friend' (pair.link b)).1 = true →
      (field.hears friend' (pair.link b)).2 = field.own (pair.side b) (number b)

namespace Sound

variable {number : Bool → ℕ} {pair : ProfilePair}

section

variable (h : pair.Sound number)
include h

variable {b : Bool}

/-- What the other side has told. -/
theorem told_back {friend old : Friend} (hget : (pair.side (!b)).messenger.getFriend (number (!b)) = some friend)
    (honline : friend.status = .online) (hold : (pair.side b).messenger.getFriend (number b) = some old)
    (hphase : pair.phase b ≠ .left) (field : ProfileField) (hsent : field.sent friend = true) :
    (field.hears old (pair.link (!b))).1 = true →
      (field.hears old (pair.link (!b))).2 = field.own (pair.side (!b)) (number (!b)) := by
  have htold := h.told (!b) friend old hget honline
  rw [Bool.not_not] at htold
  exact htold hold hphase field hsent

/-- One side is changed: it is for that side to say what it tells now, and what it hears. -/
theorem changeSide {next : ProfilePair} {p : ProfileMessenger} {new : Friend}
    (hside : next.side = update pair.side b p)
    (hphase : next.phase (!b) = pair.phase (!b)) (hvalid : p.Valid (number b))
    (hnew : p.messenger.getFriend (number b) = some new) (hjoined : new.status = .online → next.phase b = .joined)
    (htells : ∀ other, (pair.side (!b)).messenger.getFriend (number (!b)) = some other → new.status = .online →
      pair.phase (!b) ≠ .left → ∀ field : ProfileField, field.sent new = true →
        (field.hears other (next.link b)).1 = true →
        (field.hears other (next.link b)).2 = field.own p (number b))
    (hhears : ∀ friend, (pair.side (!b)).messenger.getFriend (number (!b)) = some friend → friend.status = .online →
      next.phase b ≠ .left → ∀ field : ProfileField, field.sent friend = true →
        (field.hears new (next.link (!b))).1 = true →
          (field.hears new (next.link (!b))).2 = field.own (pair.side (!b)) (number (!b))) : next.Sound number := by
  have hself : next.side b = p := by rw [hside, update_self]
  have hother : next.side (!b) = pair.side (!b) := by rw [hside, update_of_ne (Bool.not_ne_self b)]
  constructor
  · intro c
    obtain rfl | rfl := Bool.eq_or_eq_not c b
    · rwa [hself]
    · rw [hother]
      exact h.valid _
  · intro c
    obtain rfl | rfl := Bool.eq_or_eq_not c b
    · rw [hself]
      exact ⟨new, hnew, hjoined⟩
    · rw [hother, hphase]
      exact h.friend _
  · intro c friend friend' hget honline hget' hleft
    obtain rfl | rfl := Bool.eq_or_eq_not c b
    · rw [hself] at hget ⊢
      rw [hother] at hget'
      obtain rfl := some.inj (hnew.symm.trans hget)
      exact htells friend' hget' honline (hphase ▸ hleft)
    · rw [hother] at hget ⊢
      rw [Bool.not_not] at hget' hleft
      rw [hself] at hget'
      obtain rfl := some.inj (hnew.symm.trans hget')
      exact hhears friend hget honline hleft

/-- A step of a messenger by itself. -/
theorem set {p : ProfileMessenger} (hkeeps : (pair.side b).Keeps (number b) p) : (pair.set b p).Sound number := by
  obtain ⟨old, hold, hjoined⟩ := h.friend b
  obtain ⟨new, hnew, hstatus, hstored, hsent⟩ := hkeeps.friend old hold
  refine h.changeSide rfl rfl (hkeeps.valid (h.valid b)) hnew (fun honline => hjoined (hstatus ▸ honline)) ?_ ?_
  · intro other hget honline hphase field hsentNew
    obtain ⟨hsentOld, hown⟩ := hsent field hsentNew
    rw [hown]
    exact h.told b old other hold (hstatus ▸ honline) hget hphase field hsentOld
  · intro friend hget honline hphase field hsentFriend
    have hhears : field.hears new (pair.link (!b)) = field.hears old (pair.link (!b)) := by
      rw [ProfileField.hears, ProfileField.hears, hstatus, hstored]
    change (field.hears new (pair.link (!b))).1 = true → (field.hears new (pair.link (!b))).2 = _
    rw [hhears]
    exact h.told_back hget honline hold hphase field hsentFriend

/-- `do_friends` of a side. -/
theorem doFriends (b : Bool) (sends : ℕ → Messenger.FriendSends) (tempTime time : UInt64) :
    (pair.exec number (.doFriends b sends tempTime time)).Sound number := by
  obtain ⟨old, hold, hjoined⟩ := h.friend b
  have hfriend := ProfileMessenger.getFriend_doFriends hold sends tempTime time
  have hown (field : ProfileField) : field.own ((pair.side b).doFriends sends tempTime time) (number b) =
      field.own (pair.side b) (number b) := by
    cases field <;> rfl
  have hstatus : (Messenger.doFriend (sends (number b)) tempTime time old).status = .online ↔ old.status = .online := by
    constructor
    · intro honline
      by_contra hoffline
      exact (doFriend_offline hoffline ..).1 honline
    · exact fun honline => (doFriend_online honline ..).1
  have hstored (field : ProfileField) :
    field.stored (Messenger.doFriend (sends (number b)) tempTime time old) = field.stored old := by
    by_cases honline : old.status = .online
    · exact (doFriend_online honline ..).2.1 field
    · exact (doFriend_offline honline ..).2.2 field
  have hlink (c : Bool) : (pair.exec number (.doFriends b sends tempTime time)).link c =
      if c = b then pair.link b ++ (pair.side b).profilePackets (number b) (sends (number b)) else pair.link c :=
    update_apply ..
  refine h.changeSide rfl rfl (fun field => by rw [hown]; exact h.valid b field) hfriend
    (fun honline => hjoined (hstatus.mp honline)) ?_ ?_
  · intro other hget honline hphase field hsent
    rw [hlink, if_pos rfl, hown, ProfileField.hears, foldl_append, ProfileMessenger.profilePackets, hold]
    have hbefore := h.told b old other hold (hstatus.mp honline) hget hphase field
    rw [(doFriend_online (hstatus.mp honline) ..).2.2, Bool.or_eq_true] at hsent
    dsimp only
    rw [← ProfileField.hears]
    generalize field.hears other (pair.link b) = state at hbefore ⊢
    obtain ⟨online, value⟩ := state
    rw [ProfileField.foldl_fieldPackets (h.valid b)]
    dsimp only at hbefore ⊢
    intro hhears
    subst hhears
    split
    · rfl
    · rename_i hnot
      apply hbefore _ rfl
      rcases hsent with hsent | hsends
      · exact hsent
      · by_contra hunsent
        apply hnot
        rw [ProfileMessenger.fieldsToSend, if_pos (hstatus.mp honline), mem_filter]
        refine ⟨rfl, ?_, by rw [Bool.not_eq_true _ |>.mp hunsent, hsends]; rfl⟩
        cases field <;> simp
  · intro friend hget honline hphase field hsent
    have hhears : field.hears (Messenger.doFriend (sends (number b)) tempTime time old) (pair.link (!b)) =
        field.hears old (pair.link (!b)) := by
      rw [ProfileField.hears, ProfileField.hears, hstored, decide_eq_decide.mpr hstatus]
    rw [hlink, if_neg (Bool.not_ne_self b), hhears]
    exact h.told_back hget honline hold hphase field hsent

/-- A side that has not joined the connection sends nothing that matters. -/
theorem send_offline {packets : List Bytes}
    (hoffline : ∀ friend, (pair.side b).messenger.getFriend (number b) = some friend → friend.status = .online →
      ∀ field : ProfileField, field.sent friend = true → ∀ state, packets.foldl field.listen state = state) :
    (pair.send b packets).Sound number where
  valid := h.valid
  friend := h.friend
  told c friend friend' hget honline hget' hphase field hsent := by
    have hlink : (pair.send b packets).link c = if c = b then pair.link b ++ packets else pair.link c :=
      update_apply ..
    rw [hlink]
    split
    · rename_i hc
      subst hc
      rw [ProfileField.hears, foldl_append, hoffline friend hget honline field hsent]
      exact h.told c friend friend' hget honline hget' hphase field hsent
    · exact h.told c friend friend' hget honline hget' hphase field hsent

/-- A new connection. -/
theorem join (b sent : Bool) : (pair.join b sent).Sound number := by
  unfold ProfilePair.join
  split
  · rename_i hfresh
    have hjoined : ({ pair with phase := update pair.phase b .joined } : ProfilePair).Sound number := by
      constructor
      · exact h.valid
      · intro c
        obtain ⟨friend, hfriend, hjoined⟩ := h.friend c
        refine ⟨friend, hfriend, fun honline => ?_⟩
        change update pair.phase b SessionPhase.joined c = .joined
        rw [update_apply]
        split
        · rfl
        · exact hjoined honline
      · intro c friend friend' hget honline hget' hphase
        apply h.told c friend friend' hget honline hget'
        intro hleft
        apply hphase
        change update pair.phase b SessionPhase.joined (!c) = .left
        rw [update_apply]
        split
        · rename_i hc
          rw [hc, hfresh] at hleft
          contradiction
        · exact hleft
    apply hjoined.send_offline
    intro friend hget honline
    obtain ⟨old, hold, hphase⟩ := h.friend b
    obtain rfl := some.inj (hold.symm.trans hget)
    rw [hphase honline] at hfresh
    contradiction
  · exact h

/-- A connection that is lost. -/
theorem leave (b : Bool) : (pair.leave number b).Sound number := by
  unfold ProfilePair.leave
  split
  · obtain ⟨old, hold, -⟩ := h.friend b
    obtain ⟨friend', hfriend', hoffline⟩ := Messenger.handleStatus_offline hold
    obtain ⟨f, hf⟩ := (pair.side b).messenger.handleStatus_eq_modifyFriend (number b) false
    set p : ProfileMessenger :=
      { pair.side b with messenger := (pair.side b).messenger.handleStatus (number b) false } with hp
    have hown (field : ProfileField) : field.own p (number b) = field.own (pair.side b) (number b) := by
      rw [hp, hf]
      cases field <;> rfl
    refine h.changeSide rfl (update_of_ne (Bool.not_ne_self b) ..) (fun field => by rw [hown]; exact h.valid b field)
      hfriend' (fun honline => absurd honline hoffline) (fun _ _ honline =>
        absurd honline hoffline) fun _ _ _ hleft => ?_
    exact absurd (update_self ..) hleft
  · exact h

/-- A packet that comes. -/
theorem receive (b sent : Bool) : (pair.receive number b sent).Sound number := by
  obtain ⟨old, hold, hjoined⟩ := h.friend b
  unfold ProfilePair.receive
  split
  · rename_i packet rest hphase hpackets
    obtain ⟨friend', hfriend', hlisten, hsentOld⟩ := Messenger.handlePacket_listen hold packet
    obtain ⟨f, hf⟩ := (pair.side b).messenger.handlePacket_eq_modifyFriend (number b) packet
    set p : ProfileMessenger :=
      { pair.side b with messenger := (pair.side b).messenger.handlePacket (number b) packet } with hp
    have hown (field : ProfileField) : field.own p (number b) = field.own (pair.side b) (number b) := by
      rw [hp, hf]
      cases field <;> rfl
    have hlink (c : Bool) : update pair.link (!b) rest c = if c = !b then rest else pair.link c :=
      update_apply ..
    have hreceived : ({ pair with link := update pair.link (!b) rest }.set b p).Sound number := by
      refine h.changeSide rfl rfl (fun field => by rw [hown]; exact h.valid b field) hfriend' (fun _ => hphase) ?_ ?_
      · intro other hget honline hleft field hsent
        change (field.hears other (update pair.link (!b) rest b)).1 = true →
          (field.hears other (update pair.link (!b) rest b)).2 = _
        rw [hlink, if_neg (Bool.self_ne_not b), hown]
        obtain ⟨honlineOld, hsentOld⟩ := hsentOld field honline hsent
        exact h.told b old other hold honlineOld hget hleft field hsentOld
      · intro friend hget honline hleft field hsent
        have hhears : field.hears friend' rest = field.hears old (pair.link (!b)) := by
          rw [hpackets, ProfileField.hears, ProfileField.hears, foldl_cons, hlisten]
        change (field.hears friend' (update pair.link (!b) rest (!b))).1 = true →
          (field.hears friend' (update pair.link (!b) rest (!b))).2 = _
        rw [hlink, if_pos rfl, hhears]
        exact h.told_back hget honline hold hleft field hsent
    apply hreceived.send_offline
    intro friend hget honline field hsent state
    change (update pair.side b p b).messenger.getFriend (number b) = some friend at hget
    rw [update_self] at hget
    obtain rfl := some.inj (hfriend'.symm.trans hget)
    rw [hold, any_some, decide_eq_false fun hboth => hboth.1 (hsentOld field honline hsent).1]
    rfl
  · exact h

end

/-- A packet of another kind. -/
theorem write (h : pair.Sound number) (b : Bool) (packet : Bytes) :
    (pair.exec number (.write b packet)).Sound number := by
  rw [exec]
  split
  · rename_i hother
    apply h.send_offline
    intro friend _ _ field _ state
    exact ProfileField.listen_otherPacket hother.2 state
  · exact h

/-- A connection that is over for both. -/
theorem reset (h : pair.Sound number) : (pair.exec number .reset).Sound number := by
  rw [exec]
  split
  · rename_i hboth
    have hoffline (c : Bool) (friend : Friend) (hget : (pair.side c).messenger.getFriend (number c) = some friend) :
        friend.status ≠ .online := by
      intro honline
      obtain ⟨old, hold, hjoined⟩ := h.friend c
      obtain rfl := some.inj (hold.symm.trans hget)
      cases c with
      | false => exact hboth.1 (hjoined honline)
      | true => exact hboth.2 (hjoined honline)
    constructor
    · exact h.valid
    · intro c
      obtain ⟨old, hold, -⟩ := h.friend c
      exact ⟨old, hold, fun honline => absurd honline (hoffline c old hold)⟩
    · intro c friend friend' hget honline
      exact absurd honline (hoffline c friend hget)
  · exact h

/-- Every step keeps it. -/
theorem exec (h : pair.Sound number) (step : ProfileStep) : (pair.exec number step).Sound number := by
  cases step with
  | setname b name => exact h.set (.setname _ _ name)
  | setStatusmessage b status => exact h.set (.mSetStatusmessage _ _ status)
  | setUserstatus b status => exact h.set (.mSetUserstatus _ _ status)
  | setUsertyping b friendnumber isTyping => exact h.set (.mSetUsertyping _ _ friendnumber isTyping)
  | doFriends b sends tempTime time => exact h.doFriends b sends tempTime time
  | join b sent => exact h.join b sent
  | leave b => exact h.leave b
  | receive b sent => exact h.receive b sent
  | write b packet => exact h.write b packet
  | otherStatus b friendnumber status =>
    rw [ProfilePair.exec]
    split
    · exact h
    · rename_i hother
      exact h.set (.otherStatus hother _ status)
  | otherPacket b friendnumber packet =>
    rw [ProfilePair.exec]
    split
    · exact h
    · rename_i hother
      exact h.set (.otherPacket hother _ packet)
  | reset => exact h.reset

/-- Every run keeps it. -/
theorem run (h : pair.Sound number) (steps : List ProfileStep) : (pair.run number steps).Sound number := by
  induction steps generalizing pair with
  | nil => exact h
  | cons step steps ih => exact ih (h.exec step)

end Sound

/-! ## Agreement -/

/-- Two friends that are not connected yet. -/
structure Starts (number : Bool → ℕ) (pair : ProfilePair) : Prop where
  valid : ∀ b, (pair.side b).Valid (number b)
  friend : ∀ b, ∃ friend, (pair.side b).messenger.getFriend (number b) = some friend ∧ friend.status ≠ .online
  phase : ∀ b, pair.phase b = .fresh
  link : ∀ b, pair.link b = []

variable {number : Bool → ℕ} {pair : ProfilePair}

/-- A pair that starts is sound. -/
theorem Starts.sound (h : pair.Starts number) : pair.Sound number where
  valid := h.valid
  friend b := by
    obtain ⟨friend, hfriend, hoffline⟩ := h.friend b
    exact ⟨friend, hfriend, fun honline => absurd honline hoffline⟩
  told b friend friend' hget honline := by
    obtain ⟨old, hold, hoffline⟩ := h.friend b
    obtain rfl := some.inj (hold.symm.trans hget)
    exact absurd honline hoffline

/-- While both are online and nothing is on its way, a friend knows what it was told. -/
theorem Sound.agree (h : pair.Sound number) {friend friend' : Friend}
    (hfriend : (pair.side b).messenger.getFriend (number b) = some friend) (honline : friend.status = .online)
    (hfriend' : (pair.side (!b)).messenger.getFriend (number (!b)) = some friend')
    (honline' : friend'.status = .online) (hempty : pair.link b = []) {field : ProfileField}
    (hsent : field.sent friend = true) : field.stored friend' = field.own (pair.side b) (number b) := by
  obtain ⟨old, hold, hjoined⟩ := h.friend (!b)
  obtain rfl := some.inj (hold.symm.trans hfriend')
  have hphase : pair.phase (!b) ≠ .left := by
    rw [hjoined honline']
    decide
  have htold := h.told b friend old hfriend honline hfriend' hphase field hsent
  rw [hempty] at htold
  exact htold (decide_eq_true honline')

/-- Whatever the two and their other friends do and however often the connection is lost: if both are online and no
packet is on its way from one to the other, then every value that is marked as sent is the value that the other
has. -/
theorem profiles_agree (hstarts : pair.Starts number) (steps : List ProfileStep) (b : Bool) (friend friend' : Friend)
    (hfriend : ((pair.run number steps).side b).messenger.getFriend (number b) = some friend)
    (honline : friend.status = .online)
    (hfriend' : ((pair.run number steps).side (!b)).messenger.getFriend (number (!b)) = some friend')
    (honline' : friend'.status = .online) (hempty : (pair.run number steps).link b = []) (field : ProfileField)
    (hsent : field.sent friend = true) :
    field.stored friend' = field.own ((pair.run number steps).side b) (number b) :=
  (hstarts.sound.run steps).agree hfriend honline hfriend' honline' hempty hsent

/-! ## Catching up -/

/-- No packet on its way says that a friend goes offline. -/
def NoOffline (pair : ProfilePair) : Prop := ∀ b, ∀ packet ∈ pair.link b, packet.head? ≠ some packetIdOffline

/-- Packets are sent, none of them an offline packet. -/
theorem NoOffline.send (h : pair.NoOffline) {packets : List Bytes}
    (hpackets : ∀ packet ∈ packets, packet.head? ≠ some packetIdOffline) : (pair.send b packets).NoOffline := by
  intro c packet hpacket
  have hlink : (pair.send b packets).link c = if c = b then pair.link b ++ packets else pair.link c := update_apply ..
  rw [hlink] at hpacket
  split at hpacket
  · rcases mem_append.mp hpacket with hold | hnew
    · exact h b packet hold
    · exact hpackets packet hnew
  · exact h c packet hpacket

/-- An online packet is sent. -/
theorem NoOffline.online (h : pair.NoOffline) (b sent : Bool) :
    (pair.send b (if sent then [[packetIdOnline]] else [])).NoOffline := by
  apply h.send
  intro packet hpacket
  split at hpacket
  · rw [mem_singleton.mp hpacket]
    decide
  · exact absurd hpacket not_mem_nil

/-- A step sends no offline packet. -/
theorem NoOffline.exec (h : pair.NoOffline) (step : ProfileStep) : (pair.exec number step).NoOffline := by
  cases step with
  | setname b name => exact h
  | setStatusmessage b status => exact h
  | setUserstatus b status => exact h
  | setUsertyping b friendnumber isTyping => exact h
  | doFriends b sends tempTime time =>
    have hset : (pair.set b ((pair.side b).doFriends sends tempTime time)).NoOffline := h
    apply hset.send
    intro packet hpacket
    rw [ProfileMessenger.profilePackets] at hpacket
    split at hpacket
    · exact absurd hpacket not_mem_nil
    · obtain ⟨field, -, rfl⟩ := List.mem_map.mp hpacket
      rw [ProfileMessenger.fieldPacket, head?_cons]
      exact fun hsame => field.packetId_ne_offline (some.inj hsame)
  | join b sent =>
    rw [ProfilePair.exec, join]
    split
    · have hphase : NoOffline { pair with phase := update pair.phase b .joined } := h
      exact hphase.online b sent
    · exact h
  | leave b =>
    rw [ProfilePair.exec, leave]
    split <;> exact h
  | receive b sent =>
    rw [ProfilePair.exec, receive]
    split
    · rename_i packet rest _ hpackets
      apply NoOffline.online
      intro c other hother
      change other ∈ update pair.link (!b) rest c at hother
      rw [update_apply] at hother
      split at hother
      · apply h (!b) other
        rw [hpackets]
        exact mem_cons_of_mem packet hother
      · exact h c other hother
    · exact h
  | write b packet =>
    rw [ProfilePair.exec]
    split
    · rename_i hother
      apply h.send
      intro other hmem
      rw [mem_singleton.mp hmem]
      intro hoffline
      cases packet with
      | nil => contradiction
      | cons packetId data =>
        rw [head?_cons] at hoffline
        rw [some.inj hoffline] at hother
        exact Bool.false_ne_true hother.2
    · exact h
  | otherStatus b friendnumber status =>
    rw [ProfilePair.exec]
    split <;> exact h
  | otherPacket b friendnumber packet =>
    rw [ProfilePair.exec]
    split <;> exact h
  | reset =>
    rw [ProfilePair.exec]
    split
    · exact fun _ _ hpacket => absurd hpacket not_mem_nil
    · exact h

/-- A run sends no offline packet. -/
theorem NoOffline.run (h : pair.NoOffline) (steps : List ProfileStep) : (pair.run number steps).NoOffline := by
  induction steps generalizing pair with
  | nil => exact h
  | cons step steps ih => exact ih (h.exec step)

/-- A side that gets all packets that are on their way to it. -/
theorem receive_all (hoffline : pair.NoOffline) {friend : Friend} (sent : Bool)
    (hfriend : (pair.side b).messenger.getFriend (number b) = some friend) (honline : friend.status = .online)
    (hphase : pair.phase b = .joined) {n : ℕ} (hn : (pair.link (!b)).length = n) :
    (pair.run number (List.replicate n (.receive b sent))).link (!b) = [] ∧
      (pair.run number (List.replicate n (.receive b sent))).side (!b) = pair.side (!b) ∧
      ∃ friend', ((pair.run number (List.replicate n (.receive b sent))).side b).messenger.getFriend (number b) =
        some friend' ∧
        friend'.status = .online := by
  induction n generalizing pair friend with
  | zero => exact ⟨eq_nil_of_length_eq_zero hn, rfl, friend, hfriend, honline⟩
  | succ n ih =>
    obtain ⟨packet, rest, hlink⟩ := exists_cons_of_length_eq_add_one hn
    obtain ⟨friend', hfriend', hlisten, -⟩ := Messenger.handlePacket_listen hfriend packet
    have hreceive : pair.exec number (.receive b sent) = ({ pair with link := update pair.link (!b) rest }.set b
        { pair.side b with messenger := (pair.side b).messenger.handlePacket (number b) packet }).send b [] := by
      rw [ProfilePair.exec, receive, hphase, hlink]
      dsimp only
      rw [hfriend, any_some, decide_eq_false fun hboth => hboth.1 honline]
      rfl
    have hside : (pair.exec number (.receive b sent)).side b =
        { pair.side b with messenger := (pair.side b).messenger.handlePacket (number b) packet } := by
      rw [hreceive]
      exact update_self ..
    have hother : (pair.exec number (.receive b sent)).side (!b) = pair.side (!b) := by
      rw [hreceive]
      exact update_of_ne (Bool.not_ne_self b) ..
    have hrest : (pair.exec number (.receive b sent)).link (!b) = rest := by
      rw [hreceive]
      exact (update_of_ne (Bool.not_ne_self b) ..).trans (update_self ..)
    have hstays : friend'.status = .online := by
      have hname := congrArg Prod.fst (hlisten .name)
      rw [decide_eq_true honline] at hname
      cases packet with
      | nil => exact of_decide_eq_true hname
      | cons packetId data =>
        have hne : packetId ≠ packetIdOffline := by
          intro hsame
          apply hoffline (!b) (packetId :: data)
          · rw [hlink]
            exact mem_cons_self
          · rw [hsame]
            rfl
        rw [ProfileField.listen, if_neg hne] at hname
        dsimp only at hname
        split at hname <;> exact of_decide_eq_true hname
    have hlength : ((pair.exec number (.receive b sent)).link (!b)).length = n := by
      rw [hrest]
      rw [hlink, length_cons] at hn
      exact Nat.add_right_cancel hn
    have hjoined : (pair.exec number (.receive b sent)).phase b = .joined := by
      rw [hreceive]
      exact hphase
    have hknown : ((pair.exec number (.receive b sent)).side b).messenger.getFriend (number b) = some friend' := by
      rw [hside]
      exact hfriend'
    have hall := ih (hoffline.exec (.receive b sent)) hknown hstays hjoined hlength
    rw [hother] at hall
    exact hall

/-- Both are online, one goes through `do_friends` with everything sent, and the other gets all packets: then the
other knows all values of the one. -/
theorem profiles_catch_up (hstarts : pair.Starts number) (steps : List ProfileStep) (b : Bool) (friend friend' : Friend)
    (hfriend : ((pair.run number steps).side b).messenger.getFriend (number b) = some friend)
    (honline : friend.status = .online)
    (hfriend' : ((pair.run number steps).side (!b)).messenger.getFriend (number (!b)) = some friend')
    (honline' : friend'.status = .online) (sends : ℕ → Messenger.FriendSends)
    (hsends : ∀ field : ProfileField, field.sends (sends (number b)) = true) (tempTime time : UInt64) (sent : Bool) :
    ∃ n, ∃ known,
      ((pair.run number (steps ++ .doFriends b sends tempTime time :: List.replicate n (.receive (!b) sent))).side
        (!b)).messenger.getFriend (number (!b)) = some known ∧
      ∀ field : ProfileField, field.stored known = field.own ((pair.run number steps).side b) (number b) := by
  have hrun (n : ℕ) :
    pair.run number (steps ++ .doFriends b sends tempTime time :: List.replicate n (.receive (!b) sent)) =
      ((pair.run number steps).exec number (.doFriends b sends tempTime time)).run number
        (List.replicate n (.receive (!b) sent)) := by
    rw [ProfilePair.run, foldl_append, foldl_cons]
    rfl
  simp only [hrun]
  have hsound : (pair.run number steps).Sound number := hstarts.sound.run steps
  have hnoOffline : (pair.run number steps).NoOffline := by
    apply NoOffline.run
    intro c packet hpacket
    rw [hstarts.link] at hpacket
    exact absurd hpacket not_mem_nil
  generalize pair.run number steps = after at hfriend hfriend' hsound hnoOffline ⊢
  have htold : ((after.exec number (.doFriends b sends tempTime time)).side b).messenger.getFriend (number b) =
      some (Messenger.doFriend (sends (number b)) tempTime time friend) := by
    have hside : (after.exec number (.doFriends b sends tempTime time)).side b =
        (after.side b).doFriends sends tempTime time := update_self ..
    rw [hside]
    exact ProfileMessenger.getFriend_doFriends hfriend sends tempTime time
  have hother : (after.exec number (.doFriends b sends tempTime time)).side (!b) = after.side (!b) :=
    update_of_ne (Bool.not_ne_self b) ..
  have hown (field : ProfileField) :
    field.own ((after.exec number (.doFriends b sends tempTime time)).side b) (number b) =
      field.own (after.side b) (number b) := by
    have hside : (after.exec number (.doFriends b sends tempTime time)).side b =
        (after.side b).doFriends sends tempTime time := update_self ..
    rw [hside]
    cases field <;> rfl
  have hphase : (after.exec number (.doFriends b sends tempTime time)).phase (!b) = .joined := by
    obtain ⟨old, hold, hjoined⟩ := hsound.friend (!b)
    obtain rfl := some.inj (hold.symm.trans hfriend')
    exact hjoined honline'
  obtain ⟨honlineTold, -, hsentTold⟩ := doFriend_online honline (sends (number b)) tempTime time
  have hsoundTold := hsound.exec (.doFriends b sends tempTime time)
  have hnoOfflineTold : (after.exec number (.doFriends b sends tempTime time)).NoOffline := hnoOffline.exec _
  rw [← hother] at hfriend'
  generalize after.exec number (.doFriends b sends tempTime time) = told at *
  obtain ⟨hempty, hside, known, hknown, honlineKnown⟩ :=
    receive_all hnoOfflineTold sent hfriend' honline' hphase rfl
  refine ⟨(told.link (!!b)).length, known, hknown, fun field => ?_⟩
  have hsent : field.sent (Messenger.doFriend (sends (number b)) tempTime time friend) = true := by
    rw [hsentTold, hsends, Bool.or_true]
  rw [Bool.not_not] at hempty hside hknown
  rw [← hown, ← hside]
  rw [← hside] at htold
  exact (hsoundTold.run _).agree htold honlineTold hknown honlineKnown hempty hsent

/-! ## A name that is changed -/

/-- Two messengers that have confirmed each other as friends. -/
def confirmed : ProfilePair where
  side _ :=
    let key : SecretKey := List.Vector.replicate 32 0
    ⟨{ Messenger.new (.new ⟨key, key, fun _ => .zero⟩ key key key ⟨[], key, key, fun _ => none⟩ (.new key)) 7 with
      friendlist := [{ Friend.zero with status := .confirmed }] }, fun _ => false⟩
  phase _ := .fresh
  link _ := []

/-- Everything can be sent. -/
def sendsAll : ℕ → Messenger.FriendSends := fun _ => ⟨true, true, true, true, true⟩

/-- One sets its name, and both come online. -/
def onlineSteps : List ProfileStep :=
  [.setname false [97], .join false true, .join true true, .receive true false, .receive false false]

/-- Two messengers that just confirmed each other. -/
theorem confirmed_starts : confirmed.Starts fun _ => 0 where
  valid _ field := by
    cases field <;> rfl
  friend _ := ⟨{ Friend.zero with status := .confirmed }, rfl, FriendStatus.noConfusion⟩
  phase _ := rfl
  link _ := rfl

/-- The other knows the name after the packets of `do_friends` have come. -/
theorem profiles_agree_name : (((confirmed.run (fun _ => 0) (onlineSteps ++ .doFriends false sendsAll 0 0 ::
    List.replicate 4 (.receive true false))).side true).messenger.getFriend 0).map Friend.name = some [97] := by
  set steps := onlineSteps ++ .doFriends false sendsAll 0 0 :: List.replicate 4 (.receive true false) with hsteps
  have hone : (((confirmed.run (fun _ => 0) steps).side false).messenger.getFriend 0).map (fun friend =>
      (friend.status, friend.nameSent)) = some (.online, true) := by decide +kernel
  have hother :
    (((confirmed.run (fun _ => 0) steps).side true).messenger.getFriend 0).map Friend.status = some .online := by
    decide +kernel
  have hempty : (confirmed.run (fun _ => 0) steps).link false = [] := by decide +kernel
  have hown : ((confirmed.run (fun _ => 0) steps).side false).messenger.name = [97] := by decide +kernel
  obtain ⟨friend, hfriend, hsent⟩ := map_eq_some_iff.mp hone
  obtain ⟨friend', hfriend', honline'⟩ := map_eq_some_iff.mp hother
  obtain ⟨honline, hname⟩ := Prod.mk.inj hsent
  have hagree :=
    profiles_agree confirmed_starts steps false friend friend' hfriend honline hfriend' honline' hempty .name hname
  rw [hfriend', map_some]
  exact congrArg some (hagree.trans hown)

/-- It will know the name whatever is said before. -/
theorem profiles_catch_up_name :
    ∃ n, ∃ known, ((confirmed.run (fun _ => 0) (onlineSteps ++ .doFriends false sendsAll 0 0 ::
    List.replicate n (.receive true false))).side true).messenger.getFriend 0 = some known ∧ known.name = [97] := by
  have hone : (((confirmed.run (fun _ => 0) onlineSteps).side false).messenger.getFriend 0).map Friend.status =
    some .online := by
    decide +kernel
  have hother :
    (((confirmed.run (fun _ => 0) onlineSteps).side true).messenger.getFriend 0).map Friend.status = some .online := by
    decide +kernel
  have hown : ((confirmed.run (fun _ => 0) onlineSteps).side false).messenger.name = [97] := by decide +kernel
  obtain ⟨friend, hfriend, honline⟩ := map_eq_some_iff.mp hone
  obtain ⟨friend', hfriend', honline'⟩ := map_eq_some_iff.mp hother
  obtain ⟨n, known, hknown, hvalues⟩ :=
    profiles_catch_up confirmed_starts onlineSteps false friend friend' hfriend honline hfriend'
    honline' sendsAll (fun field => by cases field <;> rfl) 0 0 false
  exact ⟨n, known, hknown, (hvalues .name).trans hown⟩

end ProfilePair

end Toxcore
