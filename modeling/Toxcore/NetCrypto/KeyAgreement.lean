import Toxcore.NetCrypto.Sessions

/-!
# What the handshake achieves

A asks B for a cookie and sends B a handshake around it. B takes the handshake exactly while the cookie
is fresh and A is whom B expects, learns what A put in, and once both sides have processed the handshake
of the other they hold the same shared key.

`open_cookie` adds the timeout to the time in the cookie in 64 bits. The sum wraps for a cookie made within
the last seconds of the range of the clock, and such a cookie never opens.
-/

namespace Toxcore

open ByteStrings Option

/-! ## Processing a handshake -/

/-- A node processes a handshake packet, at one of the three places that take handshakes, and has a session
afterwards. -/
inductive NetCrypto.Processes (sodium : Sodium) (packet : Bytes) : NetCrypto → SessionView → Prop
  | handlePacketConnection {α : Type} {callbacks : Callbacks α} {env : Env} {w w' : World α} {id : ℕ} {udp : Bool}
      {handshake : Handshake} {session : SessionView}
      (taken : w.net.takenHandshake sodium env id packet = some handshake)
      (handled : handlePacketConnection sodium callbacks env w id packet udp = (true, w'))
      (after : w'.net.sessions[id]? = some session) : Processes sodium packet w.net session
  | handleNewConnectionHandshake {α : Type} {callbacks : Callbacks α} {env : Env} {w w' : World α} {id : ℕ}
      {source : IpPort} {handshake : Handshake} {conn : CryptoConnection} {session : SessionView}
      (parsed : handleCryptoHandshake sodium env w.net packet none = some handshake)
      (known : w.net.getcryptconnectionId handshake.peerRealPk = some id)
      (found : w.net.getCryptoConnection id = some conn) (same : handshake.dhtPublicKey = conn.dhtPublicKey)
      (handled : handleNewConnectionHandshake sodium callbacks env w source packet = (true, w'))
      (after : w'.net.sessions[id]? = some session) : Processes sodium packet w.net session
  | acceptCryptoConnection {env env' : Env} {c c₁ c₂ : NetCrypto} {nC : NewConnection} {id : ℕ}
      {handshake : Handshake} {session : SessionView}
      (parsed : handleCryptoHandshake sodium env c packet none = some handshake)
      (offered : nC.recvNonce = handshake.nonce ∧ nC.peersessionPublicKey = handshake.sessionPk)
      (accepted : acceptCryptoConnection sodium env' c₁ nC = (some id, c₂))
      (after : c₂.sessions[id]? = some session) : Processes sodium packet c session

/-- The session holds the material of the handshake, and the shared key that goes with it. -/
def SessionView.Holds (sodium : Sodium) (session : SessionView) (handshake : Handshake) : Prop :=
  session.recvNonce = handshake.nonce ∧ session.peersessionPublicKey = handshake.sessionPk ∧
    session.sharedKey = sodium.beforenm handshake.sessionPk session.sessionSecretKey

namespace NetCrypto

variable {sodium : Sodium}

variable {env : Env} {handshake : Handshake} {id : ℕ} {α : Type} {packet : Bytes} {session : SessionView}

/-- The session of an answered handshake. -/
theorem answerHandshake_session {w w' : World α} {conn : CryptoConnection}
    (hconn : w.net.getCryptoConnection id = some conn) (hanswer : answerHandshake sodium env
      (w.write id (precomputeSharedKey sodium (takeHandshake handshake conn))) id conn handshake = (true, w')) :
    w'.net.sessions[id]? =
      some { sessionOf (precomputeSharedKey sodium (takeHandshake handshake conn)) with status := .notConfirmed } := by
  have hget := (getCryptoConnection_eq_some.mp hconn).1
  unfold answerHandshake at hanswer
  split at hanswer
  · split at hanswer
    · exact absurd (Prod.mk.inj hanswer).1 Bool.false_ne_true
    · rename_i c hsend
      obtain ⟨-, rfl⟩ := Prod.mk.inj hanswer
      exact sessions_setStatus hget (createSendHandshake_sent hsend).sessions _
  · obtain ⟨-, rfl⟩ := Prod.mk.inj hanswer
    exact sessions_setStatus hget rfl _

/-- The session after a handshake was taken. -/
theorem handlePacketConnection_session {callbacks : Callbacks α} {w w' : World α} {udp : Bool}
    (htaken : w.net.takenHandshake sodium env id packet = some handshake)
    (hhandled : handlePacketConnection sodium callbacks env w id packet udp = (true, w'))
    (hafter : w'.net.sessions[id]? = some session) :
    (∃ expected, handleCryptoHandshake sodium env w.net packet expected = some handshake) ∧
      session.Holds sodium handshake := by
  cases hconn : w.net.getCryptoConnection id with
  | none =>
    rw [takenHandshake, hconn] at htaken
    contradiction
  | some conn =>
    rw [takenHandshake, hconn] at htaken
    obtain ⟨hparsed, hkey⟩ := filter_eq_some_iff.mp htaken
    rw [parsedHandshake] at hparsed
    split at hparsed
    · rename_i hcase
      obtain ⟨hhead, hwaits⟩ := hcase
      have hnot : ¬some netPacketCryptoHs = some netPacketCookieResponse := by decide
      unfold handlePacketConnection at hhandled
      split at hhandled
      · exact absurd (Prod.mk.inj hhandled).1 Bool.false_ne_true
      · simp only [hconn, hhead, hnot, if_false, handleHandshakePacket, if_pos hwaits, hparsed,
          if_pos (of_decide_eq_true hkey)] at hhandled
        rw [answerHandshake_session hconn hhandled, some_inj] at hafter
        refine ⟨⟨_, hparsed⟩, ?_⟩
        rw [← hafter]
        exact ⟨rfl, rfl, rfl⟩
    · contradiction

/-- The session of a peer that is new. -/
theorem handleNewConnectionHandshake_session {callbacks : Callbacks α} {w w' : World α} {source : IpPort}
    {conn : CryptoConnection} (hparsed : handleCryptoHandshake sodium env w.net packet none = some handshake)
    (hid : w.net.getcryptconnectionId handshake.peerRealPk = some id)
    (hconn : w.net.getCryptoConnection id = some conn) (hsame : handshake.dhtPublicKey = conn.dhtPublicKey)
    (hhandled : handleNewConnectionHandshake sodium callbacks env w source packet = (true, w'))
    (hafter : w'.net.sessions[id]? = some session) : session.Holds sodium handshake := by
  unfold handleNewConnectionHandshake at hhandled
  split at hhandled
  · exact absurd (Prod.mk.inj hhandled).1 Bool.false_ne_true
  · simp only [hparsed, hid, hconn, if_neg (not_not.mpr hsame)] at hhandled
    split at hhandled
    · split at hhandled
      · exact absurd (Prod.mk.inj hhandled).1 Bool.false_ne_true
      · rename_i c hsend
        obtain ⟨-, rfl⟩ := Prod.mk.inj hhandled
        have hsessions := (createSendHandshake_sent hsend).sessions
        rw [sessions_cryptoConnectionAddSource] at hsessions
        have hget := (getCryptoConnection_eq_some.mp hconn).1
        rw [sessions_setStatus hget hsessions, some_inj] at hafter
        rw [← hafter]
        exact ⟨rfl, rfl, rfl⟩
    · exact absurd (Prod.mk.inj hhandled).1 Bool.false_ne_true

/-- The session of an accepted connection. -/
theorem acceptCryptoConnection_session {c c' : NetCrypto} {nC : NewConnection}
    (haccept : acceptCryptoConnection sodium env c nC = (some id, c')) (hafter : c'.sessions[id]? = some session) :
    session.recvNonce = nC.recvNonce ∧ session.peersessionPublicKey = nC.peersessionPublicKey ∧
      session.sharedKey = sodium.beforenm nC.peersessionPublicKey session.sessionSecretKey := by
  obtain ⟨hid, -⟩ | ⟨-, number, c₃, hfills, ⟨hid, -⟩ | ⟨slot, hid, rfl⟩⟩ := acceptCryptoConnection_cases haccept
  · contradiction
  · contradiction
  · obtain rfl := some_inj.mp hid
    cases hfills with
    | @filled _ c₁ _ dht hcreate hsends =>
      obtain ⟨conn, hconn, -⟩ := (createCryptoConnection_spec hcreate).2 id rfl
      have hconn' : { c₁ with dht := dht }.cryptoConnections[id]? = some conn := hconn
      have hkept := sessions_modifyConnection_same c₃ id
        (f := fun conn => startCounters { conn with dhtPublicKey := nC.dhtPublicKey }) fun _ => rfl
      rw [sessions_cryptoConnectionAddSource, hkept, hsends.sessions, sessions_modifyConnection hconn',
        List.getElem?_set_self (List.getElem?_eq_some_iff.mp (sessions_get hconn')).1, some_inj] at hafter
      rw [← hafter]
      exact ⟨rfl, rfl, rfl⟩

/-- Wherever a handshake is processed, the session holds its material. -/
theorem Processes.holds {c : NetCrypto} (h : Processes sodium packet c session) :
    ∃ env expected handshake, handleCryptoHandshake sodium env c packet expected = some handshake ∧
      session.Holds sodium handshake := by
  cases h with
  | handlePacketConnection taken handled after =>
    obtain ⟨⟨expected, hparsed⟩, hholds⟩ := handlePacketConnection_session taken handled after
    exact ⟨_, expected, _, hparsed, hholds⟩
  | handleNewConnectionHandshake parsed known found same handled after =>
    exact ⟨_, none, _, parsed, handleNewConnectionHandshake_session parsed known found same handled after⟩
  | acceptCryptoConnection parsed offered accepted after =>
    obtain ⟨hnonce, hkey, hshared⟩ := acceptCryptoConnection_session accepted after
    rw [offered.1] at hnonce
    rw [offered.2] at hkey hshared
    exact ⟨_, none, _, parsed, hnonce, hkey, hshared⟩

end NetCrypto

/-! ## Key agreement -/

/-- The packet is a handshake of one node to another for a session, around a cookie from the other node. -/
def NetCrypto.SendsHandshake (sodium : Sodium) (c peer : NetCrypto) (sessionPk : PublicKey) (packet : Bytes) : Prop :=
  ∃ (env env' : Env) (cookie : Cookie) (nonce : Nonce),
    createCookie sodium env (cookieData c.selfPublicKey c.dht.selfPublicKey) peer.secretSymmetricKey =
      some cookie.toList ∧
    createCryptoHandshake sodium env' c cookie nonce sessionPk peer.selfPublicKey peer.dht.selfPublicKey = some packet

section Lawful

variable {sodium : Sodium} (h : sodium.Lawful)

include h

/-- A handshake that is parsed has the session key that was put in. -/
theorem Sodium.Lawful.sendsHandshake {a b : NetCrypto} (ha : a.KeysValid sodium) (hb : b.KeysValid sodium)
    {sessionPk : PublicKey} {packet : Bytes} (hsends : a.SendsHandshake sodium b sessionPk packet) {env : Env}
    {expected : Option PublicKey} {handshake : Handshake}
    (hparsed : handleCryptoHandshake sodium env b packet expected = some handshake) :
    handshake.sessionPk = sessionPk := by
  obtain ⟨envC, envH, cookie, nonce, hcookie, hpacket⟩ := hsends
  obtain ⟨cookie', hcookie', hopen⟩ := h.createCookie envC (cookieData a.selfPublicKey a.dht.selfPublicKey)
    b.secretSymmetricKey
  obtain rfl : cookie = cookie' := by
    rw [hcookie, some_inj] at hcookie'
    exact List.Vector.toList_injective hcookie'
  obtain ⟨packet', ownCookie, hpacket', hhandled, -⟩ := h.cryptoHandshake ha hb hopen envH nonce sessionPk
  obtain rfl : packet = packet' := some_inj.mp (hpacket.symm.trans hpacket')
  rw [hhandled] at hparsed
  split at hparsed
  · rw [← some_inj.mp hparsed]
  · contradiction

/-- Two sessions that processed the handshakes of each other have the same shared key. -/
theorem Sodium.Lawful.sharedKey_agrees {a b a' b' : NetCrypto} (ha : a.KeysValid sodium) (hb : b.KeysValid sodium)
    (hsameA : a.SameKeys a') (hsameB : b.SameKeys b') {packetA packetB : Bytes} {sessionA sessionB : SessionView}
    (hsendsA : a.SendsHandshake sodium b (sodium.scalarmultBase sessionA.sessionSecretKey) packetA)
    (hsendsB : b.SendsHandshake sodium a (sodium.scalarmultBase sessionB.sessionSecretKey) packetB)
    (hprocA : a'.Processes sodium packetB sessionA) (hprocB : b'.Processes sodium packetA sessionB) :
    sessionA.sharedKey = sessionB.sharedKey := by
  obtain ⟨envA, expectedA, handshakeB, hparsedB, -, -, hsharedA⟩ := hprocA.holds
  obtain ⟨envB, expectedB, handshakeA, hparsedA, -, -, hsharedB⟩ := hprocB.holds
  rw [hsameA.handleCryptoHandshake] at hparsedB
  rw [hsameB.handleCryptoHandshake] at hparsedA
  rw [hsharedA, hsharedB, h.sendsHandshake hb ha hsendsB hparsedB, h.sendsHandshake ha hb hsendsA hparsedA]
  exact h.beforenm_comm _ _

end Lawful

/-! ## When the handshake does what it should -/

/-- The clock is at most `COOKIE_TIMEOUT` seconds after a time, and not before it. -/
def InCookieWindow (made now : UInt64) : Prop :=
  made.toNat ≤ now.toNat ∧ now.toNat ≤ made.toNat + cookieTimeout.toNat

/-- The sum of a time and the timeout does not wrap. -/
def CookieTimeFits (made : UInt64) : Prop := made.toNat + cookieTimeout.toNat < 2 ^ 64

instance (made now : UInt64) : Decidable (InCookieWindow made now) := inferInstanceAs (Decidable (_ ∧ _))

instance (made : UInt64) : Decidable (CookieTimeFits made) := inferInstanceAs (Decidable (_ < _))

/-- `open_cookie` takes a cookie in its window, unless the sum wraps: then it takes it at no time. -/
theorem cookieFresh_iff (made now : UInt64) : CookieFresh made now ↔ InCookieWindow made now ∧ CookieTimeFits made := by
  have htimeout : cookieTimeout.toNat = 15 := rfl
  have hmade := made.toNat_lt
  have hnow := now.toNat_lt
  rw [CookieFresh, UInt64.lt_iff_toNat_lt, UInt64.lt_iff_toNat_lt, UInt64.toNat_add, InCookieWindow, CookieTimeFits,
    htimeout]
  omega

/-- B expects nobody in particular, or A. -/
def ExpectsSender (expected : Option PublicKey) (a : NetCrypto) : Prop := expected = none ∨
    expected = some a.selfPublicKey

/-- What a handshake of A should achieve at B: `made` is the time in the cookie it carries, `sent` the time it was
built, `env` what B observes when it handles it. -/
structure HandshakeCorrect (sodium : Sodium) (a b : NetCrypto) (made sent : UInt64) (env : Env)
    (expected : Option PublicKey) (nonce : Nonce) (sessionPk : PublicKey) (packet : Bytes) : Prop where
  accepted : handleCryptoHandshake sodium env b packet expected ≠ none ↔
    InCookieWindow made env.unixTime ∧ ExpectsSender expected a
  tells : ∀ handshake, handleCryptoHandshake sodium env b packet expected = some handshake →
    handshake.nonce = nonce ∧ handshake.sessionPk = sessionPk ∧ handshake.peerRealPk = a.selfPublicKey ∧
      handshake.dhtPublicKey = a.dht.selfPublicKey ∧
      ∀ env', InCookieWindow sent env'.unixTime → openCookie sodium env' handshake.cookie a.secretSymmetricKey =
        some (cookieData b.selfPublicKey b.dht.selfPublicKey)
  sharedKey : ∀ a' b' packetB sessionA sessionB, a.SameKeys a' → b.SameKeys b' →
    sessionPk = sodium.scalarmultBase sessionA.sessionSecretKey →
    b.SendsHandshake sodium a (sodium.scalarmultBase sessionB.sessionSecretKey) packetB →
    a'.Processes sodium packetB sessionA → b'.Processes sodium packet sessionB →
    sessionA.sharedKey = sessionB.sharedKey

/-- The handshake of A achieves what it should exactly if, where it should be taken, neither the time in the cookie of
B nor that in the cookie of A is so late that the timeout wraps. -/
theorem Sodium.Lawful.handshakeCorrect_iff {sodium : Sodium} (h : sodium.Lawful) {a b : NetCrypto}
    (ha : a.KeysValid sodium) (hb : b.KeysValid sodium) {envB : Env} {cookie : Cookie}
    (hcookie : Toxcore.createCookie sodium envB (cookieData a.selfPublicKey a.dht.selfPublicKey) b.secretSymmetricKey =
      some cookie.toList) (envH env : Env) (expected : Option PublicKey) (nonce : Nonce) (sessionPk : PublicKey) :
    ∃ packet, createCryptoHandshake sodium envH a cookie nonce sessionPk b.selfPublicKey b.dht.selfPublicKey =
        some packet ∧
      (HandshakeCorrect sodium a b envB.unixTime envH.unixTime env expected nonce sessionPk packet ↔
        (InCookieWindow envB.unixTime env.unixTime ∧ ExpectsSender expected a →
          CookieTimeFits envB.unixTime ∧ CookieTimeFits envH.unixTime)) := by
  obtain ⟨cookie', hcookie', hopen⟩ := h.createCookie envB (cookieData a.selfPublicKey a.dht.selfPublicKey)
    b.secretSymmetricKey
  obtain rfl : cookie = cookie' := by
    rw [hcookie, some_inj] at hcookie'
    exact List.Vector.toList_injective hcookie'
  obtain ⟨packet, ownCookie, hpacket, hhandled, hown⟩ := h.cryptoHandshake ha hb hopen envH nonce sessionPk
  refine ⟨packet, hpacket, ⟨fun hcorrect hdue => ?_, fun hfits => ⟨?_, ?_, ?_⟩⟩⟩
  · have htaken := hcorrect.accepted.mpr hdue
    rw [hhandled, ite_ne_right_iff] at htaken
    have hmade := ((cookieFresh_iff _ _).mp htaken.1.1).2
    have htells := (hcorrect.tells _ ((hhandled env expected).trans (if_pos htaken.1))).2.2.2.2
    have hnow : InCookieWindow envH.unixTime envH.unixTime := ⟨le_refl _, Nat.le_add_right _ _⟩
    have hopened := htells envH hnow
    rw [hown, ite_eq_left_iff] at hopened
    refine ⟨hmade, ?_⟩
    by_contra hwraps
    have hstale : ¬CookieFresh envH.unixTime envH.unixTime := fun hfresh => hwraps ((cookieFresh_iff _ _).mp hfresh).2
    exact absurd (hopened hstale) nofun
  · rw [hhandled, ite_ne_right_iff, cookieFresh_iff]
    constructor
    · rintro ⟨⟨⟨hwindow, -⟩, hexpects⟩, -⟩
      exact ⟨hwindow, hexpects⟩
    · rintro hdue
      exact ⟨⟨⟨hdue.1, (hfits hdue).1⟩, hdue.2⟩, nofun⟩
  · intro handshake hparsed
    rw [hhandled] at hparsed
    split at hparsed
    · rename_i htaken
      rw [← some_inj.mp hparsed]
      refine ⟨rfl, rfl, rfl, rfl, fun env' hwindow => ?_⟩
      rw [hown, if_pos]
      have hdue := ((cookieFresh_iff _ _).mp htaken.1).1
      exact (cookieFresh_iff _ _).mpr ⟨hwindow, (hfits ⟨hdue, htaken.2⟩).2⟩
    · contradiction
  · intro a' b' packetB sessionA sessionB hsameA hsameB hsession hsendsB hprocA hprocB
    rw [hsession] at hpacket
    exact h.sharedKey_agrees ha hb hsameA hsameB ⟨envB, envH, cookie, nonce, hcookie, hpacket⟩ hsendsB hprocA hprocB

/-- For all nodes, clocks and session keys: B answers the cookie request of A, A finds the cookie and builds a
handshake, and this handshake achieves what it should exactly if, where it should be taken, neither cookie was made
so late that the timeout wraps. -/
theorem handshake_correct_iff (sodium : Sodium) (h : sodium.Lawful) (a b : NetCrypto) (ha : a.KeysValid sodium)
    (hb : b.KeysValid sodium) (envA envB envH env : Env) (number : UInt64) (expected : Option PublicKey)
    (nonce : Nonce) (sessionPk : PublicKey) :
    ∃ cookie a' b' packet, exchangeCookie sodium envA envB a b number = some (cookie, number, a', b') ∧
      createCryptoHandshake sodium envH a' cookie nonce sessionPk b.selfPublicKey b.dht.selfPublicKey = some packet ∧
      (HandshakeCorrect sodium a' b' envB.unixTime envH.unixTime env expected nonce sessionPk packet ↔
        (InCookieWindow envB.unixTime env.unixTime ∧ ExpectsSender expected a →
          CookieTimeFits envB.unixTime ∧ CookieTimeFits envH.unixTime)) := by
  obtain ⟨cookie, a', b', hexchange, ⟨ha', hsameA⟩, ⟨hb', hsameB⟩, hcookie⟩ := h.exchangeCookie ha hb envA envB number
  rw [← hsameA.selfPublicKey, ← hsameA.dhtPublicKey, ← hsameB.secretSymmetricKey] at hcookie
  obtain ⟨packet, hpacket, hiff⟩ := h.handshakeCorrect_iff ha' hb' hcookie envH env expected nonce sessionPk
  rw [hsameB.selfPublicKey, hsameB.dhtPublicKey] at hpacket
  rw [ExpectsSender, hsameA.selfPublicKey] at hiff
  exact ⟨cookie, a', b', packet, hexchange, hpacket, hiff⟩

theorem NetCrypto.plainNode_keysValid (key dhtKey : PublicKey) : (plainNode key dhtKey).KeysValid .plain :=
  ⟨rfl, rfl, fun _ => nofun⟩

/-- The first of two plain nodes. -/
def nodeA : NetCrypto := .plainNode (List.Vector.replicate 32 1) (List.Vector.replicate 32 1)

/-- The second of two plain nodes. -/
def nodeB : NetCrypto := .plainNode (List.Vector.replicate 32 2) (List.Vector.replicate 32 2)

/-- At time zero the handshake of one plain node to another achieves what it should. -/
theorem handshake_correct_iff_calm :
    ∃ cookie a' b' packet, exchangeCookie .plain .calm .calm nodeA nodeB 7 = some (cookie, 7, a', b') ∧
      createCryptoHandshake .plain .calm a' cookie (List.Vector.replicate 24 1) (List.Vector.replicate 32 3)
        nodeB.selfPublicKey nodeB.dht.selfPublicKey = some packet ∧
      HandshakeCorrect .plain a' b' 0 0 .calm none (List.Vector.replicate 24 1)
        (List.Vector.replicate 32 3) packet := by
  obtain ⟨cookie, a', b', packet, hexchange, hpacket, hiff⟩ := handshake_correct_iff .plain Sodium.plain_lawful
    nodeA nodeB (NetCrypto.plainNode_keysValid _ _) (NetCrypto.plainNode_keysValid _ _) .calm .calm .calm .calm 7 none
    (List.Vector.replicate 24 1) (List.Vector.replicate 32 3)
  exact ⟨cookie, a', b', packet, hexchange, hpacket, hiff.mpr fun _ => ⟨by decide, by decide⟩⟩

/-- Surroundings in which the clock stands at its last value. -/
def Env.late : Env := { Env.calm with unixTime := 0 - 1 }

/-- The cookie of B and the handshake of A are made, and handled, in the last second of the clock: B rejects the
handshake, so it does not achieve what it should. -/
theorem handshake_late_incorrect :
    InCookieWindow Env.late.unixTime Env.late.unixTime ∧
    ∃ cookie packet,
      (exchangeCookie .plain .late .late nodeA nodeB 7).map Prod.fst = some cookie ∧
      createCryptoHandshake .plain .late nodeA cookie (List.Vector.replicate 24 1) (List.Vector.replicate 32 3)
        nodeB.selfPublicKey nodeB.dht.selfPublicKey = some packet ∧
      ¬HandshakeCorrect .plain nodeA nodeB Env.late.unixTime Env.late.unixTime .late none (List.Vector.replicate 24 1)
        (List.Vector.replicate 32 3) packet := by
  have hwindow : InCookieWindow Env.late.unixTime Env.late.unixTime := by decide
  have ha : nodeA.KeysValid .plain := NetCrypto.plainNode_keysValid _ _
  have hb : nodeB.KeysValid .plain := NetCrypto.plainNode_keysValid _ _
  obtain ⟨cookie, a', b', hexchange, -, -, hcookie⟩ := Sodium.plain_lawful.exchangeCookie ha hb .late .late 7
  obtain ⟨packet, hpacket, hiff⟩ := Sodium.plain_lawful.handshakeCorrect_iff ha hb hcookie .late .late none
    (List.Vector.replicate 24 1) (List.Vector.replicate 32 3)
  refine ⟨hwindow, cookie, packet, by rw [hexchange, map_some], hpacket, fun hcorrect => ?_⟩
  have hfits := (hiff.mp hcorrect ⟨hwindow, .inl rfl⟩).1
  exact absurd hfits (by decide)

end Toxcore
