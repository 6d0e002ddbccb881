import Toxcore.Av.Quiescence

/-!
# When two sessions agree about their call

Messages carry no call identifier, so what belongs to one attempt can meet the next one. As long as an attempt is only
begun when no answer and no hang-up is in flight, a call that no hang-up is on its way to is one of a few kinds, and the
two sessions agree whenever nothing is in flight.
-/

namespace Toxcore

open List

/-- Signals without a hang-up. -/
def NoPop (channel : List Signal) : Prop := .pop ∉ channel

/-- Signals without an invitation. -/
def NoInit (channel : List Signal) : Prop := ∀ capabilities, .init capabilities ∉ channel

/-- What the peer knows of the capabilities, those there are, and the changes in flight that lead from one to the
other. -/
inductive Announces : UInt8 → UInt8 → List Signal → Prop
  | nil (current : UInt8) : Announces current current []
  | cons {known next current : UInt8} {rest : List Signal} (h : Announces next current rest) :
      Announces known current (.push next :: rest)

variable {channel : List Signal}

/-- A capability is announced at the end. -/
theorem Announces.append {known current : UInt8} (h : Announces known current channel) (next : UInt8) :
    Announces known next (channel ++ [.push next]) := by
  induction h with
  | nil => exact .cons (.nil next)
  | cons _ ih => exact .cons ih

/-- An invitation that was taken back before it arrived, or nothing. -/
inductive TakenBack : List Signal → Prop
  | nothing : TakenBack []
  | invitation (capabilities : UInt8) : TakenBack [.init capabilities, .pop]

/-- The answer to an invitation, perhaps behind an own invitation that was taken back, and the changes that follow
it. -/
inductive Accepts : UInt8 → List Signal → Prop
  | answer {next current : UInt8} {rest : List Signal} (h : Announces next current rest) :
      Accepts current (.push next :: rest)
  | takenBack (capabilities : UInt8) {next current : UInt8} {rest : List Signal} (h : Announces next current rest) :
      Accepts current (.init capabilities :: .pop :: .push next :: rest)

/-- A channel that takes back accepts a push. -/
theorem TakenBack.accepts (h : TakenBack channel) (capabilities : UInt8) :
    Accepts capabilities (channel ++ [.push capabilities]) := by
  cases h with
  | nothing => exact .answer (.nil capabilities)
  | invitation capabilities' => exact .takenBack capabilities' (.nil capabilities)

/-- Another push is accepted. -/
theorem Accepts.append {current : UInt8} (h : Accepts current channel) (next : UInt8) :
    Accepts next (channel ++ [.push next]) := by
  cases h with
  | answer h => exact .answer (h.append next)
  | takenBack capabilities h => exact .takenBack capabilities (h.append next)

/-- A call that no hang-up is on its way to, the call of the peer, and what is in flight from and to the peer. -/
inductive Live : CallView → Option CallView → List Signal → List Signal → Prop
  | inviting (peer self : UInt8) : Live ⟨.requesting, peer, self⟩ none [.init self] []
  | crossing (peer self peer' self' : UInt8) :
      Live ⟨.requesting, peer, self⟩ (some ⟨.requesting, peer', self'⟩) [.init self] [.init self']
  | invited (peer self self' : UInt8) : Live ⟨.requesting, peer, self⟩ (some ⟨.requested, self, self'⟩) [] []
  | answered (peer self self' next : UInt8) {rest : List Signal} (h : Announces next self' rest) :
      Live ⟨.requesting, peer, self⟩ (some ⟨.active, self, self'⟩) [] (.push next :: rest)
  | ringing (peer self peer' : UInt8) {sent : List Signal} (h : TakenBack sent) :
      Live ⟨.requested, peer, self⟩ (some ⟨.requesting, peer', peer⟩) sent []
  | accepting (peer self peer' : UInt8) {sent : List Signal} (h : Accepts self sent) :
      Live ⟨.active, peer, self⟩ (some ⟨.requesting, peer', peer⟩) sent []
  | talking (peer self peer' self' : UInt8) {sent received : List Signal} (hsent : Announces peer' self sent)
      (hreceived : Announces peer self' received) :
      Live ⟨.active, peer, self⟩ (some ⟨.active, peer', self'⟩) sent received

/-- What is in flight from a session to its peer: no invitation, or one that was taken back, or one that waits. -/
inductive Sending : Option CallView → Option CallView → List Signal → List Signal → Prop
  | other {call peer : Option CallView} {sent received : List Signal} (h : NoInit sent) :
      Sending call peer sent received
  | takenBack {call peer : Option CallView} {rest received : List Signal} (capabilities : UInt8) (h : NoInit rest)
      (hpeer : ∀ view ∈ peer, view.state = .requesting) :
        Sending call peer (.init capabilities :: .pop :: rest) received
  | waiting (peer self : UInt8) :
      Sending (some ⟨.requesting, peer, self⟩) none [.init self] []
  | crossing (peer self peer' self' : UInt8) :
      Sending (some ⟨.requesting, peer, self⟩) (some ⟨.requesting, peer', self'⟩) [.init self] [.init self']
  | gone (peer self capabilities : UInt8) :
      Sending (some ⟨.requesting, peer, self⟩) none [.init self] [.init capabilities, .pop]

/-- What holds of two sessions whenever attempts are only begun while no answer and no hang-up is in flight. -/
structure Agreeing (s : SignalPair) : Prop where
  sendingA : Sending s.a s.b s.toB s.toA
  sendingB : Sending s.b s.a s.toA s.toB
  liveA : ∀ call, s.a = some call → NoPop s.toA → Live call s.b s.toB s.toA
  liveB : ∀ call, s.b = some call → NoPop s.toB → Live call s.a s.toA s.toB
  parses : ∀ received ∈ s.toA ++ s.toB, received ≠ .broken

/-- The two sides agree both ways. -/
theorem Agreeing.swap {s : SignalPair} (h : Agreeing s) : Agreeing s.swap :=
  ⟨h.sendingB, h.sendingA, h.liveB, h.liveA, fun received hmem =>
    h.parses received (mem_append.mpr (mem_append.mp hmem).symm)⟩

/-- No invitation in either part. -/
theorem NoInit.append {channel' : List Signal} (h : NoInit channel) (h' : NoInit channel') :
    NoInit (channel ++ channel') :=
  fun capabilities hmem => (mem_append.mp hmem).elim (h capabilities) (h' capabilities)

theorem NoInit.tail {received : Signal} {channel : List Signal} (h : NoInit (received :: channel)) : NoInit channel :=
  fun capabilities hmem => h capabilities (mem_cons_of_mem _ hmem)

theorem noInit_nil : NoInit [] := fun _ => not_mem_nil

theorem noInit_pop : NoInit [.pop] := fun _ hmem => nomatch mem_singleton.mp hmem

theorem noInit_push (capabilities : UInt8) : NoInit [.push capabilities] := fun _ hmem => nomatch mem_singleton.mp hmem

/-- No pop in the first part. -/
theorem NoPop.of_append {channel' : List Signal} (h : NoPop (channel ++ channel')) : NoPop channel :=
  fun hmem => h (mem_append_left _ hmem)

theorem not_noPop_append (channel : List Signal) : ¬NoPop (channel ++ [.pop]) :=
  fun h => h (mem_append_right _ mem_cons_self)

theorem NoPop.cons_push {capabilities : UInt8} (h : NoPop channel) : NoPop (.push capabilities :: channel) :=
  fun hmem => h ((mem_cons.mp hmem).resolve_left nofun)

/-! ## What is sent -/

namespace Sending

variable {call peer : Option CallView} {sent received received' : List Signal}

/-- A call that ends sends a hang-up, or has been told to end. -/
theorem hangup (h : Sending call peer sent received) (received' : List Signal) :
    Sending none peer (sent ++ [.pop]) received' := by
  cases h with
  | other h => exact .other (h.append noInit_pop)
  | takenBack capabilities h hpeer => exact .takenBack capabilities (h.append noInit_pop) hpeer
  | waiting peer self => exact .takenBack self noInit_nil nofun
  | crossing peer self peer' self' =>
    refine .takenBack self noInit_nil ?_
    rintro view ⟨⟩
    rfl
  | gone peer self capabilities => exact .takenBack self noInit_nil nofun

/-- A call that is not asking for a call sends capabilities. -/
theorem push (h : Sending call peer sent received) (hcall : ∀ view ∈ call, view.state ≠ .requesting)
    (call' : Option CallView)
    (capabilities : UInt8) : Sending call' peer (sent ++ [.push capabilities]) received := by
  cases h with
  | other h => exact .other (h.append (noInit_push capabilities))
  | takenBack capabilities' h hpeer => exact .takenBack capabilities' (h.append (noInit_push capabilities)) hpeer
  | waiting | crossing | gone => exact absurd rfl (hcall _ rfl)

/-- A side without its own invitation in flight, whatever call it has and whatever else is on its way to it. -/
theorem of_received (h : Sending call peer sent received) (hreceived : received ≠ [])
    (hinit : ∀ capabilities rest, received ≠ .init capabilities :: rest)
    (call' : Option CallView) (received' : List Signal) : Sending call' peer sent received' := by
  cases h with
  | other h => exact .other h
  | takenBack capabilities h hpeer => exact .takenBack capabilities h hpeer
  | waiting => exact absurd rfl hreceived
  | crossing => exact absurd rfl (hinit _ _)
  | gone => exact absurd rfl (hinit _ _)

/-- The same for a side without a call. -/
theorem of_none (h : Sending none peer sent received) (call' : Option CallView) (received' : List Signal) :
    Sending call' peer sent received' := by
  cases h with
  | other h => exact .other h
  | takenBack capabilities h hpeer => exact .takenBack capabilities h hpeer

/-- What is in flight behind something other than an invitation. -/
theorem tail_noInit {first : Signal} {rest : List Signal}
    (h : Sending call peer (first :: rest) received) : NoInit rest := by
  cases h with
  | other h => exact h.tail
  | takenBack capabilities h hpeer => exact fun c hmem => h c ((mem_cons.mp hmem).resolve_left nofun)
  | waiting | crossing | gone => exact noInit_nil

/-- What is in flight behind the first signal is sent, whatever the peer does about that one. -/
theorem tail {first : Signal} {rest : List Signal} (h : Sending call peer (first :: rest) received)
    (peer' : Option CallView) (received' : List Signal) : Sending call peer' rest received' := .other h.tail_noInit

end Sending

/-! ## What a user does -/

namespace Agreeing

variable {a b a' : Option CallView} {toA toB sent : List Signal}

/-- Nobody invites a side whose call was accepted or is ringing. -/
theorem noInit_of_peer {view : CallView} (h : Sending b (some view) toA toB)
    (hstate : view.state ≠ .requesting) : NoInit toA := by
  cases h with
  | other h => exact h
  | takenBack capabilities h hpeer => exact absurd (hpeer view rfl) hstate
  | crossing => exact absurd rfl hstate

/-- Both channels are empty, or the peer is waiting for the answer to its invitation, when a user asks for a call. -/
theorem invites (h : Agreeing ⟨none, b, toA, toB⟩)
    (hA : ∀ received ∈ toA, ∃ capabilities, received = .init capabilities)
    (hB : ∀ received ∈ toB, ∃ capabilities, received = .init capabilities) (capabilities : UInt8) :
    Agreeing ⟨some ⟨.requesting, 0, capabilities⟩, b, toA, toB ++ [.init capabilities]⟩ := by
  have hempty : toB = [] := by
    cases h.sendingA with
    | other h =>
      refine eq_nil_iff_forall_not_mem.mpr fun received hmem => ?_
      obtain ⟨c, rfl⟩ := hB received hmem
      exact h c hmem
    | takenBack c h hpeer =>
      obtain ⟨c', heq⟩ := hB .pop (mem_cons_of_mem _ mem_cons_self)
      contradiction
  subst hempty
  have hparses (received : Signal) (hmem : received ∈ toA ++ [.init capabilities]) : received ≠ .broken := by
    rcases mem_append.mp hmem with hmem | hmem
    · exact h.parses received (mem_append_left _ hmem)
    · rw [mem_singleton.mp hmem]
      exact nofun
  have hsending := h.sendingB
  have hlive := h.liveB
  clear h
  dsimp only at hsending hlive
  cases hsending with
  | other hnoInit =>
    have hnil : toA = [] := by
      refine eq_nil_iff_forall_not_mem.mpr fun received hmem => ?_
      obtain ⟨c, rfl⟩ := hA received hmem
      exact hnoInit c hmem
    subst hnil
    cases b with
    | none =>
      exact ⟨.waiting 0 capabilities, .other noInit_nil,
        fun call hcall _ => by cases hcall; exact .inviting 0 capabilities,
        nofun, hparses⟩
    | some call => nomatch hlive call rfl not_mem_nil
  | takenBack c hnoInit hpeer =>
    obtain ⟨c', heq⟩ := hA .pop (mem_cons_of_mem _ mem_cons_self)
    contradiction
  | waiting peer' self' =>
    refine ⟨.crossing 0 capabilities peer' self', .crossing peer' self' 0 capabilities, ?_, ?_, hparses⟩
    · rintro call ⟨⟩ -
      exact .crossing 0 capabilities peer' self'
    · rintro call ⟨⟩ -
      exact .crossing peer' self' 0 capabilities

/-- A user does something. -/
theorem acts {inviting : Prop} (h : Agreeing ⟨a, b, toA, toB⟩) (hacts : Acts inviting a a' sent)
    (hinviting : inviting → (∀ received ∈ toA, ∃ capabilities, received = .init capabilities) ∧
      ∀ received ∈ toB, ∃ capabilities, received = .init capabilities) :
    Agreeing ⟨a', b, toA, toB ++ sent⟩ := by
  have hparses (hsent : ∀ received ∈ sent, received ≠ .broken) :
      ∀ received ∈ toA ++ (toB ++ sent), received ≠ .broken := by
    intro received hmem
    rw [← append_assoc] at hmem
    exact (mem_append.mp hmem).elim (h.parses received) (hsent received)
  have hpop (received : Signal) (hmem : received ∈ [Signal.pop]) : received ≠ .broken := by
    rw [mem_singleton.mp hmem]
    exact nofun
  have hpush (capabilities : UInt8) (received : Signal) (hmem : received ∈ [Signal.push capabilities]) : received ≠
    .broken := by
    rw [mem_singleton.mp hmem]
    exact nofun
  cases hacts with
  | idle => rwa [append_nil]
  | invites hcondition capabilities => exact h.invites (hinviting hcondition).1 (hinviting hcondition).2 capabilities
  | hangsUp call =>
    refine ⟨h.sendingA.hangup _, ?_, nofun, fun _ _ hlive => absurd hlive (not_noPop_append _), hparses hpop⟩
    have hsending := h.sendingB
    dsimp only at hsending ⊢
    cases hsending with
    | other hnoInit => exact .other hnoInit
    | takenBack capabilities hnoInit hpeer => exact .takenBack capabilities hnoInit nofun
    | crossing peer self peer' self' => exact .gone peer self self'
  | @answers call hrequested capabilities =>
    obtain ⟨state, peer, self⟩ := call
    subst hrequested
    refine ⟨h.sendingA.push (by rintro view ⟨⟩; exact nofun) _ capabilities,
      .other (noInit_of_peer h.sendingB nofun), ?_, ?_, hparses (hpush capabilities)⟩
    · rintro call ⟨⟩ hlive
      cases h.liveA _ rfl hlive with
      | ringing peer self peer' htaken => exact .accepting peer capabilities peer' (htaken.accepts capabilities)
    · intro call hcall hlive
      cases h.liveB call hcall hlive.of_append with
      | invited => exact .answered _ _ capabilities capabilities (.nil capabilities)
  | @changes call hactive capabilities =>
    obtain ⟨state, peer, self⟩ := call
    subst hactive
    refine ⟨h.sendingA.push (by rintro view ⟨⟩; exact nofun) _ capabilities,
      .other (noInit_of_peer h.sendingB nofun), ?_, ?_, hparses (hpush capabilities)⟩
    · rintro call ⟨⟩ hlive
      cases h.liveA _ rfl hlive with
      | accepting peer self peer' haccepts => exact .accepting peer capabilities peer' (haccepts.append capabilities)
      | talking peer self peer' self' hsent hreceived =>
        exact .talking peer capabilities peer' self' (hsent.append capabilities) hreceived
    · intro call hcall hlive
      cases h.liveB call hcall hlive.of_append with
      | answered _ _ _ _ hrest => exact .answered _ _ capabilities _ (hrest.append capabilities)
      | talking _ _ _ _ hsent hreceived => exact .talking _ _ _ capabilities hsent (hreceived.append capabilities)

/-! ## A message is handled -/

variable {received : Signal} {rest : List Signal}

/-- What is left of a run in which nothing is answered by the peer yet. -/
theorem parses_tail (answers : List Signal) (h : Agreeing ⟨a, b, received :: rest, toB⟩)
    (hanswers : ∀ answer ∈ answers, answer ≠ .broken) : ∀ signal ∈ rest ++ (toB ++ answers), signal ≠ .broken := by
  intro signal hmem
  rw [← append_assoc] at hmem
  exact (mem_append.mp hmem).elim (fun hmem => h.parses signal (mem_cons_of_mem _ hmem)) (hanswers signal)

/-- A side that answers with a hang-up has no call. -/
theorem hangsUp (h : Agreeing ⟨a, b, received :: rest, toB⟩) : Agreeing ⟨none, b, rest, toB ++ [.pop]⟩ := by
  refine ⟨h.sendingA.hangup _, h.sendingB.tail _ _, nofun, fun _ _ hlive => absurd hlive (not_noPop_append _), ?_⟩
  refine h.parses_tail _ fun answer hmem => ?_
  rw [mem_singleton.mp hmem]
  exact nofun

/-- An invitation arrives. -/
theorem isInvited {capabilities : UInt8} (h : Agreeing ⟨none, b, .init capabilities :: rest, toB⟩) :
    Agreeing ⟨some ⟨.requested, capabilities, 0⟩, b, rest, toB⟩ := by
  have hparses := h.parses_tail [] nofun
  rw [append_nil] at hparses
  refine ⟨h.sendingA.of_none _ _, h.sendingB.tail _ _, ?_, ?_, hparses⟩
  · rintro call ⟨⟩ hlive
    have hsending := h.sendingB
    dsimp only at hsending ⊢
    cases hsending with
    | other hnoInit => exact absurd mem_cons_self (hnoInit capabilities)
    | takenBack => exact absurd mem_cons_self hlive
    | waiting peer' self' => exact .ringing _ 0 peer' .nothing
    | gone peer' self' capabilities' => exact .ringing _ 0 peer' (.invitation capabilities')
  · intro call hcall hlive
    obtain rfl : b = some call := hcall
    cases h.liveB call rfl hlive with
    | inviting peer' self' => exact .invited peer' _ 0

/-- A message is handled. -/
theorem handles {answers : List Signal} (h : Agreeing ⟨a, b, received :: rest, toB⟩)
    (hreacts : Reacts a received a' answers) : Agreeing ⟨a', b, rest, toB ++ answers⟩ := by
  have hquiet := h.parses_tail [] nofun
  cases hreacts with
  | invited capabilities =>
    rw [append_nil]
    exact h.isInvited
  | refused | strayPush | strayPop | crossed | failed => exact h.hangsUp
  | complained | dropped => exact absurd rfl (h.parses _ mem_cons_self)
  | recalled hactive capabilities =>
    exact absurd mem_cons_self (noInit_of_peer h.sendingB (by rw [hactive]; exact nofun) capabilities)
  | @changed call hactive capabilities =>
    obtain ⟨state, peer, self⟩ := call
    subst hactive
    rw [append_nil] at hquiet ⊢
    refine ⟨h.sendingA.of_received nofun nofun _ _, h.sendingB.tail _ _, ?_, ?_, hquiet⟩
    · rintro call ⟨⟩ hlive
      cases h.liveA _ rfl hlive.cons_push with
      | talking peer self peer' self' hsent hreceived =>
        cases hreceived with
        | cons hreceived => exact .talking capabilities self peer' self' hsent hreceived
    · intro call hcall hlive
      cases h.liveB call hcall hlive with
      | talking peer' self' peer self hsent hreceived =>
        cases hsent with
        | cons hsent => exact .talking peer' self' capabilities self hsent hreceived
  | @started call hrequesting capabilities =>
    obtain ⟨state, peer, self⟩ := call
    subst hrequesting
    rw [append_nil] at hquiet ⊢
    refine ⟨h.sendingA.of_received nofun nofun _ _, h.sendingB.tail _ _, ?_, ?_, hquiet⟩
    · rintro call ⟨⟩ hlive
      cases h.liveA _ rfl hlive.cons_push with
      | answered peer self self' next hrest => exact .talking capabilities self self self' (.nil self) hrest
    · intro call hcall hlive
      cases h.liveB call hcall hlive with
      | ringing _ _ _ htaken => nomatch htaken
      | accepting _ _ _ haccepts =>
        cases haccepts with
        | answer hrest => exact .talking _ _ capabilities _ hrest (.nil _)
  | @ignored call hrequested capabilities =>
    obtain ⟨state, peer, self⟩ := call
    subst hrequested
    rw [append_nil] at hquiet ⊢
    refine ⟨h.sendingA.of_received nofun nofun _ _, h.sendingB.tail _ _, ?_, ?_, hquiet⟩
    · rintro call ⟨⟩ hlive
      nomatch h.liveA _ rfl hlive.cons_push
    · intro call hcall hlive
      nomatch h.liveB call hcall hlive
  | ended call =>
    rw [append_nil] at hquiet ⊢
    refine ⟨h.sendingA.of_received nofun nofun _ _, h.sendingB.tail _ _, nofun, fun call hcall hlive => ?_, hquiet⟩
    cases h.liveB call hcall hlive with
    | ringing _ _ _ htaken => nomatch htaken
    | accepting _ _ _ haccepts => nomatch haccepts
    | talking _ _ _ _ hsent hreceived => nomatch hsent

end Agreeing

/-- Either side handles a message. -/
theorem SignalPair.Delivers.agreeing {s t : SignalPair} (h : s.Delivers t) (hs : Agreeing s) : Agreeing t := by
  cases h with
  | toA hreacts => exact hs.handles hreacts
  | toB hreacts => exact (hs.swap.handles hreacts).swap

/-! ## Agreement -/

namespace MsiPair

/-- The two sessions agree about their call. -/
inductive Agree : MsiPair → Prop
  | idle (toA toB : List ByteStrings.Bytes) : Agree ⟨none, none, toA, toB⟩
  | calling {a b : MsiCall} (ha : a.state = .requesting) (hb : b.state = .requested)
      (toA toB : List ByteStrings.Bytes) :
      Agree ⟨some a, some b, toA, toB⟩
  | called {a b : MsiCall} (ha : a.state = .requested) (hb : b.state = .requesting) (toA toB : List ByteStrings.Bytes) :
      Agree ⟨some a, some b, toA, toB⟩
  | talking {a b : MsiCall} (ha : a.state = .active) (hb : b.state = .active)
      (hpeerA : a.peerCapabilities = b.selfCapabilities) (hpeerB : b.peerCapabilities = a.selfCapabilities)
      (toA toB : List ByteStrings.Bytes) : Agree ⟨some a, some b, toA, toB⟩

/-- A call is only asked for while invitations are all that is in flight. -/
def InvitesAlone (s : MsiPair) (op : MsiUserCall) : Prop :=
  op.Invites → ∀ data ∈ s.toA ++ s.toB, ∃ capabilities, signal data = .init capabilities

variable {s : MsiPair}

/-- An invitation meets invitations only. -/
theorem InvitesAlone.view {op : MsiUserCall} (h : InvitesAlone s op) (hinvites : op.Invites) :
    (∀ received ∈ s.view.toA, ∃ capabilities, received = .init capabilities) ∧
      ∀ received ∈ s.view.toB, ∃ capabilities, received = .init capabilities := by
  constructor
  · intro received hmem
    obtain ⟨data, hdata, rfl⟩ := mem_map.mp hmem
    exact h hinvites data (mem_append_left _ hdata)
  · intro received hmem
    obtain ⟨data, hdata, rfl⟩ := mem_map.mp hmem
    exact h hinvites data (mem_append_right _ hdata)

/-- The user of the first session does something. -/
theorem user_agreeing (hs : s.Settled) (h : Agreeing s.view) (op : MsiUserCall) (hop : InvitesAlone s op) :
    Agreeing (s.user op).view := by
  have hacts := h.acts (op.exec_acts hs.1).1 hop.view
  simpa only [view, user, map_append] using hacts

/-- The two sides agree in every state that is reached. -/
theorem Reaches.agreeing (h : Reaches MsiEnv.Any InvitesAlone s) : Agreeing s.view := by
  induction h with
  | start => exact ⟨.other noInit_nil, .other noInit_nil, nofun, nofun, nofun⟩
  | userA hreach op hop ih => exact user_agreeing hreach.settled ih op hop
  | userB hreach op hop ih => exact (user_agreeing (s := swap _) hreach.settled.symm ih.swap op hop).swap
  | deliver hreach hstep ih => exact (hstep.view hreach.settled).1.agreeing ih

/-- Whenever nothing is in flight, the sessions agree, if calls were only asked for while no answer and no hang-up was
in flight. The callbacks may fail, and need not be registered. -/
theorem reaches_agree {s : MsiPair} (h : Reaches MsiEnv.Any InvitesAlone s) (hA : s.toA = [])
    (hB : s.toB = []) : Agree s := by
  have hagreeing := h.agreeing
  obtain ⟨a, b, toA, toB⟩ := s
  subst hA hB
  cases a with
  | none =>
    cases b with
    | none => exact .idle [] []
    | some b =>
      have hlive : Live b.view none [] [] := hagreeing.liveB b.view rfl not_mem_nil
      generalize b.view = call at hlive
      cases hlive
  | some a =>
    obtain ⟨address, state, peer, self, error, avCall⟩ := a
    have hlive := hagreeing.liveA _ rfl not_mem_nil
    cases b with
    | none =>
      simp only [view, Option.map_none, map_nil] at hlive
      cases hlive
    | some b =>
      obtain ⟨address', state', peer', self', error', avCall'⟩ := b
      simp only [view, Option.map_some, MsiCall.view, map_nil] at hlive
      cases hlive with
      | invited => exact .calling rfl rfl [] []
      | ringing => exact .called rfl rfl [] []
      | talking _ _ _ _ hsent hreceived =>
        cases hsent
        cases hreceived
        exact .talking rfl rfl rfl rfl [] []
      | accepting _ _ _ haccepts => cases haccepts

/-- An invitation that is answered. -/
theorem reaches_agree_answered : ∃ a b : MsiCall, a.state = .active ∧ Agree ⟨some a, some b, [], []⟩ := by
  have hstart : Reaches MsiEnv.Any InvitesAlone ⟨none, none, [], []⟩ := .start
  have hinvite := hstart.userA (.invite (some onlyCall) 12) fun _ _ hmem => absurd hmem not_mem_nil
  have harrives := hinvite.deliver (.toB calmMsi trivial rfl)
  have hanswer := harrives.userB (.answer 20) nofun
  have hback := hanswer.deliver (.toA calmMsi trivial rfl)
  exact ⟨_, _, rfl, reaches_agree hback rfl rfl⟩

theorem calmMsi_succeeds : calmMsi.Succeeds := ⟨nofun, fun _ => ⟨none, rfl⟩⟩

/-- The first user hangs up and calls again before the answer of the second one arrives, which is then taken for the
answer to the second call. -/
theorem late_answer_disagrees : ∃ s : MsiPair, Reaches MsiEnv.Succeeds (fun _ _ => True) s ∧ s.toA = [] ∧ s.toB = [] ∧
    ¬Agree s := by
  have hstart : Reaches MsiEnv.Succeeds (fun _ _ => True) ⟨none, none, [], []⟩ := .start
  have hinvite := hstart.userA (.invite (some onlyCall) 12) trivial
  have harrives := hinvite.deliver (.toB calmMsi calmMsi_succeeds rfl)
  have hhangup := harrives.userA .hangup trivial
  have hagain := hhangup.userA (.invite (some onlyCall) 12) trivial
  have hanswer := hagain.userB (.answer 20) trivial
  have hended := hanswer.deliver (.toB calmMsi calmMsi_succeeds rfl)
  have hringing := hended.deliver (.toB calmMsi calmMsi_succeeds rfl)
  have hlate := hringing.deliver (.toA calmMsi calmMsi_succeeds rfl)
  refine ⟨_, hlate, rfl, rfl, fun hagree => ?_⟩
  rcases hagree with _ | ⟨ha, -⟩ | ⟨ha, -⟩ | ⟨-, hb, -⟩
  · contradiction
  · contradiction
  · contradiction

end MsiPair

end Toxcore
