import Toxcore.Av.Msi

/-!
# Two sessions that signal each other

The sessions of two friends and the messages on their way between them, and what a message does to the call of the
session that handles it: an abstract view that leaves out the bytes, the errors and what the callbacks do besides
failing.
-/

namespace Toxcore

open ByteStrings Option

/-! ## Reactions -/

/-- What a message is for the session that receives it. A message is broken when it does not parse, or lacks
capabilities that it needs. -/
inductive Signal where
  | init (capabilities : UInt8)
  | push (capabilities : UInt8)
  | pop
  | broken
  deriving DecidableEq

/-- What signalling reads of a call. -/
structure CallView where
  state : MsiCallState
  peer : UInt8
  self : UInt8

/-- The view of a call. -/
def MsiCall.view (call : MsiCall) : CallView := ⟨call.state, call.peerCapabilities, call.selfCapabilities⟩

/-- The signal that data carries. -/
def signal (data : Bytes) : Signal :=
  match MsiMessage.parseIn data with
  | none => .broken
  | some msg =>
    match msg.request, msg.capabilities with
    | some .pop, _ => .pop
    | some .push, some capabilities => .push capabilities
    | some .init, some capabilities => .init capabilities
    | _, _ => .broken

/-- What a signal can do to a call, and what is answered. -/
inductive Reacts : Option CallView → Signal → Option CallView → List Signal → Prop
  | invited (capabilities : UInt8) : Reacts none (.init capabilities) (some ⟨.requested, capabilities, 0⟩) []
  | refused (capabilities : UInt8) : Reacts none (.init capabilities) none [.pop]
  | strayPush (capabilities : UInt8) : Reacts none (.push capabilities) none [.pop]
  | strayPop : Reacts none .pop none [.pop]
  | recalled {call : CallView} (hactive : call.state = .active) (capabilities : UInt8) :
      Reacts (some call) (.init capabilities) (some call) [.push call.self]
  | crossed {call : CallView} (hactive : call.state ≠ .active) (capabilities : UInt8) :
      Reacts (some call) (.init capabilities) none [.pop]
  | changed {call : CallView} (hactive : call.state = .active) (capabilities : UInt8) :
      Reacts (some call) (.push capabilities) (some { call with peer := capabilities }) []
  | started {call : CallView} (hrequesting : call.state = .requesting) (capabilities : UInt8) :
      Reacts (some call) (.push capabilities) (some { call with state := .active, peer := capabilities }) []
  | failed {call : CallView} (hstate : call.state = .active ∨ call.state = .requesting) (capabilities : UInt8) :
      Reacts (some call) (.push capabilities) none [.pop]
  | ignored {call : CallView} (hrequested : call.state = .requested) (capabilities : UInt8) :
      Reacts (some call) (.push capabilities) (some call) []
  | ended (call : CallView) : Reacts (some call) .pop none []
  | complained (call : Option CallView) : Reacts call .broken call [.pop]
  | dropped (call : CallView) : Reacts (some call) .broken none [.pop]

/-! ## Signals that are sent -/

/-- An error is sent as a pop. -/
theorem signal_sendError (error : MsiError) : (MsiMessage.sendError error).map signal = [.pop] := by
  obtain ⟨data, hsend, hparse⟩ := MsiMessage.parseIn_send { MsiMessage.init .pop with error := some error } rfl
  rw [MsiMessage.sendError, hsend, List.map_singleton, signal, hparse]
  rfl

theorem signal_pop : (MsiMessage.init .pop).send.map signal = [.pop] := by
  obtain ⟨data, hsend, hparse⟩ := MsiMessage.parseIn_send (MsiMessage.init .pop) rfl
  rw [hsend, List.map_singleton, signal, hparse]
  rfl

theorem signal_push (capabilities : UInt8) :
    (MsiMessage.withCapabilities .push capabilities).send.map signal = [.push capabilities] := by
  obtain ⟨data, hsend, hparse⟩ := MsiMessage.parseIn_send (MsiMessage.withCapabilities .push capabilities) rfl
  rw [hsend, List.map_singleton, signal, hparse]
  rfl

theorem signal_init (capabilities : UInt8) :
    (MsiMessage.withCapabilities .init capabilities).send.map signal = [.init capabilities] := by
  obtain ⟨data, hsend, hparse⟩ := MsiMessage.parseIn_send (MsiMessage.withCapabilities .init capabilities) rfl
  rw [hsend, List.map_singleton, signal, hparse]
  rfl

/-! ## Handling a message -/

/-- What a message meets: the address of a new call if allocation succeeds, and of each registered callback whether it
returns 0 and the `av_call` that it leaves. -/
structure MsiEnv where
  address : Option CallPointer
  results : MsiCallbackId → Option (Bool × Option CallPointer)

/-- The callbacks, without an application. -/
def MsiEnv.callbacks (env : MsiEnv) : MsiCallbacks Unit :=
  fun cb => (env.results cb).map fun result _ _ => some (result.1, (), result.2)

/-- Any surroundings. -/
def MsiEnv.Any (_ : MsiEnv) : Prop := True

/-- Allocation succeeds, and all callbacks are registered and return 0. -/
structure MsiEnv.Succeeds (env : MsiEnv) : Prop where
  address : env.address ≠ none
  results : ∀ cb, ∃ avCall, env.results cb = some (true, avCall)

/-- A call that is between two messages. -/
def MsiCall.Settled (call : Option MsiCall) : Prop := ∀ c ∈ call, c.state ≠ .inactive

/-- What the handling of a message results in. -/
def Handles (call : Option MsiCall) (received : Signal) (outcome : Option (MsiOutcome Unit)) : Prop :=
  ∃ out, outcome = some out ∧ MsiCall.Settled out.call ∧
    Reacts (call.map MsiCall.view) received (out.call.map MsiCall.view) (out.sent.map signal)

section Handling

variable (env : MsiEnv) (call : MsiCall)

/-- A callback does not change what signalling reads of a call. -/
theorem invokeCallback_view (cb : MsiCallbackId) :
    ∃ ok call', invokeCallback env.callbacks () call cb = some (ok, (), call') ∧ call'.view = call.view := by
  have hfailed (c : MsiCall) : (if c.error = .none then { c with error := .handle } else c).view = c.view := by
    split <;> rfl
  unfold invokeCallback MsiEnv.callbacks
  cases env.results cb with
  | none => exact ⟨_, _, rfl, hfailed call⟩
  | some result =>
    obtain ⟨ok, avCall⟩ := result
    cases ok with
    | false => exact ⟨_, _, rfl, hfailed { call with avCall := avCall }⟩
    | true => exact ⟨_, _, rfl, rfl⟩

/-- A call fails. -/
theorem failCall_handles {call₀ : Option MsiCall} {received : Signal}
    (h : Reacts (call₀.map MsiCall.view) received none [.pop]) : Handles call₀ received (some (failCall () call)) := by
  refine ⟨_, rfl, nofun, ?_⟩
  rw [failCall, signal_sendError]
  exact h

/-- A callback that may fail. -/
theorem callOrFail_handles {call₀ : Option MsiCall} {received : Signal} (cb : MsiCallbackId)
    (hstate : call.state ≠ .inactive) (hok : Reacts (call₀.map MsiCall.view) received (some call.view) [])
    (hfail : Reacts (call₀.map MsiCall.view) received none [.pop]) :
    Handles call₀ received (callOrFail env.callbacks () call cb) := by
  obtain ⟨ok, call', hinvoke, hview⟩ := invokeCallback_view env call cb
  unfold callOrFail
  rw [hinvoke, map_some]
  cases ok with
  | false => exact failCall_handles call' hfail
  | true =>
    refine ⟨_, rfl, ?_, ?_⟩
    · rintro c ⟨⟩
      exact fun hinactive => hstate ((congrArg CallView.state hview).symm.trans hinactive)
    · change Reacts _ received (some call'.view) []
      rw [hview]
      exact hok

variable {capabilities : UInt8} {msg : MsiMessage}

section

variable (hcapabilities : msg.capabilities = some capabilities)
include hcapabilities

/-- An invitation makes a call. -/
theorem handleInit_new (address : CallPointer) :
    Handles none (.init capabilities) (handleInit env.callbacks () (.new address) msg) := by
  unfold handleInit
  rw [hcapabilities]
  exact callOrFail_handles env _ .onInvite nofun (.invited capabilities) (.refused capabilities)

/-- An invitation meets a call. -/
theorem handleInit_handles (hstate : call.state ≠ .inactive) :
    Handles (some call) (.init capabilities) (handleInit env.callbacks () call msg) := by
  obtain ⟨address, state, peer, self, error, avCall⟩ := call
  unfold handleInit
  rw [hcapabilities]
  cases state with
  | inactive => exact absurd rfl hstate
  | active =>
    refine ⟨_, rfl, ?_, ?_⟩
    · rintro c ⟨⟩
      exact hstate
    · dsimp only
      rw [signal_push]
      exact .recalled rfl capabilities
  | requesting => exact failCall_handles _ (.crossed (show MsiCallState.requesting ≠ .active from nofun) capabilities)
  | requested => exact failCall_handles _ (.crossed (show MsiCallState.requested ≠ .active from nofun) capabilities)

/-- A push is handled. -/
theorem handlePush_handles (hstate : call.state ≠ .inactive) :
    Handles (some call) (.push capabilities) (handlePush env.callbacks () call msg) := by
  have hkept : MsiCall.Settled (some call) := by
    rintro c ⟨⟩
    exact hstate
  obtain ⟨address, state, peer, self, error, avCall⟩ := call
  unfold handlePush
  rw [hcapabilities]
  cases state with
  | inactive => exact absurd rfl hstate
  | active =>
    dsimp only
    split
    · exact callOrFail_handles env _ .onCapabilities nofun (.changed rfl capabilities) (.failed (.inl rfl) capabilities)
    · rename_i hsame
      obtain rfl := not_ne_iff.mp hsame
      exact ⟨_, rfl, hkept, .changed rfl peer⟩
  | requesting =>
    exact callOrFail_handles env _ .onStart nofun (.started rfl capabilities) (.failed (.inr rfl) capabilities)
  | requested => exact ⟨_, rfl, hkept, .ignored rfl capabilities⟩

end

/-- A pop is handled. -/
theorem handlePop_handles (msg : MsiMessage) (hstate : call.state ≠ .inactive) :
    Handles (some call) .pop (handlePop env.callbacks () call msg) := by
  obtain ⟨address, state, peer, self, error, avCall⟩ := call
  unfold handlePop
  cases msg.error with
  | some error' =>
    obtain ⟨ok, call', hinvoke, -⟩ := invokeCallback_view env ⟨address, state, peer, self, error', avCall⟩ .onError
    dsimp only
    rw [hinvoke]
    exact ⟨_, rfl, nofun, .ended _⟩
  | none =>
    obtain ⟨ok, call', hinvoke, -⟩ := invokeCallback_view env ⟨address, state, peer, self, error, avCall⟩ .onEnd
    dsimp only
    cases state with
    | inactive => exact absurd rfl hstate
    | active =>
      rw [hinvoke]
      exact ⟨_, rfl, nofun, .ended _⟩
    | requesting =>
      rw [hinvoke]
      exact ⟨_, rfl, nofun, .ended _⟩
    | requested =>
      rw [hinvoke]
      exact ⟨_, rfl, nofun, .ended _⟩

end Handling

/-- A message to a friend without a call. -/
theorem handleMsiPacket_new (env : MsiEnv) (data : Bytes) :
    Handles none (signal data) (handleMsiPacket env.callbacks env.address () none data) := by
  have hanswer (error : MsiError) {received : Signal} (h : Reacts none received none [.pop]) :
      Handles none received (some ⟨none, MsiMessage.sendError error, ()⟩) := by
    refine ⟨_, rfl, nofun, ?_⟩
    rw [signal_sendError]
    exact h
  unfold handleMsiPacket signal
  cases hparse : MsiMessage.parseIn data with
  | none => exact hanswer _ (.complained none)
  | some msg =>
    obtain ⟨request, error, capabilities⟩ := msg
    cases request with
    | none => exact hanswer _ (.complained none)
    | some request =>
      cases request with
      | push =>
        cases capabilities with
        | none => exact hanswer _ (.complained none)
        | some capabilities => exact hanswer _ (.strayPush capabilities)
      | pop => exact hanswer _ .strayPop
      | init =>
        dsimp only
        rw [if_neg (fun h => h rfl)]
        cases env.address with
        | none =>
          cases capabilities with
          | none => exact hanswer _ (.complained none)
          | some capabilities => exact hanswer _ (.refused capabilities)
        | some address =>
          cases capabilities with
          | none => exact failCall_handles _ (.complained none)
          | some capabilities => exact handleInit_new env rfl address

/-- What `handle_msi_packet` does with any data. -/
theorem handleMsiPacket_handles (env : MsiEnv) {call : Option MsiCall} (hsettled : MsiCall.Settled call)
    (data : Bytes) :
    Handles call (signal data) (handleMsiPacket env.callbacks env.address () call data) := by
  cases call with
  | none => exact handleMsiPacket_new env data
  | some call =>
    have hstate : call.state ≠ .inactive := hsettled call rfl
    unfold handleMsiPacket signal
    cases hparse : MsiMessage.parseIn data with
    | none =>
      refine ⟨_, rfl, hsettled, ?_⟩
      rw [signal_sendError]
      exact .complained _
    | some msg =>
      have hrequest := MsiMessage.parseIn_request hparse
      obtain ⟨request, error, capabilities⟩ := msg
      cases request with
      | none => exact absurd rfl hrequest
      | some request =>
        cases request with
        | init =>
          cases capabilities with
          | none => exact failCall_handles _ (.dropped _)
          | some capabilities => exact handleInit_handles env call rfl hstate
        | push =>
          cases capabilities with
          | none => exact failCall_handles _ (.dropped _)
          | some capabilities => exact handlePush_handles env call rfl hstate
        | pop => exact handlePop_handles env call _ hstate

/-! ## The two sessions -/

/-- The call that each of two sessions has for the other, and the messages on their way. -/
structure MsiPair where
  a : Option MsiCall
  b : Option MsiCall
  toA : List Bytes
  toB : List Bytes

/-- What a user can do about the call of a friend. -/
inductive MsiUserCall where
  | invite (address : Option CallPointer) (capabilities : UInt8)
  | hangup
  | answer (capabilities : UInt8)
  | changeCapabilities (capabilities : UInt8)

/-- The call after the user did something, and what was sent. A function that returns -1 changes nothing. -/
def MsiUserCall.exec (call : Option MsiCall) : MsiUserCall → Option MsiCall × List Bytes
  | invite address capabilities =>
    match msiInvite address call capabilities with
    | none => (call, [])
    | some (call, sent) => (some call, sent)
  | hangup =>
    match call.bind msiHangup with
    | none => (call, [])
    | some sent => (none, sent)
  | answer capabilities =>
    match call.bind fun call => msiAnswer call capabilities with
    | none => (call, [])
    | some (call, sent) => (some call, sent)
  | changeCapabilities capabilities =>
    match call.bind fun call => msiChangeCapabilities call capabilities with
    | none => (call, [])
    | some (call, sent) => (some call, sent)

/-- The user asks for a call. -/
def MsiUserCall.Invites : MsiUserCall → Prop
  | invite _ _ => True
  | _ => False

/-- What a user can do to a call, and what is sent. -/
inductive Acts (inviting : Prop) : Option CallView → Option CallView → List Signal → Prop
  | idle (call : Option CallView) : Acts inviting call call []
  | invites (hinviting : inviting) (capabilities : UInt8) :
      Acts inviting none (some ⟨.requesting, 0, capabilities⟩) [.init capabilities]
  | hangsUp (call : CallView) : Acts inviting (some call) none [.pop]
  | answers {call : CallView} (hrequested : call.state = .requested) (capabilities : UInt8) :
      Acts inviting (some call) (some { call with state := .active, self := capabilities }) [.push capabilities]
  | changes {call : CallView} (hactive : call.state = .active) (capabilities : UInt8) :
      Acts inviting (some call) (some { call with self := capabilities }) [.push capabilities]

/-- What the functions of the user do. -/
theorem MsiUserCall.exec_acts {call : Option MsiCall} (hsettled : MsiCall.Settled call) (op : MsiUserCall) :
    Acts op.Invites (call.map MsiCall.view) ((op.exec call).1.map MsiCall.view) ((op.exec call).2.map signal) ∧
      MsiCall.Settled (op.exec call).1 := by
  cases op with
  | invite address capabilities =>
    cases call with
    | some call => exact ⟨.idle _, hsettled⟩
    | none =>
      cases address with
      | none => exact ⟨.idle _, nofun⟩
      | some address =>
        refine ⟨?_, ?_⟩
        · simp only [exec, msiInvite, map_some, signal_init]
          exact .invites trivial capabilities
        · rintro c ⟨⟩
          exact nofun
  | hangup =>
    cases call with
    | none => exact ⟨.idle _, nofun⟩
    | some call =>
      simp only [exec, bind_some, msiHangup, if_neg (hsettled call rfl), signal_pop]
      exact ⟨.hangsUp _, nofun⟩
  | answer capabilities =>
    cases call with
    | none => exact ⟨.idle _, nofun⟩
    | some call =>
      obtain ⟨address, state, peer, self, error, avCall⟩ := call
      by_cases hrequested : state = .requested
      · subst hrequested
        simp only [exec, bind_some, msiAnswer, ne_eq, not_true_eq_false, if_false, signal_push]
        refine ⟨.answers rfl capabilities, ?_⟩
        rintro c ⟨⟩
        exact nofun
      · simp only [exec, bind_some, msiAnswer, hrequested, ne_eq, not_false_eq_true, if_true]
        exact ⟨.idle _, hsettled⟩
  | changeCapabilities capabilities =>
    cases call with
    | none => exact ⟨.idle _, nofun⟩
    | some call =>
      obtain ⟨address, state, peer, self, error, avCall⟩ := call
      by_cases hactive : state = .active
      · subst hactive
        simp only [exec, bind_some, msiChangeCapabilities, ne_eq, not_true_eq_false, if_false, signal_push]
        refine ⟨.changes rfl capabilities, ?_⟩
        rintro c ⟨⟩
        exact nofun
      · simp only [exec, bind_some, msiChangeCapabilities, hactive, ne_eq, not_false_eq_true, if_true]
        exact ⟨.idle _, hsettled⟩

namespace MsiPair

/-- The pair seen from the other side. -/
def swap (s : MsiPair) : MsiPair := ⟨s.b, s.a, s.toB, s.toA⟩

/-- The user of the first session does something. -/
def user (s : MsiPair) (op : MsiUserCall) : MsiPair :=
  { s with a := (op.exec s.a).1, toB := s.toB ++ (op.exec s.a).2 }

/-- The first session handles the next message for it. -/
def deliver (s : MsiPair) (env : MsiEnv) : Option MsiPair :=
  match s.toA with
  | [] => none
  | data :: rest => (handleMsiPacket env.callbacks env.address () s.a data).map fun out =>
      { s with a := out.call, toA := rest, toB := s.toB ++ out.sent }

/-- A message is handled by either session, in surroundings that are permitted. -/
inductive Delivers (permitted : MsiEnv → Prop) : MsiPair → MsiPair → Prop
  | toA {s t : MsiPair} (env : MsiEnv) (henv : permitted env) (h : s.deliver env = some t) : Delivers permitted s t
  | toB {s t : MsiPair} (env : MsiEnv) (henv : permitted env) (h : s.swap.deliver env = some t) :
      Delivers permitted s t.swap

/-- The pairs reached from two sessions without calls, when messages are handled in permitted surroundings and users
only do what a condition allows. -/
inductive Reaches (permitted : MsiEnv → Prop) (allowed : MsiPair → MsiUserCall → Prop) : MsiPair → Prop
  | start : Reaches permitted allowed ⟨none, none, [], []⟩
  | userA {s : MsiPair} (h : Reaches permitted allowed s) (op : MsiUserCall) (hop : allowed s op) :
      Reaches permitted allowed (s.user op)
  | userB {s : MsiPair} (h : Reaches permitted allowed s) (op : MsiUserCall) (hop : allowed s.swap op) :
      Reaches permitted allowed (s.swap.user op).swap
  | deliver {s t : MsiPair} (h : Reaches permitted allowed s) (hstep : Delivers permitted s t) :
      Reaches permitted allowed t

/-- No call is inactive between two steps. -/
def Settled (s : MsiPair) : Prop := MsiCall.Settled s.a ∧ MsiCall.Settled s.b

/-- A delivery keeps the pair settled. -/
theorem deliver_settled {s t : MsiPair} (hs : s.Settled) {env : MsiEnv} (h : s.deliver env = some t) : t.Settled := by
  obtain ⟨a, b, toA, toB⟩ := s
  cases toA with
  | nil => contradiction
  | cons data rest =>
    obtain ⟨out, hout, hsettled, -⟩ := handleMsiPacket_handles env hs.1 data
    simp only [deliver, hout, map_some, some_inj] at h
    subst h
    exact ⟨hsettled, hs.2⟩

/-- No call is ever inactive between two steps. -/
theorem Reaches.settled {permitted : MsiEnv → Prop} {allowed : MsiPair → MsiUserCall → Prop} {s : MsiPair}
    (h : Reaches permitted allowed s) : s.Settled := by
  induction h with
  | start => exact ⟨nofun, nofun⟩
  | userA _ op _ ih => exact ⟨(op.exec_acts ih.1).2, ih.2⟩
  | userB _ op _ ih => exact ⟨ih.1, (op.exec_acts ih.2).2⟩
  | deliver _ hstep ih =>
    cases hstep with
    | toA env _ hstep => exact deliver_settled ih hstep
    | @toB t env _ hstep => exact (deliver_settled (s := swap _) ih.symm hstep).symm

end MsiPair

end Toxcore
