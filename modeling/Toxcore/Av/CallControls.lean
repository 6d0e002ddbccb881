import Toxcore.Av.CallTables
import Toxcore.Data.CallResults

/-!
# Controlling a call

What the user does to an active call with `toxav_call_control` and `toxav_bit_rate_set`, and what the peer does with
the capabilities that it announces. Both change one mask of capabilities, a copy of it from before a pause, and the
handlers that receive audio and video.
-/

namespace Toxcore

open ByteStrings CallResults Function Option

/-! ## The call -/

/-- A call with its signalling call, and whether the receive handlers of its RTP sessions `audio.first` and
`video.first` are registered. -/
structure MediaCall where
  call : ToxAvCall
  msiCall : MsiCall
  audioReceiving : Bool
  videoReceiving : Bool
  deriving DecidableEq

/-- `TOXAV_ERR_BIT_RATE_SET`, for a friend that exists. -/
inductive ToxAvErrBitRateSet where
  | ok
  | sync
  | invalidAudioBitRate
  | invalidVideoBitRate
  | friendNotInCall
  deriving DecidableEq

/-- One half of `toxav_bit_rate_set`, for audio or for video: the bit rate and the signalling call, unless
`msi_change_capabilities` fails. -/
def bitRateHalf (capability : UInt8) (bitRate : Int32) (current : UInt32) (msiCall : MsiCall) :
    Option (UInt32 × MsiCall) :=
  if bitRate ≥ 0 then
    if current = bitRate.toUInt32 then some (current, msiCall)
    else if bitRate = 0 then
      (msiChangeCapabilities msiCall (msiCall.selfCapabilities ^^^ capability)).map fun changed => (0, changed.1)
    else if current = 0 then
      (msiChangeCapabilities msiCall (msiCall.selfCapabilities ||| capability)).map fun changed =>
      (bitRate.toUInt32, changed.1)
    else some (bitRate.toUInt32, msiCall)
  else some (current, msiCall)

namespace MediaCall

variable (c : MediaCall)

/-- A control that is allowed changes the capabilities, and says which handlers are registered. -/
def change (allowed : Bool) (capabilities kept : UInt8)
    (audioReceiving videoReceiving : Bool) : ToxAvErrCallControl × MediaCall :=
  if allowed = false then (.invalidTransition, c)
  else
    let c := { c with call := { c.call with previousSelfCapabilities := kept } }
    match msiChangeCapabilities c.msiCall capabilities with
    | none => (.sync, c)
    | some (msiCall, _) =>
      (.ok, { c with msiCall := msiCall, audioReceiving := audioReceiving, videoReceiving := videoReceiving })

/-- `toxav_call_control`, for a friend that exists and has a call, but for `TOXAV_CALL_CONTROL_CANCEL`. -/
def toxavCallControl (control : ToxAvCallControl) (hcontrol : control ≠ .cancel) : ToxAvErrCallControl × MediaCall :=
  if c.call.active = false then (.friendNotInCall, c)
  else
    let self := c.msiCall.selfCapabilities
    let previous := c.call.previousSelfCapabilities
    match control, hcontrol with
    | .resume, _ => c.change (self = 0 ∧ previous ≠ 0) previous previous true true
    | .pause, _ => c.change (self ≠ 0) 0 self false false
    | .muteAudio, _ => c.change (self &&& msiCapRAudio ≠ 0) (self ^^^ msiCapRAudio) previous false c.videoReceiving
    | .unmuteAudio, _ => c.change (self ^^^ msiCapRAudio ≠ 0) (self ||| msiCapRAudio) previous true c.videoReceiving
    | .hideVideo, _ => c.change (self &&& msiCapRVideo ≠ 0) (self ^^^ msiCapRVideo) previous c.audioReceiving false
    | .showVideo, _ => c.change (self ^^^ msiCapRVideo ≠ 0) (self ||| msiCapRVideo) previous c.audioReceiving true

/-- `toxav_bit_rate_set`, for a friend that exists and has a call. -/
def toxavBitRateSet (audioBitRate videoBitRate : Int32) : ToxAvErrBitRateSet × MediaCall :=
  if audioBitRate > 0 ∧ audioBitRateInvalid audioBitRate.toUInt32 then (.invalidAudioBitRate, c)
  else if videoBitRate > 0 ∧ videoBitRateInvalid videoBitRate.toUInt32 then (.invalidVideoBitRate, c)
  else if c.call.active = false ∨ c.msiCall.state ≠ .active then (.friendNotInCall, c)
  else
    match bitRateHalf msiCapSAudio audioBitRate c.call.audioBitRate c.msiCall with
    | none => (.sync, c)
    | some (audio, msiCall) =>
      let c := { c with call := { c.call with audioBitRate := audio }, msiCall := msiCall }
      match bitRateHalf msiCapSVideo videoBitRate c.call.videoBitRate c.msiCall with
      | none => (.sync, c)
      | some (video, msiCall) => (.ok, { c with call := { c.call with videoBitRate := video }, msiCall := msiCall })

/-- `callback_capabilites` on the handlers of both sessions. -/
def callbackCapabilities (_receiving : Bool × Bool) (msiCall : MsiCall) :
    Option (Bool × (Bool × Bool) × Option CallPointer) :=
  some (true, (msiCall.peerCapabilities &&& msiCapSAudio ≠ 0, msiCall.peerCapabilities &&& msiCapSVideo ≠ 0),
    msiCall.avCall)

/-- The callback for capabilities. No other one is called for a push to an active call. -/
def mediaCallbacks : MsiCallbacks (Bool × Bool)
  | .onCapabilities => some callbackCapabilities
  | _ => none

/-- `handle_push` for a message with capabilities, to a call that stays. -/
def push (capabilities : UInt8) : MediaCall :=
  match handlePush mediaCallbacks (c.audioReceiving, c.videoReceiving) c.msiCall
    (MsiMessage.withCapabilities .push capabilities) with
  | some ⟨some msiCall, _, audioReceiving, videoReceiving⟩ => ⟨c.call, msiCall, audioReceiving, videoReceiving⟩
  | _ => c

end MediaCall

/-- What happens to an active call. -/
inductive CallEvent where
  | control (control : ToxAvCallControl) (hcontrol : control ≠ .cancel)
  | bitRates (audioBitRate videoBitRate : Int32)
  | push (capabilities : UInt8)

/-- What a function returns to the user, if it is the user who called it. -/
abbrev CallResult := Option (ToxAvErrCallControl ⊕ ToxAvErrBitRateSet)

/-- One event. -/
def MediaCall.step (c : MediaCall) : CallEvent → CallResult × MediaCall
  | .control control hcontrol =>
    (some (.inl (c.toxavCallControl control hcontrol).1), (c.toxavCallControl control hcontrol).2)
  | .bitRates audioBitRate videoBitRate =>
    (some (.inr (c.toxavBitRateSet audioBitRate videoBitRate).1), (c.toxavBitRateSet audioBitRate videoBitRate).2)
  | .push capabilities => (none, c.push capabilities)

/-! ## Masks -/

/-- What holds of every byte by its number. -/
theorem forall_byte {P : UInt8 → Prop} (h : ∀ n < 256, P (UInt8.ofNat n)) (x : UInt8) : P x := by
  have hx := h x.toNat x.toNat_lt
  rwa [UInt8.ofNat_toNat] at hx

/-- One of the four capabilities. -/
def IsCapability (capability : UInt8) : Prop :=
  capability = msiCapSAudio ∨ capability = msiCapSVideo ∨ capability = msiCapRAudio ∨ capability = msiCapRVideo

/-- A capability does not touch the others. -/
theorem mask_other {capability other : UInt8} (h : IsCapability capability) (hother : IsCapability other)
    (hne : capability ≠ other) :
    ∀ caps : UInt8, (caps ^^^ capability) &&& other = caps &&& other ∧
      (caps ||| capability) &&& other = caps &&& other := by
  rcases h with rfl | rfl | rfl | rfl <;> rcases hother with rfl | rfl | rfl | rfl
  all_goals first
    | exact absurd rfl hne
    | exact forall_byte (by decide +kernel)

/-- A capability that is there is taken away by a switch, and one that is added is there. -/
theorem mask_self {capability : UInt8} (h : IsCapability capability) : ∀ caps : UInt8,
    (caps &&& capability ≠ 0 → (caps ^^^ capability) &&& capability = 0) ∧
    (caps ||| capability) &&& capability ≠ 0 := by
  rcases h with rfl | rfl | rfl | rfl
  all_goals exact forall_byte (by decide +kernel)

/-- What is announced for bit rates. -/
theorem mask_capabilitiesFor (audioBitRate videoBitRate : UInt32) :
    (capabilitiesFor audioBitRate videoBitRate &&& msiCapSAudio ≠ 0 ↔ audioBitRate ≠ 0) ∧
      (capabilitiesFor audioBitRate videoBitRate &&& msiCapSVideo ≠ 0 ↔ videoBitRate ≠ 0) ∧
      capabilitiesFor audioBitRate videoBitRate &&& msiCapRAudio ≠ 0 ∧
      capabilitiesFor audioBitRate videoBitRate &&& msiCapRVideo ≠ 0 := by
  have hpos (bitRate : UInt32) : bitRate > 0 ↔ bitRate ≠ 0 := UInt32.pos_iff_ne_zero
  rw [capabilitiesFor]
  by_cases haudio : audioBitRate = 0
  · by_cases hvideo : videoBitRate = 0
    · simp only [haudio, hvideo]
      decide
    · simp only [haudio, if_pos ((hpos videoBitRate).mpr hvideo)]
      refine ⟨by decide, iff_of_true (by decide) hvideo, by decide, by decide⟩
  · by_cases hvideo : videoBitRate = 0
    · simp only [hvideo, if_pos ((hpos audioBitRate).mpr haudio)]
      refine ⟨iff_of_true (by decide) haudio, by decide, by decide, by decide⟩
    · simp only [if_pos ((hpos audioBitRate).mpr haudio), if_pos ((hpos videoBitRate).mpr hvideo)]
      exact ⟨iff_of_true (by decide) haudio, iff_of_true (by decide) hvideo, by decide, by decide⟩

/-! ## What a step does -/

namespace MediaCall

variable {c : MediaCall}

/-- A call that is active for the application and for the signalling. -/
def Active (c : MediaCall) : Prop := c.call.active = true ∧ c.msiCall.state = .active

/-- A call with another mask of capabilities, another copy of it, and other handlers. -/
def controlled (c : MediaCall) (self kept : UInt8) (audioReceiving videoReceiving : Bool) : MediaCall :=
  ⟨{ c.call with previousSelfCapabilities := kept }, { c.msiCall with selfCapabilities := self }, audioReceiving,
    videoReceiving⟩

section

variable (h : c.Active)
include h

/-- What a control does to an active call. -/
theorem change_active (allowed : Prop) [Decidable allowed] (self kept : UInt8) (audioReceiving videoReceiving : Bool) :
    c.change allowed self kept audioReceiving videoReceiving =
      if allowed then (.ok, c.controlled self kept audioReceiving videoReceiving) else (.invalidTransition, c) := by
  rw [change]
  by_cases hallowed : allowed
  · rw [if_pos hallowed, decide_eq_true hallowed]
    dsimp only
    rw [msiChangeCapabilities, if_neg (not_not.mpr h.2)]
    rfl
  · rw [if_neg hallowed, decide_eq_false hallowed]
    rfl

/-- Resuming an active call. -/
theorem resume_active : c.toxavCallControl .resume (by decide) =
    if c.msiCall.selfCapabilities = 0 ∧ c.call.previousSelfCapabilities ≠ 0 then
      (.ok, c.controlled c.call.previousSelfCapabilities c.call.previousSelfCapabilities true true)
        else (.invalidTransition, c) := by
  rw [toxavCallControl, if_neg (by rw [h.1]; decide)]
  exact change_active h _ _ _ _ _

/-- Pausing an active call. -/
theorem pause_active : c.toxavCallControl .pause (by decide) =
    if c.msiCall.selfCapabilities ≠ 0 then (.ok, c.controlled 0 c.msiCall.selfCapabilities false false)
    else (.invalidTransition, c) := by
  rw [toxavCallControl, if_neg (by rw [h.1]; decide)]
  exact change_active h _ _ _ _ _

/-- Muting the audio of an active call. -/
theorem muteAudio_active : c.toxavCallControl .muteAudio (by decide) =
    if c.msiCall.selfCapabilities &&& msiCapRAudio ≠ 0 then
      (.ok, c.controlled (c.msiCall.selfCapabilities ^^^ msiCapRAudio) c.call.previousSelfCapabilities false
        c.videoReceiving)
    else (.invalidTransition, c) := by
  rw [toxavCallControl, if_neg (by rw [h.1]; decide)]
  exact change_active h _ _ _ _ _

/-- Unmuting the audio of an active call. -/
theorem unmuteAudio_active : c.toxavCallControl .unmuteAudio (by decide) =
    if c.msiCall.selfCapabilities ^^^ msiCapRAudio ≠ 0 then
      (.ok, c.controlled (c.msiCall.selfCapabilities ||| msiCapRAudio) c.call.previousSelfCapabilities true
        c.videoReceiving)
    else (.invalidTransition, c) := by
  rw [toxavCallControl, if_neg (by rw [h.1]; decide)]
  exact change_active h _ _ _ _ _

/-- Hiding the video of an active call. -/
theorem hideVideo_active : c.toxavCallControl .hideVideo (by decide) =
    if c.msiCall.selfCapabilities &&& msiCapRVideo ≠ 0 then
      (.ok, c.controlled (c.msiCall.selfCapabilities ^^^ msiCapRVideo) c.call.previousSelfCapabilities
        c.audioReceiving false)
    else (.invalidTransition, c) := by
  rw [toxavCallControl, if_neg (by rw [h.1]; decide)]
  exact change_active h _ _ _ _ _

/-- Showing the video of an active call. -/
theorem showVideo_active : c.toxavCallControl .showVideo (by decide) =
    if c.msiCall.selfCapabilities ^^^ msiCapRVideo ≠ 0 then
      (.ok, c.controlled (c.msiCall.selfCapabilities ||| msiCapRVideo) c.call.previousSelfCapabilities
        c.audioReceiving true)
    else (.invalidTransition, c) := by
  rw [toxavCallControl, if_neg (by rw [h.1]; decide)]
  exact change_active h _ _ _ _ _

/-- A push tells an active call the capabilities of the peer. -/
theorem push_active (capabilities : UInt8) : c.push capabilities =
    if c.msiCall.peerCapabilities ≠ capabilities then
      ⟨c.call, { c.msiCall with peerCapabilities := capabilities }, capabilities &&& msiCapSAudio ≠ 0,
        capabilities &&& msiCapSVideo ≠ 0⟩
    else c := by
  have hpush : handlePush mediaCallbacks (c.audioReceiving,
    c.videoReceiving) c.msiCall (.withCapabilities .push capabilities) =
      if c.msiCall.peerCapabilities ≠ capabilities then
        callOrFail mediaCallbacks (c.audioReceiving, c.videoReceiving)
          { c.msiCall with peerCapabilities := capabilities }
          .onCapabilities
      else some ⟨some c.msiCall, [], c.audioReceiving, c.videoReceiving⟩ := by
    obtain ⟨call, ⟨address, state, peer, self, error, avCall⟩, audioReceiving, videoReceiving⟩ := c
    obtain rfl : state = .active := h.2
    rfl
  rw [push, hpush]
  by_cases hchanges : c.msiCall.peerCapabilities ≠ capabilities
  · rw [if_pos hchanges, if_pos hchanges]
    rfl
  · rw [if_neg hchanges, if_neg hchanges]

end

/-- What half of `toxav_bit_rate_set` does to a bit rate and the mask: sending stays as it is, or is turned off, or
on. -/
def HalfSet (capability : UInt8) (bitRate : Int32) (current next : UInt32) (before self : UInt8) : Prop :=
  (bitRate ≥ 0 → (current ≠ 0 ↔ bitRate ≠ 0)) ∧ self = before ∧ (next ≠ 0 ↔ current ≠ 0) ∨
    (bitRate ≥ 0 ∧ current ≠ 0 ∧ bitRate = 0) ∧ self = before ^^^ capability ∧ next = 0 ∨
    (bitRate ≥ 0 ∧ current = 0 ∧ bitRate ≠ 0) ∧ self = before ||| capability ∧ next ≠ 0

/-- Half of `toxav_bit_rate_set` does not touch the other capabilities. -/
theorem HalfSet.other {capability other : UInt8} (hcapability : IsCapability capability) (hother : IsCapability other)
    (hne : capability ≠ other) {bitRate : Int32} {current next : UInt32} {before self : UInt8}
    (h : HalfSet capability bitRate current next before self) : self &&& other = before &&& other := by
  have hmask := mask_other hcapability hother hne before
  rcases h with ⟨-, rfl, -⟩ | ⟨-, rfl, -⟩ | ⟨-, rfl, -⟩
  · rfl
  · exact hmask.1
  · exact hmask.2

/-- Half of `toxav_bit_rate_set` announces the bit rate, if the one before was announced. -/
theorem HalfSet.announces {capability : UInt8} (hcapability : IsCapability capability) {bitRate : Int32}
    {current next : UInt32} {before self : UInt8} (h : HalfSet capability bitRate current next before self)
    (hbefore : before &&& capability ≠ 0 ↔ current ≠ 0) :
    self &&& capability ≠ 0 ↔ next ≠ 0 := by
  have hmask := mask_self hcapability before
  rcases h with ⟨-, rfl, hnext⟩ | ⟨⟨-, hcurrent, -⟩, rfl, rfl⟩ | ⟨-, rfl, hnext⟩
  · exact hbefore.trans hnext.symm
  · exact iff_of_false (not_not.mpr (hmask.1 (hbefore.mpr hcurrent))) (not_not.mpr rfl)
  · exact iff_of_true hmask.2 hnext

/-- A half of `toxav_bit_rate_set` on an active call. -/
theorem bitRateHalf_active {msiCall : MsiCall} (hactive : msiCall.state = .active) (capability : UInt8)
    (bitRate : Int32) (current : UInt32) :
      ∃ next self, bitRateHalf capability bitRate current msiCall =
        some (next, { msiCall with selfCapabilities := self }) ∧
      HalfSet capability bitRate current next msiCall.selfCapabilities self := by
  have hzero : bitRate.toUInt32 = 0 ↔ bitRate = 0 := by
    refine ⟨fun hno => ?_, fun hno => congrArg Int32.toUInt32 hno⟩
    have hback := congrArg UInt32.toInt32 hno
    rwa [Int32.toInt32_toUInt32] at hback
  have hchange (self : UInt8) : msiChangeCapabilities msiCall self =
      some ({ msiCall with selfCapabilities := self }, (MsiMessage.withCapabilities .push self).send) :=
    if_neg (not_not.mpr hactive)
  rw [bitRateHalf]
  by_cases hset : bitRate ≥ 0
  · rw [if_pos hset]
    by_cases hsame : current = bitRate.toUInt32
    · rw [if_pos hsame]
      exact ⟨current, msiCall.selfCapabilities, rfl, .inl ⟨fun _ => not_congr (hsame ▸ hzero), rfl, Iff.rfl⟩⟩
    · rw [if_neg hsame]
      by_cases hoff : bitRate = 0
      · rw [if_pos hoff, hchange]
        refine ⟨0, _, rfl, .inr (.inl ⟨⟨hset, fun hno => hsame ?_, hoff⟩, rfl, rfl⟩)⟩
        rw [hno, hzero.mpr hoff]
      · rw [if_neg hoff]
        have hnext : bitRate.toUInt32 ≠ 0 := fun hno => hoff (hzero.mp hno)
        by_cases hwas : current = 0
        · rw [if_pos hwas, hchange]
          exact ⟨bitRate.toUInt32, _, rfl, .inr (.inr ⟨⟨hset, hwas, hoff⟩, rfl, hnext⟩)⟩
        · rw [if_neg hwas]
          exact ⟨bitRate.toUInt32, msiCall.selfCapabilities, rfl,
            .inl ⟨fun _ => iff_of_true hwas hoff, rfl, iff_of_true hnext hwas⟩⟩
  · rw [if_neg hset]
    exact ⟨current, msiCall.selfCapabilities, rfl, .inl ⟨fun hno => absurd hno hset, rfl, Iff.rfl⟩⟩

/-- Setting the bit rates of an active call: refused, or one half after the other. -/
theorem toxavBitRateSet_active (h : c.Active) (audioBitRate videoBitRate : Int32) :
    (∃ error, c.toxavBitRateSet audioBitRate videoBitRate = (error, c) ∧
      (audioBitRate > 0 ∧ audioBitRateInvalid audioBitRate.toUInt32 ∨ videoBitRate > 0 ∧
        videoBitRateInvalid videoBitRate.toUInt32)) ∨
    ∃ audio between video self, c.toxavBitRateSet audioBitRate videoBitRate =
      (.ok, ⟨{ c.call with audioBitRate := audio, videoBitRate := video },
        { c.msiCall with selfCapabilities := self }, c.audioReceiving, c.videoReceiving⟩) ∧
      ¬ (audioBitRate > 0 ∧ audioBitRateInvalid audioBitRate.toUInt32) ∧
        ¬ (videoBitRate > 0 ∧ videoBitRateInvalid videoBitRate.toUInt32) ∧
      HalfSet msiCapSAudio audioBitRate c.call.audioBitRate audio c.msiCall.selfCapabilities between ∧
      HalfSet msiCapSVideo videoBitRate c.call.videoBitRate video between self := by
  rw [toxavBitRateSet]
  by_cases haudio : audioBitRate > 0 ∧ audioBitRateInvalid audioBitRate.toUInt32
  · rw [if_pos haudio]
    exact .inl ⟨_, rfl, .inl haudio⟩
  rw [if_neg haudio]
  by_cases hvideo : videoBitRate > 0 ∧ videoBitRateInvalid videoBitRate.toUInt32
  · rw [if_pos hvideo]
    exact .inl ⟨_, rfl, .inr hvideo⟩
  rw [if_neg hvideo, if_neg (not_or.mpr ⟨by rw [h.1]; decide, not_not.mpr h.2⟩)]
  obtain ⟨audio, between, hfirst, haudioSet⟩ := bitRateHalf_active h.2 msiCapSAudio audioBitRate c.call.audioBitRate
  have hbetween : ({ c.msiCall with selfCapabilities := between } : MsiCall).state = .active := h.2
  obtain ⟨video, self, hsecond, hvideoSet⟩ := bitRateHalf_active hbetween msiCapSVideo videoBitRate c.call.videoBitRate
  refine .inr ⟨audio, between, video, self, ?_, haudio, hvideo, haudioSet, hvideoSet⟩
  rw [hfirst]
  dsimp only
  rw [hsecond]

/-- An active call stays active. -/
theorem step_active (h : c.Active) (event : CallEvent) : (c.step event).2.Active := by
  cases event with
  | control control hcontrol =>
    change (c.toxavCallControl control hcontrol).2.Active
    cases control with
    | cancel => exact absurd rfl hcontrol
    | resume => rw [resume_active h]; split <;> exact h
    | pause => rw [pause_active h]; split <;> exact h
    | muteAudio => rw [muteAudio_active h]; split <;> exact h
    | unmuteAudio => rw [unmuteAudio_active h]; split <;> exact h
    | hideVideo => rw [hideVideo_active h]; split <;> exact h
    | showVideo => rw [showVideo_active h]; split <;> exact h
  | bitRates audioBitRate videoBitRate =>
    change (c.toxavBitRateSet audioBitRate videoBitRate).2.Active
    rcases toxavBitRateSet_active h audioBitRate videoBitRate with ⟨error, hrefused, -⟩ | ⟨audio, between, video, self,
      hset, -⟩
    · rw [hrefused]
      exact h
    · rw [hset]
      exact h
  | push capabilities =>
    change (c.push capabilities).Active
    rw [push_active h]
    split <;> exact h

/-! ## The call in the tables -/

/-- The call of a friend is this one. -/
structure InTables (c : MediaCall) (sys : AvSystem) (friendNumber : UInt32) : Prop where
  call : sys.av.calls friendNumber = some c.call
  msiCall : sys.msi friendNumber = some c.msiCall
  pointer : c.call.msiCall = some c.msiCall.address
  place : c.msiCall.address.friendNumber = friendNumber

variable {friendNumber : UInt32} {sys : AvSystem} {env : AvEnv}

/-- A change of capabilities in the tables is a change of the call. -/
theorem changeCapabilities_inTables (h : c.InTables sys friendNumber) (allowed : Bool) (self kept : UInt8)
    (audioReceiving videoReceiving : Bool) :
    (sys.changeCapabilities friendNumber c.call c.msiCall allowed self kept).1 =
        (c.change allowed self kept audioReceiving videoReceiving).1 ∧
      (c.change allowed self kept audioReceiving videoReceiving).2.InTables
        (sys.changeCapabilities friendNumber c.call c.msiCall allowed self kept).2 friendNumber := by
  rw [AvSystem.changeCapabilities, change]
  cases allowed with
  | false => exact ⟨rfl, h⟩
  | true =>
    dsimp only
    rw [msiChangeCapabilities]
    by_cases hstate : c.msiCall.state ≠ .active
    · rw [if_pos hstate]
      exact ⟨rfl, update_self .., h.msiCall, h.pointer, h.place⟩
    · rw [if_neg hstate]
      refine ⟨rfl, update_self .., ?_, h.pointer, h.place⟩
      have hplace :
        ({ c.msiCall with selfCapabilities := self } : MsiCall).address.friendNumber = friendNumber := h.place
      rw [← hplace]
      exact update_self ..

/-- `toxav_call_control` on the tables is `toxav_call_control` on the call. -/
theorem toxavCallControl_inTables (h : c.InTables sys friendNumber) (henv : env.friendExists = true)
    (control : ToxAvCallControl) (hcontrol : control ≠ .cancel) :
    ∃ sys', sys.toxavCallControl env friendNumber control = some ((c.toxavCallControl control hcontrol).1, sys') ∧
      (c.toxavCallControl control hcontrol).2.InTables sys' friendNumber := by
  have hderef : sys.derefMsi c.msiCall.address = some c.msiCall := by
    rw [AvSystem.derefMsi, h.place, h.msiCall, filter_some, if_pos (decide_eq_true rfl)]
  rw [AvSystem.toxavCallControl, if_neg (by rw [henv]; decide), h.call, toxavCallControl]
  dsimp only
  by_cases hinactive : c.call.active = false
  · rw [if_pos ⟨hinactive, hcontrol⟩, if_pos hinactive]
    exact ⟨sys, rfl, h⟩
  · rw [if_neg fun hno => hinactive hno.1, if_neg hinactive]
    have hchange := changeCapabilities_inTables h
    cases control with
    | cancel => exact absurd rfl hcontrol
    | resume | pause | muteAudio | unmuteAudio | hideVideo | showVideo =>
      simp only [h.pointer, hderef, map_some]
      exact ⟨_, congrArg some (Prod.ext (hchange ..).1 rfl), (hchange ..).2⟩

/-- A call with a prepared transmission is active. -/
theorem callPrepareTransmission_active {av : ToxAv} {call prepared : ToxAvCall}
    (h : av.callPrepareTransmission env call = some prepared) : prepared.active = true := by
  unfold ToxAv.callPrepareTransmission at h
  split at h
  · contradiction
  · split at h
    · obtain rfl := some.inj h
      assumption
    · split at h
      · obtain rfl := some.inj h
        rfl
      · contradiction

/-- An answered call announces its bit rates. -/
theorem toxavAnswer_inTables {sys' : AvSystem} (h : c.InTables sys friendNumber) {audioBitRate videoBitRate : UInt32}
    (hanswer : sys.toxavAnswer env friendNumber audioBitRate videoBitRate = some (.ok, sys')) :
    ∃ answered : MediaCall, answered.InTables sys' friendNumber ∧ answered.Active ∧
      answered.call.audioBitRate = audioBitRate ∧
      answered.call.videoBitRate = videoBitRate ∧
        answered.msiCall.selfCapabilities = capabilitiesFor audioBitRate videoBitRate := by
  have hderef (av : ToxAv) : ({ sys with av := av } : AvSystem).derefMsi c.msiCall.address = some c.msiCall := by
    rw [AvSystem.derefMsi, h.place, h.msiCall, filter_some, if_pos (decide_eq_true rfl)]
  rw [AvSystem.toxavAnswer] at hanswer
  split at hanswer
  · cases hanswer
  split at hanswer
  · cases hanswer
  rw [h.call] at hanswer
  dsimp only at hanswer
  cases hprepare : sys.av.callPrepareTransmission env c.call with
  | none =>
    rw [hprepare] at hanswer
    cases hanswer
  | some call =>
    obtain ⟨-, hpointer⟩ := ToxAv.callPrepareTransmission_fields hprepare
    rw [hprepare] at hanswer
    dsimp only at hanswer
    rw [hpointer, h.pointer] at hanswer
    dsimp only at hanswer
    rw [hderef, map_some, msiAnswer] at hanswer
    by_cases hstate : c.msiCall.state ≠ .requested
    · rw [if_pos hstate] at hanswer
      cases hanswer
    · rw [if_neg hstate] at hanswer
      obtain rfl := (Prod.mk.inj (some.inj hanswer)).2
      have hactive : call.active = true := callPrepareTransmission_active hprepare
      refine ⟨⟨_, { c.msiCall with selfCapabilities := capabilitiesFor audioBitRate videoBitRate, state := .active },
        c.audioReceiving, c.videoReceiving⟩, ⟨update_self .., ?_, rfl, h.place⟩,
        ⟨hactive, rfl⟩, rfl, rfl, rfl⟩
      rw [← h.place]
      exact update_self ..

end MediaCall

end Toxcore
