import Toxcore.Av.CallControls

/-!
# What a call announces

The mask of capabilities tells the peer whether audio and video are sent, and is 0 while the call is paused. The
controls and the bit rates both write it, by exclusive or, by or, and from a copy. Beside the call stands what the
source does not store: whether the call was paused, and from which capabilities.
-/

namespace Toxcore

open CallResults

/-! ## Pausing -/

/-- A call, and the capabilities before the pause where it is paused. -/
structure PausableCall where
  call : MediaCall
  pausedFrom : Option UInt8

namespace PausableCall

variable (p : PausableCall)

/-- The capabilities of the user. -/
abbrev self : UInt8 := p.call.msiCall.selfCapabilities

/-- A pause that succeeds pauses the call, and the next resume that succeeds ends the pause. -/
def pausedAfter : CallEvent → CallResult → Option UInt8
  | .control .pause _, some (.inl .ok) => some p.self
  | .control .resume _, some (.inl .ok) => none
  | _, _ => p.pausedFrom

/-- One event. -/
def step (event : CallEvent) : CallResult × PausableCall :=
  ((p.call.step event).1, ⟨(p.call.step event).2, p.pausedAfter event (p.call.step event).1⟩)

/-- A mask tells whether audio and video are sent. -/
def Announced (self : UInt8) (call : ToxAvCall) : Prop :=
  (self &&& msiCapSAudio ≠ 0 ↔ call.audioBitRate ≠ 0) ∧ (self &&& msiCapSVideo ≠ 0 ↔ call.videoBitRate ≠ 0)

/-- A paused call has no capabilities, and any other one announces what it sends. -/
def Announces : Prop :=
  match p.pausedFrom with
  | some _ => p.self = 0
  | none => Announced p.self p.call.call

/-- A resume that succeeds restores the capabilities from before the pause. -/
def Restores : CallEvent → Prop
  | .control .resume hcontrol =>
    (p.step (.control .resume hcontrol)).1 = some (.inl .ok) →
      ∀ caps ∈ p.pausedFrom, (p.step (.control .resume hcontrol)).2.self = caps
  | _ => True

/-- A control for audio or video alone is an invalid transition exactly when the call is in the requested state. -/
def RefusesAlone : CallEvent → Prop
  | .control .muteAudio hcontrol =>
    (p.step (.control .muteAudio hcontrol)).1 = some (.inl .invalidTransition) ↔ p.self &&& msiCapRAudio = 0
  | .control .unmuteAudio hcontrol =>
    (p.step (.control .unmuteAudio hcontrol)).1 = some (.inl .invalidTransition) ↔ p.self &&& msiCapRAudio ≠ 0
  | .control .hideVideo hcontrol =>
    (p.step (.control .hideVideo hcontrol)).1 = some (.inl .invalidTransition) ↔ p.self &&& msiCapRVideo = 0
  | .control .showVideo hcontrol =>
    (p.step (.control .showVideo hcontrol)).1 = some (.inl .invalidTransition) ↔ p.self &&& msiCapRVideo ≠ 0
  | _ => True

/-- What is promised of an event. -/
def Promised (event : CallEvent) : Prop := (p.step event).2.Announces ∧ p.Restores event ∧ p.RefusesAlone event

/-- A bit rate does not turn sending on or off. -/
def SendingStays (bitRate : Int32) (current : UInt32) : Prop := bitRate ≥ 0 → (current ≠ 0 ↔ bitRate ≠ 0)

/-- An event that the source handles as promised. While the call is paused, nothing is unmuted or shown, and no
sending is turned on or off. What can be received already is unmuted or shown only where it is all that the mask
holds. A call that is not paused, but whose mask is empty, is resumed only from a copy that sends nothing. -/
def Careful : CallEvent → Prop
  | .control .resume _ =>
    p.pausedFrom = none → p.self = 0 → p.call.call.previousSelfCapabilities ≠ 0 →
      p.call.call.previousSelfCapabilities &&& msiCapSAudio = 0 ∧
        p.call.call.previousSelfCapabilities &&& msiCapSVideo = 0
  | .control .unmuteAudio _ => p.pausedFrom = none ∧ (p.self &&& msiCapRAudio ≠ 0 → p.self = msiCapRAudio)
  | .control .showVideo _ => p.pausedFrom = none ∧ (p.self &&& msiCapRVideo ≠ 0 → p.self = msiCapRVideo)
  | .bitRates audioBitRate videoBitRate =>
    p.pausedFrom ≠ none → ¬(audioBitRate > 0 ∧ audioBitRateInvalid audioBitRate.toUInt32) →
      ¬(videoBitRate > 0 ∧ videoBitRateInvalid videoBitRate.toUInt32) →
      SendingStays audioBitRate p.call.call.audioBitRate ∧ SendingStays videoBitRate p.call.call.videoBitRate
  | _ => True

/-- What holds after careful events. -/
structure Kept : Prop where
  active : p.call.Active
  announces : p.Announces
  paused : ∀ caps ∈ p.pausedFrom, p.call.call.previousSelfCapabilities = caps ∧ caps ≠ 0 ∧ Announced caps p.call.call

/-! ## One event -/

variable {p}

/-- A call that is not paused. -/
theorem announces_none (h : p.pausedFrom = none) : p.Announces ↔ Announced p.self p.call.call := by
  rw [Announces, h]

/-- A paused call. -/
theorem announces_some {caps : UInt8} (h : p.pausedFrom = some caps) : p.Announces ↔ p.self = 0 := by
  rw [Announces, h]

/-- A call with capabilities is not paused. -/
theorem Kept.pausedFrom_none (h : p.Kept) (hself : p.self ≠ 0) : p.pausedFrom = none := by
  by_contra hno
  obtain ⟨caps, hcaps⟩ := Option.ne_none_iff_exists'.mp hno
  exact hself ((announces_some hcaps).mp h.announces)

section

variable (h : p.call.Active)
include h

/-- Resuming. -/
theorem step_resume : p.step (.control .resume (by decide)) =
    if p.self = 0 ∧ p.call.call.previousSelfCapabilities ≠ 0 then
      (some (.inl .ok),
        ⟨p.call.controlled p.call.call.previousSelfCapabilities p.call.call.previousSelfCapabilities true true, none⟩)
    else (some (.inl .invalidTransition), p) := by
  rw [step, MediaCall.step, MediaCall.resume_active h]
  split <;> rfl

/-- Pausing. -/
theorem step_pause : p.step (.control .pause (by decide)) =
    if p.self ≠ 0 then (some (.inl .ok), ⟨p.call.controlled 0 p.self false false, some p.self⟩)
    else (some (.inl .invalidTransition), p) := by
  rw [step, MediaCall.step, MediaCall.pause_active h]
  split <;> rfl

/-- Muting the audio. -/
theorem step_muteAudio : p.step (.control .muteAudio (by decide)) =
    if p.self &&& msiCapRAudio ≠ 0 then
      (some (.inl .ok),
        ⟨p.call.controlled (p.self ^^^ msiCapRAudio) p.call.call.previousSelfCapabilities false p.call.videoReceiving,
        p.pausedFrom⟩)
    else (some (.inl .invalidTransition), p) := by
  rw [step, MediaCall.step, MediaCall.muteAudio_active h]
  split <;> rfl

/-- Unmuting the audio. -/
theorem step_unmuteAudio : p.step (.control .unmuteAudio (by decide)) =
    if p.self ^^^ msiCapRAudio ≠ 0 then
      (some (.inl .ok),
        ⟨p.call.controlled (p.self ||| msiCapRAudio) p.call.call.previousSelfCapabilities true p.call.videoReceiving,
        p.pausedFrom⟩)
    else (some (.inl .invalidTransition), p) := by
  rw [step, MediaCall.step, MediaCall.unmuteAudio_active h]
  split <;> rfl

/-- Hiding the video. -/
theorem step_hideVideo : p.step (.control .hideVideo (by decide)) =
    if p.self &&& msiCapRVideo ≠ 0 then
      (some (.inl .ok),
        ⟨p.call.controlled (p.self ^^^ msiCapRVideo) p.call.call.previousSelfCapabilities p.call.audioReceiving false,
        p.pausedFrom⟩)
    else (some (.inl .invalidTransition), p) := by
  rw [step, MediaCall.step, MediaCall.hideVideo_active h]
  split <;> rfl

/-- Showing the video. -/
theorem step_showVideo : p.step (.control .showVideo (by decide)) =
    if p.self ^^^ msiCapRVideo ≠ 0 then
      (some (.inl .ok),
        ⟨p.call.controlled (p.self ||| msiCapRVideo) p.call.call.previousSelfCapabilities p.call.audioReceiving true,
        p.pausedFrom⟩)
    else (some (.inl .invalidTransition), p) := by
  rw [step, MediaCall.step, MediaCall.showVideo_active h]
  split <;> rfl

end

/-- A capability to receive. -/
def IsReceiving (capability : UInt8) : Prop := capability = msiCapRAudio ∨ capability = msiCapRVideo

variable {capability : UInt8}

/-- What is received is not part of what is announced. -/
theorem announced_receiving (hcapability : IsReceiving capability) (self : UInt8) (call : ToxAvCall) :
    (Announced (self ^^^ capability) call ↔ Announced self call) ∧
    (Announced (self ||| capability) call ↔ Announced self call) := by
  have hknown : IsCapability capability := .inr (.inr hcapability)
  have haudio := mask_other hknown (.inl rfl) (by rcases hcapability with rfl | rfl <;> decide) self
  have hvideo := mask_other hknown (.inr (.inl rfl)) (by rcases hcapability with rfl | rfl <;> decide) self
  rw [Announced, Announced, Announced, haudio.1, haudio.2, hvideo.1, hvideo.2]
  exact ⟨Iff.rfl, Iff.rfl⟩

variable {stepped : CallResult × PausableCall}

/-- Taking a capability to receive from the mask: the call announces what it did, and only what is not there is
refused. -/
theorem taken_kept (h : p.Kept) (hcapability : IsReceiving capability) {audioReceiving videoReceiving : Bool}
    (hstep : stepped = if p.self &&& capability ≠ 0 then
      (some (.inl .ok),
        ⟨p.call.controlled (p.self ^^^ capability) p.call.call.previousSelfCapabilities audioReceiving videoReceiving,
        p.pausedFrom⟩) else (some (.inl .invalidTransition), p)) :
    stepped.2.Kept ∧ (stepped.1 = some (.inl .invalidTransition) ↔ p.self &&& capability = 0) := by
  subst hstep
  by_cases hthere : p.self &&& capability ≠ 0
  · rw [if_pos hthere]
    have hpaused := h.pausedFrom_none fun hno => hthere (by rw [hno, UInt8.zero_and])
    have hannounced := (announces_none hpaused).mp h.announces
    have hannounces :
      Announces ⟨p.call.controlled (p.self ^^^ capability) p.call.call.previousSelfCapabilities audioReceiving
        videoReceiving, p.pausedFrom⟩ := by
      rw [hpaused]
      exact (announced_receiving hcapability _ _).1.mpr hannounced
    exact ⟨⟨h.active, hannounces, h.paused⟩, iff_of_false nofun hthere⟩
  · rw [if_neg hthere]
    exact ⟨h, iff_of_true rfl (not_not.mp hthere)⟩

/-- Giving a capability to receive to the mask: promised only to a call that is not paused, and refused only where it
is alone. -/
theorem given_kept (h : p.Kept) (hcapability : IsReceiving capability) {audioReceiving videoReceiving : Bool}
    (hstep : stepped = if p.self ^^^ capability ≠ 0 then
      (some (.inl .ok),
        ⟨p.call.controlled (p.self ||| capability) p.call.call.previousSelfCapabilities audioReceiving videoReceiving,
        p.pausedFrom⟩) else (some (.inl .invalidTransition), p)) :
    (stepped.2.Announces ∧ (stepped.1 = some (.inl .invalidTransition) ↔ p.self &&& capability ≠ 0) ↔
        p.pausedFrom = none ∧ (p.self &&& capability ≠ 0 → p.self = capability)) ∧
          (p.pausedFrom = none → stepped.2.Kept) := by
  have hself (caps : UInt8) : (caps ||| capability) &&& capability ≠ 0 := (mask_self (.inr (.inr hcapability)) caps).2
  subst hstep
  by_cases hchanges : p.self ^^^ capability ≠ 0
  · have hmore : p.self ≠ capability := fun hno => hchanges (UInt8.xor_eq_zero_iff.mpr hno)
    rw [if_pos hchanges]
    have hrefused : (some (.inl .ok) : CallResult) = some (.inl .invalidTransition) ↔ False := iff_of_false nofun id
    cases hpaused : p.pausedFrom with
    | some caps =>
      refine ⟨iff_of_false (fun hall => ?_) nofun, nofun⟩
      have hempty : p.self ||| capability = 0 := hall.1
      exact hself p.self (by rw [hempty, UInt8.zero_and])
    | none =>
      have hannounced := (announces_none hpaused).mp h.announces
      have hannounces :
        Announces ⟨p.call.controlled (p.self ||| capability) p.call.call.previousSelfCapabilities audioReceiving
          videoReceiving, none⟩ := (announced_receiving hcapability _ _).2.mpr hannounced
      refine ⟨?_, fun _ => ⟨h.active, hannounces, nofun⟩⟩
      rw [and_iff_right hannounces, and_iff_right rfl, hrefused, false_iff]
      exact imp_congr_right fun _ => (iff_false_intro hmore).symm
  · have halone : p.self = capability := UInt8.xor_eq_zero_iff.mp (not_not.mp hchanges)
    have hthere : p.self &&& capability ≠ 0 := by
      rw [halone]
      have hagain := hself p.self
      rwa [halone, UInt8.or_self] at hagain
    have hpaused := h.pausedFrom_none fun hno => hthere (by rw [hno, UInt8.zero_and])
    rw [if_neg hchanges]
    exact ⟨iff_of_true ⟨h.announces, iff_of_true rfl hthere⟩ ⟨hpaused, fun _ => halone⟩, fun _ => h⟩

/-- Resuming keeps the promise unless an empty mask that is not a pause is replaced by a copy that sends. -/
theorem resume_kept (h : p.Kept) :
    (p.Promised (.control .resume (by decide)) ↔ p.Careful (.control .resume (by decide))) ∧
      (p.Careful (.control .resume (by decide)) → (p.step (.control .resume (by decide))).2.Kept) := by
  rw [Promised, Restores, step_resume h.active]
  by_cases hresumes : p.self = 0 ∧ p.call.call.previousSelfCapabilities ≠ 0
  · rw [if_pos hresumes]
    have hrestored :
      Kept ⟨p.call.controlled p.call.call.previousSelfCapabilities p.call.call.previousSelfCapabilities true
        true, none⟩ ↔
        Announced p.call.call.previousSelfCapabilities p.call.call :=
      ⟨fun hkept => hkept.announces, fun hannounced => ⟨h.active, hannounced, nofun⟩⟩
    cases hpaused : p.pausedFrom with
    | some caps =>
      obtain ⟨hcopy, -, hannounced⟩ := h.paused caps hpaused
      rw [← hcopy] at hannounced
      refine ⟨iff_of_true ⟨hannounced, fun _ caps' hcaps' => ?_, trivial⟩ ?_, fun _ => hrestored.mpr hannounced⟩
      · rw [← Option.some.inj hcaps']
        exact hcopy
      · exact fun hno => absurd (hpaused.symm.trans hno) nofun
    | none =>
      have hsilent := (announces_none hpaused).mp h.announces
      rw [Announced, hresumes.1, UInt8.zero_and, UInt8.zero_and] at hsilent
      have hannounced : Announced p.call.call.previousSelfCapabilities p.call.call ↔
        p.Careful (.control .resume (by decide)) := by
        rw [Announced, ← hsilent.1, ← hsilent.2]
        refine ⟨fun hboth _ _ _ => ?_, fun hcareful => ?_⟩
        · exact ⟨not_not.mp fun hno => absurd rfl (hboth.1.mp hno), not_not.mp fun hno => absurd rfl (hboth.2.mp hno)⟩
        · obtain ⟨haudio, hvideo⟩ := hcareful hpaused hresumes.1 hresumes.2
          exact ⟨iff_of_false (not_not.mpr haudio) (absurd rfl), iff_of_false (not_not.mpr hvideo) (absurd rfl)⟩
      refine ⟨⟨fun hall => hannounced.mp hall.1, fun hcareful =>
        ⟨hannounced.mpr hcareful, fun _ => nofun, trivial⟩⟩, ?_⟩
      exact fun hcareful => hrestored.mpr (hannounced.mpr hcareful)
  · rw [if_neg hresumes]
    have hcareful : p.Careful (.control .resume (by decide)) := fun _ hself hprevious =>
      absurd ⟨hself, hprevious⟩ hresumes
    exact ⟨iff_of_true ⟨h.announces, nofun, trivial⟩ hcareful, fun _ => h⟩

/-- Pausing keeps the promise. -/
theorem pause_kept (h : p.Kept) : (p.step (.control .pause (by decide))).2.Kept := by
  rw [step_pause h.active]
  by_cases hpauses : p.self ≠ 0
  · rw [if_pos hpauses]
    have hpaused := h.pausedFrom_none hpauses
    refine ⟨h.active, rfl, fun caps hcaps => ?_⟩
    obtain rfl := Option.some.inj hcaps
    exact ⟨rfl, hpauses, (announces_none hpaused).mp h.announces⟩
  · rw [if_neg hpauses]
    exact h

/-- Half of the bit rates in a paused call: the mask stays empty exactly when no sending is turned on or off. -/
theorem half_empty (hcapability : IsCapability capability) {bitRate : Int32} {current next : UInt32} {self : UInt8}
    (h : MediaCall.HalfSet capability bitRate current next 0 self) :
    (self = 0 ↔ SendingStays bitRate current) ∧ (SendingStays bitRate current → (next ≠ 0 ↔ current ≠ 0)) ∧
      (self ≠ 0 → self &&& capability ≠ 0) := by
  have hthere : capability &&& capability ≠ 0 := by rcases hcapability with rfl | rfl | rfl | rfl <;> decide
  have hself : capability ≠ 0 := fun hno => hthere (by rw [hno, UInt8.zero_and])
  rcases h with ⟨hstays, rfl, hnext⟩ | ⟨⟨hset, hcurrent, hoff⟩, rfl, -⟩ | ⟨⟨hset, hcurrent, hon⟩, rfl, -⟩
  · exact ⟨iff_of_true rfl hstays, fun _ => hnext, absurd rfl⟩
  · have hturns : ¬SendingStays bitRate current := fun hstays => (hstays hset).mp hcurrent hoff
    rw [UInt8.zero_xor]
    exact ⟨iff_of_false hself hturns, fun hno => absurd hno hturns, fun _ => hthere⟩
  · have hturns : ¬SendingStays bitRate current := fun hstays => (hstays hset).mpr hon hcurrent
    rw [UInt8.zero_or]
    exact ⟨iff_of_false hself hturns, fun hno => absurd hno hturns, fun _ => hthere⟩

/-- Setting bit rates keeps the promise unless it turns sending on or off while the call is paused. -/
theorem bitRates_kept (h : p.Kept) (audioBitRate videoBitRate : Int32) :
    ((p.step (.bitRates audioBitRate videoBitRate)).2.Announces ↔ p.Careful (.bitRates audioBitRate videoBitRate)) ∧
      (p.Careful (.bitRates audioBitRate videoBitRate) → (p.step (.bitRates audioBitRate videoBitRate)).2.Kept) := by
  rw [step, MediaCall.step]
  rcases MediaCall.toxavBitRateSet_active h.active audioBitRate videoBitRate with
    ⟨error, hrefused, hinvalid⟩ | ⟨audio, between, video, self, hset, haudioValid, hvideoValid, haudio, hvideo⟩
  · rw [hrefused]
    have hcareful : p.Careful (.bitRates audioBitRate videoBitRate) := fun _ haudio hvideo =>
      (hinvalid.elim haudio hvideo).elim
    exact ⟨iff_of_true h.announces hcareful, fun _ => h⟩
  rw [hset]
  have hotherAudio := hvideo.other (.inr (.inl rfl)) (.inl rfl) (by decide)
  have hotherVideo := haudio.other (.inl rfl) (.inr (.inl rfl)) (by decide)
  let changed : MediaCall := ⟨{ p.call.call with audioBitRate := audio, videoBitRate := video },
    { p.call.msiCall with selfCapabilities := self }, p.call.audioReceiving, p.call.videoReceiving⟩
  change ((⟨changed, p.pausedFrom⟩ : PausableCall).Announces ↔ _) ∧ (_ → Kept ⟨changed, p.pausedFrom⟩)
  cases hpaused : p.pausedFrom with
  | none =>
    obtain ⟨hbeforeAudio, hbeforeVideo⟩ := (announces_none hpaused).mp h.announces
    have hannounced : Announced self changed.call := by
      refine ⟨?_, hvideo.announces (.inr (.inl rfl)) (hotherVideo ▸ hbeforeVideo)⟩
      rw [hotherAudio]
      exact haudio.announces (.inl rfl) hbeforeAudio
    have hcareful : p.Careful (.bitRates audioBitRate videoBitRate) := fun hno => absurd hpaused hno
    exact ⟨iff_of_true hannounced hcareful, fun _ => ⟨h.active, hannounced, nofun⟩⟩
  | some caps =>
    have hempty : p.self = 0 := (announces_some hpaused).mp h.announces
    change MediaCall.HalfSet msiCapSAudio audioBitRate p.call.call.audioBitRate audio p.self between at haudio
    rw [hempty] at haudio
    obtain ⟨hbetween, hnextAudio, hthere⟩ := half_empty (.inl rfl) haudio
    have hcareful : p.Careful (.bitRates audioBitRate videoBitRate) ↔
        SendingStays audioBitRate p.call.call.audioBitRate ∧ SendingStays videoBitRate p.call.call.videoBitRate :=
      ⟨fun hcareful => hcareful (by rw [hpaused]; nofun) haudioValid hvideoValid, fun hstays _ _ _ => hstays⟩
    rw [hcareful]
    by_cases hno : between = 0
    · rw [hno] at hvideo
      obtain ⟨hself, hnextVideo, -⟩ := half_empty (.inr (.inl rfl)) hvideo
      have hstaysAudio := hbetween.mp hno
      refine ⟨hself.trans (and_iff_right hstaysAudio).symm, fun hstays =>
        ⟨h.active, hself.mpr hstays.2, fun caps' hcaps' => ?_⟩⟩
      obtain rfl := Option.some.inj hcaps'
      obtain ⟨hcopy, hcaps, hannounced⟩ := h.paused caps hpaused
      exact ⟨hcopy, hcaps, hannounced.1.trans (hnextAudio hstays.1).symm, hannounced.2.trans (hnextVideo hstays.2).symm⟩
    · have hturns :
        ¬(SendingStays audioBitRate p.call.call.audioBitRate ∧ SendingStays videoBitRate p.call.call.videoBitRate) :=
        fun hstays => hno (hbetween.mpr hstays.1)
      refine ⟨iff_of_false (fun hself => hthere hno ?_) hturns, fun hstays => absurd hstays hturns⟩
      have hnothing : self = 0 := hself
      rw [← hotherAudio, hnothing, UInt8.zero_and]

/-- One event. -/
theorem step_kept (h : p.Kept) (event : CallEvent) :
    (p.Promised event ↔ p.Careful event) ∧ (p.Careful event → (p.step event).2.Kept) := by
  cases event with
  | control control hcontrol =>
    cases control with
    | cancel => exact absurd rfl hcontrol
    | resume => exact resume_kept h
    | pause => exact ⟨iff_of_true ⟨(pause_kept h).announces, trivial, trivial⟩ trivial, fun _ => pause_kept h⟩
    | muteAudio =>
      obtain ⟨hkept, hrefused⟩ := taken_kept h (.inl rfl) (step_muteAudio h.active)
      exact ⟨iff_of_true ⟨hkept.announces, trivial, hrefused⟩ trivial, fun _ => hkept⟩
    | unmuteAudio =>
      obtain ⟨hpromised, hkept⟩ := given_kept h (.inl rfl) (step_unmuteAudio h.active)
      exact ⟨⟨fun hall => hpromised.mp ⟨hall.1, hall.2.2⟩, fun hcareful => have hboth := hpromised.mpr hcareful
        ⟨hboth.1, trivial, hboth.2⟩⟩, fun hcareful => hkept hcareful.1⟩
    | hideVideo =>
      obtain ⟨hkept, hrefused⟩ := taken_kept h (.inr rfl) (step_hideVideo h.active)
      exact ⟨iff_of_true ⟨hkept.announces, trivial, hrefused⟩ trivial, fun _ => hkept⟩
    | showVideo =>
      obtain ⟨hpromised, hkept⟩ := given_kept h (.inr rfl) (step_showVideo h.active)
      exact ⟨⟨fun hall => hpromised.mp ⟨hall.1, hall.2.2⟩, fun hcareful => have hboth := hpromised.mpr hcareful
        ⟨hboth.1, trivial, hboth.2⟩⟩, fun hcareful => hkept hcareful.1⟩
  | bitRates audioBitRate videoBitRate =>
    obtain ⟨hannounces, hkept⟩ := bitRates_kept h audioBitRate videoBitRate
    exact ⟨⟨fun hall => hannounces.mp hall.1, fun hcareful => ⟨hannounces.mpr hcareful, trivial, trivial⟩⟩, hkept⟩
  | push capabilities =>
    have hkept : (p.step (.push capabilities)).2.Kept := by
      rw [step, MediaCall.step, MediaCall.push_active h.active]
      split
      · exact ⟨h.active, h.announces, h.paused⟩
      · exact h
    exact ⟨iff_of_true ⟨hkept.announces, trivial, trivial⟩ trivial, fun _ => hkept⟩

/-! ## Every order of events -/

/-- An active call that is not paused and announces its bit rates keeps every promise in a sequence of events if and
only if every event is careful. -/
theorem promised_iff {c : MediaCall} (h : c.Active) (hannounced : Announced c.msiCall.selfCapabilities c.call)
    (events : List CallEvent) :
    EachMeets step Promised events ⟨c, none⟩ ↔ EachMeets step Careful events ⟨c, none⟩ := by
  have hagree (p : PausableCall) (event : CallEvent) (hkept : p.Kept) : p.Promised event ↔
    p.Careful event := (step_kept hkept event).1
  exact eachMeets_iff hagree (fun _ event hkept => (step_kept hkept event).2) ⟨h, hannounced, nofun⟩

/-- A call with audio, answered, whose user pauses it and then unmutes the audio: the pause is not over, but
capabilities are announced. -/
theorem unmute_while_paused :
    let c : MediaCall :=
      ⟨⟨⟨0, 0⟩, true, some ⟨0, 1⟩, 48, 0, 52⟩, ⟨⟨0, 1⟩, .active, 52, capabilitiesFor 48 0, .none, some ⟨0, 0⟩⟩,
        true, true⟩
    c.Active ∧ Announced c.msiCall.selfCapabilities c.call ∧
      ¬EachMeets step Promised [.control .pause (by decide), .control .unmuteAudio (by decide)] ⟨c, none⟩ := by
  refine ⟨⟨rfl, rfl⟩, ⟨by decide, by decide⟩, fun h => ?_⟩
  have hempty : msiCapRAudio = 0 := h.2.1.1
  exact absurd hempty (by decide)

/-- A call whose user mutes the audio, pauses, resumes and turns audio sending off. -/
theorem promised_muted :
    let c : MediaCall :=
      ⟨⟨⟨0, 0⟩, true, some ⟨0, 1⟩, 48, 0, 52⟩, ⟨⟨0, 1⟩, .active, 52, capabilitiesFor 48 0, .none, some ⟨0, 0⟩⟩,
        true, true⟩
    EachMeets step Promised
      [.control .muteAudio (by decide), .control .pause (by decide), .control .resume (by decide), .bitRates 0 (-1)] ⟨c,
        none⟩ := by
  refine (promised_iff ⟨rfl, rfl⟩ ⟨by decide, by decide⟩ _).mpr ⟨trivial, trivial, fun hno => ?_, fun hno => ?_,
    trivial⟩
  · exact absurd hno nofun
  · exact absurd rfl hno

end PausableCall

end Toxcore
