import Toxcore.Av.CallControls

/-!
# Muting

A user who has muted or paused a call does not want to hear or see the peer. The controls switch the receive handlers
by the mask of the user, and `callback_capabilites` switches them by the mask of the peer alone.
-/

namespace Toxcore

open CallResults

namespace MediaCall

variable {c : MediaCall}

/-- No receive handler is registered without the capability to receive. -/
def Muted (c : MediaCall) : Prop :=
  (c.msiCall.selfCapabilities &&& msiCapRAudio = 0 → c.audioReceiving = false) ∧
    (c.msiCall.selfCapabilities &&& msiCapRVideo = 0 → c.videoReceiving = false)

/-- An event that registers no handler behind the back of the user: the peer does not push that it sends what the user
has muted, and a call is not resumed in which something was muted before the pause. -/
def KeepsMuted (c : MediaCall) : CallEvent → Prop
  | .push capabilities =>
    c.msiCall.peerCapabilities ≠ capabilities →
      (c.msiCall.selfCapabilities &&& msiCapRAudio = 0 → capabilities &&& msiCapSAudio = 0) ∧
        (c.msiCall.selfCapabilities &&& msiCapRVideo = 0 → capabilities &&& msiCapSVideo = 0)
  | .control .resume _ =>
    c.msiCall.selfCapabilities = 0 → c.call.previousSelfCapabilities ≠ 0 →
      c.call.previousSelfCapabilities &&& msiCapRAudio ≠ 0 ∧ c.call.previousSelfCapabilities &&& msiCapRVideo ≠ 0
  | _ => True

/-! ## One event -/

/-- A control on an active call that nothing is received on behind the back of the user: the same holds after it,
unless it resumes a call in which something was muted. -/
theorem control_muted (h : c.Active) (hmuted : c.Muted) (control : ToxAvCallControl) (hcontrol : control ≠ .cancel) :
    (c.toxavCallControl control hcontrol).2.Muted ↔ KeepsMuted c (.control control hcontrol) := by
  have hmask {capability other : UInt8} := @mask_other capability other
  cases control with
  | cancel => exact absurd rfl hcontrol
  | resume =>
    rw [resume_active h]
    split
    · rename_i hpaused
      have hlacks (caps : UInt8) : (caps = 0 → true = false) ↔ caps ≠ 0 := by simp
      refine (and_congr (hlacks _) (hlacks _)).trans ⟨fun hboth _ _ => hboth, fun hkeeps => hkeeps hpaused.1 hpaused.2⟩
    · rename_i hpaused
      exact iff_of_true hmuted fun hself hprevious => absurd ⟨hself, hprevious⟩ hpaused
  | pause =>
    rw [pause_active h]
    split
    · exact iff_of_true ⟨fun _ => rfl, fun _ => rfl⟩ trivial
    · exact iff_of_true hmuted trivial
  | muteAudio =>
    rw [muteAudio_active h]
    split
    · refine iff_of_true ⟨fun _ => rfl, fun hvideo => hmuted.2 ?_⟩ trivial
      exact (hmask (.inr (.inr (.inl rfl))) (.inr (.inr (.inr rfl))) (by decide) _).1.symm.trans hvideo
    · exact iff_of_true hmuted trivial
  | unmuteAudio =>
    rw [unmuteAudio_active h]
    split
    · refine iff_of_true ⟨fun haudio => absurd haudio (mask_self (.inr (.inr (.inl rfl))) _).2, fun hvideo =>
        hmuted.2 ?_⟩ trivial
      exact (hmask (.inr (.inr (.inl rfl))) (.inr (.inr (.inr rfl))) (by decide) _).2.symm.trans hvideo
    · exact iff_of_true hmuted trivial
  | hideVideo =>
    rw [hideVideo_active h]
    split
    · refine iff_of_true ⟨fun haudio => hmuted.1 ?_, fun _ => rfl⟩ trivial
      exact (hmask (.inr (.inr (.inr rfl))) (.inr (.inr (.inl rfl))) (by decide) _).1.symm.trans haudio
    · exact iff_of_true hmuted trivial
  | showVideo =>
    rw [showVideo_active h]
    split
    · refine iff_of_true ⟨fun haudio => hmuted.1 ?_, fun hvideo =>
        absurd hvideo (mask_self (.inr (.inr (.inr rfl))) _).2⟩ trivial
      exact (hmask (.inr (.inr (.inr rfl))) (.inr (.inr (.inl rfl))) (by decide) _).2.symm.trans haudio
    · exact iff_of_true hmuted trivial

/-- One event. -/
theorem step_muted (h : c.Active) (hmuted : c.Muted) (event : CallEvent) : (c.step event).2.Muted ↔
    KeepsMuted c event := by
  cases event with
  | control control hcontrol => exact control_muted h hmuted control hcontrol
  | bitRates audioBitRate videoBitRate =>
    refine iff_of_true ?_ trivial
    change (c.toxavBitRateSet audioBitRate videoBitRate).2.Muted
    rcases toxavBitRateSet_active h audioBitRate videoBitRate with
      ⟨error, hrefused, -⟩ | ⟨audio, between, video, self, hset, -, -, haudio, hvideo⟩
    · rw [hrefused]
      exact hmuted
    · rw [hset]
      have hreceives {other : UInt8} (hother : other = msiCapRAudio ∨ other = msiCapRVideo) :
          self &&& other = c.msiCall.selfCapabilities &&& other := by
        have hknown : IsCapability other := .inr (.inr hother)
        refine (hvideo.other (.inr (.inl rfl)) hknown ?_).trans (haudio.other (.inl rfl) hknown ?_)
        all_goals rcases hother with rfl | rfl <;> decide
      exact ⟨fun hno => hmuted.1 ((hreceives (.inl rfl)).symm.trans hno), fun hno =>
        hmuted.2 ((hreceives (.inr rfl)).symm.trans hno)⟩
  | push capabilities =>
    change (c.push capabilities).Muted ↔ _
    rw [push_active h]
    by_cases hchanges : c.msiCall.peerCapabilities ≠ capabilities
    · rw [if_pos hchanges]
      have hreceives (self sends : UInt8) : (self = 0 → decide (sends ≠ 0) = false) ↔ (self = 0 → sends = 0) := by
        rw [decide_eq_false_iff_not, not_not]
      exact (and_congr (hreceives _ _) (hreceives _ _)).trans ⟨fun hboth _ => hboth, fun hkeeps => hkeeps hchanges⟩
    · rw [if_neg hchanges]
      exact iff_of_true hmuted fun hno => absurd hno hchanges

/-! ## Every order of events -/

/-- A call that can receive audio and video, as it can when `toxav_call` or `toxav_answer` have started it. -/
theorem muted_started {audioBitRate videoBitRate : UInt32}
    (h : c.msiCall.selfCapabilities = capabilitiesFor audioBitRate videoBitRate) :
    c.Muted := by
  obtain ⟨-, -, haudio, hvideo⟩ := mask_capabilitiesFor audioBitRate videoBitRate
  exact ⟨fun hno => absurd (h ▸ hno) haudio, fun hno => absurd (h ▸ hno) hvideo⟩

/-- In a call with nothing muted that is received, muting holds after every event if and only if no event registers a
handler behind the back of the user. -/
theorem muting_holds_iff (h : c.Active) (hmuted : c.Muted) (events : List CallEvent) :
    EachMeets step (fun c event => (c.step event).2.Muted) events c ↔ EachMeets step KeepsMuted events c := by
  have hagree (c : MediaCall) (event : CallEvent) (hinv : c.Active ∧ c.Muted) : (c.step event).2.Muted ↔
    KeepsMuted c event :=
    step_muted hinv.1 hinv.2 event
  refine eachMeets_iff hagree (fun c event hinv hkeeps => ?_) ⟨h, hmuted⟩
  exact ⟨step_active hinv.1 event, (hagree c event hinv).mpr hkeeps⟩

/-- A call with audio, answered, whose user mutes it, and whose peer then pushes that it only sends audio. -/
theorem push_unmutes :
    let c : MediaCall :=
      ⟨⟨⟨0, 0⟩, true, some ⟨0, 1⟩, 48, 0, 52⟩, ⟨⟨0, 1⟩, .active, 52, capabilitiesFor 48 0, .none, some ⟨0, 0⟩⟩,
        true, true⟩
    c.Active ∧ c.Muted ∧ (c.step (.control .muteAudio (by decide))).1 = some (.inl .ok) ∧
      ¬ EachMeets step (fun c event => (c.step event).2.Muted) [.control .muteAudio (by decide),
        .push msiCapSAudio] c := by
  refine ⟨⟨rfl, rfl⟩, muted_started rfl, by decide, fun h => ?_⟩
  have hreceiving := h.2.1.1 (by decide)
  exact absurd hreceiving (by decide)

/-- A call that is paused and resumed, and in which the peer pushes what it already pushed: muting holds. -/
theorem muting_holds_paused :
    let c : MediaCall :=
      ⟨⟨⟨0, 0⟩, true, some ⟨0, 1⟩, 48, 0, 52⟩, ⟨⟨0, 1⟩, .active, 52, capabilitiesFor 48 0, .none, some ⟨0, 0⟩⟩,
        true, true⟩
    EachMeets step (fun c event => (c.step event).2.Muted)
      [.control .pause (by decide), .push 52, .control .resume (by decide), .control .muteAudio (by decide)] c := by
  refine (muting_holds_iff ⟨rfl, rfl⟩ (muted_started rfl) _).mpr ⟨trivial, ?_, ?_, trivial, trivial⟩
  · exact fun hno => absurd rfl hno
  · exact fun _ _ => ⟨by decide, by decide⟩

end MediaCall

end Toxcore
