import Toxcore.Av.CallTables

/-!
# Runs over the two tables of calls

No event but a message can lose a pair of calls. The tables agree in every state of a run exactly when none of its
messages does.
-/

namespace Toxcore

open ByteStrings Function Option

namespace AvSystem

section Events

variable {sys : AvSystem} {friendNumber : UInt32}

section

variable (h : sys.Paired)
include h

/-- The call of the application is written. -/
theorem Paired.writeCall {call call' : ToxAvCall} (hcall : sys.av.calls friendNumber = some call)
    (haddress : call'.address = call.address) (hpointer : call'.msiCall = call.msiCall) :
    { sys with av := sys.av.setCall friendNumber (some call') : AvSystem }.Paired := by
  have hfriend := h friendNumber
  rw [hcall] at hfriend
  generalize hmsiCall : sys.msi friendNumber = msiCall at hfriend
  cases hfriend with
  | calls hmsi hav hplace hmsiPlace hstate =>
    refine h.of_friend friendNumber (fun other hother => ⟨update_of_ne hother .., rfl⟩) ?_
    dsimp only
    rw [ToxAv.setCall_self, hmsiCall]
    exact .calls (hpointer.trans hmsi) (haddress ▸ hav) (haddress ▸ hplace) hmsiPlace hstate

/-- The signalling call is written. -/
theorem Paired.writeMsi {msiCall msiCall' : MsiCall} (hmsiCall : sys.msi friendNumber = some msiCall)
    (haddress : msiCall'.address = msiCall.address) (hpointer : msiCall'.avCall = msiCall.avCall)
    (hstate : msiCall'.state ≠ .inactive) : (sys.setMsi friendNumber (some msiCall')).Paired := by
  have hfriend := h friendNumber
  rw [hmsiCall] at hfriend
  generalize hcall : sys.av.calls friendNumber = call at hfriend
  cases hfriend with
  | calls hmsi hav hplace hmsiPlace _ =>
    refine h.of_friend friendNumber (fun other hother => ⟨rfl, update_of_ne hother ..⟩) ?_
    rw [setMsi]
    dsimp only
    rw [update_self, hcall]
    exact .calls (haddress ▸ hmsi) (hpointer.trans hav) hplace (haddress ▸ hmsiPlace) hstate

/-- A call of the application points to the signalling call of the friend. -/
theorem Paired.deref {call : ToxAvCall} (hcall : sys.av.calls friendNumber = some call) :
    ∃ msiCall, sys.msi friendNumber = some msiCall ∧ call.msiCall = some msiCall.address ∧
      sys.derefMsi msiCall.address = some msiCall ∧ msiCall.address.friendNumber = friendNumber ∧
        msiCall.state ≠ .inactive ∧
      call.address.friendNumber = friendNumber := by
  have hfriend := h friendNumber
  rw [hcall] at hfriend
  generalize hmsiCall : sys.msi friendNumber = msiCall at hfriend
  cases hfriend with
  | calls hmsi _ hplace hmsiPlace hstate =>
    exact ⟨_, rfl, hmsi, derefMsi_address hmsiCall hmsiPlace, hmsiPlace, hstate, hplace⟩

/-- `toxav_call` makes both calls, or none. -/
theorem Paired.toxavCall (env : AvEnv) (friendNumber audioBitRate videoBitRate : UInt32) :
    ∃ result, sys.toxavCall env friendNumber audioBitRate videoBitRate = some result ∧ result.2.Paired := by
  unfold AvSystem.toxavCall
  split
  · exact ⟨_, rfl, h⟩
  · cases hnew : sys.av.callNew env sys.serial friendNumber with
    | error error => exact ⟨_, rfl, h⟩
    | ok made =>
      obtain ⟨hcall, rfl⟩ := ToxAv.callNew_made hnew
      have hmsiCall : sys.msi friendNumber = none := by
        have hfriend := h friendNumber
        rw [hcall] at hfriend
        generalize sys.msi friendNumber = msiCall at hfriend
        cases hfriend
        rfl
      dsimp only
      rw [hmsiCall, msiInvite, map_some]
      refine ⟨_, rfl, ?_⟩
      refine h.of_friend friendNumber (fun other hother => ⟨((sys.av.setCall _ _).setCall_other hother _).trans
        (sys.av.setCall_other hother _), update_of_ne hother ..⟩) ?_
      rw [setMsi]
      dsimp only
      rw [ToxAv.setCall_self, update_self]
      exact .calls rfl rfl rfl rfl nofun

/-- `toxav_answer` keeps the calls paired. -/
theorem Paired.toxavAnswer (env : AvEnv) (friendNumber audioBitRate videoBitRate : UInt32) :
    ∃ result, sys.toxavAnswer env friendNumber audioBitRate videoBitRate = some result ∧ result.2.Paired := by
  unfold AvSystem.toxavAnswer
  split
  · exact ⟨_, rfl, h⟩
  · split
    · exact ⟨_, rfl, h⟩
    · cases hcall : sys.av.calls friendNumber with
      | none => exact ⟨_, rfl, h⟩
      | some call =>
        dsimp only
        cases hprepare : sys.av.callPrepareTransmission env call with
        | none => exact ⟨_, rfl, h⟩
        | some prepared =>
          obtain ⟨haddress, hpointer⟩ := ToxAv.callPrepareTransmission_fields hprepare
          obtain ⟨msiCall, hmsiCall, hmsi, hderef, hplace, -, -⟩ := h.deref hcall
          dsimp only
          rw [hpointer, hmsi]
          dsimp only
          generalize hprepared : ({ prepared with
            audioBitRate := audioBitRate, videoBitRate := videoBitRate,
            previousSelfCapabilities := capabilitiesFor audioBitRate videoBitRate, msiCall := some msiCall.address } :
              ToxAvCall) =
              call'
          have hwritten : { sys with av := sys.av.setCall friendNumber (some call') : AvSystem }.Paired := by
            subst hprepared
            exact h.writeCall hcall haddress hmsi.symm
          change ∃ result, Option.map _ (sys.derefMsi msiCall.address) = some result ∧ _
          rw [hderef, map_some]
          refine ⟨_, rfl, ?_⟩
          unfold msiAnswer
          by_cases hrequested : msiCall.state ≠ .requested
          · rw [if_pos hrequested]
            exact hwritten
          · rw [if_neg hrequested, hplace]
            exact hwritten.writeMsi hmsiCall rfl rfl nofun

/-- A change of capabilities keeps the calls paired. -/
theorem Paired.changeCapabilities {call : ToxAvCall} {msiCall : MsiCall}
    (hcall : sys.av.calls friendNumber = some call) (hmsiCall : sys.msi friendNumber = some msiCall)
    (hplace : msiCall.address.friendNumber = friendNumber) (hstate : msiCall.state ≠ .inactive) (allowed : Bool)
    (capabilities kept : UInt8) :
    (sys.changeCapabilities friendNumber call msiCall allowed capabilities kept).2.Paired := by
  have hwritten : { sys with
      av := sys.av.setCall friendNumber (some { call with previousSelfCapabilities := kept }) : AvSystem }.Paired :=
    h.writeCall hcall rfl rfl
  unfold AvSystem.changeCapabilities
  split
  · exact h
  · unfold msiChangeCapabilities
    by_cases hactive : msiCall.state ≠ .active
    · rw [if_pos hactive]
      exact hwritten
    · rw [if_neg hactive]
      dsimp only
      rw [hplace]
      exact hwritten.writeMsi hmsiCall rfl rfl hstate

/-- `toxav_call_control` keeps the calls paired. -/
theorem Paired.toxavCallControl (env : AvEnv) (friendNumber : UInt32) (control : ToxAvCallControl) :
    ∃ result, sys.toxavCallControl env friendNumber control = some result ∧ result.2.Paired := by
  unfold AvSystem.toxavCallControl
  split
  · exact ⟨_, rfl, h⟩
  · cases hcall : sys.av.calls friendNumber with
    | none => exact ⟨_, rfl, h⟩
    | some call =>
      dsimp only
      split
      · exact ⟨_, rfl, h⟩
      · obtain ⟨msiCall, hmsiCall, hmsi, hderef, hplace, hstate, hcallPlace⟩ := h.deref hcall
        rw [hmsi]
        have hchange := h.changeCapabilities hcall hmsiCall hplace hstate
        cases control with
        | cancel =>
          dsimp only
          rw [hderef, map_some, msiHangup, if_neg hstate]
          refine ⟨_, rfl, ?_⟩
          refine h.of_friend friendNumber (fun other hother => ⟨?_, ?_⟩) ?_
          · dsimp only
            rw [hcallPlace]
            exact sys.av.setCall_other hother none
          · dsimp only
            rw [setMsi, hplace]
            exact update_of_ne hother ..
          · dsimp only
            rw [setMsi, hplace, hcallPlace, ToxAv.setCall_self]
            dsimp only
            rw [update_self]
            exact .none
        | resume | pause | muteAudio | unmuteAudio | hideVideo | showVideo =>
          dsimp only
          rw [hderef, map_some]
          exact ⟨_, rfl, hchange _ _ _⟩

end

end Events

/-! ## Runs -/

/-- The message of an event, if there is one, does not lose a pair of calls. -/
def KeepsPairs (sys : AvSystem) : AvEvent → Prop
  | .packet env friendNumber data =>
    ∀ msg, MsiMessage.parseIn data = some msg → ¬LosesPair sys.av.ccb env (sys.msi friendNumber) msg
  | _ => True

/-- No event of a run loses a pair of calls. -/
def RunKeepsPairs : AvSystem → List AvEvent → Prop
  | _, [] => True
  | sys, event :: events => sys.KeepsPairs event ∧ ∀ next, sys.step event = some next → RunKeepsPairs next events

/-- The program does not stop in a run, and the tables agree in each of its states. -/
def RunAgrees : AvSystem → List AvEvent → Prop
  | sys, [] => sys.TablesAgree
  | sys, event :: events => sys.TablesAgree ∧ ∃ next, sys.step event = some next ∧ RunAgrees next events

variable {sys : AvSystem}

/-- One event: the calls stay paired, or its message loses a pair and the tables do not agree. -/
theorem Paired.step (h : sys.Paired) (event : AvEvent) :
    ∃ next, sys.step event = some next ∧ (sys.KeepsPairs event → next.Paired) ∧
      (¬sys.KeepsPairs event → ¬next.TablesAgree) := by
  have hkept {next : AvSystem} (hnext : sys.step event = some next) (hpaired : next.Paired)
    (htrivial : sys.KeepsPairs event) :
      ∃ next, sys.step event = some next ∧ (sys.KeepsPairs event → next.Paired) ∧
        (¬sys.KeepsPairs event → ¬next.TablesAgree) :=
    ⟨next, hnext, fun _ => hpaired, fun hnot => absurd htrivial hnot⟩
  cases event with
  | register ccb scb acb vcb => exact hkept rfl h trivial
  | call env friendNumber audioBitRate videoBitRate =>
    obtain ⟨result, hresult, hpaired⟩ := h.toxavCall env friendNumber audioBitRate videoBitRate
    exact hkept (by rw [AvSystem.step, hresult, map_some]) hpaired trivial
  | answer env friendNumber audioBitRate videoBitRate =>
    obtain ⟨result, hresult, hpaired⟩ := h.toxavAnswer env friendNumber audioBitRate videoBitRate
    exact hkept (by rw [AvSystem.step, hresult, map_some]) hpaired trivial
  | control env friendNumber control =>
    obtain ⟨result, hresult, hpaired⟩ := h.toxavCallControl env friendNumber control
    exact hkept (by rw [AvSystem.step, hresult, map_some]) hpaired trivial
  | packet env friendNumber data =>
    obtain ⟨outcome, houtcome, hsettles, hbehind⟩ := handleMsiPacket_settles env sys.serial
      (show (⟨friendNumber, sys.serial + 1⟩ : CallPointer).friendNumber = friendNumber from rfl) (h friendNumber) data
    refine ⟨sys.handled friendNumber outcome, ?_, fun hkeeps => h.handled (hsettles hkeeps),
      fun hloses => not_tablesAgree_handled (hbehind hloses)⟩
    rw [AvSystem.step, handlePacket, houtcome, map_some]
  | offline env friendNumber =>
    obtain ⟨outcome, houtcome, hsettles⟩ := onPeerOffline_settles env sys.serial (h friendNumber)
    exact hkept (by rw [AvSystem.step, peerOffline, houtcome, map_some]) (h.handled hsettles) trivial

/-- From paired calls the tables agree in every state of a run exactly when no message of the run loses a pair. -/
theorem Paired.runAgrees_iff (h : sys.Paired) (events : List AvEvent) : sys.RunAgrees events ↔
    sys.RunKeepsPairs events := by
  induction events generalizing sys with
  | nil => exact ⟨fun _ => trivial, fun _ => h.tablesAgree⟩
  | cons event events ih =>
    obtain ⟨next, hnext, hpaired, hlost⟩ := h.step event
    constructor
    · rintro ⟨-, next', hnext', hruns⟩
      obtain rfl := some_inj.mp (hnext.symm.trans hnext')
      have hagree : next.TablesAgree := by
        cases events with
        | nil => exact hruns
        | cons => exact hruns.1
      have hkeeps : sys.KeepsPairs event := by
        by_contra hnot
        exact hlost hnot hagree
      refine ⟨hkeeps, fun next' hnext' => ?_⟩
      obtain rfl := some_inj.mp (hnext.symm.trans hnext')
      exact (ih (hpaired hkeeps)).mp hruns
    · rintro ⟨hkeeps, hruns⟩
      exact ⟨h.tablesAgree, next, hnext, (ih (hpaired hkeeps)).mpr (hruns next hnext)⟩

/-- In a run of a new `ToxAV` the tables agree in every state exactly when no message of the run loses a pair of
calls. -/
theorem new_runAgrees_iff (events : List AvEvent) : new.RunAgrees events ↔ new.RunKeepsPairs events :=
  Paired.runAgrees_iff (fun _ => .none) events

/-- A friend answers a call with a message without capabilities: the signalling call is freed, and the call of the
application still points to it. -/
theorem push_without_capabilities_disagrees :
    ¬∀ events : List AvEvent, new.RunAgrees events := by
  intro hall
  have hpaired : new.Paired := fun _ => .none
  have hkeeps := (hpaired.runAgrees_iff _).mp
    (hall [.call ⟨true, true, true⟩ 7 48 0, .packet ⟨true, true, true⟩ 7 [1, 1, 1, 0]])
  exact (hkeeps.2 _ rfl).1 ⟨some .push, none, none⟩ (by decide) (.inr ⟨rfl, rfl⟩)

end AvSystem

end Toxcore
