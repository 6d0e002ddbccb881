import Toxcore.Av.ToxAv

/-!
# The two tables of calls

A call of the application and a signalling call of one friend are made together and point to each other. Where the
signalling ends a call by itself after a message, it tells the application only if the message was a `pop` or a
callback had failed; the other ways to end a call leave the call of the application behind.
-/

namespace Toxcore

open ByteStrings Function Option

/-! ## One friend -/

section Friend

variable {friendNumber : UInt32}

/-- Both calls of a friend: none, or two that point to each other and are where they belong. -/
inductive CallsPaired (friendNumber : UInt32) : Option ToxAvCall → Option MsiCall → Prop where
  | none : CallsPaired friendNumber none none
  | calls {call : ToxAvCall} {msiCall : MsiCall} (hmsi : call.msiCall = some msiCall.address)
      (hav : msiCall.avCall = some call.address) (hplace : call.address.friendNumber = friendNumber)
      (hmsiPlace : msiCall.address.friendNumber = friendNumber) (hstate : msiCall.state ≠ .inactive) :
      CallsPaired friendNumber (some call) (some msiCall)

namespace ToxAv

variable {av : ToxAv}

@[simp] theorem setCall_self (av : ToxAv) (friendNumber : UInt32) (call : Option ToxAvCall) :
    (av.setCall friendNumber call).calls friendNumber = call := update_self ..

/-- The other calls stay. -/
theorem setCall_other (av : ToxAv) {other : UInt32} (hother : other ≠ friendNumber) (call : Option ToxAvCall) :
    (av.setCall friendNumber call).calls other = av.calls other := update_of_ne hother ..

/-- A call is found at its own address. -/
theorem deref_address {call : ToxAvCall} (hcall : av.calls friendNumber = some call)
    (hplace : call.address.friendNumber = friendNumber) : av.deref call.address = some call := by
  rw [deref, hplace, hcall, filter_some, if_pos (decide_eq_true rfl)]

/-- The end of a call of the signalling ends the call of the application. -/
theorem callbackEnd_paired {call : ToxAvCall} {msiCall : MsiCall} (hcall : av.calls friendNumber = some call)
    (hplace : call.address.friendNumber = friendNumber) (hmsi : call.msiCall = some msiCall.address)
    (hav : msiCall.avCall = some call.address) :
      av.callbackEnd msiCall = some (true, av.setCall friendNumber none, none) := by
  rw [callbackEnd, hav]
  dsimp only
  rw [deref_address hcall hplace, bind_some, callRemove, hmsi]
  dsimp only
  rw [if_pos rfl, hplace, map_some]

/-- A call is made for a friend who is there and has none. -/
theorem callNew_ok {env : AvEnv} (serial : ℕ) (hcall : av.calls friendNumber = none) (hexists : env.friendExists = true)
    (hconnected : env.friendConnected = true) : av.callNew env serial friendNumber =
      .ok (.new ⟨friendNumber, serial⟩, av.setCall friendNumber (some (.new ⟨friendNumber, serial⟩))) := by
  rw [callNew, hexists, hconnected, hcall, if_neg nofun, if_neg nofun, isSome_none, if_neg nofun]

/-- Where a call is made, there was none. -/
theorem callNew_made {env : AvEnv} {serial : ℕ} {made : ToxAvCall × ToxAv}
    (h : av.callNew env serial friendNumber = .ok made) : av.calls friendNumber = none ∧
      made = (.new ⟨friendNumber, serial⟩, av.setCall friendNumber (some (.new ⟨friendNumber, serial⟩))) := by
  unfold callNew at h
  split at h
  · contradiction
  · split at h
    · contradiction
    · split at h
      · contradiction
      · rename_i hnone
        exact ⟨not_isSome_iff_eq_none.mp hnone, (Except.ok.inj h).symm⟩

/-- No call is made for a friend who is not there. -/
theorem callNew_absent {env : AvEnv} (av : ToxAv) (serial : ℕ) (friendNumber : UInt32)
    (habsent : ¬(env.friendExists = true ∧ env.friendConnected = true)) :
    ∃ error, av.callNew env serial friendNumber = .error error := by
  unfold callNew
  split
  · exact ⟨_, rfl⟩
  · rename_i hexists
    split
    · exact ⟨_, rfl⟩
    · rename_i hconnected
      exact absurd ⟨Bool.eq_true_of_not_eq_false hexists, Bool.eq_true_of_not_eq_false hconnected⟩ habsent

/-- What is prepared is the same call. -/
theorem callPrepareTransmission_fields {env : AvEnv} {call prepared : ToxAvCall}
    (h : av.callPrepareTransmission env call = some prepared) :
    prepared.address = call.address ∧ prepared.msiCall = call.msiCall := by
  unfold callPrepareTransmission at h
  split at h
  · contradiction
  · split at h
    · obtain rfl := some_inj.mp h
      exact ⟨rfl, rfl⟩
    · split at h
      · obtain rfl := some_inj.mp h
        exact ⟨rfl, rfl⟩
      · contradiction

end ToxAv

/-- What the signalling makes of the calls of a friend: other friends are left alone and both calls stay paired. -/
def Settles (friendNumber : UInt32) (av : ToxAv) (outcome : MsiOutcome ToxAv) : Prop :=
  (∀ other ≠ friendNumber, outcome.app.calls other = av.calls other) ∧
    CallsPaired friendNumber (outcome.app.calls friendNumber) outcome.call

/-- The call of the application is left behind. -/
def LeavesBehind (friendNumber : UInt32) (outcome : MsiOutcome ToxAv) : Prop :=
  outcome.call = none ∧ outcome.app.calls friendNumber ≠ none

variable (env : AvEnv) (serial : ℕ) {av : ToxAv} {call : ToxAvCall}

/-- An end of both calls. -/
theorem settles_ended (av : ToxAv) (sent : List Bytes) :
    Settles friendNumber av ⟨none, sent, av.setCall friendNumber none⟩ :=
  ⟨fun _ hother => av.setCall_other hother none, by
    rw [ToxAv.setCall_self]
    exact .none⟩

/-- A callback for an end. -/
theorem invokeCallback_end (msiCall : MsiCall) {cb : MsiCallbackId} (hcb : cb = .onEnd ∨ cb = .onError ∨
    cb = .onPeerTimeout)
    (hcall : av.calls friendNumber = some call) (hplace : call.address.friendNumber = friendNumber)
    (hmsi : call.msiCall = some msiCall.address) (hav : msiCall.avCall = some call.address) :
    invokeCallback (ToxAv.msiCallbacks env serial) av msiCall cb =
      some (true, av.setCall friendNumber none, { msiCall with avCall := none }) := by
  have hend := ToxAv.callbackEnd_paired hcall hplace hmsi hav
  rcases hcb with rfl | rfl | rfl <;>
  · rw [invokeCallback, ToxAv.msiCallbacks]
    dsimp only
    rw [hend]
    rfl

/-- A call is started, or both calls end. -/
theorem callOrFail_start (msiCall : MsiCall) (hcall : av.calls friendNumber = some call)
    (hplace : call.address.friendNumber = friendNumber)
    (hmsi : call.msiCall = some msiCall.address) (hav : msiCall.avCall = some call.address)
    (hmsiPlace : msiCall.address.friendNumber = friendNumber) (hstate : msiCall.state ≠ .inactive) :
    ∃ outcome, callOrFail (ToxAv.msiCallbacks env serial) av msiCall .onStart = some outcome ∧
      Settles friendNumber av outcome := by
  have hend := ToxAv.callbackEnd_paired hcall hplace hmsi hav
  rw [callOrFail, invokeCallback, ToxAv.msiCallbacks]
  dsimp only
  rw [ToxAv.callbackStart, hmsiPlace, hcall]
  dsimp only
  cases hprepare : av.callPrepareTransmission env call with
  | none =>
    dsimp only
    rw [hend]
    exact ⟨_, rfl, settles_ended av _⟩
  | some prepared =>
    obtain ⟨haddress, hpointer⟩ := ToxAv.callPrepareTransmission_fields hprepare
    have hends := ToxAv.callbackEnd_paired (ToxAv.setCall_self av friendNumber (some prepared)) (haddress ▸ hplace)
      (hpointer.trans hmsi) (haddress ▸ hav)
    dsimp only
    cases av.setCall friendNumber (some prepared) |>.scb with
    | false =>
      rw [if_neg Bool.false_ne_true, hends]
      refine ⟨_, rfl, fun other hother => ?_, ?_⟩
      · exact ((av.setCall _ _).setCall_other hother none).trans (av.setCall_other hother _)
      · exact (ToxAv.setCall_self (av.setCall friendNumber (some prepared)) friendNumber none).symm ▸ .none
    | true =>
      rw [if_pos rfl]
      refine ⟨_, rfl, fun other hother => av.setCall_other hother _, ?_⟩
      refine (ToxAv.setCall_self av friendNumber (some prepared)).symm ▸ ?_
      exact .calls (hpointer.trans hmsi) (haddress ▸ hav) (haddress ▸ hplace) hmsiPlace hstate

variable {msiCall : MsiCall}

section

variable (h : CallsPaired friendNumber (av.calls friendNumber) (some msiCall))
include h

/-- A message with an error, or a hang-up, ends both calls. -/
theorem handlePop_settles (msg : MsiMessage) :
    ∃ outcome, handlePop (ToxAv.msiCallbacks env serial) av msiCall msg = some outcome ∧
      Settles friendNumber av outcome := by
  generalize hcall : av.calls friendNumber = paired at h
  cases h with
  | calls hmsi hav hplace hmsiPlace hstate =>
    unfold handlePop
    split
    · rename_i error _
      rw [invokeCallback_end env serial { msiCall with error := error } (.inr (.inl rfl)) hcall hplace hmsi hav]
      exact ⟨_, rfl, settles_ended av _⟩
    · split
      · rename_i hinactive
        exact absurd hinactive hstate
      · rw [invokeCallback_end env serial msiCall (.inl rfl) hcall hplace hmsi hav]
        exact ⟨_, rfl, settles_ended av _⟩

/-- A message that carries capabilities is handled without loss of either call, and one without leaves the call of the
application behind. -/
theorem handlePush_settles (msg : MsiMessage) :
    ∃ outcome, handlePush (ToxAv.msiCallbacks env serial) av msiCall msg = some outcome ∧
      (msg.capabilities ≠ none → Settles friendNumber av outcome) ∧
      (msg.capabilities = none → LeavesBehind friendNumber outcome) := by
  generalize hcall : av.calls friendNumber = paired at h
  cases h with
  | @calls call _ hmsi hav hplace hmsiPlace hstate =>
    have hsame : CallsPaired friendNumber (av.calls friendNumber) (some msiCall) := by
      rw [hcall]
      exact .calls hmsi hav hplace hmsiPlace hstate
    unfold handlePush
    split
    · rename_i hnone
      exact ⟨_, rfl, fun hsome => absurd hnone hsome, fun _ => ⟨rfl, by simp [failCall, hcall]⟩⟩
    · rename_i capabilities hsome
      have hnot : ¬msg.capabilities = none := by
        rw [hsome]
        simp
      split
      · rename_i hactive
        split
        · rw [callOrFail, invokeCallback, ToxAv.msiCallbacks]
          dsimp only
          rw [ToxAv.callbackCapabilities, hav, bind_some, ToxAv.deref_address hcall hplace, map_some]
          refine ⟨_, rfl, fun _ => ⟨fun _ _ => rfl, ?_⟩, fun hnone => absurd hnone hnot⟩
          have hpaired : CallsPaired friendNumber (av.calls friendNumber)
              (some { msiCall with peerCapabilities := capabilities, avCall := some call.address }) := by
            rw [hcall]
            exact .calls hmsi rfl hplace hmsiPlace hstate
          exact hpaired
        · exact ⟨_, rfl, fun _ => ⟨fun _ _ => rfl, hsame⟩, fun hnone => absurd hnone hnot⟩
      · obtain ⟨outcome, houtcome, hsettles⟩ := callOrFail_start env serial
          { msiCall with peerCapabilities := capabilities, state := .active } hcall hplace hmsi hav hmsiPlace (by simp)
        exact ⟨outcome, houtcome, fun _ => hsettles, fun hnone => absurd hnone hnot⟩
      · exact ⟨_, rfl, fun _ => ⟨fun _ _ => rfl, hsame⟩, fun hnone => absurd hnone hnot⟩

/-- An invitation during a call is handled where the call is active. -/
theorem handleInit_settles (msg : MsiMessage) :
    ∃ outcome, handleInit (ToxAv.msiCallbacks env serial) av msiCall msg = some outcome ∧
      (msg.capabilities ≠ none ∧ msiCall.state = .active → Settles friendNumber av outcome) ∧
      (¬(msg.capabilities ≠ none ∧ msiCall.state = .active) → LeavesBehind friendNumber outcome) := by
  have hcalls : av.calls friendNumber ≠ none ∧ msiCall.state ≠ .inactive := by
    generalize av.calls friendNumber = paired at h
    cases h with
    | calls _ _ _ _ hstate => exact ⟨some_ne_none _, hstate⟩
  have hbehind (call : MsiCall) : LeavesBehind friendNumber (failCall av call) := ⟨rfl, hcalls.1⟩
  unfold handleInit
  split
  · rename_i hnone
    exact ⟨_, rfl, fun hsome => absurd hnone hsome.1, fun _ => hbehind _⟩
  · rename_i capabilities hsome
    have hsome' : msg.capabilities ≠ none := by
      rw [hsome]
      simp
    split
    · rename_i hinactive
      exact absurd hinactive hcalls.2
    · rename_i hactive
      exact ⟨_, rfl, fun _ => ⟨fun _ _ => rfl, h⟩, fun hnot => absurd ⟨hsome', hactive⟩ hnot⟩
    · rename_i hother
      exact ⟨_, rfl, fun hactive => absurd hactive.2 hother, fun _ => hbehind _⟩

end

/-- The first invitation makes both calls, unless the application takes none. -/
theorem handleInit_first {address : CallPointer} (hplace : address.friendNumber = friendNumber)
    (hcall : av.calls friendNumber = none) (msg : MsiMessage) :
    ∃ outcome, handleInit (ToxAv.msiCallbacks env serial) av (.new address) msg = some outcome ∧
      (¬(msg.capabilities ≠ none ∧ av.ccb = false ∧ env.friendExists = true ∧ env.friendConnected = true) →
        Settles friendNumber av outcome) ∧
      (msg.capabilities ≠ none ∧ av.ccb = false ∧ env.friendExists = true ∧ env.friendConnected = true →
        LeavesBehind friendNumber outcome) := by
  have hnew (call : MsiCall) : Settles friendNumber av (failCall av call) := by
    refine ⟨fun _ _ => rfl, ?_⟩
    rw [failCall]
    dsimp only
    rw [hcall]
    exact .none
  cases hcapabilities : msg.capabilities with
  | none =>
    refine ⟨_, by rw [handleInit, hcapabilities], fun _ => hnew _, fun hsome => absurd rfl hsome.1⟩
  | some capabilities =>
    rw [handleInit, hcapabilities, MsiCall.new]
    dsimp only
    rw [callOrFail, invokeCallback, ToxAv.msiCallbacks]
    dsimp only
    rw [ToxAv.callbackInvite, hplace]
    by_cases hthere : env.friendExists = true ∧ env.friendConnected = true
    · rw [ToxAv.callNew_ok serial hcall hthere.1 hthere.2]
      dsimp only
      cases hregistered : av.ccb with
      | false =>
        have hdropped : (((av.setCall friendNumber (some (.new ⟨friendNumber, serial⟩))).setCall friendNumber
            (some { ToxAvCall.new ⟨friendNumber, serial⟩ with msiCall := some address })).ccb) = false := hregistered
        rw [hdropped, map_some, if_neg nofun]
        refine ⟨_, rfl, fun hnot => absurd ⟨nofun, rfl, hthere⟩ hnot, fun _ => ⟨rfl, ?_⟩⟩
        exact ((ToxAv.setCall_self _ friendNumber _).trans_ne nofun)
      | true =>
        have htaken : (((av.setCall friendNumber (some (.new ⟨friendNumber, serial⟩))).setCall friendNumber
            (some { ToxAvCall.new ⟨friendNumber, serial⟩ with msiCall := some address })).ccb) = true := hregistered
        rw [htaken, map_some, if_pos rfl]
        refine ⟨_, rfl, fun _ => ⟨fun other hother => ?_, ?_⟩, fun hdropped => absurd hdropped.2.1 nofun⟩
        · exact ((av.setCall _ _).setCall_other hother _).trans (av.setCall_other hother _)
        · refine (ToxAv.setCall_self (av.setCall friendNumber (some (.new ⟨friendNumber, serial⟩))) friendNumber
            _).symm ▸ ?_
          exact .calls rfl rfl rfl hplace nofun
    · obtain ⟨error, herror⟩ := av.callNew_absent serial friendNumber hthere
      rw [herror]
      exact ⟨_, rfl, fun _ => hnew _, fun hdropped => absurd hdropped.2.2 hthere⟩

/-- A message after which the signalling ends its call and leaves the call of the application behind: without
capabilities, an invitation or a push during a call; an invitation during a call that is not active; and the first
invitation where no callback for calls is registered. -/
def LosesPair (ccb : Bool) (env : AvEnv) (msiCall : Option MsiCall) (msg : MsiMessage) : Prop :=
  match msiCall with
  | some call => msg.request = some .init ∧ ¬(msg.capabilities ≠ none ∧ call.state = .active) ∨
      msg.request = some .push ∧ msg.capabilities = none
  | none => msg.request = some .init ∧ msg.capabilities ≠ none ∧ ccb = false ∧ env.friendExists = true ∧
      env.friendConnected = true

/-- `handle_msi_packet` keeps both calls paired, except for the messages after which it does not. -/
theorem handleMsiPacket_settles {msiCall : Option MsiCall} {address : CallPointer}
    (hplace : address.friendNumber = friendNumber)
    (h : CallsPaired friendNumber (av.calls friendNumber) msiCall) (data : Bytes) :
    ∃ outcome, handleMsiPacket (ToxAv.msiCallbacks env serial) (some address) av msiCall data = some outcome ∧
      ((∀ msg, MsiMessage.parseIn data = some msg → ¬LosesPair av.ccb env msiCall msg) →
        Settles friendNumber av outcome) ∧
      (¬(∀ msg, MsiMessage.parseIn data = some msg → ¬LosesPair av.ccb env msiCall msg) →
        LeavesBehind friendNumber outcome) := by
  unfold handleMsiPacket
  cases hparse : MsiMessage.parseIn data with
  | none => exact ⟨_, rfl, fun _ => ⟨fun _ _ => rfl, h⟩, fun hloses => absurd nofun hloses⟩
  | some msg =>
    have hloses : (∀ msg', some msg = some msg' → ¬LosesPair av.ccb env msiCall msg') ↔
      ¬LosesPair av.ccb env msiCall msg :=
      ⟨fun hall => hall msg rfl, fun hmsg msg' heq => some_inj.mp heq ▸ hmsg⟩
    rw [hloses, not_not]
    dsimp only
    cases msiCall with
    | none =>
      have hcall : av.calls friendNumber = none := by
        generalize av.calls friendNumber = paired at h
        cases h
        rfl
      dsimp only
      split
      · rename_i hrequest
        exact ⟨_, rfl, fun _ => ⟨fun _ _ => rfl, h⟩, fun hlost => absurd hlost.1 hrequest⟩
      · rename_i hrequest
        obtain ⟨outcome, houtcome, hsettles, hbehind⟩ := handleInit_first env serial hplace hcall msg
        exact ⟨outcome, houtcome, fun hkept => hsettles fun hlost => hkept ⟨not_not.mp hrequest, hlost⟩,
          fun hlost => hbehind hlost.2⟩
    | some call =>
      dsimp only
      split
      · rename_i hrequest
        obtain ⟨outcome, houtcome, hsettles, hbehind⟩ := handleInit_settles env serial h msg
        refine ⟨outcome, houtcome, fun hkept => hsettles ?_, fun hlost => hbehind ?_⟩
        · by_contra hnot
          exact hkept (.inl ⟨hrequest, hnot⟩)
        · rcases hlost with ⟨-, hnot⟩ | ⟨hpush, -⟩
          · exact hnot
          · rw [hrequest] at hpush
            exact absurd hpush nofun
      · rename_i hrequest
        obtain ⟨outcome, houtcome, hsettles, hbehind⟩ := handlePush_settles env serial h msg
        refine ⟨outcome, houtcome, fun hkept => hsettles fun hnone => hkept (.inr ⟨hrequest, hnone⟩), fun hlost =>
          hbehind ?_⟩
        rcases hlost with ⟨hinit, -⟩ | ⟨-, hnone⟩
        · rw [hrequest] at hinit
          exact absurd hinit nofun
        · exact hnone
      · rename_i hrequest
        obtain ⟨outcome, houtcome, hsettles⟩ := handlePop_settles env serial h msg
        refine ⟨outcome, houtcome, fun _ => hsettles, ?_⟩
        rintro (⟨hinit, -⟩ | ⟨hpush, -⟩)
        · rw [hrequest] at hinit
          exact absurd hinit nofun
        · rw [hrequest] at hpush
          exact absurd hpush nofun
      · rename_i hrequest
        exact absurd hrequest (MsiMessage.parseIn_request hparse)

/-- A friend who goes offline ends both calls. -/
theorem onPeerOffline_settles {msiCall : Option MsiCall}
    (h : CallsPaired friendNumber (av.calls friendNumber) msiCall) :
    ∃ outcome, onPeerOffline (ToxAv.msiCallbacks env serial) av msiCall = some outcome ∧
      Settles friendNumber av outcome := by
  cases msiCall with
  | none => exact ⟨_, rfl, fun _ _ => rfl, h⟩
  | some call =>
    generalize hcall : av.calls friendNumber = paired at h
    cases h with
    | calls hmsi hav hplace hmsiPlace hstate =>
      rw [onPeerOffline, invokeCallback_end env serial call (.inr (.inr rfl)) hcall hplace hmsi hav]
      exact ⟨_, rfl, settles_ended av _⟩

end Friend

/-! ## All friends -/

namespace AvSystem

variable {sys : AvSystem}

/-- The two tables agree: a friend has a call in both or in none, and the two calls point to each other. -/
def TablesAgree (sys : AvSystem) : Prop := ∀ friendNumber,
  match sys.av.calls friendNumber, sys.msi friendNumber with
  | none, none => True
  | some call, some msiCall => call.msiCall = some msiCall.address ∧ msiCall.avCall = some call.address
  | _, _ => False

/-- The calls of every friend are paired. -/
def Paired (sys : AvSystem) : Prop := ∀ friendNumber, CallsPaired friendNumber (sys.av.calls friendNumber)
    (sys.msi friendNumber)

/-- Paired tables agree. -/
theorem Paired.tablesAgree (h : sys.Paired) : sys.TablesAgree := by
  intro friendNumber
  have hfriend := h friendNumber
  generalize sys.av.calls friendNumber = call at hfriend
  generalize sys.msi friendNumber = msiCall at hfriend
  cases hfriend with
  | none => trivial
  | calls hmsi hav _ _ _ => exact ⟨hmsi, hav⟩

variable {friendNumber : UInt32}

/-- A signalling call at its own address. -/
theorem derefMsi_address {msiCall : MsiCall} (hcall : sys.msi friendNumber = some msiCall)
    (hplace : msiCall.address.friendNumber = friendNumber) : sys.derefMsi msiCall.address = some msiCall := by
  rw [derefMsi, hplace, hcall, filter_some, if_pos (decide_eq_true rfl)]

/-- Where only the calls of one friend change, and stay paired, all calls stay paired. -/
theorem Paired.of_friend (h : sys.Paired) {next : AvSystem} (friendNumber : UInt32)
    (hother : ∀ other ≠ friendNumber, next.av.calls other = sys.av.calls other ∧ next.msi other = sys.msi other)
    (hfriend : CallsPaired friendNumber (next.av.calls friendNumber) (next.msi friendNumber)) : next.Paired := by
  intro other
  by_cases heq : other = friendNumber
  · subst heq
    exact hfriend
  · obtain ⟨hav, hmsi⟩ := hother other heq
    rw [hav, hmsi]
    exact h other

/-- What the signalling has settled. -/
theorem Paired.handled (h : sys.Paired) {outcome : MsiOutcome ToxAv} (hsettles : Settles friendNumber sys.av outcome) :
    (sys.handled friendNumber outcome).Paired := by
  refine h.of_friend friendNumber (fun other hother => ⟨hsettles.1 other hother, update_of_ne hother ..⟩) ?_
  rw [AvSystem.handled]
  dsimp only
  rw [update_self]
  exact hsettles.2

/-- A call that is left behind is in one table only. -/
theorem not_tablesAgree_handled {outcome : MsiOutcome ToxAv} (h : LeavesBehind friendNumber outcome) :
    ¬(sys.handled friendNumber outcome).TablesAgree := by
  intro hagree
  have hfriend := hagree friendNumber
  rw [AvSystem.handled] at hfriend
  dsimp only at hfriend
  rw [update_self, h.1] at hfriend
  obtain ⟨call, hcall⟩ := ne_none_iff_exists'.mp h.2
  rw [hcall] at hfriend
  exact hfriend

end AvSystem

end Toxcore
