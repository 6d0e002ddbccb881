import Toxcore.Av.Msi
import Mathlib.Logic.Function.Basic

/-!
# Calls of the application

`toxav.c`: the calls that the application sees, each with the signalling call it belongs to. The containers of both
kinds of calls are taken as finite maps, and allocation succeeds. A pointer to a call that was freed has no target,
and there is no result where one is followed. Of a call, what belongs to its media is left out; the callbacks of the
application do not call back.
-/

namespace Toxcore

open ByteStrings

/-! ## State -/

/-- `ToxAVCall`, with its own address. -/
structure ToxAvCall where
  address : CallPointer
  active : Bool
  msiCall : Option CallPointer
  audioBitRate : UInt32
  videoBitRate : UInt32
  previousSelfCapabilities : UInt8
  deriving DecidableEq

/-- A call that `call_new` has allocated. -/
def ToxAvCall.new (address : CallPointer) : ToxAvCall := ⟨address, false, none, 0, 0, 0⟩

/-- `ToxAV`: the calls by friend, and which callbacks the application has registered for calls, call states, audio
frames and video frames. -/
structure ToxAv where
  calls : UInt32 → Option ToxAvCall
  ccb : Bool
  scb : Bool
  acb : Bool
  vcb : Bool

/-- What the messenger says of the friend, and whether the mutexes and the media sessions of a call can be made. -/
structure AvEnv where
  friendExists : Bool
  friendConnected : Bool
  prepares : Bool

/-- `TOXAV_ERR_CALL`, without a failing allocation. -/
inductive ToxAvErrCall where
  | ok
  | sync
  | friendNotFound
  | friendNotConnected
  | friendAlreadyInCall
  | invalidBitRate
  deriving DecidableEq

/-- `TOXAV_ERR_ANSWER`. -/
inductive ToxAvErrAnswer where
  | ok
  | sync
  | codecInitialization
  | friendNotFound
  | friendNotCalling
  | invalidBitRate
  deriving DecidableEq

/-- `TOXAV_ERR_CALL_CONTROL`. -/
inductive ToxAvErrCallControl where
  | ok
  | sync
  | friendNotFound
  | friendNotInCall
  | invalidTransition
  deriving DecidableEq

/-- `TOXAV_CALL_CONTROL`. -/
inductive ToxAvCallControl where
  | resume
  | pause
  | cancel
  | muteAudio
  | unmuteAudio
  | hideVideo
  | showVideo
  deriving DecidableEq

/-- `msi_CapSAudio`. -/
def msiCapSAudio : UInt8 := 4

/-- `msi_CapSVideo`. -/
def msiCapSVideo : UInt8 := 8

/-- `msi_CapRAudio`. -/
def msiCapRAudio : UInt8 := 16

/-- `msi_CapRVideo`. -/
def msiCapRVideo : UInt8 := 32

/-- `audio_bit_rate_invalid`. -/
def audioBitRateInvalid (bitRate : UInt32) : Bool := bitRate < 6 ∨ bitRate > 510

/-- `video_bit_rate_invalid`. -/
def videoBitRateInvalid (_bitRate : UInt32) : Bool := false

/-- A bit rate that is refused by `toxav_call` and `toxav_answer`. -/
def bitRatesInvalid (audioBitRate videoBitRate : UInt32) : Bool :=
  (audioBitRate ≠ 0 && audioBitRateInvalid audioBitRate) || (videoBitRate ≠ 0 && videoBitRateInvalid videoBitRate)

/-- The capabilities for some bit rates. -/
def capabilitiesFor (audioBitRate videoBitRate : UInt32) : UInt8 :=
  msiCapRAudio ||| msiCapRVideo ||| (if audioBitRate > 0 then msiCapSAudio else 0) |||
    (if videoBitRate > 0 then msiCapSVideo else 0)

namespace ToxAv

variable (av : ToxAv)

/-- Write to the table of calls. -/
def setCall (friendNumber : UInt32) (call : Option ToxAvCall) : ToxAv :=
  { av with calls := Function.update av.calls friendNumber call }

/-- The call at an address. -/
def deref (pointer : CallPointer) : Option ToxAvCall :=
  (av.calls pointer.friendNumber).filter fun call => call.address = pointer

/-! ## Creating and removing calls -/

/-- `call_new`, given the number of the allocation. -/
def callNew (env : AvEnv) (serial : ℕ) (friendNumber : UInt32) : Except ToxAvErrCall (ToxAvCall × ToxAv) :=
  if env.friendExists = false then .error .friendNotFound
  else if env.friendConnected = false then .error .friendNotConnected
  else if (av.calls friendNumber).isSome then .error .friendAlreadyInCall
  else
    let call := ToxAvCall.new ⟨friendNumber, serial⟩
    .ok (call, av.setCall friendNumber (some call))

/-- `call_remove`, where one signalling call is known: what remains, and the `av_call` of the signalling call. -/
def callRemove (call : ToxAvCall) (msiCall : MsiCall) : Option (ToxAv × Option CallPointer) :=
  match call.msiCall with
  | none => some (av.setCall call.address.friendNumber none, msiCall.avCall)
  | some pointer =>
    if pointer = msiCall.address then some (av.setCall call.address.friendNumber none, none) else none

/-- `call_prepare_transmission`. -/
def callPrepareTransmission (env : AvEnv) (call : ToxAvCall) : Option ToxAvCall :=
  if av.acb = false ∧ av.vcb = false then none
  else if call.active then some call
  else if env.prepares then some { call with active := true } else none

/-! ## Callbacks of the signalling -/

/-- `callback_end` and `callback_error`, which differ in the state that the application is told. -/
def callbackEnd (msiCall : MsiCall) : Option (Bool × ToxAv × Option CallPointer) :=
  match msiCall.avCall with
  | none => some (true, av, none)
  | some pointer => (av.deref pointer).bind fun call => (av.callRemove call msiCall).map fun result => (true, result)

/-- `callback_invite`. -/
def callbackInvite (env : AvEnv) (serial : ℕ) (msiCall : MsiCall) : Option (Bool × ToxAv × Option CallPointer) :=
  match av.callNew env serial msiCall.address.friendNumber with
  | .error _ => some (false, av, msiCall.avCall)
  | .ok (call, av) =>
    let av := av.setCall msiCall.address.friendNumber (some { call with msiCall := some msiCall.address })
    some (av.ccb, av, some call.address)

/-- `callback_start`. -/
def callbackStart (env : AvEnv) (msiCall : MsiCall) : Option (Bool × ToxAv × Option CallPointer) :=
  match av.calls msiCall.address.friendNumber with
  | none => some (false, av, msiCall.avCall)
  | some call =>
    match av.callPrepareTransmission env call with
    | none => (av.callbackEnd msiCall).map fun result => (false, result.2)
    | some call =>
      let av := av.setCall msiCall.address.friendNumber (some call)
      if av.scb then some (true, av, msiCall.avCall) else (av.callbackEnd msiCall).map fun result => (false, result.2)

/-- `callback_capabilites`. -/
def callbackCapabilities (msiCall : MsiCall) : Option (Bool × ToxAv × Option CallPointer) :=
  (msiCall.avCall.bind av.deref).map fun _ => (true, av, msiCall.avCall)

/-- The callbacks that `toxav_new` registers. -/
def msiCallbacks (env : AvEnv) (serial : ℕ) : MsiCallbacks ToxAv
  | .onInvite => some fun av call => av.callbackInvite env serial call
  | .onStart => some fun av call => av.callbackStart env call
  | .onEnd => some callbackEnd
  | .onError => some callbackEnd
  | .onPeerTimeout => some callbackEnd
  | .onCapabilities => some callbackCapabilities

end ToxAv

/-! ## Both tables -/

/-- `ToxAV` and the calls of its `MSISession`, and the number of the next allocation. -/
structure AvSystem where
  av : ToxAv
  msi : UInt32 → Option MsiCall
  serial : ℕ

namespace AvSystem

variable (sys : AvSystem)

/-- `toxav_new`. -/
def new : AvSystem := ⟨⟨fun _ => none, false, false, false, false⟩, fun _ => none, 0⟩

/-- Write to the table of signalling calls. -/
def setMsi (friendNumber : UInt32) (call : Option MsiCall) : AvSystem :=
  { sys with msi := Function.update sys.msi friendNumber call }

/-- The signalling call at an address. -/
def derefMsi (pointer : CallPointer) : Option MsiCall :=
  (sys.msi pointer.friendNumber).filter fun call => call.address = pointer

/-- `toxav_call`. -/
def toxavCall (env : AvEnv) (friendNumber audioBitRate videoBitRate : UInt32) : Option (ToxAvErrCall × AvSystem) :=
  if bitRatesInvalid audioBitRate videoBitRate then some (.invalidBitRate, sys)
  else
    match sys.av.callNew env sys.serial friendNumber with
    | .error error => some (error, sys)
    | .ok (call, av) =>
      let capabilities := capabilitiesFor audioBitRate videoBitRate
      match msiInvite (some ⟨friendNumber, sys.serial + 1⟩) (sys.msi friendNumber) capabilities with
      | none => some (.sync, { sys with av := av.setCall friendNumber none })
      | some (msiCall, _) =>
        let call := { call with
          audioBitRate := audioBitRate, videoBitRate := videoBitRate, previousSelfCapabilities := capabilities,
          msiCall := some msiCall.address }
        let sys := { sys with av := av.setCall friendNumber (some call), serial := sys.serial + 2 }
        some (.ok, sys.setMsi friendNumber (some { msiCall with avCall := some call.address }))

/-- `toxav_answer`. -/
def toxavAnswer (env : AvEnv) (friendNumber audioBitRate videoBitRate : UInt32) : Option (ToxAvErrAnswer × AvSystem) :=
  if env.friendExists = false then some (.friendNotFound, sys)
  else if bitRatesInvalid audioBitRate videoBitRate then some (.invalidBitRate, sys)
  else
    match sys.av.calls friendNumber with
    | none => some (.friendNotCalling, sys)
    | some call =>
      match sys.av.callPrepareTransmission env call with
      | none => some (.codecInitialization, sys)
      | some call =>
        let capabilities := capabilitiesFor audioBitRate videoBitRate
        let call := { call with
          audioBitRate := audioBitRate, videoBitRate := videoBitRate, previousSelfCapabilities := capabilities }
        let sys := { sys with av := sys.av.setCall friendNumber (some call) }
        match call.msiCall with
        | none => some (.sync, sys)
        | some pointer =>
          (sys.derefMsi pointer).map fun msiCall =>
            match msiAnswer msiCall capabilities with
            | none => (.sync, sys)
            | some (msiCall, _) => (.ok, sys.setMsi pointer.friendNumber (some msiCall))

/-- `msi_change_capabilities` where a call is controlled. The call keeps `kept` as its previous capabilities. -/
def changeCapabilities (friendNumber : UInt32) (call : ToxAvCall) (msiCall : MsiCall) (allowed : Bool)
    (capabilities kept : UInt8) :
    ToxAvErrCallControl × AvSystem :=
  if allowed = false then (.invalidTransition, sys)
  else
    let sys := { sys with av := sys.av.setCall friendNumber (some { call with previousSelfCapabilities := kept }) }
    match msiChangeCapabilities msiCall capabilities with
    | none => (.sync, sys)
    | some (msiCall, _) => (.ok, sys.setMsi msiCall.address.friendNumber (some msiCall))

/-- `toxav_call_control`. -/
def toxavCallControl (env : AvEnv) (friendNumber : UInt32) (control : ToxAvCallControl) :
    Option (ToxAvErrCallControl × AvSystem) :=
  if env.friendExists = false then some (.friendNotFound, sys)
  else
    match sys.av.calls friendNumber with
    | none => some (.friendNotInCall, sys)
    | some call =>
      if call.active = false ∧ control ≠ .cancel then some (.friendNotInCall, sys)
      else
        match control, call.msiCall with
        | .cancel, none => some (.sync, sys)
        | _, none => none
        | control, some pointer =>
          (sys.derefMsi pointer).map fun msiCall =>
            let self := msiCall.selfCapabilities
            let previous := call.previousSelfCapabilities
            let change := sys.changeCapabilities friendNumber call msiCall
            match control with
            | .resume => change (self = 0 ∧ previous ≠ 0) previous previous
            | .pause => change (self ≠ 0) 0 self
            | .cancel =>
              match msiHangup msiCall with
              | none => (.sync, sys)
              | some _ =>
                (.ok, { sys.setMsi pointer.friendNumber none with
                  av := sys.av.setCall call.address.friendNumber none })
            | .muteAudio => change (self &&& msiCapRAudio ≠ 0) (self ^^^ msiCapRAudio) previous
            | .unmuteAudio => change (self ^^^ msiCapRAudio ≠ 0) (self ||| msiCapRAudio) previous
            | .hideVideo => change (self &&& msiCapRVideo ≠ 0) (self ^^^ msiCapRVideo) previous
            | .showVideo => change (self ^^^ msiCapRVideo ≠ 0) (self ||| msiCapRVideo) previous

/-- The signalling has handled something for a friend. -/
def handled (friendNumber : UInt32) (outcome : MsiOutcome ToxAv) : AvSystem :=
  { av := outcome.app, msi := Function.update sys.msi friendNumber outcome.call, serial := sys.serial + 2 }

/-- `handle_msi_packet`. -/
def handlePacket (env : AvEnv) (friendNumber : UInt32) (data : Bytes) : Option AvSystem :=
  (handleMsiPacket (ToxAv.msiCallbacks env sys.serial)
    (some ⟨friendNumber, sys.serial + 1⟩) sys.av (sys.msi friendNumber)
    data).map (sys.handled friendNumber)

/-- `on_peer_status` for a friend that is offline. -/
def peerOffline (env : AvEnv) (friendNumber : UInt32) : Option AvSystem :=
  (onPeerOffline (ToxAv.msiCallbacks env sys.serial) sys.av (sys.msi friendNumber)).map (sys.handled friendNumber)

end AvSystem

/-! ## Runs -/

/-- What happens: the application registers or removes callbacks and uses calls, packets arrive, friends go offline. -/
inductive AvEvent where
  | register (ccb scb acb vcb : Bool)
  | call (env : AvEnv) (friendNumber audioBitRate videoBitRate : UInt32)
  | answer (env : AvEnv) (friendNumber audioBitRate videoBitRate : UInt32)
  | control (env : AvEnv) (friendNumber : UInt32) (control : ToxAvCallControl)
  | packet (env : AvEnv) (friendNumber : UInt32) (data : Bytes)
  | offline (env : AvEnv) (friendNumber : UInt32)

namespace AvSystem

/-- One event. -/
def step (sys : AvSystem) : AvEvent → Option AvSystem
  | .register ccb scb acb vcb => some { sys with av := { sys.av with ccb := ccb, scb := scb, acb := acb, vcb := vcb } }
  | .call env friendNumber audioBitRate videoBitRate =>
    (sys.toxavCall env friendNumber audioBitRate videoBitRate).map Prod.snd
  | .answer env friendNumber audioBitRate videoBitRate =>
    (sys.toxavAnswer env friendNumber audioBitRate videoBitRate).map Prod.snd
  | .control env friendNumber control => (sys.toxavCallControl env friendNumber control).map Prod.snd
  | .packet env friendNumber data => sys.handlePacket env friendNumber data
  | .offline env friendNumber => sys.peerOffline env friendNumber

end AvSystem

end Toxcore
