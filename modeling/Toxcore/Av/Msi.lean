import Toxcore.Data.ByteStrings

/-!
# Call signalling

`msi.c`: the messages of call signalling and how a session handles them. The container of calls is taken as a finite
map, so the functions below work on the call of one friend. The callbacks of a session work on the state of the
application; they return 0 or not, and may set the `av_call` of the call. Messages that are sent are part of the
result. There is no result where the program stops.
-/

namespace Toxcore

open ByteStrings

/-! ## Messages -/

/-- `MSIRequest`. -/
inductive MsiRequest where
  | init
  | push
  | pop
  deriving DecidableEq, Repr

/-- `MSIError`. -/
inductive MsiError where
  | none
  | invalidMessage
  | invalidParam
  | invalidState
  | strayMessage
  | system
  | handle
  | undisclosed
  deriving DecidableEq, Repr

/-- The number of a request. -/
def MsiRequest.number : MsiRequest → UInt8
  | init => 0
  | push => 1
  | pop => 2

/-- The request with a number, unless `CHECK_ENUM_HIGH`. -/
def MsiRequest.ofNumber (number : UInt8) : Option MsiRequest :=
  if number = 0 then some .init else if number = 1 then some .push else if number = 2 then some .pop else none

/-- The number of an error. -/
def MsiError.number : MsiError → UInt8
  | none => 0
  | invalidMessage => 1
  | invalidParam => 2
  | invalidState => 3
  | strayMessage => 4
  | system => 5
  | handle => 6
  | undisclosed => 7

/-- The error with a number, unless `CHECK_ENUM_HIGH`. -/
def MsiError.ofNumber (number : UInt8) : Option MsiError :=
  if number = 0 then some .none else if number = 1 then some .invalidMessage else if number = 2 then some .invalidParam
  else if number = 3 then some .invalidState else if number = 4 then some .strayMessage else if number =
    5 then some .system
  else if number = 6 then some .handle else if number = 7 then some .undisclosed else Option.none

/-- `MSIMessage`: the headers that exist. -/
structure MsiMessage where
  request : Option MsiRequest
  error : Option MsiError
  capabilities : Option UInt8
  deriving DecidableEq

/-- `IDRequest`. -/
def idRequest : UInt8 := 1

/-- `IDError`. -/
def idError : UInt8 := 2

/-- `IDCapabilities`. -/
def idCapabilities : UInt8 := 3

namespace MsiMessage

/-- `msg_init`. -/
def init (request : MsiRequest) : MsiMessage := ⟨some request, none, none⟩

/-- A header is stored, in the `switch` of `msg_parse_in`. -/
def store (dest : MsiMessage) (id value : UInt8) : Option MsiMessage :=
  if id = idRequest then (MsiRequest.ofNumber value).map fun request => { dest with request := some request }
  else if id = idError then (MsiError.ofNumber value).map fun error => { dest with error := some error }
  else if id = idCapabilities then some { dest with capabilities := some value }
  else none

/-- The loop of `msg_parse_in`. What is left of the data is as long as `size_constraint` says. -/
def parseLoop : Bytes → MsiMessage → Option MsiMessage
  | [], _ => none
  | [id], dest => if id = 0 then some dest else none
  | [id, _], dest => if id = 0 then some dest else none
  | id :: size :: value :: rest, dest =>
    if id = 0 then some dest
    else if rest.length < 1 ∨ size ≠ 1 then none
    else (dest.store id value).bind (parseLoop rest)

/-- `msg_parse_in`. -/
def parseIn (data : Bytes) : Option MsiMessage :=
  if data.length = 0 ∨ data.getLast? ≠ some 0 then none
  else (parseLoop data ⟨none, none, none⟩).bind fun dest => if dest.request = none then none else some dest

/-- `msg_parse_header_out`, with a value of one byte. -/
def parseHeaderOut (id value : UInt8) : Bytes := [id, 1, value]

/-- The header with an error, if there is one. -/
def errorOut : Option MsiError → Bytes
  | none => []
  | some error => parseHeaderOut idError error.number

/-- The header with capabilities, if there are any. -/
def capabilitiesOut : Option UInt8 → Bytes
  | none => []
  | some capabilities => parseHeaderOut idCapabilities capabilities

/-- What `send_message` hands to the messenger. -/
def send (msg : MsiMessage) : List Bytes :=
  match msg.request with
  | none => []
  | some request =>
    [parseHeaderOut idRequest request.number ++ (errorOut msg.error ++ (capabilitiesOut msg.capabilities ++ [0]))]

/-- `send_error`. -/
def sendError (error : MsiError) : List Bytes := send { init .pop with error := some error }

/-- A message with capabilities. -/
def withCapabilities (request : MsiRequest) (capabilities : UInt8) : MsiMessage :=
  { init request with capabilities := some capabilities }

end MsiMessage

/-! ## Calls -/

/-- `MSICallState`. -/
inductive MsiCallState where
  | inactive
  | active
  | requesting
  | requested
  deriving DecidableEq, Repr

/-- `MSICallbackID`. -/
inductive MsiCallbackId where
  | onInvite
  | onStart
  | onEnd
  | onError
  | onPeerTimeout
  | onCapabilities
  deriving DecidableEq, Repr

/-- A pointer to a call: the friend of the call and the number of its allocation. -/
structure CallPointer where
  friendNumber : UInt32
  serial : ℕ
  deriving DecidableEq

/-- `MSICall`, with its own address. -/
structure MsiCall where
  address : CallPointer
  state : MsiCallState
  peerCapabilities : UInt8
  selfCapabilities : UInt8
  error : MsiError
  avCall : Option CallPointer
  deriving DecidableEq

/-- A call that `new_call` has allocated. -/
def MsiCall.new (address : CallPointer) : MsiCall := ⟨address, .inactive, 0, 0, .none, none⟩

/-- The callbacks of a session, where they are registered: whether one returns 0, what it does to the application, and
the `av_call` of the call afterwards. -/
abbrev MsiCallbacks (σ : Type*) := MsiCallbackId → Option (σ → MsiCall → Option (Bool × σ × Option CallPointer))

/-- A call of a friend that may have ended, what was sent to the friend, and the application. -/
structure MsiOutcome (σ : Type*) where
  call : Option MsiCall
  sent : List Bytes
  app : σ

section Handling

variable {σ : Type*} (callbacks : MsiCallbacks σ)

/-- `invoke_callback`, with the return value 0 as `true`. -/
def invokeCallback (app : σ) (call : MsiCall) (cb : MsiCallbackId) : Option (Bool × σ × MsiCall) :=
  let failed (call : MsiCall) : MsiCall := if call.error = .none then { call with error := .handle } else call
  match callbacks cb with
  | none => some (false, app, failed call)
  | some callback => (callback app call).map fun result =>
      let call := { call with avCall := result.2.2 }
      if result.1 then (true, result.2.1, call) else (false, result.2.1, failed call)

/-- The failure branch of `handle_init` and `handle_push`. -/
def failCall (app : σ) (call : MsiCall) : MsiOutcome σ := ⟨none, MsiMessage.sendError call.error, app⟩

/-- A callback whose failure ends the call. -/
def callOrFail (app : σ) (call : MsiCall) (cb : MsiCallbackId) : Option (MsiOutcome σ) :=
  (invokeCallback callbacks app call cb).map fun result =>
    if result.1 then ⟨some result.2.2, [], result.2.1⟩ else failCall result.2.1 result.2.2

/-- `handle_init`. -/
def handleInit (app : σ) (call : MsiCall) (msg : MsiMessage) : Option (MsiOutcome σ) :=
  match msg.capabilities with
  | none => some (failCall app { call with error := .invalidMessage })
  | some capabilities =>
    match call.state with
    | .inactive =>
      callOrFail callbacks app { call with peerCapabilities := capabilities, state := .requested } .onInvite
    | .active => some ⟨some call, (MsiMessage.withCapabilities .push call.selfCapabilities).send, app⟩
    | _ => some (failCall app { call with error := .invalidState })

/-- `handle_push`. -/
def handlePush (app : σ) (call : MsiCall) (msg : MsiMessage) : Option (MsiOutcome σ) :=
  match msg.capabilities with
  | none => some (failCall app { call with error := .invalidMessage })
  | some capabilities =>
    match call.state with
    | .active =>
      if call.peerCapabilities ≠ capabilities then
        callOrFail callbacks app { call with peerCapabilities := capabilities } .onCapabilities
      else some ⟨some call, [], app⟩
    | .requesting => callOrFail callbacks app { call with peerCapabilities := capabilities, state := .active } .onStart
    | _ => some ⟨some call, [], app⟩

/-- `handle_pop`. The program stops at a call that is inactive. -/
def handlePop (app : σ) (call : MsiCall) (msg : MsiMessage) : Option (MsiOutcome σ) :=
  match msg.error with
  | some error =>
    (invokeCallback callbacks app { call with error := error } .onError).map fun result => ⟨none, [], result.2.1⟩
  | none =>
    match call.state with
    | .inactive => none
    | _ => (invokeCallback callbacks app call .onEnd).map fun result => ⟨none, [], result.2.1⟩

/-- `handle_msi_packet`, given the call of the friend. `address` is what `new_call` would return, if it succeeds. -/
def handleMsiPacket (address : Option CallPointer) (app : σ) (call : Option MsiCall) (data : Bytes) :
    Option (MsiOutcome σ) :=
  match MsiMessage.parseIn data with
  | none => some ⟨call, MsiMessage.sendError .invalidMessage, app⟩
  | some msg =>
    match call with
    | none =>
      if msg.request ≠ some .init then some ⟨none, MsiMessage.sendError .strayMessage, app⟩
      else
        match address with
        | none => some ⟨none, MsiMessage.sendError .system, app⟩
        | some address => handleInit callbacks app (.new address) msg
    | some call =>
      match msg.request with
      | some .init => handleInit callbacks app call msg
      | some .push => handlePush callbacks app call msg
      | some .pop => handlePop callbacks app call msg
      | none => some ⟨some call, [], app⟩

/-- `on_peer_status` for a friend that is offline. -/
def onPeerOffline (app : σ) (call : Option MsiCall) : Option (MsiOutcome σ) :=
  match call with
  | none => some ⟨none, [], app⟩
  | some call => (invokeCallback callbacks app call .onPeerTimeout).map fun result => ⟨none, [], result.2.1⟩

end Handling

/-! ## Calls of the user -/

/-- `msi_invite`: the call of the friend, and what was sent, unless it returns -1. -/
def msiInvite (address : Option CallPointer) (call : Option MsiCall) (capabilities : UInt8) :
    Option (MsiCall × List Bytes) :=
  match call with
  | some _ => none
  | none => address.map fun address =>
      ({ MsiCall.new address with selfCapabilities := capabilities, state := .requesting },
        (MsiMessage.withCapabilities .init capabilities).send)

/-- `msi_hangup`: what was sent, unless it returns -1. The call is killed. -/
def msiHangup (call : MsiCall) : Option (List Bytes) :=
  if call.state = .inactive then none else some (MsiMessage.init .pop).send

/-- `msi_answer`, unless it returns -1. -/
def msiAnswer (call : MsiCall) (capabilities : UInt8) : Option (MsiCall × List Bytes) :=
  if call.state ≠ .requested then none
  else some ({ call with selfCapabilities := capabilities, state := .active },
    (MsiMessage.withCapabilities .push capabilities).send)

/-- `msi_change_capabilities`, unless it returns -1. -/
def msiChangeCapabilities (call : MsiCall) (capabilities : UInt8) : Option (MsiCall × List Bytes) :=
  if call.state ≠ .active then none
  else some ({ call with selfCapabilities := capabilities }, (MsiMessage.withCapabilities .push capabilities).send)

/-! ## Messages are parsed back -/

namespace MsiMessage

@[simp] theorem ofNumber_request (request : MsiRequest) : MsiRequest.ofNumber request.number = some request := by
  cases request <;> decide

@[simp] theorem ofNumber_error (error : MsiError) : MsiError.ofNumber error.number = some error := by
  cases error <;> decide

/-- One header of a message is read. -/
theorem parseLoop_header {dest dest' : MsiMessage} {id value : UInt8} (hid : id ≠ 0)
    (hstore : dest.store id value = some dest')
    {rest : Bytes} (hrest : rest ≠ []) : parseLoop (parseHeaderOut id value ++ rest) dest = parseLoop rest dest' := by
  have hsize : ¬(rest.length < 1 ∨ (1 : UInt8) ≠ 1) := by
    rintro (hshort | hne)
    · exact hrest (List.length_eq_zero_iff.mp (by omega))
    · exact hne rfl
  change (if id = 0 then some dest else if rest.length < 1 ∨ (1 : UInt8) ≠ 1 then none
    else (dest.store id value).bind (parseLoop rest)) = _
  rw [if_neg hid, if_neg hsize, hstore]
  rfl

/-- The capabilities are read. -/
theorem parseLoop_capabilities (dest : MsiMessage) (hnone : dest.capabilities = none) (capabilities : Option UInt8) :
    parseLoop (capabilitiesOut capabilities ++ [0]) dest = some { dest with capabilities := capabilities } := by
  cases capabilities with
  | none =>
    obtain ⟨request, error, _⟩ := dest
    subst hnone
    rfl
  | some value => exact parseLoop_header (by decide) rfl (List.cons_ne_nil _ _)

/-- The error and the capabilities are read. -/
theorem parseLoop_error (dest : MsiMessage) (herror : dest.error = none) (hcapabilities : dest.capabilities = none)
    (error : Option MsiError) (capabilities : Option UInt8) :
    parseLoop (errorOut error ++ (capabilitiesOut capabilities ++ [0])) dest =
      some { dest with error := error, capabilities := capabilities } := by
  cases error with
  | none =>
    refine (parseLoop_capabilities dest hcapabilities capabilities).trans ?_
    rw [← herror]
  | some error =>
    have hstore : dest.store idError error.number = some { dest with error := some error } := by
      rw [store, if_neg (by decide), if_pos rfl, ofNumber_error]
      rfl
    refine (parseLoop_header (by decide) hstore (by simp)).trans ?_
    exact parseLoop_capabilities { dest with error := some error } hcapabilities capabilities

/-- A message that parses is a request. -/
theorem parseIn_request {data : Bytes} {msg : MsiMessage} (h : parseIn data = some msg) : msg.request ≠ none := by
  unfold parseIn at h
  split at h
  · contradiction
  · obtain ⟨dest, -, hdest⟩ := Option.bind_eq_some_iff.mp h
    split at hdest
    · contradiction
    · rename_i hrequest
      exact Option.some_inj.mp hdest ▸ hrequest

/-- A message that is sent is the message that is received. -/
theorem parseIn_send (msg : MsiMessage) {request : MsiRequest} (hrequest : msg.request = some request) :
    ∃ data, msg.send = [data] ∧ parseIn data = some msg := by
  obtain ⟨_, error, capabilities⟩ := msg
  subst hrequest
  refine ⟨_, rfl, ?_⟩
  have hstore : (⟨none, none, none⟩ : MsiMessage).store idRequest request.number = some ⟨some request, none, none⟩ := by
    rw [store, if_pos rfl, ofNumber_request]
    rfl
  have hloop := (parseLoop_header (by decide) hstore (by simp)).trans
    (parseLoop_error ⟨some request, none, none⟩ rfl rfl error capabilities)
  rw [parseIn, if_neg ?_, hloop]
  · rfl
  · rintro (hempty | hlast)
    · exact absurd hempty (Nat.succ_ne_zero _)
    · rw [← List.append_assoc, ← List.append_assoc, List.getLast?_concat] at hlast
      exact hlast rfl

end MsiMessage

end Toxcore
