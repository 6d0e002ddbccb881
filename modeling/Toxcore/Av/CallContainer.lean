import Toxcore.Data.LinkedNodes
import Mathlib.Order.Basic
import Mathlib.Data.List.Perm.Basic

/-!
# The container of calls

`new_call`, `get_call` and `kill_call` of a messenger signalling session, and `call_new`, `call_get` and `call_remove`
of the audio and video session: an array of calls by friend number, threaded with a doubly linked list whose ends are
`calls_head` and `calls_tail`. Of a call the container only reads the friend number and the two links. Access to
memory that is not allocated has no result.
-/

namespace Toxcore

open LinkedNodes Function

/-- The container: the calls that are allocated with their friend numbers, and the fields of the session. -/
structure Calls where
  heap : Heap UInt32
  calls : Option (List (Option ℕ))
  callsHead : UInt32
  callsTail : UInt32

/-- What the allocator returns: the address of a new call, unless it fails, and whether the array is allocated. -/
structure CallAlloc where
  call : Option ℕ
  calls : Bool

namespace Calls

/-- No calls. -/
def empty : Calls := ⟨fun _ => none, none, 0, 0⟩

variable (t : Calls)

/-- Write an entry of the array. -/
def store (friendNumber : UInt32) (call : Option ℕ) : Option Calls :=
  t.calls.bind fun calls =>
    if friendNumber.toNat <
      calls.length then some { t with calls := some (calls.set friendNumber.toNat call) } else none

/-- The call that an entry of the array names, when the code goes on to access it. -/
def entry (calls : List (Option ℕ)) (friendNumber : UInt32) : Option ℕ := calls[friendNumber.toNat]?.join

/-- `realloc` of the array, and the loop that sets the fields in between to null. -/
def grow (calls : List (Option ℕ)) (callsTail friendNumber : UInt32) : List (Option ℕ) :=
  let length := (friendNumber + 1).toNat
  (calls.take length ++ List.replicate (length - calls.length) none).mapIdx fun i call =>
    if callsTail.toNat < i ∧ i < friendNumber.toNat then none else call

/-- A new call behind the last one. -/
def linkBehind (heap : Heap UInt32) (rc tail : ℕ) : Option (Heap UInt32) :=
  (setPrev heap (some rc) (some tail)).bind fun heap => setNext heap (some tail) (some rc)

/-- A new call before the first one. -/
def linkBefore (heap : Heap UInt32) (rc head : ℕ) : Option (Heap UInt32) :=
  (setNext heap (some rc) (some head)).bind fun heap => setPrev heap (some head) (some rc)

/-- The container with a new call linked to the others, before the array names it. Inside of an array with calls a call
between the first and the last one is not linked. -/
def linkCall (rc : ℕ) (friendNumber : UInt32) (calls : List (Option ℕ)) : Option Calls :=
  let heap := update t.heap rc (some ⟨none, none, friendNumber⟩)
  if t.callsTail < friendNumber then
    let calls := grow calls t.callsTail friendNumber
    (entry calls t.callsTail).bind fun tail => (linkBehind heap rc tail).map fun heap =>
      { t with heap := heap, calls := some calls, callsTail := friendNumber }
  else if t.callsHead > friendNumber then
    (entry calls t.callsHead).bind fun head => (linkBefore heap rc head).map fun heap =>
      { t with heap := heap, callsHead := friendNumber }
  else some { t with heap := heap }

/-- `new_call`: the address of the new call, and the container. -/
def newCall (alloc : CallAlloc) (friendNumber : UInt32) : Option (Option ℕ × Calls) :=
  match alloc.call with
  | none => some (none, t)
  | some rc =>
    match t.calls with
    | none =>
      if alloc.calls then
        (store ⟨update t.heap rc (some ⟨none, none, friendNumber⟩),
          some (List.replicate (friendNumber + 1).toNat none), friendNumber,
            friendNumber⟩ friendNumber (some rc)).map (some rc, ·)
      else some (none, t)
    | some calls =>
      if t.callsTail < friendNumber ∧ alloc.calls = false then some (none, t)
      else (t.linkCall rc friendNumber calls).bind fun t => (t.store friendNumber (some rc)).map (some rc, ·)

/-- `get_call`. -/
def getCall (friendNumber : UInt32) : Option (Option ℕ) :=
  match t.calls with
  | none => some none
  | some calls => if t.callsTail < friendNumber then some none else calls[friendNumber.toNat]?

/-- The friend number of the call that a pointer names. -/
def friendNumberOf (heap : Heap UInt32) (call : Option ℕ) : Option UInt32 := (call.bind heap).map Node.value

/-- What `kill_call` and `call_remove` do to the list and the array. -/
def unlinkCall (friendNumber : UInt32) (prev next : Option ℕ) : Option Calls :=
  if prev = none ∧ next = none then some { t with calls := none, callsHead := 0, callsTail := 0 }
  else
    (setNext t.heap prev next).bind fun heap =>
      (if prev = none then friendNumberOf heap next else some t.callsHead).bind fun callsHead =>
        (setPrev heap next prev).bind fun heap =>
          (if next = none then friendNumberOf heap prev else some t.callsTail).bind fun callsTail =>
            store { t with heap := heap, callsHead := callsHead, callsTail := callsTail } friendNumber none

/-- `kill_call`. -/
def killCall : Option ℕ → Option Calls
  | none => some t
  | some p => (t.heap p).bind fun call => (t.unlinkCall call.value call.prev call.next).map fun t =>
      { t with heap := update t.heap p none }

/-- `call_get`. -/
def callGet (friendNumber : UInt32) : Option (Option ℕ) := t.getCall friendNumber

/-- `call_new`, given whether the friend exists and is connected. Its body below the checks is that of `new_call`. -/
def callNew (friendExists connected : Bool) (alloc : CallAlloc) (friendNumber : UInt32) : Option (Option ℕ × Calls) :=
  if friendExists = false then some (none, t)
  else if connected = false then some (none, t)
  else (t.callGet friendNumber).bind fun call =>
    if call ≠ none then some (none, t) else t.newCall alloc friendNumber

/-- `call_remove`: the call behind the one removed, and the container. The call is freed first. -/
def callRemove : Option ℕ → Option (Option ℕ × Calls)
  | none => some (none, t)
  | some p => (t.heap p).bind fun call =>
      (unlinkCall { t with heap := update t.heap p none } call.value call.prev call.next).map (call.next, ·)

end Calls

end Toxcore
