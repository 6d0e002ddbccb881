import Toxcore.DHT.CloseList
import Toxcore.DHT.Getnodes

/-!
# Only nodes that answered are added

`addto_lists` is called for a response that names an entry of one of the ping arrays. Handlers only remove entries, so
every entry is one that a request put there, with the key and the address of the request; the response that leads to
the call removes the entry. Since no id is drawn twice, an id leads to one call at most, whatever else arrives in
between.
-/

namespace Toxcore

open ByteStrings List Option

/-! ## What the handlers find -/

/-- An array held data under an id and in time, and does not afterwards. -/
structure DhtNode.Found (now : UInt64) (node node' : DhtNode) (kind : AskKind) (pingId : UInt64) (data : Bytes) :
    Prop where
  stored : ((node.pings kind).entries (slotOf (node.pings kind).totalSize pingId)).data = some data
  named : ((node.pings kind).entries (slotOf (node.pings kind).totalSize pingId)).pingId = pingId
  inTime : isTimeout now ((node.pings kind).entries (slotOf (node.pings kind).totalSize pingId)).time
    (node.pings kind).timeout.toUInt64 = false
  gone : ((node'.pings kind).entries (slotOf (node.pings kind).totalSize pingId)).data = none

/-- The data that was asked for under an id names the key and the address of a call. -/
def AddtoCall.Answers (addto : AddtoCall) (source : IpPort) (packet data : Bytes) : Prop :=
  addto.ipPort = source ∧ addto.publicKey = slice 32 packet 1 ∧ (NodeFormat.ofStored data).publicKey = addto.publicKey ∧
    ipportEqual (NodeFormat.ofStored data).ipPort source = true

/-- What a check does to an array that held data under an id. -/
structure CheckFound (now : UInt64) (array : PingArray) (pingId : UInt64) (check : PingCheck) (data : Bytes) :
    Prop where
  copied : check.copied = some data
  stored : (array.entries (slotOf array.totalSize pingId)).data = some data
  named : (array.entries (slotOf array.totalSize pingId)).pingId = pingId
  inTime : isTimeout now (array.entries (slotOf array.totalSize pingId)).time array.timeout.toUInt64 = false
  gone : (check.array.entries (slotOf array.totalSize pingId)).data = none

/-- A check that returns a length found data. -/
theorem pingArrayCheck_found (now : UInt64) (length : UInt32) (array : PingArray) (pingId : UInt64) {size : ℕ}
    (hsize : Int32.ofNat size ≠ -1) (h : (pingArrayCheck now length array pingId).result = Int32.ofNat size) :
    ∃ data, CheckFound now array pingId (pingArrayCheck now length array pingId) data := by
  rcases pingArrayCheck_cases now length array pingId with hnone | ⟨data, hstored, hid, htime, hcheck⟩
  · rw [hnone] at h
    exact absurd h.symm hsize
  · rw [hcheck]
    exact ⟨data, rfl, hstored, hid, htime, clearEntry_data array _⟩

/-- Getting a shared key leaves the arrays alone. -/
theorem DhtNode.getSharedKeySent_pings (sodium : Sodium) (now : UInt64) (node : DhtNode) (publicKey : PublicKey)
    (kind : AskKind) : (node.getSharedKeySent sodium now publicKey).2.pings kind = node.pings kind := by
  cases kind <;> rfl

/-- What a handler does to the arrays of a node, and what it found where it calls `addto_lists`: nothing is added, and
the entry it found is gone. -/
structure DhtNode.Handled (now : UInt64) (source : IpPort) (packet : Bytes) (kinds : AskKind → Prop) (node : DhtNode)
    (result : Option AddtoCall × DhtNode) : Prop where
  forgets : node.Forgets result.2
  found : ∀ addto, result.1 = some addto → ∃ kind data, kinds kind ∧ node.Found now result.2 kind addto.pingId data ∧
    addto.Answers source packet data

section Handled

variable {now : UInt64} {source : IpPort} {packet : Bytes} {kinds : AskKind → Prop} {node node' : DhtNode}

/-- A handler that does not call `addto_lists`. -/
theorem DhtNode.Handled.none (h : node.Forgets node') : node.Handled now source packet kinds (none, node') :=
  ⟨h, fun _ haddto => absurd haddto (by simp)⟩

variable {result : Option AddtoCall × DhtNode} {accepted : SendnodesAccepted} {draw : DhtDraw}

/-- A step that leaves the arrays alone comes before. -/
theorem DhtNode.Handled.of_pings (hpings : ∀ kind, node'.pings kind = node.pings kind)
    (h : node'.Handled now source packet kinds result) : node.Handled now source packet kinds result := by
  constructor
  · intro kind
    rw [← hpings kind]
    exact h.forgets kind
  · intro addto haddto
    obtain ⟨kind, data, hkind, hfound, hanswers⟩ := h.found addto haddto
    refine ⟨kind, data, hkind, ?_, hanswers⟩
    have hsame := hpings kind
    exact ⟨hsame ▸ hfound.stored, hsame ▸ hfound.named, hsame ▸ hfound.inTime, hsame ▸ hfound.gone⟩

end Handled

variable {now pingId : UInt64} {publicKey : PublicKey} {source : IpPort} {run : AskRun} {sodium : Sodium}
  {packet : Bytes}

/-- What `pingChecked` accepts was found. -/
theorem pingChecked_handled {node : DhtNode} (source : IpPort) (packet : Bytes) {check : PingCheck}
    (hforgets : node.pingArray.Forgets check.array)
    (hfound : check.result = Int32.ofNat sizeofNodeFormat → ∃ data, CheckFound now node.pingArray pingId check data) :
    node.Handled now source packet (· = .ping) (pingChecked node source (slice 32 packet 1) pingId check) := by
  have hnode : node.Forgets { node with pingArray := check.array } := .of_arrays hforgets (.refl _) (.refl _)
  rw [pingChecked]
  split
  · exact .none hnode
  rename_i hresult
  obtain ⟨data, hcheck⟩ := hfound (not_not.mp hresult)
  rw [hcheck.copied, getD_some]
  dsimp only
  split
  · exact .none hnode
  rename_i hkey
  split
  · exact .none hnode
  rename_i haddress
  refine ⟨hnode, fun addto haddto => ?_⟩
  obtain rfl := some.inj haddto
  exact ⟨.ping, data, rfl, ⟨hcheck.stored, hcheck.named, hcheck.inTime, hcheck.gone⟩, rfl, rfl, (not_not.mp hkey).symm,
    by simpa using haddress⟩

/-- `handle_ping_response` adds nothing to the arrays, and calls `addto_lists` only for what it finds in the array of
pings. -/
theorem handlePingResponse_handled (sodium : Sodium) (now : UInt64) (node : DhtNode) (source : IpPort)
    (packet : Bytes) :
    node.Handled now source packet (· = .ping) (handlePingResponse sodium now node source packet) := by
  have hpings := DhtNode.getSharedKeySent_pings sodium now node (slice 32 packet 1)
  rw [handlePingResponse]
  split
  · exact .none (.refl node)
  split
  · exact .none (.refl node)
  rcases hkeyed : node.getSharedKeySent sodium now (slice 32 packet 1) with ⟨sharedKey, keyed⟩
  rw [hkeyed] at hpings
  apply DhtNode.Handled.of_pings hpings
  dsimp only
  cases decryptDataSymmetric sodium sharedKey (slice 24 packet 33) (packet.drop 57) with
  | none => exact .none (.refl keyed)
  | some pingPlain =>
    dsimp only
    split
    · exact .none (.refl keyed)
    · exact pingChecked_handled source packet (pingArrayCheck_forgets now _ keyed.pingArray _)
        (pingArrayCheck_found now _ keyed.pingArray _ (by decide))

/-- What `sent_getnode_to_node` accepts. -/
theorem testAsked_some {nodeIpPort : IpPort} {data : Bytes} {sendbackNode result : NodeFormat}
    (h : testAsked publicKey nodeIpPort data sendbackNode = some result) :
    (NodeFormat.ofStored data).publicKey = publicKey ∧
      ipportEqual (NodeFormat.ofStored data).ipPort nodeIpPort = true := by
  rw [testAsked] at h
  split at h
  · exact absurd h (by simp)
  · rename_i hnot
    rw [not_or, not_not] at hnot
    exact ⟨hnot.2, by simpa using hnot.1⟩

/-- `sent_getnode_to_node` accepts only what one of its lookups found, and then the entry is gone. -/
theorem getnodeChecked_spec {node : DhtNode} (publicKey : PublicKey) (nodeIpPort : IpPort) {plain harden : PingCheck}
    (hplain : node.dhtPingArray.Forgets plain.array) (hharden : node.dhtHardenPingArray.Forgets harden.array)
    (hfoundPlain : plain.result = Int32.ofNat sizeofNodeFormat →
      ∃ data, CheckFound now node.dhtPingArray pingId plain data)
    (hfoundHarden : harden.result = Int32.ofNat (sizeofNodeFormat * 2) →
      ∃ data, CheckFound now node.dhtHardenPingArray pingId harden data) :
    node.Forgets (getnodeChecked node publicKey nodeIpPort plain harden).2 ∧
      ∀ sendbackNode, (getnodeChecked node publicKey nodeIpPort plain harden).1 = some sendbackNode →
        ∃ kind data, (kind = .plain ∨ kind = .harden) ∧
          node.Found now (getnodeChecked node publicKey nodeIpPort plain harden).2 kind pingId data ∧
          (NodeFormat.ofStored data).publicKey = publicKey ∧
          ipportEqual (NodeFormat.ofStored data).ipPort nodeIpPort = true := by
  rw [getnodeChecked]
  split
  · rename_i hresult
    obtain ⟨data, hcheck⟩ := hfoundPlain hresult
    rw [hcheck.copied, getD_some]
    refine ⟨.of_arrays (.refl _) hplain (.refl _), fun sendbackNode htest => ?_⟩
    exact ⟨.plain, data, .inl rfl, ⟨hcheck.stored, hcheck.named, hcheck.inTime, hcheck.gone⟩, testAsked_some htest⟩
  · have hboth : node.Forgets { node with dhtPingArray := plain.array, dhtHardenPingArray := harden.array } :=
      .of_arrays (.refl _) hplain hharden
    split
    · rename_i hresult
      obtain ⟨data, hcheck⟩ := hfoundHarden hresult
      rw [hcheck.copied, getD_some]
      refine ⟨hboth, fun sendbackNode htest => ?_⟩
      exact ⟨.harden, data, .inr rfl, ⟨hcheck.stored, hcheck.named, hcheck.inTime, hcheck.gone⟩, testAsked_some htest⟩
    · exact ⟨hboth, fun _ h => absurd h (by simp)⟩

/-- The call of `addto_lists` of `handle_sendnodes_core`. -/
def sendnodesAddto (result : Option SendnodesAccepted × DhtNode) : Option AddtoCall × DhtNode :=
  (result.1.map SendnodesAccepted.addto, result.2)

/-- The call that the checks behind the lookup lead to. -/
theorem acceptNodes_addto {array : ℕ → NodeFormat} {plain : Bytes} {dataSize : ℕ} {sendbackNode : NodeFormat}
    (h : acceptNodes array source publicKey plain dataSize pingId sendbackNode = some accepted) :
    accepted.addto = ⟨source, publicKey, pingId⟩ := by
  rw [acceptNodes] at h
  split at h
  · split at h
    · exact absurd h (by simp)
    split at h
    · exact absurd h (by simp)
    · obtain rfl := some.inj h
      rfl
  · exact absurd h (by simp)

/-- `handle_sendnodes_core` adds nothing to the arrays, and calls `addto_lists` only for what it finds in one of the
two arrays of get nodes requests. -/
theorem handleSendnodesCore_handled (sodium : Sodium) (now : UInt64) (node : DhtNode) (source : IpPort) (packet : Bytes)
    (array : ℕ → NodeFormat) (sizePlainNodes : UInt16) :
    node.Handled now source packet (fun kind => kind = .plain ∨ kind = .harden)
      (sendnodesAddto (handleSendnodesCore sodium now node source packet array sizePlainNodes)) := by
  have hpings := DhtNode.getSharedKeySent_pings sodium now node (slice 32 packet 1)
  rw [handleSendnodesCore]
  split
  · exact .none (.refl node)
  dsimp only
  split
  · exact .none (.refl node)
  split
  · exact .none (.refl node)
  rcases hkeyed : node.getSharedKeySent sodium now (slice 32 packet 1) with ⟨sharedKey, keyed⟩
  rw [hkeyed] at hpings
  apply DhtNode.Handled.of_pings hpings
  dsimp only
  cases decryptDataSymmetric sodium sharedKey (slice 24 packet 33) (packet.drop 57) with
  | none => exact .none (.refl keyed)
  | some plain =>
    dsimp only
    split
    · exact .none (.refl keyed)
    generalize hid : ofHostBytes (slice 8 plain (1 + (packet.length - (1 + 32 + 24 + 1 + 8 + macBytes)))) = pingId
    have hspec :=
      getnodeChecked_spec (slice 32 packet 1) source (pingArrayCheck_forgets now _ keyed.dhtPingArray pingId)
      (pingArrayCheck_forgets now _ keyed.dhtHardenPingArray pingId)
      (pingArrayCheck_found now (UInt32.ofNat (sizeofNodeFormat * 2)) keyed.dhtPingArray pingId (by decide))
      (pingArrayCheck_found now (UInt32.ofNat (sizeofNodeFormat * 2)) keyed.dhtHardenPingArray pingId (by decide))
    rw [← sentGetnodeToNode] at hspec
    obtain ⟨hforgets, hfound⟩ := hspec
    rcases hsent : sentGetnodeToNode now keyed (slice 32 packet 1) source pingId with ⟨sent, checked⟩
    rw [hsent] at hforgets hfound
    cases sent with
    | none => exact .none hforgets
    | some sendbackNode =>
      refine ⟨hforgets, fun addto haddto => ?_⟩
      obtain ⟨accepted, haccept, rfl⟩ := map_eq_some_iff.mp haddto
      obtain ⟨kind, data, hkind, hentry, hkey, haddress⟩ := hfound sendbackNode rfl
      rw [acceptNodes_addto haccept]
      exact ⟨kind, data, hkind, hentry, rfl, rfl, hkey, haddress⟩

/-! ## Runs -/

/-- The calls that use the arrays. -/
inductive AskCall where
  | sendPingRequest (ipp : IpPort) (publicKey : PublicKey)
  | getnodes (ipPort : IpPort) (publicKey clientId : PublicKey) (sendbackNode : Option NodeFormat)
  | handlePingResponse (source : IpPort) (packet : Bytes)
  | handleSendnodesCore (source : IpPort) (packet : Bytes) (array : ℕ → NodeFormat) (sizePlainNodes : UInt16)

/-- A request that drew an id: its kind, the node that was asked, and what was added to the array. -/
structure AskedRequest where
  kind : AskKind
  receiver : NodeFormat
  record : PingRecord

/-- A node with the clock of the last call, the requests that drew an id, and the ids that led to a call of
`addto_lists`. -/
structure AskRun where
  node : DhtNode
  clock : UInt64
  asked : List AskedRequest
  accepted : List UInt64

/-- The kind of a get nodes request. -/
def getnodesKind : Option NodeFormat → AskKind
  | some _ => .harden
  | none => .plain

/-- The data that is kept of a get nodes request. -/
def getnodesData (receiver : NodeFormat) : Option NodeFormat → PingData
  | some sendbackNode => askedForData receiver sendbackNode
  | none => askedData receiver

/-- The request a call makes: its kind, the node that is asked, and the data that is kept. -/
def AskCall.request (selfPublicKey : PublicKey) : AskCall → Option (AskKind × NodeFormat × PingData)
  | .sendPingRequest ipp publicKey =>
    if publicKey = selfPublicKey then none else some (.ping, ⟨publicKey, ipp⟩, askedData ⟨publicKey, ipp⟩)
  | .getnodes ipPort publicKey _ sendbackNode =>
    if publicKey = selfPublicKey then none
    else some (getnodesKind sendbackNode, ⟨publicKey, ipPort⟩, getnodesData ⟨publicKey, ipPort⟩ sendbackNode)
  | .handlePingResponse _ _ => none
  | .handleSendnodesCore _ _ _ _ => none

/-- The node after a call. -/
def AskCall.node (sodium : Sodium) (draw : DhtDraw) (node : DhtNode) : AskCall → DhtNode
  | .sendPingRequest ipp publicKey => (Toxcore.sendPingRequest sodium draw node ipp publicKey).2
  | .getnodes ipPort publicKey clientId sendbackNode =>
    (Toxcore.getnodes sodium draw node ipPort publicKey clientId sendbackNode).2
  | .handlePingResponse source packet => (Toxcore.handlePingResponse sodium draw.now node source packet).2
  | .handleSendnodesCore source packet array sizePlainNodes =>
    (Toxcore.handleSendnodesCore sodium draw.now node source packet array sizePlainNodes).2

/-- The call of `addto_lists` a call makes. -/
def AskCall.addto (sodium : Sodium) (draw : DhtDraw) (node : DhtNode) : AskCall → Option AddtoCall
  | .handlePingResponse source packet => (Toxcore.handlePingResponse sodium draw.now node source packet).1
  | .handleSendnodesCore source packet array sizePlainNodes =>
    (sendnodesAddto (Toxcore.handleSendnodesCore sodium draw.now node source packet array sizePlainNodes)).1
  | .sendPingRequest _ _ => none
  | .getnodes _ _ _ _ => none

/-- The request of a call with the id it draws. -/
def AskCall.asked (draw : DhtDraw) (node : DhtNode) (call : AskCall) : Option AskedRequest :=
  (call.request node.selfPublicKey).bind fun (kind, receiver, data) =>
    let pingId := (pingArrayAdd draw.now draw.rand draw.alloc (node.pings kind) data).1
    if pingId = 0 then none else some ⟨kind, receiver, ⟨pingId, data, draw.now⟩⟩

/-- Execute a call. -/
def AskRun.exec (sodium : Sodium) (draw : DhtDraw) (run : AskRun) (call : AskCall) : AskRun where
  node := call.node sodium draw run.node
  clock := draw.now
  asked := (call.asked draw run.node).toList ++ run.asked
  accepted := ((call.addto sodium draw run.node).map AddtoCall.pingId).toList ++ run.accepted

/-- The id a call draws was not drawn before. -/
def AskRun.Fresh (draw : DhtDraw) (run : AskRun) (call : AskCall) : Prop :=
  ∀ asked, call.asked draw run.node = some asked → ∀ other ∈ run.asked, other.record.pingId ≠ asked.record.pingId

/-- Runs of a new node under a clock that does not go back, with ids that never repeat. Everything else a DHT does
leaves the arrays alone. -/
inductive AskReaches (sodium : Sodium) : AskRun → Prop
  | start {node : DhtNode} (hnew : ∀ kind, pingArrayInit true dhtPingArraySize pingTimeout = some (node.pings kind)) :
      AskReaches sodium ⟨node, 0, [], []⟩
  | call {run : AskRun} (draw : DhtDraw) (call : AskCall) (hrun : AskReaches sodium run) (hclock : run.clock ≤ draw.now)
      (hfresh : run.Fresh draw call) : AskReaches sodium (run.exec sodium draw call)
  | other {run : AskRun} {node' : DhtNode} (hrun : AskReaches sodium run)
      (hpings : ∀ kind, node'.pings kind = run.node.pings kind) : AskReaches sodium { run with node := node' }

/-- Every entry is that of a request which did not lead to a call of `addto_lists` yet. -/
structure AskRun.Valid (run : AskRun) : Prop where
  size : ∀ kind, (run.node.pings kind).totalSize = dhtPingArraySize
  timeout : ∀ kind, (run.node.pings kind).timeout = pingTimeout
  held : ∀ kind i, ((run.node.pings kind).entries i).data ≠ none → ∃ asked ∈ run.asked, asked.kind = kind ∧
    (run.node.pings kind).entries i = asked.record.entry ∧ slotOf dhtPingArraySize asked.record.pingId = i ∧
    asked.record.pingId ∉ run.accepted
  distinct : (run.asked.map (·.record.pingId)).Nodup
  known : ∀ pingId ∈ run.accepted, ∃ asked ∈ run.asked, asked.record.pingId = pingId
  times : ∀ asked ∈ run.asked, asked.record.time ≤ run.clock
  named : ∀ asked ∈ run.asked, NodeFormat.ofStored asked.record.data.val = asked.receiver

/-- The array of a kind gets the data of a request, the others are left alone. -/
structure DhtNode.Asks (draw : DhtDraw) (node node' : DhtNode) (kind : AskKind) (data : PingData) : Prop where
  added : node'.pings kind = (pingArrayAdd draw.now draw.rand draw.alloc (node.pings kind) data).2
  others : ∀ other, other ≠ kind → node'.pings other = node.pings other

/-- A ping request adds to the array of pings. -/
theorem sendPingRequest_asks (sodium : Sodium) (draw : DhtDraw) (node : DhtNode) (ipp : IpPort)
    (hother : publicKey ≠ node.selfPublicKey) :
    node.Asks draw (sendPingRequest sodium draw node ipp publicKey).2 .ping (askedData ⟨publicKey, ipp⟩) := by
  have hpings := DhtNode.getSharedKeySent_pings sodium draw.now node publicKey
  rw [sendPingRequest, if_neg hother]
  rcases hkeyed : node.getSharedKeySent sodium draw.now publicKey with ⟨sharedKey, keyed⟩
  rw [hkeyed] at hpings
  dsimp only
  rw [show keyed.pingArray = node.pings .ping from hpings .ping]
  rcases hadd :
    pingArrayAdd draw.now draw.rand draw.alloc (node.pings .ping) (askedData ⟨publicKey, ipp⟩) with ⟨pingId, pings⟩
  have hasks : node.Asks draw { keyed with pingArray := pings } .ping (askedData ⟨publicKey, ipp⟩) := by
    constructor
    · rw [hadd]
      rfl
    · intro other hne
      cases other with
      | ping => exact absurd rfl hne
      | plain => exact hpings .plain
      | harden => exact hpings .harden
  dsimp only
  split
  · exact hasks
  · split <;> exact hasks

/-- A step that leaves the arrays alone comes behind. -/
theorem DhtNode.Asks.of_pings {node added node' : DhtNode} {kind : AskKind} {data : PingData}
    (h : node.Asks draw added kind data) (hpings : ∀ kind, node'.pings kind = added.pings kind) :
    node.Asks draw node' kind data :=
  ⟨(hpings kind).trans h.added, fun other hne => (hpings other).trans (h.others other hne)⟩

/-- What `getnodes` does after its add leaves the arrays alone. -/
theorem sendGetnodes_pings (sodium : Sodium) (draw : DhtDraw) (added : DhtNode) (publicKey clientId : PublicKey)
    (pingId : UInt64) (kind : AskKind) :
    (sendGetnodes sodium draw added publicKey clientId pingId).2.pings kind = added.pings kind := by
  rw [sendGetnodes]
  split
  · rfl
  · have hpings := DhtNode.getSharedKeySent_pings sodium draw.now added publicKey kind
    rcases hkeyed : added.getSharedKeySent sodium draw.now publicKey with ⟨sharedKey, keyed⟩
    rw [hkeyed] at hpings
    dsimp only
    split <;> exact hpings

/-- A get nodes request adds to the array of its kind. -/
theorem getnodes_asks (sodium : Sodium) (draw : DhtDraw) (node : DhtNode) (ipPort : IpPort) (clientId : PublicKey)
    (sendbackNode : Option NodeFormat) (hother : publicKey ≠ node.selfPublicKey) :
    node.Asks draw (getnodes sodium draw node ipPort publicKey clientId sendbackNode).2 (getnodesKind sendbackNode)
      (getnodesData ⟨publicKey, ipPort⟩ sendbackNode) := by
  cases sendbackNode with
  | some sendbackNode =>
    rw [getnodes, if_neg hother]
    dsimp only
    rcases hadd : pingArrayAdd draw.now draw.rand draw.alloc node.dhtHardenPingArray
      (askedForData ⟨publicKey, ipPort⟩ sendbackNode) with ⟨pingId, pings⟩
    have hasks : node.Asks draw { node with dhtHardenPingArray :=
      pings } .harden (askedForData ⟨publicKey, ipPort⟩ sendbackNode) := by
      constructor
      · rw [show node.pings .harden = node.dhtHardenPingArray from rfl, hadd]
        rfl
      · intro other hne
        cases other with
        | ping => rfl
        | plain => rfl
        | harden => exact absurd rfl hne
    exact hasks.of_pings (sendGetnodes_pings sodium draw _ publicKey clientId pingId)
  | none =>
    rw [getnodes, if_neg hother]
    dsimp only
    rcases hadd :
      pingArrayAdd draw.now draw.rand draw.alloc node.dhtPingArray (askedData ⟨publicKey, ipPort⟩) with ⟨pingId, pings⟩
    have hasks : node.Asks draw { node with dhtPingArray := pings } .plain (askedData ⟨publicKey, ipPort⟩) := by
      constructor
      · rw [show node.pings .plain = node.dhtPingArray from rfl, hadd]
        rfl
      · intro other hne
        cases other with
        | ping => rfl
        | plain => exact absurd rfl hne
        | harden => rfl
    exact hasks.of_pings (sendGetnodes_pings sodium draw _ publicKey clientId pingId)

/-- A call that makes a request adds its data, and the data names the node that is asked. -/
theorem AskCall.asks_of_request (sodium : Sodium) (draw : DhtDraw) {node : DhtNode} {call : AskCall} {kind : AskKind}
    {receiver : NodeFormat} {data : PingData} (h : call.request node.selfPublicKey = some (kind, receiver, data)) :
    node.Asks draw (call.node sodium draw node) kind data ∧ NodeFormat.ofStored data.val = receiver ∧
      call.addto sodium draw node = none := by
  have hplain (receiver : NodeFormat) : NodeFormat.ofStored (askedData receiver).val = receiver := by
    exact (congrArg NodeFormat.ofStored (append_nil receiver.stored).symm).trans (receiver.ofStored_stored [])
  cases call with
  | sendPingRequest ipp publicKey =>
    rw [request] at h
    split at h
    · exact absurd h (by simp)
    · rename_i hother
      simp only [some.injEq, Prod.mk.injEq] at h
      obtain ⟨rfl, rfl, rfl⟩ := h
      exact ⟨sendPingRequest_asks sodium draw node ipp hother, hplain _, rfl⟩
  | getnodes ipPort publicKey clientId sendbackNode =>
    rw [request] at h
    split at h
    · exact absurd h (by simp)
    · rename_i hother
      simp only [some.injEq, Prod.mk.injEq] at h
      obtain ⟨rfl, rfl, rfl⟩ := h
      refine ⟨getnodes_asks sodium draw node ipPort clientId sendbackNode hother, ?_, rfl⟩
      cases sendbackNode with
      | some sendbackNode => exact NodeFormat.ofStored_stored _ _
      | none => exact hplain _
  | handlePingResponse source packet => exact absurd h (by simp [request])
  | handleSendnodesCore source packet array sizePlainNodes => exact absurd h (by simp [request])

/-! ## The invariant of a run -/

theorem dhtPingArraySize_powerOfTwo : PowerOfTwo dhtPingArraySize := ⟨9, rfl⟩

/-- A time that is not over yet, under a clock that does not go back. -/
theorem lt_of_isTimeout_false {time : UInt64} (hclock : time ≤ now)
    (h : isTimeout now time pingTimeout.toUInt64 = false) : now.toNat < time.toNat + pingTimeout.toNat := by
  have hle := UInt64.le_iff_toNat_le.mp hclock
  have hlt := time.toNat_lt
  have hnow := now.toNat_lt
  rw [isTimeout, decide_eq_false_iff_not, UInt64.le_iff_toNat_le, UInt64.toNat_add] at h
  change ¬(time.toNat + 5) % 2 ^ 64 ≤ now.toNat at h
  change now.toNat < time.toNat + 5
  omega

namespace AskRun.Valid

variable {run : AskRun} {node' : DhtNode} {now : UInt64}

variable {kind : AskKind}

/-- What a lookup finds was asked for, in time, and did not lead to a call of `addto_lists`. -/
theorem asked_of_found (h : run.Valid) {data : Bytes} (hfound : run.node.Found now node' kind pingId data) :
    ∃ asked ∈ run.asked, asked.kind = kind ∧ asked.record.pingId = pingId ∧ NodeFormat.ofStored data = asked.receiver ∧
      isTimeout now asked.record.time pingTimeout.toUInt64 = false ∧ pingId ∉ run.accepted := by
  obtain ⟨hstored, hnamed, htime, -⟩ := hfound
  rw [h.size kind, h.timeout kind] at *
  obtain ⟨asked, hasked, hkind, hentry, -, hfresh⟩ := h.held kind _ (by rw [hstored]; simp)
  rw [hentry] at hstored hnamed htime
  obtain rfl : asked.record.data.val = data := some.inj hstored
  obtain rfl : asked.record.pingId = pingId := hnamed
  exact ⟨asked, hasked, hkind, rfl, h.named asked hasked, htime, hfresh⟩

/-- Requests with one id are the same. -/
theorem asked_unique (h : run.Valid) {asked other : AskedRequest} (hasked : asked ∈ run.asked)
    (hother : other ∈ run.asked) (hid : asked.record.pingId = other.record.pingId) : asked = other :=
  inj_on_of_nodup_map h.distinct hasked hother hid

theorem start {node : DhtNode}
    (hnew : ∀ kind, pingArrayInit true dhtPingArraySize pingTimeout = some (node.pings kind)) :
    AskRun.Valid ⟨node, 0, [], []⟩ := by
  have hempty (kind : AskKind) : node.pings kind = ⟨fun _ => .empty, 0, 0, dhtPingArraySize, pingTimeout⟩ :=
    (some.inj ((show pingArrayInit true dhtPingArraySize pingTimeout = some _ from rfl).symm.trans (hnew kind))).symm
  refine ⟨fun kind => by rw [hempty kind], fun kind => by rw [hempty kind], fun kind i hdata => ?_, nodup_nil, by simp,
    by simp, by simp⟩
  rw [hempty kind] at hdata
  exact absurd rfl hdata

/-- Entries are removed. -/
theorem forget (h : run.Valid) (hforgets : run.node.Forgets node') (hclock : run.clock ≤ now) :
    AskRun.Valid { run with node := node', clock := now } where
  size kind := (hforgets kind).size.trans (h.size kind)
  timeout kind := (hforgets kind).timeout.trans (h.timeout kind)
  held kind i hdata := by
    have hsame := (hforgets kind).entries i hdata
    rw [hsame] at hdata ⊢
    exact h.held kind i hdata
  distinct := h.distinct
  known := h.known
  times asked hasked := UInt64.le_trans (h.times asked hasked) hclock
  named := h.named

/-- An id leads to a call of `addto_lists`, and its entry is gone. -/
theorem accept (h : run.Valid) {data : Bytes} (hfound : run.node.Found now node' kind pingId data) :
    AskRun.Valid { run with accepted := pingId :: run.accepted, node := node', clock := now } ↔
      AskRun.Valid { run with node := node', clock := now } := by
  obtain ⟨asked, hasked, hkind, hid, -⟩ := h.asked_of_found hfound
  constructor
  · intro h'
    refine ⟨h'.size, h'.timeout, fun kind i hdata => ?_, h'.distinct, fun id hmem =>
      h'.known id (mem_cons_of_mem _ hmem),
      h'.times, h'.named⟩
    obtain ⟨other, hother, hok, hentry, hslot, hfresh⟩ := h'.held kind i hdata
    exact ⟨other, hother, hok, hentry, hslot, fun hmem => hfresh (mem_cons_of_mem _ hmem)⟩
  · intro h'
    refine ⟨h'.size, h'.timeout, fun kind' i hdata => ?_, h'.distinct, fun id hmem => ?_, h'.times, h'.named⟩
    · obtain ⟨other, hother, hok, hentry, hslot, hfresh⟩ := h'.held kind' i hdata
      refine ⟨other, hother, hok, hentry, hslot, fun hmem => ?_⟩
      rcases mem_cons.mp hmem with hsame | hmem
      · obtain rfl := h.asked_unique hother hasked (hsame.trans hid.symm)
        rw [hsame] at hslot
        obtain rfl : kind' = kind := hok.symm.trans hkind
        have hgone := hfound.gone
        rw [h.size kind', hslot] at hgone
        exact hdata hgone
      · exact hfresh hmem
    · rcases mem_cons.mp hmem with rfl | hmem
      · exact ⟨asked, hasked, hid⟩
      · exact h'.known id hmem

/-- A request is added. -/
theorem ask (h : run.Valid) {receiver : NodeFormat} {data : PingData} (hasks : run.node.Asks draw node' kind data)
    (hnamed : NodeFormat.ofStored data.val = receiver) (hclock : run.clock ≤ draw.now) {new : List AskedRequest}
    (hnew : new = (let pingId := (pingArrayAdd draw.now draw.rand draw.alloc (run.node.pings kind) data).1
      if pingId = 0 then none else some (⟨kind, receiver, ⟨pingId, data, draw.now⟩⟩ : AskedRequest)).toList)
    (hfresh : ∀ asked ∈ new, ∀ other ∈ run.asked, other.record.pingId ≠ asked.record.pingId) :
    AskRun.Valid ⟨node', draw.now, new ++ run.asked, run.accepted⟩ := by
  have hpower : PowerOfTwo (run.node.pings kind).totalSize := by
    rw [h.size kind]
    exact dhtPingArraySize_powerOfTwo
  have heffect := LoggedPings.pingArrayAdd_effect draw.now draw.rand draw.alloc (run.node.pings kind) data
  have hentries := @pingArrayAdd_entry _ hpower draw.now draw.rand draw.alloc data
  have hadded := hasks.added
  generalize pingArrayAdd draw.now draw.rand draw.alloc (run.node.pings kind) data = result at *
  have hof : ∀ asked ∈ new, asked = ⟨kind, receiver, ⟨result.1, data, draw.now⟩⟩ ∧ result.1 ≠ 0 := by
    intro asked hasked
    rw [hnew] at hasked
    dsimp only at hasked
    split at hasked
    · exact absurd hasked (by simp)
    · rename_i hid
      exact ⟨mem_singleton.mp hasked, hid⟩
  have hold : ∀ kind' i, ((run.node.pings kind').entries i).data ≠ none →
      ∃ asked ∈ new ++ run.asked, asked.kind = kind' ∧ (run.node.pings kind').entries i = asked.record.entry ∧
        slotOf dhtPingArraySize asked.record.pingId = i ∧ asked.record.pingId ∉ run.accepted := by
    intro kind' i hdata
    obtain ⟨asked, hasked, hrest⟩ := h.held kind' i hdata
    exact ⟨asked, mem_append_right _ hasked, hrest⟩
  refine ⟨fun kind' => ?_, fun kind' => ?_, fun kind' i hdata => ?_, ?_, fun id hmem => ?_, fun asked hasked => ?_,
    fun asked hasked => ?_⟩
  · by_cases hkind : kind' = kind
    · rw [hkind, hadded, heffect.size, h.size kind]
    · rw [hasks.others kind' hkind, h.size kind']
  · by_cases hkind : kind' = kind
    · rw [hkind, hadded, heffect.timeout, h.timeout kind]
    · rw [hasks.others kind' hkind, h.timeout kind']
  · by_cases hkind : kind' = kind
    · subst hkind
      rw [hadded] at hdata ⊢
      rcases hentries hdata with hsame | ⟨hid, hslot, hentry⟩
      · rw [hsame] at hdata ⊢
        exact hold kind' i hdata
      · have hmem : (⟨kind', receiver, ⟨result.1, data, draw.now⟩⟩ : AskedRequest) ∈ new := by
          rw [hnew]
          simp [hid]
        refine ⟨_, mem_append_left _ hmem, rfl, hentry, (h.size kind') ▸ hslot, fun haccepted => ?_⟩
        obtain ⟨other, hother, hsame⟩ := h.known _ haccepted
        exact hfresh _ hmem other hother hsame
    · rw [hasks.others kind' hkind] at hdata ⊢
      exact hold kind' i hdata
  · rw [map_append]
    refine nodup_append.mpr ⟨?_, h.distinct, ?_⟩
    · rw [hnew]
      dsimp only
      split <;> simp
    · intro id hid id' hid' heq
      obtain ⟨asked, hasked, rfl⟩ := List.mem_map.mp hid
      obtain ⟨other, hother, rfl⟩ := List.mem_map.mp hid'
      exact hfresh asked hasked other hother heq.symm
  · obtain ⟨asked, hasked, hsame⟩ := h.known id hmem
    exact ⟨asked, mem_append_right _ hasked, hsame⟩
  · rcases mem_append.mp hasked with hmem | hmem
    · rw [(hof asked hmem).1]
      exact UInt64.le_refl _
    · exact UInt64.le_trans (h.times asked hmem) hclock
  · rcases mem_append.mp hasked with hmem | hmem
    · rw [(hof asked hmem).1]
      exact hnamed
    · exact h.named asked hmem

end AskRun.Valid

/-- A call that makes no request handles a packet, or does nothing. -/
theorem AskCall.handled_of_request (sodium : Sodium) (draw : DhtDraw) {node : DhtNode} {call : AskCall}
    (h : call.request node.selfPublicKey = none) :
    ∃ source packet kinds,
      node.Handled draw.now source packet kinds (call.addto sodium draw node, call.node sodium draw node) := by
  cases call with
  | sendPingRequest ipp publicKey =>
    have hself : publicKey = node.selfPublicKey := by
      by_contra hother
      exact absurd ((if_neg hother).symm.trans h) (by simp)
    refine ⟨ipp, [], fun _ => True, DhtNode.Handled.none ?_⟩
    change node.Forgets (Toxcore.sendPingRequest sodium draw node ipp publicKey).2
    rw [Toxcore.sendPingRequest, if_pos hself]
    exact .refl node
  | getnodes ipPort publicKey clientId sendbackNode =>
    have hself : publicKey = node.selfPublicKey := by
      by_contra hother
      exact absurd ((if_neg hother).symm.trans h) (by simp)
    refine ⟨ipPort, [], fun _ => True, DhtNode.Handled.none ?_⟩
    change node.Forgets (Toxcore.getnodes sodium draw node ipPort publicKey clientId sendbackNode).2
    rw [Toxcore.getnodes, if_pos hself]
    exact .refl node
  | handlePingResponse source packet =>
    exact ⟨source, packet, _, handlePingResponse_handled sodium draw.now node source packet⟩
  | handleSendnodesCore source packet array sizePlainNodes =>
    exact ⟨source, packet, _, handleSendnodesCore_handled sodium draw.now node source packet array sizePlainNodes⟩

/-- A call keeps the invariant. -/
theorem AskRun.Valid.exec (h : run.Valid) (sodium : Sodium) (call : AskCall) (hclock : run.clock ≤ draw.now)
    (hfresh : run.Fresh draw call) : (run.exec sodium draw call).Valid := by
  rw [AskRun.exec]
  rw [AskRun.Fresh] at hfresh
  cases hrequest : call.request run.node.selfPublicKey with
  | some request =>
    obtain ⟨kind, receiver, data⟩ := request
    obtain ⟨hasks, hnamed, hnone⟩ := AskCall.asks_of_request sodium draw hrequest
    rw [hnone]
    refine h.ask hasks hnamed hclock (by rw [AskCall.asked, hrequest]; rfl) fun asked hasked => ?_
    exact hfresh asked (Option.mem_toList.mp hasked)
  | none =>
    obtain ⟨source, packet, kinds, hforgets, hfound⟩ := AskCall.handled_of_request sodium draw hrequest
    have hasked : call.asked draw run.node = none := by rw [AskCall.asked, hrequest]; rfl
    rw [hasked]
    have hvalid := h.forget hforgets hclock
    cases haddto : call.addto sodium draw run.node with
    | none => exact hvalid
    | some addto =>
      obtain ⟨kind, data, -, hentry, -⟩ := hfound addto haddto
      exact (h.accept hentry).mpr hvalid

/-- The node is valid in every run. -/
theorem AskReaches.valid (hrun : AskReaches sodium run) : run.Valid := by
  induction hrun with
  | start hnew => exact AskRun.Valid.start hnew
  | call draw call hrun hclock hfresh ih => exact ih.exec sodium call hclock hfresh
  | @other run node' hrun hpings ih =>
    have hforgets : run.node.Forgets node' := by
      intro kind
      rw [hpings kind]
      exact .refl _
    exact ih.forget hforgets (UInt64.le_refl _)

/-! ## The calls of `addto_lists` -/

/-- The answer that leads to a call carries its id at a position. -/
def AddtoCall.CarriedBy (sodium : Sodium) (now : UInt64) (node : DhtNode) (packet : Bytes) (position : ℕ)
    (addto : AddtoCall) :
    Prop :=
  ∃ plain, decryptDataSymmetric sodium (node.getSharedKeySent sodium now (slice 32 packet 1)).1 (slice 24 packet 33)
    (packet.drop 57) = some plain ∧ addto.pingId = ofHostBytes (slice 8 plain position)

/-- A call of `addto_lists` is for a node that was asked in one of the ways before: the key and the address are those
of the request, its time is not over, and its id did not lead to a call yet. -/
def AskRun.WasAsked (run : AskRun) (now : UInt64) (kinds : AskKind → Prop) (addto : AddtoCall) : Prop :=
  addto.pingId ∉ run.accepted ∧ ∃ asked ∈ run.asked, kinds asked.kind ∧ asked.receiver.publicKey = addto.publicKey ∧
    ipportEqual asked.receiver.ipPort addto.ipPort = true ∧ asked.record.pingId = addto.pingId ∧
      asked.record.time ≤ now ∧
    now.toNat < asked.record.time.toNat + pingTimeout.toNat

/-- What a handler accepts in a valid run was asked for. -/
theorem AskRun.Valid.wasAsked (h : run.Valid) (hclock : run.clock ≤ now) {kinds : AskKind → Prop}
    (hhandled : run.node.Handled now source packet kinds result) {addto : AddtoCall} (haddto : result.1 = some addto) :
    addto.ipPort = source ∧ addto.publicKey = slice 32 packet 1 ∧ run.WasAsked now kinds addto := by
  obtain ⟨kind, data, hkind, hfound, hsource, hkey, hsame, haddress⟩ := hhandled.found addto haddto
  obtain ⟨asked, hasked, rfl, hid, hreceiver, htime, hfresh⟩ := h.asked_of_found hfound
  rw [hreceiver] at hsame haddress
  have hbefore := UInt64.le_trans (h.times asked hasked) hclock
  refine ⟨hsource, hkey, hfresh, asked, hasked, hkind, hsame, ?_, hid, hbefore, lt_of_isTimeout_false hbefore htime⟩
  rw [hsource]
  exact haddress

/-- What a ping response carries. -/
theorem handlePingResponse_carried {node : DhtNode} {addto : AddtoCall}
    (h : (handlePingResponse sodium now node source packet).1 = some addto) :
    addto.CarriedBy sodium now node packet 1 := by
  rw [handlePingResponse] at h
  split at h
  · exact absurd h (by simp)
  split at h
  · exact absurd h (by simp)
  rw [AddtoCall.CarriedBy]
  rcases hkeyed : node.getSharedKeySent sodium now (slice 32 packet 1) with ⟨sharedKey, keyed⟩
  rw [hkeyed] at h
  dsimp only at h ⊢
  cases hplain : decryptDataSymmetric sodium sharedKey (slice 24 packet 33) (packet.drop 57) with
  | none =>
    rw [hplain] at h
    exact absurd h (by simp)
  | some pingPlain =>
    rw [hplain] at h
    dsimp only at h
    split at h
    · exact absurd h (by simp)
    · refine ⟨pingPlain, rfl, ?_⟩
      revert h
      generalize ofHostBytes (slice 8 pingPlain 1) = pingId
      intro h
      rw [pingChecked] at h
      dsimp only at h
      split at h
      · exact absurd h (by simp)
      split at h
      · exact absurd h (by simp)
      split at h
      · exact absurd h (by simp)
      · obtain rfl := some.inj h
        rfl

/-- What a nodes response carries. -/
theorem handleSendnodesCore_carried {node : DhtNode} {array : ℕ → NodeFormat} {sizePlainNodes : UInt16}
    (h : (handleSendnodesCore sodium now node source packet array sizePlainNodes).1 = some accepted) :
    accepted.addto.CarriedBy sodium now node packet (1 + (packet.length - (1 + 32 + 24 + 1 + 8 + macBytes))) := by
  rw [handleSendnodesCore] at h
  split at h
  · exact absurd h (by simp)
  dsimp only at h
  split at h
  · exact absurd h (by simp)
  split at h
  · exact absurd h (by simp)
  rw [AddtoCall.CarriedBy]
  rcases hkeyed : node.getSharedKeySent sodium now (slice 32 packet 1) with ⟨sharedKey, keyed⟩
  rw [hkeyed] at h
  dsimp only at h ⊢
  cases hplain : decryptDataSymmetric sodium sharedKey (slice 24 packet 33) (packet.drop 57) with
  | none =>
    rw [hplain] at h
    exact absurd h (by simp)
  | some plain =>
    rw [hplain] at h
    dsimp only at h
    split at h
    · exact absurd h (by simp)
    · refine ⟨plain, rfl, ?_⟩
      rcases hsent : sentGetnodeToNode now keyed (slice 32 packet 1) source
        (ofHostBytes (slice 8 plain (1 + (packet.length - (1 + 32 + 24 + 1 + 8 + macBytes))))) with ⟨sent, checked⟩
      rw [hsent] at h
      cases sent with
      | none => exact absurd h (by simp)
      | some sendbackNode => rw [acceptNodes_addto h]

/-- Only nodes that answered are added: in every run, whenever `handle_ping_response` or `handle_sendnodes_core` calls
`addto_lists`, the key and the address are those of a ping request or of a get nodes request of less than the timeout
ago, the answer carries its id, and no answer with this id led to a call before. -/
theorem addtoLists_answered {sodium : Sodium} {run : AskRun} (hrun : AskReaches sodium run) {now : UInt64}
    (hclock : run.clock ≤ now) (source : IpPort) (packet : Bytes) :
    (∀ addto, (handlePingResponse sodium now run.node source packet).1 = some addto →
      addto.ipPort = source ∧ addto.publicKey = slice 32 packet 1 ∧ addto.CarriedBy sodium now run.node packet 1 ∧
        run.WasAsked now (· = .ping) addto) ∧
    ∀ (array : ℕ → NodeFormat) (sizePlainNodes : UInt16) (accepted : SendnodesAccepted),
      (handleSendnodesCore sodium now run.node source packet array sizePlainNodes).1 = some accepted →
        accepted.addto.ipPort = source ∧ accepted.addto.publicKey = slice 32 packet 1 ∧
          accepted.addto.CarriedBy sodium now run.node packet (1 + (packet.length - (1 + 32 + 24 + 1 + 8 + macBytes))) ∧
          run.WasAsked now (fun kind => kind = .plain ∨ kind = .harden) accepted.addto := by
  constructor
  · intro addto haddto
    obtain ⟨hsource, hkey, hasked⟩ :=
      hrun.valid.wasAsked hclock (handlePingResponse_handled sodium now run.node source packet) haddto
    exact ⟨hsource, hkey, handlePingResponse_carried haddto, hasked⟩
  · intro array sizePlainNodes accepted haccepted
    obtain ⟨hsource, hkey, hasked⟩ := hrun.valid.wasAsked hclock
      (handleSendnodesCore_handled sodium now run.node source packet array sizePlainNodes)
      (show (sendnodesAddto _).1 = some accepted.addto from by rw [sendnodesAddto, haccepted]; rfl)
    exact ⟨hsource, hkey, handleSendnodesCore_carried haccepted, hasked⟩

/-- A new node with a key of bytes 1. -/
def newNode : DhtNode where
  dht := Dht.new (List.Vector.replicate 32 1)
  selfSecretKey := List.Vector.replicate 32 1
  sharedKeysRecv := fun _ => .zero
  sharedKeysSent := fun _ => .zero
  dhtPingArray := ⟨fun _ => .empty, 0, 0, dhtPingArraySize, pingTimeout⟩
  dhtHardenPingArray := ⟨fun _ => .empty, 0, 0, dhtPingArraySize, pingTimeout⟩
  pingArray := ⟨fun _ => .empty, 0, 0, dhtPingArraySize, pingTimeout⟩

/-- The new node after it sent a ping request to a node with a key of bytes 2. -/
def pingedRun : AskRun :=
  AskRun.exec Sodium.plain ⟨10, 0, true, List.Vector.replicate 24 0⟩ ⟨newNode, 0, [], []⟩
    (.sendPingRequest publicAddress (List.Vector.replicate 32 2))

/-- The answer to the ping request. -/
def pingAnswer : Bytes :=
  netPacketPingResponse :: (List.replicate 32 2 ++ (List.replicate 24 0 ++
    (netPacketPingResponse :: (hostBytes 512).toList ++ List.replicate 16 0)))

/-- The answer to a ping request leads to a call of `addto_lists`. -/
theorem addtoLists_answered_pinged :
    (handlePingResponse Sodium.plain 12 pingedRun.node publicAddress pingAnswer).1 =
        some ⟨publicAddress, List.Vector.replicate 32 2, 512⟩ ∧
      pingedRun.WasAsked 12 (· = .ping) ⟨publicAddress, List.Vector.replicate 32 2, 512⟩ := by
  have hanswer : (handlePingResponse Sodium.plain 12 pingedRun.node publicAddress pingAnswer).1 =
      some ⟨publicAddress, List.Vector.replicate 32 2, 512⟩ := by decide +kernel
  have hnew : ∀ kind, pingArrayInit true dhtPingArraySize pingTimeout = some (newNode.pings kind) := by
    intro kind
    cases kind <;> rfl
  have hrun : AskReaches Sodium.plain pingedRun :=
    .call _ _ (.start hnew) (by decide) fun _ _ other hother => absurd hother (by simp)
  exact ⟨hanswer,
    ((addtoLists_answered hrun (by decide +kernel : pingedRun.clock ≤ 12) publicAddress pingAnswer).1 _ hanswer).2.2.2⟩

end Toxcore
