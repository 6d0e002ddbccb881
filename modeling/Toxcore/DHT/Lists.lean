import Mathlib.Logic.Equiv.Defs
import Toxcore.Data.LeadingBits
import Toxcore.DHT.Nodes

/-!
# The lists of the DHT

A node that answered is offered to the close list and to the list of every friend. It is refreshed where its key is
known, takes over the entry with its address, or is added: to the bucket of its key in the close list, and in the list
of a friend instead of a bad or farther node. `do_Close` pings the entries of the close list.

A bucket index of `LCLIENT_LENGTH` makes `add_to_close` read past the end of the close list. What happens then is not
modelled: the result is `none`.
-/

namespace Toxcore

open ByteStrings Function

/-- `KILL_NODE_TIMEOUT`. -/
def killNodeTimeout : UInt64 := badNodeTimeout + pingInterval

/-- `GET_NODE_INTERVAL`, in seconds. -/
def getNodeInterval : UInt64 := 20

/-- `MAX_BOOTSTRAP_TIMES`. -/
def maxBootstrapTimes : UInt32 := 5

/-- What a call observes: the clock, the results of `rand` in order, and the permutation by which `qsort` sorts a list.
The order of entries that compare equal is up to the library. -/
structure DhtEnv where
  unixTime : UInt64
  rand : ℕ → ℕ
  qsort : (n : ℕ) → (ClientData → ClientData → Ordering) → ClientList n → Equiv.Perm (Fin n)

/-! ## Entries -/

/-- Both addresses of an entry are timed out. -/
def clientTimedout (now : UInt64) (client : ClientData) : Bool :=
  isTimeout now client.assoc4.timestamp badNodeTimeout && isTimeout now client.assoc6.timestamp badNodeTimeout

/-- The address of a known key. A LAN address does not replace one that is not. -/
def refreshAssoc (now : UInt64) (ipPort : IpPort) (assoc : IpptsPng) : IpptsPng :=
  if !lanIp assoc.ipPort.ip ∧ lanIp ipPort.ip then assoc else { assoc with ipPort := ipPort, timestamp := now }

/-- The entry of a known key, after the node was heard from an address. -/
def refreshClient (now : UInt64) (ipPort : IpPort) (client : ClientData) : ClientData :=
  if ipPort.ip.family = afInet then { client with assoc4 := refreshAssoc now ipPort client.assoc4 }
  else if ipPort.ip.family = afInet6 then { client with assoc6 := refreshAssoc now ipPort client.assoc6 }
  else client

/-- An entry has an address. -/
def hasAddress (ipPort : IpPort) (client : ClientData) : Bool :=
  (ipPort.ip.family == afInet && ipportEqual client.assoc4.ipPort ipPort) ||
    (ipPort.ip.family == afInet6 && ipportEqual client.assoc6.ipPort ipPort)

/-- The entry with an address, after its key was overwritten. The other address is cleared. -/
def replaceKey (now : UInt64) (publicKey : PublicKey) (ipPort : IpPort) (client : ClientData) : ClientData :=
  if ipPort.ip.family = afInet then ⟨publicKey, { client.assoc4 with timestamp := now }, .zero⟩
  else ⟨publicKey, .zero, { client.assoc6 with timestamp := now }⟩

/-- `client_or_ip_port_in_list`: the updated list where the key or the address is in it. -/
def clientOrIpPortInList {n : ℕ} (now : UInt64) (list : ClientList n) (publicKey : PublicKey) (ipPort : IpPort) :
    Option (ClientList n) :=
  match (List.finRange n).find? fun i => (list i).publicKey = publicKey with
  | some i => some (update list i (refreshClient now ipPort (list i)))
  | none =>
    match (List.finRange n).find? fun i => hasAddress ipPort (list i) with
    | some i => some (update list i (replaceKey now publicKey ipPort (list i)))
    | none => none

/-- The address of a node that is stored in an entry. -/
def storeAssoc (now : UInt64) (ipPort : IpPort) (assoc : IpptsPng) : IpptsPng :=
  { assoc with
    ipPort := ipPort
    timestamp := now
    retIpPort := { assoc.retIpPort with ip := .zero, port := 0 }
    retTimestamp := 0 }

/-- An entry after a node was stored in it. The other address is cleared. -/
def storeClient (now : UInt64) (publicKey : PublicKey) (ipPort : IpPort) (client : ClientData) : ClientData :=
  if ipPort.ip.family = afInet then ⟨publicKey, storeAssoc now ipPort client.assoc4, .zero⟩
  else ⟨publicKey, .zero, storeAssoc now ipPort client.assoc6⟩

/-! ## The close list -/

/-- The first unequal bit of two bytes. -/
def firstUnequalBit (pk1 pk2 : UInt8) : ℕ :=
  ((List.range 8).find? fun j => pk1.toNat &&& 1 <<< (7 - j) ≠ pk2.toNat &&& 1 <<< (7 - j)).getD 8

/-- The loop of `bit_by_bit_cmp` over the remaining bytes. -/
def bitByBitCmpLoop : Bytes → Bytes → ℕ
  | pk1 :: pk1s, pk2 :: pk2s => if pk1 = pk2 then 8 + bitByBitCmpLoop pk1s pk2s else firstUnequalBit pk1 pk2
  | _, _ => 0

/-- `bit_by_bit_cmp`. -/
def bitByBitCmp (pk1 pk2 : PublicKey) : ℕ := bitByBitCmpLoop pk1.toList pk2.toList

/-- The bucket `add_to_close` computes for a key. -/
def closeIndex (selfPublicKey publicKey : PublicKey) : ℕ :=
  if bitByBitCmp publicKey selfPublicKey > lclientLength then lclientLength - 1
  else bitByBitCmp publicKey selfPublicKey

/-- The indices of the close list that `add_to_close` looks at. -/
def closeIndices (selfPublicKey publicKey : PublicKey) : List ℕ :=
  (List.range lclientNodes).map fun i => closeIndex selfPublicKey publicKey * lclientNodes + i

/-- The loop of `add_to_close`: the first timed out entry, and `none` past the end of the list. -/
def addToCloseLoop (now : UInt64) (list : ClientList lclientList) : List ℕ → Option (Option (Fin lclientList))
  | [] => some none
  | index :: rest =>
    if h : index < lclientList then
      if clientTimedout now (list ⟨index, h⟩) then some (some ⟨index, h⟩) else addToCloseLoop now list rest
    else none

/-- `add_to_close`, with the return value 0 as `true`. -/
def addToClose (now : UInt64) (dht : Dht) (publicKey : PublicKey) (ipPort : IpPort) (simulate : Bool) :
    Option (Bool × Dht) :=
  match addToCloseLoop now dht.closeClientlist (closeIndices dht.selfPublicKey publicKey) with
  | none => none
  | some none => some (false, dht)
  | some (some i) =>
    if simulate then some (true, dht)
    else some (true, { dht with
      closeClientlist := update dht.closeClientlist i
        (storeClient now publicKey ipPort (dht.closeClientlist i)) })

/-! ## The lists of friends -/

/-- No address of the entry belongs to a node that passed all tests. -/
def hardeningFailed (client : ClientData) : Bool :=
  hardeningCorrect client.assoc4.hardening != hardeningAllOk && hardeningCorrect client.assoc6.hardening !=
    hardeningAllOk

/-- `cmp_dht_entry`: bad entries first, then farther ones before closer ones. -/
def cmpDhtEntry (now : UInt64) (cmpPublicKey : PublicKey) (entry1 entry2 : ClientData) : Ordering :=
  let t1 := clientTimedout now entry1
  let t2 := clientTimedout now entry2
  if t1 && t2 then .eq
  else if t1 then .lt
  else if t2 then .gt
  else if hardeningFailed entry1 && !hardeningFailed entry2 then .lt
  else if !hardeningFailed entry1 && hardeningFailed entry2 then .gt
  else (idClosest cmpPublicKey entry1.publicKey entry2.publicKey).swap

/-- `store_node_ok`. -/
def storeNodeOk (now : UInt64) (client : ClientData) (publicKey compPublicKey : PublicKey) : Bool :=
  clientTimedout now client || idClosest compPublicKey client.publicKey publicKey == .gt

/-- `sort_client_list`. -/
def sortClientList {n : ℕ} (env : DhtEnv) (list : ClientList n) (compPublicKey : PublicKey) : ClientList n :=
  list ∘ env.qsort n (cmpDhtEntry env.unixTime compPublicKey) list

/-- `replace_all`: the list with the node stored, or `none`. -/
def replaceAll (env : DhtEnv) (list : ClientList maxFriendClients) (publicKey : PublicKey) (ipPort : IpPort)
    (compPublicKey : PublicKey) : Option (ClientList maxFriendClients) :=
  if ipPort.ip.family ≠ afInet ∧ ipPort.ip.family ≠ afInet6 then none
  else if storeNodeOk env.unixTime (list 1) publicKey compPublicKey ||
      storeNodeOk env.unixTime (list 0) publicKey compPublicKey then
    let list := sortClientList env list compPublicKey
    some (update list 0 (storeClient env.unixTime publicKey ipPort (list 0)))
  else none

/-- The list of a friend after a node was offered to it, if it was used. -/
def offerToFriend (env : DhtEnv) (publicKey : PublicKey) (ipPort : IpPort) (friend : DhtFriend) :
    Option (ClientList maxFriendClients) :=
  match clientOrIpPortInList env.unixTime friend.clientList publicKey ipPort with
  | some list => some list
  | none => replaceAll env friend.clientList publicKey ipPort friend.publicKey

/-- The loop of `addto_lists` over the friends: the friends, how many lists were used, and the last friend whose
address was found. -/
def offerToFriends (env : DhtEnv) (publicKey : PublicKey) (ipPort : IpPort) :
    List DhtFriend → ℕ → Option DhtFriend → List DhtFriend × ℕ × Option DhtFriend
  | [], used, foundip => ([], used, foundip)
  | friend :: rest, used, foundip =>
    match offerToFriend env publicKey ipPort friend with
    | none =>
      let (rest, used, foundip) := offerToFriends env publicKey ipPort rest used foundip
      (friend :: rest, used, foundip)
    | some list =>
      let friend := { friend with clientList := list }
      let foundip := if publicKey = friend.publicKey then some friend else foundip
      let (rest, used, foundip) := offerToFriends env publicKey ipPort rest (used + 1) foundip
      (friend :: rest, used, foundip)

/-- The callbacks of a friend whose address was found, in order. -/
def ipCallbacks (friend : DhtFriend) : List IpCallback :=
  ((List.finRange dhtFriendMaxLocks).filter fun j => j.val < friend.lockCount.toNat).filterMap friend.callbacks

/-- An IPv4 address embedded in an IPv6 one becomes a plain one. The rest of the union keeps its bytes. -/
def unembed (ipPort : IpPort) : IpPort :=
  if ipPort.ip.family = afInet6 ∧ ipv6Ipv4InV6 ipPort.ip then
    { ipPort with
      ip := { ipPort.ip with
        family := afInet
        bytes := slice 16 (ipPort.ip.embedded.toList ++ ipPort.ip.bytes.toList.drop 4) 0 } }
  else ipPort

/-- The part of `addto_lists` about the close list: the value of `used`, and the DHT. The return value 0 of
`add_to_close` is success, and any other one is counted. -/
def offerToClose (now : UInt64) (dht : Dht) (publicKey : PublicKey) (ipPort : IpPort) : Option (ℕ × Dht) :=
  match clientOrIpPortInList now dht.closeClientlist publicKey ipPort with
  | some list => some (1, { dht with closeClientlist := list })
  | none =>
    (addToClose now dht publicKey ipPort false).map fun (ok, dht) => (if ok then 0 else 1, dht)

/-- `addto_lists`: the return value, the DHT and the callbacks that are run. -/
def addtoLists (env : DhtEnv) (dht : Dht) (ipPort : IpPort) (publicKey : PublicKey) :
    Option (ℕ × Dht × List IpCallback) :=
  (offerToClose env.unixTime dht publicKey (unembed ipPort)).map fun (used, dht) =>
    let (friends, used, foundip) := offerToFriends env publicKey (unembed ipPort) dht.friendsList used none
    (used, { dht with friendsList := friends }, (foundip.map ipCallbacks).getD [])

/-! ## Pinging the close list -/

/-- A call of `getnodes`. -/
structure GetnodesCall where
  ipPort : IpPort
  publicKey : PublicKey
  clientId : PublicKey

/-- The address of an entry, the IPv6 one for `true`. -/
def ClientData.assoc (client : ClientData) (v6 : Bool) : IpptsPng := if v6 then client.assoc6 else client.assoc4

/-- An entry with one of its addresses changed. -/
def ClientData.modifyAssoc (client : ClientData) (v6 : Bool) (f : IpptsPng → IpptsPng) : ClientData :=
  if v6 then { client with assoc6 := f client.assoc6 } else { client with assoc4 := f client.assoc4 }

/-- The variables of the loop of `do_ping_and_sendnode_requests`. `good` has the entries and addresses that
`client_list` and `assoc_list` point to. -/
structure PingLoop (n : ℕ) where
  list : ClientList n
  notKill : UInt8
  sort : UInt32
  sortOk : Bool
  good : List (Fin n × Bool)
  requests : List GetnodesCall

/-- The body of the loop, for one address of an entry. -/
def pingAssoc {n : ℕ} (now : UInt64) (publicKey : PublicKey) (s : PingLoop n) (i : Fin n) (v6 : Bool) : PingLoop n :=
  let assoc := (s.list i).assoc v6
  if isTimeout now assoc.timestamp killNodeTimeout then
    { s with
      sort := s.sort + 1
      sortOk := s.sortOk || (s.sort + 1 > 1 && s.sort + 1 < UInt32.ofNat ((i.val + 1) * 2 - 1)) }
  else
    let s := { s with sort := 0, notKill := s.notKill + 1 }
    let s := if isTimeout now assoc.lastPinged pingInterval then
        { s with
          requests := s.requests ++ [⟨assoc.ipPort, (s.list i).publicKey, publicKey⟩]
          list := update s.list i
            ((s.list i).modifyAssoc v6 fun assoc => { assoc with lastPinged := now }) }
      else s
    if isTimeout now assoc.timestamp badNodeTimeout then s else { s with good := s.good ++ [(i, v6)] }

/-- The loop over the entries, each with its IPv6 address first. -/
def pingLoop {n : ℕ} (now : UInt64) (publicKey : PublicKey) (list : ClientList n) : PingLoop n :=
  (List.finRange n).foldl (fun s i => pingAssoc now publicKey (pingAssoc now publicKey s i true) i false)
    ⟨list, 0, 0, false, [], []⟩

/-- The index of the node that gets a request, from two results of `rand`. -/
def randNode (rand : ℕ → ℕ) (numNodes : ℕ) : ℕ :=
  if numNodes - 1 ≠ rand 0 % numNodes then rand 0 % numNodes + rand 1 % (numNodes - (rand 0 % numNodes + 1))
  else rand 0 % numNodes

/-- What `do_ping_and_sendnode_requests` returns and writes. -/
structure PingResult (n : ℕ) where
  notKill : UInt8
  list : ClientList n
  lastgetnode : UInt64
  bootstrapTimes : UInt32
  requests : List GetnodesCall

/-- `do_ping_and_sendnode_requests`. A request to a random good node reads its entry after the list was sorted. -/
def doPingAndSendnodeRequests {n : ℕ} (env : DhtEnv) (lastgetnode : UInt64) (publicKey : PublicKey)
    (list : ClientList n) (bootstrapTimes : UInt32) (sortable : Bool) : PingResult n :=
  let s := pingLoop env.unixTime publicKey list
  let list := if sortable && s.sortOk then sortClientList env s.list publicKey else s.list
  match s.good[randNode env.rand s.good.length]? with
  | some (i, v6) =>
    if isTimeout env.unixTime lastgetnode getNodeInterval || bootstrapTimes < maxBootstrapTimes then
      ⟨s.notKill, list, env.unixTime, bootstrapTimes + 1,
        s.requests ++ [⟨((list i).assoc v6).ipPort, (list i).publicKey, publicKey⟩]⟩
    else ⟨s.notKill, list, lastgetnode, bootstrapTimes, s.requests⟩
  | none => ⟨s.notKill, list, lastgetnode, bootstrapTimes, s.requests⟩

/-- A timestamp set back so that the node is bad and not given up yet. -/
def reviveAssoc (badonly : UInt64) (assoc : IpptsPng) : IpptsPng :=
  if assoc.timestamp ≠ 0 then { assoc with timestamp := badonly } else assoc

/-- `do_Close`: the calls of `getnodes` and the DHT. -/
def doClose (env : DhtEnv) (dht : Dht) : List GetnodesCall × Dht :=
  let bootstraps := dht.toBootstrap.map fun node => ⟨node.ipPort, node.publicKey, dht.selfPublicKey⟩
  let result := doPingAndSendnodeRequests env dht.closeLastgetnodes dht.selfPublicKey dht.closeClientlist
    dht.closeBootstrapTimes false
  let badonly := env.unixTime - badNodeTimeout
  let list := if result.notKill = 0 then
      fun i => { result.list i with
        assoc4 := reviveAssoc badonly (result.list i).assoc4, assoc6 := reviveAssoc badonly (result.list i).assoc6 }
    else result.list
  (bootstraps ++ result.requests,
    { dht with
      closeClientlist := list
      closeLastgetnodes := result.lastgetnode
      closeBootstrapTimes := result.bootstrapTimes
      toBootstrap := [] })

end Toxcore
