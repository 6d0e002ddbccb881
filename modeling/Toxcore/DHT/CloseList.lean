import Mathlib.Data.List.Induction
import Toxcore.DHT.Lists

/-!
# The structure of the close list

Entries of the close list are written in two ways: `add_to_close` stores a key in the bucket given by the leading bits
it shares with our own key, and `client_or_ip_port_in_list` overwrites the key of an entry that has the address of the
new node, wherever that entry is. In every run the non-zero keys stay different, and a key outside its bucket got there
in the second way.

Keys that share exactly `LCLIENT_LENGTH` bits with our own are left out: for these `add_to_close` reads past the list.
-/

namespace Toxcore

open ByteStrings Function List Option

/-! ## Buckets -/

/-- The loop counts the bits that two keys share. -/
theorem bitByBitCmpLoop_eq {pk1 pk2 : Bytes} (hlength : pk1.length = pk2.length) :
    bitByBitCmpLoop pk1 pk2 = sharedBits pk1 pk2 := by
  induction pk1 generalizing pk2 with
  | nil =>
    obtain rfl := length_eq_zero_iff.mp hlength.symm
    rfl
  | cons x xs ih =>
    cases pk2 with
    | nil => simp at hlength
    | cons y ys =>
      rw [bitByBitCmpLoop]
      split
      · rename_i hxy
        rw [hxy, sharedBits_cons_same, ih (by simpa using hlength)]
      · rename_i hxy
        rw [sharedBits_cons_of_ne hxy, firstUnequalBit, find?_mask]

/-- `bit_by_bit_cmp` counts the leading bits two keys share. -/
theorem bitByBitCmp_eq (pk1 pk2 : PublicKey) : bitByBitCmp pk1 pk2 = sharedBits pk1.toList pk2.toList :=
  bitByBitCmpLoop_eq (by simp)

/-- The bucket of a key: the number of leading bits it shares with our own key, or the last bucket. -/
def bucketOf (selfPublicKey publicKey : PublicKey) : ℕ :=
  min (sharedBits publicKey.toList selfPublicKey.toList) (lclientLength - 1)

/-- An index of the close list lies in the bucket of a key. -/
def InBucket (selfPublicKey publicKey : PublicKey) (i : Fin lclientList) : Prop :=
  i.val / lclientNodes = bucketOf selfPublicKey publicKey

instance (selfPublicKey publicKey : PublicKey) (i : Fin lclientList) : Decidable (InBucket selfPublicKey publicKey i) :=
  inferInstanceAs (Decidable (_ = _))

variable {publicKey : PublicKey} {n : ℕ}

/-- But for keys that share exactly `LCLIENT_LENGTH` bits, `add_to_close` computes the bucket. -/
theorem closeIndex_eq {selfPublicKey : PublicKey}
    (h : sharedBits publicKey.toList selfPublicKey.toList ≠ lclientLength) :
    closeIndex selfPublicKey publicKey = bucketOf selfPublicKey publicKey := by
  have hlength : lclientLength = 128 := rfl
  rw [closeIndex, bucketOf, bitByBitCmp_eq]
  split <;> omega

/-! ## Keys after a call -/

/-- The keys of a list. -/
def keysOf {n : ℕ} (list : ClientList n) (i : Fin n) : PublicKey := (list i).publicKey

/-- An entry is written. -/
theorem keysOf_update (list : ClientList n) (i : Fin n) (client : ClientData) :
    keysOf (update list i client) = update (keysOf list) i client.publicKey := by
  funext j
  by_cases hj : j = i
  · rw [hj, keysOf, update_self, update_self]
  · rw [keysOf, update_of_ne hj, update_of_ne hj, keysOf]

variable (now : UInt64)

variable {list : ClientList n}

@[simp] theorem refreshClient_publicKey (ipPort : IpPort) (client : ClientData) :
    (refreshClient now ipPort client).publicKey = client.publicKey := by
  unfold refreshClient
  split
  · rfl
  · split <;> rfl

@[simp] theorem replaceKey_publicKey (publicKey : PublicKey) (ipPort : IpPort) (client : ClientData) :
    (replaceKey now publicKey ipPort client).publicKey = publicKey := by
  unfold replaceKey
  split <;> rfl

@[simp] theorem storeClient_publicKey (publicKey : PublicKey) (ipPort : IpPort) (client : ClientData) :
    (storeClient now publicKey ipPort client).publicKey = publicKey := by
  unfold storeClient
  split <;> rfl

/-- A key that is not found is not in the list. -/
theorem keysOf_ne (h : ((List.finRange n).find? fun i => (list i).publicKey = publicKey) = none) :
    ∀ j, keysOf list j ≠ publicKey := by
  intro j hj
  exact find?_eq_none.mp h j (mem_finRange j) (decide_eq_true hj)

/-- A known key leaves all keys as they are; an unknown one replaces the key of an entry with its address. -/
theorem clientOrIpPortInList_keys {now : UInt64} {list' : ClientList n} {ipPort : IpPort}
    (h : clientOrIpPortInList now list publicKey ipPort = some list') :
    keysOf list' = keysOf list ∨
      (∀ j, keysOf list j ≠ publicKey) ∧
        ∃ i, hasAddress ipPort (list i) = true ∧ keysOf list' = update (keysOf list) i publicKey := by
  unfold clientOrIpPortInList at h
  split at h
  · rename_i i hfind
    obtain rfl := some_inj.mp h
    left
    rw [keysOf_update, refreshClient_publicKey]
    exact update_eq_self i (keysOf list)
  · rename_i hnone
    split at h
    · rename_i i hfind
      obtain rfl := some_inj.mp h
      have haddress := find?_some hfind
      refine .inr ⟨keysOf_ne hnone, i, haddress, ?_⟩
      rw [keysOf_update, replaceKey_publicKey]
    · contradiction

/-- A key that is not found is no entry's key. -/
theorem clientOrIpPortInList_none {now : UInt64} {ipPort : IpPort}
    (h : clientOrIpPortInList now list publicKey ipPort = none) : ∀ j, keysOf list j ≠ publicKey := by
  unfold clientOrIpPortInList at h
  split at h
  · contradiction
  · rename_i hnone
    exact keysOf_ne hnone

/-- The loop of `add_to_close` finds an entry among the indices it is given, if these are in the list. -/
theorem addToCloseLoop_spec (list : ClientList lclientList) {indices : List ℕ}
    (h : ∀ index ∈ indices, index < lclientList) :
    ∃ found, addToCloseLoop now list indices = some found ∧ ∀ i, found = some i → i.val ∈ indices := by
  induction indices with
  | nil => exact ⟨none, rfl, by simp⟩
  | cons index rest ih =>
    rw [addToCloseLoop, dif_pos (h index mem_cons_self)]
    split
    · refine ⟨_, rfl, ?_⟩
      rintro i ⟨⟩
      exact mem_cons_self
    · obtain ⟨found, hfound, hmem⟩ := ih fun other hother => h other (mem_cons_of_mem index hother)
      exact ⟨found, hfound, fun i hi => mem_cons_of_mem index (hmem i hi)⟩

/-- The indices looked at for a key are those of its bucket. -/
theorem mem_closeIndices {selfPublicKey : PublicKey}
    (hbits : sharedBits publicKey.toList selfPublicKey.toList ≠ lclientLength) {index : ℕ}
    (h : index ∈ closeIndices selfPublicKey publicKey) :
    index < lclientList ∧ index / lclientNodes = bucketOf selfPublicKey publicKey := by
  have hlength : lclientLength = 128 := rfl
  have hnodes : lclientNodes = 8 := rfl
  have hlist : lclientList = 1024 := rfl
  have hbucket : bucketOf selfPublicKey publicKey ≤ lclientLength - 1 := Nat.min_le_right _ _
  obtain ⟨i, hi, rfl⟩ := List.mem_map.mp h
  rw [mem_range] at hi
  rw [closeIndex_eq hbits, hnodes] at *
  omega

/-- What offering a node to the close list does to its keys: nothing, or the key goes to an entry of its bucket or to
one with its address, and was not in the list. -/
theorem offerToClose_keys {dht : Dht} (ipPort : IpPort)
    (hbits : sharedBits publicKey.toList dht.selfPublicKey.toList ≠ lclientLength) :
    ∃ used dht', offerToClose now dht publicKey ipPort = some (used, dht') ∧ dht'.selfPublicKey = dht.selfPublicKey ∧
      (keysOf dht'.closeClientlist = keysOf dht.closeClientlist ∨
        (∀ j, keysOf dht.closeClientlist j ≠ publicKey) ∧
          ∃ i, (InBucket dht.selfPublicKey publicKey i ∨ hasAddress ipPort (dht.closeClientlist i) = true) ∧
            keysOf dht'.closeClientlist = update (keysOf dht.closeClientlist) i publicKey) := by
  unfold offerToClose
  cases hin : clientOrIpPortInList now dht.closeClientlist publicKey ipPort with
  | some list =>
    refine ⟨1, _, rfl, rfl, ?_⟩
    rcases clientOrIpPortInList_keys hin with hsame | ⟨hunknown, i, haddress, hkeys⟩
    · exact .inl hsame
    · exact .inr ⟨hunknown, i, .inr haddress, hkeys⟩
  | none =>
    obtain ⟨found, hfound, hmem⟩ := addToCloseLoop_spec now dht.closeClientlist
      fun index hindex => (mem_closeIndices hbits hindex).1
    simp only [addToClose, hfound]
    cases found with
    | none => exact ⟨_, _, rfl, rfl, .inl rfl⟩
    | some i =>
      refine ⟨_, _, rfl, rfl, .inr ⟨clientOrIpPortInList_none hin, i, .inl ?_, ?_⟩⟩
      · exact (mem_closeIndices hbits (hmem i rfl)).2
      · exact (keysOf_update _ _ _).trans (by rw [storeClient_publicKey])

/-- Pinging changes no key. -/
theorem pingAssoc_keys (publicKey : PublicKey) (s : PingLoop n) (i : Fin n) (v6 : Bool) :
    keysOf (pingAssoc now publicKey s i v6).list = keysOf s.list := by
  have hkey (f : IpptsPng → IpptsPng) : ((s.list i).modifyAssoc v6 f).publicKey = keysOf s.list i := by
    unfold ClientData.modifyAssoc
    split <;> rfl
  have hupdate (f : IpptsPng → IpptsPng) :
      keysOf (update s.list i ((s.list i).modifyAssoc v6 f)) = keysOf s.list := by
    rw [keysOf_update, hkey, update_eq_self]
  unfold pingAssoc
  dsimp only
  split
  · rfl
  · split
    · split
      · exact hupdate _
      · rfl
    · split
      · exact hupdate _
      · rfl

/-- The loop over the entries writes no key. -/
theorem pingLoop_keys (publicKey : PublicKey) (list : ClientList n) :
    keysOf (pingLoop now publicKey list).list = keysOf list := by
  have hloop (indices : List (Fin n)) (s : PingLoop n) :
      keysOf (indices.foldl (fun s i => pingAssoc now publicKey (pingAssoc now publicKey s i true) i false) s).list =
        keysOf s.list := by
    induction indices generalizing s with
    | nil => rfl
    | cons i rest ih => rw [foldl_cons, ih, pingAssoc_keys, pingAssoc_keys]
  exact hloop _ _

/-- Pinging writes no key. -/
theorem doPingAndSendnodeRequests_keys (env : DhtEnv) (lastgetnode : UInt64) (publicKey : PublicKey)
    (list : ClientList n) (bootstrapTimes : UInt32) :
    keysOf (doPingAndSendnodeRequests env lastgetnode publicKey list bootstrapTimes false).list = keysOf list := by
  rw [← pingLoop_keys env.unixTime publicKey list]
  unfold doPingAndSendnodeRequests
  dsimp only [Bool.false_and]
  split
  · split <;> rfl
  · rfl

/-- Setting back timestamps changes no key. -/
theorem keysOf_revive (list : ClientList n) (badonly : UInt64) :
    keysOf (fun i => { list i with
      assoc4 := reviveAssoc badonly (list i).assoc4, assoc6 := reviveAssoc badonly (list i).assoc6 }) =
        keysOf list := rfl

/-- Serving the close list writes no key. -/
theorem doClose_keys (env : DhtEnv) (dht : Dht) :
    keysOf (doClose env dht).2.closeClientlist = keysOf dht.closeClientlist := by
  rw [← doPingAndSendnodeRequests_keys env dht.closeLastgetnodes dht.selfPublicKey dht.closeClientlist
    dht.closeBootstrapTimes]
  generalize hresult : doPingAndSendnodeRequests env dht.closeLastgetnodes dht.selfPublicKey dht.closeClientlist
    dht.closeBootstrapTimes false = result
  simp only [doClose, hresult]
  split
  · exact keysOf_revive result.list _
  · rfl

/-! ## Runs -/

/-- A call that may write the close list, with what it observes. -/
inductive DhtCall where
  | addtoLists (env : DhtEnv) (ipPort : IpPort) (publicKey : PublicKey)
  | doClose (env : DhtEnv)

/-- The DHT after a call. -/
def DhtCall.exec (dht : Dht) : DhtCall → Option Dht
  | .addtoLists env ipPort publicKey => (Toxcore.addtoLists env dht ipPort publicKey).map fun result => result.2.1
  | .doClose env => some (Toxcore.doClose env dht).2

/-- The DHT after a sequence of calls. -/
def runCalls (dht : Dht) (calls : List DhtCall) : Option Dht := calls.foldlM DhtCall.exec dht

/-- A call at the end of a run. -/
theorem runCalls_concat (dht : Dht) (calls : List DhtCall) (call : DhtCall) :
    runCalls dht (calls ++ [call]) = (runCalls dht calls).bind fun dht => call.exec dht := by
  rw [runCalls, foldlM_append]
  congr 1
  funext dht
  exact bind_pure (m := Option) (DhtCall.exec dht call)

/-- A call put a key in an entry because of its address: the key was not in the list, the entry had the address, and
it has the key after the call. -/
def ReplacedByAddress (start : Dht) (calls : List DhtCall) (i : Fin lclientList) (publicKey : PublicKey) : Prop :=
  ∃ before env ipPort after dht, calls = before ++ .addtoLists env ipPort publicKey :: after ∧
    runCalls start before = some dht ∧ (∀ j, keysOf dht.closeClientlist j ≠ publicKey) ∧
    hasAddress (unembed ipPort) (dht.closeClientlist i) = true ∧
    ∃ dht', DhtCall.exec dht (.addtoLists env ipPort publicKey) = some dht' ∧ keysOf dht'.closeClientlist i = publicKey

/-- An entry that was replaced stays so in a longer run. -/
theorem ReplacedByAddress.concat {start : Dht} {calls : List DhtCall} {i : Fin lclientList}
    (h : ReplacedByAddress start calls i publicKey) (call : DhtCall) :
    ReplacedByAddress start (calls ++ [call]) i publicKey := by
  obtain ⟨before, env, ipPort, after, dht, rfl, hrest⟩ := h
  exact ⟨before, env, ipPort, after ++ [call], dht, by simp, hrest⟩

/-- The non-zero keys of the close list are different, and lie in their buckets or where their address was. -/
structure Structured (start : Dht) (calls : List DhtCall) (dht : Dht) : Prop where
  self : dht.selfPublicKey = start.selfPublicKey
  distinct : ∀ i j, keysOf dht.closeClientlist i = keysOf dht.closeClientlist j →
    keysOf dht.closeClientlist i ≠ .zero → i = j
  bucket : ∀ i, keysOf dht.closeClientlist i ≠ .zero →
    InBucket start.selfPublicKey (keysOf dht.closeClientlist i) i ∨
      ReplacedByAddress start calls i (keysOf dht.closeClientlist i)

namespace Structured

variable {start dht dht' : Dht} {calls : List DhtCall}

/-- An empty close list. -/
theorem empty (h : ∀ i, start.closeClientlist i = .zero) : Structured start [] start := by
  have hkey (i : Fin lclientList) : keysOf start.closeClientlist i = .zero := by
    rw [keysOf, h i]
    rfl
  exact ⟨rfl, fun i _ _ hnonzero => absurd (hkey i) hnonzero, fun i hnonzero => absurd (hkey i) hnonzero⟩

/-- A call that leaves the keys as they are. -/
theorem same (h : Structured start calls dht) (call : DhtCall) (hself : dht'.selfPublicKey = dht.selfPublicKey)
    (hkeys : keysOf dht'.closeClientlist = keysOf dht.closeClientlist) : Structured start (calls ++ [call]) dht' := by
  refine ⟨hself.trans h.self, ?_, ?_⟩
  · rw [hkeys]
    exact h.distinct
  · rw [hkeys]
    exact fun i hnonzero => (h.bucket i hnonzero).imp_right fun hreplaced => hreplaced.concat call

/-- A call that puts a new key in an entry. -/
theorem put (h : Structured start calls dht) (call : DhtCall) (hself : dht'.selfPublicKey = dht.selfPublicKey)
    (hunknown : ∀ j, keysOf dht.closeClientlist j ≠ publicKey) {i : Fin lclientList}
    (hplace : InBucket start.selfPublicKey publicKey i ∨ ReplacedByAddress start (calls ++ [call]) i publicKey)
    (hkeys : keysOf dht'.closeClientlist = update (keysOf dht.closeClientlist) i publicKey) :
    Structured start (calls ++ [call]) dht' := by
  refine ⟨hself.trans h.self, ?_, ?_⟩
  · intro j k hsame hnonzero
    rw [hkeys] at hsame hnonzero
    by_cases hj : j = i
    · by_cases hk : k = i
      · rw [hj, hk]
      · rw [hj, update_self, update_of_ne hk] at hsame
        exact absurd hsame.symm (hunknown k)
    · rw [update_of_ne hj] at hsame hnonzero
      by_cases hk : k = i
      · rw [hk, update_self] at hsame
        exact absurd hsame (hunknown j)
      · rw [update_of_ne hk] at hsame
        exact h.distinct j k hsame hnonzero
  · intro j hnonzero
    rw [hkeys] at hnonzero ⊢
    by_cases hj : j = i
    · rw [hj, update_self]
      exact hplace
    · rw [update_of_ne hj] at hnonzero ⊢
      exact (h.bucket j hnonzero).imp_right fun hreplaced => hreplaced.concat call

/-- A node is offered. -/
theorem addtoLists (h : Structured start calls dht) (hrun : runCalls start calls = some dht) (env : DhtEnv)
    (ipPort : IpPort) (hbits : sharedBits publicKey.toList start.selfPublicKey.toList ≠ lclientLength) :
    ∃ dht', DhtCall.exec dht (.addtoLists env ipPort publicKey) = some dht' ∧
      Structured start (calls ++ [.addtoLists env ipPort publicKey]) dht' := by
  rw [← h.self] at hbits
  obtain ⟨used, dht₁, hoffer, hself, hkeys⟩ :=
    offerToClose_keys env.unixTime (unembed ipPort) hbits
  refine ⟨_, by rw [DhtCall.exec, Toxcore.addtoLists, hoffer]; rfl, ?_⟩
  rcases hkeys with hsame | ⟨hunknown, i, hplace, hput⟩
  · exact h.same _ hself hsame
  · rw [h.self] at hplace
    refine h.put _ hself hunknown (hplace.imp_right fun haddress => ?_) hput
    refine ⟨calls, env, ipPort, [], dht, rfl, hrun, hunknown, haddress, _,
      by rw [DhtCall.exec, Toxcore.addtoLists, hoffer]; rfl, ?_⟩
    exact (congrFun hput i).trans (update_self ..)

end Structured

/-- However nodes are offered and the close list is pinged, starting with an empty list: the non-zero keys in it are
different, and each is in the bucket given by the leading bits it shares with our own key, unless it was put in an entry
because of its address. -/
theorem closeClientlist_structured (start : Dht) (hempty : ∀ i, start.closeClientlist i = .zero) (calls : List DhtCall)
    (hbits : ∀ env ipPort publicKey, .addtoLists env ipPort publicKey ∈ calls →
      sharedBits publicKey.toList start.selfPublicKey.toList ≠ lclientLength) :
    ∃ dht, runCalls start calls = some dht ∧
      (∀ i j, (dht.closeClientlist i).publicKey = (dht.closeClientlist j).publicKey →
        (dht.closeClientlist i).publicKey ≠ .zero → i = j) ∧
      ∀ i, (dht.closeClientlist i).publicKey ≠ .zero →
        InBucket start.selfPublicKey (dht.closeClientlist i).publicKey i ∨
          ReplacedByAddress start calls i (dht.closeClientlist i).publicKey := by
  have hrun : ∃ dht, runCalls start calls = some dht ∧ Structured start calls dht := by
    induction calls using List.reverseRecOn with
    | nil => exact ⟨start, rfl, .empty hempty⟩
    | append_singleton calls call ih =>
      obtain ⟨dht, hrun, hstructured⟩ := ih fun env ipPort publicKey hmem =>
        hbits env ipPort publicKey (mem_append_left _ hmem)
      rw [runCalls_concat, hrun, bind_some]
      cases call with
      | addtoLists env ipPort publicKey =>
        exact hstructured.addtoLists hrun env ipPort
          (hbits env ipPort publicKey (mem_append_right _ (mem_singleton_self _)))
      | doClose env =>
        have hself : (doClose env dht).2.selfPublicKey = dht.selfPublicKey := by simp only [doClose]
        exact ⟨_, by rw [DhtCall.exec], hstructured.same _ hself (doClose_keys env dht)⟩
  obtain ⟨dht, hrun, hstructured⟩ := hrun
  exact ⟨dht, hrun, hstructured.distinct, hstructured.bucket⟩

/-- Surroundings at time 1000, in which nothing is sorted. -/
def DhtEnv.calm : DhtEnv := ⟨1000, fun _ => 0, fun _ _ _ => Equiv.refl _⟩

/-- The public IPv4 address 8.8.8.8 with port 1. -/
def publicAddress : IpPort :=
    ⟨⟨afInet, List.Vector.replicate 7 0, slice 16 [8, 8, 8, 8] 0⟩, 1, List.Vector.replicate 6 0⟩

/-- Two nodes are heard from one address; their keys share no bit and 6 bits with our own one. -/
def twoKeysOneAddress : List DhtCall :=
  [.addtoLists .calm publicAddress (List.Vector.replicate 32 128),
    .addtoLists .calm publicAddress (List.Vector.replicate 32 2)]

/-- The second key is in the first bucket, because of its address. -/
theorem closeClientlist_structured_twoKeys :
    ∃ dht, runCalls (.new (List.Vector.replicate 32 1)) twoKeysOneAddress = some dht ∧
      (dht.closeClientlist 0).publicKey = List.Vector.replicate 32 2 ∧
      ReplacedByAddress (.new (List.Vector.replicate 32 1)) twoKeysOneAddress 0 (List.Vector.replicate 32 2) := by
  have hbits : ∀ env ipPort publicKey, .addtoLists env ipPort publicKey ∈ twoKeysOneAddress →
      sharedBits publicKey.toList (Dht.new (List.Vector.replicate 32 1)).selfPublicKey.toList ≠ lclientLength := by
    intro env ipPort publicKey hmem
    simp only [twoKeysOneAddress, mem_cons, not_mem_nil, or_false, DhtCall.addtoLists.injEq] at hmem
    rcases hmem with ⟨-, -, rfl⟩ | ⟨-, -, rfl⟩ <;> decide +kernel
  obtain ⟨dht, hrun, -, hbucket⟩ := closeClientlist_structured (.new (List.Vector.replicate 32 1)) (fun _ => rfl)
    twoKeysOneAddress hbits
  have hkey : (runCalls (.new (List.Vector.replicate 32 1)) twoKeysOneAddress).map
      (fun dht => (dht.closeClientlist 0).publicKey) = some (List.Vector.replicate 32 2) := by decide +kernel
  rw [hrun, map_some, some_inj] at hkey
  have hplace := hbucket 0
  rw [hkey] at hplace
  exact ⟨dht, hrun, hkey, (hplace (by decide)).resolve_left (by decide +kernel)⟩

/-- Entries that are not timed out lie outside the buckets of their keys: one whose key was replaced because of its
address, and one for the key of zero bytes, which is found in the first unused entry. -/
theorem closeClientlist_misplaced :
    (∃ dht, runCalls (.new (List.Vector.replicate 32 1)) twoKeysOneAddress = some dht ∧
      clientTimedout 1000 (dht.closeClientlist 0) = false ∧
      ¬InBucket (List.Vector.replicate 32 1) (dht.closeClientlist 0).publicKey 0) ∧
    ∃ dht, runCalls (.new (List.Vector.replicate 32 1)) [.addtoLists .calm publicAddress .zero] = some dht ∧
      clientTimedout 1000 (dht.closeClientlist 0) = false ∧
      ¬InBucket (List.Vector.replicate 32 1) (dht.closeClientlist 0).publicKey 0 := by
  have hentry (calls : List DhtCall) (publicKey : PublicKey)
      (h : (runCalls (.new (List.Vector.replicate 32 1)) calls).map (fun dht =>
        (clientTimedout 1000 (dht.closeClientlist 0), (dht.closeClientlist 0).publicKey)) = some (false, publicKey))
      (hplace : ¬InBucket (List.Vector.replicate 32 1) publicKey 0) :
      ∃ dht, runCalls (.new (List.Vector.replicate 32 1)) calls = some dht ∧
        clientTimedout 1000 (dht.closeClientlist 0) = false ∧
        ¬InBucket (List.Vector.replicate 32 1) (dht.closeClientlist 0).publicKey 0 := by
    obtain ⟨dht, hrun, hsame⟩ := map_eq_some_iff.mp h
    obtain ⟨htimeout, hkey⟩ := Prod.mk.inj hsame
    exact ⟨dht, hrun, htimeout, by rwa [hkey]⟩
  constructor
  · exact hentry twoKeysOneAddress (List.Vector.replicate 32 2) (by decide +kernel) (by decide +kernel)
  · exact hentry [.addtoLists .calm publicAddress .zero] .zero (by decide +kernel) (by decide +kernel)

end Toxcore
