import Toxcore.Data.CallResults
import Toxcore.DHT.AssocSizes
import Toxcore.DHT.Nodes

/-!
# The association cache

`assoc.c` keeps what is known of nodes in a hash table: the first bits of a key select a bucket, and a hash of the key
a position in it, with `HASH_COLLIDE_COUNT - 1` more that are found by multiplying. An entry is unused if its hash is
0.

Allocation succeeds. The timers of `do_Assoc` are left out.
-/

namespace Toxcore

open ByteStrings

/-- `HASH_COLLIDE_COUNT`. -/
abbrev hashCollideCount : ℕ := 5

/-- `CANDIDATES_SEEN_TIMEOUT`, in seconds. -/
def candidatesSeenTimeout : UInt64 := 1800

/-- `CANDIDATES_HEARD_TIMEOUT`, in seconds. -/
def candidatesHeardTimeout : UInt64 := 600

/-- `IPPTs`. -/
structure Ippts where
  ipPort : IpPort
  timestamp : UInt64

/-- `Client_entry`. -/
structure ClientEntry where
  hash : UInt32
  usedAt : UInt64
  seenAt : UInt64
  heardAt : UInt64
  seenFamily : UInt16
  heardFamily : UInt16
  assocHeard4 : IpPort
  assocHeard6 : IpPort
  client : ClientData
  deriving DecidableEq

/-- An entry cleared to zero bytes. -/
def ClientEntry.zero : ClientEntry := ⟨0, 0, 0, 0, 0, 0, .zero, .zero, .zero⟩

/-- A place in a cache: a bucket, and a position in it. -/
abbrev AssocSizes.Place (sizes : AssocSizes) : Type := Fin (2 ^ sizes.bucketBits) × Fin sizes.bucketSize

/-- `Assoc`, but for its sizes. -/
structure Assoc (sizes : AssocSizes) where
  selfHash : UInt32
  selfClientId : PublicKey
  candidates : sizes.Place → ClientEntry

/-! ## Hashes -/

/-- The loop of `id_hash`. -/
def idHashLoop (id : Bytes) : UInt32 :=
    id.foldl (fun res byte => ((res <<< 1) ^^^ byte.toUInt32) + (res >>> 31)) 0x19a64e82

/-- `id_hash`, by the size of a bucket. -/
def idHash (size : ℕ) (id : PublicKey) : UInt32 :=
  let res := idHashLoop id.toList
  if res.toNat % size = 0 then res + 1 else res

/-- The position after another one in `hash_collide`, before the fallback. -/
def hashCollideProduct (size : ℕ) (hash : ℕ) : ℕ := hash % size * hashCollidePrime % size

/-- `hash_collide`, by the size of a bucket. -/
def hashCollide (size : ℕ) (hash : ℕ) : ℕ :=
  let retval := hashCollideProduct size hash
  if retval = 0 then 1 else retval

/-- The next hash is in the bucket. -/
theorem hashCollide_lt {size : ℕ} (hsize : 5 ≤ size) (hash : ℕ) : hashCollide size hash < size := by
  have hlt : hashCollideProduct size hash < size := Nat.mod_lt _ (by omega)
  unfold hashCollide
  dsimp only
  split <;> omega

/-- The loop of `id_bucket`. -/
def idBucketLoop : Bytes → ℕ → ℕ → ℕ
  | [], retval, _ => retval
  | byte :: rest, retval, bits =>
    if bits > 8 then idBucketLoop rest ((retval <<< 8) ||| byte.toNat)
      (bits - 8) else (retval <<< bits) ||| (byte.toNat >>> (8 - bits))

/-- `id_bucket`. -/
def idBucket (id : PublicKey) (bits : ℕ) : ℕ := idBucketLoop id.toList 0 bits

/-- The first bits of a key are a number of so many bits. -/
theorem idBucketLoop_lt {id : Bytes} {retval bits total : ℕ} (hretval : retval < 2 ^ total)
    (hbits : bits ≤ 8 * id.length) (hid : id ≠ []) : idBucketLoop id retval bits < 2 ^ (total + bits) := by
  induction id generalizing retval bits total with
  | nil => exact absurd rfl hid
  | cons byte rest ih =>
    rw [idBucketLoop]
    rw [List.length_cons] at hbits
    by_cases hmore : bits > 8
    · rw [if_pos hmore]
      have hnext : retval <<< 8 ||| byte.toNat < 2 ^ (total + 8) := by
        refine Nat.or_lt_two_pow ?_ (byte.toNat_lt.trans_le (Nat.pow_le_pow_right (by norm_num) (by omega)))
        rw [Nat.shiftLeft_eq, Nat.pow_add]
        exact Nat.mul_lt_mul_of_pos_right hretval (Nat.two_pow_pos 8)
      have hrest : rest ≠ [] := by
        rintro rfl
        rw [List.length_nil] at hbits
        omega
      have hlt := ih hnext (by omega : bits - 8 ≤ 8 * rest.length) hrest
      rwa [show total + 8 + (bits - 8) = total + bits by omega] at hlt
    · rw [if_neg hmore]
      refine Nat.or_lt_two_pow ?_ ?_
      · rw [Nat.shiftLeft_eq, Nat.pow_add]
        exact Nat.mul_lt_mul_of_pos_right hretval (Nat.two_pow_pos bits)
      · have hbyte : byte.toNat >>> (8 - bits) < 2 ^ bits := by
          rw [Nat.shiftRight_eq_div_pow, Nat.div_lt_iff_lt_mul (Nat.two_pow_pos _), ← Nat.pow_add,
            show bits + (8 - bits) = 8 by omega]
          exact byte.toNat_lt
        exact hbyte.trans_le (Nat.pow_le_pow_right (by norm_num) (Nat.le_add_left bits total))

/-- The bucket is in the table. -/
theorem idBucket_lt (id : PublicKey) {bits : ℕ} (hbits : bits ≤ 15) : idBucket id bits < 2 ^ bits := by
  have hlen : id.toList.length = 32 := id.toList_length
  have hlt := idBucketLoop_lt (by norm_num : 0 < 2 ^ 0) (by omega : bits ≤ 8 * id.toList.length)
    (by rintro hnil; rw [hnil] at hlen; cases hlen)
  rwa [Nat.zero_add] at hlt

namespace AssocSizes

variable (sizes : AssocSizes)

/-- `candidates_id_bucket`. -/
def candidatesIdBucket (id : PublicKey) : Fin (2 ^ sizes.bucketBits) :=
  ⟨idBucket id sizes.bucketBits, idBucket_lt id sizes.bits_bounds.2⟩

/-- The positions that are looked at for a hash, one after the other. -/
def positions (hash : UInt32) : List (Fin sizes.bucketSize) :=
  List.iterate (fun pos => ⟨hashCollide sizes.bucketSize pos, hashCollide_lt sizes.size_bounds.1 pos⟩)
    ⟨hash.toNat % sizes.bucketSize, Nat.mod_lt _ sizes.size_prime.pos⟩ hashCollideCount

/-- The places that are looked at for a key and a hash. -/
def places (id : PublicKey) (hash : UInt32) : List sizes.Place := (sizes.positions hash).map fun pos =>
    (sizes.candidatesIdBucket id, pos)

end AssocSizes

/-- `candidates_search`. -/
def Assoc.candidatesSearch {sizes : AssocSizes} (a : Assoc sizes) (id : PublicKey)
    (hash : UInt32) : Option sizes.Place :=
  (sizes.places id hash).find? fun place => (a.candidates place).hash = hash ∧
  (a.candidates place).client.publicKey = id

/-! ## Updating entries -/

/-- `entry_assoc`: `true` for the address of IPv6. -/
def entryAssoc (ipPort : IpPort) : Option Bool :=
  if ipPort.ip.family = afInet then some false else if ipPort.ip.family = afInet6 then some true else none

/-- `entry_heard_get`. -/
def ClientEntry.heard (entry : ClientEntry) (v6 : Bool) : IpPort := if v6 then entry.assocHeard6 else entry.assocHeard4

/-- Write an address that was heard, and when. -/
def ClientEntry.setHeard (entry : ClientEntry) (v6 : Bool) (ippts : Ippts) : ClientEntry :=
  let entry := { entry with heardAt := ippts.timestamp, heardFamily := ippts.ipPort.ip.family.toUInt16 }
  if v6 then { entry with assocHeard6 := ippts.ipPort } else { entry with assocHeard4 := ippts.ipPort }

/-- `entry_heard_store`. -/
def entryHeardStore (now : UInt64) (entry : ClientEntry) (ippts : Ippts) : ClientEntry :=
  if ¬ipportIsset ippts.ipPort then entry
  else
    match entryAssoc ippts.ipPort with
    | none => entry
    | some v6 =>
      let heard := entry.heard v6
      if ipportEqual ippts.ipPort heard then entry
      else if ¬ipportIsset heard then entry.setHeard v6 ippts
      else if lanIp ippts.ipPort.ip ∧ ¬lanIp heard.ip ∧ ¬isTimeout now entry.heardAt candidatesHeardTimeout then entry
      else entry.setHeard v6 ippts

/-- The address of a node that was seen, as it is written to an entry. -/
def seenAssoc (now : UInt64) (ippts : Ippts) (ippRecv : IpPort) (assoc : IpptsPng) : IpptsPng :=
  { assoc with ipPort := ippts.ipPort, timestamp := ippts.timestamp, retIpPort := ippRecv, retTimestamp := now }

/-- Change one address of a node. -/
def ClientData.changeAssoc (client : ClientData) (v6 : Bool) (f : IpptsPng → IpptsPng) : ClientData :=
  if v6 then { client with assoc6 := f client.assoc6 } else { client with assoc4 := f client.assoc4 }

/-- `candidates_update_assoc`. -/
def candidatesUpdateAssoc (now : UInt64) (entry : ClientEntry) (used : Bool) (ipptsSend : Ippts)
    (ippRecv : Option IpPort) : ClientEntry :=
  match entryAssoc ipptsSend.ipPort with
  | none => entry
  | some v6 =>
    let entry := if used then { entry with usedAt := now } else entry
    match ippRecv with
    | some ippRecv =>
      { entry with
        client := entry.client.changeAssoc v6 (seenAssoc now ipptsSend ippRecv)
        seenAt := now
        seenFamily := ipptsSend.ipPort.ip.family.toUInt16 }
    | none => entryHeardStore now entry ipptsSend

/-! ## Creating entries -/

/-- `NODE_STATUS`. -/
inductive NodeStatus where
  | bad
  | seenbHeardg
  | seeng
  | used
  deriving DecidableEq

/-- What an entry is worth to `candidates_create_internal`. -/
def nodeStatus (now : UInt64) (entry : ClientEntry) : NodeStatus :=
  if ¬isTimeout now entry.usedAt badNodeTimeout then .used
  else if ¬isTimeout now entry.seenAt candidatesSeenTimeout then .seeng
  else if ¬isTimeout now entry.heardAt candidatesHeardTimeout then .seenbHeardg
  else .bad

/-- The statuses that a new entry replaces, the worst first. -/
def replacedStatuses (seen used : Bool) : List NodeStatus :=
  if used then [.bad, .seenbHeardg, .seeng] else if seen then [.bad, .seenbHeardg] else [.bad]

/-- The entry that `candidates_create_new` writes, for an address of IPv4 or IPv6. -/
def newEntry (now : UInt64) (hash : UInt32) (id : PublicKey) (used : Bool) (ipptsSend : Ippts) (ippRecv : Option IpPort)
    (v6 : Bool) :
    ClientEntry :=
  let entry := { ClientEntry.zero with hash := hash, client := { ClientData.zero with publicKey := id } }
  let entry := if used then { entry with usedAt := now } else entry
  match ippRecv.filter ipportIsset with
  | some ippRecv =>
    { entry with
      seenAt := ipptsSend.timestamp
      seenFamily := ipptsSend.ipPort.ip.family.toUInt16
      client := entry.client.changeAssoc v6 (seenAssoc now ipptsSend ippRecv) }
  | none => entry.setHeard v6 ipptsSend

namespace Assoc

variable {sizes : AssocSizes} (a : Assoc sizes)

/-- Write an entry. -/
def setEntry (place : sizes.Place) (entry : ClientEntry) : Assoc sizes :=
  { a with candidates := Function.update a.candidates place entry }

/-- `candidates_create_internal`: the first unused place, or the first one of the worst status that is replaced. -/
def candidatesCreateInternal (now : UInt64) (hash : UInt32) (id : PublicKey) (seen used : Bool) : Option sizes.Place :=
  let places := sizes.places id hash
  match places.find? fun place => (a.candidates place).hash = 0 with
  | some place => some place
  | none =>
    (replacedStatuses seen used).findSome? fun status =>
      places.find? fun place => nodeStatus now (a.candidates place) = status

/-- `candidates_create_new`, with the return value 1 as `true`. The place is cleared before the address is looked at. -/
def candidatesCreateNew (now : UInt64) (hash : UInt32) (id : PublicKey) (used : Bool) (ipptsSend : Ippts)
    (ippRecv : Option IpPort) :
    Bool × Assoc sizes :=
  match a.candidatesCreateInternal now hash id ippRecv.isSome used with
  | none => (false, a)
  | some place =>
    match entryAssoc ipptsSend.ipPort with
    | none => (false, a.setEntry place .zero)
    | some v6 => (true, a.setEntry place (newEntry now hash id used ipptsSend ippRecv v6))

/-- `client_id_self_update`. -/
def clientIdSelfUpdate : Assoc sizes :=
  if a.selfHash ≠ 0 then a
  else if a.selfClientId.toList.all (· = 0) then a
  else
    let hash := idHash sizes.bucketSize a.selfClientId
    let purge (entry : ClientEntry) : ClientEntry :=
      if entry.hash = hash ∧ entry.client.publicKey = a.selfClientId then { entry with hash := 0 } else entry
    { a with
      selfHash := hash
      candidates := fun place =>
        if place ∈ sizes.places a.selfClientId hash then purge (a.candidates place) else a.candidates place }

/-- `Assoc_add_entry`. -/
def assocAddEntry (now : UInt64) (id : PublicKey) (ipptsSend : Ippts) (ippRecv : Option IpPort)
    (used : Bool) : UInt8 × Assoc sizes :=
  let a := a.clientIdSelfUpdate
  if a.selfHash = 0 then (0, a)
  else if ¬ipportIsset ipptsSend.ipPort then (0, a)
  else
    let ippRecv := ippRecv.filter ipportIsset
    let hash := idHash sizes.bucketSize id
    if hash = a.selfHash ∧ id = a.selfClientId then (0, a)
    else
      match a.candidatesSearch id hash with
      | none =>
        let created := a.candidatesCreateNew now hash id used ipptsSend ippRecv
        (if created.1 then 1 else 0, created.2)
      | some place => (2, a.setEntry place (candidatesUpdateAssoc now (a.candidates place) used ipptsSend ippRecv))

end Assoc

/-- `new_Assoc`, in memory that is not cleared. -/
def newAssoc (bits entries : ℕ) (memory : (AssocSizes.trim bits entries).Place → ClientEntry) (publicId : PublicKey) :
    Assoc (AssocSizes.trim bits entries) :=
  Assoc.clientIdSelfUpdate ⟨0, publicId, fun place => { memory place with hash := 0 }⟩

end Toxcore
