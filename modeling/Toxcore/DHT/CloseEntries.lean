import Mathlib.Data.List.ProdSigma
import Toxcore.Data.ExchangeRounds
import Toxcore.DHT.Assoc

/-!
# Close entries of the association cache

`Assoc_get_close_entries` sorts the entries by the first bits of their distance, packed into one number with the index
of the entry, and then goes over the streaks of entries where these bits are the same.

A list of numbers plays the part of the array `dist_list`, and places the part of pointers to entries.
-/

namespace Toxcore

open ByteStrings ExchangeRounds

/-- `DISTANCE_INDEX_DISTANCE_BITS`. -/
abbrev distanceIndexDistanceBits : ℕ := 44

/-- `DISTANCE_INDEX_INDEX_BITS`. -/
def distanceIndexIndexBits : UInt64 := 64 - 44

/-- `DISTANCE_INDEX_INDEX_MASK`. -/
def distanceIndexIndexMask : UInt64 := (1 <<< distanceIndexIndexBits) - 1

/-- `ProtoIPv4`. -/
def protoIPv4 : UInt8 := 1

/-- `ProtoIPv6`. -/
def protoIPv6 : UInt8 := 2

/-- `LANOk`. -/
def lanOk : UInt8 := 4

/-- `Assoc_close_entries`, but for the result. A distance function is `none` where it is NULL, and else applied to its
data. -/
structure AssocCloseEntries where
  wantedId : PublicKey
  flags : UInt8
  distanceRelativeFunc : Option (PublicKey → PublicKey → PublicKey → Ordering)
  distanceAbsoluteFunc : Option (PublicKey → PublicKey → UInt64)
  countGood : UInt8
  count : UInt8

/-! ## Distances -/

/-- The distance of two bytes in `id_distance`: the absolute value of their exclusive or as signed numbers. -/
def byteDistance (idRef idTest : UInt8) : UInt8 := UInt8.ofNat (idRef.toInt8 ^^^ idTest.toInt8).toInt.natAbs

/-- The loop of `id_distance`. -/
def idDistanceLoop : Bytes → Bytes → UInt64 → ℕ → UInt64
  | idRef :: refs, idTest :: tests, retval, bits =>
    if bits > 8 then idDistanceLoop refs tests ((retval <<< 8) ||| (byteDistance idRef idTest).toUInt64) (bits - 8)
    else (retval <<< UInt64.ofNat bits) ||| ((idRef ^^^ idTest) >>> UInt8.ofNat (8 - bits)).toUInt64
  | _, _, retval, _ => retval

/-- `id_distance`. -/
def idDistance (idRef idTest : PublicKey) : UInt64 :=
    idDistanceLoop idRef.toList idTest.toList 0 distanceIndexDistanceBits

/-! ## Distances with indices -/

namespace AssocSizes

variable (sizes : AssocSizes)

/-- The number of entries. -/
def total : ℕ := 2 ^ sizes.bucketBits * sizes.bucketSize

/-- All places, bucket by bucket. -/
def allPlaces : List sizes.Place := List.finRange _ ×ˢ List.finRange _

/-- The index of a place. -/
def index (place : sizes.Place) : UInt32 := UInt32.ofNat (place.1 * sizes.bucketSize + place.2)

/-- The place of an index. -/
def placeAt (index : ℕ) (h : index < sizes.total) : sizes.Place :=
  (⟨index / sizes.bucketSize, (Nat.div_lt_iff_lt_mul sizes.size_prime.pos).mpr h⟩,
    ⟨index % sizes.bucketSize, Nat.mod_lt _ sizes.size_prime.pos⟩)

end AssocSizes

/-- An invalid number in `dist_list`. -/
def indexInvalid (distInd : UInt64) : Bool := distInd &&& distanceIndexIndexMask == distanceIndexIndexMask

/-- The flags admit an address. -/
def admitsAddress (flags : UInt8) (assoc : IpptsPng) : Bool :=
  ipportIsset assoc.ipPort && (flags &&& lanOk != 0 || !lanIp assoc.ipPort.ip)

/-- The flags admit an entry. -/
def admits (flags : UInt8) (entry : ClientEntry) : Bool :=
  entry.hash != 0 && (flags &&& protoIPv4 == 0 || admitsAddress flags entry.client.assoc4) &&
    (flags &&& protoIPv6 == 0 || admitsAddress flags entry.client.assoc6)

/-- An entry counts as good. -/
def goodEntry (now : UInt64) (flags : UInt8) (entry : ClientEntry) : Bool :=
  if flags &&& (protoIPv4 ||| protoIPv6) != 0 then
    !(flags &&& protoIPv4 != 0 && isTimeout now entry.client.assoc4.timestamp badNodeTimeout) &&
      !(flags &&& protoIPv6 != 0 && isTimeout now entry.client.assoc6.timestamp badNodeTimeout)
  else !isTimeout now entry.seenAt badNodeTimeout

/-- The loop that smoothens out streaks, where `streak` has been read already. -/
def smoothen (bubble : List UInt64 → List UInt64) : UInt64 → List UInt64 → List UInt64 → List UInt64
  | _, streak, [] => if streak.length > 1 then bubble streak else streak
  | distPrev, streak, distInd :: rest =>
    if indexInvalid distInd then (if streak.length > 1 then bubble streak else streak) ++ distInd :: rest
    else
      let distCurr := distInd >>> distanceIndexIndexBits
      if distPrev = distCurr then smoothen bubble distPrev (streak ++ [distInd]) rest
      else (if streak.length > 1 then bubble streak else streak) ++ smoothen bubble distCurr [distInd] rest

/-- What the first loop over the sorted list has taken, where `restFrom` is `taken_last + 1`. -/
structure CloseEntriesTaken (sizes : AssocSizes) where
  result : List sizes.Place
  clientQuotaGood : ℕ
  restFrom : ℕ

namespace Assoc

variable {sizes : AssocSizes} (a : Assoc sizes)

/-- `dist_index_entry`. -/
def distIndexEntry (distInd : UInt64) : Option sizes.Place :=
  if indexInvalid distInd then none
  else
    let index := (distInd &&& distanceIndexIndexMask).toUInt32.toNat
    if h : index < sizes.total then
      let place := sizes.placeAt index h
      if (a.candidates place).hash = 0 then none else some place
    else none

/-- `dist_index_id`. -/
def distIndexId (distInd : UInt64) : Option PublicKey := (a.distIndexEntry distInd).map fun place =>
    (a.candidates place).client.publicKey

/-- `dist_index_bubble`, on the part of the list from `first` to `last`. The key of the pivot is not read again after
an exchange. -/
def distIndexBubble (id : PublicKey) (distRelFunc : PublicKey → PublicKey → PublicKey → Ordering) : List UInt64 →
    List UInt64 :=
  rounds fun other pivot =>
    match a.distIndexId pivot, a.distIndexId other with
    | some id1, some id2 => distRelFunc id id1 id2 == .gt
    | _, _ => false

/-- The list `dist_list` before it is sorted. -/
def distList (flags : UInt8) (wantedId : PublicKey) (distanceAbsoluteFunc : PublicKey → PublicKey →
    UInt64) : List UInt64 :=
  sizes.allPlaces.map fun place =>
    if admits flags (a.candidates place) then
      (distanceAbsoluteFunc wantedId (a.candidates place).client.publicKey <<< distanceIndexIndexBits) |||
      (sizes.index place).toUInt64
    else ~~~0

/-- The first loop over the sorted list. -/
def takeGood (now : UInt64) (state : AssocCloseEntries) : List UInt64 → ℕ → CloseEntriesTaken sizes →
    CloseEntriesTaken sizes
  | [], _, taken => taken
  | distInd :: rest, i, taken =>
    if state.count.toNat ≤ taken.result.length ∨ indexInvalid distInd then taken
    else
      match a.distIndexEntry distInd with
      | none => takeGood now state rest (i + 1) taken
      | some place =>
        if state.countGood.toNat ≤ taken.clientQuotaGood then
          takeGood now state rest (i + 1) ⟨taken.result ++ [place], taken.clientQuotaGood, i + 1⟩
        else if ¬goodEntry now state.flags (a.candidates place) then takeGood now state rest (i + 1) taken
        else takeGood now state rest (i + 1) ⟨taken.result ++ [place], taken.clientQuotaGood + 1, i + 1⟩

/-- The second loop over the sorted list. -/
def takeRest (count : ℕ) : List UInt64 → List sizes.Place → List sizes.Place
  | [], result => result
  | distInd :: rest, result =>
    if count ≤ result.length ∨ indexInvalid distInd then result
    else
      match a.distIndexEntry distInd with
      | none => takeRest count rest result
      | some place => takeRest count rest (result ++ [place])

/-- `Assoc_get_close_entries`: the entries that are found, whose number is the return value. -/
def assocGetCloseEntries (now : UInt64) (state : AssocCloseEntries) : List sizes.Place × Assoc sizes :=
  let a := a.clientIdSelfUpdate
  if a.selfHash = 0 then ([], a)
  else
    let distanceRelativeFunc := state.distanceRelativeFunc.getD idClosest
    let distanceAbsoluteFunc := state.distanceAbsoluteFunc.getD idDistance
    let distList := (a.distList state.flags state.wantedId distanceAbsoluteFunc).mergeSort (fun x y => x ≤ y)
    let distList := smoothen (a.distIndexBubble state.wantedId distanceRelativeFunc) (~~~0) [] distList
    let taken := a.takeGood now state distList 0 ⟨[], 0, 0⟩
    (a.takeRest state.count.toNat (distList.drop taken.restFrom) taken.result, a)

end Assoc

end Toxcore
