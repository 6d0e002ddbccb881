import Toxcore.DHT.CloseEntries

/-!
# The closest entries of the association cache

The entries that are found are the closest ones as far as two things go well: entries with a smaller distance in the
first bits are closer, though the bytes are taken for signed numbers; and in a streak, the entries that are closer
than one before them come closer and closer, as each round goes on to compare with an entry that has been exchanged.
-/

namespace Toxcore

open ByteStrings ExchangeRounds List

/-! ## Distances with indices -/

/-- One byte or less after the bits that are there. -/
theorem shiftLeft_or_lt {retval bits total next : ℕ} (hretval : retval < 2 ^ total) (hnext : next < 2 ^ bits)
    (htotal : total + bits ≤ 64) :
    retval <<< bits % 2 ^ 64 ||| next < 2 ^ (total + bits) := by
  have hshift : retval <<< bits < 2 ^ (total + bits) := by
    rw [Nat.shiftLeft_eq, Nat.pow_add]
    exact Nat.mul_lt_mul_of_pos_right hretval (Nat.two_pow_pos bits)
  rw [Nat.mod_eq_of_lt (hshift.trans_le (Nat.pow_le_pow_right (by norm_num) htotal))]
  exact Nat.or_lt_two_pow hshift (hnext.trans_le (Nat.pow_le_pow_right (by norm_num) (Nat.le_add_left bits total)))

/-- The first bits of a distance are a number of so many bits. -/
theorem idDistanceLoop_lt {idRef idTest : Bytes} {retval : UInt64} {bits total : ℕ} (hretval : retval.toNat < 2 ^ total)
    (hbits : 0 < bits) (htotal : total + bits ≤ 64) :
    (idDistanceLoop idRef idTest retval bits).toNat < 2 ^ (total + bits) := by
  induction idRef, idTest, retval, bits using idDistanceLoop.induct generalizing total with
  | case1 idRef refs idTest tests retval bits hmore ih =>
    rw [idDistanceLoop, if_pos hmore]
    have hnext : (retval <<< 8 ||| (byteDistance idRef idTest).toUInt64).toNat < 2 ^ (total + 8) := by
      rw [UInt64.toNat_or, UInt64.toNat_shiftLeft, show (8 : UInt64).toNat % 64 = 8 from rfl]
      exact shiftLeft_or_lt hretval (byteDistance idRef idTest).toNat_lt (by omega)
    have hlt := ih hnext (by omega) (by omega)
    rwa [show total + 8 + (bits - 8) = total + bits by omega] at hlt
  | case2 idRef refs idTest tests retval bits hfew =>
    rw [idDistanceLoop, if_neg hfew, UInt64.toNat_or, UInt64.toNat_shiftLeft]
    have hleft : (UInt64.ofNat bits).toNat % 64 = bits := by
      rw [UInt64.toNat_ofNat', Nat.mod_eq_of_lt (by omega : bits < 2 ^ 64), Nat.mod_eq_of_lt (by omega)]
    rw [hleft]
    refine shiftLeft_or_lt hretval ?_ htotal
    have hright : (UInt8.ofNat (8 - bits)).toNat = 8 - bits := Nat.mod_eq_of_lt (by omega)
    rw [UInt8.toNat_toUInt64, UInt8.toNat_shiftRight, hright, Nat.mod_eq_of_lt (by omega), Nat.shiftRight_eq_div_pow,
      Nat.div_lt_iff_lt_mul (Nat.two_pow_pos _), ← Nat.pow_add, show bits + (8 - bits) = 8 by omega]
    exact (idRef ^^^ idTest).toNat_lt
  | case3 idRef idTest retval bits hempty =>
    rw [idDistanceLoop]
    · exact hretval.trans_le (Nat.pow_le_pow_right (by norm_num) (Nat.le_add_right total bits))
    · exact hempty

/-- The distance fits its bits. -/
theorem idDistance_lt (idRef idTest : PublicKey) : (idDistance idRef idTest).toNat < 2 ^ distanceIndexDistanceBits := by
  have hlt : (idDistance idRef idTest).toNat < 2 ^ (0 + distanceIndexDistanceBits) :=
    idDistanceLoop_lt (by norm_num : (0 : UInt64).toNat < 2 ^ 0)
    (by norm_num : 0 < distanceIndexDistanceBits) (by norm_num)
  rwa [Nat.zero_add] at hlt

variable {dist : UInt64} {index : UInt32} {α : Type*}

/-- A distance and an index in one number. -/
theorem packed_toNat (hdist : dist.toNat < 2 ^ 44) (hindex : index.toNat < 2 ^ 20) :
    ((dist <<< distanceIndexIndexBits) ||| index.toUInt64).toNat = dist.toNat * 2 ^ 20 + index.toNat := by
  rw [UInt64.toNat_or, UInt64.toNat_shiftLeft, UInt32.toNat_toUInt64, show distanceIndexIndexBits.toNat % 64 =
    20 from rfl,
    Nat.mod_eq_of_lt (by rw [Nat.shiftLeft_eq]; omega), ← Nat.shiftLeft_add_eq_or_of_lt hindex, Nat.shiftLeft_eq]

/-- The distance of such a number. -/
theorem packed_shiftRight (hdist : dist.toNat < 2 ^ 44) (hindex : index.toNat < 2 ^ 20) :
    ((dist <<< distanceIndexIndexBits) ||| index.toUInt64) >>> distanceIndexIndexBits = dist := by
  rw [← UInt64.toNat_inj, UInt64.toNat_shiftRight, packed_toNat hdist hindex, show distanceIndexIndexBits.toNat % 64 =
    20 from rfl,
    Nat.shiftRight_eq_div_pow]
  omega

/-- The index of such a number. -/
theorem packed_and (hdist : dist.toNat < 2 ^ 44) (hindex : index.toNat < 2 ^ 20) :
    (((dist <<< distanceIndexIndexBits) ||| index.toUInt64) &&& distanceIndexIndexMask).toNat = index.toNat := by
  rw [UInt64.toNat_and, packed_toNat hdist hindex, show distanceIndexIndexMask.toNat = 2 ^ 20 - 1 from rfl,
    Nat.and_two_pow_sub_one_eq_mod]
  omega

/-! ## Places -/

namespace AssocSizes

variable {sizes : AssocSizes}

variable (place : sizes.Place)

/-- Every place has an index in the table. -/
theorem index_lt_total : place.1 * sizes.bucketSize + place.2 < sizes.total := by
  have hbucket : (place.1.val + 1) * sizes.bucketSize ≤ sizes.total := Nat.mul_le_mul_right _ place.1.isLt
  have hpos := place.2.isLt
  rw [Nat.add_mul, Nat.one_mul] at hbucket
  omega

theorem index_toNat (htotal : sizes.total < 2 ^ 20 - 1) (place : sizes.Place) :
    (sizes.index place).toNat = place.1 * sizes.bucketSize + place.2 := by
  have hlt := index_lt_total place
  rw [index, UInt32.toNat_ofNat']
  exact Nat.mod_eq_of_lt (by omega)

/-- The place of the index of a place. -/
theorem placeAt_index : sizes.placeAt _ (index_lt_total place) = place := by
  refine Prod.ext (Fin.ext ?_) (Fin.ext ?_)
  · change (place.1 * sizes.bucketSize + place.2) / sizes.bucketSize = place.1
    rw [Nat.mul_comm, Nat.mul_add_div sizes.size_prime.pos, Nat.div_eq_of_lt place.2.isLt, Nat.add_zero]
  · change (place.1 * sizes.bucketSize + place.2) % sizes.bucketSize = place.2
    rw [Nat.mul_comm, Nat.mul_add_mod, Nat.mod_eq_of_lt place.2.isLt]

/-- All places are listed. -/
theorem mem_allPlaces : place ∈ sizes.allPlaces :=
  mem_product.mpr ⟨mem_finRange _, mem_finRange _⟩

/-- The indices go up along the table. -/
theorem allPlaces_pairwise :
    sizes.allPlaces.Pairwise fun p q => p.1 * sizes.bucketSize + p.2 < q.1 * sizes.bucketSize + q.2 := by
  have hsorted (n : ℕ) : (List.finRange n).Pairwise (· < ·) := pairwise_lt_finRange n
  rw [allPlaces]
  refine pairwise_flatMap.mpr ⟨fun bucket _ => ?_, (hsorted _).imp fun {b c} hlt p hp q hq => ?_⟩
  · exact pairwise_map.mpr ((hsorted _).imp fun hlt => Nat.add_lt_add_left hlt _)
  · obtain ⟨i, -, rfl⟩ := mem_map.mp hp
    obtain ⟨k, -, rfl⟩ := mem_map.mp hq
    have hnext : (b.val + 1) * sizes.bucketSize ≤ c * sizes.bucketSize := Nat.mul_le_mul_right _ hlt
    have hpos := i.isLt
    rw [Nat.add_mul, Nat.one_mul] at hnext
    dsimp only
    omega

/-- No place is listed twice. -/
theorem allPlaces_nodup : sizes.allPlaces.Nodup := by
  refine allPlaces_pairwise.imp fun {p q} hlt hsame => ?_
  rw [hsame] at hlt
  exact lt_irrefl _ hlt

end AssocSizes

theorem indexInvalid_not : indexInvalid (~~~0) = true := by decide

/-! ## The sorted list -/

variable (f : α → UInt64)

theorem le_trans_by (x y z : α) (hxy : decide (f x ≤ f y) = true) (hyz : decide (f y ≤ f z) = true) :
    decide (f x ≤ f z) = true := decide_eq_true (UInt64.le_trans (of_decide_eq_true hxy) (of_decide_eq_true hyz))

theorem le_total_by (x y : α) : (decide (f x ≤ f y) || decide (f y ≤ f x)) = true := by
  rw [Bool.or_eq_true]
  exact (UInt64.le_total (f x) (f y)).imp decide_eq_true decide_eq_true

/-- Sorting by a number. -/
theorem pairwise_mergeSort_le (l : List α) : (l.mergeSort fun x y => f x ≤ f y).Pairwise (f · ≤ f ·) :=
  (pairwise_mergeSort (le_trans_by f) (le_total_by f) l).imp of_decide_eq_true

/-- What is in order already stays so. -/
theorem sublist_mergeSort_le {l m : List α} (hm : m.Pairwise (f · ≤ f ·)) (hl : m.Sublist l) :
    m.Sublist (l.mergeSort fun x y => f x ≤ f y) :=
  sublist_mergeSort (le_trans_by f) (le_total_by f) (hm.imp decide_eq_true) hl

namespace Assoc

variable {sizes : AssocSizes} (a : Assoc sizes)

/-- The key at a place. -/
def idAt (place : sizes.Place) : PublicKey := (a.candidates place).client.publicKey

/-- The stored entries that are admitted by the flags, in the order of the table. -/
def admittedPlaces (flags : UInt8) : List sizes.Place := sizes.allPlaces.filter fun place =>
    admits flags (a.candidates place)

/-- The distance of an entry with its index. -/
def distInd (wantedId : PublicKey) (place : sizes.Place) : UInt64 :=
  (idDistance wantedId (a.idAt place) <<< distanceIndexIndexBits) ||| (sizes.index place).toUInt64

/-- The places in the sorted list. -/
def sortedPlaces (flags : UInt8) (wantedId : PublicKey) : List sizes.Place :=
  (a.admittedPlaces flags).mergeSort fun p q => a.distInd wantedId p ≤ a.distInd wantedId q

variable {a}

/-- An admitted entry has a hash. -/
theorem hash_of_admits {flags : UInt8} {entry : ClientEntry} (h : admits flags entry = true) : entry.hash ≠ 0 := by
  rw [admits, Bool.and_eq_true, Bool.and_eq_true, bne_iff_ne] at h
  exact h.1.1

variable {place : sizes.Place}

/-- The places of the admitted entries. -/
theorem mem_admittedPlaces {flags : UInt8} :
    place ∈ a.admittedPlaces flags ↔ admits flags (a.candidates place) = true := by
  rw [admittedPlaces, mem_filter]
  exact and_iff_right (AssocSizes.mem_allPlaces place)

/-- After sorting, the numbers of the admitted entries come first, and then the invalid ones. -/
theorem distList_mergeSort (flags : UInt8) (wantedId : PublicKey) :
    ∃ n, (a.distList flags wantedId idDistance).mergeSort (fun x y => x ≤ y) =
      (a.sortedPlaces flags wantedId).map (a.distInd wantedId) ++ List.replicate n (~~~0) := by
  let others := sizes.allPlaces.filter fun place => !admits flags (a.candidates place)
  have hsorted : ((a.distList flags wantedId idDistance).mergeSort fun x y => x ≤ y).Pairwise (· ≤ ·) :=
    pairwise_mergeSort_le (fun x => x) _
  have hperm : ((a.distList flags wantedId idDistance).mergeSort fun x y => x ≤ y).Perm
      ((a.sortedPlaces flags wantedId).map (a.distInd wantedId) ++ List.replicate others.length (~~~0)) := by
    refine (mergeSort_perm ..).trans ?_
    have hadmitted :
      (a.admittedPlaces flags).map (fun place =>
        if admits flags (a.candidates place) then a.distInd wantedId place else ~~~0) =
        (a.admittedPlaces flags).map (a.distInd wantedId) :=
      map_congr_left fun place hplace => if_pos (mem_admittedPlaces.mp hplace)
    have hothers :
      others.map (fun place => if admits flags (a.candidates place) then a.distInd wantedId place else ~~~0) =
        List.replicate others.length (~~~0) := by
      refine eq_replicate_iff.mpr ⟨length_map .., fun x hx => ?_⟩
      obtain ⟨place, hplace, rfl⟩ := mem_map.mp hx
      rw [mem_filter, Bool.not_eq_true'] at hplace
      exact if_neg (by rw [hplace.2]; exact Bool.false_ne_true)
    have hsplit := (filter_append_perm (fun place => admits flags (a.candidates place)) sizes.allPlaces).map
      fun place => if admits flags (a.candidates place) then a.distInd wantedId place else ~~~0
    rw [map_append] at hsplit
    refine hsplit.symm.trans ?_
    exact .append (.trans (.of_eq hadmitted) ((mergeSort_perm ..).map _).symm) (.of_eq hothers)
  have hle (x : UInt64) : x ≤ ~~~0 := by
    have hlt := x.toNat_lt
    rw [UInt64.le_iff_toNat_le, show (~~~0 : UInt64).toNat = 2 ^ 64 - 1 from rfl]
    omega
  refine ⟨others.length, hperm.eq_of_pairwise (fun x y _ _ hxy hyx => UInt64.le_antisymm hxy hyx) hsorted ?_⟩
  refine pairwise_append.mpr ⟨pairwise_map.mpr (pairwise_mergeSort_le (a.distInd wantedId) _), ?_,
    fun x _ y hy => ?_⟩
  · exact pairwise_replicate.mpr (.inr (hle _))
  · rw [eq_of_mem_replicate hy]
    exact hle x

section Total

variable (htotal : sizes.total < 2 ^ 20 - 1)
include htotal

theorem index_lt (place : sizes.Place) : (sizes.index place).toNat < 2 ^ 20 - 1 := by
  rw [AssocSizes.index_toNat htotal]
  exact (AssocSizes.index_lt_total place).trans htotal

variable (wantedId : PublicKey)

/-- A distance with an index behind it. -/
theorem distInd_toNat (place : sizes.Place) : (a.distInd wantedId place).toNat =
    (idDistance wantedId (a.idAt place)).toNat * 2 ^ 20 + (place.1 * sizes.bucketSize + place.2) := by
  rw [distInd, packed_toNat (idDistance_lt ..) ((index_lt htotal place).trans_le (Nat.sub_le ..)),
    AssocSizes.index_toNat htotal]

theorem distInd_shiftRight (place : sizes.Place) :
    a.distInd wantedId place >>> distanceIndexIndexBits = idDistance wantedId (a.idAt place) :=
  packed_shiftRight (idDistance_lt ..) ((index_lt htotal place).trans_le (Nat.sub_le ..))

theorem distInd_and (place : sizes.Place) :
    (a.distInd wantedId place &&& distanceIndexIndexMask).toNat = (sizes.index place).toNat :=
  packed_and (idDistance_lt ..) ((index_lt htotal place).trans_le (Nat.sub_le ..))

theorem indexInvalid_distInd (place : sizes.Place) : indexInvalid (a.distInd wantedId place) = false := by
  have hne : a.distInd wantedId place &&& distanceIndexIndexMask ≠ distanceIndexIndexMask := by
    intro hsame
    have hindex := distInd_and (a := a) htotal wantedId place
    rw [hsame] at hindex
    exact (index_lt htotal place).ne hindex.symm
  exact beq_eq_false_iff_ne.mpr hne

/-- The entry of a number is the one that it was made of. -/
theorem distIndexEntry_distInd (hplace : (a.candidates place).hash ≠ 0) :
    a.distIndexEntry (a.distInd wantedId place) = some place := by
  have hindex :
    (a.distInd wantedId place &&& distanceIndexIndexMask).toUInt32.toNat = place.1 * sizes.bucketSize + place.2 := by
    have hlt := index_lt htotal place
    rw [UInt64.toNat_toUInt32, distInd_and htotal, Nat.mod_eq_of_lt (hlt.trans (by norm_num)),
      AssocSizes.index_toNat htotal]
  rw [distIndexEntry, if_neg (by rw [indexInvalid_distInd htotal]; exact Bool.false_ne_true)]
  simp only [hindex, AssocSizes.index_lt_total, dite_true, AssocSizes.placeAt_index, hplace, if_false]

/-- The id is read back from the index. -/
theorem distIndexId_distInd (hplace : (a.candidates place).hash ≠ 0) :
    a.distIndexId (a.distInd wantedId place) = some (a.idAt place) := by
  rw [distIndexId, distIndexEntry_distInd htotal wantedId hplace]
  rfl

/-! ## Streaks -/

/-- The list of places after the streaks have been gone over. -/
def smoothPlaces (a : Assoc sizes) (flags : UInt8) (wantedId : PublicKey) : List sizes.Place :=
  mapRuns (fun place => (idDistance wantedId (a.idAt place)).toNat)
    (rounds fun p q => xorDistance wantedId (a.idAt p) < xorDistance wantedId (a.idAt q)) (~~~0 : UInt64).toNat []
    (a.sortedPlaces flags wantedId)

/-- `dist_index_bubble` on the numbers of entries, where only one entry has nothing to be exchanged with. -/
theorem distIndexBubble_map {streak : List sizes.Place} (hstreak : ∀ place ∈ streak, (a.candidates place).hash ≠ 0) :
    (if (streak.map (a.distInd wantedId)).length > 1 then a.distIndexBubble wantedId idClosest
      (streak.map (a.distInd wantedId))
      else streak.map (a.distInd wantedId)) =
      (rounds (fun p q =>
        xorDistance wantedId (a.idAt p) < xorDistance wantedId (a.idAt q)) streak).map (a.distInd wantedId) := by
  have hrounds : a.distIndexBubble wantedId idClosest (streak.map (a.distInd wantedId)) =
      (rounds (fun p q =>
        xorDistance wantedId (a.idAt p) < xorDistance wantedId (a.idAt q)) streak).map (a.distInd wantedId) := by
    refine rounds_map _ fun p hp q hq => ?_
    rw [distIndexId_distInd htotal wantedId (hstreak p hp), distIndexId_distInd htotal wantedId (hstreak q hq)]
    exact Bool.eq_iff_iff.mpr (by rw [beq_iff_eq, idClosest_eq_gt, decide_eq_true_iff])
  by_cases hlong : (streak.map (a.distInd wantedId)).length > 1
  · rw [if_pos hlong, hrounds]
  · rw [if_neg hlong]
    rcases streak with _ | ⟨place, _ | ⟨other, rest⟩⟩
    · rw [rounds_nil]
    · rw [rounds_cons, exchange, rounds_nil]
    · exact absurd (Nat.le_add_left 2 _) hlong

variable {l : List sizes.Place}

/-- The streaks of the sorted list are the runs of entries with the same distance in the first bits. -/
theorem smoothen_map {prev : UInt64} {streak : List sizes.Place} (n : ℕ)
    (hstreak : ∀ place ∈ streak, (a.candidates place).hash ≠ 0) (hl : ∀ place ∈ l, (a.candidates place).hash ≠ 0) :
    smoothen (a.distIndexBubble wantedId idClosest) prev (streak.map (a.distInd wantedId))
        (l.map (a.distInd wantedId) ++ List.replicate n (~~~0)) =
      (mapRuns (fun place => (idDistance wantedId (a.idAt place)).toNat)
        (rounds fun p q =>
          xorDistance wantedId (a.idAt p) <
            xorDistance wantedId (a.idAt q)) prev.toNat streak l).map (a.distInd wantedId) ++
        List.replicate n (~~~0) := by
  induction l generalizing prev streak with
  | nil =>
    rw [mapRuns, ← distIndexBubble_map htotal wantedId hstreak, map_nil, nil_append]
    cases n with
    | zero => rw [replicate_zero, smoothen, append_nil]
    | succ n => rw [replicate_succ, smoothen, if_pos indexInvalid_not]
  | cons place rest ih =>
    rw [forall_mem_cons] at hl
    rw [map_cons, cons_append, smoothen, if_neg (by rw [indexInvalid_distInd htotal]; exact Bool.false_ne_true),
      distInd_shiftRight htotal, mapRuns]
    dsimp only
    by_cases hsame : prev = idDistance wantedId (a.idAt place)
    · have hnext : ∀ p ∈ streak ++ [place], (a.candidates p).hash ≠ 0 := by
        intro p hp
        rcases mem_append.mp hp with hread | hnew
        · exact hstreak p hread
        · exact mem_singleton.mp hnew ▸ hl.1
      rw [if_pos hsame, if_pos (congrArg UInt64.toNat hsame), ← ih hnext hl.2, map_append]
      rfl
    · rw [if_neg hsame, if_neg fun hno => hsame (UInt64.toNat_inj.mp hno), distIndexBubble_map htotal wantedId hstreak,
        map_append,
        append_assoc, ← ih (fun p hp => mem_singleton.mp hp ▸ hl.1) hl.2]
      rfl

/-! ## Taking entries -/

/-- If no entry has to be good, the first loop takes one after the other. -/
theorem takeGood_map (now : UInt64) {state : AssocCloseEntries} (hgood : state.countGood = 0) (wantedId : PublicKey)
    {result : List sizes.Place} (n i : ℕ) (hl : ∀ place ∈ l, (a.candidates place).hash ≠ 0) :
    a.takeGood now state (l.map (a.distInd wantedId) ++ List.replicate n (~~~0)) i ⟨result, 0, i⟩ =
      ⟨result ++ l.take (state.count.toNat - result.length), 0,
        i + (l.take (state.count.toNat - result.length)).length⟩ := by
  induction l generalizing result i with
  | nil =>
    rw [take_nil, append_nil, map_nil, nil_append]
    cases n with
    | zero => rfl
    | succ n => rw [replicate_succ, takeGood, if_pos (.inr indexInvalid_not)]; rfl
  | cons place rest ih =>
    rw [forall_mem_cons] at hl
    rw [map_cons, cons_append, takeGood]
    by_cases hfull : state.count.toNat ≤ result.length
    · rw [if_pos (.inl hfull), Nat.sub_eq_zero_of_le hfull, take_zero, append_nil]
      rfl
    · have hnext : state.count.toNat - result.length = state.count.toNat - (result ++ [place]).length + 1 := by
        rw [length_append, length_singleton]
        omega
      rw [if_neg (by rw [indexInvalid_distInd htotal]; exact not_or.mpr ⟨hfull, Bool.false_ne_true⟩),
        distIndexEntry_distInd htotal wantedId hl.1]
      dsimp only
      rw [if_pos (by rw [hgood]; exact le_rfl), ih (i + 1) hl.2, hnext, take_succ_cons, length_cons,
        append_assoc,
        singleton_append, Nat.add_assoc, Nat.add_comm 1]

omit htotal in
/-- There is nothing left for the second loop. -/
theorem takeRest_drop (count n : ℕ) (l : List sizes.Place) :
    a.takeRest count ((l.map (a.distInd wantedId) ++ List.replicate n (~~~0)).drop (l.take count).length)
      (l.take count) = l.take count := by
  by_cases hfew : l.length < count
  · rw [take_of_length_le hfew.le, drop_left' (length_map ..)]
    cases n with
    | zero => rfl
    | succ n => rw [replicate_succ, takeRest, if_pos (.inr indexInvalid_not)]
  · have hfull : count ≤ (l.take count).length := by
      rw [length_take]
      omega
    cases (l.map (a.distInd wantedId) ++ List.replicate n (~~~0)).drop (l.take count).length with
    | nil => rfl
    | cons distInd rest => rw [takeRest, if_pos (.inl hfull)]

/-! ## The closest entries -/

/-- The entries that `Assoc_get_close_entries` finds with the default distance functions, where none has to be good. -/
def closeEntries (a : Assoc sizes) (now : UInt64) (wantedId : PublicKey) (flags count : UInt8) : List sizes.Place :=
  (a.assocGetCloseEntries now ⟨wantedId, flags, none, none, 0, count⟩).1

/-- What is promised of entries that are found: they are as many as there are and as are asked for, they are stored
and admitted, distinct and in the order of their distances, and no other one is closer. -/
structure ClosestFound (a : Assoc sizes) (wantedId : PublicKey) (flags count : UInt8) (found : List sizes.Place) :
    Prop where
  length : found.length = min count.toNat (a.admittedPlaces flags).length
  admitted : ∀ place ∈ found, place ∈ a.admittedPlaces flags
  distinct : found.Nodup
  ordered : found.Pairwise fun p q => idClosest wantedId (a.idAt p) (a.idAt q) ≠ .gt
  closest : ∀ p ∈ found, ∀ q ∈ a.admittedPlaces flags, q ∉ found → idClosest wantedId (a.idAt q) (a.idAt p) ≠ .lt

/-- There is nothing to be found, or the hash of our own key is set; and the admitted entries are such that in each
streak that is reached, in the order of the table, those that are closer than one before them come closer and closer,
and that no entry that is asked for is farther than one with greater first bits of the distance. -/
structure StreaksInOrder (a : Assoc sizes) (wantedId : PublicKey) (flags count : UInt8) : Prop where
  set : a.selfHash ≠ 0 ∨ count = 0 ∨ a.admittedPlaces flags = []
  streaks : ∀ v, (a.admittedPlaces flags).countP (fun place => (idDistance wantedId (a.idAt place)).toNat < v) <
    count.toNat →
    DescendsBelow (fun place => xorDistance wantedId (a.idAt place))
      ((a.admittedPlaces flags).filter fun place => (idDistance wantedId (a.idAt place)).toNat = v)
  distances : ∀ p ∈ a.admittedPlaces flags, ∀ q ∈ a.admittedPlaces flags,
    (idDistance wantedId (a.idAt p)).toNat < (idDistance wantedId (a.idAt q)).toNat →
    (a.admittedPlaces flags).countP (fun c =>
      (idDistance wantedId (a.idAt c)).toNat < (idDistance wantedId (a.idAt p)).toNat ∨
      (idDistance wantedId (a.idAt c)).toNat = (idDistance wantedId (a.idAt p)).toNat ∧
        xorDistance wantedId (a.idAt c) < xorDistance wantedId (a.idAt p)) < count.toNat →
    xorDistance wantedId (a.idAt p) ≤ xorDistance wantedId (a.idAt q)

variable (flags : UInt8)

omit htotal in
/-- No entry is listed twice. -/
theorem admittedPlaces_nodup : (a.admittedPlaces flags).Nodup := AssocSizes.allPlaces_nodup.filter _

/-- The entries are sorted by the first bits of their distance. -/
theorem sortedPlaces_pairwise (wantedId : PublicKey) : (a.sortedPlaces flags wantedId).Pairwise fun p q =>
    (idDistance wantedId (a.idAt p)).toNat ≤ (idDistance wantedId (a.idAt q)).toNat := by
  refine (pairwise_mergeSort_le (a.distInd wantedId) _).imp fun {p q} hle => ?_
  have hp := AssocSizes.index_lt_total p
  have hq := AssocSizes.index_lt_total q
  rw [UInt64.le_iff_toNat_le, distInd_toNat htotal, distInd_toNat htotal] at hle
  omega

/-- Entries with the same first bits of the distance are in the order of the table. -/
theorem sortedPlaces_filter (wantedId : PublicKey) (v : ℕ) :
    (a.sortedPlaces flags wantedId).filter (fun place => (idDistance wantedId (a.idAt place)).toNat = v) =
      (a.admittedPlaces flags).filter fun place => (idDistance wantedId (a.idAt place)).toNat = v := by
  have hpairwise :
    ((a.admittedPlaces flags).filter fun place => (idDistance wantedId (a.idAt place)).toNat = v).Pairwise
      fun p q => a.distInd wantedId p ≤ a.distInd wantedId q := by
    have htable : sizes.allPlaces.Pairwise _ := AssocSizes.allPlaces_pairwise
    have hindex := htable.sublist
      ((filter_sublist (p := fun place => (idDistance wantedId (a.idAt place)).toNat = v)).trans
        (filter_sublist (p := fun place => admits flags (a.candidates place))))
    refine hindex.imp_of_mem fun {p q} hp hq hlt => ?_
    have hdistp := of_decide_eq_true (mem_filter.mp hp).2
    have hdistq := of_decide_eq_true (mem_filter.mp hq).2
    rw [UInt64.le_iff_toNat_le, distInd_toNat htotal, distInd_toNat htotal, hdistp, hdistq]
    omega
  have hsublist := (sublist_mergeSort_le (a.distInd wantedId) hpairwise filter_sublist).filter
    fun place => (idDistance wantedId (a.idAt place)).toNat = v
  rw [filter_filter] at hsublist
  simp only [Bool.and_self] at hsublist
  exact (hsublist.eq_of_length ((mergeSort_perm ..).symm.filter _).length_eq).symm

omit htotal in
/-- Nothing is lost in the streaks. -/
theorem smoothPlaces_perm (wantedId : PublicKey) : (a.smoothPlaces flags wantedId).Perm (a.admittedPlaces flags) :=
  (mapRuns_perm (rounds_perm _) _ [] _).trans (mergeSort_perm ..)

/-- The sorted list after the streaks have been gone over. -/
theorem smoothen_distList (wantedId : PublicKey) :
    ∃ n, smoothen (a.distIndexBubble wantedId idClosest) (~~~0) []
        ((a.distList flags wantedId idDistance).mergeSort fun x y => x ≤ y) =
      (a.smoothPlaces flags wantedId).map (a.distInd wantedId) ++ List.replicate n (~~~0) := by
  obtain ⟨n, hsorted⟩ := a.distList_mergeSort flags wantedId
  have hhash (place : sizes.Place) (hplace : place ∈ a.sortedPlaces flags wantedId) : (a.candidates place).hash ≠ 0 :=
    hash_of_admits (mem_admittedPlaces.mp ((mergeSort_perm ..).subset hplace))
  refine ⟨n, ?_⟩
  rw [hsorted]
  exact smoothen_map htotal wantedId n (fun _ hno => absurd hno not_mem_nil) hhash

/-- Both loops together take the first entries. -/
theorem take_map (now : UInt64) (wantedId : PublicKey) (flags count : UInt8) (n : ℕ)
    (hl : ∀ place ∈ l, (a.candidates place).hash ≠ 0) :
    let list := l.map (a.distInd wantedId) ++ List.replicate n (~~~0)
    let taken := a.takeGood now ⟨wantedId, flags, none, none, 0, count⟩ list 0 ⟨[], 0, 0⟩
    a.takeRest count.toNat (list.drop taken.restFrom) taken.result = l.take count.toNat := by
  intro list taken
  have htaken : taken = ⟨[] ++ l.take count.toNat, 0, 0 + (l.take count.toNat).length⟩ :=
    takeGood_map htotal now rfl wantedId n 0 hl
  rw [htaken, nil_append, Nat.zero_add]
  exact takeRest_drop wantedId count.toNat n l

/-- The entries that are found are the first ones of the list after the streaks have been gone over. -/
theorem closeEntries_eq {now : UInt64} {wantedId : PublicKey} {flags count : UInt8}
    (hset : a.clientIdSelfUpdate.selfHash ≠ 0) :
    a.closeEntries now wantedId flags count = (a.clientIdSelfUpdate.smoothPlaces flags wantedId).take count.toNat := by
  obtain ⟨n, hsmooth⟩ := smoothen_distList (a := a.clientIdSelfUpdate) htotal flags wantedId
  rw [closeEntries, assocGetCloseEntries, if_neg hset]
  dsimp only [Option.getD_none]
  rw [hsmooth]
  refine take_map htotal now wantedId flags count n fun place hplace => ?_
  exact hash_of_admits (mem_admittedPlaces.mp ((smoothPlaces_perm ..).subset hplace))

omit htotal in
/-- The first entries are the closest ones if and only if each of them is closest among it and those after it. -/
theorem closestFound_take (count : UInt8) :
    a.ClosestFound wantedId flags count ((a.smoothPlaces flags wantedId).take count.toNat) ↔
      LeastFirst (fun place => xorDistance wantedId (a.idAt place)) count.toNat (a.smoothPlaces flags wantedId) := by
  have hperm := smoothPlaces_perm (a := a) flags wantedId
  have hnodup : (a.smoothPlaces flags wantedId).Nodup := hperm.nodup_iff.mpr (admittedPlaces_nodup flags)
  have hle (p q : sizes.Place) : idClosest wantedId (a.idAt p) (a.idAt q) ≠ .gt ↔
      xorDistance wantedId (a.idAt p) ≤ xorDistance wantedId (a.idAt q) := by
    rw [ne_eq, idClosest_eq_gt, Nat.not_lt]
  have hlt (p q : sizes.Place) : idClosest wantedId (a.idAt q) (a.idAt p) ≠ .lt ↔
      xorDistance wantedId (a.idAt p) ≤ xorDistance wantedId (a.idAt q) := by
    rw [ne_eq, idClosest_eq_compare, Nat.compare_eq_lt, Nat.not_lt]
  rw [leastFirst_iff]
  refine ⟨fun h => ⟨h.ordered.imp (hle _ _).mp, fun p hp q hq => ?_⟩, fun h =>
    ⟨?_, fun p hp => ?_, hnodup.sublist (take_sublist ..), ?_,
    fun p hp q hq hnot => ?_⟩⟩
  · refine (hlt p q).mp (h.closest p hp q (hperm.subset (mem_of_mem_drop hq)) fun htaken => ?_)
    have hsplit := take_append_drop count.toNat (a.smoothPlaces flags wantedId)
    rw [← hsplit] at hnodup
    exact disjoint_of_nodup_append hnodup htaken hq
  · rw [length_take, hperm.length_eq]
  · exact hperm.subset (mem_of_mem_take hp)
  · exact h.1.imp (hle _ _).mpr
  · have hall := hperm.symm.subset hq
    rw [← take_append_drop count.toNat (a.smoothPlaces flags wantedId)] at hall
    exact (hlt p q).mpr (h.2 p hp q ((mem_append.mp hall).resolve_left hnot))

/-- The list after the streaks have been gone over has the closest entries first if and only if the streaks are in
order. -/
theorem leastFirst_smoothPlaces (n : ℕ) :
    LeastFirst (fun place => xorDistance wantedId (a.idAt place)) n (a.smoothPlaces flags wantedId) ↔
      RunsInOrder (fun place => (idDistance wantedId (a.idAt place)).toNat) (fun place =>
        xorDistance wantedId (a.idAt place)) n
        (a.admittedPlaces flags) := by
  have hprev (place : sizes.Place) : (~~~0 : UInt64).toNat ≠ (idDistance wantedId (a.idAt place)).toNat :=
    ((idDistance_lt ..).trans (by norm_num : 2 ^ distanceIndexDistanceBits < 2 ^ 64 - 1)).ne'
  rw [smoothPlaces, leastFirst_mapRuns_nil (fun place _ => hprev place) (sortedPlaces_pairwise htotal ..)]
  exact runsInOrder_congr (mergeSort_perm ..) (sortedPlaces_filter htotal flags wantedId)

omit htotal in
/-- Nothing is what is found where there is nothing to be found. -/
theorem closestFound_nil (count : UInt8) :
    a.ClosestFound wantedId flags count [] ↔ count = 0 ∨ a.admittedPlaces flags = [] := by
  refine ⟨fun h => ?_, fun h => ⟨?_, nofun, .nil, .nil, nofun⟩⟩
  · have hlength := h.length
    rw [length_nil] at hlength
    rw [← UInt8.toNat_inj, ← length_eq_zero_iff, UInt8.toNat_zero]
    omega
  · rcases h with rfl | hempty
    · exact (Nat.zero_min _).symm
    · rw [hempty]
      exact (Nat.min_zero _).symm

/-- With the hash of our own key set, the entries that are found are the closest ones if and only if the rounds go
well. -/
theorem closeEntries_runsInOrder {now : UInt64} {wantedId : PublicKey} {flags count : UInt8}
    (hset : a.clientIdSelfUpdate.selfHash ≠ 0) :
    a.clientIdSelfUpdate.ClosestFound wantedId flags count (a.closeEntries now wantedId flags count) ↔
      RunsInOrder (fun place => (idDistance wantedId (a.clientIdSelfUpdate.idAt place)).toNat)
        (fun place => xorDistance wantedId (a.clientIdSelfUpdate.idAt place)) count.toNat
        (a.clientIdSelfUpdate.admittedPlaces flags) := by
  rw [closeEntries_eq htotal hset, closestFound_take, leastFirst_smoothPlaces htotal]

/-- The entries that are found are the closest ones if the streaks are in order; and where all entries are asked for
and no key is stored twice, only then. -/
theorem closeEntries_closest_iff (a : Assoc sizes) (now : UInt64) (wantedId : PublicKey) (flags count : UInt8) :
    (a.clientIdSelfUpdate.StreaksInOrder wantedId flags count →
      a.clientIdSelfUpdate.ClosestFound wantedId flags count (a.closeEntries now wantedId flags count)) ∧
    ((∀ p ∈ a.clientIdSelfUpdate.admittedPlaces flags, ∀ q ∈ a.clientIdSelfUpdate.admittedPlaces flags,
        a.clientIdSelfUpdate.idAt p = a.clientIdSelfUpdate.idAt q → p = q) →
      (a.clientIdSelfUpdate.admittedPlaces flags).length ≤ count.toNat →
      (a.clientIdSelfUpdate.ClosestFound wantedId flags count (a.closeEntries now wantedId flags count) ↔
        a.clientIdSelfUpdate.StreaksInOrder wantedId flags count)) := by
  have hnothing (hset : a.clientIdSelfUpdate.selfHash = 0) : a.closeEntries now wantedId flags count = [] := by
    rw [closeEntries, assocGetCloseEntries, if_pos hset]
  have henough (h : a.clientIdSelfUpdate.StreaksInOrder wantedId flags count) :
      a.clientIdSelfUpdate.ClosestFound wantedId flags count (a.closeEntries now wantedId flags count) := by
    by_cases hset : a.clientIdSelfUpdate.selfHash = 0
    · rw [hnothing hset, closestFound_nil]
      exact h.set.resolve_left (not_not.mpr hset)
    · exact (closeEntries_runsInOrder htotal hset).mpr (.of_descendsBelow h.streaks h.distances)
  refine ⟨henough, fun hdistinct hcount => ⟨fun h => ?_, henough⟩⟩
  by_cases hset : a.clientIdSelfUpdate.selfHash = 0
  · rw [hnothing hset, closestFound_nil] at h
    rcases h with rfl | hempty
    · exact ⟨.inr (.inl rfl), fun _ hno => absurd hno (Nat.not_lt_zero _), fun _ _ _ _ _ hno =>
        absurd hno (Nat.not_lt_zero _)⟩
    · refine ⟨.inr (.inr hempty), fun v _ => ?_, fun p hp => ?_⟩
      · rw [hempty]
        trivial
      · rw [hempty] at hp
        exact absurd hp not_mem_nil
  · have hnodup : ((a.clientIdSelfUpdate.admittedPlaces flags).map fun place =>
        xorDistance wantedId (a.clientIdSelfUpdate.idAt place)).Nodup :=
      List.Nodup.map_on (fun p hp q hq hsame => hdistinct p hp q hq (xorDistance_injective wantedId hsame))
        (admittedPlaces_nodup flags)
    have hruns := (closeEntries_runsInOrder htotal hset).mp h
    exact ⟨.inl hset, fun v _ => ((runsInOrder_iff hnodup hcount).mp hruns).1 v, hruns.2⟩

end Total

/-- Three nodes with the same first bits are added, the closest one last, and found in the order of their distances. -/
theorem closeEntries_closest_three :
    let own : PublicKey := ⟨1 :: List.replicate 31 0, rfl⟩
    let address : IpPort :=
      ⟨⟨afInet, List.Vector.replicate 7 0, List.Vector.replicate 16 1⟩, 33445, List.Vector.replicate 6 0⟩
    let add (a : Assoc (.trim 2 5)) (id : PublicKey) := (a.assocAddEntry 1000 id ⟨address, 1000⟩ none false).2
    let id (last : UInt8) : PublicKey := ⟨0 :: List.replicate 30 0 ++ [last], rfl⟩
    let a := add (add (add (newAssoc 2 5 (fun _ => .zero) own) (id 11)) (id 7)) (id 3)
    a.clientIdSelfUpdate.ClosestFound own 0 3 (a.closeEntries 1000 own 0 3) := by
  intro own address add id a
  have hset : a.clientIdSelfUpdate.selfHash ≠ 0 := by decide +kernel
  have htotal : (AssocSizes.trim 2 5).total < 2 ^ 20 - 1 := by decide +kernel
  have hsame : ∀ p ∈ a.clientIdSelfUpdate.admittedPlaces 0,
      (idDistance own (a.clientIdSelfUpdate.idAt p)).toNat = 2 ^ 36 := by decide +kernel
  have hdescends : decide (DescendsBelow (fun place => xorDistance own (a.clientIdSelfUpdate.idAt place))
      (a.clientIdSelfUpdate.admittedPlaces 0)) = true := by decide +kernel
  clear_value a
  refine (closeEntries_closest_iff htotal a 1000 own 0 3).1 ⟨.inl hset, fun v _ => ?_, fun p hp q hq hlt => ?_⟩
  · by_cases hv : v = 2 ^ 36
    · rw [filter_eq_self.mpr fun p hp => decide_eq_true ((hsame p hp).trans hv.symm)]
      exact of_decide_eq_true hdescends
    · rw [filter_eq_nil_iff.mpr fun p hp hlabel => hv ((of_decide_eq_true hlabel).symm.trans (hsame p hp))]
      trivial
  · rw [hsame p hp, hsame q hq] at hlt
    exact absurd hlt (lt_irrefl _)

/-- A node whose first byte differs in the highest bit is found before one that is closer; and of three nodes with the
same first bits, the closest one, which is neither the first nor the last in the table, is found second. -/
theorem closeEntries_not_closest :
    let own : PublicKey := ⟨1 :: List.replicate 31 0, rfl⟩
    let address : IpPort :=
      ⟨⟨afInet, List.Vector.replicate 7 0, List.Vector.replicate 16 1⟩, 33445, List.Vector.replicate 6 0⟩
    let add (a : Assoc (.trim 2 5)) (id : PublicKey) := (a.assocAddEntry 1000 id ⟨address, 1000⟩ none false).2
    let a := newAssoc 2 5 (fun _ => .zero) own
    let far := add (add a ⟨255 :: List.replicate 31 0, rfl⟩) ⟨2 :: List.replicate 31 0, rfl⟩
    let id (last : UInt8) : PublicKey := ⟨0 :: List.replicate 30 0 ++ [last], rfl⟩
    let streak := add (add (add a (id 6)) (id 2)) (id 3)
    ¬far.clientIdSelfUpdate.ClosestFound own 0 1 (far.closeEntries 1000 own 0 1) ∧
      ¬streak.clientIdSelfUpdate.ClosestFound own 0 3 (streak.closeEntries 1000 own 0 3) := by
  intro own address add a far id streak
  have htotal : (AssocSizes.trim 2 5).total < 2 ^ 20 - 1 := by decide +kernel
  have hfarSet : far.clientIdSelfUpdate.selfHash ≠ 0 := by decide +kernel
  have hstreakSet : streak.clientIdSelfUpdate.selfHash ≠ 0 := by decide +kernel
  have hfar : ¬RunsInOrder (fun place => (idDistance own (far.clientIdSelfUpdate.idAt place)).toNat)
      (fun place =>
        xorDistance own (far.clientIdSelfUpdate.idAt place))
          (1 : UInt8).toNat (far.clientIdSelfUpdate.admittedPlaces 0) := by
    intro h
    have hnot := h.2
    revert hnot
    decide +kernel
  have hstreak : ¬RunsInOrder (fun place => (idDistance own (streak.clientIdSelfUpdate.idAt place)).toNat)
      (fun place =>
        xorDistance own (streak.clientIdSelfUpdate.idAt place))
          (3 : UInt8).toNat (streak.clientIdSelfUpdate.admittedPlaces 0) :=
    not_runsInOrder (v := 2 ^ 36) (by decide +kernel)
  clear_value far streak
  exact ⟨fun h => hfar ((closeEntries_runsInOrder htotal hfarSet).mp h),
    fun h => hstreak ((closeEntries_runsInOrder htotal hstreakSet).mp h)⟩

end Assoc

end Toxcore
