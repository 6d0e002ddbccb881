import Toxcore.Data.ProbedTable
import Toxcore.DHT.Assoc

/-!
# The table of the association cache

A key is stored at the places at which it is looked for. The exceptions are a hash that wraps around to 0 when it is
adjusted, which then means that the entry is unused, and an address that is neither of IPv4 nor of IPv6, for which an
entry is cleared and nothing is stored.
-/

namespace Toxcore

open CallResults Function Option

/-! ## Hashes -/

/-- A key whose hash is 2 ^ 32 - 1 and a multiple of the size of a bucket, so that the adjusted hash is 0. -/
def HashWraps (size : ℕ) (id : PublicKey) : Prop := idHashLoop id.toList = 0xFFFFFFFF ∧ size ∣ 0xFFFFFFFF

/-- `id_hash` yields no multiple of the size of a bucket, unless it wraps around. -/
theorem idHash_mod {size : ℕ} (hsize : 5 ≤ size) (id : PublicKey) : (idHash size id).toNat % size ≠ 0 ↔
    ¬HashWraps size id := by
  rw [idHash, HashWraps]
  by_cases hmultiple : (idHashLoop id.toList).toNat % size = 0
  · rw [if_pos hmultiple]
    by_cases hlast : idHashLoop id.toList = 0xFFFFFFFF
    · rw [hlast] at hmultiple ⊢
      refine iff_of_false (not_not.mpr ?_) (not_not.mpr ⟨rfl, Nat.dvd_of_mod_eq_zero hmultiple⟩)
      exact Nat.zero_mod size
    · refine iff_of_true ?_ fun hno => hlast hno.1
      have hne : (idHashLoop id.toList).toNat ≠ 2 ^ 32 - 1 := fun hno => hlast (UInt32.toNat_inj.mp hno)
      have hlt := (idHashLoop id.toList).toNat_lt
      have hnext : (idHashLoop id.toList + 1).toNat = (idHashLoop id.toList).toNat + 1 := by
        rw [UInt32.toNat_add]
        exact Nat.mod_eq_of_lt (by rw [UInt32.toNat_one]; omega)
      rw [hnext, Nat.add_mod, hmultiple, Nat.zero_add, Nat.mod_mod, Nat.mod_eq_of_lt (by omega : 1 < size)]
      exact Nat.one_ne_zero
  · rw [if_neg hmultiple]
    refine iff_of_true hmultiple fun hno => hmultiple ?_
    rw [hno.1]
    exact Nat.mod_eq_zero_of_dvd hno.2

/-- What holds of a value and is kept by a function holds of all values that it is iterated to. -/
theorem forall_mem_iterate {α : Type*} {f : α → α} {P : α → Prop} (hstep : ∀ x, P x → P (f x)) {x : α} (hx : P x)
    (n : ℕ) :
    ∀ y ∈ List.iterate f x n, P y := by
  induction n generalizing x with
  | zero => exact fun y hy => absurd hy List.not_mem_nil
  | succ n ih =>
    rw [List.iterate, List.forall_mem_cons]
    exact ⟨hx, ih (hstep x hx)⟩

/-- From a position other than 0, `hash_collide` does not come to 0. -/
theorem hashCollideProduct_ne_zero (sizes : AssocSizes) {pos : ℕ} (hpos : pos % sizes.bucketSize ≠ 0) :
    hashCollideProduct sizes.bucketSize pos ≠ 0 := by
  have hfactor : hashCollidePrime % sizes.bucketSize ≠ 0 := by
    intro hzero
    have hprime : hashCollidePrime.Prime := by norm_num
    rcases (Nat.dvd_prime hprime).mp (Nat.dvd_of_mod_eq_zero hzero) with hone | hsame
    · exact sizes.size_prime.ne_one hone
    · exact sizes.size_ne hsame
  refine ProbedTable.mul_mod_ne_zero sizes.size_prime hfactor ?_
  rwa [Nat.mod_mod]

/-- `hash_collide` does not need its fallback for a hash that is no multiple of the size of a bucket. -/
theorem positions_ne_zero (sizes : AssocSizes) {hash : UInt32} (hhash : hash.toNat % sizes.bucketSize ≠ 0) :
    ∀ pos ∈ sizes.positions hash, hashCollideProduct sizes.bucketSize pos ≠ 0 := by
  refine forall_mem_iterate (fun pos hpos => ?_) ?_ hashCollideCount
  · change hashCollideProduct sizes.bucketSize (hashCollide sizes.bucketSize pos) ≠ 0
    have hnext : hashCollide sizes.bucketSize pos = hashCollideProduct sizes.bucketSize pos := if_neg hpos
    have hlt := hashCollide_lt sizes.size_bounds.1 pos
    refine hashCollideProduct_ne_zero sizes ?_
    rw [Nat.mod_eq_of_lt hlt, hnext]
    exact hpos
  · refine hashCollideProduct_ne_zero sizes ?_
    rwa [Nat.mod_mod]

/-! ## What is stored -/

namespace AssocSizes

/-- The places of a key. -/
def placesOf (sizes : AssocSizes) (id : PublicKey) : List sizes.Place := sizes.places id (idHash sizes.bucketSize id)

end AssocSizes

/-- A call of `Assoc_add_entry`, with an address that is set. -/
structure AddCall where
  now : UInt64
  id : PublicKey
  ipptsSend : Ippts
  ippRecv : Option IpPort
  used : Bool
  isset : ipportIsset ipptsSend.ipPort = true

namespace Assoc

variable {sizes : AssocSizes} (a : Assoc sizes)

/-- One call. -/
def step (call : AddCall) : UInt8 × Assoc sizes :=
    a.assocAddEntry call.now call.id call.ipptsSend call.ippRecv call.used

/-- The key at a place, if the entry is used. -/
def keyAt (place : sizes.Place) : Option PublicKey :=
  if (a.candidates place).hash = 0 then none else some (a.candidates place).client.publicKey

/-- A key is stored. -/
def Stored (id : PublicKey) : Prop := ∃ place, a.keyAt place = some id

/-- The used entries are the same. -/
def SameEntries (b : Assoc sizes) : Prop :=
  ∀ place, a.keyAt place = b.keyAt place ∧ (a.keyAt place ≠ none → a.candidates place = b.candidates place)

/-- What is promised of a call: the hash of the key is good, no key is stored twice and our own one never, and the
return value tells what happened. -/
structure Promised (call : AddCall) : Prop where
  hash : (idHash sizes.bucketSize call.id).toNat % sizes.bucketSize ≠ 0
  collide : ∀ pos ∈ sizes.positions (idHash sizes.bucketSize call.id), hashCollideProduct sizes.bucketSize pos ≠ 0
  distinct : ∀ place other id, (a.step call).2.keyAt place = some id → (a.step call).2.keyAt other = some id →
    place = other
  updated : (a.step call).1 = 2 ↔ a.Stored call.id
  created : (a.step call).1 = 1 ↔ ¬a.Stored call.id ∧ (a.step call).2.Stored call.id
  found : (a.step call).1 = 1 →
    ∃ place, (a.step call).2.candidatesSearch call.id (idHash sizes.bucketSize call.id) = some place ∧
    (a.step call).2.keyAt place = some call.id
  unchanged : (a.step call).1 = 0 → a.SameEntries (a.step call).2
  own : ¬(a.step call).2.Stored a.selfClientId

/-- A call whose key has a hash that does not wrap around; and if its address is neither of IPv4 nor of IPv6, and its
key neither ours nor stored, the place that is chosen for it is unused. -/
def Careful (call : AddCall) : Prop :=
  ¬HashWraps sizes.bucketSize call.id ∧
    (entryAssoc call.ipptsSend.ipPort = none → call.id ≠ a.selfClientId → ¬a.Stored call.id →
      ∀ place, a.candidatesCreateInternal call.now (idHash sizes.bucketSize call.id) call.id
        (call.ippRecv.filter ipportIsset).isSome
        call.used = some place → a.keyAt place = none)

/-- What holds after careful calls. -/
structure Kept : Prop where
  self : a.selfHash = idHash sizes.bucketSize a.selfClientId
  self_ne : a.selfHash ≠ 0
  hashed : ∀ place id, a.keyAt place = some id → (a.candidates place).hash = idHash sizes.bucketSize id
  sound : ProbedTable.Sound sizes.placesOf a.keyAt
  own : ¬a.Stored a.selfClientId

/-! ## Searching and writing -/

variable {a}

variable {id : PublicKey} {place : sizes.Place}

/-- The key at a used place. -/
theorem keyAt_eq_some :
    a.keyAt place = some id ↔ (a.candidates place).hash ≠ 0 ∧ (a.candidates place).client.publicKey = id := by
  rw [keyAt]
  by_cases hunused : (a.candidates place).hash = 0
  · rw [if_pos hunused]
    exact iff_of_false nofun fun hno => hno.1 hunused
  · rw [if_neg hunused, some_inj]
    exact (and_iff_right hunused).symm

theorem setEntry_candidates (place : sizes.Place) (entry : ClientEntry) :
    (a.setEntry place entry).candidates = update a.candidates place entry := rfl

/-- An entry is written at its place. -/
theorem setEntry_keyAt (place : sizes.Place) (entry : ClientEntry) : (a.setEntry place entry).keyAt =
    update a.keyAt place (if entry.hash = 0 then none else some entry.client.publicKey) := by
  funext other
  by_cases hother : other = place
  · subst hother
    rw [update_self, keyAt, setEntry_candidates, update_self]
  · rw [update_of_ne hother, keyAt, keyAt, setEntry_candidates, update_of_ne hother]

/-- `candidates_search` looks at the places of a key. -/
theorem candidatesSearch_eq
    (hhashed : ∀ place id, a.keyAt place = some id → (a.candidates place).hash = idHash sizes.bucketSize id)
    (hid : idHash sizes.bucketSize id ≠ 0) :
    a.candidatesSearch id (idHash sizes.bucketSize id) = ProbedTable.lookup sizes.placesOf a.keyAt id := by
  have hsame (place : sizes.Place) :
    ((a.candidates place).hash = idHash sizes.bucketSize id ∧ (a.candidates place).client.publicKey = id) ↔
      a.keyAt place = some id := by
    refine ⟨fun hentry => keyAt_eq_some.mpr ⟨hentry.1 ▸ hid, hentry.2⟩, fun hkey => ⟨hhashed place id hkey, ?_⟩⟩
    exact (keyAt_eq_some.mp hkey).2
  rw [candidatesSearch, ProbedTable.lookup]
  exact congrArg (List.find? · _) (funext fun place => decide_eq_decide.mpr (hsame place))

/-- A key is found if and only if it is stored. -/
theorem Kept.search_none (h : a.Kept) (hid : idHash sizes.bucketSize id ≠ 0) :
    a.candidatesSearch id (idHash sizes.bucketSize id) = none ↔ ¬a.Stored id := by
  rw [candidatesSearch_eq h.hashed hid, ← not_isSome_iff_eq_none, h.sound.lookup_isSome]
  rfl

/-- The place that is chosen for a key is one of its places. -/
theorem candidatesCreateInternal_mem {now : UInt64} {hash : UInt32} {seen used : Bool}
    (h : a.candidatesCreateInternal now hash id seen used = some place) : place ∈ sizes.places id hash := by
  rw [candidatesCreateInternal] at h
  split at h
  · rename_i hunused
    exact some.inj h ▸ List.mem_of_find?_eq_some hunused
  · obtain ⟨status, -, hstatus⟩ := List.exists_of_findSome?_eq_some h
    exact List.mem_of_find?_eq_some hstatus

/-- Changing an address keeps the key. -/
theorem changeAssoc_publicKey (client : ClientData) (v6 : Bool) (f : IpptsPng → IpptsPng) :
    (client.changeAssoc v6 f).publicKey = client.publicKey := by
  cases v6 <;> rfl

/-- Writing an address that was heard keeps the hash and the node. -/
theorem setHeard_key (entry : ClientEntry) (v6 : Bool) (ippts : Ippts) :
    (entry.setHeard v6 ippts).hash = entry.hash ∧ (entry.setHeard v6 ippts).client = entry.client := by
  cases v6 <;> exact ⟨rfl, rfl⟩

/-- Storing an address that was heard keeps the hash and the node. -/
theorem entryHeardStore_key (now : UInt64) (entry : ClientEntry) (ippts : Ippts) :
    (entryHeardStore now entry ippts).hash = entry.hash ∧ (entryHeardStore now entry ippts).client = entry.client := by
  unfold entryHeardStore
  split
  · exact ⟨rfl, rfl⟩
  · split
    · exact ⟨rfl, rfl⟩
    · dsimp only
      split_ifs <;> first | exact ⟨rfl, rfl⟩ | exact setHeard_key ..

/-- Updating an entry keeps its hash and its key. -/
theorem candidatesUpdateAssoc_key (now : UInt64) (entry : ClientEntry) (used : Bool) (ipptsSend : Ippts)
    (ippRecv : Option IpPort) :
    (candidatesUpdateAssoc now entry used ipptsSend ippRecv).hash = entry.hash ∧
      (candidatesUpdateAssoc now entry used ipptsSend ippRecv).client.publicKey = entry.client.publicKey := by
  have hused : (if used then { entry with usedAt := now } else entry).hash = entry.hash ∧
      (if used then { entry with usedAt := now } else entry).client = entry.client := by
    cases used <;> exact ⟨rfl, rfl⟩
  unfold candidatesUpdateAssoc
  split
  · exact ⟨rfl, rfl⟩
  · cases ippRecv with
    | some ippRecv => exact ⟨hused.1, (changeAssoc_publicKey ..).trans (congrArg ClientData.publicKey hused.2)⟩
    | none =>
      have hstored := entryHeardStore_key now (if used then { entry with usedAt := now } else entry) ipptsSend
      exact ⟨hstored.1.trans hused.1, congrArg ClientData.publicKey (hstored.2.trans hused.2)⟩

/-- A new entry has the hash and the key. -/
theorem newEntry_key (now : UInt64) (hash : UInt32) (id : PublicKey) (used : Bool) (ipptsSend : Ippts)
    (ippRecv : Option IpPort) (v6 : Bool) :
    (newEntry now hash id used ipptsSend ippRecv v6).hash = hash ∧
      (newEntry now hash id used ipptsSend ippRecv v6).client.publicKey = id := by
  let entry : ClientEntry := { ClientEntry.zero with hash := hash, client := { ClientData.zero with publicKey := id } }
  have hused : (if used then { entry with usedAt := now } else entry).hash = hash ∧
      (if used then { entry with usedAt := now } else entry).client.publicKey = id := by
    cases used <;> exact ⟨rfl, rfl⟩
  unfold newEntry
  cases ippRecv.filter ipportIsset with
  | some ippRecv => exact ⟨hused.1, (changeAssoc_publicKey ..).trans hused.2⟩
  | none =>
    have hheard := setHeard_key (if used then { entry with usedAt := now } else entry) v6 ipptsSend
    exact ⟨hheard.1.trans hused.1, (congrArg ClientData.publicKey hheard.2).trans hused.2⟩

/-! ## One call -/

/-- What a call does: it refuses our own key; it updates an entry; it finds no place; it clears one; or it makes an
entry. -/
theorem step_cases (h : a.Kept) (call : AddCall) (hid : idHash sizes.bucketSize call.id ≠ 0) :
    call.id = a.selfClientId ∧ a.step call = (0, a) ∨
    call.id ≠ a.selfClientId ∧
      ((∃ place entry, a.keyAt place = some call.id ∧ a.step call = (2, a.setEntry place entry) ∧
          entry.hash = (a.candidates place).hash ∧ entry.client.publicKey = call.id) ∨
        ¬a.Stored call.id ∧
          (a.candidatesCreateInternal call.now (idHash sizes.bucketSize call.id) call.id
            (call.ippRecv.filter ipportIsset).isSome
              call.used = none ∧ a.step call = (0, a) ∨
            ∃ place, a.candidatesCreateInternal call.now (idHash sizes.bucketSize call.id) call.id
                (call.ippRecv.filter ipportIsset).isSome call.used = some place ∧
              (entryAssoc call.ipptsSend.ipPort = none ∧ a.step call = (0, a.setEntry place .zero) ∨
                ∃ entry, entryAssoc call.ipptsSend.ipPort ≠ none ∧ a.step call = (1, a.setEntry place entry) ∧
                  entry.hash = idHash sizes.bucketSize call.id ∧ entry.client.publicKey = call.id))) := by
  have hupdate : a.clientIdSelfUpdate = a := if_pos h.self_ne
  rw [step, assocAddEntry, hupdate, if_neg h.self_ne, if_neg (not_not.mpr call.isset)]
  by_cases hown : call.id = a.selfClientId
  · rw [if_pos ⟨by rw [hown, h.self], hown⟩]
    exact .inl ⟨hown, rfl⟩
  · rw [if_neg fun hno => hown hno.2]
    refine .inr ⟨hown, ?_⟩
    cases hsearch : a.candidatesSearch call.id (idHash sizes.bucketSize call.id) with
    | some place =>
      rw [candidatesSearch_eq h.hashed hid] at hsearch
      have hkey := (ProbedTable.lookup_some hsearch).2
      obtain ⟨hhash, hclient⟩ := candidatesUpdateAssoc_key call.now (a.candidates place) call.used call.ipptsSend
        (call.ippRecv.filter ipportIsset)
      exact .inl ⟨place, _, hkey, rfl, hhash, hclient.trans (keyAt_eq_some.mp hkey).2⟩
    | none =>
      refine .inr ⟨(h.search_none hid).mp hsearch, ?_⟩
      dsimp only
      rw [candidatesCreateNew]
      cases hplace : a.candidatesCreateInternal call.now (idHash sizes.bucketSize call.id) call.id
          (call.ippRecv.filter ipportIsset).isSome call.used with
      | none => exact .inl ⟨rfl, rfl⟩
      | some place =>
        refine .inr ⟨place, rfl, ?_⟩
        cases hfamily : entryAssoc call.ipptsSend.ipPort with
        | none => exact .inl ⟨rfl, rfl⟩
        | some v6 => exact .inr ⟨_, nofun, rfl, newEntry_key ..⟩

/-- Writing an entry of a key that is not found yet, or of the key that is there, at one of its places. -/
theorem Kept.setEntry (h : a.Kept) (hid : idHash sizes.bucketSize id ≠ 0) (hown : id ≠ a.selfClientId)
    {entry : ClientEntry} (hhash : entry.hash = idHash sizes.bucketSize id) (hkey : entry.client.publicKey = id)
    (hsound : ProbedTable.Sound sizes.placesOf (update a.keyAt place (some id))) :
    (a.setEntry place entry).Kept ∧ (a.setEntry place entry).keyAt = update a.keyAt place (some id) := by
  have hkeys : (a.setEntry place entry).keyAt = update a.keyAt place (some id) := by
    rw [setEntry_keyAt, if_neg (by rw [hhash]; exact hid), hkey]
  refine ⟨⟨h.self, h.self_ne, fun other found hfound => ?_, by rw [hkeys]; exact hsound, ?_⟩, hkeys⟩
  · rw [hkeys] at hfound
    rw [setEntry_candidates]
    by_cases hother : other = place
    · subst hother
      rw [update_self] at hfound ⊢
      rw [hhash, some.inj hfound]
    · rw [update_of_ne hother] at hfound ⊢
      exact h.hashed other found hfound
  · rintro ⟨other, hother⟩
    rw [hkeys] at hother
    by_cases hsame : other = place
    · rw [hsame, update_self] at hother
      exact hown (some.inj hother)
    · rw [update_of_ne hsame] at hother
      exact h.own ⟨other, hother⟩

/-- A call whose hash is good, by its return value: what it promises beyond the hash. -/
theorem promised_of (call : AddCall) (hhash : (idHash sizes.bucketSize call.id).toNat % sizes.bucketSize ≠ 0)
    (hnext : (a.step call).2.Kept) (hself : (a.step call).2.selfClientId = a.selfClientId)
    (hupdated : (a.step call).1 = 2 ↔ a.Stored call.id)
    (hcreated : (a.step call).1 = 1 ↔ ¬a.Stored call.id ∧ (a.step call).2.Stored call.id)
    (hunchanged : (a.step call).1 = 0 → a.SameEntries (a.step call).2) : a.Promised call where
  hash := hhash
  collide := positions_ne_zero sizes hhash
  distinct _ _ _ hplace hother := hnext.sound.distinct hplace hother
  updated := hupdated
  created := hcreated
  found hone := by
    have hne : idHash sizes.bucketSize call.id ≠ 0 := fun hno => hhash (by rw [hno]; exact Nat.zero_mod _)
    rw [candidatesSearch_eq hnext.hashed hne]
    obtain ⟨place, hplace⟩ := isSome_iff_exists.mp (hnext.sound.lookup_isSome.mpr (hcreated.mp hone).2)
    exact ⟨place, hplace, (ProbedTable.lookup_some hplace).2⟩
  unchanged := hunchanged
  own := hself ▸ hnext.own

/-- One call. -/
theorem step_promised (h : a.Kept) (call : AddCall) :
    (a.Promised call ↔ a.Careful call) ∧ (a.Careful call → (a.step call).2.Kept) := by
  by_cases hwraps : HashWraps sizes.bucketSize call.id
  · refine ⟨iff_of_false (fun hall => ?_) fun hall => hall.1 hwraps, fun hall => absurd hwraps hall.1⟩
    exact (idHash_mod sizes.size_bounds.1 call.id).mp hall.hash hwraps
  have hhash := (idHash_mod sizes.size_bounds.1 call.id).mpr hwraps
  have hne : idHash sizes.bucketSize call.id ≠ 0 := fun hno => hhash (by rw [hno]; exact Nat.zero_mod _)
  have hsame : a.SameEntries a := fun place => ⟨rfl, fun _ => rfl⟩
  rcases step_cases h call hne with ⟨hown, hstep⟩ | ⟨hown, ⟨place, entry, hkey, hstep, hentryHash, hentryKey⟩ |
    ⟨hnew, ⟨hnone, hstep⟩ | ⟨place, hplace, ⟨hfamily, hstep⟩ | ⟨entry, hfamily, hstep, hentryHash, hentryKey⟩⟩⟩⟩
  · -- our own key
    have hcareful : a.Careful call := ⟨hwraps, fun _ hother => absurd hown hother⟩
    have hnot : ¬a.Stored call.id := hown ▸ h.own
    refine ⟨iff_of_true (promised_of call hhash ?_ ?_ ?_ ?_ ?_) hcareful, fun _ => ?_⟩
    all_goals rw [hstep]
    · exact h
    · exact iff_of_false (by decide : (0 : UInt8) ≠ 2) hnot
    · exact iff_of_false (by decide : (0 : UInt8) ≠ 1) fun hall => hnot hall.2
    · exact fun _ => hsame
    · exact h
  · -- the key is stored
    have hcareful : a.Careful call := ⟨hwraps, fun _ _ hnot => absurd ⟨place, hkey⟩ hnot⟩
    have hstored : a.Stored call.id := ⟨place, hkey⟩
    have hupdate : update a.keyAt place (some call.id) = a.keyAt := by rw [← hkey, update_eq_self]
    have hnext :=
      h.setEntry hne hown (hentryHash.trans (h.hashed place call.id hkey)) hentryKey (by rw [hupdate]; exact h.sound)
    refine ⟨iff_of_true (promised_of call hhash ?_ ?_ ?_ ?_ ?_) hcareful, fun _ => ?_⟩
    all_goals rw [hstep]
    · exact hnext.1
    · rfl
    · exact iff_of_true rfl hstored
    · exact iff_of_false (by decide : (2 : UInt8) ≠ 1) fun hall => hall.1 hstored
    · exact fun hno => absurd hno (by decide : (2 : UInt8) ≠ 0)
    · exact hnext.1
  · -- there is no place
    have hcareful : a.Careful call := ⟨hwraps, fun _ _ _ place hsome => absurd (hnone.symm.trans hsome) nofun⟩
    refine ⟨iff_of_true (promised_of call hhash ?_ ?_ ?_ ?_ ?_) hcareful, fun _ => ?_⟩
    all_goals rw [hstep]
    · exact h
    · exact iff_of_false (by decide : (0 : UInt8) ≠ 2) hnew
    · exact iff_of_false (by decide : (0 : UInt8) ≠ 1) fun hall => hnew hall.2
    · exact fun _ => hsame
    · exact h
  · -- a place is cleared
    have hkeys : (a.setEntry place .zero).keyAt = update a.keyAt place none := by
      rw [setEntry_keyAt]
      rfl
    have hcareful : a.Careful call ↔ a.keyAt place = none := by
      refine ⟨fun hall => hall.2 hfamily hown hnew place hplace, fun hunused => ⟨hwraps, fun _ _ _ other hother => ?_⟩⟩
      rwa [← some.inj (hplace.symm.trans hother)]
    by_cases hunused : a.keyAt place = none
    · have hsameKeys : (a.setEntry place .zero).keyAt = a.keyAt := by rw [hkeys, ← hunused, update_eq_self]
      have hentries (other : sizes.Place) (hused : a.keyAt other ≠ none) :
        a.candidates other = (a.setEntry place .zero).candidates other := by
        have hother : other ≠ place := by
          rintro rfl
          exact hused hunused
        rw [setEntry_candidates, update_of_ne hother]
      have hnext : (a.setEntry place .zero).Kept := by
        refine ⟨h.self, h.self_ne,
          fun other id hid => ?_, by rw [hsameKeys]; exact h.sound, fun ⟨other, hother⟩ => h.own ⟨other, ?_⟩⟩
        · rw [hsameKeys] at hid
          rw [← hentries other (by rw [hid]; nofun)]
          exact h.hashed other id hid
        · rwa [hsameKeys] at hother
      refine ⟨iff_of_true (promised_of call hhash ?_ ?_ ?_ ?_ ?_) (hcareful.mpr hunused), fun _ => ?_⟩
      all_goals rw [hstep]
      · exact hnext
      · rfl
      · exact iff_of_false (by decide : (0 : UInt8) ≠ 2) hnew
      · refine iff_of_false (by decide : (0 : UInt8) ≠ 1) fun ⟨_, other, hother⟩ => hnew ⟨other, ?_⟩
        rwa [hsameKeys] at hother
      · exact fun _ other => ⟨by rw [hsameKeys], hentries other⟩
      · exact hnext
    · refine ⟨iff_of_false (fun hall => hunused ?_) fun hall => hunused (hcareful.mp hall), fun hall =>
        absurd (hcareful.mp hall) hunused⟩
      have hkept := (hall.unchanged (by rw [hstep]) place).1
      rw [hstep, hkeys, update_self] at hkept
      exact hkept
  · -- an entry is made
    have hcareful : a.Careful call := ⟨hwraps, fun hno => absurd hno hfamily⟩
    have hlookup : ProbedTable.lookup sizes.placesOf a.keyAt call.id = none := by
      rw [← candidatesSearch_eq h.hashed hne]
      exact (h.search_none hne).mpr hnew
    have hnext := h.setEntry hne hown hentryHash hentryKey (h.sound.put hlookup (candidatesCreateInternal_mem hplace))
    have hstored : (a.setEntry place entry).Stored call.id := ⟨place, by rw [hnext.2, update_self]⟩
    refine ⟨iff_of_true (promised_of call hhash ?_ ?_ ?_ ?_ ?_) hcareful, fun _ => ?_⟩
    all_goals rw [hstep]
    · exact hnext.1
    · rfl
    · exact iff_of_false (by decide : (1 : UInt8) ≠ 2) hnew
    · exact iff_of_true rfl ⟨hnew, hstored⟩
    · exact fun hno => absurd hno (by decide : (1 : UInt8) ≠ 0)
    · exact hnext.1

/-! ## Every sequence of calls -/

/-- A new cache for a key whose hash does not wrap around. -/
theorem newAssoc_kept {bits entries : ℕ} (memory : (AssocSizes.trim bits entries).Place → ClientEntry)
    {publicId : PublicKey}
    (hset : ¬publicId.toList.all (· = 0)) (hwraps : ¬HashWraps (trimEntries entries) publicId) :
    (newAssoc bits entries memory publicId).Kept := by
  let hash := idHash (trimEntries entries) publicId
  have hhash : hash.toNat % trimEntries entries ≠ 0 := (idHash_mod (trimEntries_spec entries).2.2.1 publicId).mpr hwraps
  have hnew : newAssoc bits entries memory publicId = ⟨hash, publicId, fun place =>
      if place ∈ (AssocSizes.trim bits entries).places publicId hash then
        if (0 : UInt32) = hash ∧ (memory place).client.publicKey = publicId then { memory place with hash := 0 }
        else { memory place with hash := 0 }
      else { memory place with hash := 0 }⟩ := by
    rw [newAssoc, clientIdSelfUpdate, if_neg (not_not.mpr rfl), if_neg hset]
    rfl
  have hempty (place : (AssocSizes.trim bits entries).Place) :
    (newAssoc bits entries memory publicId).keyAt place = none := by
    rw [hnew, keyAt, if_pos]
    dsimp only
    split_ifs <;> rfl
  refine ⟨by rw [hnew]; rfl, ?_, fun place id hid => ?_, ?_, fun ⟨place, hplace⟩ => ?_⟩
  · rw [hnew]
    exact fun hno : hash = 0 => hhash (by rw [hno]; exact Nat.zero_mod _)
  · exact absurd ((hempty place).symm.trans hid) nofun
  · rw [show (newAssoc bits entries memory publicId).keyAt = fun _ => none from funext hempty]
    exact .empty
  · exact absurd ((hempty place).symm.trans hplace) nofun

/-- From a new cache with a key that is not zero, the hash of that key and every call of a sequence are as promised if
and only if its hash does not wrap around and every call is careful. -/
theorem newAssoc_promised_iff (bits entries : ℕ) (memory : (AssocSizes.trim bits entries).Place → ClientEntry)
    (publicId : PublicKey) (hset : ¬publicId.toList.all (· = 0)) (calls : List AddCall) :
    ((idHash (trimEntries entries) publicId).toNat % trimEntries entries ≠ 0 ∧
        EachMeets step Promised calls (newAssoc bits entries memory publicId)) ↔
      ¬HashWraps (trimEntries entries) publicId ∧
        EachMeets step Careful calls (newAssoc bits entries memory publicId) := by
  rw [idHash_mod (trimEntries_spec entries).2.2.1]
  refine and_congr_right fun hwraps => ?_
  have hagree (a : Assoc (.trim bits entries)) (call : AddCall) (h : a.Kept) : a.Promised call ↔
    a.Careful call := (step_promised h call).1
  exact eachMeets_iff hagree (fun a call h => (step_promised h call).2) (newAssoc_kept memory hset hwraps)

/-- A node of IPv4 is added to a new cache. -/
theorem newAssoc_promised_one :
    let own : PublicKey := ⟨1 :: List.replicate 31 0, rfl⟩
    let calls : List AddCall := [⟨1000, ⟨3 :: List.replicate 31 0, rfl⟩,
      ⟨⟨⟨afInet, List.Vector.replicate 7 0, List.Vector.replicate 16 1⟩, 33445, List.Vector.replicate 6 0⟩, 1000⟩, none,
        false, rfl⟩]
    ((idHash (trimEntries 5) own).toNat % trimEntries 5 ≠ 0 ∧
      EachMeets step Promised calls (newAssoc 2 5 (fun _ => .zero) own)) := by
  intro own calls
  have hcareful : EachMeets step Careful calls (newAssoc 2 5 (fun _ => .zero) own) := by
    refine ⟨⟨fun hwraps => absurd hwraps.1 ?_, fun hno => absurd hno ?_⟩, trivial⟩
    · decide +kernel
    · decide +kernel
  exact (newAssoc_promised_iff 2 5 (fun _ => .zero) own (by decide) calls).mpr ⟨fun hwraps =>
    absurd hwraps.1 (by decide +kernel), hcareful⟩

/-- The only entry of a bucket that is looked at for a key is too old to be kept, so that it is cleared for another
key of the same hash, which is then not stored, as its address is of a relay. -/
theorem cleared_entry :
    let own : PublicKey := ⟨1 :: List.replicate 31 0, rfl⟩
    let address (family : UInt8) : IpPort :=
      ⟨⟨family, List.Vector.replicate 7 0, List.Vector.replicate 16 1⟩, 33445, List.Vector.replicate 6 0⟩
    ¬((idHash (trimEntries 5) own).toNat % trimEntries 5 ≠ 0 ∧ EachMeets step Promised
      [⟨1000, ⟨3 :: List.replicate 31 0, rfl⟩, ⟨address afInet, 1000⟩, none, false, rfl⟩,
        ⟨5000, ⟨6 :: List.replicate 31 0, rfl⟩, ⟨address (afInet6 + 2), 5000⟩, none, false,
          rfl⟩] (newAssoc 2 5 (fun _ => .zero) own)) := by
  intro own address h
  have hunchanged := fun hzero => (h.2.2.1.unchanged hzero (0, ⟨3, by decide +kernel⟩)).1
  revert hunchanged
  decide +kernel

end Assoc

end Toxcore
