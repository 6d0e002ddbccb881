import Toxcore.CryptoCore
import Toxcore.Network

/-!
# The cache of shared keys

The DHT keeps the precomputed keys it used last in groups of `MAX_KEYS_PER_SLOT` entries, one group
for each value of byte 30 of the public key. A hit returns the stored key; a miss computes it and
replaces the free, timed out or least requested entry of the group.
-/

namespace Toxcore

open ByteStrings Function

/-- `MAX_KEYS_PER_SLOT`. -/
def maxKeysPerSlot : ℕ := 4

/-- `KEYS_TIMEOUT`, in seconds. -/
def keysTimeout : UInt64 := 600

/-- One entry of the cache. -/
structure SharedKeyEntry where
  publicKey : PublicKey
  sharedKey : SharedKey
  timesRequested : UInt32
  stored : Bool
  timeLastRequested : UInt64

/-- An entry cleared to zero bytes. -/
def SharedKeyEntry.zero : SharedKeyEntry :=
  ⟨List.Vector.replicate 32 0, List.Vector.replicate 32 0, 0, false, 0⟩

/-- `Shared_Keys`, by index. -/
abbrev SharedKeys := ℕ → SharedKeyEntry

/-- The indices of the group of a key. -/
def sharedKeyIndices (publicKey : PublicKey) : List ℕ :=
  (List.range maxKeysPerSlot).map fun i => (publicKey.toList.getD 30 0).toNat * maxKeysPerSlot + i

/-- The loop of `get_shared_key` over the group: the index of the key, or the values of `num` and
`curr` at the end. -/
def getSharedKeyLoop (now : UInt64) (keys : SharedKeys) (publicKey : PublicKey) :
    List ℕ → UInt32 → ℕ → ℕ ⊕ UInt32 × ℕ
  | [], num, curr => .inr (num, curr)
  | index :: rest, num, curr =>
    if (keys index).stored then
      if (keys index).publicKey = publicKey then .inl index
      else if num = 0 then getSharedKeyLoop now keys publicKey rest num curr
      else if isTimeout now (keys index).timeLastRequested keysTimeout then
        getSharedKeyLoop now keys publicKey rest 0 index
      else if num > (keys index).timesRequested then
        getSharedKeyLoop now keys publicKey rest (keys index).timesRequested index
      else getSharedKeyLoop now keys publicKey rest num curr
    else if num = 0 then getSharedKeyLoop now keys publicKey rest num curr
    else getSharedKeyLoop now keys publicKey rest 0 index

/-- `get_shared_key`. -/
def getSharedKey (sodium : Sodium) (now : UInt64) (keys : SharedKeys) (secretKey : SecretKey)
    (publicKey : PublicKey) : SharedKey × SharedKeys :=
  match getSharedKeyLoop now keys publicKey (sharedKeyIndices publicKey) (0 - 1) 0 with
  | .inl index =>
    ((keys index).sharedKey,
      update keys index { keys index with
        timesRequested := (keys index).timesRequested + 1, timeLastRequested := now })
  | .inr (num, curr) =>
    let sharedKey := sodium.beforenm publicKey secretKey
    (sharedKey, if num = 0 - 1 then keys else update keys curr ⟨publicKey, sharedKey, 1, true, now⟩)

/-- Every stored entry holds the key computed for its public key. -/
def SharedKeys.Valid (sodium : Sodium) (secretKey : SecretKey) (keys : SharedKeys) : Prop :=
  ∀ index, (keys index).stored = true →
    (keys index).sharedKey = sodium.beforenm (keys index).publicKey secretKey

variable {curr : ℕ} {keys : SharedKeys}

/-- A hit of the loop is a stored entry for the key. -/
theorem getSharedKeyLoop_hit {now : UInt64} {publicKey : PublicKey} {indices : List ℕ} {num : UInt32} {index : ℕ}
    (h : getSharedKeyLoop now keys publicKey indices num curr = .inl index) :
    (keys index).stored = true ∧ (keys index).publicKey = publicKey := by
  induction indices generalizing num curr with
  | nil => cases h
  | cons i rest ih =>
    unfold getSharedKeyLoop at h
    split at h
    · rename_i hstored
      split at h
      · rename_i hkey
        cases h
        exact ⟨hstored, hkey⟩
      · split at h
        · exact ih h
        · split at h
          · exact ih h
          · split at h <;> exact ih h
    · split at h <;> exact ih h

/-- The cache is transparent: the key returned is the computed one, and the cache stays valid. -/
theorem SharedKeys.Valid.getSharedKey {sodium : Sodium} {secretKey : SecretKey} (h : keys.Valid sodium secretKey)
    (now : UInt64) (publicKey : PublicKey) :
    (getSharedKey sodium now keys secretKey publicKey).1 = sodium.beforenm publicKey secretKey ∧
      (getSharedKey sodium now keys secretKey publicKey).2.Valid sodium secretKey := by
  unfold Toxcore.getSharedKey
  split
  · rename_i index hloop
    obtain ⟨hstored, hkey⟩ := getSharedKeyLoop_hit hloop
    refine ⟨by rw [h index hstored, hkey], ?_⟩
    intro i hi
    by_cases heq : i = index
    · subst heq
      simpa only [update_self] using h i hstored
    · simp only [update_of_ne heq] at hi ⊢
      exact h i hi
  · rename_i num curr _
    refine ⟨rfl, ?_⟩
    dsimp only
    split
    · exact h
    · intro i hi
      by_cases heq : i = curr
      · subst heq
        simp only [update_self]
      · simp only [update_of_ne heq] at hi ⊢
        exact h i hi

/-- A miss of the loop: no entry of the group holds the key, and if the loop chose an entry, it is one of the group. -/
theorem getSharedKeyLoop_miss {now : UInt64} {publicKey : PublicKey} {indices : List ℕ} {num num' : UInt32}
    {curr' : ℕ} (h : getSharedKeyLoop now keys publicKey indices num curr = .inr (num', curr')) :
    (∀ index ∈ indices, (keys index).stored = true → (keys index).publicKey ≠ publicKey) ∧
      (num' = num ∧ curr' = curr ∨ curr' ∈ indices) := by
  induction indices generalizing num curr with
  | nil =>
    obtain ⟨rfl, rfl⟩ := Prod.mk.inj (Sum.inr.inj h)
    exact ⟨by simp, .inl ⟨rfl, rfl⟩⟩
  | cons i rest ih =>
    have hstep {num₁ : UInt32} {curr₁ : ℕ} (hkey : (keys i).stored = true → (keys i).publicKey ≠ publicKey)
        (hchosen : num₁ = num ∧ curr₁ = curr ∨ curr₁ = i)
        (hrest : getSharedKeyLoop now keys publicKey rest num₁ curr₁ = .inr (num', curr')) :
        (∀ index ∈ i :: rest, (keys index).stored = true → (keys index).publicKey ≠ publicKey) ∧
          (num' = num ∧ curr' = curr ∨ curr' ∈ i :: rest) := by
      obtain ⟨hkeys, hlast⟩ := ih hrest
      refine ⟨List.forall_mem_cons.mpr ⟨hkey, hkeys⟩, ?_⟩
      rcases hlast with ⟨rfl, rfl⟩ | hlater
      · rcases hchosen with hsame | rfl
        · exact .inl hsame
        · exact .inr List.mem_cons_self
      · exact .inr (List.mem_cons_of_mem i hlater)
    unfold getSharedKeyLoop at h
    split at h
    · split at h
      · contradiction
      · rename_i hne
        split at h
        · exact hstep (fun _ => hne) (.inl ⟨rfl, rfl⟩) h
        · split at h
          · exact hstep (fun _ => hne) (.inr rfl) h
          · split at h
            · exact hstep (fun _ => hne) (.inr rfl) h
            · exact hstep (fun _ => hne) (.inl ⟨rfl, rfl⟩) h
    · rename_i hfree
      split at h
      · exact hstep (fun hstored => absurd hstored hfree) (.inl ⟨rfl, rfl⟩) h
      · exact hstep (fun hstored => absurd hstored hfree) (.inr rfl) h

/-! ## Runs -/

/-- No two stored entries have the same key, and every stored entry lies in the group of its key. -/
structure SharedKeys.Placed (keys : SharedKeys) : Prop where
  distinct : ∀ i j, (keys i).stored = true → (keys j).stored = true → (keys i).publicKey = (keys j).publicKey → i = j
  grouped : ∀ i, (keys i).stored = true → i ∈ sharedKeyIndices (keys i).publicKey

/-- A cache that keeps its keys where they are is as well placed. -/
theorem SharedKeys.Placed.of_same {keys' : SharedKeys} (h : keys.Placed)
    (hsame : ∀ i, (keys' i).stored = (keys i).stored ∧ (keys' i).publicKey = (keys i).publicKey) : keys'.Placed where
  distinct i j hi hj hkey := by
    rw [(hsame i).1] at hi
    rw [(hsame j).1] at hj
    rw [(hsame i).2, (hsame j).2] at hkey
    exact h.distinct i j hi hj hkey
  grouped i hi := by
    rw [(hsame i).1] at hi
    rw [(hsame i).2]
    exact h.grouped i hi

/-- A key that no entry of its group holds is stored in its group. -/
theorem SharedKeys.Placed.store (h : keys.Placed) {entry : SharedKeyEntry}
    (hcurr : curr ∈ sharedKeyIndices entry.publicKey)
    (hnew : ∀ i ∈ sharedKeyIndices entry.publicKey, (keys i).stored = true → (keys i).publicKey ≠ entry.publicKey) :
    SharedKeys.Placed (update keys curr entry) := by
  have hother (i : ℕ) (hi : (keys i).stored = true) : (keys i).publicKey ≠ entry.publicKey := by
    intro hsame
    exact hnew i (hsame ▸ h.grouped i hi) hi hsame
  constructor
  · intro i j hi hj hkey
    by_cases hicurr : i = curr
    · by_cases hjcurr : j = curr
      · rw [hicurr, hjcurr]
      · rw [hicurr, update_self, update_of_ne hjcurr] at hkey
        rw [update_of_ne hjcurr] at hj
        exact absurd hkey.symm (hother j hj)
    · rw [update_of_ne hicurr] at hi hkey
      by_cases hjcurr : j = curr
      · rw [hjcurr, update_self] at hkey
        exact absurd hkey (hother i hi)
      · rw [update_of_ne hjcurr] at hj hkey
        exact h.distinct i j hi hj hkey
  · intro i hi
    by_cases hicurr : i = curr
    · rw [hicurr, update_self]
      exact hcurr
    · rw [update_of_ne hicurr] at hi ⊢
      exact h.grouped i hi

/-- A call keeps the entries distinct and in their groups. -/
theorem SharedKeys.Placed.getSharedKey (h : keys.Placed) (sodium : Sodium) (now : UInt64) (secretKey : SecretKey)
    (publicKey : PublicKey) : (getSharedKey sodium now keys secretKey publicKey).2.Placed := by
  unfold Toxcore.getSharedKey
  split
  · rename_i index _
    dsimp only
    apply h.of_same
    intro i
    by_cases heq : i = index
    · rw [heq, update_self]
      exact ⟨rfl, rfl⟩
    · rw [update_of_ne heq]
      exact ⟨rfl, rfl⟩
  · rename_i num curr hmiss
    obtain ⟨hnew, hchosen⟩ := getSharedKeyLoop_miss hmiss
    dsimp only
    split
    · exact h
    · rename_i hnum
      rcases hchosen with ⟨hnone, -⟩ | hcurr
      · exact absurd hnone hnum
      · exact h.store hcurr hnew

/-- The cache after some calls, each with its clock, of one secret key. -/
def SharedKeys.run (sodium : Sodium) (secretKey : SecretKey) (keys : SharedKeys) (calls : List (UInt64 × PublicKey)) :
    SharedKeys :=
  calls.foldl (fun keys call => (getSharedKey sodium call.1 keys secretKey call.2).2) keys

/-- An empty cache is valid. -/
theorem SharedKeys.valid_zero (sodium : Sodium) (secretKey : SecretKey) :
    SharedKeys.Valid sodium secretKey fun _ => .zero :=
  fun _ hstored => absurd hstored Bool.false_ne_true

theorem SharedKeys.placed_zero : SharedKeys.Placed fun _ => .zero where
  distinct _ _ hstored := absurd hstored Bool.false_ne_true
  grouped _ hstored := absurd hstored Bool.false_ne_true

/-- Runs keep what calls keep. -/
theorem SharedKeys.run_keeps {sodium : Sodium} {secretKey : SecretKey} (calls : List (UInt64 × PublicKey))
    (hvalid : keys.Valid sodium secretKey) (hplaced : keys.Placed) :
    (SharedKeys.run sodium secretKey keys calls).Valid sodium secretKey ∧
      (SharedKeys.run sodium secretKey keys calls).Placed := by
  induction calls generalizing keys with
  | nil => exact ⟨hvalid, hplaced⟩
  | cons call calls ih =>
    exact ih (hvalid.getSharedKey call.1 call.2).2 (hplaced.getSharedKey sodium call.1 secretKey call.2)

/-- The cache is transparent over runs: after any calls on a cache that was zero, with any clocks, the next call
returns the computed key, no two stored entries have the same key, and every stored entry lies in the group of its
key. -/
theorem shared_key_cache_transparent (sodium : Sodium) (secretKey : SecretKey) (calls : List (UInt64 × PublicKey)) :
    (∀ now publicKey,
      (getSharedKey sodium now (SharedKeys.run sodium secretKey (fun _ => .zero) calls) secretKey publicKey).1 =
        sodium.beforenm publicKey secretKey) ∧
      (SharedKeys.run sodium secretKey (fun _ => .zero) calls).Placed := by
  obtain ⟨hvalid, hplaced⟩ := SharedKeys.run_keeps calls (SharedKeys.valid_zero sodium secretKey) SharedKeys.placed_zero
  exact ⟨fun now publicKey => (hvalid.getSharedKey now publicKey).1, hplaced⟩

end Toxcore
