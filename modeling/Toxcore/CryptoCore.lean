import Toxcore.Data.ByteStrings

/-!
# Keys, nonces and the symmetric encryption of `crypto_core`

The primitives of the crypto library are parameters: `Sodium` lists the calls the source makes, and
its types carry the lengths these calls produce. Nothing is assumed about them here; `Sodium.Lawful`
states the documented behaviour that results about whole exchanges rely on.

Nonces are 24-byte big-endian counters, incremented by byte loops with carry.
-/

namespace Toxcore

open ByteStrings

/-- A public key, `crypto_box_PUBLICKEYBYTES` long. -/
abbrev PublicKey := Block 32

/-- A secret key. -/
abbrev SecretKey := Block 32

/-- A symmetric key, from `crypto_box_beforenm` or random. -/
abbrev SharedKey := Block 32

/-- A nonce, `crypto_box_NONCEBYTES` long. -/
abbrev Nonce := Block 24

/-- `crypto_box_MACBYTES`. -/
abbrev macBytes : ℕ := 16

/-- The calls into the crypto library. `none` is a nonzero return value. -/
structure Sodium where
  scalarmultBase : SecretKey → PublicKey
  beforenm : PublicKey → SecretKey → SharedKey
  afternm : SharedKey → Nonce → (plain : Bytes) → Option (Block (plain.length + macBytes))
  openAfternm : SharedKey → Nonce → (encrypted : Bytes) → Option (Block (encrypted.length - macBytes))
  sha512 : Bytes → Block 64

/-- What the library documents: encryption succeeds, decryption with the same key and nonce undoes
it, and two key pairs agree on one shared key. -/
structure Sodium.Lawful (sodium : Sodium) : Prop where
  beforenm_comm : ∀ a b, sodium.beforenm (sodium.scalarmultBase a) b =
    sodium.beforenm (sodium.scalarmultBase b) a
  afternm_open : ∀ key nonce plain, ∃ encrypted, sodium.afternm key nonce plain = some encrypted ∧
    (sodium.openAfternm key nonce encrypted.toList).map List.Vector.toList = some plain

theorem take_macBytes_length (encrypted : Bytes) :
    (encrypted.take (encrypted.length - macBytes)).length = encrypted.length - macBytes := by
  simp

/-- A library that combines keys by exclusive or and only appends an authenticator of zero bytes, which
it checks. -/
def Sodium.plain : Sodium where
  scalarmultBase := id
  beforenm publicKey secretKey := List.Vector.map₂ (· ^^^ ·) publicKey secretKey
  afternm _ _ plain := some ⟨plain ++ List.replicate macBytes 0, by simp⟩
  openAfternm _ _ encrypted :=
    if encrypted.drop (encrypted.length - macBytes) = List.replicate macBytes 0 then
      some ⟨encrypted.take (encrypted.length - macBytes), take_macBytes_length encrypted⟩
    else none
  sha512 _ := List.Vector.replicate 64 0

/-- The plain library opens what it seals. -/
theorem Sodium.plain_open (key : SharedKey) (nonce : Nonce) (plain : Bytes) :
    (Sodium.plain.openAfternm key nonce (plain ++ List.replicate macBytes 0)).map List.Vector.toList =
      some plain := by
  have hlen : (plain ++ List.replicate macBytes (0 : UInt8)).length - macBytes = plain.length := by simp
  simp only [Sodium.plain]
  rw [if_pos (by rw [hlen, List.drop_left])]
  change some ((plain ++ List.replicate macBytes (0 : UInt8)).take
    ((plain ++ List.replicate macBytes (0 : UInt8)).length - macBytes)) = some plain
  rw [hlen, List.take_left]

/-- The documented behaviour can be met. -/
theorem Sodium.plain_lawful : Sodium.plain.Lawful where
  beforenm_comm a b := by
    apply List.Vector.ext
    intro i
    simp only [Sodium.plain, id, List.Vector.get_map₂]
    exact UInt8.xor_comm _ _
  afternm_open key nonce plain := ⟨_, rfl, Sodium.plain_open key nonce plain⟩

/-- `encrypt_data_symmetric`. -/
def encryptDataSymmetric (sodium : Sodium) (key : SharedKey) (nonce : Nonce) (plain : Bytes) :
    Option Bytes :=
  if plain.length = 0 then none else (sodium.afternm key nonce plain).map List.Vector.toList

/-- `decrypt_data_symmetric`. -/
def decryptDataSymmetric (sodium : Sodium) (key : SharedKey) (nonce : Nonce) (encrypted : Bytes) :
    Option Bytes :=
  if encrypted.length ≤ macBytes then none
  else (sodium.openAfternm key nonce encrypted).map List.Vector.toList

/-- `encrypt_data`. -/
def encryptData (sodium : Sodium) (publicKey : PublicKey) (secretKey : SecretKey) (nonce : Nonce)
    (plain : Bytes) : Option Bytes :=
  encryptDataSymmetric sodium (sodium.beforenm publicKey secretKey) nonce plain

/-- `decrypt_data`. -/
def decryptData (sodium : Sodium) (publicKey : PublicKey) (secretKey : SecretKey) (nonce : Nonce)
    (encrypted : Bytes) : Option Bytes :=
  decryptDataSymmetric sodium (sodium.beforenm publicKey secretKey) nonce encrypted

variable {sodium : Sodium}

theorem encryptDataSymmetric_length {key : SharedKey} {nonce : Nonce} {plain encrypted : Bytes}
    (h : encryptDataSymmetric sodium key nonce plain = some encrypted) :
    encrypted.length = plain.length + macBytes := by
  unfold encryptDataSymmetric at h
  split at h
  · contradiction
  · obtain ⟨block, -, rfl⟩ := Option.map_eq_some_iff.mp h
    exact block.toList_length

theorem decryptDataSymmetric_length {key : SharedKey} {nonce : Nonce} {plain encrypted : Bytes}
    (h : decryptDataSymmetric sodium key nonce encrypted = some plain) :
    plain.length + macBytes = encrypted.length := by
  unfold decryptDataSymmetric at h
  split at h
  · contradiction
  · rename_i hlen
    obtain ⟨block, -, rfl⟩ := Option.map_eq_some_iff.mp h
    rw [block.toList_length]
    omega

/-- Encryption does not fail, as the library documents. -/
def Sodium.Encrypts (sodium : Sodium) : Prop := ∀ key nonce plain, sodium.afternm key nonce plain ≠ none

/-- A lawful library encrypts. -/
theorem Sodium.Lawful.encrypts (h : sodium.Lawful) : sodium.Encrypts := by
  intro key nonce plain hnone
  obtain ⟨encrypted, hencrypt, -⟩ := h.afternm_open key nonce plain
  rw [hnone] at hencrypt
  contradiction

/-- Data is encrypted. -/
theorem Sodium.Encrypts.encryptDataSymmetric (h : sodium.Encrypts) (key : SharedKey) (nonce : Nonce) {plain : Bytes}
    (hplain : plain.length ≠ 0) :
    ∃ encrypted, Toxcore.encryptDataSymmetric sodium key nonce plain = some encrypted ∧
      encrypted.length = plain.length + macBytes := by
  obtain ⟨encrypted, hencrypt⟩ := Option.ne_none_iff_exists'.mp (h key nonce plain)
  refine ⟨encrypted.toList, ?_, encrypted.toList_length⟩
  rw [Toxcore.encryptDataSymmetric, if_neg hplain, hencrypt, Option.map_some]

/-- Under a lawful library a nonempty message encrypts, and decrypts to itself. -/
theorem Sodium.Lawful.encrypt_decrypt (h : sodium.Lawful) (key : SharedKey) (nonce : Nonce) {plain : Bytes}
    (hplain : plain.length ≠ 0) :
    ∃ encrypted, encryptDataSymmetric sodium key nonce plain = some encrypted ∧
      encrypted.length = plain.length + macBytes ∧
      decryptDataSymmetric sodium key nonce encrypted = some plain := by
  obtain ⟨encrypted, hencrypt, hopen⟩ := h.afternm_open key nonce plain
  have hlen : encrypted.toList.length = plain.length + macBytes := encrypted.toList_length
  refine ⟨encrypted.toList, ?_, hlen, ?_⟩
  · rw [encryptDataSymmetric, if_neg hplain, hencrypt, Option.map_some]
  · rw [decryptDataSymmetric, if_neg (by omega), hopen]

/-! ## Nonces -/

/-- The byte loop of `increment_nonce`. -/
def incrementNonce (nonce : Nonce) : Nonce :=
  ⟨(addCarry nonce.toList (List.replicate 24 0) 1).1, by rw [addCarry_length (by simp)]; simp⟩

/-- A 32-bit number as the last four bytes of a nonce. -/
def numAsNonce (number : UInt32) : Bytes := List.replicate 20 0 ++ beBytes 4 number.toNat

/-- The byte loop of `increment_nonce_number`. -/
def incrementNonceNumber (nonce : Nonce) (hostOrderNum : UInt32) : Nonce :=
  ⟨(addCarry nonce.toList (numAsNonce hostOrderNum) 0).1, by
    rw [addCarry_length (by simp [numAsNonce])]; simp⟩

/-- The nonce `count` steps after `base`, modulo `2 ^ 192`. -/
def nonceAdd (base : Nonce) (count : ℕ) : Nonce := beBlock 24 (beNat base.toList + count)

variable (base : Nonce)

/-- The number of a nonce that was incremented. -/
theorem nonceAdd_value (count : ℕ) : beNat (nonceAdd base count).toList = (beNat base.toList + count) % 256 ^ 24 := by
  rw [nonceAdd, beBlock_toList, beNat_beBytes]

/-- Nonces are equal when they denote the same number. -/
theorem nonce_ext {a b : Nonce} (h : beNat a.toList = beNat b.toList) : a = b :=
  List.Vector.toList_injective (beNat_injective (by simp) h)

@[simp] theorem nonceAdd_zero : nonceAdd base 0 = base := by
  apply nonce_ext
  have hlt := beNat_lt base.toList
  rw [base.toList_length] at hlt
  rw [nonceAdd_value, Nat.add_zero, Nat.mod_eq_of_lt hlt]

/-- A nonce is incremented twice. -/
theorem nonceAdd_add (a b : ℕ) : nonceAdd (nonceAdd base a) b = nonceAdd base (a + b) := by
  apply nonce_ext
  rw [nonceAdd_value, nonceAdd_value, nonceAdd_value, Nat.mod_add_mod, Nat.add_assoc]

theorem beNat_replicate_zero (n : ℕ) : beNat (List.replicate n 0) = 0 := by
  induction n with
  | zero => rfl
  | succ n ih => simp [List.replicate_succ, beNat, ih]

theorem beNat_zeros_append (n : ℕ) (bytes : Bytes) : beNat (List.replicate n 0 ++ bytes) = beNat bytes := by
  induction n with
  | zero => rfl
  | succ n ih => simp [List.replicate_succ, beNat, ih]

/-- The loop of `increment_nonce` adds one. -/
theorem incrementNonce_eq (nonce : Nonce) : incrementNonce nonce = nonceAdd nonce 1 := by
  apply nonce_ext
  rw [nonceAdd_value]
  change beNat (addCarry nonce.toList (List.replicate 24 0) 1).1 = _
  rw [addCarry_mod (by simp), beNat_replicate_zero, nonce.toList_length, Nat.add_zero]

/-- The loop of `increment_nonce_number` adds the number. -/
theorem incrementNonceNumber_eq (nonce : Nonce) (number : UInt32) :
    incrementNonceNumber nonce number = nonceAdd nonce number.toNat := by
  apply nonce_ext
  rw [nonceAdd_value]
  change beNat (addCarry nonce.toList (numAsNonce number) 0).1 = _
  rw [addCarry_mod (by simp [numAsNonce]), numAsNonce, beNat_zeros_append,
    beNat_beBytes_of_lt number.toNat_lt, nonce.toList_length, Nat.add_zero]

end Toxcore
