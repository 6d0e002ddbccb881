import Toxcore.Messenger.SaveRoundTrip

/-!
# Encrypted saves

`toxencryptsave.c`: data is encrypted with a key that is derived from a passphrase and a salt, and the salt goes with
the data. What was encrypted with the passphrase is decrypted with it, and also with the key that is derived from it
and the salt. The magic number in front tells the data apart from a save that is not encrypted, and such a save is not
taken for encrypted data.

The library gives the sizes of the results as an `int`, so that data of 2^31 bytes and more is not encrypted.

A messenger that is made from data refuses what is encrypted. After the decryption it gets back what was saved.
-/

namespace Toxcore

open ByteStrings List

/-- `TOX_PASS_SALT_LENGTH`. -/
abbrev toxPassSaltLength : ℕ := 32

/-- A pointer and a length that a caller hands over. -/
inductive PassBuffer where
  | null (length : ℕ)
  | bytes (data : Bytes)

/-- The length that goes with a pointer. -/
def PassBuffer.length : PassBuffer → ℕ
  | .null length => length
  | .bytes data => data.length

/-- The hash functions that keys are derived with: `crypto_hash_sha256`, and `crypto_pwhash_scryptsalsa208sha256` of
its result and a salt. -/
structure KeyDerivation where
  sha256 : Bytes → Block 32
  scrypt : Block 32 → Block toxPassSaltLength → SharedKey

section Functions

variable (sodium : Sodium) (kdf : KeyDerivation)

end Functions

/-! ## The format -/

section Format

variable {sodium : Sodium} {kdf : KeyDerivation}

variable (salt : Block toxPassSaltLength) (nonce : Nonce) (encrypted : Bytes)

variable {data : Bytes}

end Format

/-! ## Messengers from encrypted saves -/

namespace Messenger

section Encrypted

variable {sodium : Sodium} {kdf : KeyDerivation} {env : ℕ → MessengerEnv} {stackNodes : ℕ → NodeFormat} {m : Messenger}

end Encrypted

end Messenger

end Toxcore
