import Toxcore.Messenger.Restoring

/-!
# Saving and loading a messenger

When a save of a messenger that operations reach restores it.
-/

namespace Toxcore

open ByteStrings List

/-! ## The size of the memory -/

namespace SaveBuffer

variable (buffer : SaveBuffer)

variable (len : UInt32) (type : UInt16)

end SaveBuffer

namespace Messenger

variable {m : Messenger}

/-- What is restored of a messenger. -/
structure Restores (m loaded : Messenger) : Prop where
  nospam : loaded.nospam = m.nospam
  keyPair : loaded.world.net.keyPair = m.world.net.keyPair
  name : loaded.name = m.name
  statusmessage : loaded.statusmessage = m.statusmessage
  userstatus : loaded.userstatus = m.userstatus
  friends : (loaded.friendlist.filter fun friend => friend.status ≠ .nofriend).map Friend.restored =
    (m.friendlist.filter fun friend => friend.status ≠ .nofriend).map Friend.restored

section RoundTrip

variable {sodium : Sodium} {env : ℕ → MessengerEnv} {stackNodes : ℕ → NodeFormat}

end RoundTrip

/-! ## Restored and lost -/

/-- A new messenger. -/
def first : Messenger :=
  let key : SecretKey := List.Vector.replicate 32 0
  .new (.new ⟨key, key, fun _ => .zero⟩ (Sodium.plain.scalarmultBase key) key key ⟨[], key, key, fun _ =>
    none⟩ (.new key)) 7

/-- Surroundings in which nothing fails. -/
def calmEnv : MessengerEnv := ⟨.calm, true⟩

variable (length : ℕ)

end Messenger

end Toxcore
