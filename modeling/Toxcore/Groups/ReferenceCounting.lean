import Toxcore.Groups.HoldingSteps

/-!
# Friend connections and their holders

Whatever is done with friends and groups, the lock count of a friend connection is one less than the number of its
holders, and a friend connection is there as long as it has a holder, unless one of three things happens: an invite
that cannot be sent wipes a group that has close connections, a closest peer gets a friend connection for which no
close connection is free, or a lock count of 65535 is raised.
-/

namespace Toxcore

open ByteStrings FriendConnections

namespace GroupChats

variable {sodium : Sodium} {s : GroupChats}

/-- What can happen to friends and groups. -/
inductive Operation where
  | messenger (op : Messenger.Operation)
  | addGroupchat (env : ℕ → FriendEnv) (now : UInt64) (allocChats : Bool) (alloc : ℕ → Bool)
      (identifier : Block groupIdentifierLength) (tempPk : PublicKey)
  | joinGroupchat (allocChats sent : Bool) (friendnumber : ℕ) (expectedType : UInt8) (data : Bytes)
  | delGroupchat (env : ℕ → FriendEnv) (groupnumber : ℕ)
  | inviteFriend (groupnumber : ℕ) (send : Bytes → Bool)
  | clearTimedout (env : ℕ → FriendEnv) (groupnumber : ℕ) (now : UInt64) (alloc : ℕ → Bool)
  | handleFriendInvitePacket (env : ℕ → FriendEnv) (friendnumber : ℕ) (stackPks : PublicKey × PublicKey) (now : UInt64)
      (alloc : ℕ → Bool) (rand : ℕ → UInt16) (data : Bytes)
  | handlePacket (env : ℕ → FriendEnv) (friendconId : ℕ) (now : UInt64) (alloc : ℕ → Bool) (data : Bytes)
  | handleStatus (friendconId : ℕ) (status : Bool)
  | connectToClosest (envDrop envConnect : ℕ → FriendEnv) (stackPk : PublicKey) (groupnumber : ℕ)

/-- The friends and groups after an operation. -/
def Operation.exec (sodium : Sodium) (s : GroupChats) : Operation → GroupChats
  | messenger op => { s with m := op.exec sodium s.m }
  | addGroupchat env now allocChats alloc identifier tempPk =>
    s.addGroupchat sodium env now allocChats alloc identifier tempPk
  | joinGroupchat allocChats sent friendnumber expectedType data =>
    s.joinGroupchat allocChats sent friendnumber expectedType data
  | delGroupchat env groupnumber => s.delGroupchat sodium env groupnumber
  | inviteFriend groupnumber send => s.inviteFriend groupnumber send
  | clearTimedout env groupnumber now alloc => s.clearTimedout sodium env groupnumber now alloc
  | handleFriendInvitePacket env friendnumber stackPks now alloc rand data =>
    s.handleFriendInvitePacket sodium env friendnumber stackPks now alloc rand data
  | handlePacket env friendconId now alloc data => s.handlePacket sodium env friendconId now alloc data
  | handleStatus friendconId status => s.handleStatus friendconId status
  | connectToClosest envDrop envConnect stackPk groupnumber =>
    s.connectToClosest sodium envDrop envConnect stackPk groupnumber

/-- The layers below the messenger keep the lock counts. -/
def Operation.Allowed (s : GroupChats) : Operation → Prop
  | messenger op => op.KeepsLocks s.m
  | _ => True

/-- No hold is lost, and every lock fits. -/
def Operation.Careful (sodium : Sodium) (s : GroupChats) : Operation → Prop
  | messenger op => op.Fits s.m
  | joinGroupchat allocChats sent friendnumber expectedType data =>
    s.JoinFits allocChats sent friendnumber expectedType data
  | inviteFriend groupnumber send => s.InviteFits groupnumber send
  | handleFriendInvitePacket _ friendnumber _ _ _ rand data => s.ResponseFits friendnumber rand data
  | connectToClosest envDrop envConnect stackPk groupnumber =>
    s.ConnectFits sodium envDrop envConnect stackPk groupnumber
  | _ => True

/-- The friends and groups that operations reach from a new messenger. -/
inductive Reachable (sodium : Sodium) (ok : GroupChats → Operation → Prop) : GroupChats → Prop
  | new (dhtKeys : DhtKeys) (selfSecretKey : SecretKey) (secretSymmetricKey : SharedKey) (onionC : OnionClient)
      (dht : Dht)
      (nospam : UInt32) :
      Reachable sodium ok (.new (.new
        (.new dhtKeys (sodium.scalarmultBase selfSecretKey) selfSecretKey secretSymmetricKey onionC dht) nospam))
  | step {s : GroupChats} (h : Reachable sodium ok s) (op : Operation) (hallowed : op.Allowed s) (hok : ok s op) :
      Reachable sodium ok (op.exec sodium s)

/-- One operation keeps the count. -/
theorem Operation.exec_counted (h : s.Counted) (op : Operation) (hallowed : op.Allowed s)
    (hcareful : op.Careful sodium s) :
    (op.exec sodium s).Counted := by
  cases op with
  | messenger op =>
    have hm : s.m.Counted fun n => (s.conns.map fun c => c.holds n).sum := ⟨h.counted, h.unlocked⟩
    obtain ⟨hcounted, hunlocked⟩ := op.exec_counted hm sodium hallowed hcareful
    exact ⟨hcounted, hunlocked, h.length, h.free⟩
  | addGroupchat env now allocChats alloc identifier tempPk =>
    exact h.addGroupchat sodium env now allocChats alloc identifier tempPk
  | joinGroupchat => exact h.joinGroupchat hcareful
  | delGroupchat env groupnumber => exact h.delGroupchat sodium env groupnumber
  | inviteFriend => exact h.inviteFriend hcareful
  | clearTimedout env groupnumber now alloc => exact h.clearTimedout sodium env groupnumber now alloc
  | handleFriendInvitePacket env friendnumber stackPks now alloc rand data =>
    exact h.handleFriendInvitePacket sodium env stackPks now alloc hcareful
  | handlePacket env friendconId now alloc data => exact h.handlePacket sodium env friendconId now alloc data
  | handleStatus friendconId status => exact h.handleStatus friendconId status
  | connectToClosest => exact h.connectToClosest sodium hcareful

/-- The references are counted in every state. -/
theorem Reachable.counted (h : Reachable sodium (Operation.Careful sodium) s) : s.Counted := by
  induction h with
  | new =>
    exact ⟨fun _ => rfl, fun _ hmem => absurd hmem List.not_mem_nil, rfl,
      fun _ _ hc => absurd hc (by simp [GroupChats.new])⟩
  | step _ op hallowed hok ih => exact op.exec_counted ih hallowed hok

/-- A new messenger without groups. -/
def fresh : GroupChats :=
  let key : SecretKey := List.Vector.replicate 32 0
  .new (.new (.new ⟨key, key, fun _ => .zero⟩ (Sodium.plain.scalarmultBase key) key key ⟨[], key, key, fun _ => none⟩
    (.new key)) 7)

/-- A friend is added. -/
def addingFriend : Operation := .messenger (.addfriendNorequest ⟨.calm, true⟩ (List.Vector.replicate 32 1))

/-- A group is joined through the first friend. -/
def joining : Operation := .joinGroupchat true true 0 0 ([0, 0, 0] ++ List.replicate 32 1)

/-- A friend is added, and we join a group through it. -/
def joined : GroupChats := joining.exec .plain (addingFriend.exec .plain fresh)

end GroupChats

end Toxcore
