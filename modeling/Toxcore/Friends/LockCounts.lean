import Toxcore.Data.ReferenceCounts
import Toxcore.Data.TableView
import Toxcore.Friends.Operations

/-!
# The lock counts of friend connections

`new_friend_connection` and `friend_connection_lock` take a hold on a friend connection, and `kill_friend_connection`
lets one go. The lock count has 16 bits, and one that is 65535 cannot be raised.

A free slot is not cleared when it is taken, so its lock count has to be 0 before.
-/

namespace Toxcore

open ByteStrings TableView Function List Option

/-- The lock count of a friend connection, if it is in use. -/
def lockOf (friendCon : FriendConn) : Option ℕ :=
    if friendCon.status = .none then none else some friendCon.lockCount.toNat

namespace FriendConnections

variable {frC frC' : FriendConnections} {n : ℕ} {friendCon friendCon' : FriendConn}

/-- The friend connections in use are found. -/
theorem getConn_eq_some :
    frC.getConn n = some friendCon ↔ frC.conns[n]? = some friendCon ∧ friendCon.status ≠ .none := by
  unfold getConn
  split
  · rename_i hnone
    simp [hnone]
  · rename_i found hsome
    rw [hsome, some.injEq]
    split
    · rename_i hfree
      simp only [reduceCtorEq, false_iff, not_and, not_not]
      rintro rfl
      exact hfree
    · rename_i hlive
      rw [some.injEq]
      exact ⟨fun h => ⟨h, h ▸ hlive⟩, And.left⟩

/-- A friend connection after it was written. -/
theorem setConn_get (hconn : frC.getConn n = some friendCon) (hlive : friendCon'.status ≠ .none) :
    (frC.setConn n friendCon').getConn n = some friendCon' := by
  rw [getConn_eq_some]
  have hlt := (List.getElem?_eq_some_iff.mp (getConn_eq_some.mp hconn).1).1
  exact ⟨getElem?_set_self hlt, hlive⟩

/-- The connection that is found has the key. -/
theorem getfriendConnIdPk_some {realPk : PublicKey} (h : frC.getfriendConnIdPk realPk = some n) :
    ∃ friendCon, frC.getConn n = some friendCon ∧ friendCon.realPublicKey = realPk := by
  obtain ⟨hlt, hfound, -⟩ := findIdx?_eq_some_iff_getElem.mp h
  obtain ⟨hlive, hkey⟩ := of_decide_eq_true hfound
  exact ⟨_, getConn_eq_some.mpr ⟨getElem?_eq_getElem hlt, hlive⟩, hkey⟩

/-- The lock counts of the friend connections. -/
def locks (frC : FriendConnections) : ℕ → Option ℕ := view lockOf frC.conns

/-- The lock count of a friend connection can be raised. -/
def Lockable (frC : FriendConnections) (n : ℕ) : Prop := frC.locks n ≠ some (2 ^ 16 - 1)

/-- Free slots are not locked. -/
def FreeUnlocked (frC : FriendConnections) : Prop :=
  ∀ friendCon ∈ frC.conns, friendCon.status = .none → friendCon.lockCount = 0

/-- The lock counts are the same, and free slots stay unlocked. -/
structure LocksKept (frC frC' : FriendConnections) : Prop where
  locks : frC'.locks = frC.locks
  free : frC.FreeUnlocked → frC'.FreeUnlocked

/-- The locks of a friend connection in use. -/
theorem locks_live (hconn : frC.getConn n = some friendCon) : frC.locks n = some friendCon.lockCount.toNat := by
  obtain ⟨hget, hlive⟩ := getConn_eq_some.mp hconn
  rw [locks, view_get hget, lockOf, if_neg hlive]

/-- One that is not in use has none. -/
theorem locks_absent (hconn : frC.getConn n = none) : frC.locks n = none := by
  rw [locks, view]
  rw [getConn] at hconn
  cases hget : frC.conns[n]? with
  | none => rfl
  | some friendCon =>
    rw [hget] at hconn
    rw [bind_some, lockOf]
    dsimp only at hconn
    split at hconn
    · rename_i hfree
      exact if_pos hfree
    · contradiction

theorem locks_setConn (hconn : frC.getConn n = some friendCon) (friendCon' : FriendConn) :
    (frC.setConn n friendCon').locks = update frC.locks n (lockOf friendCon') :=
  view_set (getConn_eq_some.mp hconn).1 friendCon'

theorem FreeUnlocked.setConn (h : frC.FreeUnlocked) (n : ℕ) (hunlocked : friendCon'.status = .none →
    friendCon'.lockCount = 0) :
    (frC.setConn n friendCon').FreeUnlocked := by
  intro conn hconn
  rcases mem_or_eq_of_mem_set hconn with hmem | rfl
  · exact h conn hmem
  · exact hunlocked

namespace LocksKept

theorem refl (frC : FriendConnections) : LocksKept frC frC := ⟨rfl, id⟩

theorem trans {frC'' : FriendConnections} (h : LocksKept frC frC') (h' : LocksKept frC' frC'') : LocksKept frC frC'' :=
  ⟨h'.locks.trans h.locks, h'.free ∘ h.free⟩

/-- Whatever happens beside the table. -/
theorem of_conns (h : frC'.conns = frC.conns) : LocksKept frC frC' := by
  refine ⟨?_, fun hfree => ?_⟩
  · rw [FriendConnections.locks, FriendConnections.locks, h]
  · rw [FreeUnlocked, h]
    exact hfree

/-- A friend connection in use is written, and keeps its lock count. -/
theorem setConn (hconn : frC.getConn n = some friendCon) (hlive : friendCon'.status ≠ .none)
    (hsame : friendCon'.lockCount = friendCon.lockCount) : LocksKept frC (frC.setConn n friendCon') := by
  obtain ⟨hget, hold⟩ := getConn_eq_some.mp hconn
  refine ⟨view_set_same hget ?_, fun hfree => hfree.setConn n fun h => absurd h hlive⟩
  rw [lockOf, lockOf, if_neg hlive, if_neg hold, hsame]

end LocksKept

/-! ## Taking a hold and letting go -/

/-- The lock count after one more lock. -/
theorem lockCount_locked (hlock : friendCon.lockCount.toNat ≠ 2 ^ 16 - 1) :
    (friendCon.lockCount + 1).toNat = friendCon.lockCount.toNat + 1 := by
  have hlt := friendCon.lockCount.toNat_lt
  rw [UInt16.toNat_add]
  exact Nat.mod_eq_of_lt (by change _ + 1 < 65536; omega)

/-- A friend connection is locked. -/
theorem locks_lock (hconn : frC.getConn n = some friendCon) (hlockable : frC.Lockable n) :
    lockOf { friendCon with lockCount := friendCon.lockCount + 1 } = ReferenceCounts.acquire (frC.locks n) := by
  have hlive := (getConn_eq_some.mp hconn).2
  have hlocks := locks_live hconn
  rw [Lockable, hlocks, Ne, some_inj] at hlockable
  have hlocked : lockOf { friendCon with lockCount := friendCon.lockCount + 1 } =
      some (friendCon.lockCount + 1).toNat := if_neg hlive
  rw [hlocked, hlocks, lockCount_locked hlockable]
  rfl

/-- `friend_connection_lock` takes a hold. -/
theorem locks_friendConnectionLock (hconn : frC.getConn n = some friendCon) (hlockable : frC.Lockable n) :
    (frC.friendConnectionLock n).2.locks = update frC.locks n (ReferenceCounts.acquire (frC.locks n)) := by
  rw [friendConnectionLock, hconn, ← locks_lock hconn hlockable]
  exact locks_setConn hconn _

/-- A friend connection is locked. -/
theorem FreeUnlocked.friendConnectionLock (h : frC.FreeUnlocked) (n : ℕ) :
    (frC.friendConnectionLock n).2.FreeUnlocked := by
  unfold FriendConnections.friendConnectionLock
  split
  · exact h
  · rename_i friendCon hconn
    exact h.setConn n fun hfree => absurd hfree (getConn_eq_some.mp hconn).2

/-- A friend connection is created in a free slot, which may be a new one at the end. -/
theorem createFriendConn_spec {env : FriendEnv} {result : Option ℕ} (h : frC.createFriendConn env = (result, frC')) :
    (frC'.conns = frC.conns ∨ frC'.conns = frC.conns ++ [.zero]) ∧
      ∀ id, result = some id → ∃ friendCon, frC'.conns[id]? = some friendCon ∧ friendCon.status = .none := by
  unfold createFriendConn at h
  split at h
  · rename_i id hfound
    obtain ⟨rfl, rfl⟩ := Prod.mk.inj h
    obtain ⟨hlt, hfree, -⟩ := findIdx?_eq_some_iff_getElem.mp hfound
    refine ⟨.inl rfl, fun id' hid => ?_⟩
    obtain rfl := some_inj.mp hid
    exact ⟨frC.conns[id], getElem?_eq_getElem hlt, of_decide_eq_true hfree⟩
  · split at h
    · obtain ⟨rfl, rfl⟩ := Prod.mk.inj h
      refine ⟨.inr rfl, fun id' hid => ?_⟩
      obtain rfl := some_inj.mp hid
      exact ⟨.zero, getElem?_concat_length, rfl⟩
    · obtain ⟨rfl, rfl⟩ := Prod.mk.inj h
      exact ⟨.inl rfl, nofun⟩

/-- A slot that was found for a new friend connection is free, and the lock counts are the same. -/
theorem createFriendConn_free {env : FriendEnv} {result : Option ℕ} (h : frC.createFriendConn env = (result, frC')) :
    LocksKept frC frC' ∧ ∀ id, result = some id → ∃ friendCon, frC'.conns[id]? = some friendCon ∧
      friendCon.status = .none := by
  obtain ⟨hconns, hslot⟩ := createFriendConn_spec h
  refine ⟨?_, hslot⟩
  rcases hconns with hconns | hconns
  · exact .of_conns hconns
  · refine ⟨by rw [locks, hconns]; exact view_concat rfl, fun hfree friendCon hmem hnone => ?_⟩
    rcases mem_append.mp (hconns ▸ hmem) with hold | hnew
    · exact hfree friendCon hold hnone
    · rw [mem_singleton.mp hnew]
      rfl

/-- `new_friend_connection` takes a hold, unless it fails. -/
theorem newFriendConnection_locks {env : FriendEnv} {realPublicKey : PublicKey} {result : Option ℕ}
    (hfree : frC.FreeUnlocked) (h : frC.newFriendConnection env realPublicKey = (result, frC'))
    (hlockable : ∀ n, frC.getfriendConnIdPk realPublicKey = some n → frC.Lockable n) :
    frC'.FreeUnlocked ∧ ((result = none ∧ frC'.locks = frC.locks) ∨
      ∃ n, result = some n ∧ (frC.getfriendConnIdPk realPublicKey = none → frC.locks n = none) ∧
        frC'.locks = update frC.locks n (ReferenceCounts.acquire (frC.locks n))) := by
  unfold newFriendConnection at h
  split at h
  · rename_i n hfound
    obtain ⟨rfl, rfl⟩ := Prod.mk.inj h
    obtain ⟨friendCon, hconn, -⟩ := getfriendConnIdPk_some hfound
    obtain ⟨hget, hlive⟩ := getConn_eq_some.mp hconn
    rw [modify_eq_set hget]
    refine ⟨hfree.setConn n fun hnone => absurd hnone hlive, .inr ⟨n, rfl, fun hnone => ?_, ?_⟩⟩
    · rw [hfound] at hnone
      contradiction
    rw [← locks_lock hconn (hlockable n hfound)]
    exact locks_setConn hconn _
  · split at h
    · rename_i hcreate
      obtain ⟨rfl, rfl⟩ := Prod.mk.inj h
      obtain ⟨hkept, -⟩ := createFriendConn_free hcreate
      exact ⟨hkept.free hfree, .inl ⟨rfl, hkept.locks⟩⟩
    · rename_i n frC₁ hcreate
      obtain ⟨hkept, hslot⟩ := createFriendConn_free hcreate
      obtain ⟨friendCon, hget, hnone⟩ := hslot n rfl
      split at h
      · obtain ⟨rfl, rfl⟩ := Prod.mk.inj h
        exact ⟨hkept.free hfree, .inl ⟨rfl, hkept.locks⟩⟩
      · obtain ⟨rfl, rfl⟩ := Prod.mk.inj h
        have hunlocked := hkept.free hfree friendCon (mem_of_getElem? hget) hnone
        have hnew : frC.locks n = none := by
          rw [← hkept.locks, locks, view_get hget, lockOf, if_pos hnone]
        rw [modify_eq_set hget]
        refine ⟨(hkept.free hfree).setConn n nofun, .inr ⟨n, rfl, fun _ => hnew, ?_⟩⟩
        rw [hnew, ← hkept.locks]
        refine (view_set hget _).trans (congrArg (update _ n) ?_)
        exact congrArg (fun count : UInt16 => some count.toNat) hunlocked

end FriendConnections

open FriendConnections

section Operations

variable {sodium : Sodium} {env : FriendEnv} {w : FriendWorld} {n : ℕ}

variable {friendCon : FriendConn}

/-- A wiped friend connection has no lock. -/
theorem locks_wipeFriendConn {frC : FriendConnections} (hconn : frC.getConn n = some friendCon) :
    (frC.wipeFriendConn n).locks = update frC.locks n none ∧
      (frC.FreeUnlocked → (frC.wipeFriendConn n).FreeUnlocked) := by
  have hzero : (frC.setConn n .zero).locks = update frC.locks n none := locks_setConn hconn .zero
  refine ⟨?_, fun hfree friendCon' hmem => ?_⟩
  · rw [← hzero]
    apply view_rdropWhile
    intro friendCon' hfree
    rw [lockOf, if_pos (of_decide_eq_true hfree)]
  · have hset : (frC.setConn n .zero).FreeUnlocked := hfree.setConn n fun _ => rfl
    exact hset friendCon' ((List.rdropWhile_prefix _ _).subset hmem)

/-- `kill_friend_connection` lets a hold go. -/
theorem killFriendConnection_locks (sodium : Sodium) (env : FriendEnv) (hfree : w.app.FreeUnlocked)
    (hthere : w.app.locks n ≠ none) :
    (killFriendConnection sodium env w n).2.app.FreeUnlocked ∧ (killFriendConnection sodium env w n).2.app.locks =
      update w.app.locks n (ReferenceCounts.release (w.app.locks n)) := by
  unfold killFriendConnection
  split
  · rename_i hnone
    exact absurd (locks_absent hnone) hthere
  · rename_i friendCon hconn
    have hlive := (getConn_eq_some.mp hconn).2
    have hlocks := locks_live hconn
    split
    · rename_i hlocked
      refine ⟨hfree.setConn n fun hnone => absurd hnone hlive, (locks_setConn hconn _).trans ?_⟩
      have hpos : friendCon.lockCount.toNat ≠ 0 := fun hzero => hlocked (UInt16.toNat_inj.mp hzero)
      have hless : (friendCon.lockCount - 1).toNat = friendCon.lockCount.toNat - 1 :=
        UInt16.toNat_sub_of_le _ _ (UInt16.le_iff_toNat_le.mpr (Nat.one_le_iff_ne_zero.mpr hpos))
      have hunlocked : lockOf { friendCon with lockCount := friendCon.lockCount - 1 } =
          some (friendCon.lockCount - 1).toNat := if_neg hlive
      rw [hunlocked, hless, hlocks]
      obtain ⟨k, hk⟩ := Nat.exists_eq_succ_of_ne_zero hpos
      rw [hk]
      rfl
    · rename_i hunlocked
      have hwiped := locks_wipeFriendConn hconn
      refine ⟨hwiped.2 hfree, hwiped.1.trans ?_⟩
      rw [hlocks, not_not.mp hunlocked]
      rfl

end Operations

end Toxcore
