import Toxcore.Data.Sweep
import Toxcore.Groups.Chats

/-!
# Timed out peers of a group

`groupchat_clear_timedout` walks over the peers and deletes those that are timed out. Deleting moves the last peer
into the gap, and the walk goes on behind it, so the peer that was moved is not looked at.
-/

namespace Toxcore

open List

/-- A peer other than ourselves is timed out. -/
def GroupC.timedOut (now : UInt64) (g : GroupC) (peer : GroupPeer) : Bool :=
  g.peerNumber ≠ peer.peerNumber && isTimeout now peer.lastRecv (groupPingInterval * 3)

/-- One more round at a peer that is not timed out. -/
theorem GroupC.clearTimedoutLoop_keep {now : UInt64} {g : GroupC} {i : ℕ} (hi : i < g.group.length)
    (h : g.timedOut now g.group[i] = false) (alloc : ℕ → Bool) (fuel : ℕ) :
    (g.clearTimedoutLoop now alloc (fuel + 1) i).1 = (g.clearTimedoutLoop now alloc fuel (i + 1)).1 := by
  rw [timedOut, Bool.and_eq_false_iff] at h
  rw [clearTimedoutLoop, dif_pos hi, if_neg]
  rintro ⟨hother, htimeout⟩
  rcases h with hself | halive
  · exact absurd (decide_eq_false_iff_not.mp hself) (not_not_intro hother)
  · rw [halive] at htimeout
    contradiction

/-- One more round at a peer that is timed out. -/
theorem GroupC.clearTimedoutLoop_delete {now : UInt64} {g : GroupC} {i : ℕ} (hi : i < g.group.length)
    (h : g.timedOut now g.group[i] = true) (alloc : ℕ → Bool) (fuel : ℕ) :
    (g.clearTimedoutLoop now alloc (fuel + 1) i).1 = ((g.remove i hi).clearTimedoutLoop now alloc fuel (i + 1)).1 := by
  rw [timedOut, Bool.and_eq_true, decide_eq_true_iff] at h
  rw [clearTimedoutLoop, dif_pos hi, if_pos h]
  rfl

/-- The walk is at a peer, with a round left. -/
theorem GroupC.group_front {g : GroupC} {front rest : List GroupPeer} {peer : GroupPeer} {fuel : ℕ}
    (hgroup : g.group = front ++ peer :: rest) (hfuel : (peer :: rest).length ≤ fuel) :
    ∃ fuel', fuel = fuel' + 1 ∧ ∃ hi : front.length < g.group.length, g.group[front.length] = peer := by
  rw [length_cons] at hfuel
  exact ⟨fuel - 1, by omega, by simp [hgroup], by simp [hgroup]⟩

/-- The walk is a sweep of the peers from its position on. -/
theorem GroupC.clearTimedoutLoop_sweep (now : UInt64) (alloc : ℕ → Bool) (bad : GroupPeer → Bool)
    (rest : List GroupPeer) :
    ∀ (fuel : ℕ) (front : List GroupPeer) (g : GroupC), g.timedOut now = bad → g.group = front ++ rest →
      rest.length ≤ fuel →
      (g.clearTimedoutLoop now alloc fuel front.length).1.group = front ++ Sweep.sweep bad rest := by
  induction rest using Sweep.induction bad with
  | nil =>
    intro fuel front g _ hgroup _
    rw [append_nil] at hgroup
    rw [Sweep.sweep_nil, append_nil]
    cases fuel with
    | zero => exact hgroup
    | succ fuel =>
      rw [clearTimedoutLoop, dif_neg (by rw [hgroup]; exact Nat.lt_irrefl _)]
      exact hgroup
  | good peer rest hpeer ih =>
    intro fuel front g hbad hgroup hfuel
    obtain ⟨fuel, rfl, hi, hat⟩ := group_front hgroup hfuel
    rw [clearTimedoutLoop_keep hi (by rw [hbad, hat, hpeer]), Sweep.sweep_good hpeer]
    have hnext := ih fuel (front ++ [peer]) g hbad (by simp [hgroup]) (Nat.le_of_succ_le_succ hfuel)
    rw [length_append, length_singleton, append_assoc] at hnext
    exact hnext
  | last peer hpeer =>
    intro fuel front g hbad hgroup hfuel
    obtain ⟨fuel, rfl, hi, hat⟩ := group_front hgroup hfuel
    have hremoved : (g.remove front.length hi).group = front := by
      change swapRemove g.group front.length = front
      rw [hgroup, swapRemove_last]
    rw [clearTimedoutLoop_delete hi (by rw [hbad, hat, hpeer]), Sweep.sweep_last hpeer, append_nil]
    cases fuel with
    | zero => exact hremoved
    | succ fuel =>
      rw [clearTimedoutLoop, dif_neg (by rw [hremoved]; omega)]
      exact hremoved
  | gap peer middle last hpeer ih =>
    intro fuel front g hbad hgroup hfuel
    obtain ⟨fuel, rfl, hi, hat⟩ := group_front hgroup hfuel
    have hremoved : (g.remove front.length hi).group = (front ++ [last]) ++ middle := by
      change swapRemove g.group front.length = _
      rw [hgroup, swapRemove_gap, append_assoc, singleton_append]
    have hlength : middle.length ≤ fuel := by
      rw [length_cons, length_append] at hfuel
      omega
    rw [clearTimedoutLoop_delete hi (by rw [hbad, hat, hpeer]), Sweep.sweep_gap hpeer]
    have hnext := ih fuel (front ++ [last]) (g.remove front.length hi) hbad hremoved hlength
    rw [length_append, length_singleton, append_assoc] at hnext
    exact hnext

/-- `groupchat_clear_timedout` sweeps the peers. -/
theorem GroupC.clearTimedout_sweep (now : UInt64) (alloc : ℕ → Bool) (g : GroupC) :
    (g.clearTimedout now alloc).1.group = Sweep.sweep (g.timedOut now) g.group :=
  clearTimedoutLoop_sweep now alloc (g.timedOut now) g.group g.group.length [] g rfl rfl (Nat.le_refl _)

/-- Timed out peers are all removed, and all others kept, exactly if no peer that is moved into a gap is timed out. -/
theorem clear_timedout_iff (now : UInt64) (alloc : ℕ → Bool) (g : GroupC) :
    ((∀ peer ∈ (g.clearTimedout now alloc).1.group, g.timedOut now peer = false) ∧
        ((g.clearTimedout now alloc).1.group.filter fun peer => !g.timedOut now peer).Perm
          (g.group.filter fun peer => !g.timedOut now peer)) ↔
      Sweep.Clears (g.timedOut now) g.group := by
  rw [g.clearTimedout_sweep, Sweep.forall_sweep_iff]
  exact and_iff_left (Sweep.filter_sweep_perm g.group)

/-- A group in which two peers besides ourselves were not heard from since the start. -/
def silentGroup : GroupC :=
  ⟨.connected, List.Vector.replicate groupIdentifierLength 0,
    [⟨PublicKey.zero, PublicKey.zero, 0, 0, [], 0⟩, ⟨List.Vector.replicate 32 1, PublicKey.zero, 0, 0, [], 1⟩,
      ⟨List.Vector.replicate 32 2, PublicKey.zero, 0, 0, [], 2⟩],
    0, [], by decide, by decide⟩

/-- Of two peers that are timed out the second is moved into the place of the first and stays. -/
theorem silentGroup_keeps_timedout : ∃ peer ∈ (silentGroup.clearTimedout 1000 fun _ => true).1.group,
    peer.peerNumber = 2 ∧ silentGroup.timedOut 1000 peer = true := by
  decide

end Toxcore
