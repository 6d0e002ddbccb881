import Mathlib.Algebra.BigOperators.Intervals
import Toxcore.Data.DuplicateWindow

/-!
# Lossy packets that were received before

The lossy packets of a peer are numbered with 16 bits. The last `MAX_LOSSY_COUNT` numbers up to the top one each have
a slot that says whether the packet was received. A number up to 2^15 above the bottom of this window becomes the top.

Counting the advances of the top number tells numbers apart that agree in 16 bits. Every number counted like this is
received at most once.
-/

namespace Toxcore

open DuplicateWindow

/-- `MAX_LOSSY_COUNT`. -/
abbrev maxLossyCount : ℕ := 256

/-- The part of `Group_Peer` about lossy packets. -/
structure LossyPeer where
  recvLossy : Fin maxLossyCount → Bool
  bottomLossyNumber : UInt16
  topLossyNumber : UInt16

/-- A peer cleared to zero bytes. -/
def LossyPeer.zero : LossyPeer := ⟨fun _ => false, 0, 0⟩

/-- The return values -1, 0 and 1 of `lossy_packet_not_received`. -/
inductive LossyResult where
  | failure
  | notReceived
  | received
  deriving DecidableEq

/-- The slot of a number. -/
def lossySlot (messageNumber : UInt16) : Fin maxLossyCount := Fin.ofNat maxLossyCount messageNumber.toNat

/-- The fields after a number became the top one, with the slots of the others. -/
def LossyPeer.topped (recvLossy : Fin maxLossyCount → Bool) (messageNumber : UInt16) : LossyPeer where
  recvLossy := Function.update recvLossy (lossySlot messageNumber) true
  bottomLossyNumber := messageNumber - 256 + 1
  topLossyNumber := messageNumber

/-- `lossy_packet_not_received` for the peer at an index; the index -1, for which it fails, is that of no peer. One of
its two last conditions holds, so the value behind them is not returned. -/
def LossyPeer.lossyPacketNotReceived (peer : LossyPeer) (messageNumber : UInt16) : LossyResult × LossyPeer :=
  if peer.bottomLossyNumber = peer.topLossyNumber then (.notReceived, topped peer.recvLossy messageNumber)
  else if (messageNumber - peer.bottomLossyNumber).toNat < maxLossyCount then
    if peer.recvLossy (lossySlot messageNumber) then (.received, peer)
    else
      (.notReceived, { peer with recvLossy := Function.update peer.recvLossy (lossySlot messageNumber) true })
  else if (messageNumber - peer.bottomLossyNumber).toNat > 2 ^ 15 then (.failure, peer)
  else
    let topDistance := (messageNumber - peer.topLossyNumber).toNat
    if topDistance ≥ maxLossyCount then (.notReceived, topped (fun _ => false) messageNumber)
    else (.notReceived, topped (clear peer.recvLossy peer.bottomLossyNumber.toNat topDistance) messageNumber)

/-! ## One packet -/

/-- A number is one of the `MAX_LOSSY_COUNT` numbers that end at the top one. -/
def LossyPeer.InWindow (peer : LossyPeer) (messageNumber : UInt16) : Prop :=
  (peer.topLossyNumber - messageNumber).toNat < maxLossyCount

/-- A number is above the top one and at most 2^15 above the bottom. -/
def LossyPeer.Ahead (peer : LossyPeer) (messageNumber : UInt16) : Prop :=
  ¬peer.InWindow messageNumber ∧ (messageNumber - peer.bottomLossyNumber).toNat ≤ 2 ^ 15

/-- The window of a peer, where its top number is counted as `top`. -/
structure LossyPeer.TopAt (peer : LossyPeer) (top : ℕ) : Prop where
  topNumber : peer.topLossyNumber.toNat = top % 65536
  bottomNumber : peer.bottomLossyNumber.toNat = (top + 65281) % 65536
  high : 65536 ≤ top

/-- What a number is counted as, under the top number `top`. -/
def LossyPeer.counted (peer : LossyPeer) (top : ℕ) (messageNumber : UInt16) : ℕ :=
  top - 255 + (messageNumber - peer.bottomLossyNumber).toNat

namespace LossyPeer.TopAt

variable {peer : LossyPeer} {top : ℕ}

/-- A number is counted as one that agrees with it in 16 bits. -/
theorem counted_mod (h : peer.TopAt top) (messageNumber : UInt16) :
    peer.counted top messageNumber % 65536 = messageNumber.toNat := by
  have hnumber := messageNumber.toNat_lt
  have hbottom := h.bottomNumber
  have hhigh := h.high
  rw [counted, UInt16.toNat_sub]
  omega

theorem counted_lt (h : peer.TopAt top) (messageNumber : UInt16) :
    top < peer.counted top messageNumber + 256 ∧ peer.counted top messageNumber < top - 255 + 65536 := by
  have hsub := (messageNumber - peer.bottomLossyNumber).toNat_lt
  have hhigh := h.high
  rw [counted]
  omega

/-- The window holds the numbers up to the top one. -/
theorem inWindow_iff (h : peer.TopAt top) (messageNumber : UInt16) :
    peer.InWindow messageNumber ↔ peer.counted top messageNumber ≤ top := by
  have hnumber := messageNumber.toNat_lt
  have hbottom := h.bottomNumber
  have htop := h.topNumber
  have hhigh := h.high
  rw [InWindow, counted, UInt16.toNat_sub, UInt16.toNat_sub, maxLossyCount]
  omega

/-- A number and what it counts have one slot. -/
theorem slot_eq (h : peer.TopAt top) (messageNumber : UInt16) :
    lossySlot messageNumber = Fin.ofNat maxLossyCount (peer.counted top messageNumber) := by
  rw [lossySlot, ofNat_eq_iff, ← h.counted_mod messageNumber]
  exact Nat.mod_mod_of_dvd _ (by decide)

theorem topped (slots : Fin maxLossyCount → Bool) {messageNumber : UInt16} {top : ℕ}
    (hnumber : top % 65536 = messageNumber.toNat) (hhigh : 65536 ≤ top) :
    (LossyPeer.topped slots messageNumber).TopAt top where
  topNumber := hnumber.symm
  bottomNumber := by
    have hlt := messageNumber.toNat_lt
    change (messageNumber - 256 + 1).toNat = (top + 65281) % 65536
    rw [UInt16.toNat_add, UInt16.toNat_sub]
    simp only [UInt16.reduceToNat]
    omega
  high := hhigh

theorem ne (h : peer.TopAt top) : peer.bottomLossyNumber ≠ peer.topLossyNumber := by
  intro heq
  have hbottom := h.bottomNumber
  rw [heq, h.topNumber] at hbottom
  omega

end LossyPeer.TopAt

open LossyPeer

/-- What a call does to a window that remembers what was received: a number in the window is refused if it was
received and received if it was not, a number ahead becomes the top one, and any other is refused. -/
theorem lossyPacketNotReceived_cases {peer : LossyPeer} {top : ℕ} {seen : Set ℕ} (h : peer.TopAt top)
    (hremembers : Remembers peer.recvLossy top seen) (messageNumber : UInt16) :
    (peer.InWindow messageNumber ∧ peer.counted top messageNumber ∈ seen ∧
        peer.lossyPacketNotReceived messageNumber = (.received, peer)) ∨
      (peer.InWindow messageNumber ∧ peer.counted top messageNumber ∉ seen ∧
        ∃ slots, peer.lossyPacketNotReceived messageNumber = (.notReceived, { peer with recvLossy := slots }) ∧
          Remembers slots top (insert (peer.counted top messageNumber) seen)) ∨
      (peer.Ahead messageNumber ∧
        ∃ peer', peer.lossyPacketNotReceived messageNumber = (.notReceived, peer') ∧
          peer'.topLossyNumber = messageNumber ∧
          peer'.TopAt (peer.counted top messageNumber) ∧
          Remembers peer'.recvLossy (peer.counted top messageNumber) (insert (peer.counted top messageNumber) seen)) ∨
      (¬peer.InWindow messageNumber ∧ ¬peer.Ahead messageNumber ∧
        peer.lossyPacketNotReceived messageNumber = (.failure, peer)) := by
  have hslot := h.slot_eq messageNumber
  have hin := h.inWindow_iff messageNumber
  obtain ⟨hlow, hhigh⟩ := h.counted_lt messageNumber
  have htopHigh := h.high
  have hcount : maxLossyCount = 256 := rfl
  set u := peer.counted top messageNumber with hu
  have hoffset : (messageNumber - peer.bottomLossyNumber).toNat = u - (top - 255) := by
    rw [hu, counted, Nat.add_sub_cancel_left]
  rw [LossyPeer.lossyPacketNotReceived, if_neg h.ne, hoffset]
  by_cases hwindow : u ≤ top
  · have hinside := hin.mpr hwindow
    rw [if_pos (by omega), hslot]
    have hseen := hremembers.slot u hwindow hlow
    by_cases hset : peer.recvLossy (Fin.ofNat maxLossyCount u) = true
    · rw [if_pos hset]
      exact .inl ⟨hinside, hseen.mp hset, rfl⟩
    · rw [if_neg hset]
      exact .inr (.inl ⟨hinside, fun hmem => hset (hseen.mpr hmem), _, rfl, hremembers.mark hwindow hlow⟩)
  · have houtside : ¬peer.InWindow messageNumber := fun hinside => hwindow (hin.mp hinside)
    rw [if_neg (by omega)]
    by_cases hfar : u - (top - 255) > 2 ^ 15
    · rw [if_pos hfar]
      refine .inr (.inr (.inr ⟨houtside, fun hahead => ?_, rfl⟩))
      exact absurd hahead.2 (by rw [hoffset]; omega)
    · rw [if_neg hfar]
      have hahead : peer.Ahead messageNumber := ⟨houtside, by rw [hoffset]; omega⟩
      have htopAt (slots : Fin maxLossyCount → Bool) : (topped slots messageNumber).TopAt u :=
        TopAt.topped slots (h.counted_mod messageNumber) (by omega)
      have hdistance : (messageNumber - peer.topLossyNumber).toNat = u - top := by
        have hnumber := h.counted_mod messageNumber
        have htop := h.topNumber
        rw [UInt16.toNat_sub]
        omega
      have hreached : u = top + (u - top) := by omega
      dsimp only
      rw [hdistance]
      split
      · rename_i hjump
        refine .inr (.inr (.inl ⟨hahead, _, rfl, rfl, htopAt _, ?_⟩))
        have hcleared := hremembers.jump hjump
        rw [← hreached] at hcleared
        rw [topped, hslot]
        exact hcleared.mark le_rfl (by omega)
      · rename_i hstep
        refine .inr (.inr (.inl ⟨hahead, _, rfl, rfl, htopAt _, ?_⟩))
        have hstart : peer.bottomLossyNumber.toNat % maxLossyCount = (top + 1) % maxLossyCount := by
          rw [h.bottomNumber, hcount]
          omega
        have hcleared := hremembers.advance (u - top) hstart
        rw [← hreached] at hcleared
        rw [topped, hslot]
        exact hcleared.mark le_rfl (by omega)

/-! ## Runs -/

section Run

variable (numbers : ℕ → UInt16)

/-- A peer that was new, after `k` calls with these numbers. -/
def lossyRun : ℕ → LossyPeer
  | 0 => .zero
  | k + 1 => ((lossyRun k).lossyPacketNotReceived (numbers k)).2

/-- The call of index `k` returns 0: its number is accepted. -/
def LossyAccepts (k : ℕ) : Prop := ((lossyRun numbers k).lossyPacketNotReceived (numbers k)).1 = .notReceived

/-- By how much the call of index `k` advances the top number. -/
def lossyAdvance (k : ℕ) : ℕ := ((lossyRun numbers (k + 1)).topLossyNumber - (lossyRun numbers k).topLossyNumber).toNat

/-- The top number before the call of index `k`, counted on from the first one. -/
def lossyTop (k : ℕ) : ℕ :=
  65536 + (lossyRun numbers 1).topLossyNumber.toNat + ∑ i ∈ Finset.Ico 1 k, lossyAdvance numbers i

/-- What the number of the call of index `k` is counted as. -/
def lossyCounted (k : ℕ) : ℕ :=
  if k = 0 then lossyTop numbers 1 else (lossyRun numbers k).counted (lossyTop numbers k) (numbers k)

/-- The numbers accepted before the call of index `k`, as they are counted. -/
def lossySeen (k : ℕ) : Set ℕ := {u | ∃ j < k, LossyAccepts numbers j ∧ lossyCounted numbers j = u}

/-- The fields of the peer before the call of index `k` say what was accepted. -/
structure LossyConsistent (k : ℕ) : Prop where
  topAt : (lossyRun numbers k).TopAt (lossyTop numbers k)
  remembers : Remembers (lossyRun numbers k).recvLossy (lossyTop numbers k) (lossySeen numbers k)

/-- What the call of index `k` does. -/
inductive LossyStep (k : ℕ) : Prop
  | duplicate (hin : (lossyRun numbers k).InWindow (numbers k)) (hseen : lossyCounted numbers k ∈ lossySeen numbers k)
      (hrefused : ¬LossyAccepts numbers k) (htop : lossyTop numbers (k + 1) = lossyTop numbers k)
  | fresh (hin : (lossyRun numbers k).InWindow (numbers k)) (hnew : lossyCounted numbers k ∉ lossySeen numbers k)
      (haccepted : LossyAccepts numbers k) (htop : lossyTop numbers (k + 1) = lossyTop numbers k)
  | ahead (hahead : (lossyRun numbers k).Ahead (numbers k)) (haccepted : LossyAccepts numbers k)
      (hnumber : (lossyRun numbers (k + 1)).topLossyNumber = numbers k)
      (htop : lossyTop numbers (k + 1) = lossyCounted numbers k)
  | behind (hout : ¬(lossyRun numbers k).InWindow (numbers k)) (hbehind : ¬(lossyRun numbers k).Ahead (numbers k))
      (hrefused : ¬LossyAccepts numbers k) (htop : lossyTop numbers (k + 1) = lossyTop numbers k)

variable {numbers} {j k : ℕ}

/-- The top number is the sum of its steps. -/
theorem lossyTop_add (hj : 1 ≤ j) (hjk : j ≤ k) :
    lossyTop numbers k = lossyTop numbers j + ∑ i ∈ Finset.Ico j k, lossyAdvance numbers i := by
  rw [lossyTop, lossyTop, Nat.add_assoc _ (∑ i ∈ Finset.Ico 1 j, _), Finset.sum_Ico_consecutive _ hj hjk]

theorem lossyTop_succ (hk : 1 ≤ k) : lossyTop numbers (k + 1) = lossyTop numbers k + lossyAdvance numbers k := by
  rw [lossyTop_add hk (Nat.le_succ k), Finset.sum_Ico_succ_top le_rfl, Finset.Ico_self, Finset.sum_empty, zero_add]

/-- The top number does not fall. -/
theorem lossyTop_mono (hj : 1 ≤ j) (hjk : j ≤ k) : lossyTop numbers j ≤ lossyTop numbers k := by
  rw [lossyTop_add hj hjk]
  exact Nat.le_add_right _ _

theorem lossyCounted_pos (hk : 1 ≤ k) :
    lossyCounted numbers k = (lossyRun numbers k).counted (lossyTop numbers k) (numbers k) :=
  if_neg (Nat.ne_of_gt hk)

/-- A number that is refused is not seen. -/
theorem lossySeen_of_refused (h : ¬LossyAccepts numbers k) : lossySeen numbers (k + 1) = lossySeen numbers k := by
  ext u
  constructor
  · rintro ⟨j, hj, haccepted, hu⟩
    rcases Nat.lt_succ_iff_lt_or_eq.mp hj with hlt | rfl
    · exact ⟨j, hlt, haccepted, hu⟩
    · exact absurd haccepted h
  · rintro ⟨j, hj, haccepted, hu⟩
    exact ⟨j, Nat.lt_succ_of_lt hj, haccepted, hu⟩

/-- A number that is accepted is seen. -/
theorem lossySeen_of_accepted (h : LossyAccepts numbers k) :
    lossySeen numbers (k + 1) = insert (lossyCounted numbers k) (lossySeen numbers k) := by
  ext u
  rw [Set.mem_insert_iff]
  constructor
  · rintro ⟨j, hj, haccepted, hu⟩
    rcases Nat.lt_succ_iff_lt_or_eq.mp hj with hlt | rfl
    · exact .inr ⟨j, hlt, haccepted, hu⟩
    · exact .inl hu.symm
  · rintro (rfl | ⟨j, hj, haccepted, hu⟩)
    · exact ⟨k, Nat.lt_succ_self k, h, rfl⟩
    · exact ⟨j, Nat.lt_succ_of_lt hj, haccepted, hu⟩

/-- The first number is accepted and becomes the top one. -/
theorem lossyRun_one : LossyAccepts numbers 0 ∧ lossyRun numbers 1 = topped (fun _ => false) (numbers 0) := ⟨rfl, rfl⟩

theorem lossyTop_one : lossyTop numbers 1 = 65536 + (numbers 0).toNat := by
  rw [lossyTop, Finset.Ico_self, Finset.sum_empty, add_zero]
  rfl

theorem LossyConsistent.one : LossyConsistent numbers 1 where
  topAt := by
    have hnumber : (65536 + (numbers 0).toNat) % 65536 = (numbers 0).toNat := by
      rw [Nat.add_mod_left, Nat.mod_eq_of_lt (numbers 0).toNat_lt]
    rw [lossyTop_one]
    exact TopAt.topped _ hnumber (Nat.le_add_right _ _)
  remembers := by
    have hslot : lossySlot (numbers 0) = Fin.ofNat maxLossyCount (lossyTop numbers 1) := by
      rw [lossySlot, ofNat_eq_iff, lossyTop_one]
      change (numbers 0).toNat % 256 = (65536 + (numbers 0).toNat) % 256
      omega
    have hseen : lossySeen numbers 1 = insert (lossyTop numbers 1) ∅ := by
      rw [lossySeen_of_accepted lossyRun_one.1, lossyCounted, if_pos rfl]
      congr 1
      ext u
      simp [lossySeen]
    rw [hseen, lossyRun_one.2, topped, hslot]
    exact (Remembers.empty _).mark le_rfl (Nat.lt_add_of_pos_right (by decide))

/-- What a call does, and that the fields stay right. -/
theorem LossyConsistent.step (h : LossyConsistent numbers k) (hk : 1 ≤ k) :
    LossyStep numbers k ∧ LossyConsistent numbers (k + 1) := by
  have hnext : lossyRun numbers (k + 1) = ((lossyRun numbers k).lossyPacketNotReceived (numbers k)).2 := rfl
  have hsame (htop : (lossyRun numbers (k + 1)).topLossyNumber = (lossyRun numbers k).topLossyNumber) :
      lossyTop numbers (k + 1) = lossyTop numbers k := by
    rw [lossyTop_succ hk, lossyAdvance, htop, UInt16.sub_self]
    rfl
  have hcases := lossyPacketNotReceived_cases h.topAt h.remembers (numbers k)
  rw [← lossyCounted_pos hk] at hcases
  rcases hcases with ⟨hin, hseen, hcall⟩ | ⟨hin, hnew, slots, hcall, hremembers⟩ |
    ⟨hahead, peer', hcall, hnumber, htopAt, hremembers⟩ | ⟨hout, hbehind, hcall⟩
  · have hrefused : ¬LossyAccepts numbers k := by simp [LossyAccepts, hcall]
    rw [hcall] at hnext
    have htop := hsame (by rw [hnext])
    refine ⟨.duplicate hin hseen hrefused htop, ?_, ?_⟩
    · rw [hnext, htop]
      exact h.topAt
    · rw [hnext, htop, lossySeen_of_refused hrefused]
      exact h.remembers
  · have haccepted : LossyAccepts numbers k := by simp [LossyAccepts, hcall]
    rw [hcall] at hnext
    have htop := hsame (by rw [hnext])
    refine ⟨.fresh hin hnew haccepted htop, ?_, ?_⟩
    · rw [hnext, htop]
      exact ⟨h.topAt.topNumber, h.topAt.bottomNumber, h.topAt.high⟩
    · rw [hnext, htop, lossySeen_of_accepted haccepted]
      exact hremembers
  · have haccepted : LossyAccepts numbers k := by simp [LossyAccepts, hcall]
    rw [hcall] at hnext
    have htop : lossyTop numbers (k + 1) = lossyCounted numbers k := by
      have habove := (h.topAt.inWindow_iff (numbers k)).not.mp hahead.1
      have hlt := (h.topAt.counted_lt (numbers k)).2
      rw [← lossyCounted_pos hk] at habove hlt
      rw [lossyTop_succ hk, lossyAdvance, hnext, UInt16.toNat_sub, htopAt.topNumber, h.topAt.topNumber]
      have hhigh := h.topAt.high
      omega
    refine ⟨.ahead hahead haccepted (by rw [hnext, hnumber]) htop, ?_, ?_⟩
    · rw [hnext, htop]
      exact htopAt
    · rw [hnext, htop, lossySeen_of_accepted haccepted]
      exact hremembers
  · have hrefused : ¬LossyAccepts numbers k := by simp [LossyAccepts, hcall]
    rw [hcall] at hnext
    have htop := hsame (by rw [hnext])
    refine ⟨.behind hout hbehind hrefused htop, ?_, ?_⟩
    · rw [hnext, htop]
      exact h.topAt
    · rw [hnext, htop, lossySeen_of_refused hrefused]
      exact h.remembers

variable (numbers) in

/-- The window is consistent after every number. -/
theorem lossyConsistent (hk : 1 ≤ k) : LossyConsistent numbers k := by
  induction k, hk using Nat.le_induction with
  | base => exact .one
  | succ k hk ih => exact (ih.step hk).2

variable (numbers) in

/-- Every number makes a step. -/
theorem lossyStep (hk : 1 ≤ k) : LossyStep numbers k := ((lossyConsistent numbers hk).step hk).1

/-! ## What is accepted -/

theorem lossyCounted_mod (k : ℕ) : lossyCounted numbers k % 65536 = (numbers k).toNat := by
  rcases Nat.eq_zero_or_pos k with rfl | hk
  · rw [lossyCounted, if_pos rfl, lossyTop_one, Nat.add_mod_left, Nat.mod_eq_of_lt (numbers 0).toNat_lt]
  · rw [lossyCounted_pos hk]
    exact (lossyConsistent numbers hk).topAt.counted_mod _

/-- A number that is counted as one in the window is that one. -/
theorem counted_unique {i u : ℕ} (hi : 1 ≤ i) {messageNumber : UInt16} (hmod : u % 65536 = messageNumber.toNat)
    (hlow : lossyTop numbers i < u + 256) (hhigh : u < lossyTop numbers i - 255 + 65536) :
    (lossyRun numbers i).counted (lossyTop numbers i) messageNumber = u := by
  have htopAt := (lossyConsistent numbers hi).topAt
  have hmod' := htopAt.counted_mod messageNumber
  obtain ⟨hlow', hhigh'⟩ := htopAt.counted_lt messageNumber
  have htop := htopAt.high
  omega

/-- An accepted number is in the window right after. -/
theorem lossyTop_accepted (haccepted : LossyAccepts numbers j) :
    lossyCounted numbers j ≤ lossyTop numbers (j + 1) ∧ lossyTop numbers (j + 1) < lossyCounted numbers j + 256 := by
  rcases Nat.eq_zero_or_pos j with rfl | hj
  · rw [lossyCounted, if_pos rfl]
    exact ⟨le_rfl, Nat.lt_add_of_pos_right (by decide)⟩
  · have htopAt := (lossyConsistent numbers hj).topAt
    have hwindow := htopAt.inWindow_iff (numbers j)
    have hlow := (htopAt.counted_lt (numbers j)).1
    rw [← lossyCounted_pos hj] at hwindow hlow
    cases lossyStep numbers hj with
    | duplicate _ _ hrefused _ => exact absurd haccepted hrefused
    | fresh hin _ _ htop =>
      rw [htop]
      exact ⟨hwindow.mp hin, hlow⟩
    | ahead _ _ _ htop =>
      rw [htop]
      omega
    | behind _ _ hrefused _ => exact absurd haccepted hrefused

/-- What is accepted was not accepted before, and is not far above the window. -/
theorem lossyCounted_accepted (hk : 1 ≤ k) (haccepted : LossyAccepts numbers k) :
    lossyCounted numbers k ∉ lossySeen numbers k ∧ lossyCounted numbers k + 255 ≤ lossyTop numbers k + 2 ^ 15 := by
  have hconsistent := lossyConsistent numbers hk
  have hwindow := hconsistent.topAt.inWindow_iff (numbers k)
  have hhigh := hconsistent.topAt.high
  rw [← lossyCounted_pos hk] at hwindow
  cases lossyStep numbers hk with
  | duplicate _ _ hrefused _ => exact absurd haccepted hrefused
  | fresh hin hnew _ _ =>
    have hle := hwindow.mp hin
    exact ⟨hnew, by omega⟩
  | ahead hahead _ _ _ =>
    have habove := hwindow.not.mp hahead.1
    refine ⟨fun hseen => habove (hconsistent.remembers.le _ hseen), ?_⟩
    have hclose := hahead.2
    rw [lossyCounted_pos hk, counted]
    omega
  | behind _ _ hrefused _ => exact absurd haccepted hrefused

/-- No call advances the top number by more than 2^15. -/
theorem lossyTop_succ_le (hk : 1 ≤ k) : lossyTop numbers (k + 1) ≤ lossyTop numbers k + 2 ^ 15 := by
  cases lossyStep numbers hk with
  | duplicate _ _ _ htop => exact htop.le.trans (Nat.le_add_right _ _)
  | fresh _ _ _ htop => exact htop.le.trans (Nat.le_add_right _ _)
  | ahead _ haccepted _ htop =>
    have hclose := (lossyCounted_accepted hk haccepted).2
    omega
  | behind _ _ _ htop => exact htop.le.trans (Nat.le_add_right _ _)

/-- Between two acceptances of one number the top number advances by 2^15 or more. -/
theorem lossyAdvance_between (hjk : j < k) (hsame : numbers j = numbers k) (hj : LossyAccepts numbers j)
    (hk : LossyAccepts numbers k) : 2 ^ 15 ≤ ∑ i ∈ Finset.Ico (j + 1) k, lossyAdvance numbers i := by
  have hpos : 1 ≤ k := Nat.one_le_of_lt hjk
  obtain ⟨hnew, hclose⟩ := lossyCounted_accepted hpos hk
  obtain ⟨hle, hlt⟩ := lossyTop_accepted hj
  have hne : lossyCounted numbers j ≠ lossyCounted numbers k := fun heq => hnew ⟨j, hjk, hj, heq⟩
  have hmod : lossyCounted numbers j % 65536 = lossyCounted numbers k % 65536 := by
    rw [lossyCounted_mod, lossyCounted_mod, hsame]
  have hlow := ((lossyConsistent numbers hpos).topAt.counted_lt (numbers k)).1
  rw [← lossyCounted_pos hpos] at hlow
  have hadvance : lossyTop numbers k = lossyTop numbers (j + 1) + ∑ i ∈ Finset.Ico (j + 1) k, lossyAdvance numbers i :=
    lossyTop_add (Nat.le_add_left 1 j) hjk
  omega

/-- A number is in the window again and was counted as the same one exactly if it was in the window ever since. -/
theorem lossyCounted_eq_iff (hjk : j < k) (hj : LossyAccepts numbers j) :
    lossyCounted numbers j = lossyCounted numbers k ↔
      numbers j = numbers k ∧ ∀ i, j < i → i ≤ k → (lossyRun numbers i).InWindow (numbers k) := by
  have hpos : 1 ≤ k := Nat.one_le_of_lt hjk
  have htopAt (i : ℕ) (hi : j < i) := (lossyConsistent numbers (Nat.one_le_of_lt hi)).topAt
  obtain ⟨hle, hlt⟩ := lossyTop_accepted hj
  constructor
  · intro heq
    have hmod : (numbers j).toNat = (numbers k).toNat := by rw [← lossyCounted_mod, ← lossyCounted_mod, heq]
    refine ⟨UInt16.toNat_inj.mp hmod, fun i hji hik => ?_⟩
    have hbefore : lossyTop numbers (j + 1) ≤ lossyTop numbers i := lossyTop_mono (Nat.le_add_left 1 j) hji
    have hafter : lossyTop numbers i ≤ lossyTop numbers k := lossyTop_mono (Nat.one_le_of_lt hji) hik
    have hlow := ((htopAt k hjk).counted_lt (numbers k)).1
    rw [← lossyCounted_pos hpos] at hlow
    have hhigh := (htopAt i hji).high
    have hcounted : (lossyRun numbers i).counted (lossyTop numbers i) (numbers k) = lossyCounted numbers k :=
      counted_unique (Nat.one_le_of_lt hji) (lossyCounted_mod k) (by omega) (by omega)
    rw [(htopAt i hji).inWindow_iff, hcounted, ← heq]
    exact hle.trans hbefore
  · rintro ⟨hsame, hwindow⟩
    -- in the window at every call in between, the number is counted as the same one
    have hcounted : ∀ i, j + 1 ≤ i → i ≤ k →
        (lossyRun numbers i).counted (lossyTop numbers i) (numbers k) = lossyCounted numbers j := by
      intro i hi
      induction i, hi using Nat.le_induction with
      | base =>
        intro _
        have hhigh := (htopAt (j + 1) (Nat.lt_succ_self j)).high
        exact counted_unique (Nat.le_add_left 1 j) (by rw [lossyCounted_mod, hsame]) hlt (by omega)
      | succ i hi ih =>
        intro hik
        have hprev := ih (Nat.le_of_succ_le hik)
        have hwindow' :=
          ((htopAt (i + 1) (Nat.lt_succ_of_lt hi)).inWindow_iff _).mp (hwindow (i + 1) (Nat.lt_succ_of_lt hi) hik)
        have hlow := ((htopAt (i + 1) (Nat.lt_succ_of_lt hi)).counted_lt (numbers k)).1
        have hmod := (htopAt (i + 1) (Nat.lt_succ_of_lt hi)).counted_mod (numbers k)
        rw [← hsame, ← lossyCounted_mod, hsame] at hmod
        have hlow' := ((htopAt i hi).counted_lt (numbers k)).1
        rw [hprev] at hlow'
        have hbefore : lossyTop numbers (j + 1) ≤ lossyTop numbers i := lossyTop_mono (Nat.le_add_left 1 j) hi
        have hmono : lossyTop numbers i ≤ lossyTop numbers (i + 1) :=
          lossyTop_mono (Nat.one_le_of_lt hi) (Nat.le_succ i)
        have hstep : lossyTop numbers (i + 1) ≤ lossyTop numbers i + 2 ^ 15 := lossyTop_succ_le (Nat.one_le_of_lt hi)
        omega
    rw [lossyCounted_pos hpos, hcounted k hjk le_rfl]

/-- The window of lossy packet numbers of a peer, for any numbers after its first one: between two acceptances of one
number the top number advances by 2^15 or more; a number in the window is accepted exactly if it was not accepted
since it entered the window, that is at no call since which it has always been in the window; and a number ahead is
accepted and becomes the top one. -/
theorem lossy_packets_deduplicated (numbers : ℕ → UInt16) :
    (∀ j k, j < k → numbers j = numbers k → LossyAccepts numbers j → LossyAccepts numbers k →
        2 ^ 15 ≤ ∑ i ∈ Finset.Ico (j + 1) k, lossyAdvance numbers i) ∧
      ∀ k, 1 ≤ k →
        ((lossyRun numbers k).InWindow (numbers k) →
          (LossyAccepts numbers k ↔
            ¬∃ j < k, numbers j = numbers k ∧ LossyAccepts numbers j ∧
              ∀ i, j < i → i ≤ k → (lossyRun numbers i).InWindow (numbers k))) ∧
        ((lossyRun numbers k).Ahead (numbers k) →
          LossyAccepts numbers k ∧ (lossyRun numbers (k + 1)).topLossyNumber = numbers k) := by
  refine ⟨fun j k hjk hsame hj hk => lossyAdvance_between hjk hsame hj hk, fun k hk =>
    ⟨fun hin => ?_, fun hahead => ?_⟩⟩
  · have hseen : lossyCounted numbers k ∈ lossySeen numbers k ↔
        ∃ j < k, numbers j = numbers k ∧ LossyAccepts numbers j ∧
          ∀ i, j < i → i ≤ k → (lossyRun numbers i).InWindow (numbers k) := by
      constructor
      · rintro ⟨j, hjk, hj, heq⟩
        obtain ⟨hsame, hwindow⟩ := (lossyCounted_eq_iff hjk hj).mp heq
        exact ⟨j, hjk, hsame, hj, hwindow⟩
      · rintro ⟨j, hjk, hsame, hj, hwindow⟩
        exact ⟨j, hjk, hj, (lossyCounted_eq_iff hjk hj).mpr ⟨hsame, hwindow⟩⟩
    rw [← hseen]
    constructor
    · intro haccepted
      exact (lossyCounted_accepted hk haccepted).1
    · intro hnew
      cases lossyStep numbers hk with
      | duplicate _ hold _ _ => exact absurd hold hnew
      | fresh _ _ haccepted _ => exact haccepted
      | ahead hahead _ _ _ => exact absurd hin hahead.1
      | behind hout _ _ _ => exact absurd hin hout
  · cases lossyStep numbers hk with
    | duplicate hin _ _ _ => exact absurd hin hahead.1
    | fresh hin _ _ _ => exact absurd hin hahead.1
    | ahead _ haccepted hnumber _ => exact ⟨haccepted, hnumber⟩
    | behind _ hbehind _ _ => exact absurd hahead hbehind

end Run

end Toxcore
