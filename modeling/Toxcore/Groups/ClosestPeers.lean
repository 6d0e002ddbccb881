import Toxcore.Groups.CloseConnections

/-!
# The closest peers of a group

Half of the closest peers are the ones closest to us in one direction of the circle of keys, and half in the other. A
key that is closer than a peer takes its place, and the peer is added again, so that it may take the place of another
one. At every place the peers only become closer, so that a key that finds no place is at least as far as all that are
kept, and remains so.
-/

namespace Toxcore

open ByteStrings TableView Function List

namespace GroupConnections

/-- The places of the closest peers, with the key of each one that is filled. -/
def closestCells (c : GroupConnections) : List (Option PublicKey) :=
  List.ofFn fun i => if (c.closestPeers i).entry then some (c.closestPeers i).realPk else none

/-- The keys of the closest peers. -/
def closestKeys (c : GroupConnections) : List PublicKey := c.closestCells.reduceOption

/-- Every place is filled, and by a peer that is at most as far as a key. -/
def KeptFrom (selfPk : PublicKey) (c : GroupConnections) (dropped : PublicKey) : Prop :=
  ∀ i, (c.closestPeers i).entry = true ∧ compValueAt selfPk i (c.closestPeers i).realPk ≤ compValueAt selfPk i dropped

variable {selfPk realPk tempPk : PublicKey} {c : GroupConnections} {i : Fin desiredCloseConnections}

theorem closestCells_get (c : GroupConnections) (i : Fin desiredCloseConnections) : c.closestCells[i.val]? =
    some (if (c.closestPeers i).entry then some (c.closestPeers i).realPk else none) := by
  rw [closestCells, List.getElem?_ofFn, dif_pos i.isLt]

/-- A place is filled. -/
theorem closestCells_set (c : GroupConnections) (i : Fin desiredCloseConnections) (realPk tempPk : PublicKey) :
    (c.setClosest i ⟨true, realPk, tempPk⟩).closestCells = c.closestCells.set i (some realPk) := by
  apply ext_getElem?
  intro n
  rw [getElem?_set]
  by_cases hn : n < desiredCloseConnections
  · have hset := closestCells_get (c.setClosest i ⟨true, realPk, tempPk⟩) ⟨n, hn⟩
    have hget := closestCells_get c ⟨n, hn⟩
    have hlen : c.closestCells.length = desiredCloseConnections := length_ofFn
    rw [hset]
    by_cases hi : i.val = n
    · obtain rfl : i = ⟨n, hn⟩ := Fin.ext hi
      simp only [setClosest, update_self, if_true, hlen, hn]
    · rw [if_neg hi, hget]
      have hother : (⟨n, hn⟩ : Fin desiredCloseConnections) ≠ i := fun heq => hi (congrArg Fin.val heq).symm
      simp only [setClosest, update_of_ne hother]
  · have hset : (c.setClosest i ⟨true, realPk, tempPk⟩).closestCells.length = desiredCloseConnections := length_ofFn
    have hlen : c.closestCells.length = desiredCloseConnections := length_ofFn
    rw [getElem?_eq_none (by omega), if_neg (by have := i.isLt; omega), getElem?_eq_none (by omega)]

/-- A key is among those of the closest peers if one of them has it. -/
theorem mem_closestKeys : realPk ∈ c.closestKeys ↔ ∃ i, (c.closestPeers i).entry = true ∧
    (c.closestPeers i).realPk = realPk := by
  rw [closestKeys, reduceOption_mem_iff, closestCells, mem_ofFn]
  refine exists_congr fun i => ?_
  by_cases hentry : (c.closestPeers i).entry = true
  · rw [if_pos hentry, Option.some_inj]
    exact (and_iff_right hentry).symm
  · rw [if_neg hentry]
    exact iff_of_false nofun fun h => hentry h.1

/-- A key is among the closest peers. -/
theorem pkInClosestPeers_iff : c.pkInClosestPeers realPk = true ↔ realPk ∈ c.closestKeys := by
  rw [mem_closestKeys, pkInClosestPeers, any_eq_true]
  constructor
  · rintro ⟨i, -, hi⟩
    exact ⟨i, of_decide_eq_true hi⟩
  · rintro ⟨i, hi⟩
    exact ⟨i, mem_finRange i, decide_eq_true hi⟩

/-- As many peers as there are places fill all of them. -/
theorem closestKeys_full : c.closestKeys.length = desiredCloseConnections ↔ ∀ i, (c.closestPeers i).entry = true := by
  have hlen : c.closestCells.length = desiredCloseConnections := length_ofFn
  have hfull := reduceOption_length_eq_iff (l := c.closestCells)
  rw [hlen] at hfull
  refine hfull.trans ?_
  constructor
  · intro hall i
    have hfilled := hall _ (mem_of_getElem? (closestCells_get c i))
    by_contra hentry
    rw [if_neg hentry] at hfilled
    contradiction
  · intro hall cell hcell
    obtain ⟨i, rfl⟩ := mem_ofFn.mp hcell
    rw [if_pos (hall i)]
    rfl

/-! ## One key -/

/-- A key that is not closer than any peer has no place in a full list. -/
theorem farthest_none (h : c.farthest selfPk realPk = none) (i : Fin desiredCloseConnections) :
    compValueAt selfPk i (c.closestPeers i).realPk ≤ compValueAt selfPk i realPk := by
  have hloop (places : List (Fin desiredCloseConnections)) (found : Option (Fin desiredCloseConnections) × UInt64) :
      (places.foldl (fun (found : Option (Fin desiredCloseConnections) × UInt64) i =>
          let comp := compValueAt selfPk i (c.closestPeers i).realPk
          if comp > compValueAt selfPk i realPk ∧ comp > found.2 then (some i, comp) else found) found).1 = none →
        found.1 = none ∧ (found.2 = 0 →
          ∀ j ∈ places, compValueAt selfPk j (c.closestPeers j).realPk ≤ compValueAt selfPk j realPk) := by
    induction places generalizing found with
    | nil => exact fun hnone => ⟨hnone, fun _ _ hj => absurd hj not_mem_nil⟩
    | cons place places ih =>
      intro hnone
      obtain ⟨hstep, hrest⟩ := ih _ hnone
      dsimp only at hstep hrest
      split at hstep
      · contradiction
      · rename_i hfar
        rw [if_neg hfar] at hrest
        refine ⟨hstep, fun hzero => forall_mem_cons.mpr ⟨?_, hrest hzero⟩⟩
        by_contra hcloser
        rw [hzero] at hfar
        have hlt := UInt64.not_le.mp hcloser
        exact hfar ⟨hlt, UInt64.lt_of_le_of_lt UInt64.zero_le hlt⟩
  exact (hloop _ (none, 0) h).2 rfl i (mem_finRange i)

/-- In a full list, a key has the place of the farthest peer that it is closer than. -/
theorem closestPlace_full (hfull : ∀ i, (c.closestPeers i).entry = true) :
    c.closestPlace selfPk realPk = c.farthest selfPk realPk := by
  unfold closestPlace
  split
  · rename_i j hfree
    have hnone := find?_some hfree
    rw [hfull j] at hnone
    contradiction
  · rfl

/-- A key that is added to a full list drops the key of one peer, or itself. What is dropped is at least as far as all
peers, and at every place is a peer that is not farther than the one before. -/
theorem addToClosest_full (tempPk : PublicKey) (hfull : ∀ i, (c.closestPeers i).entry = true)
    (hdistinct : (realPk :: c.closestKeys).Nodup)
    (hself : selfPk ∉ realPk :: c.closestKeys) : ∃ dropped,
    (dropped :: (c.addToClosest selfPk realPk tempPk).closestKeys).Perm (realPk :: c.closestKeys) ∧
      KeptFrom selfPk (c.addToClosest selfPk realPk tempPk) dropped ∧
      ∀ i, compValueAt selfPk i ((c.addToClosest selfPk realPk tempPk).closestPeers i).realPk ≤
        compValueAt selfPk i (c.closestPeers i).realPk := by
  induction hspread : c.spread selfPk using Nat.strong_induction_on generalizing c realPk tempPk with
  | h spread ih =>
    subst hspread
    have hnew : realPk ∉ c.closestKeys := (nodup_cons.mp hdistinct).1
    have hother : selfPk ≠ realPk := fun heq => hself (heq ▸ mem_cons_self)
    rw [addToClosest, if_neg hother, if_neg (pkInClosestPeers_iff.not.mpr hnew)]
    split
    · rename_i hplace
      rw [closestPlace_full hfull] at hplace
      exact ⟨realPk, List.Perm.refl _, fun i => ⟨hfull i, farthest_none hplace i⟩, fun i => UInt64.le_refl _⟩
    · rename_i index hplace
      have hentry := hfull index
      have hcloser := farthest_closer ((closestPlace_full hfull).symm.trans hplace)
      have hsmaller : (c.setClosest index ⟨true, realPk, tempPk⟩).spread selfPk < _ := spread_setClosest hplace hentry
      have hcell := closestCells_get c index
      rw [if_pos hentry] at hcell
      -- the old key is outside of the list now, and the new one is in it
      have hperm : ((c.closestPeers index).realPk :: (c.setClosest index ⟨true, realPk, tempPk⟩).closestKeys).Perm
          (realPk :: c.closestKeys) := by
        rw [closestKeys, closestCells_set]
        exact reduceOption_replace realPk hcell
      have hfilled : ∀ i, ((c.setClosest index ⟨true, realPk, tempPk⟩).closestPeers i).entry = true := by
        intro i
        by_cases hi : i = index
        · subst hi
          simp only [setClosest, update_self]
        · simp only [setClosest, update_of_ne hi, hfull i]
      have hnearer : ∀ i, compValueAt selfPk i ((c.setClosest index ⟨true, realPk, tempPk⟩).closestPeers i).realPk ≤
          compValueAt selfPk i (c.closestPeers i).realPk := by
        intro i
        by_cases hi : i = index
        · subst hi
          simp only [setClosest, update_self]
          exact UInt64.le_of_lt hcloser
        · simp only [setClosest, update_of_ne hi]
          exact UInt64.le_refl _
      obtain ⟨dropped, hkeys, hkept, hafter⟩ := ih _ hsmaller (c.closestPeers index).tempPk hfilled
        (hperm.nodup_iff.mpr hdistinct) (hperm.mem_iff.not.mpr hself) rfl
      simp only [dif_pos hentry]
      refine ⟨dropped, ?_⟩
      split
      · exact ⟨hkeys.trans hperm, hkept, fun i => UInt64.le_trans (hafter i) (hnearer i)⟩
      · exact ⟨hkeys.trans hperm, hkept, fun i => UInt64.le_trans (hafter i) (hnearer i)⟩

/-- A key that is added where there is room is one more. -/
theorem addToClosest_room (hroom : ¬∀ i, (c.closestPeers i).entry = true) (hnew : realPk ∉ c.closestKeys)
    (hother : selfPk ≠ realPk) : (c.addToClosest selfPk realPk tempPk).closestKeys.Perm (realPk :: c.closestKeys) := by
  rw [addToClosest, if_neg hother, if_neg (pkInClosestPeers_iff.not.mpr hnew)]
  cases hfree : (List.finRange desiredCloseConnections).find? fun i => (c.closestPeers i).entry = false with
  | none =>
    refine absurd (fun i => ?_) hroom
    have hfilled := find?_eq_none.mp hfree i (mem_finRange i)
    simpa using hfilled
  | some index =>
    have hfound := find?_some hfree
    have hentry : (c.closestPeers index).entry = false := of_decide_eq_true hfound
    have hplace : c.closestPlace selfPk realPk = some index := by
      rw [closestPlace, hfree]
    have hcell := closestCells_get c index
    rw [hentry, if_neg Bool.false_ne_true] at hcell
    have hput : (c.setClosest index ⟨true, realPk, tempPk⟩).closestKeys.Perm (realPk :: c.closestKeys) := by
      rw [closestKeys, closestCells_set]
      exact reduceOption_put realPk hcell
    split
    · rename_i hnone
      exact absurd (hplace.symm.trans hnone) (Option.some_ne_none index)
    · rename_i found hfound
      obtain rfl := Option.some_inj.mp (hplace.symm.trans hfound)
      simp only [hentry, Bool.false_eq_true, dite_false]
      split
      · exact hput
      · exact hput

/-! ## Many keys -/

/-- Keys are added one after the other, each with its temporary key. -/
def addAllToClosest (selfPk : PublicKey) (c : GroupConnections)
    (peers : List (PublicKey × PublicKey)) : GroupConnections :=
  peers.foldl (fun c peer => c.addToClosest selfPk peer.1 peer.2) c

/-- What is dropped when a key is added joins what was dropped before. -/
theorem addToClosest_kept (tempPk : PublicKey) {dropped : List PublicKey}
    (hdistinct : (realPk :: (dropped ++ c.closestKeys)).Nodup)
    (hself : selfPk ∉ realPk :: (dropped ++ c.closestKeys)) (hkept : ∀ d ∈ dropped, c.KeptFrom selfPk d) : ∃ dropped',
    (dropped' ++ (c.addToClosest selfPk realPk tempPk).closestKeys).Perm (realPk :: (dropped ++ c.closestKeys)) ∧
      ∀ d ∈ dropped', (c.addToClosest selfPk realPk tempPk).KeptFrom selfPk d := by
  have hsub : (realPk :: c.closestKeys).Sublist (realPk :: (dropped ++ c.closestKeys)) :=
    (sublist_append_right dropped c.closestKeys).cons_cons realPk
  by_cases hfull : ∀ i, (c.closestPeers i).entry = true
  · obtain ⟨d, hkeys, hd, hnearer⟩ :=
      addToClosest_full tempPk hfull (hdistinct.sublist hsub) fun hmem => hself (hsub.subset hmem)
    refine ⟨d :: dropped, ?_, forall_mem_cons.mpr ⟨hd, fun d' hd' i => ?_⟩⟩
    · rw [cons_append]
      exact perm_middle.symm.trans ((hkeys.append_left dropped).trans perm_middle)
    · exact ⟨(hd i).1, UInt64.le_trans (hnearer i) (hkept d' hd' i).2⟩
  · have hnone : dropped = [] :=
      eq_nil_iff_forall_not_mem.mpr fun d hd => hfull fun i => (hkept d hd i).1
    subst hnone
    have hnew := (nodup_cons.mp hdistinct).1
    have hother : selfPk ≠ realPk := fun heq => hself (heq ▸ mem_cons_self)
    exact ⟨[], addToClosest_room hfull hnew hother, fun _ hd => absurd hd not_mem_nil⟩

/-- All keys that were ever there are still there or were dropped, and what was dropped is at least as far as what is
there. -/
theorem addAllToClosest_kept (peers : List (PublicKey × PublicKey)) (dropped : List PublicKey)
    (hdistinct : (peers.map Prod.fst ++ (dropped ++ c.closestKeys)).Nodup)
    (hself : selfPk ∉ peers.map Prod.fst ++ (dropped ++ c.closestKeys)) (hkept : ∀ d ∈ dropped, c.KeptFrom selfPk d) :
    ∃ dropped', (dropped' ++ (addAllToClosest selfPk c peers).closestKeys).Perm
        (peers.map Prod.fst ++ (dropped ++ c.closestKeys)) ∧
      ∀ d ∈ dropped', (addAllToClosest selfPk c peers).KeptFrom selfPk d := by
  induction peers generalizing c dropped with
  | nil => exact ⟨dropped, List.Perm.refl _, hkept⟩
  | cons peer peers ih =>
    rw [map_cons, cons_append] at hdistinct hself ⊢
    have hsub : (peer.1 :: (dropped ++ c.closestKeys)).Sublist (peer.1 ::
      (peers.map Prod.fst ++ (dropped ++ c.closestKeys))) :=
      (sublist_append_right _ _).cons_cons peer.1
    obtain ⟨dropped₁, hkeys, hkept₁⟩ := addToClosest_kept peer.2 (hdistinct.sublist hsub)
      (fun hmem => hself (hsub.subset hmem)) hkept
    have hrest : (peers.map Prod.fst ++ (dropped₁ ++ (c.addToClosest selfPk peer.1 peer.2).closestKeys)).Perm
        (peer.1 :: (peers.map Prod.fst ++ (dropped ++ c.closestKeys))) :=
      (hkeys.append_left _).trans perm_middle
    obtain ⟨dropped₂, hkeys₂, hkept₂⟩ :=
      ih dropped₁ (hrest.nodup_iff.mpr hdistinct) (hrest.mem_iff.not.mpr hself) hkept₁
    exact ⟨dropped₂, hkeys₂.trans hrest, hkept₂⟩

/-- Distinct keys other than ours are added one after the other. The keys of the closest peers stay distinct; a key
that is added drops exactly one key if the list is full and none otherwise; and all places are filled with peers that
are at most as far as every key that was dropped. -/
theorem closest_peers_kept (selfPk : PublicKey) (c : GroupConnections) (peers : List (PublicKey × PublicKey))
    (hdistinct : (peers.map Prod.fst ++ c.closestKeys).Nodup) (hself : selfPk ∉ peers.map Prod.fst ++ c.closestKeys) :
    (addAllToClosest selfPk c peers).closestKeys.Nodup ∧
      (∀ before peer after, peers = before ++ peer :: after →
        let c := addAllToClosest selfPk c before
        let next := c.addToClosest selfPk peer.1 peer.2
        if c.closestKeys.length = desiredCloseConnections then
          ∃ dropped, (dropped :: next.closestKeys).Perm (peer.1 :: c.closestKeys)
        else next.closestKeys.Perm (peer.1 :: c.closestKeys)) ∧
      ∀ dropped ∈ peers.map Prod.fst ++ c.closestKeys, dropped ∉ (addAllToClosest selfPk c peers).closestKeys →
        ∀ i, ((addAllToClosest selfPk c peers).closestPeers i).entry = true ∧
          compValueAt selfPk i ((addAllToClosest selfPk c peers).closestPeers i).realPk ≤
            compValueAt selfPk i dropped := by
  obtain ⟨dropped, hkeys, hkept⟩ := addAllToClosest_kept peers [] hdistinct hself
    fun _ hd => absurd hd not_mem_nil
  refine ⟨(hkeys.nodup_iff.mpr hdistinct).of_append_right, fun before peer after hpeers => ?_, fun d hd hgone i => ?_⟩
  · subst hpeers
    rw [map_append, map_cons, append_assoc, cons_append] at hdistinct hself
    have hmiddle : (before.map Prod.fst ++ peer.1 :: (after.map Prod.fst ++ c.closestKeys)).Perm
        (peer.1 :: (before.map Prod.fst ++ (after.map Prod.fst ++ c.closestKeys))) := perm_middle
    have hsub : (peer.1 :: (before.map Prod.fst ++ c.closestKeys)).Sublist
        (peer.1 :: (before.map Prod.fst ++ (after.map Prod.fst ++ c.closestKeys))) :=
      ((sublist_append_right _ _).append_left _).cons_cons peer.1
    have hdistinct₁ := (hmiddle.nodup_iff.mp hdistinct).sublist hsub
    have hself₁ : selfPk ∉ peer.1 :: (before.map Prod.fst ++ c.closestKeys) :=
      fun hmem => hself (hmiddle.mem_iff.mpr (hsub.subset hmem))
    obtain ⟨dropped₁, hkeys₁, -⟩ := addAllToClosest_kept before [] (nodup_cons.mp hdistinct₁).2
      (fun hmem => hself₁ (mem_cons_of_mem _ hmem)) fun _ hd => absurd hd not_mem_nil
    have hnow : (peer.1 :: (addAllToClosest selfPk c before).closestKeys).Subperm
        (peer.1 :: (before.map Prod.fst ++ c.closestKeys)) :=
      ((sublist_append_right dropped₁ _).cons_cons peer.1).subperm.trans (hkeys₁.cons peer.1).subperm
    have hselfNow : selfPk ∉ peer.1 :: (addAllToClosest selfPk c before).closestKeys :=
      fun hmem => hself₁ (hnow.subset hmem)
    have hdistinctNow : (peer.1 :: (addAllToClosest selfPk c before).closestKeys).Nodup := by
      obtain ⟨kept, hperm, hkept⟩ := hnow
      exact hperm.nodup_iff.mp (hdistinct₁.sublist hkept)
    dsimp only
    split
    · rename_i hfull
      obtain ⟨d, hd, -, -⟩ := addToClosest_full peer.2 (closestKeys_full.mp hfull) hdistinctNow hselfNow
      exact ⟨d, hd⟩
    · rename_i hroom
      exact addToClosest_room (closestKeys_full.not.mp hroom) (nodup_cons.mp hdistinctNow).1
        fun heq => hselfNow (heq ▸ mem_cons_self)
  · exact hkept d ((mem_append.mp (hkeys.mem_iff.mpr hd)).resolve_right hgone) i

/-- Five keys above ours are added to an empty list. -/
theorem closest_peers_kept_five :
    let peers := [(slice 32 [5] 0, PublicKey.zero), (slice 32 [4] 0, PublicKey.zero), (slice 32 [3] 0, PublicKey.zero),
      (slice 32 [2] 0, PublicKey.zero), (slice 32 [1] 0, PublicKey.zero)]
    (addAllToClosest PublicKey.zero zero peers).closestKeys.Nodup ∧
      (∀ before peer after, peers = before ++ peer :: after →
        let c := addAllToClosest PublicKey.zero zero before
        let next := c.addToClosest PublicKey.zero peer.1 peer.2
        if c.closestKeys.length = desiredCloseConnections then
          ∃ dropped, (dropped :: next.closestKeys).Perm (peer.1 :: c.closestKeys)
        else next.closestKeys.Perm (peer.1 :: c.closestKeys)) ∧
      ∀ dropped ∈ peers.map Prod.fst ++ zero.closestKeys,
        dropped ∉ (addAllToClosest PublicKey.zero zero peers).closestKeys →
        ∀ i, ((addAllToClosest PublicKey.zero zero peers).closestPeers i).entry = true ∧
          compValueAt PublicKey.zero i ((addAllToClosest PublicKey.zero zero peers).closestPeers i).realPk ≤
            compValueAt PublicKey.zero i dropped :=
  closest_peers_kept PublicKey.zero zero _ (by decide) (by decide)

end GroupConnections

end Toxcore
