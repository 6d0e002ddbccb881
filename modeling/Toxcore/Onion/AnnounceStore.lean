import Toxcore.Data.SortedTables
import Toxcore.Onion.SearchAgreement

/-!
# Which announcement is replaced

The entries of an announce store are sorted whenever one is written: timed out entries first, then by falling distance
from our key. `add_to_entries` overwrites a timed out entry if there is one, and otherwise the first one. The order is
that of the last write, but entries only time out later: while no entry is timed out, none was then, and the first one
is still the farthest.

The entries of a new store have the key zero and the time zero, which makes them live before `ONION_ANNOUNCE_TIMEOUT`.
An entry written at the very end of the clock is timed out at once.
-/

namespace Toxcore

open ByteStrings SortedTables Function

/-! ## The order of the entries -/

/-- Timed out entries are alike and come first. -/
theorem cmpEntry_eq (now : UInt64) (cmpPublicKey : PublicKey) :
    cmpEntry now cmpPublicKey =
      staleFirst (OnionAnnounceEntry.timedout now) (farther fun entry => xorDistance cmpPublicKey entry.publicKey) := by
  funext entry1 entry2
  rw [cmpEntry, staleFirst, idClosest_eq_compare, Nat.compare_swap]
  rfl

instance (now : UInt64) (cmpPublicKey : PublicKey) : Std.TransCmp (cmpEntry now cmpPublicKey) := by
  rw [cmpEntry_eq]
  infer_instance

/-- The entries are in the order of some time in the past. -/
def Arranged (selfPublicKey : PublicKey) (clock : UInt64) (entries : OnionAnnounceEntries) : Prop :=
  ∃ time ≤ clock, SortedBy (cmpEntry time selfPublicKey) entries

/-- While no entry is timed out, the first one is the farthest. -/
theorem Arranged.first_farthest {selfPublicKey : PublicKey} {clock : UInt64} {entries : OnionAnnounceEntries}
    (h : Arranged selfPublicKey clock entries) (hlive : ∀ i, (entries i).timedout clock = false)
    (i : Fin onionAnnounceMaxEntries) :
    xorDistance selfPublicKey (entries i).publicKey ≤ xorDistance selfPublicKey (entries 0).publicKey := by
  obtain ⟨time, hpast, hsorted⟩ := h
  rw [cmpEntry_eq] at hsorted
  exact isLE_farther.mp (hsorted.first_le (fun j => OnionAnnounceEntry.live_before (hlive j) hpast) i)

/-! ## One call -/

/-- A call of `add_to_entries`, with a `qsort` that sorts. -/
structure AddToEntriesCall where
  env : AnnounceEnv
  retIpPort : IpPort
  publicKey : PublicKey
  dataPublicKey : PublicKey
  ret : Block onionReturn3
  sorts : Sorts env.qsort

namespace AddToEntriesCall

variable (call : AddToEntriesCall) (selfPublicKey : PublicKey) (entries : OnionAnnounceEntries)

/-- What a call returns, and the entries it leaves. -/
def result : Option (Fin onionAnnounceMaxEntries) × OnionAnnounceEntries :=
  addToEntries call.env selfPublicKey entries call.retIpPort call.publicKey call.dataPublicKey call.ret

/-- The entry that is written. -/
def entry : OnionAnnounceEntry :=
  ⟨call.publicKey, call.retIpPort, call.ret, call.dataPublicKey, call.env.unixTime⟩

/-- No live entry has the key. -/
def IsNew : Prop := ∀ i, (entries i).timedout call.env.unixTime = false → (entries i).publicKey ≠ call.publicKey

/-- Where a new key goes: to a timed out entry if there is one, and otherwise to the first one if it is farther. -/
theorem entryPosition_new (hnew : call.IsNew entries) :
    (∃ pos, entryPosition call.env.unixTime selfPublicKey entries call.publicKey = some pos ∧
        (entries pos).timedout call.env.unixTime = true) ∨
      (∀ i, (entries i).timedout call.env.unixTime = false) ∧
        entryPosition call.env.unixTime selfPublicKey entries call.publicKey =
          if idClosest selfPublicKey call.publicKey (entries 0).publicKey = .lt then some 0 else none := by
  have hnone : inEntries call.env.unixTime entries call.publicKey = none := by
    cases hfound : inEntries call.env.unixTime entries call.publicKey with
    | none => rfl
    | some i =>
      obtain ⟨hlive, hkey⟩ := inEntries_some hfound
      exact absurd hkey (hnew i hlive)
  rw [entryPosition, hnone]
  dsimp only
  split
  · rename_i pos hpos
    exact .inl ⟨pos, rfl, by simpa using List.find?_some hpos⟩
  · rename_i hlive
    refine .inr ⟨fun i => ?_, rfl⟩
    simpa using List.find?_eq_none.mp hlive i (List.mem_reverse.mpr (List.mem_finRange i))

/-- The call is refused without changing an entry. -/
def Refused : Prop := (call.result selfPublicKey entries).1 = none ∧ (call.result selfPublicKey entries).2 = entries

/-- The call succeeds. It overwrites one entry and reorders the entries: a timed out entry if there is one, and
otherwise the farthest one, which is farther than the new key. -/
def Overwrites : Prop :=
  (call.result selfPublicKey entries).1 ≠ none ∧
    ∃ (pos : Fin onionAnnounceMaxEntries) (order : Equiv.Perm (Fin onionAnnounceMaxEntries)),
      (call.result selfPublicKey entries).2 = update entries pos call.entry ∘ order ∧
        ((∃ i, (entries i).timedout call.env.unixTime = true) → (entries pos).timedout call.env.unixTime = true) ∧
        ((∀ i, (entries i).timedout call.env.unixTime = false) →
          idClosest selfPublicKey call.publicKey (entries pos).publicKey = .lt ∧
            ∀ i, idClosest selfPublicKey (entries i).publicKey (entries pos).publicKey ≠ .gt)

/-- The returned index holds the key. -/
theorem result_index {index : Fin onionAnnounceMaxEntries} (h : (call.result selfPublicKey entries).1 = some index) :
    ((call.result selfPublicKey entries).2 index).publicKey = call.publicKey := by
  rw [result, addToEntries_index] at h
  exact (inEntries_some h).2

/-- A call changes nothing, or overwrites one entry and reorders them. -/
theorem result_cases : (call.result selfPublicKey entries).2 = entries ∨
    ∃ (pos : Fin onionAnnounceMaxEntries) (order : Equiv.Perm (Fin onionAnnounceMaxEntries)),
      (call.result selfPublicKey entries).2 = update entries pos call.entry ∘ order := by
  rw [result, addToEntries]
  split
  · exact .inl rfl
  · exact .inr ⟨_, _, rfl⟩

/-- Where an entry comes from that a call leaves. -/
theorem result_entry (i : Fin onionAnnounceMaxEntries) :
    (call.result selfPublicKey entries).2 i = call.entry ∨
      ∃ j, (call.result selfPublicKey entries).2 i = entries j := by
  obtain h | ⟨pos, order, h⟩ := call.result_cases selfPublicKey entries
  · exact .inr ⟨i, congrFun h i⟩
  · rw [h, Function.comp_apply]
    by_cases hpos : order i = pos
    · exact .inl (by rw [hpos, update_self])
    · exact .inr ⟨order i, update_of_ne hpos _ _⟩

/-- A call leaves some entry as it was. -/
theorem result_kept : ∃ i j, (call.result selfPublicKey entries).2 i = entries j := by
  obtain h | ⟨pos, order, h⟩ := call.result_cases selfPublicKey entries
  · exact ⟨0, 0, congrFun h 0⟩
  · obtain ⟨j, hj⟩ := exists_ne pos
    refine ⟨order.symm j, j, ?_⟩
    rw [h, Function.comp_apply, Equiv.apply_symm_apply, update_of_ne hj]

variable {selfPublicKey entries}

/-- A call that has a position for its key writes there and succeeds, if an entry written now is live. -/
theorem result_of_position {pos : Fin onionAnnounceMaxEntries}
    (hpos : entryPosition call.env.unixTime selfPublicKey entries call.publicKey = some pos)
    (hwritten : isTimeout call.env.unixTime call.env.unixTime onionAnnounceTimeout = false) :
    (call.result selfPublicKey entries).1 ≠ none ∧ ∃ order : Equiv.Perm (Fin onionAnnounceMaxEntries),
      (call.result selfPublicKey entries).2 = update entries pos call.entry ∘ order := by
  have hfound := addToEntries_found (hpos ▸ Option.some_ne_none pos) hwritten call.retIpPort call.dataPublicKey call.ret
  refine ⟨?_, ?_⟩
  · rw [result, addToEntries_index]
    exact hfound
  · rw [result, addToEntries, hpos]
    exact ⟨_, rfl⟩

/-- Without a place the key is refused. -/
theorem result_of_no_position
    (hpos : entryPosition call.env.unixTime selfPublicKey entries call.publicKey = none) :
    call.Refused selfPublicKey entries := by
  rw [Refused, result, addToEntries, hpos]
  exact ⟨rfl, rfl⟩

/-- A new key is refused exactly if no entry is timed out or farther, and otherwise overwrites the worst entry. -/
theorem result_new (harranged : Arranged selfPublicKey call.env.unixTime entries)
    (hwritten : isTimeout call.env.unixTime call.env.unixTime onionAnnounceTimeout = false)
    (hnew : call.IsNew entries) :
    (call.Refused selfPublicKey entries ↔
        (∀ i, (entries i).timedout call.env.unixTime = false) ∧
          ∀ i, idClosest selfPublicKey (entries i).publicKey call.publicKey ≠ .gt) ∧
      (¬call.Refused selfPublicKey entries → call.Overwrites selfPublicKey entries) := by
  rcases call.entryPosition_new selfPublicKey entries hnew with ⟨pos, hpos, htimedout⟩ | ⟨hlive, hpos⟩
  · obtain ⟨hfound, order, hafter⟩ := call.result_of_position hpos hwritten
    refine ⟨iff_of_false (fun hrefused => hfound hrefused.1) ?_, fun _ => ⟨hfound, pos, order, hafter, ?_, ?_⟩⟩
    · rintro ⟨hlive, -⟩
      exact absurd (hlive pos) (by simp [htimedout])
    · intro _
      exact htimedout
    · intro hlive
      exact absurd (hlive pos) (by simp [htimedout])
  · have hfarthest := harranged.first_farthest hlive
    by_cases hcloser : idClosest selfPublicKey call.publicKey (entries 0).publicKey = .lt
    · rw [if_pos hcloser] at hpos
      obtain ⟨hfound, order, hafter⟩ := call.result_of_position hpos hwritten
      refine ⟨iff_of_false (fun hrefused => hfound hrefused.1) ?_, fun _ => ⟨hfound, 0, order, hafter, ?_, ?_⟩⟩
      · rintro ⟨-, hcloseenough⟩
        rw [idClosest_eq_compare, Nat.compare_eq_lt] at hcloser
        exact hcloseenough 0 (idClosest_eq_gt.mpr hcloser)
      · rintro ⟨i, hi⟩
        exact absurd (hlive i) (by simp [hi])
      · intro _
        refine ⟨hcloser, fun i => ?_⟩
        rw [ne_eq, idClosest_eq_gt, Nat.not_lt]
        exact hfarthest i
    · rw [if_neg hcloser] at hpos
      have hrefused := call.result_of_no_position hpos
      refine ⟨iff_of_true hrefused ⟨hlive, fun i => ?_⟩, fun hnot => absurd hrefused hnot⟩
      rw [idClosest_eq_compare, Nat.compare_eq_lt, Nat.not_lt] at hcloser
      rw [ne_eq, idClosest_eq_gt, Nat.not_lt]
      exact (hfarthest i).trans hcloser

/-- What is written is in the order of its time. -/
theorem result_arranged (h : Arranged selfPublicKey call.env.unixTime entries) :
    Arranged selfPublicKey call.env.unixTime (call.result selfPublicKey entries).2 := by
  rw [result, addToEntries]
  split
  · exact h
  · refine ⟨call.env.unixTime, UInt64.le_refl _, ?_⟩
    exact call.sorts (cmpEntry call.env.unixTime selfPublicKey) _

end AddToEntriesCall

/-! ## Runs -/

/-- The clock and the entries of a store that was new at `start`, after calls of `add_to_entries` in passing time. -/
inductive AnnounceStoreRun (selfPublicKey : PublicKey) (start : UInt64) : UInt64 → OnionAnnounceEntries → Prop
  | new : AnnounceStoreRun selfPublicKey start start fun _ => .zero
  | wait {clock clock' : UInt64} {entries : OnionAnnounceEntries}
      (hrun : AnnounceStoreRun selfPublicKey start clock entries)
      (hle : clock ≤ clock') : AnnounceStoreRun selfPublicKey start clock' entries
  | add {entries : OnionAnnounceEntries} (call : AddToEntriesCall)
      (hrun : AnnounceStoreRun selfPublicKey start call.env.unixTime entries) :
      AnnounceStoreRun selfPublicKey start call.env.unixTime (call.result selfPublicKey entries).2

namespace AnnounceStoreRun

variable {selfPublicKey : PublicKey} {start clock : UInt64} {entries : OnionAnnounceEntries}

/-- The store is arranged in every run. -/
theorem arranged (hrun :
    AnnounceStoreRun selfPublicKey start clock entries) : Arranged selfPublicKey clock entries := by
  induction hrun with
  | new => exact ⟨start, UInt64.le_refl _, fun _ _ _ => Std.ReflCmp.isLE_rfl⟩
  | wait _ hle ih =>
    obtain ⟨time, hpast, hsorted⟩ := ih
    exact ⟨time, UInt64.le_trans hpast hle, hsorted⟩
  | add call _ ih => exact call.result_arranged ih

/-- A key other than zero is live once. In a store that was not new before `ONION_ANNOUNCE_TIMEOUT`, every key is. -/
theorem liveOnce (hrun : AnnounceStoreRun selfPublicKey start clock entries) {publicKey : PublicKey}
    (hkey : publicKey ≠ .zero ∨ onionAnnounceTimeout ≤ start) : LiveOnce clock entries publicKey := by
  induction hrun with
  | new =>
    rcases hkey with hkey | hstart
    · intro _ _ _ _ hzero
      exact absurd hzero.symm hkey
    · exact liveDistinct_iff.mp (.new hstart) publicKey
  | wait _ hle ih => exact ih.later hle
  | add call _ ih => exact ih.addToEntries _ _ _ _ _

end AnnounceStoreRun

/-- Replacement in an announce store, after any calls in passing time. Live entries have distinct keys, but for the
key zero in a store that was new before `ONION_ANNOUNCE_TIMEOUT`. While an entry written now is not timed out at once:
a call for a key that is not live is refused exactly if no entry is timed out or farther than the key, and otherwise
overwrites a timed out entry if there is one and the farthest entry if there is none; and the index a call returns
holds its key. -/
theorem announce_store_replaces {selfPublicKey : PublicKey} {start clock : UInt64} {entries : OnionAnnounceEntries}
    (hrun : AnnounceStoreRun selfPublicKey start clock entries) :
    (∀ i j, (entries i).timedout clock = false → (entries j).timedout clock = false →
        (entries i).publicKey = (entries j).publicKey →
          ((entries i).publicKey ≠ .zero ∨ onionAnnounceTimeout ≤ start) → i = j) ∧
      ∀ call : AddToEntriesCall, call.env.unixTime = clock → clock.toNat + onionAnnounceTimeout.toNat < 2 ^ 64 →
        (call.IsNew entries →
          (call.Refused selfPublicKey entries ↔
              (∀ i, (entries i).timedout clock = false) ∧
                ∀ i, idClosest selfPublicKey (entries i).publicKey call.publicKey ≠ .gt) ∧
            (¬call.Refused selfPublicKey entries → call.Overwrites selfPublicKey entries)) ∧
        ∀ index, (call.result selfPublicKey entries).1 = some index →
          ((call.result selfPublicKey entries).2 index).publicKey = call.publicKey := by
  refine ⟨?_, ?_⟩
  · intro i j hi hj hsame hkey
    exact hrun.liveOnce hkey i j hi hj rfl hsame.symm
  · rintro call rfl hclock
    have hwritten : isTimeout call.env.unixTime call.env.unixTime onionAnnounceTimeout = false := by
      rw [isTimeout, decide_eq_false_iff_not, UInt64.le_iff_toNat_le, UInt64.toNat_add, Nat.mod_eq_of_lt hclock]
      have hpositive : 0 < onionAnnounceTimeout.toNat := by decide
      omega
    exact ⟨call.result_new hrun.arranged hwritten, fun _ => call.result_index selfPublicKey entries⟩

/-- An announcement under a key of ones. -/
def announcedAt (now : UInt64) : AddToEntriesCall where
  env := ⟨now, List.Vector.replicate 24 0, insertionSort⟩
  retIpPort := .zero
  publicKey := List.Vector.replicate 32 1
  dataPublicKey := .zero
  ret := List.Vector.replicate onionReturn3 0
  sorts := insertionSort_sorts

/-- An announcement under a key of bytes `k`. -/
def announcedBy (k : UInt8) (now : UInt64) : AddToEntriesCall :=
  { announcedAt now with publicKey := List.Vector.replicate 32 k }

/-- The key 2 is announced in a new store. -/
def announcedOnce : OnionAnnounceEntries := ((announcedBy 2 1000).result .zero fun _ => .zero).2

/-- After 200 seconds the key 1 is announced. -/
def announcedTwice : OnionAnnounceEntries := ((announcedBy 1 1200).result .zero announcedOnce).2

/-- The entries after the first announcement. -/
theorem announcedOnce_entry (i : Fin onionAnnounceMaxEntries) :
    announcedOnce i = (announcedBy 2 1000).entry ∨ announcedOnce i = .zero :=
  ((announcedBy 2 1000).result_entry .zero (fun _ => .zero) i).imp_right fun ⟨_, h⟩ => h

/-- The entries after the second announcement. -/
theorem announcedTwice_entry (i : Fin onionAnnounceMaxEntries) :
    announcedTwice i = (announcedBy 1 1200).entry ∨ ∃ j, announcedTwice i = announcedOnce j :=
  (announcedBy 1 1200).result_entry .zero announcedOnce i

/-- Two keys are announced. 200 seconds later the first one is timed out and the second one live once, and the
announcement of a third key overwrites an entry that is timed out. -/
theorem announce_store_replaces_third :
    (∃ i, (announcedTwice i).publicKey = (announcedBy 1 1200).publicKey ∧ (announcedTwice i).timedout 1400 = false ∧
      ∀ j, (announcedTwice j).timedout 1400 = false → (announcedTwice i).publicKey = (announcedTwice j).publicKey →
        i = j) ∧
    (announcedBy 3 1400).Overwrites .zero announcedTwice := by
  have hfirst : AnnounceStoreRun .zero 1000 1200 announcedOnce := .wait (.add (announcedBy 2 1000) .new) (by decide)
  have hrun : AnnounceStoreRun .zero 1000 1400 announcedTwice := .wait (.add (announcedBy 1 1200) hfirst) (by decide)
  have hstale (i : Fin onionAnnounceMaxEntries) : (announcedOnce i).timedout 1400 = true := by
    obtain h | h := announcedOnce_entry i <;> rw [h] <;> decide
  constructor
  · have hnew : (announcedBy 1 1200).IsNew announcedOnce := by
      intro i _
      obtain h | h := announcedOnce_entry i <;> rw [h] <;> decide
    obtain ⟨hnewCall, hindex⟩ := (announce_store_replaces hfirst).2 (announcedBy 1 1200) rfl (by decide)
    obtain ⟨hrefused, hoverwrites⟩ := hnewCall hnew
    have hfound : ¬(announcedBy 1 1200).Refused .zero announcedOnce := by
      intro h
      obtain ⟨i, j, hkept⟩ := (announcedBy 2 1000).result_kept .zero fun _ => .zero
      have hlive : (announcedOnce i).timedout 1200 = false := (hrefused.mp h).1 i
      rw [show announcedOnce i = .zero from hkept] at hlive
      revert hlive
      decide
    obtain ⟨i, hi⟩ := Option.ne_none_iff_exists'.mp (hoverwrites hfound).1
    have hkey : (announcedTwice i).publicKey = (announcedBy 1 1200).publicKey := by
      rw [announcedTwice]
      exact hindex i hi
    have hlive : (announcedTwice i).timedout 1400 = false := by
      obtain h | ⟨j, h⟩ := announcedTwice_entry i
      · rw [h]
        decide
      · rw [h] at hkey
        obtain h' | h' := announcedOnce_entry j <;> rw [h'] at hkey <;> exact absurd hkey (by decide)
    refine ⟨i, hkey, hlive, fun j hj hsame => ?_⟩
    exact (announce_store_replaces hrun).1 i j hlive hj hsame (.inl (by rw [hkey]; decide))
  · have hnew : (announcedBy 3 1400).IsNew announcedTwice := by
      intro i _
      obtain h | ⟨j, h⟩ := announcedTwice_entry i
      · rw [h]
        decide
      · obtain h' | h' := announcedOnce_entry j <;> rw [h, h'] <;> decide
    obtain ⟨hrefused, hoverwrites⟩ := ((announce_store_replaces hrun).2 (announcedBy 3 1400) rfl (by decide)).1 hnew
    refine hoverwrites fun h => ?_
    obtain ⟨i, j, hkept⟩ := (announcedBy 1 1200).result_kept .zero announcedOnce
    have hlive : (announcedTwice i).timedout 1400 = false := (hrefused.mp h).1 i
    rw [show announcedTwice i = announcedOnce j from hkept, hstale j] at hlive
    cases hlive

/-- At the end of the clock every entry is timed out. -/
theorem OnionAnnounceEntry.timedout_end (entry : OnionAnnounceEntry) : entry.timedout 18446744073709551615 = true := by
  rw [timedout, isTimeout, decide_eq_true_eq, UInt64.le_iff_toNat_le]
  exact Nat.le_of_lt_succ (UInt64.toNat_lt _)

/-- In a store that is new at the time zero, two unused entries are live and have one key; at the end of the clock, an
announcement is refused although an entry is timed out. -/
theorem announce_store_edges :
    (∃ entries, AnnounceStoreRun .zero 0 0 entries ∧ (entries 0).timedout 0 = false ∧ (entries 1).timedout 0 = false ∧
        (entries 0).publicKey = (entries 1).publicKey) ∧
      ∃ entries, AnnounceStoreRun .zero 18446744073709551615 18446744073709551615 entries ∧
        (entries 0).timedout 18446744073709551615 = true ∧
        ((announcedAt 18446744073709551615).result .zero entries).1 = none := by
  refine ⟨⟨_, .new, by decide, by decide, rfl⟩, _, .new, OnionAnnounceEntry.timedout_end _, ?_⟩
  rw [AddToEntriesCall.result, addToEntries_index, inEntries, List.find?_eq_none]
  intro i _
  rw [show (announcedAt 18446744073709551615).env.unixTime = 18446744073709551615 from rfl,
    OnionAnnounceEntry.timedout_end]
  simp

end Toxcore
