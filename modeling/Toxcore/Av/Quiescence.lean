import Toxcore.Av.Signalling
import Mathlib.Algebra.BigOperators.Group.List.Basic

/-!
# When signalling comes to rest

A message that is answered is answered by one message, and only hanging up is answered by hanging up. So signalling
between two sessions goes on for ever exactly when it reaches a state in which hang-ups are all that is in flight, and
there are more of them than calls that they can end.
-/

namespace Toxcore

open List Option

/-! ## The abstract view of a pair -/

/-- What signalling reads of a pair of sessions. -/
structure SignalPair where
  a : Option CallView
  b : Option CallView
  toA : List Signal
  toB : List Signal

namespace SignalPair

/-- The pair seen from the other side. -/
def swap (s : SignalPair) : SignalPair := ⟨s.b, s.a, s.toB, s.toA⟩

/-- A signal is handled by either side. -/
inductive Delivers : SignalPair → SignalPair → Prop
  | toA {a a' b : Option CallView} {received : Signal} {rest toB answers : List Signal}
      (h : Reacts a received a' answers) :
      Delivers ⟨a, b, received :: rest, toB⟩ ⟨a', b, rest, toB ++ answers⟩
  | toB {a b b' : Option CallView} {received : Signal} {rest toA answers : List Signal}
      (h : Reacts b received b' answers) :
      Delivers ⟨a, b, toA, received :: rest⟩ ⟨a, b', toA ++ answers, rest⟩

theorem Delivers.swap {s t : SignalPair} (h : s.Delivers t) : s.swap.Delivers t.swap := by
  cases h with
  | toA h => exact .toB h
  | toB h => exact .toA h

/-- The number of signals in flight. -/
def count (s : SignalPair) : ℕ := s.toA.length + s.toB.length

/-- The number of calls. -/
def calls (s : SignalPair) : ℕ := s.a.toList.length + s.b.toList.length

/-- Only hang-ups are in flight, more than there are calls. -/
structure Overrun (s : SignalPair) : Prop where
  pops : ∀ received ∈ s.toA ++ s.toB, received = .pop
  more : s.calls < s.count

end SignalPair

namespace MsiPair

/-- The abstract view. -/
def view (s : MsiPair) : SignalPair :=
  ⟨s.a.map MsiCall.view, s.b.map MsiCall.view, s.toA.map signal, s.toB.map signal⟩

variable {s : MsiPair}

/-- The first session handles a message. -/
theorem deliver_view {t : MsiPair} (hs : s.Settled) {env : MsiEnv} (h : s.deliver env = some t) :
    s.view.Delivers t.view ∧ t.Settled := by
  obtain ⟨a, b, toA, toB⟩ := s
  cases toA with
  | nil => contradiction
  | cons data rest =>
    obtain ⟨out, hout, hsettled, hreacts⟩ := handleMsiPacket_handles env hs.1 data
    simp only [deliver, hout, map_some, some_inj] at h
    subst h
    refine ⟨?_, hsettled, hs.2⟩
    simp only [view, map_cons, map_append]
    exact .toA hreacts

/-- A session with a message in flight can handle it. -/
theorem deliver_some (hs : s.Settled) (env : MsiEnv) (hne : s.toA ≠ []) : ∃ t, s.deliver env = some t := by
  obtain ⟨a, b, toA, toB⟩ := s
  cases toA with
  | nil => exact absurd rfl hne
  | cons data rest =>
    obtain ⟨out, hout, -⟩ := handleMsiPacket_handles env hs.1 data
    exact ⟨⟨out.call, b, rest, toB ++ out.sent⟩, by simp only [deliver, hout, map_some]⟩

/-- A delivery of messages is one of signals. -/
theorem Delivers.view {permitted : MsiEnv → Prop} {t : MsiPair} (h : Delivers permitted s t) (hs : s.Settled) :
    s.view.Delivers t.view ∧ t.Settled := by
  cases h with
  | toA env _ h => exact deliver_view hs h
  | toB env _ h =>
    obtain ⟨hdelivers, hsettled⟩ := deliver_view (s := s.swap) hs.symm h
    exact ⟨hdelivers.swap, hsettled.symm⟩

end MsiPair

/-! ## The measure -/

/-- How often a signal can still be answered by something other than a hang-up, and one more. -/
def Signal.weight : Signal → ℕ
  | .init _ => 2
  | .push _ => 1
  | .pop => 0
  | .broken => 1

/-- Signals that are not hang-ups lose weight; a hang-up ends a call or comes back. -/
theorem Reacts.weight {call call' : Option CallView} {received : Signal} {answers : List Signal}
    (h : Reacts call received call' answers) : answers.length ≤ 1 ∧
      ((answers.map Signal.weight).sum < received.weight ∨
        received = .pop ∧
          ((call = none ∧ call' = none ∧ answers = [.pop]) ∨ (call ≠ none ∧ call' = none ∧ answers = []))) := by
  cases h with
  | strayPop => exact ⟨le_rfl, .inr ⟨rfl, .inl ⟨rfl, rfl, rfl⟩⟩⟩
  | ended call => exact ⟨Nat.zero_le _, .inr ⟨rfl, .inr ⟨some_ne_none _, rfl, rfl⟩⟩⟩
  | invited | changed | started | ignored => exact ⟨Nat.zero_le _, .inl (by simp [Signal.weight])⟩
  | refused | strayPush | recalled | crossed | failed | complained | dropped =>
    exact ⟨le_rfl, .inl (by simp [Signal.weight])⟩

/-- The number of hang-ups at the front of a channel. -/
def pops (channel : List Signal) : ℕ := (channel.takeWhile fun received => received = .pop).length

/-- Answers come behind what is in the channel. -/
theorem pops_append {channel : List Signal} (h : (channel.map Signal.weight).sum ≠ 0) (answers : List Signal) :
    pops (channel ++ answers) = pops channel := by
  induction channel with
  | nil => exact absurd rfl h
  | cons received rest ih =>
    by_cases hpop : received = .pop
    · subst hpop
      have hrest : (rest.map Signal.weight).sum ≠ 0 := by simpa [Signal.weight] using h
      simpa [pops] using ih hrest
    · simp [pops, hpop]

theorem pops_le (channel : List Signal) : pops channel ≤ channel.length := (List.takeWhile_prefix _).length_le

/-- A channel without weight has only hang-ups. -/
theorem eq_pop_of_weight {channel : List Signal} (h : (channel.map Signal.weight).sum = 0) :
    ∀ received ∈ channel, received = .pop := by
  induction channel with
  | nil => exact fun _ hmem => absurd hmem not_mem_nil
  | cons received rest ih =>
    rw [map_cons, sum_cons, Nat.add_eq_zero_iff] at h
    refine forall_mem_cons.mpr ⟨?_, ih h.2⟩
    cases received <;> first | rfl | exact absurd h.1 (Nat.succ_ne_zero _)

theorem pops_cons (rest : List Signal) : pops (.pop :: rest) = pops rest + 1 := by
  simp [pops]

namespace SignalPair

/-- The weight of the signals in flight. -/
def weight (s : SignalPair) : ℕ := (s.toA.map Signal.weight).sum + (s.toB.map Signal.weight).sum

/-- How long it takes until a signal that is not a hang-up is handled. -/
def delay (s : SignalPair) : ℕ :=
  if (s.toA.map Signal.weight).sum = 0 then 2 * pops s.toB + s.toA.length else 2 * pops s.toA + s.toB.length

/-- How long it takes until each hang-up has ended a call. -/
def tail (s : SignalPair) : ℕ :=
  3 * s.count + (if s.a = none then s.toA.length else 0) + (if s.b = none then s.toB.length else 0)

/-- A bound for the number of signals that are still handled, when there are at most `number` in flight. -/
def rank (number : ℕ) (s : SignalPair) : ℕ :=
  if s.weight = 0 then s.tail else s.weight * (4 * number + 1) + s.delay

variable {s t : SignalPair} {number : ℕ}

/-- Without an overrun, hang-ups alone are no more than the calls. -/
theorem count_le_calls (h : ¬s.Overrun) (hweight : s.weight = 0) : s.count ≤ s.calls := by
  by_contra hmore
  obtain ⟨hA, hB⟩ := Nat.add_eq_zero_iff.mp hweight
  refine h ⟨fun received hmem => ?_, Nat.lt_of_not_le hmore⟩
  rcases mem_append.mp hmem with hmem | hmem
  · exact eq_pop_of_weight hA received hmem
  · exact eq_pop_of_weight hB received hmem

theorem delay_le (s : SignalPair) : s.delay ≤ 3 * s.count := by
  have hA := pops_le s.toA
  have hB := pops_le s.toB
  unfold delay count
  split <;> omega

theorem tail_le (s : SignalPair) : s.tail ≤ 4 * s.count := by
  unfold tail count
  split <;> split <;> omega

/-- A step that loses weight. -/
theorem rank_of_weight (hweight : t.weight < s.weight) (hcount : t.count ≤ number) :
    t.rank number < s.rank number := by
  have hdelay := t.delay_le
  have htail := t.tail_le
  have hmul : (t.weight + 1) * (4 * number + 1) ≤ s.weight * (4 * number + 1) := Nat.mul_le_mul_right _ hweight
  rw [Nat.add_mul, Nat.one_mul] at hmul
  unfold rank
  rw [if_neg (show s.weight ≠ 0 by omega)]
  split
  · have hpos : 1 * (4 * number + 1) ≤ s.weight * (4 * number + 1) := Nat.mul_le_mul_right _ (by omega)
    omega
  · omega

/-- A step that keeps the weight. -/
theorem rank_of_hangup (hweight : t.weight = s.weight) (hdelay : s.weight ≠ 0 → t.delay < s.delay)
    (htail : s.weight = 0 → t.tail < s.tail) : t.rank number < s.rank number := by
  unfold rank
  rw [hweight]
  split
  · rename_i hzero
    exact htail hzero
  · rename_i hne
    exact Nat.add_lt_add_left (hdelay hne) _

section Hangups

variable {a b : Option CallView} {rest channel : List Signal} {number : ℕ}

/-- The first side sends a hang-up back. -/
theorem rank_backA (hok : ¬SignalPair.Overrun ⟨none, b, .pop :: rest, channel⟩) :
    SignalPair.rank number ⟨none, b, rest, channel ++ [.pop]⟩ <
      SignalPair.rank number ⟨none, b, .pop :: rest, channel⟩ := by
  refine rank_of_hangup (by simp [weight, Signal.weight]) (fun hweight => ?_) fun hweight => ?_
  · simp only [weight, map_cons, sum_cons, Signal.weight, Nat.zero_add] at hweight
    simp only [delay, map_cons, sum_cons, Signal.weight, Nat.zero_add, length_cons, pops_cons,
      length_append, length_nil]
    split
    · rw [pops_append (by omega)]
      omega
    · omega
  · have hle := count_le_calls hok hweight
    simp only [count, calls, length_cons, toList_none, length_nil] at hle
    have hb : b ≠ none := by
      rintro rfl
      simp only [toList_none, length_nil] at hle
      omega
    simp only [tail, count, if_neg hb, if_true, length_cons, length_append, length_nil]
    omega

/-- The second side sends a hang-up back. -/
theorem rank_backB (hok : ¬SignalPair.Overrun ⟨a, none, channel, .pop :: rest⟩) :
    SignalPair.rank number ⟨a, none, channel ++ [.pop], rest⟩ <
      SignalPair.rank number ⟨a, none, channel, .pop :: rest⟩ := by
  refine rank_of_hangup (by simp [weight, Signal.weight]) (fun hweight => ?_) fun hweight => ?_
  · simp only [weight, map_cons, sum_cons, Signal.weight, Nat.zero_add] at hweight
    simp only [delay, map_append, sum_append, map_cons, sum_cons, map_nil, sum_nil,
      Signal.weight,
      Nat.add_zero, length_cons, pops_cons, length_append, length_nil]
    split
    · omega
    · rw [pops_append (by omega)]
      omega
  · have hle := count_le_calls hok hweight
    simp only [count, calls, length_cons, toList_none, length_nil] at hle
    have ha : a ≠ none := by
      rintro rfl
      simp only [toList_none, length_nil] at hle
      omega
    simp only [tail, count, if_neg ha, if_true, length_cons, length_append, length_nil]
    omega

theorem calls_le_two (s : SignalPair) : s.calls ≤ 2 := by
  have hlength (call : Option CallView) : call.toList.length ≤ 1 := by
    cases call <;> simp
  have hA := hlength s.a
  have hB := hlength s.b
  unfold calls
  omega

/-- A hang-up ends the call of the first side. -/
theorem rank_endA (ha : a ≠ none) (hok : ¬SignalPair.Overrun ⟨a, b, .pop :: rest, channel⟩) :
    SignalPair.rank number ⟨none, b, rest, channel⟩ < SignalPair.rank number ⟨a, b, .pop :: rest, channel⟩ := by
  refine rank_of_hangup (by simp [weight, Signal.weight]) (fun _ => ?_) fun hweight => ?_
  · simp only [delay, map_cons, sum_cons, Signal.weight, Nat.zero_add, length_cons, pops_cons]
    split <;> omega
  · have hle := (count_le_calls hok hweight).trans (calls_le_two _)
    simp only [count, length_cons] at hle
    simp only [tail, count, if_neg ha, if_true, length_cons]
    omega

/-- A hang-up ends the call of the second side. -/
theorem rank_endB (hb : b ≠ none) (hok : ¬SignalPair.Overrun ⟨a, b, channel, .pop :: rest⟩) :
    SignalPair.rank number ⟨a, none, channel, rest⟩ < SignalPair.rank number ⟨a, b, channel, .pop :: rest⟩ := by
  refine rank_of_hangup (by simp [weight, Signal.weight]) (fun _ => ?_) fun hweight => ?_
  · simp only [delay, length_cons, pops_cons]
    split <;> omega
  · have hle := (count_le_calls hok hweight).trans (calls_le_two _)
    simp only [count, length_cons] at hle
    simp only [tail, count, if_neg hb, if_true, length_cons]
    omega

end Hangups

/-- A delivery does not add to the count. -/
theorem Delivers.count_le (h : s.Delivers t) : t.count ≤ s.count := by
  cases h with
  | toA hreacts | toB hreacts =>
    have hlength := hreacts.weight.1
    simp only [count, length_cons, length_append]
    omega

/-- Each signal that is handled lowers the rank. -/
theorem Delivers.rank_lt (h : s.Delivers t) (hcount : s.count ≤ number) (hok : ¬s.Overrun) :
    t.rank number < s.rank number := by
  have hcount' := h.count_le.trans hcount
  cases h with
  | toA hreacts =>
    obtain ⟨-, hloses | ⟨rfl, ⟨rfl, rfl, rfl⟩ | ⟨hcall, rfl, rfl⟩⟩⟩ := hreacts.weight
    · refine rank_of_weight ?_ hcount'
      simp only [weight, map_cons, sum_cons, map_append, sum_append]
      omega
    · exact rank_backA hok
    · rw [append_nil]
      exact rank_endA hcall hok
  | toB hreacts =>
    obtain ⟨-, hloses | ⟨rfl, ⟨rfl, rfl, rfl⟩ | ⟨hcall, rfl, rfl⟩⟩⟩ := hreacts.weight
    · refine rank_of_weight ?_ hcount'
      simp only [weight, map_cons, sum_cons, map_append, sum_append]
      omega
    · exact rank_backB hok
    · rw [append_nil]
      exact rank_endB hcall hok

/-- An overrun goes on. -/
theorem Overrun.delivers (hs : s.Overrun) (h : s.Delivers t) : t.Overrun := by
  obtain ⟨hpops, hmore⟩ := hs
  cases h with
  | toA hreacts =>
    obtain rfl := hpops _ (mem_append_left _ mem_cons_self)
    cases hreacts with
    | strayPop =>
      refine ⟨fun received hmem => ?_, ?_⟩
      · rw [← append_assoc, mem_append, mem_singleton] at hmem
        exact hmem.elim (fun hmem => hpops _ (mem_cons_of_mem _ hmem)) id
      · simp only [count, calls, length_cons, length_append, length_nil] at hmore ⊢
        omega
    | ended call =>
      refine ⟨fun received hmem => hpops _ ?_, ?_⟩
      · rw [append_nil] at hmem
        exact mem_cons_of_mem _ hmem
      · simp only [count, calls, length_cons, length_append, length_nil, toList_some,
          toList_none] at hmore ⊢
        omega
  | toB hreacts =>
    obtain rfl := hpops _ (mem_append_right _ mem_cons_self)
    cases hreacts with
    | strayPop =>
      refine ⟨fun received hmem => ?_, ?_⟩
      · simp only [mem_append, mem_cons, not_mem_nil, or_false] at hmem hpops
        rcases hmem with (hmem | hmem) | hmem
        · exact hpops _ (.inl hmem)
        · exact hmem
        · exact hpops _ (.inr (.inr hmem))
      · simp only [count, calls, length_cons, length_append, length_nil] at hmore ⊢
        omega
    | ended call =>
      refine ⟨fun received hmem => hpops _ ?_, ?_⟩
      · simp only [append_nil, mem_append, mem_cons] at hmem ⊢
        exact hmem.imp_right .inr
      · simp only [count, calls, length_cons, length_append, length_nil, toList_some,
          toList_none] at hmore ⊢
        omega

end SignalPair

/-! ## Quiescence -/

namespace MsiPair

/-- A number of messages are handled. -/
inductive DeliversIn : ℕ → MsiPair → MsiPair → Prop
  | stop (s : MsiPair) : DeliversIn 0 s s
  | step {n : ℕ} {s t u : MsiPair} (h : Delivers MsiEnv.Any s t) (hrest : DeliversIn n t u) : DeliversIn (n + 1) s u

/-- However messages are handled, only so many are, and then both channels are empty. -/
structure Quiesces (s : MsiPair) : Prop where
  bounded : ∃ bound, ∀ n t, DeliversIn n s t → n ≤ bound
  empty : ∀ n t, DeliversIn n s t → (∀ u, ¬Delivers MsiEnv.Any t u) → t.toA = [] ∧ t.toB = []

/-- Only hang-ups are in flight, more than the two sessions have calls. -/
structure Overrun (s : MsiPair) : Prop where
  hangups : ∀ data ∈ s.toA ++ s.toB, signal data = .pop
  more : s.a.toList.length + s.b.toList.length < s.toA.length + s.toB.length

variable {s t : MsiPair} {n : ℕ}

/-- Messages overrun where signals do. -/
theorem view_overrun : s.view.Overrun ↔ s.Overrun := by
  have hlength (call : Option MsiCall) : (call.map MsiCall.view).toList.length = call.toList.length := by
    cases call <;> rfl
  constructor
  · rintro ⟨hpops, hmore⟩
    refine ⟨fun data hdata => hpops _ ?_, ?_⟩
    · rw [view, ← map_append]
      exact List.mem_map_of_mem hdata
    · simpa only [SignalPair.calls, SignalPair.count, view, hlength, length_map] using hmore
  · rintro ⟨hhangups, hmore⟩
    refine ⟨fun received hmem => ?_, ?_⟩
    · rw [view, ← map_append] at hmem
      obtain ⟨data, hdata, rfl⟩ := List.mem_map.mp hmem
      exact hhangups data hdata
    · simpa only [SignalPair.calls, SignalPair.count, view, hlength, length_map] using hmore

/-- Settled states stay settled. -/
theorem DeliversIn.settled (h : DeliversIn n s t) (hs : s.Settled) : t.Settled := by
  induction h with
  | stop s => exact hs
  | step h hrest ih => exact ih (h.view hs).2

/-- A session that nothing is delivered to has nothing to handle. -/
theorem empty_of_stuck (hs : s.Settled) (hstuck : ∀ t, ¬Delivers MsiEnv.Any s t) : s.toA = [] ∧ s.toB = [] := by
  constructor
  · by_contra hne
    obtain ⟨t, ht⟩ := deliver_some hs ⟨none, fun _ => none⟩ hne
    exact hstuck t (.toA _ trivial ht)
  · by_contra hne
    obtain ⟨t, ht⟩ := deliver_some (s := s.swap) hs.symm ⟨none, fun _ => none⟩ hne
    exact hstuck _ (.toB _ trivial ht)

/-- Without an overrun the rank bounds the number of messages that are handled. -/
theorem DeliversIn.le_rank {number : ℕ} (h : DeliversIn n s t) (hs : s.Settled) (hcount : s.view.count ≤ number)
    (hok : ∀ n t, DeliversIn n s t → ¬t.Overrun) : n ≤ s.view.rank number := by
  induction h with
  | stop s => exact Nat.zero_le _
  | step h hrest ih =>
    obtain ⟨hview, hsettled⟩ := h.view hs
    have hnot := fun hoverrun => hok 0 _ (.stop _) (view_overrun.mp hoverrun)
    have hrank := hview.rank_lt hcount hnot
    have hle := ih hsettled (hview.count_le.trans hcount) fun n t ht => hok (n + 1) t (.step h ht)
    omega

/-- An overrun goes on for ever. -/
theorem Overrun.goes_on (h : s.Overrun) (hs : s.Settled) (n : ℕ) : ∃ t, DeliversIn n s t := by
  induction n generalizing s with
  | zero => exact ⟨s, .stop s⟩
  | succ n ih =>
    have hsome : ∃ t, Delivers MsiEnv.Any s t := by
      by_contra hstuck
      obtain ⟨hA, hB⟩ := empty_of_stuck hs fun t ht => hstuck ⟨t, ht⟩
      have hmore := h.more
      rw [hA, hB] at hmore
      exact Nat.not_lt_zero _ hmore
    obtain ⟨t, ht⟩ := hsome
    obtain ⟨hview, hsettled⟩ := ht.view hs
    obtain ⟨u, hu⟩ := ih (view_overrun.mp ((view_overrun.mpr h).delivers hview)) hsettled
    exact ⟨u, .step ht hu⟩

theorem DeliversIn.trans {m : ℕ} {u : MsiPair} (h : DeliversIn m s t) (h' : DeliversIn n t u) :
    DeliversIn (m + n) s u := by
  induction h with
  | stop s => rwa [Nat.zero_add]
  | step hstep hrest ih =>
    rw [Nat.add_right_comm]
    exact .step hstep (ih h')

/-- What is handled without an overrun comes to rest. -/
theorem quiesces_of_no_overrun (hs : s.Settled) (hok : ∀ n t, DeliversIn n s t → ¬t.Overrun) : Quiesces s :=
  ⟨⟨_, fun _ _ h => h.le_rank hs le_rfl hok⟩, fun _ _ h hstuck => empty_of_stuck (h.settled hs) hstuck⟩

/-- A pair that comes to rest has no overrun. -/
theorem Quiesces.no_overrun (h : Quiesces s) (hs : s.Settled) (ht : DeliversIn n s t) : ¬t.Overrun := by
  intro hoverrun
  obtain ⟨bound, hbound⟩ := h.bounded
  obtain ⟨u, hu⟩ := hoverrun.goes_on (ht.settled hs) (bound + 1)
  have hle := hbound _ u (ht.trans hu)
  omega

/-- Whatever the two sessions have done, and whatever is in flight, handling messages comes to rest exactly when it
does not lead to hang-ups alone, more of them than there are calls. -/
theorem quiesces_iff {s : MsiPair} (h : Reaches MsiEnv.Any (fun _ _ => True) s) (toA toB : List ByteStrings.Bytes) :
    Quiesces { s with toA := toA, toB := toB } ↔ ∀ n t, DeliversIn n { s with toA := toA, toB := toB } t →
      ¬t.Overrun := by
  have hs : Settled { s with toA := toA, toB := toB } := h.settled
  exact ⟨fun hquiesces n t ht => hquiesces.no_overrun hs ht, quiesces_of_no_overrun hs⟩

/-! ## Hang-ups that cross -/

/-- The address of the only call of each session. -/
def onlyCall : CallPointer := ⟨0, 0⟩

/-- Callbacks that all return 0. -/
def calmMsi : MsiEnv := ⟨some onlyCall, fun _ => some (true, none)⟩

/-- An invitation that has arrived. -/
theorem invited_reached : ∃ a b : MsiCall, a.state = .requesting ∧ b.state = .requested ∧
    Reaches MsiEnv.Any (fun _ _ => True) ⟨some a, some b, [], []⟩ := by
  have hstart : Reaches MsiEnv.Any (fun _ _ => True) ⟨none, none, [], []⟩ := .start
  have hinvite := hstart.userA (.invite (some onlyCall) 12) trivial
  have harrives := hinvite.deliver (.toB calmMsi trivial rfl)
  exact ⟨_, _, rfl, rfl, harrives⟩

/-- What one hang-up to a session with a call leads to. -/
theorem DeliversIn.of_hangup {a b : MsiCall} (hs : Settled ⟨some a, some b, (MsiMessage.init .pop).send, []⟩)
    (h : DeliversIn n ⟨some a, some b, (MsiMessage.init .pop).send, []⟩ t) : t.view.count ≤ t.view.calls := by
  have hview : MsiPair.view ⟨some a, some b, (MsiMessage.init .pop).send, []⟩ =
    ⟨some a.view, some b.view, [.pop], []⟩ := by
    rw [view, signal_pop]
    rfl
  cases h with
  | stop =>
    rw [hview]
    exact show 1 ≤ 2 from Nat.le_succ 1
  | @step n _ u _ hstep hrest =>
    obtain ⟨hdelivers, hsettled⟩ := hstep.view hs
    rw [hview] at hdelivers
    generalize hu : u.view = v at hdelivers
    cases hdelivers with
    | toA hreacts =>
      cases hreacts
      cases hrest with
      | stop =>
        rw [hu]
        exact Nat.zero_le _
      | step hstep' hrest' =>
        have hdelivers' := (hstep'.view hsettled).1
        rw [hu] at hdelivers'
        nomatch hdelivers'

/-- A call that is declined while nothing else is in flight. -/
theorem quiesces_iff_declined : ∃ s : MsiPair, s.toA = (MsiMessage.init .pop).send ∧ s.a ≠ none ∧ Quiesces s := by
  obtain ⟨a, b, -, -, hreach⟩ := invited_reached
  refine ⟨⟨some a, some b, (MsiMessage.init .pop).send, []⟩, rfl, some_ne_none _, (quiesces_iff hreach _ _).mpr ?_⟩
  intro n t ht hoverrun
  have hle := ht.of_hangup hreach.settled
  exact absurd (view_overrun.mpr hoverrun).more (Nat.not_lt.mpr hle)

/-- Both sides hang up before the other's message arrives, and answer each other for ever. -/
theorem crossing_hangups_go_on : ∃ s : MsiPair, Reaches MsiEnv.Any (fun _ _ => True) s ∧ ¬Quiesces s := by
  obtain ⟨a, b, ha, hb, hreach⟩ := invited_reached
  have hA := hreach.userA .hangup trivial
  have hB := hA.userB .hangup trivial
  refine ⟨_, hB, fun hquiesces => hquiesces.no_overrun hB.settled (.stop _) ?_⟩
  have hhangup (call : MsiCall) (hstate : call.state ≠ .inactive) :
      MsiUserCall.exec (some call) .hangup = (none, (MsiMessage.init .pop).send) := by
    simp only [MsiUserCall.exec, bind_some, msiHangup, if_neg hstate]
  have hpair : ((user ⟨some a, some b, [], []⟩ .hangup).swap.user .hangup).swap =
      ⟨none, none, (MsiMessage.init .pop).send, (MsiMessage.init .pop).send⟩ := by
    simp only [user, swap, hhangup a (by rw [ha]; decide), hhangup b (by rw [hb]; decide), nil_append]
  rw [hpair]
  refine view_overrun.mp ⟨?_, ?_⟩
  · rw [view, signal_pop]
    decide
  · rw [view, signal_pop]
    decide

end MsiPair

end Toxcore
