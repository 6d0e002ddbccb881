import Mathlib.Logic.Basic

/-!
# Results of calls

A component takes calls one after the other, and each call gives a result and changes the state. Two components give
the same results if their states stay related.
-/

namespace CallResults

variable {σ σ' κ ρ : Type*}

/-- The results of several calls. -/
def results (step : σ → κ → ρ × σ) : List κ → σ → List ρ
  | [], _ => []
  | call :: rest, s => (step s call).1 :: results step rest (step s call).2

/-- The state after several calls. -/
def after (step : σ → κ → ρ × σ) : List κ → σ → σ
  | [], s => s
  | call :: rest, s => after step rest (step s call).2

/-- Every call meets a condition in the state before it. -/
def EachMeets (step : σ → κ → ρ × σ) (ok : σ → κ → Prop) : List κ → σ → Prop
  | [], _ => True
  | call :: rest, s => ok s call ∧ EachMeets step ok rest (step s call).2

variable {step : σ → κ → ρ × σ}

/-- Calls that meet a condition give the same results in related states, and the states stay related. -/
theorem results_eq {step' : σ' → κ → ρ × σ'} {ok : σ → κ → Prop} {R : σ → σ' → Prop}
    (hstep : ∀ s s' call, R s s' → ok s call → (step' s' call).1 = (step s call).1 ∧
      R (step s call).2 (step' s' call).2)
    {calls : List κ} {s : σ} {s' : σ'} (hmeets : EachMeets step ok calls s) (hrel : R s s') :
    results step' calls s' = results step calls s ∧ R (after step calls s) (after step' calls s') := by
  induction calls generalizing s s' with
  | nil => exact ⟨rfl, hrel⟩
  | cons call rest ih =>
    obtain ⟨hresult, hnext⟩ := hstep s s' call hrel hmeets.1
    obtain ⟨hresults, hlast⟩ := ih hmeets.2 hnext
    refine ⟨?_, hlast⟩
    rw [results, results, hresult, hresults]

/-- Two conditions are met by the same calls if they agree wherever an invariant holds, and keep it. -/
theorem eachMeets_iff {ok ok' : σ → κ → Prop} {inv : σ → Prop} (hagree : ∀ s call, inv s → (ok s call ↔ ok' s call))
    (hkeep : ∀ s call, inv s → ok' s call → inv (step s call).2) {calls : List κ} {s : σ} (hinv : inv s) :
    EachMeets step ok calls s ↔ EachMeets step ok' calls s := by
  induction calls generalizing s with
  | nil => exact Iff.rfl
  | cons call rest ih =>
    rw [EachMeets, EachMeets, hagree s call hinv]
    exact and_congr_right fun hok => ih (hkeep s call hinv hok)

end CallResults
