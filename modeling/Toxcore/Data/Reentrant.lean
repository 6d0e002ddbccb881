import Mathlib.Logic.Basic

/-!
# Runs of a system whose operations call back

An operation is handed callbacks that it may run in the middle of its work, and a callback may run
operations of the system itself. `Reaches` is the reachability such a system has: every callback takes
any state to one that operations can reach. An invariant needs one proof per operation, which may
assume that the callbacks keep it.
-/

namespace Reentrant

variable {σ ω κ : Type*} (exec : κ → ω → σ → σ) (calls : κ → σ → σ → Prop) (allowed : ω → σ → Prop)

/-- The states reached by allowed operations, the callbacks being runs of allowed operations too. -/
inductive Reaches : σ → σ → Prop
  | refl (s : σ) : Reaches s s
  | step {s t : σ} (callbacks : κ) (op : ω) (before : Reaches s t)
      (inner : ∀ u v, calls callbacks u v → Reaches u v) (ok : allowed op t) :
      Reaches s (exec callbacks op t)

variable {exec calls allowed}

/-- A step whose callbacks do nothing. -/
theorem Reaches.step_quiet {s t : σ} (h : Reaches exec calls allowed s t) (callbacks : κ) (op : ω)
    (hquiet : ∀ u v, calls callbacks u v → v = u) (hok : allowed op t) :
    Reaches exec calls allowed s (exec callbacks op t) := by
  refine .step callbacks op h ?_ hok
  intro u v hcall
  rw [hquiet u v hcall]
  exact .refl u

/-- What every operation keeps when its callbacks keep it, every run keeps. -/
theorem Reaches.invariant {P : σ → Prop}
    (hstep : ∀ callbacks op s, (∀ u v, calls callbacks u v → P u → P v) → allowed op s → P s →
      P (exec callbacks op s)) {s t : σ} (h : Reaches exec calls allowed s t) (hs : P s) : P t := by
  induction h with
  | refl s => exact hs
  | step callbacks op _ _ hok ihbefore ihinner =>
    exact hstep callbacks op _ (fun u v hcall hu => ihinner u v hcall hu) hok (ihbefore hs)

end Reentrant
