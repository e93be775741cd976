import Mathlib

-- Runs of a deterministic transition system whose nondeterminism (inputs, times, outcomes of the
-- environment) is carried by the labels of its steps.
namespace Transition

variable {σ ε : Type*} {step : σ → ε → σ} {s : σ} {es : List ε}

def exec (step : σ → ε → σ) (s : σ) (es : List ε) : σ :=
  es.foldl step s

@[simp]
theorem exec_nil : exec step s [] = s :=
  rfl

@[simp]
theorem exec_cons (e : ε) : exec step s (e :: es) = exec step (step s e) es :=
  rfl

-- The invariant rule for runs whose labels all satisfy `G`.
theorem exec_induction_of {P : σ → Prop} {G : ε → Prop}
    (hi : P s) (hs : ∀ s e, G e → P s → P (step s e)) (hg : ∀ e ∈ es, G e) :
    P (exec step s es) := by
  induction es generalizing s
  case nil => exact hi
  case cons e es ih =>
    simp only [List.mem_cons, forall_eq_or_imp] at hg
    exact ih (hs s e hg.left hi) hg.right

theorem exec_induction {P : σ → Prop} (hi : P s) (hs : ∀ s e, P s → P (step s e)) :
    P (exec step s es) :=
  exec_induction_of (G := fun _ => True) hi (fun s e _ => hs s e) (fun _ _ => trivial)

-- The states that can be reached from `s` by steps which all meet the condition `G`. Unlike that of
-- `exec_induction_of`, the condition can depend on the state before the step.
inductive Reachable (step : σ → ε → σ) (G : σ → ε → Prop) (s : σ) : σ → Prop
  | init : Reachable step G s s
  | step {t : σ} {e : ε} : Reachable step G s t → G t e → Reachable step G s (step t e)

theorem Reachable.induction {G : σ → ε → Prop} {P : σ → Prop} {t : σ} (h : Reachable step G s t)
    (hi : P s) (hs : ∀ t e, G t e → P t → P (step t e)) : P t := by
  induction h
  case init       => exact hi
  case step hg ih => exact hs _ _ hg ih

theorem reachable_exec {G : σ → ε → Prop} (h : ∀ e ∈ es, ∀ s, G s e) :
    Reachable step G s (exec step s es) :=
  exec_induction_of .init (fun s _ hg hr => hr.step (hg s)) h

end Transition
