import AsyncNetStack.Lib.Transition

open List

-- Runs in which some moves leave an entry in a log and the others are silent. A step of a program
-- is a stretch of such a run, so what is shown for each kind of move holds for all programs that
-- are made of them.
namespace Transition

variable {σ ε ℓ : Type*}

-- The log of a run, where each step says what it adds.
def logs (step : σ → ε → σ) (out : σ → ε → List ℓ) (s : σ) : List ε → List ℓ
  | []      => []
  | e :: es => out s e ++ logs step out (step s e) es

-- The rule for properties of the log of a run and the state at its end.
theorem logs_induction {step : σ → ε → σ} {out : σ → ε → List ℓ} {P : List ℓ → σ → Prop} {s : σ}
    {l : List ℓ} {es : List ε} (hi : P l s)
    (hs : ∀ l s e, P l s → P (l ++ out s e) (step s e)) :
    P (l ++ logs step out s es) (exec step s es) := by
  induction es generalizing l s
  case nil => rwa [logs, append_nil]
  case cons e es ih =>
    rw [logs, ← append_assoc]
    exact ih (hs l s e hi)

-- A condition on steps that holds for each one of a run.
def Along (step : σ → ε → σ) (G : σ → ε → Prop) (s : σ) : List ε → Prop
  | []      => True
  | e :: es => G s e ∧ Along step G (step s e) es

instance decidableAlong (step : σ → ε → σ) (G : σ → ε → Prop) [∀ s e, Decidable (G s e)] (s : σ) :
    (es : List ε) → Decidable (Along step G s es)
  | []      => isTrue trivial
  | e :: es =>
    have := decidableAlong step G (step s e) es
    inferInstanceAs (Decidable (G s e ∧ Along step G (step s e) es))

inductive Trace (move : σ → σ → Prop) (emit : σ → ℓ → σ → Prop) (s : σ) : List ℓ → σ → Prop
  | refl : Trace move emit s [] s
  | move {ls : List ℓ} {t u : σ} : Trace move emit s ls t → move t u → Trace move emit s ls u
  | emit {ls : List ℓ} {t u : σ} {l : ℓ} : Trace move emit s ls t → emit t l u →
    Trace move emit s (ls ++ [l]) u

namespace Trace

variable {move move' : σ → σ → Prop} {emit : σ → ℓ → σ → Prop} {s t u : σ} {l : ℓ} {ls ls' : List ℓ}

theorem of_move (h : move s t) : Trace move emit s [] t :=
  refl.move h

theorem of_emit (h : emit s l t) : Trace move emit s [l] t :=
  refl.emit h

theorem trans (h₁ : Trace move emit s ls t) (h₂ : Trace move emit t ls' u) :
    Trace move emit s (ls ++ ls') u := by
  induction h₂
  case refl =>
    rw [append_nil]
    exact h₁
  case move hm ih => exact ih.move hm
  case emit he ih =>
    rw [← append_assoc]
    exact ih.emit he

theorem mono (h : Trace move emit s ls t) (hm : ∀ s t, move s t → move' s t) :
    Trace move' emit s ls t := by
  induction h
  case refl         => exact .refl
  case move hmv ih  => exact ih.move (hm _ _ hmv)
  case emit he ih   => exact ih.emit he

-- The rule for properties of a state and the log up to it.
theorem history {P : List ℓ → σ → Prop} (h : Trace move emit s ls t) (hs : P [] s)
    (hm : ∀ ls s t, move s t → P ls s → P ls t)
    (he : ∀ ls s l t, emit s l t → P ls s → P (ls ++ [l]) t) : P ls t := by
  induction h
  case refl          => exact hs
  case move hmv ih   => exact hm _ _ _ hmv ih
  case emit hemit ih => exact he _ _ _ _ hemit ih

-- The invariant rule.
theorem invariant {P : σ → Prop} (h : Trace move emit s ls t) (hs : P s)
    (hm : ∀ s t, move s t → P s → P t) (he : ∀ s l t, emit s l t → P s → P t) : P t :=
  h.history (P := fun _ => P) hs (fun _ => hm) fun _ => he

-- The rule for relations between the states before and after.
theorem relate {R : σ → σ → Prop} (h : Trace move emit s ls t) (hs : R s s)
    (hr : ∀ t u, R s t → R t u → R s u) (hm : ∀ s t, move s t → R s t)
    (he : ∀ s l t, emit s l t → R s t) : R s t :=
  h.invariant hs (fun t u hmv h => hr t u h (hm t u hmv)) fun t l u hemit h =>
    hr t u h (he t l u hemit)

-- What an invariant says about the entries of the log.
theorem forall_mem {P : σ → Prop} {Q : ℓ → Prop} (h : Trace move emit s ls t) (hs : P s)
    (hm : ∀ s t, move s t → P s → P t) (he : ∀ s l t, emit s l t → P s → P t ∧ Q l) :
    ∀ l ∈ ls, Q l := by
  have hi : P t ∧ ∀ l ∈ ls, Q l := by
    refine h.history (P := fun ls t => P t ∧ ∀ l ∈ ls, Q l) ⟨hs, nofun⟩ ?_ ?_
    case refine_1 => exact fun ls s t hmv ih => ⟨hm s t hmv ih.left, ih.right⟩
    case refine_2 =>
      intro ls s l t hemit ih
      have ⟨hp, hq⟩ := he s l t hemit ih.left
      refine ⟨hp, fun l' hl => ?_⟩
      rcases mem_append.mp hl with hl | hl
      case inl => exact ih.right l' hl
      case inr => exact mem_singleton.mp hl ▸ hq
  exact hi.right

-- A run can be cut wherever its log can.
theorem split (h : Trace move emit s (ls ++ ls') u) :
    ∃ t, Trace move emit s ls t ∧ Trace move emit t ls' u := by
  generalize heq : ls ++ ls' = log at h
  induction h generalizing ls'
  case refl =>
    obtain ⟨rfl, rfl⟩ := append_eq_nil_iff.mp heq
    exact ⟨s, .refl, .refl⟩
  case move hm ih =>
    have ⟨t, h₁, h₂⟩ := ih heq
    exact ⟨t, h₁, h₂.move hm⟩
  case emit log t u l htrace he ih =>
    rcases eq_nil_or_concat ls' with rfl | ⟨front, l', rfl⟩
    case inl =>
      rw [append_nil] at heq
      exact ⟨u, heq ▸ htrace.emit he, .refl⟩
    rw [concat_eq_append, ← append_assoc] at heq
    obtain ⟨hfront, hl⟩ := append_inj' heq rfl
    have ⟨t, h₁, h₂⟩ := ih hfront
    rw [concat_eq_append, hl]
    exact ⟨t, h₁, h₂.emit he⟩

-- The first entry of a log.
theorem uncons (h : Trace move emit s (l :: ls) u) :
    ∃ t t', Trace move emit s [] t ∧ emit t l t' ∧ Trace move emit t' ls u := by
  generalize heq : l :: ls = log at h
  induction h generalizing ls
  case refl => cases heq
  case move hm ih =>
    have ⟨t, t', h₁, he, h₂⟩ := ih heq
    exact ⟨t, t', h₁, he, h₂.move hm⟩
  case emit log t u l' htrace he ih =>
    cases log
    case nil =>
      cases heq
      exact ⟨t, u, htrace, he, .refl⟩
    case cons l'' log =>
      rw [cons_append, List.cons.injEq] at heq
      obtain ⟨rfl, rfl⟩ := heq
      have ⟨t₁, t₂, h₁, he', h₂⟩ := ih rfl
      exact ⟨t₁, t₂, h₁, he', h₂.emit he⟩

-- Steps that are traces make up runs that are traces.
theorem of_along {step : σ → ε → σ} {out : σ → ε → List ℓ} {G : σ → ε → Prop} {es : List ε}
    (h : ∀ s e, G s e → Trace move emit s (out s e) (step s e)) (hg : Along step G s es) :
    Trace move emit s (logs step out s es) (exec step s es) := by
  induction es generalizing s
  case nil          => exact .refl
  case cons e es ih => exact (h s e hg.left).trans (ih hg.right)

theorem of_exec {step : σ → ε → σ} {out : σ → ε → List ℓ} {es : List ε}
    (h : ∀ s e, Trace move emit s (out s e) (step s e)) :
    Trace move emit s (logs step out s es) (exec step s es) := by
  induction es generalizing s
  case nil          => exact .refl
  case cons e es ih => exact (h s e).trans ih

end Trace
end Transition
