import Mathlib

open List Option

-- Stateful calls that can fail. A call returns the state it leaves behind together with its result,
-- and an error does not undo what happened before it.
namespace Fallible

universe u

variable {σ ε α β : Type*}

-- The `?` operator: an error ends the computation, with the state as it is at that point.
def andThen (o : σ × Except ε α) (f : σ → α → σ × Except ε β) : σ × Except ε β :=
  match o with
  | (s, .ok a)    => f s a
  | (s, .error e) => (s, .error e)

@[simp]
theorem andThen_ok (s : σ) (a : α) (f : σ → α → σ × Except ε β) : andThen (s, .ok a) f = f s a :=
  rfl

@[simp]
theorem andThen_error (s : σ) (e : ε) (f : σ → α → σ × Except ε β) :
    andThen (s, .error e) f = (s, .error e) :=
  rfl

-- The rule for postconditions that hold wherever the computation ends.
theorem andThen_of {P : σ → Prop} {o : σ × Except ε α} {f : σ → α → σ × Except ε β}
    (ho : P o.fst) (hf : ∀ s a, o = (s, .ok a) → P s → P (f s a).fst) : P (andThen o f).fst := by
  obtain ⟨s, r⟩ := o
  cases r
  case error => exact ho
  case ok a  => exact hf s a rfl ho

-- The rule for loops that an element can end without a result, and for properties of all elements
-- so far.
theorem foldlM_history {P : List α → σ → Prop} {f : σ → α → Option σ} {as : List α} {s s' : σ}
    (h : as.foldlM f s = some s') (hs : P [] s)
    (hf : ∀ done s a s', f s a = some s' → P done s → P (done ++ [a]) s') : P as s' := by
  suffices hall : ∀ done, P done s → P (done ++ as) s' from hall [] hs
  clear hs
  intro done hd
  induction as generalizing s done
  case nil =>
    rw [foldlM_nil, Option.pure_def, Option.some.injEq] at h
    rw [append_nil]
    exact h ▸ hd
  case cons a as ih =>
    rw [foldlM_cons] at h
    have ⟨s₁, h₁, h₂⟩ := Option.bind_eq_some_iff.mp h
    have hrest := ih h₂ (done ++ [a]) (hf done s a s₁ h₁ hd)
    rwa [append_assoc] at hrest

section

variable {R : σ → σ → Prop} {f : σ → α → Option σ} {as bs : List α} {s t : σ}

theorem rel_bind {τ : Type*} {S : τ → τ → Prop} {o₁ o₂ : Option σ} {g₁ g₂ : σ → Option τ}
    (h : Option.Rel R o₁ o₂) (hg : ∀ s t, R s t → Option.Rel S (g₁ s) (g₂ t)) :
    Option.Rel S (o₁.bind g₁) (o₂.bind g₂) := by
  cases h
  case some h => exact hg _ _ h
  case none   => exact .none

theorem rel_trans {o₁ o₂ o₃ : Option σ} (ht : ∀ {s t u}, R s t → R t u → R s u)
    (h₁ : Option.Rel R o₁ o₂) (h₂ : Option.Rel R o₂ o₃) : Option.Rel R o₁ o₃ := by
  cases h₁
  case some h =>
    cases h₂
    case some h' => exact .some (ht h h')
  case none => exact h₂

theorem foldlM_rel (as : List α) (hf : ∀ s t a, R s t → Option.Rel R (f s a) (f t a)) (h : R s t) :
    Option.Rel R (as.foldlM f s) (as.foldlM f t) := by
  induction as generalizing s t
  case nil          => exact .some h
  case cons a as ih => exact rel_bind (hf s t a h) fun _ _ => ih

-- A loop does not depend on the order of its elements if that of any two of them does not matter.
theorem foldlM_perm (hr : ∀ s, R s s) (ht : ∀ {s t u}, R s t → R t u → R s u)
    (hf : ∀ s t a, R s t → Option.Rel R (f s a) (f t a))
    (hswap : ∀ s a b, Option.Rel R ((f s a).bind (f · b)) ((f s b).bind (f · a)))
    (h : as.Perm bs) (hs : R s t) : Option.Rel R (as.foldlM f s) (bs.foldlM f t) := by
  induction h generalizing s t
  case nil => exact .some hs
  case cons a as bs _ ih => exact rel_bind (hf s t a hs) fun _ _ => ih
  case swap a b as =>
    have hpair : Option.Rel R ((f s b).bind (f · a)) ((f t a).bind (f · b)) := by
      have hsame := rel_bind (hf s t b hs) fun s t => hf s t a
      exact rel_trans ht hsame (hswap t b a)
    have hrest := rel_bind hpair fun s t h => foldlM_rel as hf h
    rwa [bind_assoc, bind_assoc] at hrest
  case trans ih₁ ih₂ => exact rel_trans ht (ih₁ hs) (ih₂ (hr t))

end

-- Computations that can fail and can also panic. A panic is the outer `none`, and a failure the
-- inner one. This is the part of them that does not panic.
def checked (o : Option α) : OptionT Option α :=
  .mk (some o)

theorem checked_bind {α β : Type u} (o : Option α) (f : α → Option β) :
    (checked o >>= fun a => checked (f a)) = checked (o.bind f) := by
  cases o
  case none   => rfl
  case some a => rfl

theorem foldlM_checked {f : σ → α → OptionT Option σ} {g : σ → α → Option σ} {as : List α}
    (h : ∀ a ∈ as, ∀ s, f s a = checked (g s a)) (s : σ) :
    as.foldlM f s = checked (as.foldlM g s) := by
  induction as generalizing s
  case nil => rfl
  case cons a as ih =>
    have hrest (s : σ) : as.foldlM f s = checked (as.foldlM g s) :=
      ih (fun a' ha => h a' (mem_cons_of_mem a ha)) s
    rw [foldlM_cons, foldlM_cons, h a mem_cons_self]
    simp only [hrest]
    exact checked_bind ..

end Fallible
