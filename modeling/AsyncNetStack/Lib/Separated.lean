import Mathlib.Algebra.Order.BigOperators.Group.List
import Mathlib.Algebra.Order.Ring.Nat

open List

-- Texts that are made of parts with a separator between each two of them. No part is empty or
-- contains the separator, so there is only one way to read a text.
namespace Separated

variable {α : Type*} {sep : α} {parts parts₁ parts₂ : List (List α)} {part : List α}

abbrev join (sep : α) (parts : List (List α)) : List α :=
  [sep].intercalate parts

structure Parts (sep : α) (parts : List (List α)) : Prop where
  ne_nil : ∀ part ∈ parts, part ≠ []
  free   : ∀ part ∈ parts, sep ∉ part

theorem join_nil : join sep [] = [] :=
  intercalate_nil

theorem join_singleton : join sep [part] = part :=
  intercalate_singleton

theorem join_cons (h : parts ≠ []) : join sep (part :: parts) = part ++ sep :: join sep parts := by
  have ⟨next, rest, heq⟩ := exists_cons_of_ne_nil h
  rw [heq, join, intercalate_cons_cons, append_assoc, singleton_append]

theorem join_concat (h : parts ≠ []) :
    join sep (parts ++ [part]) = join sep parts ++ [sep] ++ part := by
  induction parts
  case nil => exact absurd rfl h
  case cons first rest ih =>
    cases rest
    case nil =>
      rw [singleton_append, join_cons (cons_ne_nil _ _), join_singleton, join_singleton,
        append_assoc, singleton_append]
    case cons second rest =>
      have hrest : second :: rest ≠ [] := cons_ne_nil _ _
      rw [cons_append, join_cons (by simp), ih hrest, join_cons hrest]
      simp only [append_assoc, cons_append]

-- How the next part is added to a text.
theorem join_extend (h : Parts sep parts) :
    (if (join sep parts).isEmpty then join sep parts else join sep parts ++ [sep]) ++ part =
      join sep (parts ++ [part]) := by
  cases parts
  case nil =>
    rw [join_nil, List.nil_append, List.nil_append, join_singleton]
    rfl
  case cons first rest =>
    have hne : first :: rest ≠ [] := List.cons_ne_nil _ _
    have hfirst : first ≠ [] := h.ne_nil first List.mem_cons_self
    rw [join_concat hne, if_neg]
    rw [List.isEmpty_iff]
    intro heq
    cases rest
    case nil =>
      rw [join_singleton] at heq
      exact hfirst heq
    case cons second rest =>
      rw [join_cons (List.cons_ne_nil _ _)] at heq
      exact hfirst (List.append_eq_nil_iff.mp heq).left

theorem length_join (h : parts ≠ []) :
    (join sep parts).length + 1 = (parts.map (·.length + 1)).sum := by
  induction parts
  case nil => exact absurd rfl h
  case cons first rest ih =>
    cases rest
    case nil => rw [join_singleton, map_singleton, sum_singleton]
    case cons second rest =>
      have hrest : second :: rest ≠ [] := cons_ne_nil _ _
      rw [join_cons hrest, map_cons, sum_cons, ← ih hrest, length_append,
        length_cons]
      omega

theorem length_join_le (front back : List (List α)) :
    (join sep front).length ≤ (join sep (front ++ back)).length := by
  induction back generalizing front
  case nil => rw [append_nil]
  case cons part back ih =>
    have hle : (join sep front).length ≤ (join sep (front ++ [part])).length := by
      cases front
      case nil => exact Nat.zero_le _
      case cons =>
        rw [join_concat (cons_ne_nil _ _), length_append, length_append]
        omega
    have := ih (front ++ [part])
    rw [append_assoc, singleton_append] at this
    exact hle.trans this

theorem Parts.two_mul_length_le (h : Parts sep parts) :
    2 * parts.length ≤ (join sep parts).length + 1 := by
  cases parts
  case nil => exact Nat.zero_le _
  case cons first rest =>
    rw [length_join (cons_ne_nil _ _)]
    have hsum :
        ((first :: rest).map fun _ => 2).sum ≤ ((first :: rest).map (·.length + 1)).sum := by
      refine sum_le_sum fun part hpart => ?_
      have := length_pos_of_ne_nil (h.ne_nil part hpart)
      omega
    rw [map_const', sum_replicate_nat] at hsum
    omega

section

variable [BEq α] [LawfulBEq α]

theorem Parts.splitOn_join (h : Parts sep parts) (hne : parts ≠ []) :
    (join sep parts).splitOn sep = parts :=
  splitOn_intercalate sep h.free hne

-- A text of no parts is empty, and one of some parts is not.
theorem Parts.join_inj (h₁ : Parts sep parts₁) (h₂ : Parts sep parts₂)
    (h : join sep parts₁ = join sep parts₂) : parts₁ = parts₂ := by
  have hsplit {parts : List (List α)} (hp : Parts sep parts) (hne : parts ≠ []) :
      join sep parts ≠ [] := by
    intro heq
    have hs := hp.splitOn_join hne
    rw [heq, splitOn_nil] at hs
    exact hp.ne_nil [] (hs ▸ mem_singleton.mpr rfl) rfl
  by_cases hn₁ : parts₁ = []
  case pos =>
    by_contra hne
    rw [hn₁, join_nil] at h
    exact hsplit h₂ (fun hn₂ => hne (hn₁.trans hn₂.symm)) h.symm
  case neg =>
    have hn₂ : parts₂ ≠ [] := by
      intro hn₂
      rw [hn₂] at h
      exact hsplit h₁ hn₁ (h.trans join_nil)
    rw [← h₁.splitOn_join hn₁, h, h₂.splitOn_join hn₂]

end

-- A text does not end with a separator.
theorem Parts.getLast?_join (h : Parts sep parts) : (join sep parts).getLast? ≠ some sep := by
  rcases eq_nil_or_concat parts with rfl | ⟨front, part, rfl⟩
  case inl => exact nofun
  rw [concat_eq_append] at h ⊢
  have hmem : part ∈ front ++ [part] := mem_append_right _ (mem_singleton.mpr rfl)
  have hlast : (join sep (front ++ [part])).getLast? = part.getLast? := by
    by_cases hf : front = []
    case pos => rw [hf, nil_append, join_singleton]
    case neg =>
      rw [join_concat hf, List.getLast?_append_of_ne_nil _ (h.ne_nil part hmem)]
  rw [hlast]
  intro heq
  exact h.free part hmem (mem_of_getLast? heq)

theorem map_join {β : Type*} (f : α → β) (sep : α) (parts : List (List α)) :
    (join sep parts).map f = join (f sep) (parts.map (·.map f)) := by
  induction parts
  case nil => rw [join_nil, map_nil, map_nil, join_nil]
  case cons first rest ih =>
    by_cases hrest : rest = []
    case pos => rw [hrest, map_singleton, join_singleton, join_singleton]
    case neg =>
      rw [join_cons hrest, map_append, map_cons, ih, map_cons,
        join_cons (by simpa using hrest)]

end Separated
