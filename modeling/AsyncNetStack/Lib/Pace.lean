import Mathlib

-- Loads at points in time, such that a rate has made up for each one before the next.
namespace Pace

variable {α : Type*} {scale rate : Nat} {load time : α → Nat} {as between : List α} {first last : α}

-- Loads are counted in a unit of which there are `scale` in one of the rate.
def Paced (scale rate : Nat) (load time : α → Nat) (as : List α) : Prop :=
  as.IsChain fun a b => scale * load a + rate * time a ≤ rate * time b

theorem Paced.total_le (h : Paced scale rate load time (first :: (between ++ [last]))) :
    scale * ((first :: between).map load).sum + rate * time first ≤ rate * time last := by
  induction between generalizing first
  case nil =>
    have hpair := List.isChain_pair.mp h
    simpa using hpair
  case cons a between ih =>
    have ⟨hhead, htail⟩ := List.isChain_cons_cons.mp h
    have hrest := ih htail
    simp only [List.map_cons, List.sum_cons, Nat.mul_add] at hrest ⊢
    omega

-- The total of all loads up to the last one is within the rate, wherever one starts to count.
theorem Paced.infix_le (h : Paced scale rate load time as)
    (hin : first :: (between ++ [last]) <:+: as) :
    scale * ((first :: between).map load).sum ≤ rate * (time last - time first) := by
  have hpaced : Paced scale rate load time (first :: (between ++ [last])) := h.infix hin
  have htotal := hpaced.total_le
  rw [Nat.mul_sub]
  omega

end Pace
