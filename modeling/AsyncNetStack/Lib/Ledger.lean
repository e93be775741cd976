import Mathlib

open List

-- Identifiers that are issued one after the other, starting at one. An identifier is active until
-- it is closed, and stays closed from then on.
namespace Ledger

variable {next id : Nat} {active active' closed closed' : List Nat}

-- Every identifier that was issued is active or closed, and only once. The order does not matter.
structure Sound (next : Nat) (active closed : List Nat) : Prop where
  pos  : 1 ≤ next
  perm : (active ++ closed).Perm (List.range' 1 (next - 1))

namespace Sound

theorem empty : Sound 1 [] [] :=
  ⟨Nat.le_refl 1, .nil⟩

theorem issue (h : Sound next active closed) (ha : active'.Perm (next :: active)) :
    Sound (next + 1) active' closed where
  pos := Nat.le_add_left ..
  perm := by
    have hrange : List.range' 1 (next + 1 - 1) = List.range' 1 (next - 1) ++ [next] := by
      have := h.pos
      rw [show next + 1 - 1 = (next - 1) + 1 by omega, List.range'_concat]
      congr
      omega
    calc
      (active' ++ closed).Perm (next :: active ++ closed) := ha.append_right closed
      _ = next :: (active ++ closed)                      := rfl
      List.Perm _ (next :: List.range' 1 (next - 1))      := h.perm.cons next
      List.Perm _ (List.range' 1 (next - 1) ++ [next])    := (perm_append_singleton ..).symm
      _ = List.range' 1 (next + 1 - 1)                    := hrange.symm

theorem close (h : Sound next active closed) (ha : active.Perm (id :: active'))
    (hc : closed'.Perm (id :: closed)) : Sound next active' closed' where
  pos := h.pos
  perm := by
    calc
      (active' ++ closed').Perm (active' ++ id :: closed) := hc.append_left active'
      List.Perm _ (id :: active' ++ closed)               := perm_middle
      List.Perm _ (active ++ closed)                      := ha.symm.append_right closed
      List.Perm _ (List.range' 1 (next - 1))              := h.perm

theorem count (h : Sound next active closed) : next - 1 = active.length + closed.length := by
  rw [← length_append, h.perm.length_eq, length_range']

theorem nodup (h : Sound next active closed) : (active ++ closed).Nodup :=
  h.perm.nodup_iff.mpr nodup_range'

theorem mem_iff (h : Sound next active closed) :
    id ∈ active ∨ id ∈ closed ↔ 1 ≤ id ∧ id < next := by
  have := h.pos
  rw [← mem_append, h.perm.mem_iff, mem_range'_1]
  omega

theorem apart (h : Sound next active closed) (ha : id ∈ active) : id ∉ closed :=
  fun hc => (nodup_append.mp h.nodup).right.right id ha id hc rfl

end Sound
end Ledger
