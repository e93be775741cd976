import AsyncNetStack.ShmNic.Ring

namespace ShmNic

variable {a : Args} {l : Layout}

theorem le_alignUp (bits n : Nat) : n ≤ alignUp bits n := by
  have hpos := Nat.two_pow_pos bits
  have hdiv := Nat.div_add_mod (n + (2 ^ bits - 1)) (2 ^ bits)
  have hlt := Nat.mod_lt (n + (2 ^ bits - 1)) hpos
  rw [alignUp, Nat.shiftLeft_eq, Nat.shiftRight_eq_div_pow, Nat.mul_comm]
  omega

-- What `Layout::new` has checked.
structure Layout.Fits (l : Layout) (a : Args) : Prop where
  ring    : l.ring = a.ring
  pow     : ∃ k, a.ring = 2 ^ k
  batch   : 0 < a.batch ∧ a.batch ≤ a.ring
  size    : 64 ≤ a.size ∧ a.size ≤ l.stride
  payload : descriptorsAt + l.ring * descriptorSize ≤ l.payload
  bytes   : l.bytes = l.payload + l.ring * l.stride

namespace Layout

theorem fits (h : Layout.new a = .ok l) : l.Fits a := by
  rw [Layout.new] at h
  repeat (split at h; · contradiction)
  case isFalse.isFalse.isFalse hr hb _ =>
    extract_lets stride payload at h
    repeat (split at h; · contradiction)
    rename_i hs _ _
    simp only [Bool.or_eq_true, decide_eq_true_eq, not_or, Bool.not_eq_true', Bool.not_eq_false]
      at hr hb hs
    obtain rfl := Except.ok.inj h
    exact {
      ring    := rfl
      pow     := ⟨_, (beq_iff_eq.mp hr.left.left).symm⟩
      batch   := by omega
      size    := ⟨Nat.le_of_not_lt hb.left.right, Nat.le_of_not_lt hs.left.left⟩
      payload := le_alignUp 12 _
      bytes   := rfl }

theorem index_eq (h : l.Fits a) (sequence : Nat) : l.index sequence = sequence % a.ring := by
  obtain ⟨k, hk⟩ := h.pow
  rw [index, h.ring, hk, Nat.and_two_pow_sub_one_eq_mod]

theorem offset_apart (h : l.Fits a) {x y : Nat} (hlt : l.index x < l.index y) :
    l.offset x + a.size ≤ l.offset y := by
  have hmul := Nat.mul_le_mul_right l.stride (Nat.succ_le_of_lt hlt)
  have hsize := h.size
  rw [Nat.succ_mul] at hmul
  rw [offset, offset]
  omega

-- Frames in different slots have no byte in common.
theorem offset_disjoint (h : l.Fits a) {x y : Nat} (hne : l.index x ≠ l.index y) :
    l.offset x + a.size ≤ l.offset y ∨ l.offset y + a.size ≤ l.offset x :=
  (Nat.lt_or_gt_of_ne hne).imp (offset_apart h) (offset_apart h)

-- The descriptors and the frames follow each other in the mapping, and frames in different slots
-- have no byte in common. A descriptor passes the check of one sequence number only, and only with
-- its slot.
theorem mapping_is_partitioned (h : Layout.new a = .ok l) (x y : Nat) (d : Descriptor) :
    descriptorsAt + (l.index x + 1) * descriptorSize ≤ l.payload ∧
    l.payload ≤ l.offset x ∧
    l.offset x + a.size ≤ l.bytes ∧
    (l.index x = l.index y ↔ x % a.ring = y % a.ring) ∧
    (l.index x ≠ l.index y → l.offset x + a.size ≤ l.offset y ∨ l.offset y + a.size ≤ l.offset x) ∧
    (l.validate d x a.size = some (l.offset x) ∧ d.sequence = x ∨
      l.validate d x a.size = none) := by
  have hf := fits h
  have hlt : l.index x < l.ring := by
    rw [index_eq hf, hf.ring]
    exact Nat.mod_lt _ (hf.batch.left.trans_le hf.batch.right)
  have hsize := hf.size
  have hdesc := Nat.mul_le_mul_right descriptorSize (Nat.succ_le_of_lt hlt)
  have hslot := Nat.mul_le_mul_right l.stride (Nat.succ_le_of_lt hlt)
  refine ⟨(Nat.add_le_add_left hdesc _).trans hf.payload, Nat.le_add_right .., ?_, ?_,
    offset_disjoint hf, ?_⟩
  · rw [Nat.succ_mul] at hslot
    rw [offset, hf.bytes]
    omega
  · rw [index_eq hf, index_eq hf]
  · rw [validate]
    split
    case isTrue => exact .inr rfl
    case isFalse hd =>
      simp only [Bool.or_eq_true, decide_eq_true_eq, not_or, not_not] at hd
      exact .inl ⟨congrArg some hd.right, hd.left.left.left⟩

end Layout

-- Five packets in a ring of two slots.
def five : Job where
  args   :=
    { packets := 5, warmup := 0, size := 64, ring := 2, batch := 1, stride := 0, full := true,
              timeout := 1 }
  layout := { ring := 2, stride := 128, payload := 8192, bytes := 8448 }
  start  := 0
  stop   := 5
  phase  := 2
  valid  := rfl
  le     := Nat.zero_le 5

theorem mapping_is_partitioned_five : five.layout.offset 1 + five.args.size ≤ five.layout.bytes :=
  (Layout.mapping_is_partitioned five.valid 1 0 (five.descriptor 0)).right.right.left

end ShmNic
