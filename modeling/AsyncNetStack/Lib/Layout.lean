import AsyncNetStack.Lib.Slice

-- Records of fixed size whose fields are written at offsets, and read back at the same ones.
namespace Layout

variable {α : Type*}

structure Cell (α : Type*) where
  offset : Nat
  bytes  : List α

abbrev Cell.stop (f : Cell α) : Nat :=
  f.offset + f.bytes.length

def write (l : List α) (fields : List (Cell α)) : Option (List α) :=
  fields.foldlM (fun l f => Slice.copy l f.offset f.stop f.bytes) l

-- From a position on, the fields are in order, without overlaps, and within the record.
def Fits (size : Nat) : Nat → List (Cell α) → Prop
  | pos, []          => pos ≤ size
  | pos, f :: fields => pos ≤ f.offset ∧ Fits size f.stop fields

-- The fields follow each other without gaps.
def Packed : Nat → List (Cell α) → Prop
  | _, []            => True
  | pos, f :: fields => f.offset = pos ∧ Packed f.stop fields

variable {l l' : List α} {f : Cell α} {fields : List (Cell α)} {start stop size pos : Nat}

theorem Fits.pos_le (h : Fits size pos fields) : pos ≤ size := by
  induction fields generalizing pos
  case nil => exact h
  case cons f fields ih =>
    have := ih h.right
    have := h.left
    simp only [Cell.stop] at *
    omega

theorem Fits.le (h : Fits size pos fields) (hf : f ∈ fields) : pos ≤ f.offset ∧ f.stop ≤ size := by
  induction fields generalizing pos
  case nil => cases hf
  case cons g fields ih =>
    rcases List.mem_cons.mp hf with rfl | hf
    case inl => exact ⟨h.left, h.right.pos_le⟩
    have ⟨hp, hs⟩ := ih h.right hf
    exact ⟨Nat.le_trans h.left (Nat.le_trans (Nat.le_add_right ..) hp), hs⟩

theorem Fits.ordered (h : Fits size pos fields) : fields.Pairwise fun f g => f.stop ≤ g.offset := by
  induction fields generalizing pos
  case nil            => exact .nil
  case cons f fields ih => exact .cons (fun g hg => (h.right.le hg).left) (ih h.right)

theorem write_nil : write l [] = some l :=
  rfl

theorem write_cons :
    write l (f :: fields) = (Slice.copy l f.offset f.stop f.bytes).bind (write · fields) :=
  List.foldlM_cons

theorem exists_write (h : ∀ f ∈ fields, f.stop ≤ l.length) :
    ∃ l', write l fields = some l' ∧ l'.length = l.length := by
  induction fields generalizing l
  case nil => exact ⟨l, rfl, rfl⟩
  case cons f fields ih =>
    have hf := h f (.head _)
    have hcopy := Slice.copy_of_le (Nat.le_add_right ..) hf (Nat.add_sub_cancel_left ..).symm
    have hlen := Slice.length_copy hcopy
    have ⟨l', hw, hl⟩ := ih fun g hg => hlen.symm ▸ h g (.tail _ hg)
    refine ⟨l', ?_, hl.trans hlen⟩
    rw [write_cons, hcopy, Option.bind_some, hw]

-- Ranges without fields remain as they are.
theorem range_write_of_disjoint (hw : write l fields = some l')
    (hd : ∀ f ∈ fields, stop ≤ f.offset ∨ f.stop ≤ start) :
    Slice.range l' start stop = Slice.range l start stop := by
  induction fields generalizing l
  case nil =>
    cases hw
    rfl
  case cons f fields ih =>
    rw [write_cons] at hw
    obtain ⟨m, hcopy, hw⟩ := Option.bind_eq_some_iff.mp hw
    rw [ih hw fun g hg => hd g (.tail _ hg), Slice.range_copy_disjoint hcopy (hd f (.head _))]

theorem range_write (hw : write l fields = some l')
    (h : fields.Pairwise fun f g => f.stop ≤ g.offset) (hf : f ∈ fields) :
    Slice.range l' f.offset f.stop = some f.bytes := by
  induction fields generalizing l
  case nil => cases hf
  case cons g fields ih =>
    rw [write_cons] at hw
    obtain ⟨m, hcopy, hrest⟩ := Option.bind_eq_some_iff.mp hw
    rw [List.pairwise_cons] at h
    rcases List.mem_cons.mp hf with rfl | hf
    case inr => exact ih hrest h.right hf
    -- The fields which are written after this one start behind it.
    rw [range_write_of_disjoint hrest fun g hg => .inl (h.left g hg)]
    exact Slice.range_copy_self hcopy

end Layout
