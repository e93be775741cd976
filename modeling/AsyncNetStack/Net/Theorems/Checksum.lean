import AsyncNetStack.Lib.Carry
import AsyncNetStack.Net.Checksum

open BitVec

theorem foldCarries_folds (sum : Nat) : Carry.Folds 65536 sum (foldCarries sum) := by
  fun_induction foldCarries sum
  case case1 sum h =>
    rw [Nat.shiftRight_eq_div_pow] at h
    exact .refl (by omega)
  case case2 sum _ ih =>
    have hlow : sum &&& 0xffff = sum % 65536 := Nat.and_two_pow_sub_one_eq_mod sum 16
    have hcarry : (sum &&& 0xffff) + sum >>> 16 = sum % 65536 + sum / 65536 :=
      congrArg₂ _ hlow (Nat.shiftRight_eq_div_pow sum 16)
    apply Carry.Folds.step (by decide)
    rwa [← hcarry]

theorem finishSum_toNat (sum : Nat) : (finishSum sum).toNat = 65535 - foldCarries sum := by
  have := (foldCarries_folds sum).lt
  rw [finishSum, toNat_not, toNat_ofNat, Nat.mod_eq_of_lt this]

-- The valid sums are the multiples of 65535 except for zero.
theorem finishSum_eq_zero_iff (sum : Nat) : finishSum sum = 0 ↔ 0 < sum ∧ 65535 ∣ sum := by
  have hf := foldCarries_folds sum
  have := hf.lt
  rw [← hf.eq_top_iff (by decide), toNat_eq, finishSum_toNat]
  constructor
  case mp =>
    intro h
    change _ = 0 at h
    omega
  case mpr =>
    intro h
    rw [h]
    rfl

-- A sum is made valid by its own checksum.
theorem finishSum_complement (sum : Nat) : finishSum (sum + (finishSum sum).toNat) = 0 := by
  have hf := foldCarries_folds sum
  rw [finishSum_toNat]
  exact (finishSum_eq_zero_iff _).mpr ⟨hf.complement_pos (by decide), hf.dvd_add_complement⟩

-- Zero may be replaced by its other representation.
theorem finishSum_complement_ones {sum : Nat} (h : finishSum sum = 0) :
    finishSum (sum + 65535) = 0 := by
  have ⟨_, hd⟩ := (finishSum_eq_zero_iff sum).mp h
  exact (finishSum_eq_zero_iff _).mpr ⟨by omega, Nat.dvd_add hd (Nat.dvd_refl _)⟩

theorem finishSum_near {a b k : Nat} (h : finishSum a = 0) (hk : k < 16)
    (hab : b = a + 2 ^ k ∨ a = b + 2 ^ k) : finishSum b ≠ 0 := by
  have ⟨_, hd⟩ := (finishSum_eq_zero_iff a).mp h
  have hlt : 2 ^ k < 2 ^ 16 := Nat.pow_lt_pow_right (by decide) hk
  have hne : 2 ^ k ≠ 65535 := by
    interval_cases k <;> decide
  intro hb
  exact Carry.not_dvd_of_near hd (Nat.two_pow_pos k) (by omega) hab
    ((finishSum_eq_zero_iff b).mp hb).right

@[simp]
theorem sumWords_nil : sumWords [] = 0 :=
  rfl

theorem word_toNat (hi lo : U8) : (hi ++ lo : U16).toNat = hi.toNat * 256 + lo.toNat := by
  rw [toNat_append, ← Nat.shiftLeft_add_eq_or_of_lt lo.isLt, Nat.shiftLeft_eq]

theorem sumWords_cons_cons (hi lo : U8) (bytes : List U8) :
    sumWords (hi :: lo :: bytes) = (hi ++ lo : U16).toNat + sumWords bytes := by
  rw [sumWords]

-- Words are only aligned behind an even number of bytes.
theorem sumWords_append {front : List U8} (h : 2 ∣ front.length) (back : List U8) :
    sumWords (front ++ back) = sumWords front + sumWords back := by
  fun_induction sumWords front
  case case1 => rw [List.nil_append, Nat.zero_add]
  case case2 => simp at h
  case case3 hi lo bytes ih =>
    rw [List.cons_append, List.cons_append, sumWords_cons_cons, ih (by simpa using h),
      Nat.add_assoc]

theorem be16_word (x : U16) : (x.extractLsb' 8 8 ++ x.extractLsb' 0 8 : U16) = x := by
  have := x.isLt
  apply eq_of_toNat_eq
  rw [word_toNat, BitVec.extractLsb'_toNat, BitVec.extractLsb'_toNat, Nat.shiftRight_eq_div_pow,
    Nat.shiftRight_zero]
  omega

theorem be32_word (x : U32) : (x.extractLsb' 24 8 ++ x.extractLsb' 16 8 ++ x.extractLsb' 8 8 ++
    x.extractLsb' 0 8 : U32) = x := by
  have h₁ : (x.extractLsb' 24 8 ++ x.extractLsb' 16 8 : U16) = x.extractLsb' 16 16 :=
    BitVec.extractLsb'_append_extractLsb'_eq_extractLsb' rfl
  have h₂ : (x.extractLsb' 16 16 ++ x.extractLsb' 8 8 : BitVec 24) = x.extractLsb' 8 24 :=
    BitVec.extractLsb'_append_extractLsb'_eq_extractLsb' rfl
  have h₃ : (x.extractLsb' 8 24 ++ x.extractLsb' 0 8 : U32) = x.extractLsb' 0 32 :=
    BitVec.extractLsb'_append_extractLsb'_eq_extractLsb' rfl
  rw [h₁, h₂, h₃, BitVec.extractLsb'_eq_self]

theorem be16_append (hi lo : U8) : be16 (hi ++ lo) = [hi, lo] := by
  rw [be16, BitVec.extractLsb'_append_eq_left, BitVec.extractLsb'_append_eq_right]

theorem be32_append (a b c d : U8) : be32 (a ++ b ++ c ++ d) = [a, b, c, d] := by
  simp (disch := decide) only [be32, BitVec.extractLsb'_append_eq_of_le,
    BitVec.extractLsb'_append_eq_of_add_le, BitVec.extractLsb'_eq_self, Nat.reduceSub]

theorem be32_inj {x y : U32} : be32 x = be32 y ↔ x = y := by
  refine ⟨fun h => ?_, congrArg be32⟩
  simp only [be32, List.cons.injEq, and_true] at h
  obtain ⟨h₀, h₁, h₂, h₃⟩ := h
  rw [← be32_word x, ← be32_word y, h₀, h₁, h₂, h₃]

theorem sumWords_be16 (x : U16) : sumWords (be16 x) = x.toNat := by
  rw [be16, sumWords_cons_cons, be16_word, sumWords_nil, Nat.add_zero]

-- Writing a word into a field that was blank adds it to the sum.
theorem sumWords_field {front : List U8} (h : 2 ∣ front.length) (x : U16) (back : List U8) :
    sumWords (front ++ (be16 x ++ back)) = sumWords (front ++ (be16 0 ++ back)) + x.toNat := by
  have hfield (y : U16) : sumWords (front ++ (be16 y ++ back)) =
      sumWords front + (y.toNat + sumWords back) := by
    rw [sumWords_append h, sumWords_append (by rw [be16_length]), sumWords_be16]
  rw [hfield, hfield, show (0 : U16).toNat = 0 from rfl]
  omega
