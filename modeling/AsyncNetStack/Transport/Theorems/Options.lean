import AsyncNetStack.Net.Theorems.Checksum
import AsyncNetStack.Transport.TcpSlices

open List

namespace Tcp

-- The grammar of the options of a header, together with the values of all MSS options. The options
-- may be ended early, and anything is allowed behind their end.
inductive Options : List U8 → List U16 → Prop
  | nil : Options [] []
  | endOfList (bytes : List U8) : Options (0 :: bytes) []
  | nop {bytes : List U8} {values : List U16} : Options bytes values → Options (1 :: bytes) values
  | mss {bytes : List U8} {values : List U16} (value : U16) :
    value ≠ 0 → Options bytes values → Options (2 :: 4 :: (be16 value ++ bytes)) (value :: values)
  | other {bytes : List U8} {values : List U16} (kind len : U8) (data : List U8) :
    kind ≠ 0 → kind ≠ 1 → kind ≠ 2 → len.toNat = data.length + 2 → Options bytes values →
    Options (kind :: len :: (data ++ bytes)) values

namespace Wire

variable {mss : Option U16} {kind len hi lo : U8} {body : List U8}

section

variable (h₀ : kind ≠ 0) (h₁ : kind ≠ 1)

theorem parseOptions_nil : parseOptions mss [] = .ok mss := by
  rw [parseOptions]

theorem parseOptions_endOfList : parseOptions mss (0 :: body) = .ok mss := by
  rw [parseOptions.eq_def]
  dsimp only
  rw [if_pos rfl]

theorem parseOptions_nop : parseOptions mss (1 :: body) = parseOptions mss body := by
  rw [parseOptions.eq_def]
  dsimp only
  rw [if_neg (by decide), if_pos rfl]

include h₀ h₁

theorem parseOptions_single : parseOptions mss [kind] = .error invalidSegment := by
  rw [parseOptions.eq_def]
  dsimp only
  rw [if_neg h₀, if_neg h₁]

-- A length that does not cover the option itself, or that exceeds the header.
theorem parseOptions_cut (h : len.toNat < 2 ∨ body.length < len.toNat - 2) :
    parseOptions mss (kind :: len :: body) = .error invalidSegment := by
  rw [parseOptions.eq_def]
  dsimp only
  rw [if_neg h₀, if_neg h₁, if_pos h]

theorem parseOptions_other (h₂ : kind ≠ 2) (h : ¬(len.toNat < 2 ∨ body.length < len.toNat - 2)) :
    parseOptions mss (kind :: len :: body) = parseOptions mss (body.drop (len.toNat - 2)) := by
  rw [parseOptions.eq_def]
  dsimp only
  rw [if_neg h₀, if_neg h₁, if_neg h, if_neg h₂]

end

theorem parseOptions_mss_length (h : ¬(len.toNat < 2 ∨ body.length < len.toNat - 2))
    (h₄ : len.toNat ≠ 4) : parseOptions mss (2 :: len :: body) = .error invalidSegment := by
  rw [parseOptions.eq_def]
  dsimp only
  rw [if_neg (by decide), if_neg (by decide), if_neg h, if_pos rfl]
  split
  case h_1 => rw [if_pos (.inl h₄)]
  case h_2 => rfl

theorem parseOptions_mss :
    parseOptions mss (2 :: 4 :: hi :: lo :: body) =
      if mss.isSome ∨ (hi ++ lo : U16) = 0 then .error invalidSegment
      else parseOptions (some (hi ++ lo)) body := by
  rw [parseOptions.eq_def]
  dsimp only
  rw [if_neg (by decide), if_neg (by decide), if_neg (by simp), if_pos rfl]
  simp

theorem eq_of_toList {a b : Option U16} (h : a.toList = b.toList) : a = b := by
  rw [← a.head?_toList, h, b.head?_toList]

-- The options behind an accepted one are accepted by themselves.
theorem parseOptions_ok_iff (bytes : List U8) (result : Option U16) :
    parseOptions mss bytes = .ok result ↔
      ∃ values, Options bytes values ∧ mss.toList ++ values = result.toList := by
  constructor
  case mp =>
    intro h
    fun_induction parseOptions mss bytes
    case case1 =>
      cases h
      exact ⟨[], .nil, append_nil _⟩
    case case2 body =>
      cases h
      exact ⟨[], .endOfList body, append_nil _⟩
    case case3 ih =>
      have ⟨values, hv, hr⟩ := ih h
      exact ⟨values, .nop hv, hr⟩
    case case4 => cases h
    case case5 => cases h
    case case6 => cases h
    case case7 mss len hi lo tail hcheck _ _ _ ih =>
      simp only [not_or, ne_eq, not_not, Bool.not_eq_true, Option.isSome_eq_false_iff,
        Option.isNone_iff_eq_none] at hcheck
      have ⟨hlen, hmss, hvalue⟩ := hcheck
      have ⟨values, hv, hr⟩ := ih h
      have hopt := Options.mss (hi ++ lo) hvalue hv
      rw [be16_append] at hopt
      rw [hmss, BitVec.eq_of_toNat_eq (show len.toNat = (4 : U8).toNat from hlen)]
      exact ⟨_, hopt, hr⟩
    case case8 => cases h
    case case9 kind h₀ h₁ len body hlen h₂ ih =>
      have ⟨values, hv, hr⟩ := ih h
      have hdata : len.toNat = (body.take (len.toNat - 2)).length + 2 := by
        rw [length_take]
        omega
      have hopt := Options.other kind len _ h₀ h₁ h₂ hdata hv
      rw [take_append_drop] at hopt
      exact ⟨values, hopt, hr⟩
  case mpr =>
    intro ⟨values, hv, hr⟩
    induction hv generalizing mss
    case nil =>
      rw [parseOptions_nil, eq_of_toList ((append_nil _).symm.trans hr)]
    case endOfList =>
      rw [parseOptions_endOfList, eq_of_toList ((append_nil _).symm.trans hr)]
    case nop ih => rw [parseOptions_nop, ih hr]
    case mss bytes values value hvalue _ ih =>
      cases mss
      case none =>
        rw [be16, cons_append, cons_append, nil_append, parseOptions_mss, be16_word,
          if_neg (by simpa using hvalue), ih hr]
      case some other =>
        -- There would be two values.
        have htwo := congrArg List.length hr
        have hone : result.toList.length ≤ 1 := by cases result <;> simp
        simp only [Option.toList_some, length_append, length_cons, length_nil] at htwo
        omega
    case other bytes values kind len data h₀ h₁ h₂ hlen _ ih =>
      rw [parseOptions_other h₀ h₁ h₂ (by rw [length_append]; omega), hlen]
      simpa using ih hr

end Wire

end Tcp
