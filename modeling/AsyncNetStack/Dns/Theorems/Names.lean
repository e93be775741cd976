import AsyncNetStack.Dns.Theorems.Wire
import AsyncNetStack.Dns.WireSlices
import AsyncNetStack.Lib.Separated

open Fallible Separated List

namespace Dns.Wire

-- A part of a name between two dots.
structure IsLabel (label : List U8) : Prop where
  pos       : 1 ≤ label.length
  length_le : label.length ≤ 63
  host      : ∀ c ∈ label, isHostByte c

def IsLabels (ls : List (List U8)) : Prop :=
  ∀ label ∈ ls, IsLabel label

theorem IsLabels.parts {ls : List (List U8)} (h : IsLabels ls) : Parts DOT ls where
  ne_nil label hl := length_pos_iff.mp (h label hl).pos
  free label hl   := fun hdot => absurd ((h label hl).host DOT hdot) (by decide)

variable {label b : List U8} {rounds : Nat}

theorem IsLabels.concat {ls : List (List U8)} (h : IsLabels ls) (hl : IsLabel label) :
    IsLabels (ls ++ [label]) := by
  intro l hmem
  rcases mem_append.mp hmem with hmem | hmem
  case inl => exact h l hmem
  case inr => exact mem_singleton.mp hmem ▸ hl

theorem word_le {pos : Nat} {w : U16} (h : word b pos = some w) : pos + 2 ≤ b.length := by
  rw [word] at h
  split at h
  case h_2 => cases h
  rename_i b₀ b₁ rest heq
  have hlen := congrArg List.length heq
  simp only [length_drop, length_cons] at hlen
  omega

-- The text that was read is made of labels, and the position behind the name is that behind the
-- first pointer, if there is one.
theorem labels_ok {pos : Nat} {next : Option Nat} {ls : List (List U8)}
    {s : Name} {stop : Nat} (h : labels b pos next (join DOT ls) rounds = some (s, stop))
    (hls : IsLabels ls) (hlen : (join DOT ls).length ≤ 253) :
    (∃ ls', IsLabels ls' ∧ s = join DOT ls') ∧ s.length ≤ 253 ∧
    next.elim (pos < stop ∧ stop ≤ b.length) (stop = ·) := by
  induction rounds generalizing pos next ls
  case zero => cases h
  case succ rounds ih =>
    rw [labels] at h
    have ⟨len, hget, h⟩ := Option.bind_eq_some_iff.mp h
    have ⟨hpos, _⟩ := List.getElem?_eq_some_iff.mp hget
    split at h
    case isTrue =>
      have ⟨w, hword, h⟩ := Option.bind_eq_some_iff.mp h
      have hle := word_le hword
      dsimp only at h
      split at h
      case isTrue => cases h
      have ⟨hs, hlength, hstop⟩ := ih h hls hlen
      refine ⟨hs, hlength, ?_⟩
      cases next
      case none =>
        have hstop : stop = pos + 2 := hstop
        exact ⟨by omega, by omega⟩
      case some n => exact hstop
    case isFalse =>
      split at h
      case isTrue =>
        cases h
        refine ⟨⟨ls, hls, rfl⟩, hlen, ?_⟩
        cases next
        case none   => exact ⟨Nat.lt_succ_self pos, hpos⟩
        case some n => rfl
      rename_i hne
      dsimp only at h
      rw [join_extend hls.parts] at h
      split at h
      case isTrue => cases h
      rename_i hok
      simp only [Bool.or_eq_true, decide_eq_true_eq, Bool.not_eq_true', not_or, Bool.not_eq_false,
        all_eq_true, gt_iff_lt, Nat.not_lt] at hok
      obtain ⟨⟨⟨h63, htake⟩, hhost⟩, hout⟩ := hok
      have hzero : len.toNat ≠ 0 := fun h0 => hne (BitVec.eq_of_toNat_eq h0)
      have hlabel : IsLabel ((b.drop (pos + 1)).take len.toNat) := by
        refine ⟨by omega, ?_, hhost⟩
        exact (length_take_le ..).trans h63
      have ⟨hs, hlength, hstop⟩ := ih h (hls.concat hlabel) hout
      refine ⟨hs, hlength, ?_⟩
      cases next
      case none =>
        have ⟨hlt, hle⟩ : pos + 1 + len.toNat < stop ∧ stop ≤ b.length := hstop
        exact ⟨by omega, hle⟩
      case some n => exact hstop

-- What is known about a name that was read.
structure Spelled (b : List U8) (start : Nat) (s : Name) (stop : Nat) : Prop where
  start_lt  : start < stop
  stop_le   : stop ≤ b.length
  length_le : s.length ≤ 253
  spelled   : ∃ ls, IsLabels ls ∧ s = join DOT ls

theorem name_spelled {start stop : Nat} {s : Name} (h : name b start = some (s, stop)) :
    Spelled b start s stop := by
  have hnil : join DOT [] = [] := join_nil
  rw [name, ← hnil] at h
  have ⟨hs, hlen, hlt, hle⟩ := labels_ok h (fun _ hl => absurd hl not_mem_nil) (by simp [hnil])
  exact ⟨hlt, hle, hlen, hs⟩

section Slices

-- The data of a record are a part of the message.
structure Record.Within (b : List U8) (r : Record) : Prop where
  start_le : r.start ≤ r.stop
  stop_le  : r.stop ≤ b.length

variable {b : List U8} {records : List Record}

theorem record_within {pos : Nat} {authority : Bool} {cls : U16} {r : Record}
    (h : record b pos authority = some (cls, r)) : r.Within b := by
  simp only [record, bind, Option.bind_eq_some_iff] at h
  obtain ⟨⟨owner, next⟩, _, _, _, _, _, _, _, len, _, h⟩ := h
  split at h
  case isFalse => cases h
  rename_i hle
  cases h
  exact ⟨Nat.le_add_right .., hle⟩

theorem sections_within {answers authority i pos rounds stop : Nat} {records' : List Record}
    (h : sections b answers authority i pos records rounds = some (records', stop))
    (hr : ∀ r ∈ records, r.Within b) : ∀ r ∈ records', r.Within b := by
  induction rounds generalizing i pos records
  case zero =>
    cases h
    exact hr
  case succ rounds ih =>
    rw [sections] at h
    have ⟨⟨cls, r⟩, hrecord, h⟩ := Option.bind_eq_some_iff.mp h
    refine ih h fun r' hr' => ?_
    split at hr'
    case isTrue =>
      rcases mem_append.mp hr' with hr' | hr'
      case inl => exact hr r' hr'
      case inr => exact mem_singleton.mp hr' ▸ record_within hrecord
    case isFalse => exact hr r' hr'

theorem long_eq {start : Nat} (h : start + 4 ≤ b.length) :
    long b start = some (b[start] ++ b[start + 1] ++ b[start + 2] ++ b[start + 3]) := by
  have hdrop : b.drop start =
      b[start] :: b[start + 1] :: b[start + 2] :: b[start + 3] :: b.drop (start + 4) := by
    rw [drop_eq_getElem_cons (by omega), drop_eq_getElem_cons (by omega),
      drop_eq_getElem_cons (by omega), drop_eq_getElem_cons (by omega)]
  rw [long, hdrop]

theorem Slices.sub_eq {m n : Nat} (h : n ≤ m) : sub m n = checked (some (m - n)) := by
  rw [sub, if_pos h]
  rfl

theorem Slices.index_eq {i : Nat} (h : i < b.length) : index b i = checked (some b[i]) := by
  rw [index, List.getElem?_eq_getElem h]
  rfl

-- The data of a record are read where they are.
theorem Slices.scan_eq {r : Record} (h : r.Within b) (s : Scan) :
    scan b s r = checked (Wire.scan b s r) := by
  have hstart := h.start_le
  have hstop := h.stop_le
  rw [scan, Wire.scan]
  split
  case isTrue =>
    rw [sub_eq hstart]
    show (if r.stop - r.start ≠ 4 then _ else _) = _
    split
    case isTrue => rfl
    case isFalse hlen =>
      rw [index_eq (by omega), index_eq (by omega), index_eq (by omega), index_eq (by omega),
        long_eq (by omega)]
      rfl
  case isFalse =>
    split
    case isTrue =>
      cases name b r.start
      case none => rfl
      case some o =>
        obtain ⟨target, next⟩ := o
        show (if _ then _ else _) = checked (if _ then _ else _)
        split
        case isTrue  => rfl
        case isFalse => rfl
    case isFalse => rfl

theorem Slices.follow_eq (h : ∀ r ∈ records, r.Within b)
    (question : Name) (missing : Bool) (current : Name) (seen : List Name) (ttl rounds : Nat) :
    follow b records question missing current seen ttl rounds =
      checked (Wire.follow b records question missing current seen ttl rounds) := by
  induction rounds generalizing current seen ttl
  case zero => rfl
  case succ rounds ih =>
    rw [follow, Wire.follow]
    split
    case isTrue => rfl
    rw [foldlM_checked fun r hr s => scan_eq (h r (mem_of_mem_filter hr)) s]
    generalize List.foldlM (Wire.scan b) _ _ = o
    cases o
    case none => rfl
    case some s =>
      show (if _ then _ else _) = checked (if _ then _ else _)
      split
      case isTrue =>
        split
        case isTrue  => rfl
        case isFalse => rfl
      cases s.target
      case some target => exact ih ..
      case none =>
        cases absence b records current s.ttl
        case none => rfl
        case some a =>
          rw [sub_eq (by simp)]
          show (if _ then _ else _) = checked (if _ then _ else _)
          split
          case isTrue => rfl
          split
          case isTrue  => rfl
          case isFalse => rfl

theorem contents_within {pos : Nat}
    (h : contents b pos = some records) : ∀ r ∈ records, r.Within b := by
  simp only [contents, bind, Option.bind_eq_some_iff] at h
  obtain ⟨_, _, _, _, _, _, h⟩ := h
  split at h
  case isTrue => cases h
  obtain ⟨⟨records, stop⟩, hsections, h⟩ := Option.bind_eq_some_iff.mp h
  split at h
  case isTrue => cases h
  cases h
  exact sections_within hsections fun _ hr => absurd hr not_mem_nil

-- No message makes the decoder panic.
theorem Slices.response_eq (b : List U8) (id : U16) (question : Name) (aliasBudget : Nat) :
    response b id question aliasBudget = checked (Wire.response b id question aliasBudget) := by
  rw [response, Wire.response]
  cases header b id question
  case none => rfl
  case some o =>
    obtain ⟨flags, pos⟩ := o
    have hbind (f : U16 × Nat → Decode Answer) :
        checked (some (flags, pos)) >>= f = f (flags, pos) :=
      rfl
    rw [hbind]
    simp only [Option.bind_eq_bind, Option.bind_some]
    cases serverError flags
    case some => rfl
    case none =>
      cases hcontents : contents b pos
      case none         => rfl
      case some records => exact follow_eq (contents_within hcontents) ..

end Slices

-- Labels as they are sent, each one behind its length.
def encode (ls : List (List U8)) : List U8 :=
  ls.flatMap fun label => BitVec.ofNat 8 label.length :: label

theorem length_encode {ls : List (List U8)} (h : ls ≠ []) :
    (encode ls).length = (join DOT ls).length + 1 := by
  rw [length_join h, encode, length_flatMap]
  rfl

theorem IsLabel.length_toNat (h : IsLabel label) :
    (BitVec.ofNat 8 label.length).toNat = label.length := by
  have := h.length_le
  rw [BitVec.toNat_ofNat, Nat.mod_eq_of_lt (by omega)]

theorem IsLabel.not_pointer (h : IsLabel label) : BitVec.ofNat 8 label.length &&& 0xc0 ≠ 0xc0 := by
  have hall : ∀ n : Fin 64, BitVec.ofNat 8 n &&& 0xc0 ≠ 0xc0 := by decide
  exact hall ⟨label.length, Nat.lt_succ_of_le h.length_le⟩

theorem IsLabel.not_end (h : IsLabel label) : BitVec.ofNat 8 label.length ≠ 0 := by
  intro heq
  have hzero := congrArg BitVec.toNat heq
  rw [h.length_toNat] at hzero
  exact absurd hzero (Nat.ne_of_gt h.pos)

-- The round of a label.
theorem labels_cons {front rest out out' : List U8} (h : IsLabel label)
    (hout : (if out.isEmpty then out else out ++ [DOT]) ++ label = out')
    (hlen : out'.length ≤ 253) :
    labels (front ++ BitVec.ofNat 8 label.length :: label ++ rest)
      front.length none out (rounds + 1) =
      labels (front ++ BitVec.ofNat 8 label.length :: label ++ rest)
        (front ++ BitVec.ofNat 8 label.length :: label).length none out' rounds := by
  have hget : (front ++ BitVec.ofNat 8 label.length :: label ++ rest)[front.length]? =
      some (BitVec.ofNat 8 label.length) := by
    rw [append_assoc, List.getElem?_append_right le_rfl, Nat.sub_self]
    rfl
  have htake : ((front ++ BitVec.ofNat 8 label.length :: label ++ rest).drop
      (front.length + 1)).take label.length = label := by
    rw [append_assoc, drop_append, drop_eq_nil_of_le (Nat.le_succ _), nil_append,
      Nat.add_sub_cancel_left, cons_append, drop_succ_cons, drop_zero, take_left]
  have hpos : front.length + 1 + label.length =
      (front ++ BitVec.ofNat 8 label.length :: label).length := by
    rw [length_append, length_cons]
    omega
  rw [labels, hget]
  simp only [Option.bind_eq_bind, Option.bind_some]
  rw [if_neg h.not_pointer, if_neg h.not_end, h.length_toNat, htake, hout, hpos, if_neg]
  have hhost : label.all isHostByte = true := all_eq_true.mpr h.host
  have := h.length_le
  simp only [hhost, Bool.or_eq_true, decide_eq_true_eq, Bool.not_true, Bool.false_eq_true,
    or_false]
  omega

-- The labels up to the cursor have been read.
theorem labels_encode (front rest : List U8) (done : List (List U8)) {ls : List (List U8)}
    (h : IsLabels (done ++ ls)) (hlen : (join DOT (done ++ ls)).length ≤ 253)
    (hrounds : ls.length < rounds) :
    labels (front ++ encode ls ++ 0 :: rest) front.length none (join DOT done) rounds =
      some (join DOT (done ++ ls), (front ++ encode ls).length + 1) := by
  induction ls generalizing done front rounds
  case nil =>
    obtain ⟨rounds, rfl⟩ := Nat.exists_eq_add_of_lt hrounds
    have hget : (front ++ encode [] ++ 0 :: rest)[front.length]? = some 0 := by
      rw [encode, flatMap_nil, append_nil, List.getElem?_append_right le_rfl, Nat.sub_self]
      rfl
    rw [length_nil, Nat.zero_add, labels, hget, append_nil]
    simp only [encode, flatMap_nil, append_nil]
    rfl
  case cons label ls ih =>
    obtain ⟨rounds, rfl⟩ := Nat.exists_eq_add_of_lt hrounds
    have hassoc : done ++ label :: ls = done ++ [label] ++ ls := by
      rw [append_assoc, singleton_append]
    have hdone : IsLabels done := fun l hl => h l (mem_append_left _ hl)
    have hlabel : IsLabel label := h label (mem_append_right _ mem_cons_self)
    have hbytes : front ++ encode (label :: ls) =
        front ++ BitVec.ofNat 8 label.length :: label ++ encode ls := by
      rw [encode, flatMap_cons, append_assoc, ← encode]
    rw [hassoc] at h hlen ⊢
    rw [hbytes, append_assoc _ _ (0 :: rest),
      labels_cons hlabel (join_extend hdone.parts) ((length_join_le _ ls).trans hlen),
      ← append_assoc]
    refine ih _ _ h hlen ?_
    rw [length_cons]
    omega

-- A name in the form in which it is asked for.
structure Normal (n : Name) (ls : List (List U8)) : Prop where
  ne_nil    : ls ≠ []
  labels    : IsLabels ls
  spelled   : n = join DOT ls
  length_le : n.length ≤ 253
  lower     : lower n = n

theorem lower_host : ∀ c : U8, isHostByte c →
    isHostByte (if 0x41 ≤ c && c ≤ 0x5a then c + 0x20 else c) := by
  decide +kernel

theorem lower_lower (n : Name) : lower (lower n) = lower n := by
  have hbyte : ∀ c : U8,
      (if 0x41 ≤ (if 0x41 ≤ c && c ≤ 0x5a then c + 0x20 else c) &&
          (if 0x41 ≤ c && c ≤ 0x5a then c + 0x20 else c) ≤ 0x5a then
        (if 0x41 ≤ c && c ≤ 0x5a then c + 0x20 else c) + 0x20
      else
        (if 0x41 ≤ c && c ≤ 0x5a then c + 0x20 else c)) =
      if 0x41 ≤ c && c ≤ 0x5a then c + 0x20 else c := by
    decide +kernel
  rw [lower, lower, map_map]
  exact map_congr_left fun c _ => hbyte c

theorem IsLabel.lower (h : IsLabel label) : IsLabel (lower label) where
  pos       := (length_map ..).symm ▸ h.pos
  length_le := (length_map ..).symm ▸ h.length_le
  host c hc := by
    obtain ⟨c', hc', rfl⟩ := mem_map.mp hc
    exact lower_host c' (h.host c' hc')

-- What `normalize` accepts.
theorem isLabels_of_any {name : Name}
    (h : ¬((name.splitOn DOT).any fun label =>
      label.isEmpty || label.length > 63 || !label.all isHostByte) = true) :
    IsLabels (name.splitOn DOT) := by
  intro label hl
  rw [List.any_eq_true] at h
  have hok : ¬(label.isEmpty || decide (label.length > 63) || !label.all isHostByte) = true :=
    fun hbad => h ⟨label, hl, hbad⟩
  simp only [Bool.or_eq_true, List.isEmpty_iff, decide_eq_true_eq, Bool.not_eq_true', not_or,
    Bool.not_eq_false, List.all_eq_true, gt_iff_lt, Nat.not_lt] at hok
  exact ⟨List.length_pos_of_ne_nil hok.left.left, hok.left.right, hok.right⟩

theorem normalize_normal {input n : List U8} (h : normalize input = .ok n) : ∃ ls, Normal n ls := by
  rw [normalize] at h
  revert h
  generalize (if input.getLast? = some DOT then input.dropLast else input) = name
  intro h
  split at h
  case isTrue => cases h
  rename_i hok
  cases h
  simp only [Bool.or_eq_true, not_or, decide_eq_true_eq, gt_iff_lt, Nat.not_lt] at hok
  obtain ⟨⟨hne, hlen⟩, hany⟩ := hok
  have hls := isLabels_of_any (by simpa using hany)
  have hjoin : join DOT (name.splitOn DOT) = name := intercalate_splitOn DOT
  refine ⟨(name.splitOn DOT).map lower, ?_, ?_, ?_, ?_, lower_lower name⟩
  case refine_1 => simp
  case refine_2 =>
    intro label hl
    obtain ⟨label', hl', rfl⟩ := mem_map.mp hl
    exact (hls label' hl').lower
  case refine_3 =>
    conv_lhs => rw [← hjoin]
    exact map_join ..
  case refine_4 =>
    rw [lower, length_map]
    exact hlen

namespace Normal

variable {n : Name} {ls : List (List U8)} (h : Normal n ls)
include h

theorem splitOn_eq : n.splitOn DOT = ls := by
  rw [h.spelled]
  exact h.labels.parts.splitOn_join h.ne_nil

theorem normalize_eq : normalize n = .ok n := by
  have hdot : n.getLast? ≠ some DOT := h.spelled ▸ h.labels.parts.getLast?_join
  have hlen := h.length_le
  have hne : n ≠ [] := by
    intro hnil
    have hsplit := h.splitOn_eq
    rw [hnil, List.splitOn_nil] at hsplit
    exact h.labels.parts.ne_nil [] (hsplit ▸ List.mem_singleton.mpr rfl) rfl
  rw [normalize, if_neg hdot, h.splitOn_eq, h.lower, if_neg]
  simp only [Bool.or_eq_true, List.isEmpty_iff, decide_eq_true_eq, List.any_eq_true,
    Bool.not_eq_true', not_or, not_exists, not_and, Bool.not_eq_false, List.all_eq_true]
  refine ⟨⟨hne, by omega⟩, fun label hl => ?_⟩
  have hlabel := h.labels label hl
  exact ⟨⟨List.length_pos_iff.mp hlabel.pos, by have := hlabel.length_le; omega⟩, hlabel.host⟩

theorem query_eq (id : U16) :
    query id n = be16 id ++ [1, 0, 0, 1, 0, 0, 0, 0, 0, 0] ++ encode ls ++ [0, 0, 1, 0, 1] := by
  rw [query, h.splitOn_eq, encode]

-- There are at most 127 labels, and one round is left for the end of the name.
theorem length_lt : ls.length < 128 := by
  have htwo := h.labels.parts.two_mul_length_le
  have hlen := h.length_le
  rw [h.spelled] at hlen
  omega

theorem name_query (id : U16) : name (query id n) 12 = some (n, (query id n).length - 4) := by
  have hlen := h.length_le
  rw [h.spelled] at hlen
  have hread :=
    labels_encode (be16 id ++ [1, 0, 0, 1, 0, 0, 0, 0, 0, 0]) [0, 1, 0, 1] [] h.labels hlen
    h.length_lt
  rw [join_nil] at hread
  rw [name, h.query_eq, h.spelled]
  refine hread.trans ?_
  rw [nil_append]
  simp only [length_append, length_cons, length_nil]
  rfl

end Normal

-- Names are read within the message whatever it is, and one text stands for one sequence of labels.
-- What is asked for can be read back, up to the longest names.
theorem names_unambiguous :
    (∀ b start s stop, name b start = some (s, stop) → Spelled b start s stop) ∧
    (∀ ls₁ ls₂, IsLabels ls₁ → IsLabels ls₂ → join DOT ls₁ = join DOT ls₂ → ls₁ = ls₂) ∧
    (∀ b id question aliasBudget, (Slices.response b id question aliasBudget).run =
      some (response b id question aliasBudget)) ∧
    ∀ input n, normalize input = .ok n →
      normalize n = .ok n ∧
      ∀ id, name (query id n) 12 = some (n, (query id n).length - 4) ∧
        ∃ ls, IsLabels ls ∧ n = join DOT ls ∧ (encode ls).length + 1 ≤ 255 ∧
          query id n = be16 id ++ [1, 0, 0, 1, 0, 0, 0, 0, 0, 0] ++ encode ls ++
            [0, 0, 1, 0, 1] := by
  refine ⟨fun b start s stop => name_spelled, fun ls₁ ls₂ h₁ h₂ => h₁.parts.join_inj h₂.parts,
    fun b id question aliasBudget => ?_, fun input n h => ?_⟩
  case refine_1 =>
    rw [Slices.response_eq]
    rfl
  case refine_2 =>
    have ⟨ls, hn⟩ := normalize_normal h
    refine ⟨hn.normalize_eq,
      fun id => ⟨hn.name_query id, ls, hn.labels, hn.spelled, ?_, hn.query_eq id⟩⟩
    have hlen := hn.length_le
    rw [length_encode hn.ne_nil, ← hn.spelled]
    omega

-- The most labels that a name can have.
def longest : Name :=
  join DOT (List.replicate 127 [0x61])

theorem names_unambiguous_longest : longest.length = 253 ∧ normalize longest = .ok longest ∧
    name (query 0 longest) 12 = some (longest, (query 0 longest).length - 4) := by
  have h : normalize longest = .ok longest := by decide +kernel
  exact ⟨by decide +kernel, h,
    (names_unambiguous.right.right.right longest longest h).right 0 |>.left⟩

end Dns.Wire
