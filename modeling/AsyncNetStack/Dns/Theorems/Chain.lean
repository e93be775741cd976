import AsyncNetStack.Dns.Chain
import AsyncNetStack.Dns.Theorems.Names
import AsyncNetStack.Lib.Slice
import AsyncNetStack.Net.Theorems.Checksum

open Fallible List

namespace Dns.Wire

variable {b : List U8} {records : List Record} {s s₁ s₂ : Scan}

-- What a record says about its owner.
inductive Finding
  | host (ip : Ipv4Addr)
  | link (target : Name)
  | other

def finding (b : List U8) (r : Record) : Option Finding :=
  if r.kind = 1 then
    if r.stop - r.start ≠ 4 then
      none
    else
      (long b r.start).map .host
  else if r.kind = 5 then
    (name b r.start).bind fun (target, next) =>
      if next ≠ r.stop || target.isEmpty then none else some (.link (lower target))
  else
    some .other

def Scan.note (s : Scan) (r : Record) : Finding → Option Scan
  | .host ip     =>
    some { s.count r with
      addresses := if s.addresses.contains ip then s.addresses else s.addresses ++ [ip] }
  | .link target =>
    if s.target.any (· ≠ target) then none else some { s.count r with target := some target }
  | .other       => some s

-- A scan looks at each record alone, and then at what was found so far.
theorem scan_eq (b : List U8) (s : Scan) (r : Record) :
    scan b s r = (finding b r).bind (s.note r) := by
  rw [scan, finding]
  split
  case isTrue =>
    split
    case isTrue => rfl
    cases long b r.start
    case none    => rfl
    case some ip => rfl
  split
  case isTrue =>
    cases name b r.start
    case none => rfl
    case some o =>
      obtain ⟨target, next⟩ := o
      rw [Option.bind_some, Option.bind_some]
      dsimp only
      by_cases hbad : (decide (next ≠ r.stop) || target.isEmpty) = true
      case pos =>
        rw [if_pos (by rw [hbad, Bool.true_or]), if_pos hbad]
        rfl
      case neg =>
        rw [Bool.not_eq_true] at hbad
        simp only [hbad, Bool.false_or, Bool.false_eq_true, if_false]
        rfl
  case isFalse => rfl

section Order

-- Scans that have found the same.
structure Scan.Agrees (s₁ s₂ : Scan) : Prop where
  addresses : ∀ ip, ip ∈ s₁.addresses ↔ ip ∈ s₂.addresses
  target    : s₁.target = s₂.target
  ttl       : s₁.ttl = s₂.ttl

namespace Scan.Agrees

theorem refl (s : Scan) : Agrees s s :=
  ⟨fun _ => Iff.rfl, rfl, rfl⟩

theorem trans {s₁ s₂ s₃ : Scan} (h₁ : Agrees s₁ s₂) (h₂ : Agrees s₂ s₃) : Agrees s₁ s₃ where
  addresses ip := (h₁.addresses ip).trans (h₂.addresses ip)
  target       := h₁.target.trans h₂.target
  ttl          := h₁.ttl.trans h₂.ttl

theorem isEmpty_eq (h : Agrees s₁ s₂) : s₁.addresses.isEmpty = s₂.addresses.isEmpty := by
  rw [Bool.eq_iff_iff, List.isEmpty_iff, List.isEmpty_iff, List.eq_nil_iff_forall_not_mem,
    List.eq_nil_iff_forall_not_mem]
  exact forall_congr' fun ip => not_congr (h.addresses ip)

end Scan.Agrees

-- The addresses are a set, apart from their order.
theorem mem_addresses {addresses : List Ipv4Addr} {ip ip' : Ipv4Addr} :
    ip' ∈ (if addresses.contains ip then addresses else addresses ++ [ip]) ↔
      ip' ∈ addresses ∨ ip' = ip := by
  split
  case isTrue h =>
    refine ⟨.inl, ?_⟩
    rintro (hmem | rfl)
    case inl => exact hmem
    case inr => exact contains_iff_mem.mp h
  case isFalse => rw [mem_append, mem_singleton]

theorem Scan.Agrees.note (h : Agrees s₁ s₂) (r : Record) (f : Finding) :
    Option.Rel Agrees (s₁.note r f) (s₂.note r f) := by
  have httl : min s₁.ttl r.ttl = min s₂.ttl r.ttl := by rw [h.ttl]
  cases f
  case host ip =>
    refine .some ⟨fun ip' => ?_, h.target, httl⟩
    rw [mem_addresses, mem_addresses, h.addresses]
  case link target =>
    rw [Scan.note, Scan.note, h.target]
    split
    case isTrue  => exact .none
    case isFalse => exact .some ⟨h.addresses, rfl, httl⟩
  case other => exact .some h

theorem note_swap (s : Scan) (r₁ r₂ : Record) (f₁ f₂ : Finding) :
    Option.Rel Scan.Agrees ((s.note r₁ f₁).bind (Scan.note · r₂ f₂))
      ((s.note r₂ f₂).bind (Scan.note · r₁ f₁)) := by
  have httl : min (min s.ttl r₁.ttl) r₂.ttl = min (min s.ttl r₂.ttl) r₁.ttl := min_right_comm ..
  cases f₁
  case host ip₁ =>
    cases f₂
    case host ip₂ =>
      refine .some ⟨fun ip => ?_, rfl, httl⟩
      rw [mem_addresses, mem_addresses, mem_addresses, mem_addresses, or_right_comm]
    case link target =>
      simp only [Scan.note, Option.bind_some, Scan.count]
      split
      case isTrue  => exact .none
      case isFalse => exact .some ⟨fun _ => Iff.rfl, rfl, httl⟩
    case other => exact .some (.refl _)
  case link target₁ =>
    cases f₂
    case host ip₂ =>
      simp only [Scan.note, Option.bind_some, Scan.count]
      split
      case isTrue  => exact .none
      case isFalse => exact .some ⟨fun _ => Iff.rfl, rfl, httl⟩
    case link target₂ =>
      -- Either both targets are the one that is known, if there is one, or the records contradict.
      by_cases heq : target₁ = target₂
      case pos =>
        subst heq
        simp only [Scan.note, Scan.count]
        split
        case isTrue => exact .none
        simp only [Option.bind_some, Option.any_some, ne_eq, not_true, decide_false]
        exact .some ⟨fun _ => Iff.rfl, rfl, httl⟩
      case neg =>
        have hnone (r r' : Record) {t t' : Name} (hne : t ≠ t') :
            (s.note r (.link t)).bind (Scan.note · r' (.link t')) = none := by
          rw [Scan.note]
          split
          case isTrue  => rfl
          case isFalse => simp [Scan.note, hne]
        rw [hnone r₁ r₂ heq, hnone r₂ r₁ (Ne.symm heq)]
        exact .none
    case other =>
      simp only [Scan.note, Option.bind_some]
      split
      case isTrue  => exact .none
      case isFalse => exact .some (.refl _)
  case other =>
    cases f₂
    case host => exact .some (.refl _)
    case link =>
      simp only [Scan.note, Option.bind_some]
      split
      case isTrue  => exact .none
      case isFalse => exact .some (.refl _)
    case other => exact .some (.refl _)

theorem scan_swap (b : List U8) (s : Scan) (r₁ r₂ : Record) :
    Option.Rel Scan.Agrees ((scan b s r₁).bind (scan b · r₂))
    ((scan b s r₂).bind (scan b · r₁)) := by
  simp only [scan_eq]
  cases finding b r₁
  case none => simp only [Option.bind_none, Option.bind_fun_none]; exact .none
  case some f₁ =>
    cases finding b r₂
    case none    => simp only [Option.bind_none, Option.bind_fun_none]; exact .none
    case some f₂ => exact note_swap s r₁ r₂ f₁ f₂

theorem foldlM_scan_perm {rs₁ rs₂ : List Record} (h : rs₁.Perm rs₂) (hs : s₁.Agrees s₂) :
    Option.Rel Scan.Agrees (rs₁.foldlM (scan b) s₁) (rs₂.foldlM (scan b) s₂) := by
  refine foldlM_perm .refl .trans (fun s t r hst => ?_) (scan_swap b) h hs
  rw [scan_eq, scan_eq]
  cases finding b r
  case none   => exact .none
  case some f => exact hst.note r f

-- What the authorities of a zone say about the lifetime of an absence.
def vouched (b : List U8) (ttl : Nat) (r : Record) : Option Nat :=
  (name b r.start).bind fun (_, next) => (name b next).bind fun (_, next) =>
    if next + 20 ≠ r.stop then
      none
    else
      (long b (next + 16)).map fun minimum => min (min r.ttl minimum.toNat) ttl

theorem authority_eq (b : List U8) (ttl : Nat) (least : Option Nat) (r : Record) :
    authority b ttl least r = (vouched b ttl r).map fun value =>
      some (least.elim value (min · value)) := by
  rw [authority, vouched]
  cases name b r.start
  case none => rfl
  case some o =>
    obtain ⟨_, next⟩ := o
    simp only [Option.bind_eq_bind, Option.bind_some]
    cases name b next
    case none => rfl
    case some o =>
      obtain ⟨_, next⟩ := o
      simp only [Option.bind_some]
      split
      case isTrue => rfl
      cases long b (next + 16)
      case none   => rfl
      case some m => rfl

theorem absence_perm {records₁ records₂ : List Record} (h : records₁.Perm records₂) (b : List U8)
    (current : Name) (ttl : Nat) :
    Option.Rel Eq (absence b records₁ current ttl) (absence b records₂ current ttl) := by
  refine foldlM_perm (fun _ => rfl) Eq.trans (fun a₁ a₂ r ha => ?_) (fun a r₁ r₂ => ?_) (h.filter _)
    rfl
  case refine_1 =>
    rw [authority_eq, authority_eq]
    cases vouched b ttl r
    case none       => exact .none
    case some value => exact .some (by rw [ha])
  case refine_2 =>
    simp only [authority_eq]
    cases vouched b ttl r₁
    case none => simp only [Option.map_none, Option.bind_none, Option.bind_fun_none]; exact .none
    case some value₁ =>
      cases vouched b ttl r₂
      case none => simp only [Option.map_none, Option.bind_none, Option.bind_fun_none]; exact .none
      case some value₂ =>
        refine .some ?_
        cases a
        case none     => exact congrArg some (min_comm ..)
        case some old => exact congrArg some (min_right_comm ..)

-- The chain of aliases is the same, and so is what is found at its end.
theorem follow_perm {records₁ records₂ : List Record} (h : records₁.Perm records₂) (b : List U8)
    (question : Name) (missing : Bool) (current : Name) (seen : List Name) (ttl rounds : Nat) :
    Option.Rel Answer.Agrees (follow b records₁ question missing current seen ttl rounds)
      (follow b records₂ question missing current seen ttl rounds) := by
  induction rounds generalizing current seen ttl
  case zero => exact .some .failure
  case succ rounds ih =>
    rw [follow, follow]
    split
    case isTrue => exact .some .failure
    have hfilter := h.filter fun r => !r.authority && decide (r.owner = current)
    refine rel_bind (foldlM_scan_perm hfilter (.refl _)) fun s₁ s₂ hs => ?_
    rw [hs.isEmpty_eq, hs.target]
    split
    case isTrue =>
      split
      case isTrue => exact .none
      rw [hs.ttl]
      exact .some (.addresses hs.addresses)
    cases s₂.target
    case some target =>
      rw [hs.ttl]
      exact ih ..
    case none =>
      rw [hs.ttl]
      refine rel_bind (absence_perm h b current s₂.ttl) fun a₁ a₂ ha => ?_
      rw [ha]
      split
      case isTrue => exact .some .negative
      split
      case isTrue  => exact .some .aliased
      case isFalse => exact .some .negative

end Order

section Sections

-- A record that was found in a message.
def Record.Read (b : List U8) (r : Record) : Prop :=
  ∃ pos authority cls, record b pos authority = some (cls, r)

theorem Record.Read.within {r : Record} (h : r.Read b) : r.Within b :=
  have ⟨_, _, _, h⟩ := h
  record_within h

theorem record_ok {pos : Nat} {authority : Bool} {cls : U16} {r : Record}
    (h : record b pos authority = some (cls, r)) :
    r.authority = authority ∧ r.ttl ≤ 2 ^ 32 - 1 := by
  simp only [record, bind, Option.bind_eq_some_iff] at h
  obtain ⟨⟨owner, next⟩, _, _, _, _, _, ttl, _, _, _, h⟩ := h
  split at h
  case isFalse => cases h
  cases h
  refine ⟨rfl, ?_⟩
  split
  case isTrue  => exact Nat.zero_le _
  case isFalse => exact Nat.le_pred_of_lt ttl.isLt

theorem Record.Read.ttl_le {r : Record} (h : r.Read b) : r.ttl ≤ 2 ^ 32 - 1 :=
  have ⟨_, _, _, h⟩ := h
  (record_ok h).right

theorem entries_read {pos n : Nat} {e : U16 × Record} (h : e ∈ entries b pos n) : e.snd.Read b := by
  induction n generalizing pos
  case zero => cases h
  case succ n ih =>
    rw [entries] at h
    split at h
    case h_1 => cases h
    rename_i cls r heq
    rcases mem_cons.mp h with rfl | h
    case inl => exact ⟨pos, false, cls, heq⟩
    case inr => exact ih h

theorem answerSection_read {r : Record} (h : r ∈ answerSection b) : r.Read b := by
  rw [answerSection] at h
  split at h
  case h_2 => cases h
  have ⟨e, he, heq⟩ := mem_map.mp h
  exact heq ▸ entries_read (mem_of_mem_filter he)

-- What is not marked as authority is the answer section.
theorem sections_answers {answers authority i pos rounds stop : Nat} {records' : List Record}
    (h : sections b answers authority i pos records rounds = some (records', stop))
    (hrounds : answers - i ≤ rounds) :
    records'.filter (!·.authority) = records.filter (!·.authority) ++
      ((entries b pos (answers - i)).filter (·.fst = 1)).map Prod.snd := by
  induction rounds generalizing i pos records
  case zero =>
    rw [Nat.le_zero.mp hrounds]
    cases h
    rw [entries, filter_nil, map_nil, append_nil]
  case succ rounds ih =>
    rw [sections] at h
    obtain ⟨⟨cls, r⟩, hrecord, h⟩ := Option.bind_eq_some_iff.mp h
    have hauth := (record_ok hrecord).left
    rw [ih h (by omega)]
    by_cases hi : answers ≤ i
    case pos =>
      rw [Nat.sub_eq_zero_of_le hi, Nat.sub_eq_zero_of_le (hi.trans (Nat.le_succ i)), entries,
        entries]
      congr 1
      split
      case isTrue =>
        rw [filter_append, filter_singleton, hauth, decide_eq_true hi]
        exact append_nil _
      case isFalse => rfl
    case neg =>
      rw [decide_eq_false hi] at hrecord hauth
      have hsub : answers - i = answers - (i + 1) + 1 := by omega
      rw [hsub, entries, hrecord]
      by_cases hcls : cls = 1
      case pos =>
        have hkept : (decide (cls = 1) && decide (i < answers + authority)) = true := by
          rw [decide_eq_true hcls, Bool.true_and]
          exact decide_eq_true (by omega)
        rw [if_pos hkept, filter_append, filter_singleton, hauth,
          filter_cons, if_pos (decide_eq_true hcls), append_assoc]
        rfl
      case neg =>
        rw [decide_eq_false hcls, Bool.false_and, if_neg Bool.false_ne_true,
          filter_cons, if_neg (by rw [decide_eq_false hcls]; exact Bool.false_ne_true)]

end Sections

section Findings

variable {r : Record} {current : Name}

theorem finding_host {ip : Ipv4Addr} (h : finding b r = some (.host ip)) :
    r.kind = kindA ∧ r.stop - r.start = 4 ∧ long b r.start = some ip := by
  rw [finding] at h
  split at h
  case isTrue hkind =>
    split at h
    case isTrue => cases h
    rename_i hlen
    have ⟨ip', hlong, heq⟩ := Option.map_eq_some_iff.mp h
    cases heq
    exact ⟨hkind, not_not.mp hlen, hlong⟩
  case isFalse =>
    split at h
    case isFalse => cases h
    have ⟨⟨target, next⟩, _, h⟩ := Option.bind_eq_some_iff.mp h
    dsimp only at h
    split at h
    case isTrue  => cases h
    case isFalse => cases h

theorem finding_link {target : Name} (h : finding b r = some (.link target)) :
    r.kind = kindCname ∧ aliased b r = some target := by
  rw [finding] at h
  split at h
  case isTrue =>
    split at h
    case isTrue => cases h
    have ⟨_, _, heq⟩ := Option.map_eq_some_iff.mp h
    cases heq
  split at h
  case isFalse => cases h
  rename_i hkind
  have ⟨⟨text, next⟩, hname, h⟩ := Option.bind_eq_some_iff.mp h
  dsimp only at h
  split at h
  case isTrue => cases h
  rename_i hok
  cases h
  simp only [Bool.or_eq_true, decide_eq_true_eq, not_or, not_not] at hok
  refine ⟨hkind, ?_⟩
  rw [aliased, hname, Option.bind_some]
  exact if_pos hok.left

-- What is found in a record depends on its kind.
theorem finding_cases {f : Finding} (h : finding b r = some f) :
    (r.kind = kindA ∧ ∃ ip, f = .host ip) ∨ (r.kind = kindCname ∧ ∃ target, f = .link target) ∨
      (r.kind ≠ kindA ∧ r.kind ≠ kindCname ∧ f = .other) := by
  cases f
  case host ip     => exact .inl ⟨(finding_host h).left, ip, rfl⟩
  case link target => exact .inr (.inl ⟨(finding_link h).left, target, rfl⟩)
  case other =>
    refine .inr (.inr ⟨?_, ?_, rfl⟩)
    all_goals
      intro hkind
      rw [finding, hkind] at h
    case refine_1 =>
      rw [if_pos (show kindA = 1 from rfl)] at h
      split at h
      case isTrue => cases h
      have ⟨_, _, heq⟩ := Option.map_eq_some_iff.mp h
      cases heq
    case refine_2 =>
      rw [if_neg (by decide), if_pos (show kindCname = 5 from rfl)] at h
      have ⟨⟨text, next⟩, _, h⟩ := Option.bind_eq_some_iff.mp h
      dsimp only at h
      split at h
      case isTrue  => cases h
      case isFalse => cases h

theorem rdata_host {ip : Ipv4Addr} (hr : r.Within b) (h : finding b r = some (.host ip)) :
    rdata b r = be32 ip := by
  have ⟨_, hlen, hlong⟩ := finding_host h
  have hstop := hr.stop_le
  have hr4 : r.stop = r.start + 4 := by omega
  rw [long_eq (by omega), Option.some.injEq] at hlong
  rw [← hlong, be32_append, rdata, hr4, Slice.drop_take_eq_cons (by omega) (by omega),
    Slice.drop_take_eq_cons (by omega) (by omega), Slice.drop_take_eq_cons (by omega) (by omega),
    Slice.drop_take_eq_cons (by omega) (by omega), drop_eq_nil_of_le]
  rw [length_take]
  omega

-- The kinds of records that addresses rest on.
def isBasis (r : Record) : Bool :=
  r.kind = kindA || r.kind = kindCname

-- What a scan has found in the records so far.
structure Scanned (b : List U8) (ttl : Nat) (done : List Record) (s : Scan) : Prop where
  found     : ∀ r ∈ done, (finding b r).isSome
  nodup     : s.addresses.Nodup
  addresses : ∀ ip, ip ∈ s.addresses ↔ ∃ r ∈ done, finding b r = some (.host ip)
  target    : ∀ target, s.target = some target ↔ ∃ r ∈ done, finding b r = some (.link target)
  ttl       : s.ttl = ((done.filter isBasis).map (·.ttl)).foldl min ttl

theorem exists_mem_concat {done : List Record} {p : Record → Prop} :
    (∃ r' ∈ done ++ [r], p r') ↔ (∃ r' ∈ done, p r') ∨ p r := by
  simp only [mem_append, mem_singleton, or_and_right, exists_or, exists_eq_left]

theorem Scanned.step {ttl : Nat} {done : List Record} (h : Scanned b ttl done s₁)
    (hs : scan b s₁ r = some s₂) : Scanned b ttl (done ++ [r]) s₂ := by
  rw [scan_eq] at hs
  have ⟨f, hf, hnote⟩ := Option.bind_eq_some_iff.mp hs
  have hfound : ∀ r' ∈ done ++ [r], (finding b r').isSome := by
    intro r' hr'
    rcases mem_append.mp hr' with hr' | hr'
    case inl => exact h.found r' hr'
    rw [mem_singleton.mp hr', hf]
    rfl
  have hcount (hkind : isBasis r = true) :
      (s₁.count r).ttl = (((done ++ [r]).filter isBasis).map (·.ttl)).foldl min ttl := by
    rw [filter_append, filter_cons_of_pos hkind, filter_nil, map_append, foldl_append, ← h.ttl]
    rfl
  rcases finding_cases hf with ⟨hkind, ip, rfl⟩ | ⟨hkind, target, rfl⟩ | ⟨hA, hC, rfl⟩
  case inl =>
    cases hnote
    have httl := hcount (by rw [isBasis, decide_eq_true hkind, Bool.true_or])
    refine ⟨hfound, ?_, fun ip' => ?_, fun target => ?_, httl⟩
    case refine_1 =>
      split
      case isTrue => exact h.nodup
      case isFalse hnew =>
        rw [contains_iff_mem] at hnew
        rw [← concat_eq_append]
        exact h.nodup.concat hnew
    case refine_2 =>
      rw [mem_addresses, exists_mem_concat, h.addresses, hf, Option.some.injEq, Finding.host.injEq]
      rw [eq_comm (a := ip)]
    case refine_3 =>
      rw [exists_mem_concat, hf]
      refine (h.target target).trans ⟨.inl, ?_⟩
      rintro (hold | hnew)
      case inl => exact hold
      case inr => cases hnew
  case inr.inl =>
    rw [Scan.note] at hnote
    split at hnote
    case isTrue => cases hnote
    rename_i hsame
    cases hnote
    have httl := hcount (by rw [isBasis, decide_eq_true hkind, Bool.or_true])
    have hold {t : Name} (ht : s₁.target = some t) : t = target := by
      rw [ht, Option.any_some] at hsame
      simpa using hsame
    refine ⟨hfound, h.nodup, fun ip => ?_, fun t => ?_, httl⟩
    case refine_1 =>
      rw [exists_mem_concat, hf]
      refine (h.addresses ip).trans ⟨.inl, ?_⟩
      rintro (hold | hnew)
      case inl => exact hold
      case inr => cases hnew
    case refine_2 =>
      rw [exists_mem_concat, hf, Option.some.injEq, Option.some.injEq, Finding.link.injEq]
      refine ⟨.inr, ?_⟩
      rintro (hdone | hnew)
      case inl => exact (hold ((h.target t).mpr hdone)).symm
      case inr => exact hnew
  case inr.inr =>
    cases hnote
    have hskip : (done ++ [r]).filter isBasis = done.filter isBasis := by
      rw [filter_append, filter_cons_of_neg (by simp [isBasis, hA, hC]), filter_nil,
        append_nil]
    refine ⟨hfound, h.nodup, fun ip => ?_, fun t => ?_, hskip ▸ h.ttl⟩
    all_goals rw [exists_mem_concat, hf]
    case refine_1 =>
      refine (h.addresses ip).trans ⟨.inl, ?_⟩
      rintro (hold | hnew)
      case inl => exact hold
      case inr => cases hnew
    case refine_2 =>
      refine (h.target t).trans ⟨.inl, ?_⟩
      rintro (hold | hnew)
      case inl => exact hold
      case inr => cases hnew

theorem scanned_of {ttl : Nat} {answers : List Record}
    (hanswers : records.filter (!·.authority) = answers)
    (h : scanned b records current ttl = some s) :
    Scanned b ttl (answers.filter (·.owner = current)) s := by
  have hfilter : (records.filter fun r => !r.authority && decide (r.owner = current)) =
      answers.filter (·.owner = current) := by
    rw [← hanswers, filter_filter]
    exact filter_congr fun r _ => Bool.and_comm ..
  rw [scanned, hfilter] at h
  refine foldlM_history h ?_ fun done s₁ r s₂ hs hd => hd.step hs
  exact ⟨nofun, .nil, fun ip => ⟨nofun, nofun⟩, fun t => ⟨nofun, nofun⟩, rfl⟩

end Findings

section Walks

variable {answers : List Record} {question current canonical : Name} {seen : List Name}
  {ttl aliasBudget : Nat}

theorem mem_owned {r : Record} {owner : Name} {kind : U16} :
    r ∈ owned answers owner kind ↔ r ∈ answers.filter (·.owner = owner) ∧ r.kind = kind := by
  rw [owned, mem_filter, mem_filter, Bool.and_eq_true, decide_eq_true_eq, decide_eq_true_eq,
    and_assoc]

-- A name has only records of one kind that count.
theorem filter_isBasis (kind : U16) {kind' : U16} (h : owned answers current kind' = [])
    (hkind : ∀ r, isBasis r = (decide (r.kind = kind) || decide (r.kind = kind'))) :
    (answers.filter (·.owner = current)).filter isBasis = owned answers current kind := by
  rw [owned, filter_filter]
  refine filter_congr fun r hr => ?_
  rw [hkind, Bool.and_comm]
  by_cases howner : r.owner = current
  case neg => rw [decide_eq_false howner, Bool.false_and, Bool.false_and]
  case pos =>
    have hne : r.kind ≠ kind' := by
      intro heq
      have hmem : r ∈ owned answers current kind' :=
        mem_owned.mpr ⟨mem_filter.mpr ⟨hr, decide_eq_true howner⟩, heq⟩
      rw [h] at hmem
      cases hmem
    rw [decide_eq_false hne, Bool.or_false]

theorem Scanned.host {r : Record} (h : Scanned b ttl (answers.filter (·.owner = current)) s)
    (hr : r ∈ owned answers current kindA) :
    ∃ ip ∈ s.addresses, finding b r = some (.host ip) := by
  have ⟨hmem, hkind⟩ := mem_owned.mp hr
  have ⟨f, hf⟩ := Option.isSome_iff_exists.mp (h.found r hmem)
  rcases finding_cases hf with ⟨_, ip, rfl⟩ | ⟨hcname, _⟩ | ⟨hne, _⟩
  case inl     => exact ⟨ip, (h.addresses ip).mpr ⟨r, hmem, hf⟩, hf⟩
  case inr.inl => exact absurd (hkind.symm.trans hcname) (by decide)
  case inr.inr => exact absurd hkind hne

theorem Scanned.alias_target {r : Record} (h : Scanned b ttl (answers.filter (·.owner = current)) s)
    (hr : r ∈ owned answers current kindCname) : ∃ target, s.target = some target ∧
      aliased b r = some target := by
  have ⟨hmem, hkind⟩ := mem_owned.mp hr
  have ⟨f, hf⟩ := Option.isSome_iff_exists.mp (h.found r hmem)
  rcases finding_cases hf with ⟨hA, _⟩ | ⟨_, target, rfl⟩ | ⟨_, hne, _⟩
  case inl     => exact absurd (hkind.symm.trans hA) (by decide)
  case inr.inl => exact ⟨target, (h.target target).mpr ⟨r, hmem, hf⟩, (finding_link hf).right⟩
  case inr.inr => exact absurd hkind hne

theorem Scanned.link {target : Name} (h : Scanned b ttl (answers.filter (·.owner = current)) s)
    (hs : s.addresses = []) (ht : s.target = some target) : Link b answers current target where
  owns     := by
    have ⟨r, hr, hf⟩ := (h.target target).mp ht
    exact ne_nil_of_mem (mem_owned.mpr ⟨hr, (finding_link hf).left⟩)
  targets  := by
    intro r hr
    have ⟨target', ht', ha⟩ := h.alias_target hr
    cases ht.symm.trans ht'
    exact ha
  hostless := by
    refine eq_nil_iff_forall_not_mem.mpr fun r hr => ?_
    have ⟨ip, hip, _⟩ := h.host hr
    rw [hs] at hip
    cases hip

theorem Scanned.hosted (h : Scanned b ttl (answers.filter (·.owner = current)) s)
    (ht : s.target = none) (hr : ∀ r ∈ answers, r.Read b) :
    Hosted b answers current s.addresses where
  unaliased := by
    refine eq_nil_iff_forall_not_mem.mpr fun r hr => ?_
    have ⟨target, ht', _⟩ := h.alias_target hr
    rw [ht] at ht'
    cases ht'
  nodup     := h.nodup
  complete  := by
    intro r hmem
    have ⟨ip, hip, hf⟩ := h.host hmem
    have hread := hr r (mem_of_mem_filter hmem)
    exact ⟨ip, hip, rdata_host hread.within hf⟩
  sound     := by
    intro ip hip
    have ⟨r, hmem, hf⟩ := (h.addresses ip).mp hip
    have hread := hr r (mem_of_mem_filter hmem)
    exact ⟨r, mem_owned.mpr ⟨hmem, (finding_host hf).left⟩, rdata_host hread.within hf⟩

-- The names up to the current one.
structure Walk (b : List U8) (answers : List Record) (question : Name) (seen : List Name)
    (current : Name) (ttl : Nat) : Prop where
  head  : (seen ++ [current]).head? = some question
  links : (seen ++ [current]).IsChain (Link b answers)
  nodup : seen.Nodup
  ttl   : ttl = ((seen.flatMap (owned answers · kindCname)).map (·.ttl)).foldl min (2 ^ 32 - 1)

theorem Walk.init (b : List U8) (answers : List Record) (question : Name) :
    Walk b answers question [] question (2 ^ 32 - 1) :=
  ⟨rfl, .singleton _, .nil, rfl⟩

theorem Walk.chain (h : Walk b answers question seen current ttl) (hnew : current ∉ seen) :
    Chain b answers question (seen ++ [current]) current where
  head  := h.head
  last  := List.getLast?_concat
  nodup := by
    rw [← concat_eq_append]
    exact h.nodup.concat hnew
  links := h.links

theorem Walk.next {target : Name} (h : Walk b answers question seen current ttl)
    (hnew : current ∉ seen) (hs : Scanned b ttl (answers.filter (·.owner = current)) s)
    (hempty : s.addresses = []) (ht : s.target = some target) :
    Walk b answers question (seen ++ [current]) target s.ttl := by
  have hlink := hs.link hempty ht
  have hbasis := filter_isBasis kindCname hlink.hostless fun _ => Bool.or_comm ..
  refine ⟨?_, ?_, (h.chain hnew).nodup, ?_⟩
  case refine_1 =>
    rw [List.head?_append_of_ne_nil _ (by simp)]
    exact h.head
  case refine_2 =>
    refine isChain_append.mpr ⟨h.links, .singleton _, ?_⟩
    simp only [List.getLast?_concat, List.head?_singleton, Option.mem_def, Option.some.injEq]
    rintro _ rfl _ rfl
    exact hlink
  case refine_3 =>
    rw [hs.ttl, hbasis, h.ttl, flatMap_append, flatMap_singleton, map_append, foldl_append]

-- The lifetime of a name at the end of a walk is that of all records on the way.
theorem Walk.ttl_eq (h : Walk b answers question seen current ttl)
    (hs : Scanned b ttl (answers.filter (·.owner = current)) s)
    (hu : owned answers current kindCname = []) :
    s.ttl = ((basis answers (seen ++ [current]) current).map (·.ttl)).foldl min (2 ^ 32 - 1) := by
  rw [hs.ttl, filter_isBasis kindA hu fun _ => rfl, h.ttl, basis, flatMap_append, flatMap_singleton,
    hu, append_nil, map_append, foldl_append]

-- What the walk ends with, if it ends with addresses.
theorem follow_addresses {missing : Bool} {addresses : List Ipv4Addr} {ttl' rounds : Nat}
    (hr : ∀ r ∈ answers, r.Read b) (hanswers : records.filter (!·.authority) = answers)
    (hwalk : Walk b answers question seen current ttl)
    (h : follow b records question missing current seen ttl rounds =
      some (.addresses canonical addresses ttl')) :
    missing = false ∧ addresses ≠ [] ∧ Hosted b answers canonical addresses ∧
    ∃ names, Chain b answers question names canonical ∧ names.length ≤ seen.length + rounds ∧
      ttl' = ((basis answers names canonical).map (·.ttl)).foldl min (2 ^ 32 - 1) := by
  induction rounds generalizing current seen ttl
  case zero => cases h
  case succ rounds ih =>
    cases follow_round h
    case hosted s hhosts hunaliased hpresent hnew hscan =>
      have hs := scanned_of hanswers hscan
      have hhosted := hs.hosted hunaliased hr
      refine ⟨hpresent, hhosts, hhosted, seen ++ [canonical], hwalk.chain hnew, ?_,
        hwalk.ttl_eq hs hhosted.unaliased⟩
      rw [length_append, length_singleton]
      omega
    case linked s target hnew hscan hhostless haliased hrest =>
      have hnext := hwalk.next hnew (scanned_of hanswers hscan) hhostless haliased
      have ⟨hm, hne, hh, names, hc, hlen, hrest⟩ := ih hnext hrest
      refine ⟨hm, hne, hh, names, hc, ?_, hrest⟩
      rw [length_append, length_singleton] at hlen
      omega

theorem vouched_le {r : Record} {value : Nat} (h : vouched b ttl r = some value) :
    value ≤ r.ttl ∧ value ≤ ttl := by
  simp only [vouched, Option.bind_eq_some_iff] at h
  obtain ⟨_, _, _, _, h⟩ := h
  split at h
  case isTrue => cases h
  obtain ⟨minimum, _, rfl⟩ := Option.map_eq_some_iff.mp h
  omega

-- An absence does not outlive the aliases on the way, nor any of the authorities.
theorem absence_le {least : Option Nat} (h : absence b records current ttl = some least) :
    ∀ t ∈ least, t ≤ ttl ∧ ∀ r ∈ authorities records current, t ≤ r.ttl := by
  have hfold : (∀ t ∈ least, t ≤ ttl ∧ ∀ r ∈ authorities records current, t ≤ r.ttl) ∧
      (least = none → authorities records current = []) := by
    refine foldlM_history (P := fun done least => (∀ t ∈ least, t ≤ ttl ∧ ∀ r ∈ done, t ≤ r.ttl) ∧
      (least = none → done = [])) h ⟨nofun, fun _ => rfl⟩ fun done old r new hstep ih => ?_
    rw [authority_eq] at hstep
    obtain ⟨value, hvalue, rfl⟩ := Option.map_eq_some_iff.mp hstep
    have ⟨hr, httl⟩ := vouched_le hvalue
    refine ⟨?_, by rintro ⟨⟩⟩
    rintro _ ⟨⟩
    cases old
    case none =>
      rw [ih.right rfl, nil_append]
      exact ⟨httl, forall_mem_singleton.mpr hr⟩
    case some t =>
      have ⟨ht, hdone⟩ := ih.left t rfl
      refine ⟨(min_le_left ..).trans ht, forall_mem_append.mpr ⟨fun r' hr' => ?_, ?_⟩⟩
      case refine_1 => exact (min_le_left ..).trans (hdone r' hr')
      case refine_2 => exact forall_mem_singleton.mpr ((min_le_right ..).trans hr)
  exact hfold.left

theorem foldl_min_le {l : List Nat} {top n : Nat} (h : n ∈ l) : l.foldl min top ≤ n := by
  obtain ⟨m, hm⟩ := Option.isSome_iff_exists.mp (isSome_min?_of_mem h)
  rw [foldl_min, hm, Option.getD_some]
  exact (min_le_right ..).trans ((List.min?_eq_some_iff.mp hm).right n h)

end Walks

section Responses

variable {id flags : U16} {question : Name} {aliasBudget pos : Nat} {missing : Bool}
  {answer : Answer}

theorem header_some (h : header b id question = some (flags, pos)) :
    word b 2 = some flags ∧ ∃ q start, name b 12 = some (q, start) ∧ pos = start + 4 := by
  rw [header] at h
  split at h
  case isTrue => cases h
  obtain ⟨flags, hflags, h⟩ := Option.bind_eq_some_iff.mp h
  split at h
  case isTrue => cases h
  obtain ⟨⟨q, start⟩, hname, h⟩ := Option.bind_eq_some_iff.mp h
  dsimp only at h
  split at h
  case isTrue => cases h
  cases h
  exact ⟨hflags, q, start, hname, rfl⟩

theorem serverError_none (h : serverError flags = none) : flags &&& 15 = 0 ∨ flags &&& 15 = 3 := by
  rw [serverError] at h
  split at h
  case isTrue => cases h
  split at h
  case isTrue => cases h
  split at h
  case isTrue => cases h
  split at h
  case isTrue => cases h
  rename_i hcode
  simpa [or_iff_not_imp_left] using hcode

theorem reading_some (h : reading b id question = some (records, missing)) :
    ∃ flags pos, header b id question = some (flags, pos) ∧ serverError flags = none ∧
      contents b pos = some records ∧ missing = decide (flags &&& 15 = 3) := by
  obtain ⟨⟨flags, pos⟩, hheader, h⟩ := Option.bind_eq_some_iff.mp h
  dsimp only at h
  split at h
  case isTrue => cases h
  rename_i herror
  obtain ⟨records, hcontents, h⟩ := Option.bind_eq_some_iff.mp h
  cases h
  exact ⟨flags, pos, hheader, by simpa using herror, hcontents, rfl⟩

theorem reading_answers (h : reading b id question = some (records, missing)) :
    records.filter (!·.authority) = answerSection b := by
  obtain ⟨flags, pos, hheader, _, hcontents, _⟩ := reading_some h
  obtain ⟨_, q, start, hname, rfl⟩ := header_some hheader
  simp only [contents, bind, Option.bind_eq_some_iff] at hcontents
  obtain ⟨answers, hanswers, authority, _, others, _, h⟩ := hcontents
  split at h
  case isTrue => cases h
  obtain ⟨⟨records, stop⟩, hsections, h⟩ := Option.bind_eq_some_iff.mp h
  split at h
  case isTrue => cases h
  cases h
  rw [sections_answers hsections (by omega), answerSection, hname, hanswers]
  rfl

-- A response is the outcome of its records, if they are looked at, and else an error of the server.
theorem response_eq (b : List U8) (id : U16) (question : Name) (aliasBudget : Nat) :
    response b id question aliasBudget =
      (reading b id question).elim
        ((header b id question).bind fun o => (serverError o.fst).map .failure)
        fun o => outcome b o.fst question o.snd aliasBudget := by
  rw [response, reading]
  cases header b id question
  case none => rfl
  case some o =>
    obtain ⟨flags, pos⟩ := o
    simp only [Option.bind_eq_bind, Option.bind_some]
    cases herror : serverError flags
    case some => rfl
    case none =>
      cases contents b pos
      case none => rfl
      case some => rfl

theorem response_cases (h : response b id question aliasBudget = some answer) :
    (reading b id question = none ∧ ∃ flags err, serverError flags = some err ∧
      answer = .failure err) ∨
    ∃ records missing, reading b id question = some (records, missing) ∧
      outcome b records question missing aliasBudget = some answer := by
  rw [response_eq] at h
  cases hread : reading b id question
  case some o => exact .inr ⟨o.fst, o.snd, rfl, by rwa [hread] at h⟩
  case none =>
    rw [hread, Option.elim_none] at h
    obtain ⟨⟨flags, pos⟩, _, h⟩ := Option.bind_eq_some_iff.mp h
    obtain ⟨err, herr, heq⟩ := Option.map_eq_some_iff.mp h
    exact .inl ⟨rfl, flags, err, herr, heq.symm⟩

-- An answer does not outlive any of the records that it rests on.
structure Vouched (b : List U8) (id : U16) (question : Name) (answer : Answer) : Prop where
  rests : ∃ rs, Rests b id question answer rs ∧ ∀ t ∈ answer.lifetime, ∀ r ∈ rs, t ≤ r.ttl
  error : ∀ err ttl, answer = .negative err ttl → err = .notFound ∨ err = .noData

theorem follow_vouched {current : Name} {seen : List Name} {ttl rounds : Nat}
    (hread : reading b id question = some (records, missing))
    (hwalk : Walk b (answerSection b) question seen current ttl)
    (h : follow b records question missing current seen ttl rounds = some answer)
    (hne : ∀ err, answer ≠ .failure err) : Vouched b id question answer := by
  induction rounds generalizing current seen ttl
  case zero =>
    cases h
    exact absurd rfl (hne _)
  case succ rounds ih =>
    have hs {s : Scan} (hscan : scanned b records current ttl = some s) :=
      scanned_of (reading_answers hread) hscan
    have httl {s : Scan} (hscan : scanned b records current ttl = some s) (ht : s.target = none) :
        owned (answerSection b) current kindCname = [] ∧
        ∀ r ∈ basis (answerSection b) (seen ++ [current]) current, s.ttl ≤ r.ttl := by
      have hu := ((hs hscan).hosted ht fun _ => answerSection_read).unaliased
      refine ⟨hu, fun r hr => ?_⟩
      rw [hwalk.ttl_eq (hs hscan) hu]
      exact foldl_min_le (mem_map_of_mem hr)
    cases follow_round h
    case looped => exact absurd rfl (hne _)
    case linked s target hnew hscan hhostless haliased hrest =>
      exact ih (hwalk.next hnew (hs hscan) hhostless haliased) hrest
    case hosted s hnew hscan _ hunaliased _ =>
      refine ⟨⟨_, .addresses (hwalk.chain hnew), ?_⟩, by rintro _ _ ⟨⟩⟩
      rintro _ ⟨⟩
      exact (httl hscan hunaliased).right
    case aliased s hnew hscan _ hunaliased _ =>
      refine ⟨⟨_, .aliased (hwalk.chain hnew), ?_⟩, by rintro _ _ ⟨⟩⟩
      rintro _ ⟨⟩
      exact (httl hscan hunaliased).right
    case absent s least error hnew hscan _ hunaliased habsent hkind =>
      have ⟨hu, hbasis⟩ := httl hscan hunaliased
      refine ⟨⟨_, .negative hread (hwalk.chain hnew) hu,
        fun t ht => ?_⟩, by rintro _ _ ⟨⟩; exact hkind⟩
      have ⟨hle, hsoa⟩ := absence_le habsent t ht
      exact forall_mem_append.mpr ⟨fun r hr => hle.trans (hbasis r hr), hsoa⟩

theorem response_vouched (h : response b id question aliasBudget = some answer)
    (hne : ∀ err, answer ≠ .failure err) : Vouched b id question answer := by
  rcases response_cases h with ⟨_, _, err, _, heq⟩ | ⟨records, missing, hread, h⟩
  case inl => exact absurd heq (hne err)
  case inr => exact follow_vouched hread (.init ..) h hne

theorem foldl_min_eq {l : List Nat} {top : Nat} (hne : l ≠ []) (h : ∀ n ∈ l, n ≤ top) :
    l.min? = some (l.foldl min top) := by
  obtain ⟨m, hm⟩ := Option.isSome_iff_exists.mp (isSome_min?_of_ne_nil hne)
  have hle := h m (List.min?_eq_some_iff.mp hm).left
  rw [foldl_min, hm, Option.getD_some, min_eq_right hle]

end Responses

section Hops

variable {question current : Name} {seen : List Name} {ttl rounds : Nat} {missing : Bool} {id : U16}
  {aliasBudget : Nat}

theorem visited_length_le (b : List U8) (records : List Record) (current : Name) (seen : List Name)
    (ttl rounds : Nat) :
    (visited b records current seen ttl rounds).length ≤ seen.length + rounds := by
  induction rounds generalizing current seen ttl
  case zero => exact le_rfl
  case succ rounds ih =>
    have hlen : (seen ++ [current]).length = seen.length + 1 := length_append
    rw [visited]
    split
    case isTrue => omega
    dsimp only
    split
    case h_1 => omega
    case h_2 s _ =>
      split
      case isTrue => omega
      split
      case h_1 target _ =>
        have := ih target (seen ++ [current]) s.ttl
        omega
      case h_2 => omega

theorem hops_le (b : List U8) (id : U16) (question : Name) (aliasBudget : Nat) :
    hops b id question aliasBudget ≤ min aliasBudget 8 := by
  rw [hops]
  cases reading b id question
  case none => exact Nat.zero_le _
  case some o =>
    have := visited_length_le b o.fst question [] (2 ^ 32 - 1) (min aliasBudget 8 + 1)
    rw [length_nil] at this
    rw [Option.elim_some]
    omega

theorem visited_of_scan {s : Scan} (hnew : current ∉ seen)
    (hscan : scanned b records current ttl = some s) (hs : s.addresses = []) :
    visited b records current seen ttl (rounds + 1) =
      s.target.elim (seen ++ [current]) fun target =>
        visited b records target (seen ++ [current]) s.ttl rounds := by
  rw [scanned] at hscan
  rw [visited, if_neg (mt contains_iff_mem.mp hnew), hscan]
  dsimp only
  rw [if_neg (by simp [hs])]
  cases s.target
  case none   => rfl
  case some _ => rfl

-- The hops of an alias are those that were made on the way to it.
theorem follow_aliased {target : Name} {ttl' n : Nat}
    (h : follow b records question missing current seen ttl rounds = some (.aliased target ttl' n))
    (hseen : current ≠ question → seen ≠ []) :
    n + 1 = (visited b records current seen ttl rounds).length ∧ 1 ≤ n := by
  induction rounds generalizing current seen ttl
  case zero => cases h
  case succ rounds ih =>
    cases follow_round h
    case linked s target hnew hscan hhostless haliased hrest =>
      rw [visited_of_scan hnew hscan hhostless, haliased, Option.elim_some]
      exact ih hrest fun _ => by simp
    case aliased s hhostless hunaliased hnew hscan hother =>
      rw [visited_of_scan hnew hscan hhostless, hunaliased, Option.elim_none]
      refine ⟨?_, length_pos_of_ne_nil (hseen hother)⟩
      rw [length_append, length_singleton]

theorem response_aliased {target : Name} {ttl n : Nat}
    (h : response b id question aliasBudget = some (.aliased target ttl n)) :
    n = hops b id question aliasBudget ∧ 1 ≤ n := by
  rcases response_cases h with ⟨_, _, _, _, ⟨⟩⟩ | ⟨records, missing, hread, h⟩
  have ⟨hlen, hpos⟩ := follow_aliased h fun hne => absurd rfl hne
  refine ⟨?_, hpos⟩
  rw [hops, hread, Option.elim_some, ← hlen, Nat.add_sub_cancel]

theorem follow_failure {err : ResolveError}
    (h : follow b records question missing current seen ttl rounds = some (.failure err)) :
    err = .aliasLimit := by
  induction rounds generalizing current seen ttl
  case zero =>
    cases h
    rfl
  case succ rounds ih =>
    cases follow_round h
    case looped               => rfl
    case linked _ _ _ _ hrest => exact ih hrest

-- The errors of a server are not about aliases.
theorem response_failure {err : ResolveError}
    (h : response b id question aliasBudget = some (.failure err)) (herr : err ≠ .aliasLimit) :
    hops b id question aliasBudget = 0 := by
  rcases response_cases h with ⟨hread, _⟩ | ⟨records, missing, _, h⟩
  case inl => rw [hops, hread, Option.elim_none]
  case inr => exact absurd (follow_failure h) herr

end Hops

-- The addresses of a response are those of the host at the end of the chain of aliases, in the
-- answer section. They last as long as all records on the way. All else depends on the header and
-- the set of the records only, and their order does not matter.
theorem addresses_along_chain :
    (∀ b id question aliasBudget canonical addresses ttl,
      response b id question aliasBudget = some (.addresses canonical addresses ttl) →
      rcode b = some 0 ∧
      ∃ names, Chain b (answerSection b) question names canonical ∧
        names.length ≤ min aliasBudget 8 + 1 ∧
        Hosted b (answerSection b) canonical addresses ∧
        ((basis (answerSection b) names canonical).map (·.ttl)).min? = some ttl) ∧
    (∀ b id question aliasBudget, response b id question aliasBudget =
      (reading b id question).elim
        ((header b id question).bind fun o => (serverError o.fst).map .failure)
        fun o => outcome b o.fst question o.snd aliasBudget) ∧
    (∀ b id question records missing, reading b id question = some (records, missing) →
      records.filter (!·.authority) = answerSection b) ∧
    ∀ b records₁ records₂ question missing aliasBudget, records₁.Perm records₂ →
      Option.Rel Answer.Agrees (outcome b records₁ question missing aliasBudget)
        (outcome b records₂ question missing aliasBudget) := by
  refine ⟨fun b id question aliasBudget canonical addresses ttl h => ?_, response_eq,
    fun b id question records missing => reading_answers,
    fun b records₁ records₂ question missing aliasBudget h => follow_perm h ..⟩
  have hr (r : Record) (hr : r ∈ answerSection b) : r.Read b := answerSection_read hr
  rcases response_cases h with ⟨_, _, _, _, ⟨⟩⟩ | ⟨records, missing, hread, h⟩
  have ⟨hmissing, hne, hhosted, names, hchain, hlen, httl⟩ :=
    follow_addresses hr (reading_answers hread) (.init b (answerSection b) question) h
  refine ⟨?_, names, hchain, by simpa using hlen, hhosted, ?_⟩
  case refine_1 =>
    obtain ⟨flags, pos, hheader, herror, _, rfl⟩ := reading_some hread
    rw [rcode, (header_some hheader).left, Option.map_some, Option.some.injEq]
    exact (serverError_none herror).resolve_right (of_decide_eq_false hmissing)
  case refine_2 =>
    rw [httl]
    refine foldl_min_eq ?_ fun n hn => ?_
    case refine_1 =>
      have ⟨ip, hip⟩ := exists_mem_of_ne_nil _ hne
      have ⟨r, hr, _⟩ := hhosted.sound ip hip
      have hmem : r ∈ basis (answerSection b) names canonical := mem_append_right _ hr
      simpa using ne_nil_of_mem hmem
    case refine_2 =>
      have ⟨r, hmem, heq⟩ := mem_map.mp hn
      rw [← heq]
      apply Record.Read.ttl_le
      apply hr
      rcases mem_append.mp hmem with hmem | hmem
      case inl =>
        have ⟨_, _, hmem⟩ := mem_flatMap.mp hmem
        exact mem_of_mem_filter hmem
      case inr => exact mem_of_mem_filter hmem

-- The name `a` is an alias of `b`, which is a host.
def aliasedHost : List U8 := [
  0x12, 0x34, 0x81, 0x80, 0, 1, 0, 2, 0, 0, 0, 0,
  1, 0x61, 0, 0, 1, 0, 1,
  0xc0, 12, 0, 5, 0, 1, 0, 0, 0, 60, 0, 3, 1, 0x62, 0,
  1, 0x62, 0, 0, 1, 0, 1, 0, 0, 0, 30, 0, 4, 10, 0, 0, 1]

theorem addresses_along_chain_aliasedHost :
    response aliasedHost 0x1234 [0x61] 8 = some (.addresses [0x62] [0x0a000001] 30) ∧
    ∃ names, Chain aliasedHost (answerSection aliasedHost) [0x61] names [0x62] ∧
      Hosted aliasedHost (answerSection aliasedHost) [0x62] [0x0a000001] ∧
      ((basis (answerSection aliasedHost) names [0x62]).map (·.ttl)).min? = some 30 := by
  have h : response aliasedHost 0x1234 [0x61] 8 = some (.addresses [0x62] [0x0a000001] 30) := by
    decide +kernel
  have ⟨_, names, hchain, _, hhosted, httl⟩ := addresses_along_chain.left _ _ _ _ _ _ _ h
  exact ⟨h, names, hchain, hhosted, httl⟩

end Dns.Wire
