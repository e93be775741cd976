import AsyncNetStack.Dns.Wire

open List Option

namespace Dns.Wire

-- What the records of the answer section say about a name.
def scanned (b : List U8) (records : List Record) (current : Name) (ttl : Nat) : Option Scan :=
  (records.filter fun r => !r.authority && r.owner = current).foldlM (scan b)
    { addresses := [], target := none, ttl }

-- What a round of `follow` can end with.
inductive Round (b : List U8) (records : List Record) (question : Name) (missing : Bool)
    (current : Name) (seen : List Name) (ttl rounds : Nat) : Answer → Prop
  | looped
      (again : current ∈ seen) :
      Round b records question missing current seen ttl rounds (.failure .aliasLimit)
  | hosted {s : Scan}
      (new       : current ∉ seen)
      (scan      : scanned b records current ttl = some s)
      (hosts     : s.addresses ≠ [])
      (unaliased : s.target = none)
      (present   : missing = false) :
      Round b records question missing current seen ttl rounds
        (.addresses current s.addresses s.ttl)
  | linked {s : Scan} {target : Name} {answer : Answer}
      (new      : current ∉ seen)
      (scan     : scanned b records current ttl = some s)
      (hostless : s.addresses = [])
      (aliased  : s.target = some target)
      (rest     : follow b records question missing target (seen ++ [current]) s.ttl rounds =
        some answer) :
      Round b records question missing current seen ttl rounds answer
  | absent {s : Scan} {least : Option Nat} {error : ResolveError}
      (new       : current ∉ seen)
      (scan      : scanned b records current ttl = some s)
      (hostless  : s.addresses = [])
      (unaliased : s.target = none)
      (absent    : absence b records current s.ttl = some least)
      (kind      : error = .notFound ∨ error = .noData) :
      Round b records question missing current seen ttl rounds (.negative error least)
  | aliased {s : Scan}
      (new       : current ∉ seen)
      (scan      : scanned b records current ttl = some s)
      (hostless  : s.addresses = [])
      (unaliased : s.target = none)
      (other     : current ≠ question) :
      Round b records question missing current seen ttl rounds (.aliased current s.ttl seen.length)

theorem follow_round {b : List U8} {records : List Record} {question : Name} {missing : Bool}
    {current : Name} {seen : List Name} {ttl rounds : Nat} {answer : Answer}
    (h : follow b records question missing current seen ttl (rounds + 1) = some answer) :
    Round b records question missing current seen ttl rounds answer := by
  rw [follow] at h
  split at h
  case isTrue hseen =>
    cases h
    exact .looped (contains_iff_mem.mp hseen)
  rename_i hseen
  have hnew : current ∉ seen := fun hmem => hseen (contains_iff_mem.mpr hmem)
  obtain ⟨s, hscan, h⟩ := bind_eq_some_iff.mp h
  split at h
  case isTrue hhosts =>
    split at h
    case isTrue => cases h
    rename_i hok
    cases h
    simp only [Bool.or_eq_true, not_or, Bool.not_eq_true, isSome_eq_false_iff,
      isNone_iff_eq_none] at hok
    exact .hosted hnew hscan (by simpa using hhosts) hok.left hok.right
  case isFalse hnone =>
    have hempty : s.addresses = [] := by simpa using hnone
    split at h
    case h_1 target ht => exact .linked hnew hscan hempty ht h
    case h_2 ht =>
      obtain ⟨least, habsent, h⟩ := bind_eq_some_iff.mp h
      split at h
      case isTrue =>
        cases h
        exact .absent hnew hscan hempty ht habsent (.inl rfl)
      split at h
      case isTrue hother =>
        cases h
        rw [Bool.and_eq_true, decide_eq_true_eq] at hother
        have hlen : (seen ++ [current]).length - 1 = seen.length := by
          rw [length_append, length_singleton, Nat.add_sub_cancel]
        rw [hlen]
        exact .aliased hnew hscan hempty ht hother.left
      case isFalse =>
        cases h
        exact .absent hnew hscan hempty ht habsent (.inr rfl)

end Dns.Wire
