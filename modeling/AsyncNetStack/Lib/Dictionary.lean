import Mathlib

open List Option

-- Finite maps that are lists of entries, each of which carries its own key.
namespace Dictionary

variable {α κ : Type*} [DecidableEq κ] {key : α → κ} {l : List α} {a b : α} {k : κ} {i : Nat}

def Distinct (key : α → κ) (l : List α) : Prop :=
  (l.map key).Nodup

def get (key : α → κ) (l : List α) (k : κ) : Option α :=
  l.find? (key · = k)

theorem get_cons : get key (b :: l) k = if key b = k then some b else get key l k := by
  rw [get, List.find?_cons]
  by_cases h : key b = k
  · rw [if_pos h, decide_eq_true h]
  · rw [if_neg h, decide_eq_false h]
    rfl

theorem get_eq_some_iff (h : Distinct key l) : get key l k = some a ↔ a ∈ l ∧ key a = k := by
  constructor
  · intro hget
    exact ⟨mem_of_find?_eq_some hget, of_decide_eq_true (List.find?_some (p := (key · = k)) hget)⟩
  · rintro ⟨hmem, rfl⟩
    have hsome : (get key l (key a)).isSome := List.find?_isSome.mpr ⟨a, hmem, decide_eq_true rfl⟩
    have ⟨b, hb⟩ := isSome_iff_exists.mp hsome
    have hkey : key b = key a := of_decide_eq_true (List.find?_some (p := (key · = key a)) hb)
    rw [hb, inj_on_of_nodup_map h (mem_of_find?_eq_some hb) hmem hkey]

-- Replacing the entry that has the same key.
theorem get_set (h : l.findIdx? (key · = key a) = some i) :
    get key (l.set i a) k = if key a = k then some a else get key l k := by
  induction l generalizing i
  case nil => cases h
  case cons b l ih =>
    rw [List.findIdx?_cons] at h
    by_cases hb : key b = key a
    · rw [if_pos (decide_eq_true hb)] at h
      cases h
      rw [set_cons_zero, get_cons, get_cons, hb]
      split <;> rfl
    · rw [if_neg (by rwa [decide_eq_true_eq])] at h
      have ⟨j, hj, hi⟩ := map_eq_some_iff.mp h
      rw [← hi, set_cons_succ, get_cons, get_cons, ih hj]
      by_cases hk : key b = k
      · rw [if_pos hk, if_pos hk, if_neg fun ha => hb (hk.trans ha.symm)]
      · rw [if_neg hk, if_neg hk]

theorem distinct_set (h : l.findIdx? (key · = key a) = some i) (hd : Distinct key l) :
    Distinct key (l.set i a) := by
  have ⟨hi, hkey, _⟩ := List.findIdx?_eq_some_iff_getElem.mp h
  have hmap : (l.map key)[i]? = some (key a) := by
    rw [List.getElem?_map, List.getElem?_eq_getElem hi, map_some, of_decide_eq_true hkey]
  have ⟨hlt, heq⟩ := List.getElem?_eq_some_iff.mp hmap
  rw [Distinct, map_set, ← heq, set_getElem_self]
  exact hd

-- Adding an entry whose key is new.
theorem get_concat (h : l.findIdx? (key · = key a) = none) :
    get key (l ++ [a]) k = if key a = k then some a else get key l k := by
  rw [List.findIdx?_eq_none_iff] at h
  rw [get, List.find?_append]
  by_cases hk : key a = k
  · have hnone : l.find? (key · = k) = none := by
      rw [List.find?_eq_none, ← hk]
      simpa using h
    rw [if_pos hk, hnone, none_or, List.find?_singleton, if_pos (decide_eq_true hk)]
  · rw [if_neg hk, List.find?_singleton, if_neg (by rwa [decide_eq_true_eq]), or_none]
    rfl

theorem distinct_concat (h : l.findIdx? (key · = key a) = none) (hd : Distinct key l) :
    Distinct key (l ++ [a]) := by
  rw [List.findIdx?_eq_none_iff] at h
  rw [Distinct, map_append, nodup_append]
  refine ⟨hd, nodup_singleton _, fun k hk k' hk' => ?_⟩
  have ⟨b, hb, hkey⟩ := mem_map.mp hk
  rw [mem_singleton.mp hk', ← hkey]
  exact of_decide_eq_false (h b hb)

-- Removing the entries that have a key.
theorem get_filter {k' : κ} :
    get key (l.filter (key · ≠ k')) k = if k' = k then none else get key l k := by
  rw [get, List.find?_filter]
  split
  case isTrue h =>
    rw [List.find?_eq_none, h]
    simp
  case isFalse h =>
    refine congrArg (l.find? ·) (funext fun b => ?_)
    rw [decide_eq_decide, decide_eq_true_eq, decide_eq_true_eq, and_iff_right_iff_imp]
    exact fun hb hk => h (hk.symm.trans hb)

omit [DecidableEq κ] in
theorem distinct_filter (h : Distinct key l) (p : α → Bool) : Distinct key (l.filter p) :=
  List.Nodup.sublist (filter_sublist.map key) h

-- What a history of writes leaves at a key: a write is a key and its entry, if it has one.
def latest (log : List (κ × Option α)) (k : κ) : Option α :=
  (log.filter (·.fst = k)).getLast?.bind Prod.snd

@[simp]
theorem latest_nil : latest ([] : List (κ × Option α)) k = none :=
  rfl

theorem latest_concat (log : List (κ × Option α)) (k' : κ) (v : Option α) :
    latest (log ++ [(k', v)]) k = if k' = k then v else latest log k := by
  rw [latest, filter_append]
  split
  case isTrue h =>
    rw [filter_singleton, decide_eq_true h, cond_true, List.getLast?_concat, bind_some]
  case isFalse h =>
    rw [filter_singleton, decide_eq_false h, cond_false, append_nil]
    rfl

-- The last one of the entries with the greatest rank, as a scan finds it.
theorem foldl_max (rank : α → Nat) (l : List α) (best : Option α) :
    let found := l.foldl (fun best a => if best.all (rank · ≤ rank a) then some a else best) best
    (∀ a ∈ found, a ∈ best ∨ a ∈ l) ∧ ∀ a, a ∈ best ∨ a ∈ l → ∃ b ∈ found, rank a ≤ rank b := by
  induction l generalizing best
  case nil =>
    refine ⟨fun a ha => .inl ha, fun a ha => ⟨a, ?_, le_rfl⟩⟩
    exact ha.resolve_right not_mem_nil
  case cons c l ih =>
    simp only [foldl_cons, mem_cons]
    split
    case isTrue h =>
      have ⟨hfrom, hmax⟩ := ih (some c)
      refine ⟨fun a ha => ?_, fun a ha => ?_⟩
      · rcases hfrom a ha with hc | hl
        · cases hc
          exact .inr (.inl rfl)
        · exact .inr (.inr hl)
      · have ⟨b, hb, hle⟩ := hmax c (.inl rfl)
        rcases ha with hbest | rfl | hl
        · cases hbest
          exact ⟨b, hb, le_trans (by simpa using h) hle⟩
        · exact ⟨b, hb, hle⟩
        · exact hmax a (.inr hl)
    case isFalse h =>
      have ⟨hfrom, hmax⟩ := ih best
      refine ⟨fun a ha => (hfrom a ha).imp_right .inr, fun a ha => ?_⟩
      rcases ha with hbest | rfl | hl
      · exact hmax a (.inl hbest)
      · cases best
        case none => exact absurd rfl h
        case some d =>
          have ⟨b, hb, hle⟩ := hmax d (.inl rfl)
          have hlt : rank a < rank d := by simpa using h
          exact ⟨b, hb, le_trans hlt.le hle⟩
      · exact hmax a (.inr hl)

end Dictionary
