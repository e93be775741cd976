import Mathlib

open List

-- The keys of an ordered map as a list without duplicates, whose order does not matter.
namespace Std.TreeMap

variable {κ β : Type} [Ord κ] [TransOrd κ] [LawfulEqOrd κ] {m m' : TreeMap κ β} {k : κ} {v : β}

theorem keys_perm (h : ∀ k, k ∈ m ↔ k ∈ m') : m.keys.Perm m'.keys :=
  (perm_ext_iff_of_nodup nodup_keys nodup_keys).mpr fun k => by rw [mem_keys, mem_keys, h]

theorem keys_insert_perm (h : k ∉ m) : (m.insert k v).keys.Perm (k :: m.keys) := by
  refine (perm_ext_iff_of_nodup nodup_keys ?_).mpr fun k' => ?_
  · exact nodup_cons.mpr ⟨by rwa [mem_keys], nodup_keys⟩
  · rw [mem_keys, mem_insert, compare_eq_iff_eq, mem_cons, mem_keys, eq_comm]

theorem keys_erase_perm (h : k ∈ m) : m.keys.Perm (k :: (m.erase k).keys) := by
  refine (perm_ext_iff_of_nodup nodup_keys ?_).mpr fun k' => ?_
  · refine nodup_cons.mpr ⟨?_, nodup_keys⟩
    rw [mem_keys, mem_erase, ne_eq, compare_eq_iff_eq]
    exact fun hk => hk.left rfl
  · rw [mem_keys, mem_cons, mem_keys, mem_erase, ne_eq, compare_eq_iff_eq]
    constructor
    · intro hk
      by_cases heq : k' = k
      · exact .inl heq
      · exact .inr ⟨Ne.symm heq, hk⟩
    · rintro (rfl | ⟨_, hk⟩)
      · exact h
      · exact hk

theorem size_erase_add_one (h : k ∈ m) : (m.erase k).size + 1 = m.size := by
  have hlen := (keys_erase_perm h).length_eq
  rw [length_keys, length_cons, length_keys] at hlen
  exact hlen.symm

theorem size_insert_new (h : k ∉ m) : (m.insert k v).size = m.size + 1 := by
  have hlen := (keys_insert_perm (v := v) h).length_eq
  rwa [length_keys, length_cons, length_keys] at hlen

theorem size_eq_of_mem (h : ∀ k, k ∈ m ↔ k ∈ m') : m.size = m'.size := by
  rw [← length_keys, ← length_keys, (keys_perm h).length_eq]

theorem size_le_of_mem (h : ∀ k, k ∈ m → k ∈ m') : m.size ≤ m'.size := by
  rw [← length_keys, ← length_keys]
  refine (subperm_of_subset nodup_keys fun k hk => ?_).length_le
  exact mem_keys.mpr (h k (mem_keys.mp hk))

omit [TransOrd κ] [LawfulEqOrd κ] in
theorem values_eq (m : TreeMap κ β) : m.values = m.toList.map Prod.snd := by
  have h : m.values = m.foldr (fun _ v l => v :: l) [] := rfl
  rw [h, foldr_eq_foldr_toList]
  induction m.toList
  case nil          => rfl
  case cons w ws ih => rw [foldr_cons, ih, map_cons]

theorem mem_values_of_getElem? (h : m[k]? = some v) : v ∈ m.values := by
  rw [values_eq]
  exact List.mem_map.mpr ⟨(k, v), mem_toList_iff_getElem?_eq_some.mpr h, rfl⟩

end Std.TreeMap
