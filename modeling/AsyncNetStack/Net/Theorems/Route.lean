import AsyncNetStack.Lib.Dictionary
import AsyncNetStack.Lib.Trace
import AsyncNetStack.Net.Route

open Dictionary Transition List BitVec

namespace Ipv4Addr

-- Two addresses have the same first bits.
def Agree (prefixLen : Nat) (a b : Ipv4Addr) : Prop :=
  ∀ i < prefixLen, a.getMsbD i = b.getMsbD i

theorem getMsbD_mask {prefixLen i : Nat} (h : prefixLen ≤ 32) :
    (mask prefixLen).getMsbD i = decide (i < prefixLen) := by
  rw [mask]
  split
  case isTrue hzero =>
    rw [hzero]
    simp
  case isFalse hpos =>
    rw [getMsbD_shiftLeft, getMsbD_allOnes, decide_eq_decide]
    omega

theorem and_mask_eq_iff {prefixLen : Nat} {a b : Ipv4Addr} (h : prefixLen ≤ 32) :
    a &&& mask prefixLen = b &&& mask prefixLen ↔ Agree prefixLen a b := by
  constructor
  · intro heq i hi
    have hbit := congrArg (BitVec.getMsbD · i) heq
    simpa only [getMsbD_and, getMsbD_mask h, hi, decide_true, Bool.and_true] using hbit
  · intro hagree
    refine eq_of_getMsbD_eq fun i _ => ?_
    rw [getMsbD_and, getMsbD_and, getMsbD_mask h]
    by_cases hi : i < prefixLen
    · rw [hagree i hi]
    · rw [decide_eq_false hi, Bool.and_false, Bool.and_false]

end Ipv4Addr

open Ipv4Addr

namespace Route

variable {r : Route} {address : Ipv4Addr} {prefixLen : Nat} {gateway : Option Ipv4Addr}

-- The prefix of a route.
def key (r : Route) : Ipv4Addr × Nat :=
  (r.network, r.prefixLen)

-- The first bits of an address in the prefix are those of the network.
def Covers (r : Route) (ip : Ipv4Addr) : Prop :=
  Agree r.prefixLen r.network ip

theorem contains_iff_covers {ip : Ipv4Addr} : r.contains ip ↔ r.Covers ip := by
  rw [contains, beq_iff_eq, Covers, ← and_mask_eq_iff r.prefix_le, r.network_masked, eq_comm]

theorem samePrefix_eq (r₁ r₂ : Route) : r₁.samePrefix r₂ = decide (r₁.key = r₂.key) := by
  rw [samePrefix, key, key, Bool.eq_iff_iff, Bool.and_eq_true, beq_iff_eq, beq_iff_eq,
    decide_eq_true_eq, Prod.mk.injEq]

-- Two prefixes of the same length that share an address are the same.
theorem Covers.key_eq {r₁ r₂ : Route} {ip : Ipv4Addr} (h₁ : r₁.Covers ip) (h₂ : r₂.Covers ip)
    (h : r₁.prefixLen = r₂.prefixLen) : r₁.key = r₂.key := by
  rw [← contains_iff_covers, contains, beq_iff_eq] at h₁ h₂
  rw [key, key, ← h₁, ← h₂, h]

theorem new_ok_iff :
    Route.new address prefixLen gateway = .ok r ↔
    prefixLen ≤ 32 ∧ gateway.all unicast ∧ r.key = (address &&& mask prefixLen, prefixLen) ∧
    r.gateway = gateway := by
  rw [Route.new]
  split
  case isTrue h =>
    rw [Except.ok.injEq, Route.ext_iff, key, Prod.mk.injEq]
    constructor
    · rintro ⟨hn, hp, hg⟩
      exact ⟨h.left, h.right, ⟨hn.symm, hp.symm⟩, hg.symm⟩
    · rintro ⟨-, -, ⟨hn, hp⟩, hg⟩
      exact ⟨hn.symm, hp.symm, hg.symm⟩
  case isFalse h => simp_all

end Route

namespace RouteTable

variable {t t' : RouteTable} {limit : Nat} {route r : Route} {address d : Ipv4Addr}
  {prefixLen : Nat} {found : Bool}

inductive Op
  | insert (route : Route)
  | remove (address : Ipv4Addr) (prefixLen : Nat)

-- A failed call leaves the table as it is.
def step (t : RouteTable) : Op → RouteTable
  | .insert route             => (t.insert route).toOption.getD t
  | .remove address prefixLen => ((t.remove address prefixLen).toOption.map Prod.fst).getD t

-- The prefix which a successful call is about, and the route which it leaves there.
def written (t : RouteTable) : Op → List ((Ipv4Addr × Nat) × Option Route)
  | .insert route             => if (t.insert route).isOk then [(route.key, some route)] else []
  | .remove address prefixLen =>
    if (t.remove address prefixLen).isOk then [((address &&& mask prefixLen, prefixLen), none)]
    else []

structure Valid (limit : Nat) (t : RouteTable) : Prop where
  distinct : Distinct Route.key t.entries
  length   : t.entries.length ≤ limit
  limit_eq : t.limit = limit

-- A successful call writes one prefix.
structure Writes (t : RouteTable) (write : (Ipv4Addr × Nat) × Option Route) (t' : RouteTable) :
    Prop where
  valid : ∀ limit, Valid limit t → Valid limit t'
  get   : ∀ k, get Route.key t'.entries k =
    if write.fst = k then write.snd else get Route.key t.entries k

theorem insert_writes (h : t.insert route = .ok t') : Writes t (route.key, some route) t' := by
  rw [insert] at h
  simp only [Route.samePrefix_eq] at h
  cases hidx : t.entries.findIdx? (·.key = route.key)
  case some i =>
    rw [hidx] at h
    cases h
    exact {
      valid :=
      fun limit hv => ⟨distinct_set hidx hv.distinct, by simpa using hv.length, hv.limit_eq⟩
      get   := fun k => get_set hidx
    }
  case none =>
    rw [hidx] at h
    dsimp only at h
    split at h
    case isTrue => cases h
    rename_i hlen
    cases h
    refine ⟨fun limit hv => ⟨distinct_concat hidx hv.distinct, ?_, hv.limit_eq⟩,
      fun k => get_concat hidx⟩
    have hle := hv.length
    rw [hv.limit_eq] at hlen
    rw [length_append, length_singleton]
    omega

-- An insertion fails only if the prefix is new and the table is full.
theorem insert_isOk (hv : Valid limit t) :
    (t.insert route).isOk ↔ (∃ r ∈ t.entries, r.key = route.key) ∨ t.entries.length < limit := by
  have hfull : t.entries.length = limit ↔ ¬t.entries.length < limit := by
    have := hv.length
    omega
  have hmem : (∃ r ∈ t.entries, r.key = route.key) ↔
      t.entries.findIdx? (·.samePrefix route) ≠ none := by
    rw [ne_eq, List.findIdx?_eq_none_iff]
    simp [Route.samePrefix_eq]
  rw [hmem, insert, hv.limit_eq]
  cases t.entries.findIdx? (·.samePrefix route)
  case some i => simp [Except.isOk, Except.toBool]
  case none =>
    by_cases h : t.entries.length = limit
    · simp [h, Except.isOk, Except.toBool]
    · simpa [h, Except.isOk, Except.toBool] using not_not.mp (mt hfull.mpr h)

theorem remove_eq (t : RouteTable) (address : Ipv4Addr) (h : prefixLen ≤ 32) :
    let entries := t.entries.filter (·.key ≠ (address &&& mask prefixLen, prefixLen))
    t.remove address prefixLen = .ok ({ t with entries }, entries.length != t.entries.length) := by
  rw [remove]
  cases hnew : Route.new address prefixLen none
  case error e => simp [Route.new, h] at hnew
  case ok key =>
    have ⟨_, _, hkey, _⟩ := Route.new_ok_iff.mp hnew
    simp only [Route.samePrefix_eq, hkey, ← decide_not]

theorem remove_error (t : RouteTable) (address : Ipv4Addr) (h : ¬prefixLen ≤ 32) :
    t.remove address prefixLen = .error (.invalid "invalid IPv4 route") := by
  rw [remove, Route.new, dif_neg fun hn => h hn.left]

theorem remove_writes (h : t.remove address prefixLen = .ok (t', found)) :
    Writes t ((address &&& mask prefixLen, prefixLen), none) t' := by
  by_cases hle : prefixLen ≤ 32
  case neg =>
    rw [remove_error t address hle] at h
    cases h
  case pos =>
    rw [remove_eq t address hle] at h
    cases h
    exact {
      valid := fun limit hv =>
        ⟨distinct_filter hv.distinct _, (length_filter_le ..).trans hv.length, hv.limit_eq⟩
      get   := fun k => get_filter
    }

-- A removal reports whether the prefix was present.
theorem remove_found (h : t.remove address prefixLen = .ok (t', found)) :
    found ↔ ∃ r ∈ t.entries, r.key = (address &&& mask prefixLen, prefixLen) := by
  by_cases hle : prefixLen ≤ 32
  case neg =>
    rw [remove_error t address hle] at h
    cases h
  case pos =>
    rw [remove_eq t address hle] at h
    cases h
    rw [bne_iff_ne, ne_eq, length_filter_eq_length_iff]
    simp

theorem step_trace (t : RouteTable) (op : Op) :
    Trace (· = ·) Writes t (t.written op) (t.step op) := by
  cases op
  case insert route =>
    rw [step, written]
    cases h : t.insert route
    case error => exact .refl
    case ok    => exact .of_emit (insert_writes h)
  case remove address prefixLen =>
    rw [step, written]
    cases h : t.remove address prefixLen
    case error => exact .refl
    case ok    => exact .of_emit (remove_writes h)

-- The table represents the map that the successful calls have written.
theorem exec_represents (limit : Nat) (ops : List Op) :
    Valid limit (exec step (new limit) ops) ∧
    ∀ k, get Route.key (exec step (new limit) ops).entries k =
      latest (logs step written (new limit) ops) k := by
  have htrace :
      Trace _ _ (new limit) (logs step written (new limit) ops) (exec step (new limit) ops) :=
    Trace.of_exec step_trace
  refine htrace.history (P := fun log t =>
    Valid limit t ∧ ∀ k, get Route.key t.entries k = latest log k) ?_ ?_ ?_
  case refine_1 => exact ⟨⟨nodup_nil, Nat.zero_le _, rfl⟩, fun _ => rfl⟩
  case refine_2 =>
    rintro log t _ rfl ih
    exact ih
  case refine_3 =>
    intro log t write t' hw ih
    refine ⟨hw.valid limit ih.left, fun k => ?_⟩
    rw [hw.get, ih.right, latest_concat]

theorem represents_mem {map : Ipv4Addr × Nat → Option Route} (hv : Valid limit t)
    (h : ∀ k, get Route.key t.entries k = map k) (r : Route) :
    r ∈ t.entries ↔ map r.key = some r := by
  rw [← h, get_eq_some_iff hv.distinct, and_iff_left rfl]

theorem represents_isSome {map : Ipv4Addr × Nat → Option Route} (hv : Valid limit t)
    (h : ∀ k, get Route.key t.entries k = map k) (k : Ipv4Addr × Nat) :
    (map k).isSome ↔ ∃ r ∈ t.entries, r.key = k := by
  simp only [← h, Option.isSome_iff_exists, get_eq_some_iff hv.distinct]

-- The route whose prefix is longer than all others that contain the address.
structure Longest (t : RouteTable) (d : Ipv4Addr) (r : Route) : Prop where
  mem     : r ∈ t.entries
  covers  : r.Covers d
  longest : ∀ r' ∈ t.entries, r'.Covers d → r' ≠ r → r'.prefixLen < r.prefixLen

theorem Longest.unique (h : Longest t d r) {r' : Route} (h' : Longest t d r') : r = r' := by
  by_contra hne
  have h₁ := h.longest r' h'.mem h'.covers (Ne.symm hne)
  have h₂ := h'.longest r h.mem h.covers hne
  omega

theorem lookup_longest (hv : Valid limit t) (h : t.lookup d = some r) : Longest t d r := by
  have ⟨hfrom, hmax⟩ := foldl_max Route.prefixLen (t.entries.filter (·.contains d)) none
  have hr := (hfrom r h).resolve_left nofun
  rw [mem_filter, Route.contains_iff_covers] at hr
  refine ⟨hr.left, hr.right, fun r' hr' hc hne => ?_⟩
  have ⟨b, hb, hle⟩ := hmax r' (.inr (mem_filter.mpr ⟨hr', Route.contains_iff_covers.mpr hc⟩))
  cases h.symm.trans hb
  -- Two prefixes of one length that contain the address are one entry.
  refine lt_of_le_of_ne hle fun heq => hne ?_
  exact inj_on_of_nodup_map hv.distinct hr' hr.left (hc.key_eq hr.right heq)

theorem lookup_eq_none_iff : t.lookup d = none ↔ ∀ r ∈ t.entries, ¬r.Covers d := by
  have ⟨hfrom, hmax⟩ := foldl_max Route.prefixLen (t.entries.filter (·.contains d)) none
  constructor
  · intro hnone r hr hc
    have ⟨b, hb, _⟩ := hmax r (.inr (mem_filter.mpr ⟨hr, Route.contains_iff_covers.mpr hc⟩))
    cases hnone.symm.trans hb
  · intro hall
    rw [Option.eq_none_iff_forall_ne_some]
    intro r h
    have hr := (hfrom r h).resolve_left nofun
    rw [mem_filter, Route.contains_iff_covers] at hr
    exact hall r hr.left hr.right

theorem lookup_eq_some_iff (hv : Valid limit t) : t.lookup d = some r ↔ Longest t d r := by
  constructor
  · exact lookup_longest hv
  · intro h
    cases hl : t.lookup d
    case none    => exact absurd h.covers (lookup_eq_none_iff.mp hl r h.mem)
    case some r' => rw [(lookup_longest hv hl).unique h]

-- Lookups depend on the map only, not on the order of the entries.
theorem lookup_congr {limit' : Nat} (hv : Valid limit t) (hv' : Valid limit' t')
    (h : ∀ r, r ∈ t.entries ↔ r ∈ t'.entries) : t.lookup d = t'.lookup d := by
  refine Option.ext fun r => ?_
  rw [lookup_eq_some_iff hv, lookup_eq_some_iff hv']
  constructor
  · exact fun hl => ⟨(h r).mp hl.mem, hl.covers, fun r' hr' => hl.longest r' ((h r').mpr hr')⟩
  · exact fun hl => ⟨(h r).mpr hl.mem, hl.covers, fun r' hr' => hl.longest r' ((h r').mp hr')⟩

-- The calls that succeeded so far define a map from prefixes to routes. The table holds this map,
-- and its lookups find the longest prefix in it.
theorem bounded_longest_prefix_map (limit : Nat) (ops : List Op) :
    let t := exec step (new limit) ops
    let map := latest (logs step written (new limit) ops)
    (t.entries.map Route.key).Nodup ∧ t.entries.length ≤ limit ∧
    (∀ r, r ∈ t.entries ↔ map r.key = some r) ∧
    (∀ r, (t.insert r).isOk ↔ (map r.key).isSome ∨ t.entries.length < limit) ∧
    (∀ address prefixLen, (t.remove address prefixLen).isOk ↔ prefixLen ≤ 32) ∧
    (∀ address prefixLen t' found, t.remove address prefixLen = .ok (t', found) →
      (found ↔ (map (address &&& mask prefixLen, prefixLen)).isSome)) ∧
    (∀ d r, t.lookup d = some r ↔ Longest t d r) ∧
    (∀ d, t.lookup d = none ↔ ∀ r ∈ t.entries, ¬r.Covers d) ∧
    ∀ limit' ops', map = latest (logs step written (new limit') ops') →
      ∀ d, t.lookup d = (exec step (new limit') ops').lookup d := by
  intro t map
  have ⟨hv, hmap⟩ := exec_represents limit ops
  have hmem := represents_mem hv hmap
  have hsome := represents_isSome hv hmap
  refine ⟨hv.distinct, hv.length, hmem, ?_, ?_, ?_, ?_, ?_, ?_⟩
  · intro r
    rw [insert_isOk hv, hsome]
  · intro address prefixLen
    by_cases h : prefixLen ≤ 32
    · simp [remove_eq t address h, h, Except.isOk, Except.toBool]
    · simp [remove_error t address h, h, Except.isOk, Except.toBool]
  · intro address prefixLen t' found h
    rw [remove_found h, hsome]
  · exact fun d r => lookup_eq_some_iff hv
  · exact fun d => lookup_eq_none_iff
  · intro limit' ops' heq d
    have ⟨hv', hmap'⟩ := exec_represents limit' ops'
    refine lookup_congr hv hv' fun r => ?_
    rw [hmem, represents_mem hv' hmap', ← heq]

end RouteTable
