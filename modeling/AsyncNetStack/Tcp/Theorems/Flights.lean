import AsyncNetStack.Tcp.Endpoint

open Serial Tcp List

namespace Flight

variable {f g : Flight}

-- The number of sequence numbers which a flight occupies.
def size (f : Flight) : Nat :=
  f.payload.length + (has f.flags SYN).toNat + (has f.flags FIN).toNat

structure IsSyn (f : Flight) : Prop where
  flags   : f.flags = SYN ∨ f.flags = SYN ||| ACK
  payload : f.payload = []

structure IsData (f : Flight) : Prop where
  flags   : f.flags = ACK ||| PSH
  payload : f.payload ≠ []

structure IsFin (f : Flight) : Prop where
  flags   : f.flags = FIN ||| ACK
  payload : f.payload = []

-- SYN and FIN are always separate from data.
def Proper (f : Flight) : Prop :=
  f.IsSyn ∨ f.IsData ∨ f.IsFin

theorem end_eq (f : Flight) : f.end = f.sequence + BitVec.ofNat 32 f.size := by
  simp only [Flight.end, size, seqLen, BitVec.ofNat_add, ← BitVec.add_assoc]
  cases has f.flags SYN <;> cases has f.flags FIN <;> simp

theorem IsSyn.has_syn (h : f.IsSyn) : has f.flags SYN = true := by
  rcases h.flags with h | h <;> rw [h] <;> decide

theorem IsSyn.not_has_fin (h : f.IsSyn) : has f.flags FIN = false := by
  rcases h.flags with h | h <;> rw [h] <;> decide

theorem IsSyn.size_eq (h : f.IsSyn) : f.size = 1 := by
  simp [size, h.payload, h.has_syn, h.not_has_fin]

theorem IsData.not_has_syn (h : f.IsData) : has f.flags SYN = false := by
  rw [h.flags]; decide

theorem IsData.not_has_fin (h : f.IsData) : has f.flags FIN = false := by
  rw [h.flags]; decide

theorem IsData.size_eq (h : f.IsData) : f.size = f.payload.length := by
  simp [size, h.not_has_syn, h.not_has_fin]

theorem IsData.length_pos (h : f.IsData) : 0 < f.payload.length :=
  length_pos_of_ne_nil h.payload

theorem IsFin.has_fin (h : f.IsFin) : has f.flags FIN = true := by
  rw [h.flags]; decide

theorem IsFin.not_has_syn (h : f.IsFin) : has f.flags SYN = false := by
  rw [h.flags]; decide

theorem IsFin.size_eq (h : f.IsFin) : f.size = 1 := by
  simp [size, h.payload, h.has_fin, h.not_has_syn]

theorem Proper.size_pos (h : f.Proper) : 0 < f.size := by
  rcases h with h | h | h
  · simp [h.size_eq]
  · simp [h.size_eq, h.length_pos]
  · simp [h.size_eq]

-- Only a flight with data can be acknowledged in part.
theorem Proper.isData (h : f.Proper) (hs : 1 < f.size) : f.IsData := by
  rcases h with h | h | h
  · simp [h.size_eq] at hs
  · exact h
  · simp [h.size_eq] at hs

-- What a flight puts into the stream, and whether it has been sent. All other fields of a flight
-- only concern its timing.
def shape (f : Flight) : U32 × U8 × List U8 × Bool :=
  (f.sequence, f.flags, f.payload, f.transmissions == 0)

theorem shape_eq_iff :
    f.shape = g.shape ↔
      f.sequence = g.sequence ∧ f.flags = g.flags ∧ f.payload = g.payload ∧
      (f.transmissions = 0 ↔ g.transmissions = 0) := by
  simp only [shape, Prod.mk.injEq]
  rw [Bool.eq_iff_iff]
  simp

end Flight

-- The flights cover the sequence numbers from `a` up to `b` without gaps or overlaps.
def Contiguous (a : U32) : List Flight → U32 → Prop
  | [], b      => a = b
  | f :: fs, b => f.sequence = a ∧ Contiguous f.end fs b

def sizes (fs : List Flight) : Nat :=
  (fs.map Flight.size).sum

@[simp]
theorem sizes_nil : sizes [] = 0 :=
  rfl

@[simp]
theorem sizes_cons (f : Flight) (fs : List Flight) : sizes (f :: fs) = f.size + sizes fs := by
  simp [sizes]

@[simp]
theorem sizes_append (fs gs : List Flight) : sizes (fs ++ gs) = sizes fs + sizes gs := by
  simp [sizes]

namespace Contiguous

variable {a b m : U32} {fs gs : List Flight}

@[simp]
theorem nil_iff : Contiguous a [] b ↔ a = b :=
  Iff.rfl

@[simp]
theorem cons_iff {f : Flight} : Contiguous a (f :: fs) b ↔ f.sequence = a ∧ Contiguous f.end fs b :=
  Iff.rfl

theorem append_iff : Contiguous a (fs ++ gs) b ↔ ∃ m, Contiguous a fs m ∧ Contiguous m gs b := by
  induction fs generalizing a
  case nil         => simp
  case cons f _ ih => simp [ih, and_assoc]

theorem eq_add (h : Contiguous a fs b) : b = a + BitVec.ofNat 32 (sizes fs) := by
  induction fs generalizing a
  case nil => simpa using h.symm
  case cons f fs ih =>
    obtain ⟨rfl, h⟩ := h
    rw [ih h, f.end_eq, sizes_cons, BitVec.ofNat_add, BitVec.add_assoc]

theorem dist_eq (h : Contiguous a fs b) (hs : sizes fs < 2 ^ 32) : dist a b = sizes fs := by
  rw [h.eq_add, dist_add_ofNat a hs]

end Contiguous

-- Two lists of flights that only differ in their timing.
def SameShape (fs gs : List Flight) : Prop :=
  fs.map Flight.shape = gs.map Flight.shape

namespace SameShape

variable {a b : U32} {fs gs : List Flight}

@[refl]
theorem refl (fs : List Flight) : SameShape fs fs :=
  rfl

theorem map {fs : List Flight} {u : Flight → Flight} (h : ∀ f, (u f).shape = f.shape) :
    SameShape (fs.map u) fs := by
  simp [SameShape, h]

theorem modifyHead {fs : List Flight} {u : Flight → Flight} (h : ∀ f, (u f).shape = f.shape) :
    SameShape (fs.modifyHead u) fs := by
  cases fs <;> simp [SameShape, h]

theorem length_eq (h : SameShape fs gs) : fs.length = gs.length := by
  simpa using congrArg List.length h

theorem contiguous (h : SameShape fs gs) (hc : Contiguous a gs b) : Contiguous a fs b := by
  induction gs generalizing a fs
  case nil =>
    rw [map_eq_nil_iff.mp h]
    exact hc
  case cons g gs ih =>
    obtain ⟨f, fs, rfl, hf, h⟩ := map_eq_cons_iff.mp h
    obtain ⟨hq, hl, hp, -⟩ := Flight.shape_eq_iff.mp hf
    refine ⟨hq.trans hc.left, ih h ?_⟩
    have he : f.end = g.end := by simp [Flight.end, hq, hl, hp]
    exact he ▸ hc.right

theorem sizes_eq (h : SameShape fs gs) : sizes fs = sizes gs := by
  have hs : Flight.size = (fun s : U32 × U8 × List U8 × Bool =>
      s.2.2.1.length + (has s.2.1 SYN).toNat + (has s.2.1 FIN).toNat) ∘ Flight.shape := rfl
  simp only [sizes, hs, ← map_map, show fs.map Flight.shape = gs.map Flight.shape from h]

theorem payload_eq (h : SameShape fs gs) : fs.flatMap (·.payload) = gs.flatMap (·.payload) := by
  have hp : Flight.payload = (fun s : U32 × U8 × List U8 × Bool => s.2.2.1) ∘ Flight.shape := rfl
  simp only [flatMap_def, hp, ← map_map,
    show fs.map Flight.shape = gs.map Flight.shape from h]

-- Whatever only depends on the shape of a flight carries over.
theorem exists_shape (h : SameShape fs gs) {f : Flight} (hf : f ∈ fs) :
    ∃ g ∈ gs, f.shape = g.shape := by
  have := mem_map_of_mem (f := Flight.shape) hf
  rw [show fs.map Flight.shape = gs.map Flight.shape from h] at this
  simpa [eq_comm] using this

end SameShape

-- Takes the first `k` sequence numbers off a list of flights.
def dropAcked (k : Nat) : List Flight → List Flight
  | [] => []
  | f :: fs =>
    if k = 0 then
      f :: fs
    else if f.size ≤ k then
      dropAcked (k - f.size) fs
    else
      { f with
        payload     := f.payload.drop k
        sequence    := f.sequence + BitVec.ofNat 32 k
        rttEligible := false } :: fs

namespace dropAcked

variable {a b : U32} {k : Nat} {f g : Flight} {fs : List Flight}

@[simp]
theorem zero : dropAcked 0 fs = fs := by
  cases fs <;> simp [dropAcked]

theorem cons_of_le (h : f.size ≤ k) (hk : k ≠ 0) :
    dropAcked k (f :: fs) = dropAcked (k - f.size) fs := by
  simp [dropAcked, h, hk]

theorem all (hp : ∀ f ∈ fs, f.Proper) : dropAcked (sizes fs) fs = [] := by
  induction fs
  case nil => rfl
  case cons f fs ih =>
    have := (hp f (by simp)).size_pos
    rw [cons_of_le (by simp) (by simp; omega), sizes_cons, Nat.add_sub_cancel_left]
    exact ih (fun f hf => hp f (by simp [hf]))

-- A flight that is cut into keeps everything but its first bytes.
theorem partial_size (h : f.Proper) (hk : k < f.size) (hk' : k ≠ 0) :
    ({ f with payload := f.payload.drop k, sequence := b, rttEligible := false } : Flight).IsData ∧
    ({ f with payload := f.payload.drop k, sequence := b, rttEligible := false } : Flight).size =
      f.size - k := by
  have hd := h.isData (by omega)
  have hl := hd.size_eq
  have hd' : ({ f with payload := f.payload.drop k, sequence := b, rttEligible := false } :
      Flight).IsData := {
    flags   := hd.flags
    payload := by simp only [ne_eq, drop_eq_nil_iff]; omega
  }
  refine ⟨hd', ?_⟩
  rw [hd'.size_eq, length_drop, hl]

theorem contiguous (hp : ∀ f ∈ fs, f.Proper) (hc : Contiguous a fs b) (hk : k ≤ sizes fs) :
    Contiguous (a + BitVec.ofNat 32 k) (dropAcked k fs) b := by
  induction fs generalizing a k
  case nil =>
    simp only [sizes_nil, Nat.le_zero_eq] at hk
    simpa [hk, dropAcked] using hc
  case cons f fs ih =>
    simp only [mem_cons, forall_eq_or_imp] at hp
    obtain ⟨rfl, hc⟩ := hc
    simp only [sizes_cons] at hk
    simp only [dropAcked]
    split
    case isTrue h => simpa [h] using hc
    split
    case isTrue h =>
      have := ih hp.right hc (k := k - f.size) (by omega)
      rwa [f.end_eq, BitVec.add_assoc, ← BitVec.ofNat_add, Nat.add_sub_cancel' h] at this
    case isFalse hk' h =>
      refine ⟨rfl, ?_⟩
      rw [Flight.end_eq, (partial_size hp.left (by omega) hk').right]
      simp only [BitVec.add_assoc, ← BitVec.ofNat_add]
      rwa [Nat.add_sub_cancel' (by omega), ← f.end_eq]

theorem sizes_eq (hp : ∀ f ∈ fs, f.Proper) (hk : k ≤ sizes fs) :
    sizes (dropAcked k fs) = sizes fs - k := by
  induction fs generalizing k
  case nil => simp [dropAcked]
  case cons f fs ih =>
    simp only [mem_cons, forall_eq_or_imp] at hp
    simp only [sizes_cons] at hk
    simp only [dropAcked]
    split
    case isTrue h => simp [h]
    split
    case isTrue h =>
      rw [ih hp.right (by omega), sizes_cons]
      omega
    case isFalse hk' h =>
      rw [sizes_cons, (partial_size hp.left (by omega) hk').right, sizes_cons]
      omega

theorem payload_suffix (k : Nat) (fs : List Flight) :
    (dropAcked k fs).flatMap (·.payload) <:+ fs.flatMap (·.payload) := by
  induction fs generalizing k
  case nil => simp [dropAcked]
  case cons f fs ih =>
    simp only [dropAcked]
    split
    case isTrue => exact suffix_refl _
    split
    case isTrue => exact (ih _).trans (by simp)
    case isFalse =>
      exact ⟨f.payload.take k, by simp [← append_assoc]⟩

theorem length_le (k : Nat) (fs : List Flight) : (dropAcked k fs).length ≤ fs.length := by
  induction fs generalizing k
  case nil => simp [dropAcked]
  case cons f fs ih =>
    simp only [dropAcked]
    split
    case isTrue => exact Nat.le_refl _
    split
    case isTrue  => exact Nat.le_succ_of_le (ih _)
    case isFalse => simp

-- The remaining flights stem from the previous ones.
theorem exists_mem (h : g ∈ dropAcked k fs) :
    ∃ f ∈ fs, g.flags = f.flags ∧ g.transmissions = f.transmissions ∧ g.rto = f.rto ∧
      g.payload.length ≤ f.payload.length ∧ (f.Proper → g.Proper) ∧ (f.IsData → g.IsData) := by
  induction fs generalizing k
  case nil => simp [dropAcked] at h
  case cons f fs ih =>
    simp only [dropAcked] at h
    split at h
    case isTrue => exact ⟨g, h, rfl, rfl, rfl, Nat.le_refl _, id, id⟩
    split at h
    case isTrue =>
      obtain ⟨f', hf', h⟩ := ih h
      exact ⟨f', by simp [hf'], h⟩
    case isFalse hk hs =>
      rcases mem_cons.mp h with rfl | h
      case inl =>
        have hd := fun hf : f.Proper =>
          (partial_size (b := f.sequence + BitVec.ofNat 32 k) hf (by omega) hk).left
        exact ⟨f, by simp, rfl, rfl, rfl, by simp, fun hf => .inr (.inl (hd hf)),
          fun hf => hd (.inr (.inl hf))⟩
      case inr => exact ⟨g, by simp [h], rfl, rfl, rfl, Nat.le_refl _, id, id⟩

end dropAcked

theorem Tcp.has_or (a b m : U8) : has (a ||| b) m = (has a m || has b m) := by
  simp only [has, BitVec.and_or_distrib_right]
  rw [Bool.eq_iff_iff]
  simp only [bne_iff_ne, ne_eq, Bool.or_eq_true, ← not_and_or]
  exact not_congr BitVec.or_eq_zero_iff

namespace Connection

variable {a b s : U32} {k : Nat} {now : Duration} {fs us : List Flight}

-- The scan sees an acknowledgment number at distance `k` from the front.
theorem before_front (hk : k ≤ 65535) : before a (a + BitVec.ofNat 32 k) = true ↔ k ≠ 0 := by
  have := before_offsets a (x := 0) (y := k) (by omega) (by omega)
  simp only [BitVec.add_zero] at this
  rw [this, Nat.pos_iff_ne_zero]

theorem before_end {f : Flight} (hk : k ≤ 65535) (hs : f.size ≤ 65535) :
    before (f.sequence + BitVec.ofNat 32 k) f.end = true ↔ k < f.size := by
  rw [f.end_eq, before_offsets f.sequence (by omega) (by omega)]

-- As long as it stays within the flights that have been sent, the scan takes exactly the
-- acknowledged sequence numbers off the front, and never returns early.
theorem ackFlights_spec (now : Duration) (acc : AckScan) (hp : ∀ f ∈ fs, f.Proper)
    (hc : Contiguous a fs s) (hu : Contiguous s us b) (hs : sizes fs ≤ 65535) (hk : k ≤ sizes fs) :
    (ackFlights (a + BitVec.ofNat 32 k) now acc (fs ++ us)).flights = dropAcked k fs ++ us ∧
    (ackFlights (a + BitVec.ofNat 32 k) now acc (fs ++ us)).early = acc.early ∧
    (ackFlights (a + BitVec.ofNat 32 k) now acc (fs ++ us)).acknowledgedPayload
        + ((dropAcked k fs).flatMap (·.payload)).length
      = acc.acknowledgedPayload + (fs.flatMap (·.payload)).length ∧
    (∀ m, has (ackFlights (a + BitVec.ofNat 32 k) now acc (fs ++ us)).completedFlags m →
      has acc.completedFlags m ∨ ∃ f ∈ fs, has f.flags m) := by
  induction fs generalizing a k acc
  case nil =>
    obtain rfl : k = 0 := by simpa using hk
    obtain rfl : a = s := hc
    cases us
    case nil => simp [ackFlights, dropAcked]
    case cons u us =>
      obtain ⟨rfl, -⟩ := hu
      simp +contextual [ackFlights, dropAcked]
  case cons f fs ih =>
    simp only [mem_cons, forall_eq_or_imp] at hp
    obtain ⟨rfl, hc⟩ := hc
    simp only [sizes_cons] at hs hk
    simp only [cons_append, ackFlights, dropAcked]
    by_cases hk₀ : k = 0
    case pos => simp +contextual [hk₀]
    case neg =>
      have hb : before f.sequence (f.sequence + BitVec.ofNat 32 k) = true :=
        (before_front (by omega)).mpr hk₀
      by_cases hf : f.size ≤ k
      case pos =>
        -- The flight is acknowledged as a whole, and the scan continues behind it.
        have he : before (f.sequence + BitVec.ofNat 32 k) f.end = false := by
          rw [← Bool.not_eq_true, before_end (by omega) (by omega)]; omega
        have ha : f.sequence + BitVec.ofNat 32 k = f.end + BitVec.ofNat 32 (k - f.size) := by
          rw [f.end_eq, BitVec.add_assoc, ← BitVec.ofNat_add, Nat.add_sub_cancel' hf]
        simp only [hb, he, hk₀, hf, Bool.not_true, Bool.false_eq_true, if_false, Bool.not_false,
          if_true]
        rw [ha]
        have h := fun acc => ih (k := k - f.size) acc hp.right hc (by omega) (by omega)
        refine ⟨(h _).left, (h _).right.left, ?_, ?_⟩
        case refine_1 =>
          rw [(h _).right.right.left, flatMap_cons, length_append, Nat.add_assoc]
        case refine_2 =>
          intro m hm
          have := (h _).right.right.right m hm
          simp only [has_or, Bool.or_eq_true, exists_mem_cons_iff] at this ⊢
          tauto
      case neg =>
        -- The flight is cut into, which only happens to data.
        have he : before (f.sequence + BitVec.ofNat 32 k) f.end = true :=
          (before_end (by omega) (by omega)).mpr (by omega)
        have hd : (f.sequence + BitVec.ofNat 32 k - f.sequence).toNat = k :=
          dist_add_ofNat f.sequence (by omega)
        have hl := (hp.left.isData (by omega)).size_eq
        have hc' : ¬k > f.payload.length := by omega
        simp only [hb, he, hd, hk₀, hf, hc', Bool.not_true, Bool.false_eq_true, if_false]
        refine ⟨by simp, trivial, ?_, fun m hm => .inl hm⟩
        simp only [flatMap_cons, length_append, length_drop]
        omega

-- A flight is taken off by the acknowledgment of its single sequence number.
theorem ackFlights_single {f : Flight} (acc : AckScan) (hs : f.size = 1) :
    ackFlights f.end now acc [f] = {
      acc with
      flights             := []
      completedFlags      := acc.completedFlags ||| f.flags
      sample              :=
        if f.transmissions = 1 ∧ f.rttEligible then f.lastSent.map now.saturatingSub else acc.sample
      ambiguous           := acc.ambiguous || (!f.rttEligible || f.transmissions > 1)
      acknowledgedPayload := acc.acknowledgedPayload + f.payload.length
    } := by
  have hb : before f.sequence f.end = true := by
    rw [f.end_eq, hs]; exact (before_front (by omega)).mpr (by omega)
  simp [ackFlights, hb]

end Connection
