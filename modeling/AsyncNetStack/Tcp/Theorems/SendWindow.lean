import AsyncNetStack.Tcp.Theorems.Flights

open Serial Tcp List

theorem List.map_set_of_eq {α β : Type*} {l : List α} {i : Nat} {a a' : α} {g : α → β}
    (hi : l[i]? = some a) (h : g a' = g a) : (l.set i a').map g = l.map g := by
  obtain ⟨hl, rfl⟩ := List.getElem?_eq_some_iff.mp hi
  rw [map_set, h, ← getElem_map g (h := by simpa using hl), set_getElem_self]

namespace SameShape

variable {fs gs hs : List Flight}

theorem trans (h₁ : SameShape fs gs) (h₂ : SameShape gs hs) : SameShape fs hs :=
  Eq.trans h₁ h₂

theorem set {i : Nat} {f f' : Flight} (hi : fs[i]? = some f) (h : f'.shape = f.shape) :
    SameShape (fs.set i f') fs :=
  map_set_of_eq hi h

theorem append_right (h : SameShape fs (gs ++ hs)) :
    ∃ gs' hs', fs = gs' ++ hs' ∧ SameShape gs' gs ∧ SameShape hs' hs := by
  rw [SameShape, map_append, map_eq_append_iff] at h
  obtain ⟨gs', hs', rfl, h₁, h₂⟩ := h
  exact ⟨gs', hs', rfl, h₁, h₂⟩

theorem forall_shape {p : Flight → Prop} (hp : ∀ f g, f.shape = g.shape → p g → p f)
    (h : SameShape fs gs) (hg : ∀ g ∈ gs, p g) : ∀ f ∈ fs, p f := by
  intro f hf
  obtain ⟨g, hm, hs⟩ := h.exists_shape hf
  exact hp f g hs (hg g hm)

end SameShape

namespace Flight

variable {f g : Flight}

theorem sent_congr (h : f.shape = g.shape) (hg : g.transmissions ≠ 0) : f.transmissions ≠ 0 :=
  mt (shape_eq_iff.mp h).right.right.right.mp hg

theorem unsent_congr (h : f.shape = g.shape) (hg : g.transmissions = 0) : f.transmissions = 0 :=
  (shape_eq_iff.mp h).right.right.right.mpr hg

-- What kind of flight it is only depends on its content.
def content (f : Flight) : U8 × List U8 :=
  (f.flags, f.payload)

theorem content_congr (h : f.shape = g.shape) : f.content = g.content := by
  obtain ⟨-, hf, hp, -⟩ := shape_eq_iff.mp h
  rw [content, hf, hp, content]

theorem IsSyn.congr (h : f.content = g.content) (hg : g.IsSyn) : f.IsSyn := by
  obtain ⟨hf, hp⟩ := Prod.mk.inj h
  exact ⟨hf ▸ hg.flags, hp ▸ hg.payload⟩

theorem IsData.congr (h : f.content = g.content) (hg : g.IsData) : f.IsData := by
  obtain ⟨hf, hp⟩ := Prod.mk.inj h
  exact ⟨hf ▸ hg.flags, hp ▸ hg.payload⟩

theorem IsFin.congr (h : f.content = g.content) (hg : g.IsFin) : f.IsFin := by
  obtain ⟨hf, hp⟩ := Prod.mk.inj h
  exact ⟨hf ▸ hg.flags, hp ▸ hg.payload⟩

theorem Proper.congr (h : f.content = g.content) (hg : g.Proper) : f.Proper :=
  hg.imp (.congr h) (.imp (.congr h) (.congr h))

end Flight

theorem sizes_data {fs : List Flight} (h : ∀ f ∈ fs, f.IsData) :
    sizes fs = (fs.flatMap (·.payload)).length := by
  induction fs
  case nil => rfl
  case cons f fs ih =>
    simp only [mem_cons, forall_eq_or_imp] at h
    simp [h.left.size_eq, ih h.right]

theorem SameShape.content_eq {fs gs : List Flight} (h : SameShape fs gs) :
    fs.map Flight.content = gs.map Flight.content := by
  have hc :
      Flight.content = (fun s : U32 × U8 × List U8 × Bool => (s.2.1, s.2.2.1)) ∘ Flight.shape :=
    rfl
  simp only [hc, ← map_map, show fs.map Flight.shape = gs.map Flight.shape from h]

-- The sequence numbers from `una` up to `next` are covered by flights. Those up to `sent` have been
-- sent, and behind them there is at most one flight that is yet to be sent.
structure SendWindow (una sent next : U32) (flights : List Flight) : Prop where
  span  : sizes flights ≤ 65535
  split : ∃ fs us, flights = fs ++ us ∧ us.length ≤ 1 ∧
    (∀ f ∈ fs, f.transmissions ≠ 0) ∧ (∀ f ∈ us, f.transmissions = 0) ∧
    Contiguous una fs sent ∧ Contiguous sent us next

namespace SendWindow

variable {una sent next ack : U32} {flights fs : List Flight} {f : Flight} {i k : Nat}

theorem empty (s : U32) : SendWindow s s s [] where
  span  := by simp
  split := ⟨[], [], by simp⟩

theorem single (hq : f.sequence = una) (he : f.end = next) (hs : f.size = 1)
    (hf : f.transmissions = 0) : SendWindow una una next [f] where
  span  := by simp [hs]
  split := ⟨[], [f], by simp [hf, hq, he]⟩

theorem contiguous (w : SendWindow una sent next flights) : Contiguous una flights next := by
  obtain ⟨fs, us, rfl, -, -, -, h₁, h₂⟩ := w.split
  exact Contiguous.append_iff.mpr ⟨sent, h₁, h₂⟩

theorem sameShape (w : SendWindow una sent next flights) (h : SameShape fs flights) :
    SendWindow una sent next fs where
  span  := h.sizes_eq ▸ w.span
  split := by
    obtain ⟨gs, us, rfl, hl, hs, hu, h₁, h₂⟩ := w.split
    obtain ⟨gs', us', rfl, hg, hu'⟩ := h.append_right
    exact ⟨gs', us', rfl, hu'.length_eq ▸ hl, hg.forall_shape (fun _ _ => Flight.sent_congr) hs,
      hu'.forall_shape (fun _ _ => Flight.unsent_congr) hu, hg.contiguous h₁, hu'.contiguous h₂⟩

theorem sent_eq (w : SendWindow una sent next flights) :
    ∃ n ≤ 65535, sent = una + BitVec.ofNat 32 n ∧ dist una sent = n := by
  obtain ⟨fs, us, rfl, -, -, -, h, -⟩ := w.split
  have := w.span
  simp only [sizes_append] at this
  exact ⟨sizes fs, by omega, h.eq_add, h.dist_eq (by omega)⟩

theorem sent_not_before_una (w : SendWindow una sent next flights) : before sent una = false := by
  obtain ⟨n, hn, -, hd⟩ := w.sent_eq
  rw [not_before_iff, hd]
  omega

-- If no flight waits to be sent, then everything has been sent.
theorem sent_eq_next (w : SendWindow una sent next flights)
    (h : ∀ f ∈ flights.getLast?, f.transmissions ≠ 0) :
    sent = next ∧ Contiguous una flights sent ∧ ∀ f ∈ flights, f.transmissions ≠ 0 := by
  obtain ⟨fs, us, rfl, hl, hs, hu, h₁, h₂⟩ := w.split
  cases us
  case nil => exact ⟨h₂, by simpa using h₁, by simpa using hs⟩
  case cons u us =>
    obtain rfl : us = [] := length_eq_zero_iff.mp (by simpa using hl)
    exact absurd (hu u (by simp)) (h u (by simp))

-- A flight that is yet to be sent is the last one.
theorem unsent_last (w : SendWindow una sent next flights)
    (hi : flights[i]? = some f) (hf : f.transmissions = 0) :
    ∃ fs, flights = fs ++ [f] ∧ i = fs.length ∧ (∀ f ∈ fs, f.transmissions ≠ 0) ∧
      Contiguous una fs sent ∧ f.sequence = sent ∧ f.end = next := by
  obtain ⟨fs, us, rfl, hl, hs, hu, h₁, h₂⟩ := w.split
  have hge : fs.length ≤ i := by
    by_contra h
    rw [List.getElem?_append_left (by omega)] at hi
    exact hs f (mem_of_getElem? hi) hf
  rw [List.getElem?_append_right hge] at hi
  have hlt := (List.getElem?_eq_some_iff.mp hi).fst
  obtain ⟨u, rfl⟩ := length_eq_one_iff.mp (show us.length = 1 by omega)
  obtain rfl : i = fs.length := by simp at hlt; omega
  obtain rfl : u = f := by simpa using hi
  exact ⟨fs, rfl, rfl, hs, h₁, h₂.left, h₂.right⟩

theorem end_not_after_sent (w : SendWindow una sent next flights)
    (hm : f ∈ flights) (hf : f.transmissions ≠ 0) : before sent f.end = false := by
  obtain ⟨fs, us, rfl, -, -, hu, h₁, -⟩ := w.split
  have hm : f ∈ fs := (mem_append.mp hm).resolve_right fun h => hf (hu f h)
  obtain ⟨l, r, rfl⟩ := append_of_mem hm
  have hs := w.span
  simp only [sizes_append, sizes_cons] at hs
  obtain ⟨m, hl, rfl, -⟩ := Contiguous.append_iff.mp h₁
  rw [h₁.eq_add, f.end_eq, hl.eq_add, BitVec.add_assoc, ← BitVec.ofNat_add,
    not_before_offsets una (by simp only [sizes_append, sizes_cons]; omega)
      (by simp only [sizes_append, sizes_cons]; omega)]
  simp

-- A new flight is appended behind the sent ones.
theorem push (w : SendWindow una sent next flights)
    (hl : ∀ f ∈ flights.getLast?, f.transmissions ≠ 0)
    (hq : f.sequence = next) (hf : f.transmissions = 0) (hs : sizes flights + f.size ≤ 65535) :
    SendWindow una sent f.end (flights ++ [f]) where
  span  := by simpa using hs
  split := by
    obtain ⟨rfl, hc, h⟩ := w.sent_eq_next hl
    exact ⟨flights, [f], rfl, by simp, h, by simpa using hf, hc, hq, rfl⟩

-- The flight that is yet to be sent may be replaced by another one.
theorem replace_unsent {f' : Flight} (w : SendWindow una sent next flights)
    (hi : flights[i]? = some f) (hf : f.transmissions = 0)
    (hq : f'.sequence = f.sequence) (hf' : f'.transmissions = 0) (hs : f'.size ≤ f.size) :
    SendWindow una sent f'.end (flights.set i f') := by
  obtain ⟨fs, rfl, rfl, h, hc, rfl, rfl⟩ := w.unsent_last hi hf
  have := w.span
  simp only [sizes_append, sizes_cons, sizes_nil] at this
  refine ⟨?span, fs, [f'], by simp, by simp, h, by simpa using hf', hc, hq, rfl⟩
  simp
  omega

-- The flight that is yet to be sent is sent.
theorem send {f' : Flight} (w : SendWindow una sent next flights)
    (hi : flights[i]? = some f) (hf : f.transmissions = 0) (hf' : f'.transmissions ≠ 0)
    (hq : f'.sequence = f.sequence) (hl : f'.flags = f.flags) (hp : f'.payload = f.payload) :
    SendWindow una next next (flights.set i f') := by
  obtain ⟨fs, rfl, rfl, h, hc, rfl, rfl⟩ := w.unsent_last hi hf
  have hs : f'.size = f.size := by simp [Flight.size, hl, hp]
  have he : f'.end = f.end := by simp [Flight.end, hq, hl, hp]
  have := w.span
  refine ⟨?span, fs ++ [f'], [], by simp, by simp, ?sent, by simp, ?contiguous, rfl⟩
  case span => simpa [hs] using this
  case sent =>
    intro g hg
    rcases mem_append.mp hg with hg | hg
    · exact h g hg
    · simpa [mem_singleton.mp hg] using hf'
  case contiguous => exact Contiguous.append_iff.mpr ⟨_, hc, hq, he⟩

-- An acknowledgment number between `una` and `sent` takes flights off the front.
theorem acknowledge (w : SendWindow una sent next flights) (hp : ∀ f ∈ flights, f.Proper)
    (h₁ : before sent ack = false) (h₂ : before ack una = false) :
    ∃ fs us k, flights = fs ++ us ∧ us.length ≤ 1 ∧ (∀ f ∈ us, f.transmissions = 0) ∧
      ack = una + BitVec.ofNat 32 k ∧ k ≤ sizes fs ∧
      Contiguous una fs sent ∧ Contiguous sent us next ∧
      SendWindow ack sent next (dropAcked k fs ++ us) := by
  obtain ⟨fs, us, rfl, hl, hs, hu, hc, hc'⟩ := w.split
  have hsp := w.span
  simp only [sizes_append, mem_append] at hsp hp
  have hk : dist una ack ≤ sizes fs := hc.dist_eq (by omega) ▸ dist_le_of_not_before h₁ h₂
  have hp' : ∀ f ∈ fs, f.Proper := fun f hf => hp f (.inl hf)
  refine ⟨fs, us, dist una ack, rfl, hl, hu, by simp, hk, hc, hc', ?span, dropAcked _ fs, us, rfl,
    hl, ?sent, hu, ?contiguous, hc'⟩
  case span =>
    rw [sizes_append, dropAcked.sizes_eq hp' hk]
    omega
  case sent =>
    intro g hg
    obtain ⟨f, hf, -, ht, -⟩ := dropAcked.exists_mem hg
    exact ht ▸ hs f hf
  case contiguous => simpa using dropAcked.contiguous hp' hc hk

end SendWindow
