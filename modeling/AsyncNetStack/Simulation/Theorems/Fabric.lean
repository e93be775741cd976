import AsyncNetStack.Simulation.Fabric

open List Option

theorem List.map_modify_at {α β : Type*} {l : List α} {i : Nat} {x : α} (h : l[i]? = some x)
    {f : α → α} {g : β → β} {k : α → β} (hc : k (f x) = g (k x)) :
    (l.modify i f).map k = (l.map k).modify i g := by
  refine ext_getElem? fun j => ?_
  simp only [List.getElem?_map, List.getElem?_modify]
  by_cases hij : i = j
  case pos => simp [← hij, h, hc]
  case neg => cases l[j]? <;> simp [hij]

theorem List.map_modify {α β : Type*} {f : α → α} {g : β → β} {k : α → β}
    (hc : ∀ x, k (f x) = g (k x)) (l : List α) (i : Nat) :
    (l.modify i f).map k = (l.map k).modify i g := by
  cases h : l[i]?
  case some x => exact map_modify_at h (hc x)
  case none =>
    have hlen := List.getElem?_eq_none_iff.mp h
    rw [modify_eq_self hlen, modify_eq_self (by simpa using hlen)]

theorem List.sum_map_modify {α : Type*} {l : List α} {i : Nat} {x : α} (h : l[i]? = some x)
    (f : α → α) (g : α → Nat) : ((l.modify i f).map g).sum + g x = (l.map g).sum + g (f x) := by
  induction l generalizing i
  case nil => cases h
  case cons y l ih =>
    cases i
    case zero =>
      cases h
      simp only [modify_zero_cons, map_cons, sum_cons]
      omega
    case succ i =>
      have := ih (i := i) h
      simp only [modify_succ_cons, map_cons, sum_cons]
      omega

-- The index commutes with a map of the elements.
theorem List.map_mapIdx_eq {α β γ δ : Type*} {f : Nat → α → γ} {g : Nat → β → δ} {h : α → β}
    {k : γ → δ} (hc : ∀ i x, k (f i x) = g i (h x)) (l : List α) :
    (l.mapIdx f).map k = (l.map h).mapIdx g := by
  refine ext_getElem? fun i => ?_
  simp only [List.getElem?_map, List.getElem?_mapIdx]
  cases l[i]?
  case none   => rfl
  case some x => simp [hc]

-- Splitting every element of a list in two splits the sum.
theorem List.sum_map_mapIdx {α β γ : Type*} (l : List α) {f : Nat → α → β} {g : Nat → α → γ}
    {a : α → Nat} {b : β → Nat} {c : γ → Nat} (h : ∀ i x, b (f i x) + c (g i x) = a x) :
    ((l.mapIdx f).map b).sum + ((l.mapIdx g).map c).sum = (l.map a).sum := by
  induction l generalizing f g
  case nil => rfl
  case cons x l ih =>
    have hx := h 0 x
    have hl := ih (f := fun i => f (i + 1)) (g := fun i => g (i + 1)) fun i => h (i + 1)
    simp only [mapIdx_cons, map_cons, sum_cons]
    omega

namespace Simulation.Fabric

variable {f f' : Fabric} {source n i j : Nat} {p : Pending} {lane : Lane}

def inFlight (f : Fabric) : Nat :=
  (f.lanes.map (·.queue.length)).sum

-- All frames that the fabric has ever accepted.
def total (f : Fabric) : Nat :=
  f.settled + f.inFlight

theorem Transit.trans {g h : Fabric} {m : Nat} (h₁ : Transit source f m g)
    (h₂ : Transit source g n h) : Transit source f (m + n) h := by
  induction h₂
  case refl                      => exact h₁
  case settle ih                 => exact ih.settle
  case enqueue hl ho hroom hd ih => exact ih.enqueue hl ho hroom hd

theorem Transit.total_eq (h : Transit source f n f') : f'.total = f.total + n := by
  induction h
  case refl => rfl
  case settle g _ ih =>
    simp only [total, inFlight, Fabric.settle] at *
    omega
  case enqueue target g lane frame deliverAt _ hl _ _ _ ih =>
    have := sum_map_modify hl (·.push ⟨deliverAt, source, frame, g.serial⟩) (·.queue.length)
    simp only [Lane.push, length_append, length_singleton] at this
    simp only [total, inFlight, Fabric.enqueue, Lane.push] at *
    omega

theorem sum_modify_eq {g : Lane → Lane} (h : ∀ lane, (g lane).queue = lane.queue) (i : Nat)
    (lanes : List Lane) :
    ((lanes.modify i g).map (·.queue.length)).sum = (lanes.map (·.queue.length)).sum := by
  rw [map_modify (g := id) (fun lane => by rw [h]; rfl), modify_id]

theorem total_disconnect (f : Fabric) (id : Nat) : (f.disconnect id).total = f.total := by
  have hsplit := sum_map_mapIdx (f.lanes.modify id .goOffline)
    (a := (·.queue.length)) (b := fun lane : Lane => lane.queue.length) (c := List.length)
    fun i lane => lane.length_retain (Network.unrelated id i)
  rw [sum_modify_eq (g := .goOffline) fun _ => rfl] at hsplit
  simp only [total, inFlight, disconnect, length_flatten]
  omega

theorem total_shutdown (f : Fabric) : f.shutdown.total = f.total := by
  simp [total, inFlight, shutdown, Function.comp_def, length_flatMap]

theorem Change.total_eq (h : Change f f') : f'.total = f.total := by
  cases h
  case tick           => rfl
  case join lane hq _ => simp [total, inFlight, hq]
  case recv max id lane hl =>
    have := sum_map_modify hl (·.drain f.now max) (·.queue.length)
    have := lane.length_drain f.now max
    simp only [total, inFlight, settle]
    omega
  case keep id g hg => simp [total, inFlight, sum_modify_eq (fun lane => (hg lane).queue)]
  case disconnect id => exact total_disconnect f id
  case shutdown      => exact total_shutdown f

-- The invariant: apart from what holds on every lane, frames are only queued between online lanes.
structure Sound (f : Fabric) : Prop where
  lanes  : ∀ lane ∈ f.lanes, lane.Sound f.now f.serial
  online : ∀ (i : Nat) (lane : Lane), f.lanes[i]? = some lane → ∀ p ∈ lane.queue,
            lane.online ∧ f.isOnline p.source

def Queued (f : Fabric) (i : Nat) (p : Pending) : Prop :=
  ∃ lane, f.lanes[i]? = some lane ∧ p ∈ lane.queue

theorem getElem?_modify_cases {lanes : List Lane} {g : Lane → Lane} {lane : Lane}
    (h : (lanes.modify i g)[j]? = some lane) :
    ∃ lane₀, lanes[j]? = some lane₀ ∧ lane = if i = j then g lane₀ else lane₀ := by
  rw [List.getElem?_modify] at h
  obtain ⟨lane₀, hl, rfl⟩ := map_eq_some_iff.mp h
  exact ⟨lane₀, hl, rfl⟩

-- A lane that stays online if it was is enough for `isOnline`.
theorem isOnline_modify {g : Lane → Lane} (hg : ∀ lane, lane.online → (g lane).online)
    (h : f.isOnline j) : isOnline { f with lanes := f.lanes.modify i g } j := by
  simp only [isOnline, List.getElem?_modify] at *
  cases hl : f.lanes[j]?
  case none => simp [hl] at h
  case some lane =>
    rw [hl, any_some] at h
    by_cases hij : i = j
    case pos => simpa [hij] using hg lane h
    case neg => simpa [hij] using h

theorem Sound.enqueue (h : Sound f) {target : Nat} {frame : PacketBuf} {deliverAt : Duration}
    (hs : f.isOnline source) (hl : f.lanes[target]? = some lane) (ho : lane.online)
    (hroom : lane.queue.length ≠ lane.capacity) (hd : f.now ≤ deliverAt) :
    Sound (f.enqueue source target frame deliverAt) where
  lanes l hmem := by
    obtain ⟨j, hj⟩ := mem_iff_getElem?.mp hmem
    obtain ⟨l₀, hl₀, rfl⟩ := getElem?_modify_cases hj
    have hsound := h.lanes l₀ (mem_of_getElem? hl₀)
    split
    case isTrue heq =>
      obtain rfl : lane = l₀ := Option.some.inj (hl.symm.trans (heq ▸ hl₀))
      exact hsound.push hroom hd rfl
    case isFalse => exact hsound.mono le_rfl (Nat.le_succ _)
  online j l hj p hp := by
    obtain ⟨l₀, hl₀, rfl⟩ := getElem?_modify_cases hj
    have hsource {k : Nat} (hk : f.isOnline k) :
        (f.enqueue source target frame deliverAt).isOnline k :=
      isOnline_modify (fun _ => id) hk
    split at hp
    case isFalse hne =>
      have ⟨h₁, h₂⟩ := h.online j l₀ hl₀ p hp
      exact ⟨by rwa [if_neg hne], hsource h₂⟩
    case isTrue heq =>
      obtain rfl : lane = l₀ := Option.some.inj (hl.symm.trans (heq ▸ hl₀))
      refine ⟨by rwa [if_pos heq], ?_⟩
      rcases mem_append.mp hp with hp | hp
      case inl => exact hsource (h.online j lane hl₀ p hp).right
      rw [mem_singleton.mp hp]
      exact hsource hs

theorem Transit.isOnline (h : Transit source f n f') (ho : f.isOnline i) : f'.isOnline i := by
  induction h
  case refl       => exact ho
  case settle ih  => exact ih
  case enqueue ih => exact isOnline_modify (fun _ => id) ih

theorem Transit.sound (h : Transit source f n f') (hs : f.isOnline source) (hf : Sound f) :
    Sound f' := by
  induction h
  case refl                         => exact hf
  case settle ih                    => exact ⟨ih.lanes, ih.online⟩
  case enqueue ht hl ho hroom hd ih => exact ih.enqueue (ht.isOnline hs) hl ho hroom hd

theorem Transit.length_lanes (h : Transit source f n f') : f'.lanes.length = f.lanes.length := by
  induction h
  case refl       => rfl
  case settle ih  => exact ih
  case enqueue ih => exact (length_modify ..).trans ih

theorem Transit.serial_le (h : Transit source f n f') : f.serial ≤ f'.serial := by
  induction h
  case refl       => exact le_rfl
  case settle ih  => exact ih
  case enqueue ih => exact ih.trans (Nat.le_succ _)

-- A queued frame was queued before, or is one of those that were sent.
theorem Transit.queued (h : Transit source f n f') (hq : f'.Queued i p) :
    f.Queued i p ∨ p.source = source ∧ f.serial ≤ p.serial ∧ p.serial < f'.serial := by
  induction h
  case refl      => exact .inl hq
  case settle ih => exact ih hq
  case enqueue target g lane frame deliverAt ht hl _ _ _ ih =>
    obtain ⟨l, hj, hp⟩ := hq
    obtain ⟨l₀, hl₀, rfl⟩ := getElem?_modify_cases hj
    have hold (hp : p ∈ l₀.queue) := (ih ⟨l₀, hl₀, hp⟩).imp_right fun ⟨h₁, h₂, h₃⟩ =>
      (⟨h₁, h₂, Nat.lt_succ_of_lt h₃⟩ : _ ∧ _ ∧ p.serial < g.serial + 1)
    split at hp
    case isFalse => exact hold hp
    rcases mem_append.mp hp with hp | hp
    case inl => exact hold hp
    rw [mem_singleton.mp hp]
    exact .inr ⟨rfl, ht.serial_le, Nat.lt_succ_self _⟩

-- All lanes of the result, in terms of those before. Only a new lane is not related to one of them.
theorem getElem?_disconnect {id : Nat} (h : (f.disconnect id).lanes[i]? = some lane) :
    ∃ l, f.lanes[i]? = some l ∧
      lane = (if id = i then l.goOffline else l).retain (Network.unrelated id i) := by
  simp only [disconnect, List.getElem?_mapIdx] at h
  obtain ⟨l, hl, rfl⟩ := map_eq_some_iff.mp h
  obtain ⟨l₀, hl₀, rfl⟩ := getElem?_modify_cases hl
  exact ⟨l₀, hl₀, rfl⟩

theorem getElem?_shutdown (h : f.shutdown.lanes[i]? = some lane) :
    ∃ l, f.lanes[i]? = some l ∧ lane = { l.goOffline with queue := [] } := by
  simp only [shutdown, List.getElem?_map] at h
  obtain ⟨l, hl, rfl⟩ := map_eq_some_iff.mp h
  exact ⟨l, hl, rfl⟩

theorem getElem?_join {l : Lane} (h : (f.lanes ++ [l])[i]? = some lane) :
    f.lanes[i]? = some lane ∨ lane = l := by
  rw [List.getElem?_append] at h
  split at h
  case isTrue  => exact .inl h
  case isFalse => exact .inr (mem_singleton.mp (mem_of_getElem? h))

theorem Change.queued (h : Change f f') (hq : f'.Queued i p) : f.Queued i p := by
  obtain ⟨lane, hl, hp⟩ := hq
  cases h
  case tick => exact ⟨lane, hl, hp⟩
  case join l hempty _ =>
    rcases getElem?_join hl with hl | rfl
    case inl => exact ⟨lane, hl, hp⟩
    case inr => simp [hempty] at hp
  case recv max id l _ =>
    obtain ⟨l₀, hl₀, rfl⟩ := getElem?_modify_cases hl
    refine ⟨l₀, hl₀, ?_⟩
    split at hp
    case isTrue  => exact Lane.mem_drain hp
    case isFalse => exact hp
  case keep id g hg =>
    obtain ⟨l₀, hl₀, rfl⟩ := getElem?_modify_cases hl
    refine ⟨l₀, hl₀, ?_⟩
    split at hp
    case isTrue  => rwa [(hg l₀).queue] at hp
    case isFalse => exact hp
  case disconnect id =>
    obtain ⟨l₀, hl₀, rfl⟩ := getElem?_disconnect hl
    refine ⟨l₀, hl₀, ?_⟩
    have := (mem_filter.mp hp).left
    split at this <;> exact this
  case shutdown =>
    obtain ⟨l₀, _, rfl⟩ := getElem?_shutdown hl
    cases hp

theorem Kept.sound {l₁ l₂ : Lane} {now : Duration} {serial : Nat} (h : Kept l₁ l₂)
    (hs : l₁.Sound now serial) : l₂.Sound now serial where
  bounded  := by rw [h.queue, h.capacity]; exact hs.bounded
  timely   := by rw [h.queue, h.drained]; exact hs.timely
  punctual := by rw [h.drained]; exact hs.punctual

theorem Change.lanes (h : Change f f') (hf : ∀ lane ∈ f.lanes, lane.Sound f.now f.serial) :
    ∀ lane ∈ f'.lanes, lane.Sound f'.now f'.serial := by
  intro lane hmem
  obtain ⟨i, hl⟩ := mem_iff_getElem?.mp hmem
  have hold {l : Lane} {i : Nat} (hl : f.lanes[i]? = some l) := hf l (mem_of_getElem? hl)
  cases h
  case tick hle => exact (hold hl).mono hle le_rfl
  case join l hempty hdrained =>
    rcases getElem?_join hl with hl | rfl
    case inl => exact hold hl
    refine ⟨by simp [hempty], ?_, by simp [hdrained]⟩
    rw [hempty, hdrained]
    exact .nil ..
  case recv max id l _ =>
    obtain ⟨l₀, hl₀, rfl⟩ := getElem?_modify_cases hl
    split
    case isTrue  => exact (hold hl₀).drain max
    case isFalse => exact hold hl₀
  case keep id g hg =>
    obtain ⟨l₀, hl₀, rfl⟩ := getElem?_modify_cases hl
    split
    case isTrue  => exact (hg l₀).sound (hold hl₀)
    case isFalse => exact hold hl₀
  case disconnect id =>
    obtain ⟨l₀, hl₀, rfl⟩ := getElem?_disconnect hl
    have hsound := hold hl₀
    refine Lane.Sound.retain ?_ _
    split
    case isTrue  => exact ⟨hsound.bounded, hsound.timely, hsound.punctual⟩
    case isFalse => exact hsound
  case shutdown =>
    obtain ⟨l₀, hl₀, rfl⟩ := getElem?_shutdown hl
    have hsound := hold hl₀
    exact ⟨Nat.zero_le _, hsound.timely.sublist (nil_sublist _), hsound.punctual⟩

-- Frames that survive a disconnection are not from the lane that went offline.
theorem isOnline_disconnect {id : Nat} (hne : i ≠ id) :
    (f.disconnect id).isOnline i = f.isOnline i := by
  simp only [isOnline, disconnect, List.getElem?_mapIdx, List.getElem?_modify, if_neg hne.symm]
  cases f.lanes[i]? <;> rfl

theorem isOnline_disconnect_self : (f.disconnect i).isOnline i = false := by
  simp only [isOnline, disconnect, List.getElem?_mapIdx, List.getElem?_modify, if_pos]
  cases f.lanes[i]? <;> rfl

theorem isOnline_join {l : Lane} (h : f.isOnline i) :
    isOnline { f with lanes := f.lanes ++ [l] } i := by
  simp only [isOnline] at *
  cases hl : f.lanes[i]?
  case none => simp [hl] at h
  case some lane =>
    rw [List.getElem?_append_left (List.getElem?_eq_some_iff.mp hl).fst]
    exact h

theorem Change.online (h : Change f f') (hf : Sound f) {lane : Lane} (hl : f'.lanes[i]? = some lane)
    (hp : p ∈ lane.queue) : lane.online ∧ f'.isOnline p.source := by
  obtain ⟨l, hl', hp'⟩ := h.queued ⟨lane, hl, hp⟩
  have ⟨ho, hs⟩ := hf.online i l hl' p hp'
  cases h
  case tick =>
    obtain rfl : l = lane := Option.some.inj (hl'.symm.trans hl)
    exact ⟨ho, hs⟩
  case join =>
    rcases getElem?_join hl with hl | rfl
    case inr hempty _ => simp [hempty] at hp
    obtain rfl : l = lane := Option.some.inj (hl'.symm.trans hl)
    exact ⟨ho, isOnline_join hs⟩
  case recv max id _ _ =>
    obtain ⟨l₀, hl₀, rfl⟩ := getElem?_modify_cases hl
    obtain rfl : l = l₀ := Option.some.inj (hl'.symm.trans hl₀)
    exact ⟨by split <;> exact ho, isOnline_modify (fun _ ho => ho) hs⟩
  case keep id g hg =>
    obtain ⟨l₀, hl₀, rfl⟩ := getElem?_modify_cases hl
    obtain rfl : l = l₀ := Option.some.inj (hl'.symm.trans hl₀)
    refine ⟨?_, isOnline_modify (fun lane => (hg lane).online) hs⟩
    split
    case isTrue  => exact (hg l).online ho
    case isFalse => exact ho
  case disconnect id =>
    obtain ⟨l₀, hl₀, rfl⟩ := getElem?_disconnect hl
    obtain rfl : l = l₀ := Option.some.inj (hl'.symm.trans hl₀)
    have ⟨hi, hsource⟩ : i ≠ id ∧ p.source ≠ id := by
      simpa [Network.unrelated] using (mem_filter.mp hp).right
    exact ⟨by rwa [if_neg hi.symm], by rwa [isOnline_disconnect hsource]⟩
  case shutdown =>
    obtain ⟨l₀, _, rfl⟩ := getElem?_shutdown hl
    cases hp

theorem Change.sound (h : Change f f') (hf : Sound f) : Sound f' :=
  ⟨h.lanes hf.lanes, fun _ _ hl _ hp => h.online hf hl hp⟩

theorem Changes.sound (h : Changes f f') (hf : Sound f) : Sound f' := by
  induction h
  case refl       => exact hf
  case tail hc ih => exact hc.sound ih

theorem Changes.total_eq (h : Changes f f') : f'.total = f.total := by
  induction h
  case refl       => rfl
  case tail hc ih => exact hc.total_eq.trans ih

theorem Changes.queued (h : Changes f f') (hq : f'.Queued i p) : f.Queued i p := by
  induction h
  case refl       => exact hq
  case tail hc ih => exact ih (hc.queued hq)

end Simulation.Fabric
