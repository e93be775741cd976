import AsyncNetStack.Lib.Keys
import AsyncNetStack.Net.Theorems.Neighbor

open Fallible Std List Option

namespace EthernetIpv4

variable {δ : Type} {e e' e'' : EthernetIpv4 δ} {ip ip' : Ipv4Addr} {t : Duration}
  {state : NeighborState}

-- No packet waits for a next hop whose link address is known.
def Released (e : EthernetIpv4 δ) : Prop :=
  ∀ p ∈ e.pending, e.resolved p.nextHop = none

theorem Released.of_nil (h : e.pending = []) : Released e := by
  simp [Released, h]

theorem Aside.released (ha : Aside e e') (h : Released e) : Released e' := by
  intro p hp
  rw [ha.resolved]
  exact h p (ha.pending ▸ hp)

theorem releaseResolved_released (e : EthernetIpv4 δ) : Released e.releaseResolved := by
  rw [releaseResolved_eq]
  intro p hp
  exact isNone_iff_eq_none.mp (mem_filter.mp hp).right

theorem resolved_resolve (h : e.resolved ip = none) (ip' : Ipv4Addr) :
    (e.resolve ip').resolved ip = none := by
  rw [resolve]
  split
  case isTrue => exact h
  rw [resolved]
  by_cases heq : ip' = ip
  case pos => simp [heq, NeighborState.mac]
  case neg =>
    rw [getElem?_insert_other heq]
    exact h

theorem Accepts.released {serial : Nat} (ha : Accepts e serial e') (h : Released e) :
    Released e' := by
  cases ha
  case ready ha => exact ha.released h
  case pending p _ hr _ _ ha =>
    refine ha.released fun q hq => ?_
    rw [hold, (resolve_aside e p.nextHop).left] at hq
    rcases mem_append.mp hq with hq | hq
    case inl => exact resolved_resolve (h q hq) p.nextHop
    rw [mem_singleton.mp hq]
    exact resolved_resolve hr p.nextHop

theorem send_released (slots : List PacketBuf) (h : Released e) : Released (e.send slots).fst := by
  have hsend := sendSlots_sends e slots
  rw [send]
  generalize e.sendSlots slots = o at hsend
  cases hsend
  case refused ha => exact ha.released h
  case accepted e₁ k _ _ ha =>
    refine ha.released ?_
    exact acceptAll_induction (P := fun e _ => Released e) (slots.take k)
      (fun _ _ _ _ ha h => ha.released h) h

-- Sending what is in the queues.
structure Flushes (e e' : EthernetIpv4 δ) : Prop where
  config    : e'.config = e.config
  neighbors : e'.neighbors = e.neighbors
  pending   : e'.pending = e.pending
  now       : e'.now = e.now
  control   : e'.control <:+ e.control
  ready     : e'.ready <:+ e.ready
  accepted  : e'.stats.acceptedIp = e.stats.acceptedIp

theorem Flushes.refl (e : EthernetIpv4 δ) : Flushes e e :=
  ⟨rfl, rfl, rfl, rfl, suffix_refl _, suffix_refl _, rfl⟩

theorem Flushes.trans (h₁ : Flushes e e') (h₂ : Flushes e' e'') : Flushes e e'' where
  config    := h₂.config.trans h₁.config
  neighbors := h₂.neighbors.trans h₁.neighbors
  pending   := h₂.pending.trans h₁.pending
  now       := h₂.now.trans h₁.now
  control   := h₂.control.trans h₁.control
  ready     := h₂.ready.trans h₁.ready
  accepted  := h₂.accepted.trans h₁.accepted

theorem Flushes.released (hf : Flushes e e') (h : Released e) : Released e' := by
  intro p hp
  rw [resolved, hf.neighbors, hf.now]
  exact h p (hf.pending ▸ hp)

theorem submitControl_flushes (e : EthernetIpv4 δ) (n : Nat) : Flushes e (e.submitControl n) := by
  rw [submitControl]
  split
  case isTrue  => exact ⟨rfl, rfl, rfl, rfl, drop_suffix .., suffix_refl _, rfl⟩
  case isFalse => exact ⟨rfl, rfl, rfl, rfl, drop_suffix .., suffix_refl _, rfl⟩

theorem submitData_flushes (e : EthernetIpv4 δ) (n : Nat) : Flushes e (e.submitData n) := by
  rw [submitData]
  split
  case isTrue  => exact ⟨rfl, rfl, rfl, rfl, suffix_refl _, drop_suffix .., rfl⟩
  case isFalse => exact ⟨rfl, rfl, rfl, rfl, suffix_refl _, drop_suffix .., rfl⟩

theorem addStaticNeighbor_released (h : Released e) (ip : Ipv4Addr) (mac : Mac) :
    Released (e.addStaticNeighbor ip mac).fst := by
  rw [addStaticNeighbor]
  split
  case isTrue => exact h
  split
  case isTrue  => exact h
  case isFalse => exact releaseResolved_released _

theorem mac_later {mac : Mac} {t' : Duration} (hle : t ≤ t') (h : state.mac t' = some mac) :
    state.mac t = some mac := by
  cases state
  case static => exact h
  case reachable old expires =>
    rw [NeighborState.mac] at h ⊢
    split at h
    case isTrue hlt => rw [if_pos (hle.trans_lt hlt), h]
    case isFalse    => cases h
  all_goals cases h

theorem Released.later (h : Released e) (hle : e.now ≤ t) : Released { e with now := t } := by
  intro p hp
  rw [eq_none_iff_forall_ne_some]
  intro mac hr
  have ⟨state, hs, hm⟩ := bind_eq_some_iff.mp hr
  have hnow : e.resolved p.nextHop = some mac := by
    rw [resolved, hs, bind_some, mac_later hle hm]
  cases (h p hp).symm.trans hnow

-- There is nothing to release.
theorem Released.releaseResolved (h : Released e) : e.releaseResolved = e := by
  have hkeep : (e.pending.filter fun p => (e.resolved p.nextHop).isNone) = e.pending :=
    filter_eq_self.mpr fun p hp => by rw [h p hp, isNone_none]
  have hnone : (e.pending.filterMap fun p => (e.resolved p.nextHop).map (e.frameFor · p)) = [] :=
    filterMap_eq_nil_iff.mpr fun p hp => by rw [h p hp, map_none]
  rw [releaseResolved_eq, hkeep, hnone, append_nil]

-- The timer of a neighbor has nothing to do yet.
def Idle (config : InterfaceConfig) (t : Duration) : NeighborState → Prop
  | .static _                             => True
  | .reachable _ expires                  => t < expires
  | .failed retryAfter                    => t < retryAfter
  | .resolving attempts nextProbe expires =>
    t < expires ∧ (attempts < config.maxArpAttempts → t < nextProbe)

theorem idle_of_lt_nextDeadline (h : ∀ d ∈ e.nextDeadline, t < d)
    (hs : e.neighbors[ip]? = some state) : Idle e.config t state := by
  have hmem := TreeMap.mem_values_of_getElem? hs
  -- The deadline of this neighbor is among those of which the earliest one is returned.
  have hlt {f : NeighborState → Option Duration} {d : Duration} (hf : f state = some d)
      (heq : e.nextDeadline = (e.neighbors.values.filterMap f).min?) : t < d := by
    have ⟨m, hm, hle⟩ := Duration.exists_min?_le (mem_filterMap.mpr ⟨state, hmem, hf⟩)
    exact (h m (heq.trans hm)).trans_le hle
  cases state
  case static                               => trivial
  case reachable mac expires                => exact hlt rfl rfl
  case failed retryAfter                    => exact hlt rfl rfl
  case resolving attempts nextProbe expires =>
    have hdue := hlt rfl rfl
    split at hdue
    case isTrue hleft  => exact ⟨(lt_min_iff.mp hdue).right, fun _ => (lt_min_iff.mp hdue).left⟩
    case isFalse hleft => exact ⟨hdue, fun h => absurd h hleft⟩

section

variable [Device δ]

theorem flushFront_flushes (e : EthernetIpv4 δ) (queue : List PacketBuf) :
    Flushes e (e.flushFront queue).fst := by
  cases queue
  case nil  => exact .refl e
  case cons => exact ⟨rfl, rfl, rfl, rfl, suffix_refl _, suffix_refl _, rfl⟩

theorem flush_flushes (e : EthernetIpv4 δ) : Flushes e e.flush.fst := by
  refine andThen_of (flushFront_flushes ..) fun e₁ n _ h₁ => ?_
  have hc := h₁.trans (submitControl_flushes e₁ n)
  dsimp only
  split
  case isTrue => exact hc
  exact andThen_of (hc.trans (flushFront_flushes ..)) fun e₂ m _ h₂ =>
    h₂.trans (submitData_flushes e₂ m)

theorem advance_released (e : EthernetIpv4 δ) (h : ¬t < e.now) : Released (e.advance t).fst := by
  rw [advance, if_neg h]
  exact (flush_flushes _).released (releaseResolved_released _)

theorem step_released (op : Op δ) (h : Released e) : Released (e.step op) := by
  have hs := step_steps e op
  generalize e.step op = e' at hs
  cases hs
  case send slots    => exact send_released slots h
  case static ip mac => exact addStaticNeighbor_released h ip mac
  case manages _ hm =>
    rcases hm with ha | hd
    case inl => exact ha.released h
    case inr => exact .of_nil hd.pending
  case advances e₁ t device spare frames h₁ ht _ =>
    by_cases hlt : t < e₁.now
    case neg => exact advance_released e₁ hlt
    case pos =>
      -- Only operations that receive no frames are given a time.
      rcases ht with hnow | ⟨_, rfl⟩
      case inl => exact absurd hlt (by rw [hnow, h₁, receiveFrames_now]; exact lt_irrefl _)
      rw [advance_backwards hlt, h₁]
      exact (device_aside e device spare).released h

theorem refresh_idle (h : Idle e.config e.now state) : e.refresh ip state = e := by
  cases state
  case static                       => rfl
  case reachable mac expires        => exact if_neg (Std.not_le.mpr h)
  case failed retryAfter            => exact if_neg (Std.not_le.mpr h)
  case resolving attempts nextProbe expires =>
    rw [refresh, if_neg (Std.not_le.mpr h.left), if_neg]
    exact fun hdue => Std.not_le.mpr (h.right hdue.right) hdue.left

theorem runTimers_idle {work : List (Ipv4Addr × NeighborState)}
    (h : ∀ w ∈ work, Idle e.config e.now w.snd) : e.runTimers work = e := by
  induction work
  case nil => rfl
  case cons w work ih =>
    have ⟨hw, hrest⟩ := forall_mem_cons.mp h
    rw [runTimers, foldl_cons, refresh_idle hw]
    exact ih hrest

theorem ensureSpare_flushes (e : EthernetIpv4 δ) : Flushes e e.ensureSpare := by
  rw [ensureSpare]
  split
  case h_1 => exact .refl e
  case h_2 => exact ⟨rfl, rfl, rfl, rfl, suffix_refl _, suffix_refl _, rfl⟩

-- Before the next deadline, all that is left to do is to send what is in the queues.
theorem advance_idle (hs : Released e) (hle : e.now ≤ t) (hd : ∀ d ∈ e.nextDeadline, t < d) :
    e.advance t = (ensureSpare { e with now := t }).flush := by
  have hspare := ensureSpare_flushes { e with now := t }
  have hreleased := hspare.released (hs.later hle)
  rw [advance, if_neg (Std.not_lt.mpr hle)]
  dsimp only
  rw [runTimers_idle, hreleased.releaseResolved]
  intro w hw
  rw [hspare.config, hspare.now]
  rw [hspare.neighbors] at hw
  exact idle_of_lt_nextDeadline hd (TreeMap.mem_toList_iff_getElem?_eq_some.mp hw)

end

end EthernetIpv4
