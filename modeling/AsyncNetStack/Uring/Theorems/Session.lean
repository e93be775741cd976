import AsyncNetStack.Uring.Theorems.Device

open List

namespace Uring

open UringTunDevice (request Intact Leads)

namespace UringTunDevice

-- The slots of `pending` that have a buffer.
def occupied (d : UringTunDevice) : List Nat :=
  (List.range d.pending.length).filter fun i => d.pending[i]?.join.isSome

variable {cfg : UringConfig} {delivered : List PacketBuf} {d : UringTunDevice} {i : Nat}

theorem mem_occupied : i ∈ d.occupied ↔ ∃ op, d.pending[i]? = some (some op) := by
  simp only [occupied, mem_filter, mem_range, Option.isSome_iff_exists, Option.join_eq_some_iff]
  constructor
  · rintro ⟨-, op, ho⟩
    exact ⟨op, ho⟩
  · rintro ⟨op, ho⟩
    exact ⟨(List.getElem?_eq_some_iff.mp ho).choose, op, ho⟩

namespace Intact

theorem mem_live (h : Intact cfg delivered d) : i ∈ d.requests.live ↔ i ∈ d.occupied := by
  have hs := h.requests
  rw [mem_occupied]
  constructor
  · intro hi
    rcases mem_append.mp hi with hi | hi
    all_goals have ⟨e, he, hid⟩ := mem_map.mp hi
    · have ⟨op, ho, _⟩ := hs.asked e he
      exact ⟨op, hid ▸ ho⟩
    · have ⟨op, ho⟩ := hs.answered e he
      exact ⟨op, hid ▸ ho⟩
  · rintro ⟨op, ho⟩
    have hlt : i < cfg.entries := hs.size ▸ (List.getElem?_eq_some_iff.mp ho).choose
    rcases mem_append.mp (hs.partition.mem_iff.mpr (mem_range.mpr hlt)) with hi | hi
    · -- A free slot has no buffer.
      have hv := hs.vacant i hi
      change d.pending[i]? = _ at hv
      simp [hv] at ho
    · exact hi

theorem live_perm (h : Intact cfg delivered d) : d.requests.live.Perm d.occupied := by
  refine (perm_ext_iff_of_nodup ?_ ?_).mpr fun _ => h.mem_live
  · exact (nodup_append.mp h.requests.nodup).right.left
  · exact nodup_range.filter _

end Intact
end UringTunDevice

namespace Session

-- The request table of a device, and the packets that have passed through it.
-- * `asked`: the request of each occupied slot is the one for its buffer, from the submission on
-- * `answered`: the buffer is still there when the completion is reaped
-- * `unique`: no two requests that are on their way have the same slot
-- * `order`: the packets leave the device in the order of their completions, none of them twice
structure TableIntact (cfg : UringConfig) (s : Session) : Prop where
  partition : (s.device.free ++ s.device.occupied).Perm (List.range cfg.entries)
  rx        : s.device.rxPending = s.device.pending.countP isRead
  tx        : s.device.txPending = s.device.pending.countP isWrite
  budget    : s.device.rxPending + s.device.ready.length ≤ cfg.rxDepth
  asked     : ∀ sqe ∈ s.device.ring.queued ++ s.device.inflight, ∃ op,
    s.device.pending[sqe.id]? = some (some op) ∧ sqe = request sqe.id op
  answered  : ∀ cqe ∈ s.device.ring.posted, ∃ op, s.device.pending[cqe.id]? = some (some op)
  unique    : s.device.requests.live.Perm s.device.occupied
  order     : s.device.arrived =
    s.delivered ++ s.device.ready ++ s.device.ring.posted.filterMap (packetOf s.device.pending)
  fine      : s.device.panicked = false

-- What a call returns in a state.
-- * `kept`: a packet that was ready is delivered, or it is still ready
-- * `batch`, `failed`: the packets that `recv` returns, of which there are none with an error
-- * `owned`: `send` takes the frames that it has accepted, and none with an error
structure CallsIntact (s : Session) : Prop where
  kept   : ∀ op, s.delivered ++ s.device.ready <+: (s.step op).delivered ++ (s.step op).device.ready
  batch  : ∀ max bufs, (s.device.recv max).snd = .ok bufs →
    bufs.length ≤ max ∧ (s.step (.recv max)).delivered = s.delivered ++ bufs
  failed : ∀ max err, (s.device.recv max).snd = .error err →
    (s.step (.recv max)).delivered = s.delivered ∧
    s.device.ready <+: (s.step (.recv max)).device.ready
  owned  : ∀ slots, PrefixOwned slots (s.device.sendSlots slots).snd

-- The invariant of the runs.
def Good (cfg : UringConfig) (s : Session) : Prop :=
  Intact cfg s.delivered s.device

variable {cfg : UringConfig} {s : Session}

theorem Good.tableIntact (h : s.Good cfg) : s.TableIntact cfg where
  partition := (h.live_perm.symm.append_left _).trans h.requests.partition
  rx        := h.rx
  tx        := h.tx
  budget    := h.budget
  asked     := h.requests.asked
  answered  := h.requests.answered
  unique    := h.live_perm
  order     := h.order
  fine      := h.fine

-- A call other than `recv` delivers nothing.
theorem good_of_leads {device : UringTunDevice} (hl : Leads cfg s.delivered s.device device) :
    Good cfg { s with device } ∧
    s.delivered ++ s.device.ready <+: s.delivered ++ device.ready :=
  ⟨hl.intact, (prefix_append_right_inj _).mpr hl.ready⟩

theorem Good.step (h : s.Good cfg) (op : Op) : (s.step op).Good cfg ∧
    s.delivered ++ s.device.ready <+: (s.step op).delivered ++ (s.step op).device.ready := by
  cases op
  case recv max =>
    rcases Intact.recv h max with ⟨d', err, he, hl⟩ | ⟨d', bufs, he, hr⟩
    all_goals simp only [Session.step, he]
    case inl => exact good_of_leads hl
    refine ⟨hr.intact, ?_⟩
    rw [append_assoc]
    exact (prefix_append_right_inj _).mpr hr.ready
  case send frames    => exact good_of_leads (Intact.sendSlots h frames).left
  case progress       => exact good_of_leads (Intact.progress h)
  case alloc          => exact good_of_leads ⟨Intact.frame h rfl, prefix_refl _⟩
  case allocBatch max => exact good_of_leads ⟨Intact.frame h rfl, prefix_refl _⟩
  case recycle buf    => exact good_of_leads ⟨Intact.frame h rfl, prefix_refl _⟩

theorem Good.callsIntact (h : s.Good cfg) : s.CallsIntact where
  kept op := (h.step op).right
  batch max bufs hb := by
    rcases Intact.recv h max with ⟨d', err, he, hl⟩ | ⟨d', bufs', he, hr⟩
    all_goals rw [he] at hb
    case inl => cases hb
    cases hb
    simp only [Session.step, he]
    exact ⟨hr.length, trivial⟩
  failed max err hf := by
    rcases Intact.recv h max with ⟨d', err', he, hl⟩ | ⟨d', bufs', he, hr⟩
    all_goals rw [he] at hf
    case inl =>
      simp only [Session.step, he]
      exact ⟨trivial, hl.ready⟩
    case inr => cases hf
  owned slots := (Intact.sendSlots h slots).right

theorem good_start {pool : FramePool} {kernel : Nat → Turn} {d : UringTunDevice}
    (h : UringTunDevice.fromParts pool cfg kernel = .ok d) : Good cfg ⟨d, []⟩ := by
  cases hv : cfg.validate
  case error =>
    rw [UringTunDevice.fromParts, hv] at h
    cases h
  rw [UringTunDevice.fromParts, hv] at h
  change (if _ then _ else _) = _ at h
  split at h
  case isTrue => cases h
  cases h
  exact Intact.start hv

-- The kernel completes requests in any order and with any result, and it fails any call of `enter`.
theorem table_intact {pool : FramePool} {kernel : Nat → Turn} {d : UringTunDevice}
    (h : UringTunDevice.fromParts pool cfg kernel = .ok d) (ops : List Op) :
    (Transition.exec step ⟨d, []⟩ ops).TableIntact cfg ∧
    (Transition.exec step ⟨d, []⟩ ops).CallsIntact := by
  have hg : (Transition.exec step ⟨d, []⟩ ops).Good cfg :=
    Transition.exec_induction (good_start h) fun _ op hs => (hs.step op).left
  exact ⟨hg.tableIntact, hg.callsIntact⟩

-- Two slots, one of them for reads, and a kernel that completes each request with three bytes.
theorem table_intact_twoSlots :
    let kernel (_ : Nat) : Turn := ⟨[.consume, .complete 0 3 [1, 2, 3]], none⟩
    let s : Session := ⟨UringTunDevice.start (.new 0 2 8) ⟨2, 1⟩ kernel, []⟩
    ((Transition.exec step s [.recv 1, .recv 1]).delivered.map (·.len) = [3, 3] ∧
    (Transition.exec step s [.recv 1, .recv 1]).TableIntact ⟨2, 1⟩) ∧
    (Transition.exec step s [.recv 1, .recv 1]).CallsIntact := by
  intro kernel s
  have h : UringTunDevice.fromParts (.new 0 2 8) ⟨2, 1⟩ kernel = .ok s.device := rfl
  have hi := table_intact h [.recv 1, .recv 1]
  exact ⟨⟨by decide +kernel, hi.left⟩, hi.right⟩

end Session
end Uring
