import AsyncNetStack.Lib.Trace
import AsyncNetStack.Net.EthernetSlices
import AsyncNetStack.Net.Theorems.Aloof
import AsyncNetStack.Net.Theorems.Idle
import AsyncNetStack.Net.Theorems.Learning
import AsyncNetStack.Net.Theorems.Withdrawn

open Fallible Std Transition List Option

namespace Ethernet.Slices

variable {frame : PacketBuf}

-- No assertion fails for a frame with room for the header and the padding.
theorem prepend_eq (f : Roomy) (source destination : Mac) (kind : U16) :
    prepend f.frame source destination kind =
      some (Ethernet.prepend f source destination kind) := by
  have hpush (h : Header) :
      f.frame.pushHeader h.encode = some (f.frame.withHeader h.encode (f.fits h)) :=
    dif_pos (f.fits h)
  rw [prepend, Ethernet.prepend, hpush, bind_eq_bind, bind_some]
  dsimp only
  split
  case isTrue h =>
    rw [PacketBuf.setLen, dif_pos (f.tail_withHeader _), bind_some]
    exact dif_pos h.le
  case isFalse => rfl

theorem prepareEmpty_eq (frame : PacketBuf) :
    prepareEmpty frame = some ((EthernetIpv4.prepareEmpty frame).elim
      (.error (.invalid "frame cannot hold Ethernet headers and minimum padding"))
      (.ok ·.frame)) := by
  have hset : frame.setLen 0 = some (frame.withLen 0 (Nat.zero_le _)) := dif_pos (Nat.zero_le _)
  rw [prepareEmpty, EthernetIpv4.prepareEmpty, hset, bind_eq_bind, bind_some]
  have hcap : (frame.withLen 0 (Nat.zero_le _)).capacity = frame.capacity := rfl
  have hoff : (frame.withLen 0 (Nat.zero_le _)).dataOffset = frame.dataOffset := rfl
  dsimp only
  rw [hcap, hoff, PacketBuf.setHeadroom]
  by_cases hroom : max frame.dataOffset 14 ≤ frame.capacity
  case neg =>
    rw [if_pos (.inl (Nat.lt_of_not_le hroom)), dif_neg (by exact hroom)]
    rfl
  case pos =>
    rw [dif_pos (by exact hroom)]
    by_cases htail : frame.capacity - max frame.dataOffset 14 < 46
    case pos =>
      have hsmall : ¬(14 ≤ max frame.dataOffset 14 ∧
          60 ≤ frame.capacity - max frame.dataOffset 14 + 14) := by
        omega
      rw [if_pos (.inr htail), bind_some]
      simp only [roomy?]
      rw [dif_neg (by exact hsmall)]
      rfl
    case neg =>
      have hlarge : 14 ≤ max frame.dataOffset 14 ∧
          60 ≤ frame.capacity - max frame.dataOffset 14 + 14 := by
        omega
      rw [if_neg (by omega), bind_some, bind_some]
      simp only [roomy?]
      rw [dif_pos (by exact hlarge)]
      rfl

theorem encodeArp_eq (f : Roomy) (packet : Arp.Packet) (source destination : Mac) :
    encodeArp f.frame packet source destination =
      some (Ethernet.prepend (f.write packet.encode (by simp)) source destination ARP) := by
  have htail := f.tail
  have hset : f.frame.setLen 28 = some (f.frame.withLen 28 (by omega)) := dif_pos (by omega)
  rw [encodeArp, hset, bind_eq_bind, bind_some, dif_pos ⟨by simp, by simp⟩]
  exact prepend_eq (f.write packet.encode (by simp)) source destination ARP

-- What is left of a received frame is the packet in front of the padding.
theorem strip_eq {t : Nat} (h : t + 14 ≤ frame.len) :
    ∃ packet, strip frame t = some packet ∧ packet.asSlice = (frame.asSlice.drop 14).take t := by
  have hbound := frame.bound
  have hpull : 14 ≤ frame.len := by omega
  rw [strip, PacketBuf.pullHeader, dif_pos hpull, bind_eq_bind, bind_some,
    PacketBuf.setLen, dif_pos (by simp only [PacketBuf.tailCapacity, PacketBuf.capacity]; omega)]
  refine ⟨_, rfl, (PacketBuf.asSlice_withLen _ (by dsimp only; omega)).trans ?_⟩
  rw [PacketBuf.asSlice, PacketBuf.asSlice, drop_take, drop_drop]

end Ethernet.Slices

namespace EthernetIpv4

variable {δ : Type} {e e' e'' : EthernetIpv4 δ}
variable {bytes : List U8} {destination : Ipv4Addr} {slot : PacketBuf}

theorem ipv4_append {source : Ipv4Addr} {total : Nat}
    (h : ipv4 bytes = some (source, destination, total)) (padding : List U8) :
    ipv4 (bytes ++ padding) = some (source, destination, total) := by
  unfold ipv4 at h
  split at h
  case h_2 => cases h
  dsimp only at h
  split at h
  case isTrue => cases h
  rename_i hb
  split at h
  case isTrue => cases h
  rename_i hv
  cases h
  -- Of the bytes after the header only their number is looked at.
  simp only [Bool.or_eq_true, decide_eq_true_eq, not_or, gt_iff_lt, Nat.not_lt] at hv
  obtain ⟨⟨⟨hmin, hmax⟩, hsum⟩, hflags⟩ := hv
  simp only [cons_append, ipv4]
  rw [if_neg hb, if_neg]
  simp only [Bool.or_eq_true, decide_eq_true_eq, not_or, gt_iff_lt, Nat.not_lt]
  refine ⟨⟨⟨hmin, hmax.trans ?_⟩, hsum⟩, hflags⟩
  simp only [length_cons, length_append]
  omega

theorem ipv4_bounds {source : Ipv4Addr} {total : Nat}
    (h : ipv4 bytes = some (source, destination, total)) : 20 ≤ total ∧ total ≤ bytes.length := by
  unfold ipv4 at h
  split at h
  case h_2 => cases h
  dsimp only at h
  split at h
  case isTrue => cases h
  split at h
  case isTrue => cases h
  rename_i hv
  cases h
  simp only [Bool.or_eq_true, decide_eq_true_eq, not_or, gt_iff_lt, Nat.not_lt] at hv
  exact hv.left.left

-- A packet that is its own total length long, and that the interface may send.
def Whole (mtu : Nat) (bytes : List U8) : Prop :=
  bytes.length ≤ mtu ∧ ∃ source destination, ipv4 bytes = some (source, destination, bytes.length)

theorem validate_whole (h : e.validate slot = (e, .ok ())) :
    Whole e.config.mtu slot.asSlice ∧ ∃ f : Ethernet.Roomy, f.frame = slot := by
  rw [validate] at h
  split at h
  case h_1 => cases h
  rename_i source destination total hip
  dsimp only at h
  split at h
  case isTrue => cases h
  rename_i hc
  simp only [Bool.or_eq_true, not_or, bne_iff_ne, ne_eq, not_not, decide_eq_true_eq, gt_iff_lt,
    Nat.not_lt] at hc
  obtain ⟨⟨_, rfl⟩, hmtu⟩ := hc
  split at h
  case h_1 => cases h
  rename_i f hroomy
  rw [Whole, PacketBuf.asSlice_length]
  exact ⟨⟨hmtu, source, destination, hip⟩, f, Ethernet.roomy_frame hroomy⟩

-- The frame in which a packet leaves, where the packet is known by its number.
def Framed (mac : Mac) (packets : List (List U8)) (r : Ready) : Prop :=
  ∃ (f : Ethernet.Roomy) (destination : Mac),
    r.frame = Ethernet.prepend f mac destination Ethernet.IPV4 ∧
    packets[r.serial]? = some f.frame.asSlice

-- The bytes of all packets that an adapter has accepted so far are known. The last `n` of them are
-- not counted yet.
structure Traced (config : InterfaceConfig) (packets : List (List U8)) (n : Nat)
    (e : EthernetIpv4 δ) : Prop where
  mac     : e.config.mac = config.mac
  mtu     : e.config.mtu = config.mtu
  count   : packets.length = e.stats.acceptedIp + n
  whole   : ∀ bytes ∈ packets, Whole config.mtu bytes
  pending : ∀ p ∈ e.pending, packets[p.serial]? = some p.frame.frame.asSlice
  ready   : ∀ r ∈ e.ready, Framed config.mac packets r

-- Packets leave the queues or stay as they are, and none is submitted.
structure Thins (e e' : EthernetIpv4 δ) : Prop where
  config    : e'.config =
    { e.config with address := e'.config.address, prefixLen := e'.config.prefixLen }
  accepted  : e'.stats.acceptedIp = e.stats.acceptedIp
  pending   : e'.pending ⊆ e.pending
  ready     : e'.ready ⊆ e.ready
  submitted : e'.submitted = e.submitted

namespace Thins

theorem of_eq (hc : e'.config = e.config) (ha : e'.stats.acceptedIp = e.stats.acceptedIp)
    (hp : e'.pending = e.pending) (hr : e'.ready = e.ready) (hs : e'.submitted = e.submitted) :
    Thins e e' :=
  ⟨by rw [hc], ha, (List.Perm.of_eq hp).subset, (List.Perm.of_eq hr).subset, hs⟩

theorem of_aside (h : Aside e e') : Thins e e' :=
  of_eq h.config (congrArg Prod.fst h.counts) h.pending h.ready h.submitted

theorem of_manages (h : Manages e e') : Thins e e' := by
  rcases h with ha | hd
  case inl => exact of_aside ha
  refine ⟨hd.config, hd.accepted, ?_, ?_, hd.submitted⟩
  case refine_1 => rw [hd.pending]; exact nil_subset _
  case refine_2 => rw [hd.ready]; exact nil_subset _

end Thins

theorem learn_thins (e : EthernetIpv4 δ) (ip : Ipv4Addr) (mac : Mac) :
    Thins e (e.learn ip mac) := by
  rw [learn]
  repeat' split
  all_goals exact .of_eq rfl rfl rfl rfl rfl

theorem timeOut_thins (e : EthernetIpv4 δ) (ip : Ipv4Addr) : Thins e (e.timeOut ip) :=
  ⟨rfl, rfl, filter_sublist.subset, List.Subset.refl _, rfl⟩

theorem Learns.thins (h : Learns e e') : Thins e e' := by
  cases h
  case nothing ha         => exact .of_aside ha
  case neighbor ip mac ha =>
    have hl := learn_thins e ip mac
    exact ⟨by rw [ha.config]; exact hl.config, (congrArg Prod.fst ha.counts).trans hl.accepted,
      ha.pending ▸ hl.pending, ha.ready ▸ hl.ready, ha.submitted.trans hl.submitted⟩

variable {config : InterfaceConfig} {packets : List (List U8)} {n : Nat}

theorem getElem?_append_of_some {packets' : List (List U8)} {i : Nat}
    (h : packets[i]? = some bytes) : (packets ++ packets')[i]? = some bytes := by
  have ⟨hlt, _⟩ := List.getElem?_eq_some_iff.mp h
  rw [List.getElem?_append_left hlt, h]

theorem Framed.append {mac : Mac} {r : Ready} (h : Framed mac packets r)
    (packets' : List (List U8)) : Framed mac (packets ++ packets') r := by
  have ⟨f, destination, hframe, hbytes⟩ := h
  exact ⟨f, destination, hframe, getElem?_append_of_some hbytes⟩

namespace Traced

theorem thins (h : Traced config packets n e) (ht : Thins e e') : Traced config packets n e' where
  mac          := by rw [ht.config]; exact h.mac
  mtu          := by rw [ht.config]; exact h.mtu
  count        := by rw [ht.accepted]; exact h.count
  whole        := h.whole
  pending p hp := h.pending p (ht.pending hp)
  ready r hr   := h.ready r (ht.ready hr)

theorem releaseResolved (h : Traced config packets n e) :
    Traced config packets n e.releaseResolved := by
  rw [releaseResolved_eq]
  refine { h with pending := fun p hp => h.pending p (mem_filter.mp hp).left, ready := ?_ }
  intro r hr
  rcases mem_append.mp hr with hr | hr
  case inl => exact h.ready r hr
  have ⟨p, hp, hmap⟩ := mem_filterMap.mp hr
  obtain ⟨mac, _, rfl⟩ := map_eq_some_iff.mp hmap
  refine ⟨p.frame, mac, ?_, h.pending p hp⟩
  rw [frameFor, h.mac]

-- What is known about the packets so far is not affected by another one.
theorem concat (h : Traced config packets n e) {bytes : List U8} (hw : Whole config.mtu bytes) :
    packets.length = e.stats.acceptedIp + n ∧
    (∀ bytes' ∈ packets ++ [bytes], Whole config.mtu bytes') ∧
    (∀ p ∈ e.pending, (packets ++ [bytes])[p.serial]? = some p.frame.frame.asSlice) ∧
    ∀ r ∈ e.ready, Framed config.mac (packets ++ [bytes]) r := by
  refine ⟨h.count, ?_, fun p hp => getElem?_append_of_some (h.pending p hp),
    fun r hr => (h.ready r hr).append _⟩
  intro bytes' hb
  rcases mem_append.mp hb with hb | hb
  case inl => exact h.whole bytes' hb
  case inr => exact mem_singleton.mp hb ▸ hw

end Traced

-- Where an accepted packet is stored.
inductive Stores (e : EthernetIpv4 δ) (serial : Nat) (slot : PacketBuf) (e' : EthernetIpv4 δ) : Prop
  | framed (f : Ethernet.Roomy) (destination : Mac) (next : Option Ipv4Addr) (hf : f.frame = slot)
      (hp : e'.pending = e.pending)
      (hr : e'.ready =
        e.ready ++ [⟨Ethernet.prepend f e.config.mac destination Ethernet.IPV4, next, serial⟩])
  | waiting (f : Ethernet.Roomy) (next : Ipv4Addr) (hf : f.frame = slot)
      (hp : e'.pending = e.pending ++ [⟨next, f, serial⟩]) (hr : e'.ready = e.ready)

theorem acceptUnicast_stores {serial : Nat} {frame : Ethernet.Roomy} {route : Route}
    (hf : frame.frame = slot) (h : e.acceptUnicast serial frame destination route = .taken e') :
    Stores e serial slot e' := by
  rw [acceptUnicast] at h
  dsimp only at h
  split at h
  case h_1 mac _ =>
    cases h
    exact .framed frame mac _ hf rfl rfl
  split at h
  case isTrue => cases h
  cases h
  obtain ⟨hp, hr, _⟩ := resolve_aside e (route.nextHop destination)
  exact .waiting frame (route.nextHop destination) hf (congrArg (· ++ _) hp) hr

theorem accept_stores {serial : Nat} (h : e.accept serial slot = .taken e') :
    Stores e serial slot e' := by
  rw [accept] at h
  split at h
  case h_2 => cases h
  rename_i destination frame _ hframe
  have hf := Ethernet.roomy_frame hframe
  split at h
  case isTrue =>
    cases h
    exact .framed frame Mac.broadcast none hf rfl rfl
  split at h
  case h_1 => cases h
  exact acceptUnicast_stores hf h

theorem Traced.accept (ht : Traced config packets n e)
    (hw : Whole config.mtu slot.asSlice) (h : e.accept (e.stats.acceptedIp + n) slot = .taken e') :
    Traced config (packets ++ [slot.asSlice]) (n + 1) e' := by
  have ha := accept_accepts h
  have ⟨hcount, hwhole, hpending, hready⟩ := ht.concat hw
  have hlast : (packets ++ [slot.asSlice])[e.stats.acceptedIp + n]? = some slot.asSlice := by
    rw [← hcount, List.getElem?_concat_length]
  have hlen : (packets ++ [slot.asSlice]).length = e'.stats.acceptedIp + (n + 1) := by
    rw [length_append, length_singleton, hcount, ha.accepted_eq, Nat.add_assoc]
  have hmac : e'.config.mac = config.mac := by rw [ha.config_eq, ht.mac]
  have hmtu : e'.config.mtu = config.mtu := by rw [ha.config_eq, ht.mtu]
  cases accept_stores h
  case framed f destination next hf hp hr =>
    refine ⟨hmac, hmtu, hlen, hwhole, hp ▸ hpending, ?_⟩
    rw [hr]
    intro r hmem
    rcases mem_append.mp hmem with hmem | hmem
    case inl => exact hready r hmem
    rw [mem_singleton.mp hmem]
    exact ⟨f, destination, by rw [ht.mac], by rw [hf]; exact hlast⟩
  case waiting f next hf hp hr =>
    refine ⟨hmac, hmtu, hlen, hwhole, ?_, hr ▸ hready⟩
    rw [hp]
    intro p hmem
    rcases mem_append.mp hmem with hmem | hmem
    case inl => exact hpending p hmem
    rw [mem_singleton.mp hmem, hf]
    exact hlast

theorem Traced.acceptAll {slots : List PacketBuf} (ht : Traced config packets n e)
    (hw : ∀ slot ∈ slots, Whole config.mtu slot.asSlice) :
    ∃ m ≤ slots.length, (e.acceptAll n slots).snd.snd = n + m ∧
      Traced config (packets ++ (slots.take m).map (·.asSlice)) (n + m)
      (e.acceptAll n slots).fst := by
  induction slots generalizing e n packets
  case nil => exact ⟨0, le_rfl, rfl, by rw [take_nil, map_nil, append_nil]; exact ht⟩
  case cons slot slots ih =>
    obtain ⟨hslot, hslots⟩ := forall_mem_cons.mp hw
    rw [EthernetIpv4.acceptAll]
    split
    case h_2 =>
      refine ⟨0, Nat.zero_le _, rfl, ?_⟩
      rw [take_zero, map_nil, append_nil]
      exact ht
    case h_1 e₁ heq =>
      obtain ⟨m, hm, hn, ht'⟩ := ih (ht.accept hslot heq) hslots
      refine ⟨m + 1, Nat.succ_le_succ hm, hn.trans (by omega), ?_⟩
      rw [take_succ_cons, map_cons, append_cons, ← Nat.add_assoc, Nat.add_right_comm]
      exact ht'

theorem Traced.addStaticNeighbor (h : Traced config packets n e) (ip : Ipv4Addr) (mac : Mac) :
    Traced config packets n (e.addStaticNeighbor ip mac).fst := by
  rw [EthernetIpv4.addStaticNeighbor]
  split
  case isTrue => exact h
  split
  case isTrue => exact h
  refine Traced.releaseResolved (Traced.thins (e := if _ then e.discardQueued else e) ?_
    (.of_eq rfl rfl rfl rfl rfl))
  split
  case isTrue  => exact h.thins ⟨rfl, rfl, nil_subset _, nil_subset _, rfl⟩
  case isFalse => exact h

-- The bytes of the packets that the interface takes in an operation.
def accepted (e : EthernetIpv4 δ) : Op δ → List (List U8)
  | .send slots =>
    match (e.send slots).snd with
    | .error _ => []
    | .ok n    => (slots.take n).map (·.asSlice)
  | _           => []

theorem Traced.send (h : Traced config packets 0 e) (slots : List PacketBuf) :
    Traced config (packets ++ e.accepted (.send slots)) 0 (e.send slots).fst := by
  have hsend := sendSlots_sends e slots
  rw [accepted, EthernetIpv4.send]
  dsimp only
  generalize e.sendSlots slots = o at hsend
  cases hsend
  case refused ha =>
    dsimp only
    rw [append_nil]
    exact h.thins (.of_aside ha)
  case accepted e₁ k hk hv ha =>
    have hw : ∀ slot ∈ slots.take k, Whole config.mtu slot.asSlice :=
      fun slot hslot => h.mtu ▸ (validate_whole (hv slot hslot)).left
    obtain ⟨m, hm, hn, ht⟩ := h.acceptAll hw
    have ht := ht.thins (.of_aside ha)
    have htake : (slots.take k).take m = slots.take m := by
      rw [take_take, Nat.min_eq_left (hm.trans (length_take_le ..))]
    rw [htake, Nat.zero_add] at ht
    rw [Nat.zero_add] at hn
    dsimp only
    rw [hn]
    exact { ht with count := ht.count }

theorem Fresh.traced (h : Fresh config e) : Traced config [] 0 e where
  mac     := by rw [h.config_eq]
  mtu     := by rw [h.config_eq]
  count   := by rw [h.stats]; rfl
  whole   := nofun
  pending := by rw [h.pending]; exact nofun
  ready   := by rw [h.ready]; exact nofun

theorem submitControl_device (e : EthernetIpv4 δ) (n : Nat) :
    (e.submitControl n).device = e.device := by
  rw [submitControl]
  split <;> rfl

theorem submitData_eq (e : EthernetIpv4 δ) (n : Nat) :
    (e.submitData n).ready = e.ready.drop n ∧ (e.submitData n).device = e.device ∧
    (e.submitData n).submitted = e.submitted ++ (e.ready.take n).map Ready.tag := by
  rw [submitData]
  split <;> exact ⟨rfl, rfl, rfl⟩

section

variable [Device δ]

theorem refresh_thins (e : EthernetIpv4 δ) (ip : Ipv4Addr) (state : NeighborState) :
    Thins e (e.refresh ip state) := by
  have hprobe (attempts : Nat) (expires : Duration) : Thins e (e.probe ip attempts expires) := by
    rcases probe_cases e ip attempts expires with ha | ⟨_, ha⟩
    case inl => exact .of_aside ha
    case inr =>
      exact .of_eq ha.config (congrArg Prod.fst ha.counts) ha.pending ha.ready ha.submitted
  unfold refresh
  repeat' split
  all_goals first
    | exact .of_eq rfl rfl rfl rfl rfl
    | exact timeOut_thins e ip
    | exact hprobe ..

-- What the device takes when the queues are sent: frames of the protocol itself, and framed
-- packets.
def flushedControl (e : EthernetIpv4 δ) : List PacketBuf :=
  match e.flushFront e.control with
  | (_, .error _) => []
  | (_, .ok n)    => e.control.take n

def flushed (e : EthernetIpv4 δ) : List Ready :=
  match e.flushFront e.control with
  | (_, .error _) => []
  | (e, .ok n)    =>
    let e := e.submitControl n
    if !e.control.isEmpty then
      []
    else
      match e.flushFront (e.ready.map (·.frame)) with
      | (_, .error _) => []
      | (_, .ok n)    => e.ready.take n

-- Exactly these packets leave the queue, and they are the ones that count as submitted.
theorem flush_ready (e : EthernetIpv4 δ) :
    e.flushed ++ e.flush.fst.ready = e.ready ∧
    e.flush.fst.submitted = e.submitted ++ e.flushed.map Ready.tag := by
  have hc := flushFront_aside e e.control
  rw [flushed, flush]
  generalize e.flushFront e.control = o at hc
  obtain ⟨e₁, _ | n⟩ := o
  case error => exact ⟨hc.ready, by simpa using hc.submitted⟩
  have hs := hc.trans (submitControl_aside e₁ n)
  dsimp only [andThen_ok]
  split
  case isTrue => exact ⟨hs.ready, by simpa using hs.submitted⟩
  have hd := flushFront_aside (e₁.submitControl n) ((e₁.submitControl n).ready.map (·.frame))
  generalize (e₁.submitControl n).flushFront _ = o at hd
  obtain ⟨e₂, _ | m⟩ := o
  case error =>
    have hd := hs.trans hd
    exact ⟨hd.ready, by simpa using hd.submitted⟩
  obtain ⟨hready, _, hsubmitted⟩ := submitData_eq e₂ m
  dsimp only [andThen_ok]
  rw [hready, hsubmitted, hd.ready, take_append_drop, hd.submitted, hs.submitted]
  exact ⟨hs.ready, rfl⟩

-- The framed packets that the device takes in an operation.
def transmitted (e : EthernetIpv4 δ) (op : Op δ) : List Ready :=
  (e.sending op).elim [] flushed

-- All frames that the device takes in an operation.
def handed (e : EthernetIpv4 δ) (op : Op δ) : List PacketBuf :=
  (e.sending op).elim [] flushedControl ++ (e.transmitted op).map (·.frame)

theorem transmitted_advancing {op : Op δ} {e₁ : EthernetIpv4 δ} {now : Duration}
    (h : e.advancing op = some (e₁, now)) :
    e.transmitted op = (e₁.flushing now).elim [] flushed := by
  rw [transmitted, sending, h, bind_some]

theorem transmitted_none {op : Op δ} (h : e.advancing op = none) : e.transmitted op = [] := by
  rw [transmitted, sending, h]
  rfl

theorem Traced.flush (h : Traced config packets n e) : Traced config packets n e.flush.fst where
  mac          := by rw [(flush_flushes e).config]; exact h.mac
  mtu          := by rw [(flush_flushes e).config]; exact h.mtu
  count        := by rw [(flush_flushes e).accepted]; exact h.count
  whole        := h.whole
  pending p hp := h.pending p ((flush_flushes e).pending ▸ hp)
  ready r hr   := h.ready r ((flush_flushes e).ready.subset hr)

-- All timers run before packets are released, and the device takes packets last.
theorem Traced.advance (h : Traced config packets n e) (now : Duration) :
    Traced config packets n (e.advance now).fst ∧
    ∀ r ∈ (e.flushing now).elim [] flushed, Framed config.mac packets r := by
  rw [advance_eq, flushing]
  by_cases hlt : now < e.now
  case pos =>
    rw [if_pos hlt]
    exact ⟨h, fun _ hr => absurd hr not_mem_nil⟩
  case neg =>
    rw [if_neg hlt]
    have hnow : Traced config packets n { e with now } := h.thins (.of_eq rfl rfl rfl rfl rfl)
    have hspare := hnow.thins (.of_aside (ensureSpare_aside _))
    have htimers := runTimers_induction (e := ensureSpare { e with now })
      (P := Traced config packets n) (fun e ip state _ ht => ht.thins (refresh_thins e ip state))
      hspare
    refine ⟨htimers.releaseResolved.flush, fun r hr => htimers.releaseResolved.ready r ?_⟩
    rw [← (flush_ready _).left]
    exact mem_append_left _ hr

theorem Traced.step (h : Traced config packets 0 e) (op : Op δ) :
    Traced config (packets ++ e.accepted op) 0 (e.step op) ∧
    ∀ r ∈ e.transmitted op, Framed config.mac (packets ++ e.accepted op) r := by
  by_cases hop : ∃ slots, op = .send slots
  case pos =>
    obtain ⟨slots, rfl⟩ := hop
    exact ⟨h.send slots, nofun⟩
  case neg =>
    have hnil : e.accepted op = [] := by
      cases op
      case send slots => exact absurd ⟨slots, rfl⟩ hop
      all_goals rfl
    rw [hnil, append_nil]
    have hs := step_steps e op
    generalize e.step op = e' at hs
    cases hs
    case send slots       => exact absurd ⟨slots, rfl⟩ hop
    case static ip mac    => exact ⟨h.addStaticNeighbor ip mac, nofun⟩
    case manages hnone hm =>
      rw [transmitted_none hnone]
      exact ⟨h.thins (.of_manages hm), nofun⟩
    case advances e₁ t device spare frames h₁ ht hadv =>
      have hreceived : Traced config packets 0 e₁ := by
        rw [h₁]
        exact receiveFrames_induction (fun _ _ hl ht => ht.thins hl.thins) frames
          (h.thins (.of_aside (device_aside e device spare)))
      rw [transmitted_advancing hadv]
      exact hreceived.advance t

-- All frames that a run sends carry packets that were accepted in it.
theorem Traced.exec (h : Traced config packets 0 e) (ops : List (Op δ)) :
    (∀ bytes ∈ logs EthernetIpv4.step accepted e ops, Whole config.mtu bytes) ∧
    ∀ r ∈ logs EthernetIpv4.step transmitted e ops,
      Framed config.mac (packets ++ logs EthernetIpv4.step accepted e ops) r := by
  induction ops generalizing e packets
  case nil => exact ⟨nofun, nofun⟩
  case cons op ops ih =>
    have ⟨hstep, hsent⟩ := h.step op
    have ⟨hwhole, hrest⟩ := ih hstep
    rw [logs, logs, ← append_assoc]
    constructor
    case left =>
      intro bytes hb
      rcases mem_append.mp hb with hb | hb
      case inl => exact hstep.whole bytes (mem_append_right _ hb)
      case inr => exact hwhole bytes hb
    case right =>
      intro r hr
      rcases mem_append.mp hr with hr | hr
      case inl => exact (hsent r hr).append _
      case inr => exact hrest r hr

-- The padding and the header are removed, and nothing else.
theorem receiveFrame_framed {frame : PacketBuf} {bytes padding : List U8} {mac destination : Mac}
    {source address : Ipv4Addr}
    (hframe : frame.asSlice =
      Ethernet.Header.encode ⟨destination, mac, Ethernet.IPV4⟩ ++ (bytes ++ padding))
    (hip : ipv4 bytes = some (source, address, bytes.length)) (hconf : e.configured = true)
    (hmac : mac.unicast = true) (hdest : destination = e.config.mac ∨ destination = Mac.broadcast)
    (haddr : address = e.config.address ∨ e.broadcast address = true)
    (hmtu : bytes.length ≤ e.config.mtu) :
    ∃ packet, e.receiveFrame frame = (e.delivered, some packet) ∧ packet.asSlice = bytes := by
  have hdrop : frame.asSlice.drop 14 = bytes ++ padding := by
    rw [hframe, drop_left' (Ethernet.Header.encode_length _)]
  have hlen : bytes.length + 14 ≤ frame.len := by
    rw [← PacketBuf.asSlice_length, hframe, length_append, length_append,
      Ethernet.Header.encode_length]
    omega
  have ⟨packet, hstrip, hpacket⟩ := Ethernet.Slices.strip_eq hlen
  rw [hdrop, take_left] at hpacket
  refine ⟨packet, ?_, hpacket⟩
  have hheader : Ethernet.parse frame.asSlice = some ⟨destination, mac, Ethernet.IPV4⟩ := by
    rw [hframe, Ethernet.parse_encode]
  have haddressed : ¬(!mac.unicast ||
      (destination != e.config.mac && destination != Mac.broadcast)) = true := by
    rcases hdest with rfl | rfl
    all_goals simp [hmac]
  have hforUs : ¬(decide (bytes.length > e.config.mtu) ||
      (address != e.config.address && !e.broadcast address)) = true := by
    have hfits : ¬bytes.length > e.config.mtu := Nat.not_lt.mpr hmtu
    rcases haddr with rfl | haddr
    case inl => simp [hfits]
    case inr => simp [hfits, haddr]
  rw [receiveFrame, if_neg (by simp [hconf]), hheader]
  dsimp only
  rw [if_neg haddressed, if_neg (by decide), if_pos rfl, hdrop, ipv4_append hip]
  dsimp only
  rw [if_neg hforUs]
  exact congrArg (Prod.mk e.delivered) hstrip

-- What becomes of a frame only depends on the configuration.
theorem SameSetup.receiveFrame (h : SameSetup e e') (frame : PacketBuf) :
    (e'.receiveFrame frame).snd = (e.receiveFrame frame).snd := by
  unfold EthernetIpv4.receiveFrame broadcast
  rw [h.configured, h.config]
  dsimp only
  repeat' split
  all_goals rfl

theorem receiveFrames_eq (e : EthernetIpv4 δ) (frames : List PacketBuf) :
    (e.receiveFrames frames).snd = frames.filterMap fun frame => (e.receiveFrame frame).snd := by
  induction frames generalizing e
  case nil => rfl
  case cons frame frames ih =>
    have hrest : (fun f => ((e.receiveFrame frame).fst.receiveFrame f).snd) =
        fun f => (e.receiveFrame f).snd :=
      funext (receiveFrame_setup e frame).receiveFrame
    rw [receiveFrames]
    dsimp only
    rw [ih, hrest, filterMap_cons]
    cases (e.receiveFrame frame).snd
    case none => rfl
    case some => rfl

theorem recv_eq {max : Nat} {device : δ} {frames out : List PacketBuf} (hmax : max ≠ 0)
    (hd : Device.recv e.dropSpare max = (device, .ok frames)) (h : e.recv max = (e', .ok out)) :
    out = (receiveFrames { e with device, controlSpare := none } frames).snd := by
  rw [recv, if_neg hmax, hd] at h
  dsimp only [andThen_ok] at h
  generalize (receiveFrames { e with device, controlSpare := none } frames).fst.advance _ = o at h
  obtain ⟨e₁, _ | _⟩ := o
  case error => cases h
  cases h
  rfl

end

-- The packet of a frame is delivered by every adapter that the frame and the packet are for,
-- whatever other frames it receives with it.
def RoundTrips (config : InterfaceConfig) (packets : List (List U8)) (r : Ready) : Prop :=
  ∃ (bytes : List U8) (source address : Ipv4Addr) (destination : Mac),
    packets[r.serial]? = some bytes ∧
    ipv4 bytes = some (source, address, bytes.length) ∧
    20 ≤ bytes.length ∧ bytes.length ≤ config.mtu ∧
    r.frame.asSlice = Ethernet.Header.encode ⟨destination, config.mac, Ethernet.IPV4⟩ ++
      (bytes ++ List.replicate (46 - bytes.length) 0) ∧
    ∀ (γ : Type) [Device γ] (b : EthernetIpv4 γ) (max : Nat) (device : γ) (frames : List PacketBuf),
      b.configured = true → (destination = b.config.mac ∨ destination = Mac.broadcast) →
      (address = b.config.address ∨ b.broadcast address = true) → bytes.length ≤ b.config.mtu →
      max ≠ 0 → Device.recv b.dropSpare max = (device, .ok frames) →
      let received := (receiveFrames { b with device, controlSpare := none } frames).snd
      received = frames.filterMap (fun frame => (b.receiveFrame frame).snd) ∧
      (∀ frame ∈ frames, frame.asSlice = r.frame.asSlice →
        (b.receiveFrame frame).snd.map (·.asSlice) = some bytes) ∧
      ∀ (b' : EthernetIpv4 γ) (out : List PacketBuf), b.recv max = (b', .ok out) → out = received

-- No assertion about headroom or capacity fails, neither for packets that pass validation nor for
-- those that wait, for frames that are prepared for the protocol's own messages, or for received
-- packets.
structure Unasserted (e : EthernetIpv4 δ) : Prop where
  validated : ∀ slot, e.validate slot = (e, .ok ()) → ∀ source destination kind,
    (Ethernet.Slices.prepend slot source destination kind).isSome
  waiting   : ∀ p ∈ e.pending, ∀ source destination kind,
    (Ethernet.Slices.prepend p.frame.frame source destination kind).isSome
  prepared  : ∀ frame, ∃ result, Ethernet.Slices.prepareEmpty frame = some result ∧
    ∀ spare, result = .ok spare → ∀ packet source destination,
      (Ethernet.Slices.encodeArp spare packet source destination).isSome
  stripped  : ∀ frame source destination total,
    ipv4 (frame.asSlice.drop 14) = some (source, destination, total) →
    (Ethernet.Slices.strip frame total).isSome

theorem Framed.roundTrips {r : Ready} (h : Framed config.mac packets r)
    (hw : ∀ bytes ∈ packets, Whole config.mtu bytes) (hmac : config.mac.unicast = true) :
    RoundTrips config packets r := by
  have ⟨f, destination, hframe, hbytes⟩ := h
  have ⟨hmtu, source, address, hip⟩ := hw _ (mem_of_getElem? hbytes)
  have hslice : r.frame.asSlice = Ethernet.Header.encode ⟨destination, config.mac, Ethernet.IPV4⟩ ++
      (f.frame.asSlice ++ List.replicate (46 - f.frame.asSlice.length) 0) := by
    rw [hframe, Ethernet.asSlice_prepend, PacketBuf.asSlice_length]
  refine ⟨_, source, address, destination, hbytes, hip, (ipv4_bounds hip).left, hmtu, hslice, ?_⟩
  intro γ _ b max device frames hconf hdest haddr hfits hmax hrecv
  have hsetup : SameSetup b { b with device, controlSpare := none } := ⟨rfl, rfl, rfl⟩
  refine ⟨?_, ?_, fun b' out hout => recv_eq hmax hrecv hout⟩
  case refine_1 => rw [receiveFrames_eq, funext hsetup.receiveFrame]
  case refine_2 =>
    intro frame _ hsame
    have ⟨packet, hreceive, hpacket⟩ :=
      receiveFrame_framed (hsame.trans hslice) hip hconf hmac hdest haddr hfits
    rw [hreceive, map_some, hpacket]

theorem unasserted (e : EthernetIpv4 δ) : Unasserted e where
  validated slot h source destination kind := by
    have ⟨_, f, hf⟩ := validate_whole h
    rw [← hf, Ethernet.Slices.prepend_eq, isSome_some]
  waiting p _ source destination kind := by
    rw [Ethernet.Slices.prepend_eq, isSome_some]
  prepared frame := by
    refine ⟨_, Ethernet.Slices.prepareEmpty_eq frame, fun spare h packet source destination => ?_⟩
    cases hp : prepareEmpty frame
    case none =>
      rw [hp] at h
      cases h
    case some f =>
      rw [hp] at h
      cases h
      rw [Ethernet.Slices.encodeArp_eq, isSome_some]
  stripped frame source destination total h := by
    have hmax := (ipv4_bounds h).right
    have hmin := (ipv4_bounds h).left
    rw [length_drop, PacketBuf.asSlice_length] at hmax
    have ⟨packet, hstrip, _⟩ :=
      Ethernet.Slices.strip_eq (t := total) (by omega : total + 14 ≤ frame.len)
    rw [hstrip, isSome_some]

section

variable [Device δ]

theorem advance_submitted (e : EthernetIpv4 δ) (now : Duration) :
    (e.advance now).fst.submitted =
      e.submitted ++ ((e.flushing now).elim [] flushed).map Ready.tag := by
  rw [advance_eq, flushing]
  by_cases hlt : now < e.now
  case pos =>
    rw [if_pos hlt]
    exact (append_nil _).symm
  case neg =>
    have htimers := runTimers_induction (e := ensureSpare { e with now })
      (P := fun e' => e'.submitted = e.submitted)
      (fun e ip state _ h => (refresh_thins e ip state).submitted.trans h)
      (ensureSpare_aside { e with now }).submitted
    rw [if_neg hlt]
    dsimp only [elim_some]
    rw [(flush_ready _).right, releaseResolved_eq]
    exact congrArg (· ++ _) htimers

theorem step_submitted (e : EthernetIpv4 δ) (op : Op δ) :
    (e.step op).submitted = e.submitted ++ (e.transmitted op).map Ready.tag := by
  have hs := step_steps e op
  generalize e.step op = e' at hs
  cases hs
  case send slots =>
    rw [transmitted_none rfl, map_nil, append_nil, send]
    have hsend := sendSlots_sends e slots
    generalize e.sendSlots slots = o at hsend
    cases hsend
    case refused ha => exact ha.submitted
    case accepted k _ _ ha =>
      refine ha.submitted.trans ?_
      exact acceptAll_induction (k := 0) (P := fun e' _ => e'.submitted = e.submitted)
        (slots.take k) (fun _ _ _ _ hacc h => hacc.submitted_eq.trans h) rfl
  case static ip mac =>
    rw [transmitted_none rfl, map_nil, append_nil, addStaticNeighbor]
    dsimp only
    repeat' split
    case isTrue          => rfl
    case isFalse.isTrue  => rfl
    all_goals
      rw [releaseResolved_eq]
      rfl
  case manages hnone hm =>
    rw [transmitted_none hnone, map_nil, append_nil]
    exact (Thins.of_manages hm).submitted
  case advances e₁ t device spare frames h₁ ht hadv =>
    have hreceived : e₁.submitted = e.submitted := by
      rw [h₁]
      exact receiveFrames_induction (P := fun e' => e'.submitted = e.submitted)
        (fun _ _ hl h => hl.thins.submitted.trans h) frames rfl
    rw [transmitted_advancing hadv, advance_submitted, hreceived]

-- The packets that count as submitted are those that the device has taken.
theorem exec_submitted (e : EthernetIpv4 δ) (ops : List (Op δ)) :
    (Transition.exec step e ops).submitted =
      e.submitted ++ (logs step transmitted e ops).map Ready.tag := by
  refine logs_induction (l := [])
    (P := fun log (e' : EthernetIpv4 δ) => e'.submitted = e.submitted ++ log.map Ready.tag)
    (append_nil _).symm fun log e' op h => ?_
  rw [step_submitted, h, map_append, append_assoc]

end

section

variable [LawfulDevice δ] {r r' : EthernetIpv4 (Recorder δ)}

theorem Allocs.taken {d d' : Recorder δ} (h : Allocs d d') : d'.taken = d.taken := by
  induction h
  case refl          => rfl
  case tail _ heq ih => rw [heq]; exact ih

theorem flushFront_taken (r : EthernetIpv4 (Recorder δ)) (queue : List PacketBuf) :
    (r.flushFront queue).fst.device.taken =
      r.device.taken ++ queue.take ((r.flushFront queue).snd.toOption.getD 0) := by
  cases queue
  case nil => rw [take_nil, append_nil]; rfl
  case cons frame queue =>
    have hle {device : δ} {k n : Nat}
        (h : Device.send r.device.device ((frame :: queue).take k) = (device, .ok n)) :
        ((frame :: queue).take k).take n = (frame :: queue).take n := by
      have hn := (LawfulDevice.send_le h).trans (length_take_le ..)
      rw [take_take, Nat.min_eq_left hn]
    simp only [flushFront, Device.send]
    cases hs : Device.send r.device.device ((frame :: queue).take (r.front (frame :: queue).length))
    case mk device result =>
      cases result
      case ok n => exact congrArg (r.device.taken ++ ·) (hle hs)
      case error err =>
        dsimp only
        split <;> rfl

theorem flush_taken (r : EthernetIpv4 (Recorder δ)) :
    r.flush.fst.device.taken =
      r.device.taken ++ (r.flushedControl ++ r.flushed.map (·.frame)) := by
  have hc := flushFront_taken r r.control
  rw [flush, flushedControl, flushed]
  generalize r.flushFront r.control = o at hc
  obtain ⟨r₁, _ | n⟩ := o
  case error => exact hc
  dsimp only [andThen_ok]
  split
  case isTrue =>
    rw [map_nil, append_nil, submitControl_device]
    exact hc
  have hd := flushFront_taken (r₁.submitControl n) ((r₁.submitControl n).ready.map (·.frame))
  rw [submitControl_device, show r₁.device.taken = _ from hc, append_assoc] at hd
  generalize (r₁.submitControl n).flushFront _ = o at hd
  obtain ⟨r₂, _ | m⟩ := o
  case error => exact hd
  dsimp only [andThen_ok]
  rw [(submitData_eq r₂ m).right.left, map_take]
  exact hd

theorem advance_taken (r : EthernetIpv4 (Recorder δ)) (now : Duration) :
    (r.advance now).fst.device.taken = r.device.taken ++
      ((r.flushing now).elim [] flushedControl ++
        ((r.flushing now).elim [] flushed).map (·.frame)) := by
  rw [advance_eq]
  cases hf : r.flushing now
  case none => exact (append_nil _).symm
  case some r' =>
    dsimp only [elim_some]
    rw [flush_taken, (flushing_aloof hf).device.taken]

-- The application does not use the device on its own.
def Op.Spares : Op (Recorder δ) → Prop
  | .deviceMut f => ∀ d, (f d).taken = d.taken
  | _            => True

theorem step_taken {op : Op (Recorder δ)} (h : op.Spares) :
    (r.step op).device.taken = r.device.taken ++ r.handed op := by
  have hadvance {r₁ : EthernetIpv4 (Recorder δ)} {now : Duration}
      (hd : r₁.device.taken = r.device.taken) (hadv : r.advancing op = some (r₁, now)) :
      (r₁.advance now).fst.device.taken = r.device.taken ++ r.handed op := by
    rw [advance_taken, handed, transmitted_advancing hadv, sending, hadv, hd]
    rfl
  have hnone (hadv : r.advancing op = none) : r.device.taken ++ r.handed op = r.device.taken := by
    rw [handed, transmitted_none hadv, sending, hadv]
    exact append_nil _
  cases op
  case send slots  => exact (send_aloof r slots).device.taken.trans (hnone rfl).symm
  case alloc       => exact (alloc_aloof r).device.taken.trans (hnone rfl).symm
  case deviceMut f => exact (h r.device).trans (hnone rfl).symm
  case advance now => exact hadvance rfl rfl
  case pollAt now =>
    have hd : (Device.pollAt r.device now).fst.taken = r.device.taken := rfl
    rw [step, pollAt]
    cases hp : Device.pollAt r.device now
    case mk device result =>
      rw [hp] at hd
      cases result
      case error =>
        exact hd.trans (hnone (by simp [advancing, hp, Except.isOk, Except.toBool])).symm
      have hadv : r.advancing (.pollAt now) = some ({ r with device }, now) := by
        simp [advancing, hp, Except.isOk, Except.toBool]
      exact hadvance hd hadv
  case recv max =>
    have hd : (Device.recv r.dropSpare max).fst.taken = r.device.taken :=
      (dropSpare_recorder r).right
    rw [step, recv]
    split
    case isTrue hmax =>
      rw [andThen_fst]
      exact hadvance rfl (by simp [advancing, hmax])
    rename_i hmax
    cases hr : Device.recv r.dropSpare max
    case mk device result =>
      rw [hr] at hd
      cases result
      case error => exact hd.trans (hnone (by simp [advancing, hmax, hr, Except.toOption])).symm
      case ok frames =>
        dsimp only [andThen_ok]
        rw [andThen_fst, receiveFrames_now]
        exact hadvance ((receiveFrames_allocs _ frames).taken.trans hd)
          (by simp [advancing, hmax, hr, Except.toOption])
  case addStaticNeighbor ip mac =>
    rw [hnone rfl, step, addStaticNeighbor]
    dsimp only
    repeat' split
    case isTrue         => rfl
    case isFalse.isTrue => rfl
    all_goals
      rw [releaseResolved_eq]
      rfl
  -- The operations on the configuration do not use the device.
  all_goals
    rw [hnone rfl]
    simp only [step, addRoute, setGateway, removeRoute, removeNeighbor, configureIpv4]
    repeat' split
    all_goals rfl

theorem exec_taken {ops : List (Op (Recorder δ))} (h : ∀ op ∈ ops, op.Spares) :
    (Transition.exec step r ops).device.taken = r.device.taken ++ logs step handed r ops := by
  induction ops generalizing r
  case nil => exact (append_nil _).symm
  case cons op ops ih =>
    obtain ⟨hop, hops⟩ := forall_mem_cons.mp h
    exact (ih hops).trans (by rw [step_taken hop, logs, append_assoc])

end

-- The frames that the device takes in a run are those of the protocol itself and of packets that
-- were accepted. Every packet arrives as it was accepted, and framing never panics.
theorem framing_round_trip [LawfulDevice δ] {device : Recorder δ} {layout : Nat → Nat}
    {e₀ : EthernetIpv4 (Recorder δ)} (h : new device config layout = .ok e₀)
    (ops : List (Op (Recorder δ))) (hops : ∀ op ∈ ops, op.Spares) :
    let e := Transition.exec step e₀ ops
    e.device.taken = e₀.device.taken ++ logs step handed e₀ ops ∧
    e.submitted = (logs step transmitted e₀ ops).map Ready.tag ∧
    (∀ r ∈ logs step transmitted e₀ ops, RoundTrips config (logs step accepted e₀ ops) r) ∧
    Unasserted e := by
  have hf := new_fresh h
  have ⟨hwhole, hsent⟩ := hf.traced.exec ops
  have hmac : config.mac.unicast = true := by
    have hv := hf.valid
    simp only [InterfaceConfig.invalid, Bool.or_eq_false_iff, Bool.not_eq_false'] at hv
    tauto
  have hsubmitted := exec_submitted e₀ ops
  rw [hf.submitted, nil_append] at hsubmitted
  exact ⟨exec_taken hops, hsubmitted, fun r hr => (hsent r hr).roundTrips hwhole hmac, unasserted _⟩

-- A packet of twenty bytes is framed for a neighbor and sent.
def sentToPeer : List (Op (Recorder LoopbackDevice)) :=
  [.addStaticNeighbor 0x0a000002#32 2#48, .send [datagramToPeer], .advance (.fromSecs 1)]

theorem framing_round_trip_loopback : ∃ e₀, overRecorder = .ok e₀ ∧
    let e := Transition.exec step e₀ sentToPeer
    (logs step transmitted e₀ sentToPeer).length = 1 ∧
    e.device.taken = (logs step transmitted e₀ sentToPeer).map (·.frame) ∧
    e.device.taken = e₀.device.taken ++ logs step handed e₀ sentToPeer ∧
    e.submitted = (logs step transmitted e₀ sentToPeer).map Ready.tag ∧
    (∀ r ∈ logs step transmitted e₀ sentToPeer, RoundTrips (.new 0x0a000001#32 24 0x020000000001#48)
      (logs step accepted e₀ sentToPeer) r) ∧
    Unasserted e := by
  have hok : overRecorder.toOption.any (fun e₀ =>
      (logs step transmitted e₀ sentToPeer).length == 1 &&
      (Transition.exec step e₀ sentToPeer).device.taken ==
        (logs step transmitted e₀ sentToPeer).map (·.frame)) = true := by
    decide +kernel
  cases h : overRecorder
  case error => rw [h] at hok; cases hok
  case ok e₀ =>
    rw [h] at hok
    have ⟨hlen, htaken⟩ := (Bool.and_eq_true ..).mp hok
    refine ⟨e₀, rfl, beq_iff_eq.mp hlen, beq_iff_eq.mp htaken, framing_round_trip h sentToPeer ?_⟩
    simp [sentToPeer, Op.Spares]

end EthernetIpv4
