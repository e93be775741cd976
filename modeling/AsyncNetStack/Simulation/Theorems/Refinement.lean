import AsyncNetStack.Simulation.Experiment
import AsyncNetStack.Simulation.Theorems.Fabric

namespace Simulation

open Fabric List

namespace Port

def lane (port : Port) : Lane where
  queue    := port.queue
  capacity := port.capacity
  active   := port.active
  online   := port.online
  drained  := port.drained

theorem lane_recycle (port : Port) (frames : List PacketBuf) :
    (frames.foldl .recycle port).lane = port.lane := by
  induction frames generalizing port
  case nil                  => rfl
  case cons frame frames ih => exact ih (port.recycle frame)

end Port

namespace Network

variable {s s' : Network} {source target id : Nat}

-- The fabric that a network implements.
def fabric (s : Network) : Fabric where
  now     := s.now
  lanes   := s.ports.map Port.lane
  settled := s.stats.delivered + s.stats.faultDrops + s.stats.queueDrops + s.stats.unroutable +
    s.stats.disconnectedDrops
  serial  := s.serial

theorem lanes_getElem? (s : Network) (i : Nat) : s.fabric.lanes[i]? = s.ports[i]?.map Port.lane :=
  List.getElem?_map ..

theorem isOnline_eq (s : Network) (i : Nat) : s.isOnline i = s.fabric.isOnline i := by
  rw [isOnline, Fabric.isOnline, lanes_getElem?]
  cases s.ports[i]? <;> rfl

@[simp]
theorem fabric_dropFrames (s : Network) (frames : List PacketBuf) :
    (s.dropFrames frames).fabric = s.fabric := by
  simp only [fabric, dropFrames, map_map, Fabric.mk.injEq, true_and, and_true]
  exact map_congr_left fun port _ => port.lane_recycle frames

theorem fabric_modify {f : Port → Port} {g : Lane → Lane} (h : ∀ port, (f port).lane = g port.lane)
    (i : Nat) :
    fabric { s with ports := s.ports.modify i f } =
      { s.fabric with lanes := s.fabric.lanes.modify i g } := by
  simp only [fabric, map_modify h]

-- The pool of a port has no counterpart.
theorem fabric_modify_pool {f : Port → Port} (h : ∀ port, (f port).lane = port.lane) (i : Nat) :
    fabric { s with ports := s.ports.modify i f } = s.fabric := by
  rw [fabric_modify (g := id) h, modify_id]

@[simp]
theorem fabric_enqueue (s : Network) (source target : Nat) (frame : PacketBuf)
    (deliverAt : Duration) :
    (s.enqueue source target frame deliverAt).fabric =
      s.fabric.enqueue source target frame deliverAt := by
  simp only [enqueue, Fabric.enqueue, fabric, Fabric.mk.injEq, true_and, and_true]
  apply map_modify
  exact fun _ => rfl

@[simp]
theorem fabric_queueDrop (s : Network) : s.queueDrop.fabric = s.fabric.settle 1 := by
  simp only [fabric, queueDrop, bump, settle, Fabric.mk.injEq, true_and, and_true]
  omega

-- A packet is lost on its link, or arrives in the future.
theorem traverse_cases (s : Network) (source target len : Nat) :
    ∃ m, m.ports = s.ports ∧
      ((s.traverse source target len = (m, none) ∧ m.fabric = s.fabric.settle 1) ∨
      ∃ deliverAt, s.traverse source target len = (m, some deliverAt) ∧ m.fabric = s.fabric ∧
        s.now ≤ deliverAt) := by
  rw [traverse]
  dsimp only
  split
  case isTrue =>
    refine ⟨_, ?ports, .inl ⟨rfl, ?lost⟩⟩
    case ports => rfl
    case lost =>
      simp only [fabric, bump, settle, Fabric.mk.injEq, true_and, and_true]
      omega
  case isFalse =>
    refine ⟨_, ?ports, .inr ⟨_, rfl, ?kept, Duration.le_saturatingAdd ..⟩⟩
    all_goals rfl

def eligibleLane (source target : Nat) (f : Fabric) : Bool :=
  target != source && f.lanes[target]?.any fun lane => lane.active && lane.online

theorem eligible_eq (s : Network) (source target : Nat) :
    s.eligible source target = eligibleLane source target s.fabric := by
  rw [eligible, eligibleLane, lanes_getElem?]
  cases s.ports[target]? <;> rfl

-- Only queues grow during a transit.
theorem eligibleLane_transit {f f' : Fabric} {n : Nat} (h : Transit source f n f') :
    eligibleLane source target f' = eligibleLane source target f := by
  induction h
  case refl      => rfl
  case settle ih => exact ih
  case enqueue target' g _ _ _ _ _ _ _ _ ih =>
    rw [← ih]
    simp only [eligibleLane, Fabric.enqueue, List.getElem?_modify]
    cases g.lanes[target]?
    case none => rfl
    case some lane =>
      by_cases heq : target' = target <;> simp [heq, Lane.push]

theorem eligible_some (h : s.eligible source target) :
    ∃ port, s.ports[target]? = some port ∧ port.online := by
  rw [eligible, Bool.and_eq_true] at h
  cases hp : s.ports[target]?
  case none => simp [hp] at h
  case some port =>
    rw [hp, Option.any_some, Bool.and_eq_true] at h
    exact ⟨port, rfl, h.right.right⟩

-- A port that is not full has room for another frame.
theorem transit_enqueue {port : Port} {frame : PacketBuf} {deliverAt : Duration}
    (hp : s.ports[target]? = some port) (ho : port.online) (hfull : ¬s.isFull target)
    (hd : s.now ≤ deliverAt) :
    Transit source s.fabric 1 (s.enqueue source target frame deliverAt).fabric := by
  have hl : s.fabric.lanes[target]? = some port.lane := by rw [lanes_getElem?, hp, Option.map_some]
  have hroom : port.lane.queue.length ≠ port.lane.capacity := by
    simpa [isFull, hp, Port.lane] using hfull
  rw [fabric_enqueue]
  exact Transit.refl.enqueue hl ho hroom hd

theorem copyTo_transit (s : Network) (source target : Nat) (d : Datagram) :
    Transit source s.fabric (if s.eligible source target then 1 else 0)
      (s.copyTo source d target).fabric := by
  rw [copyTo]
  cases he : s.eligible source target
  case false => exact .refl
  case true =>
    obtain ⟨port, hp, ho⟩ := eligible_some he
    obtain ⟨m, hports, ⟨ht, hm⟩ | ⟨deliverAt, ht, hm, hd⟩⟩ :=
      s.traverse_cases source target d.bytes.length
    case inl =>
      simp only [Bool.not_true, Bool.false_eq_true, if_false, ht, if_true]
      rw [hm]
      exact Transit.refl.settle
    rw [← hports] at hp
    simp only [Bool.not_true, Bool.false_eq_true, if_false, ht, hp, if_true]
    split
    case isTrue =>
      rw [fabric_queueDrop, hm]
      exact Transit.refl.settle
    rename_i hfull
    have hcopy : fabric { m with ports := m.ports.modify target fun port =>
        (port.copy d.bytes d.fits).fst } = m.fabric := by
      apply fabric_modify_pool
      exact fun _ => rfl
    split
    case h_1 =>
      rw [fabric_queueDrop, hcopy, hm]
      exact Transit.refl.settle
    case h_2 copy _ =>
      rw [fabric_enqueue, hcopy, ← fabric_enqueue, ← hm]
      exact transit_enqueue hp ho hfull ((congrArg Fabric.now hm).trans_le hd)

theorem eligible_transit {n : Nat} (h : Transit source s.fabric n s'.fabric) :
    s'.eligible source = s.eligible source := by
  funext i
  rw [eligible_eq, eligible_eq, eligibleLane_transit h]

-- Every eligible port gets its copy, as eligibility does not change on the way.
theorem copies_transit (s : Network) (source : Nat) (d : Datagram) (targets : List Nat) :
    Transit source s.fabric (targets.filter (s.eligible source)).length
      (targets.foldl (·.copyTo source d ·) s).fabric := by
  induction targets generalizing s
  case nil => exact .refl
  case cons target targets ih =>
    have ht := s.copyTo_transit source target d
    have hts := ih (s.copyTo source d target)
    rw [eligible_transit ht] at hts
    have hlen : ((target :: targets).filter (s.eligible source)).length =
        (if s.eligible source target then 1 else 0) +
        (targets.filter (s.eligible source)).length := by
      rw [filter_cons]
      split <;> simp [Nat.add_comm]
    rw [hlen]
    exact ht.trans hts

-- An accepted frame counts once, but a broadcast once for each eligible recipient.
def shares (s : Network) (source : Nat) (frame : PacketBuf) : Nat :=
  if isBroadcast frame then ((List.range s.ports.length).filter (s.eligible source)).length else 1

theorem shares_transit {n : Nat} (h : Transit source s.fabric n s'.fabric) :
    s'.shares source = s.shares source := by
  have hlen : s'.ports.length = s.ports.length := by
    simpa [fabric] using h.length_lanes
  funext frame
  rw [shares, shares, eligible_transit h, hlen]

def Transmission.Forwards (source n : Nat) (s : Network) : Transmission → Prop
  | .accepted s'  => Transit source s.fabric n s'.fabric
  | .congested s' => s'.fabric = s.fabric
  | .invalid      => True

theorem transit_settle {frame : PacketBuf} (h : s'.fabric = s.fabric.settle 1) :
    Transit source s.fabric 1 (s'.dropFrames [frame]).fabric := by
  rw [fabric_dropFrames, h]
  exact Transit.refl.settle

theorem unicast_forwards (s : Network) (source : Nat) (frame : PacketBuf) (d : Datagram) :
    (s.unicast source frame d).Forwards source 1 s := by
  rw [unicast]
  split
  case h_1 =>
    refine transit_settle ?_
    simp only [fabric, bump, settle, Fabric.mk.injEq, true_and, and_true]
    omega
  case h_2 target _ =>
    split
    case isTrue =>
      refine transit_settle ?_
      simp only [fabric, bump, settle, Fabric.mk.injEq, true_and, and_true]
      omega
    rename_i honline
    -- Congestion only counts in `backpressure`, which has no part in the balance.
    split
    case isTrue => rfl
    rename_i hfull
    obtain ⟨m, hports, ⟨ht, hm⟩ | ⟨deliverAt, ht, hm, hd⟩⟩ :=
      s.traverse_cases source target d.bytes.length
    case inl =>
      rw [ht]
      exact transit_settle hm
    rw [ht]
    obtain ⟨port, hp, ho⟩ : ∃ port, s.ports[target]? = some port ∧ port.online := by
      cases hp : s.ports[target]?
      case none      => simp [isOnline, hp] at honline
      case some port => exact ⟨port, rfl, by simpa [isOnline, hp] using honline⟩
    rw [Transmission.Forwards, fabric_enqueue, hm, ← fabric_enqueue]
    exact transit_enqueue hp ho hfull hd

theorem transmit_forwards (s : Network) (source : Nat) (frame : PacketBuf) :
    (s.transmit source frame).Forwards source (s.shares source frame) s := by
  rw [transmit, shares, isBroadcast]
  cases datagram frame.asSlice
  case none => trivial
  case some d =>
    rw [Option.any_some]
    dsimp only
    split
    case isTrue =>
      rw [Transmission.Forwards, broadcast, fabric_dropFrames]
      exact s.copies_transit source d _
    case isFalse => exact s.unicast_forwards source frame d

-- The frames that were accepted, as many as the result says, are in transit.
theorem transmitAll_forwards (s : Network) (source accepted : Nat) (slots : List PacketBuf) :
    ∃ n, Transit source s.fabric ((slots.take n).map (s.shares source)).sum
        (s.transmitAll source accepted slots).fst.fabric ∧
      ((s.transmitAll source accepted slots).snd.snd = .ok (accepted + n) ∨
        n = 0 ∧ accepted = 0 ∧ ∃ err,
          (s.transmitAll source accepted slots).snd.snd = .error err) := by
  induction slots generalizing s accepted
  case nil => exact ⟨0, .refl, .inl rfl⟩
  case cons slot slots ih =>
    have h := s.transmit_forwards source slot
    rw [transmitAll]
    cases ht : s.transmit source slot
    case invalid =>
      dsimp only
      split
      case isTrue      => exact ⟨0, .refl, .inl rfl⟩
      case isFalse hne => exact ⟨0, .refl, .inr ⟨rfl, not_not.mp hne, _, rfl⟩⟩
    case congested s' =>
      rw [ht] at h
      exact ⟨0, (show s'.fabric = s.fabric from h) ▸ .refl, .inl rfl⟩
    case accepted s' =>
      rw [ht] at h
      obtain ⟨n, hn, hresult⟩ := ih s' (accepted + 1)
      rw [shares_transit h] at hn
      refine ⟨n + 1, ?_, ?_⟩
      case refine_1 =>
        rw [take_succ_cons, map_cons, sum_cons]
        exact Transit.trans h hn
      case refine_2 =>
        rcases hresult with hok | ⟨_, hne, _⟩
        case inl => exact .inl (hok.trans (by rw [Nat.add_assoc, Nat.add_comm 1]))
        case inr => cases hne

-- What the frames count for that a send has accepted according to its result.
def sent (s : Network) (source : Nat) (slots : List PacketBuf) : List Nat :=
  match (s.sendSlots source slots).snd.snd with
  | .ok n    => (slots.take n).map (s.shares source)
  | .error _ => []

theorem sendSlots_forwards (s : Network) (id : Nat) (slots : List PacketBuf) :
    (s.sendSlots id slots).fst = s ∧ s.sent id slots = [] ∨ s.isOnline id ∧
      Transit id s.fabric (s.sent id slots).sum (s.sendSlots id slots).fst.fabric := by
  rw [sent, sendSlots]
  split
  case isTrue => exact .inl ⟨rfl, rfl⟩
  split
  case isTrue => exact .inl ⟨rfl, rfl⟩
  rename_i honline
  obtain ⟨n, hn, hresult⟩ := s.transmitAll_forwards id 0 slots
  refine .inr ⟨by simpa using honline, ?_⟩
  rcases hresult with hok | ⟨rfl, _, err, herr⟩
  case inl =>
    rw [hok, Nat.zero_add]
    exact hn
  rw [herr]
  exact hn

def Op.sent (s : Network) : Op → List Nat
  | .send id slots => if s.live id then s.sent id slots else []
  | _              => []

-- Operations that accept no frames.
def Revises (s s' : Network) : Prop :=
  Changes s.fabric s'.fabric

theorem Revises.of_fabric_eq (h : s'.fabric = s.fabric) : Revises s s' :=
  Relation.ReflTransGen.refl.trans (h ▸ .refl)

variable (s)

theorem port_revises (pool : PoolId) (addresses : List Ipv4Addr) (frames queue : Nat) :
    Revises s (s.port pool addresses frames queue).fst := by
  rw [port]
  split
  case isTrue => exact .of_fabric_eq rfl
  refine .single ?_
  have := Change.join (f := s.fabric) (Port.new pool frames queue).lane rfl rfl
  simpa [fabric] using this

theorem setLink_revises (source target : Handle) (link : Link) :
    Revises s (s.setLink source target link).fst := by
  rw [setLink]
  split <;> exact .of_fabric_eq rfl

theorem advance_revises (elapsed : Duration) : Revises s (s.advance elapsed).fst := by
  rw [advance]
  split
  case isFalse => exact .of_fabric_eq rfl
  case isTrue  => exact .single (.tick (Nat.le_add_right ..))

theorem recv_revises (id max : Nat) : Revises s (s.recv id max).fst := by
  rw [recv]
  cases hp : s.ports[id]?
  case none => exact .of_fabric_eq rfl
  case some port =>
    refine .single ?_
    have hl : s.fabric.lanes[id]? = some port.lane := by rw [lanes_getElem?, hp, Option.map_some]
    convert Change.recv max hl using 1
    simp only [fabric, settle, Fabric.mk.injEq, true_and, and_true]
    refine ⟨?lanes, ?settled⟩
    case lanes => exact map_modify_at hp rfl
    case settled =>
      have : s.arrived max port.queue = port.lane.arrived s.now max := rfl
      rw [this]
      omega

theorem alloc_revises (id : Nat) : Revises s (s.alloc id).fst := by
  rw [alloc]
  split
  case h_1 => exact .of_fabric_eq rfl
  refine .of_fabric_eq ?_
  apply fabric_modify_pool
  exact fun _ => rfl

theorem fabric_disconnect (i : Nat) : (s.disconnect i).fabric = s.fabric.disconnect i := by
  have hports : (s.ports.modify i .goOffline).map Port.lane =
      (s.ports.map Port.lane).modify i .goOffline := by
    apply map_modify
    exact fun _ => rfl
  rw [disconnect, fabric_dropFrames]
  simp only [fabric, Fabric.disconnect, ← hports, Fabric.mk.injEq, true_and, and_true]
  refine ⟨?lanes, ?settled⟩
  case lanes =>
    apply map_mapIdx_eq
    exact fun _ _ => rfl
  case settled =>
    have := map_mapIdx_eq (k := id) (h := Port.lane)
      (f := fun j port => port.queue.filter (!unrelated i j ·))
      (g := fun j lane => lane.queue.filter (!unrelated i j ·)) (fun _ _ => rfl)
      (s.ports.modify i .goOffline)
    rw [← this, map_id]
    omega

theorem dropDevice_revises (i : Nat) : Revises s (s.dropDevice i) := by
  have hd : Change s.fabric (s.disconnect i).fabric := fabric_disconnect s i ▸ .disconnect i
  have hk : Change (s.disconnect i).fabric (s.dropDevice i).fabric := by
    have := Change.keep (f := (s.disconnect i).fabric) i
      (g := fun lane => { lane with active := false }) fun lane => ⟨rfl, rfl, rfl, id⟩
    rwa [← fabric_modify (f := fun port => { port with active := false }) fun _ => rfl] at this
  exact .tail (.single hd) hk

-- A send forwards the frames of an online device, and all else accepts no frames.
theorem step_cases (op : Op) :
    (∃ id slots, op = .send id slots ∧ s.isOnline id ∧
      Transit id s.fabric (op.sent s).sum (s.step op).fabric) ∨
    op.sent s = [] ∧ Revises s (s.step op) := by
  have hrevises (h : Revises s (s.perform op)) : Revises s (s.step op) := by
    rw [step]
    split
    case isTrue  => exact h
    case isFalse => exact .of_fabric_eq rfl
  cases op
  case port pool addresses frames queue =>
    exact .inr ⟨rfl, hrevises (s.port_revises pool addresses frames queue)⟩
  case setLink source target link       =>
    exact .inr ⟨rfl, hrevises (s.setLink_revises source target link)⟩
  case advance elapsed                  => exact .inr ⟨rfl, hrevises (s.advance_revises elapsed)⟩
  case recv id max                      => exact .inr ⟨rfl, hrevises (s.recv_revises id max)⟩
  case alloc id                         => exact .inr ⟨rfl, hrevises (s.alloc_revises id)⟩
  case dropDevice id                    => exact .inr ⟨rfl, hrevises (s.dropDevice_revises id)⟩
  case recycle frame =>
    exact .inr ⟨rfl, hrevises (.of_fabric_eq (s.fabric_dropFrames [frame]))⟩
  case send id slots =>
    simp only [step, Op.devices, all_cons, all_nil, Bool.and_true, Op.sent]
    split
    case isFalse => exact .inr ⟨rfl, .of_fabric_eq rfl⟩
    rcases s.sendSlots_forwards id slots with ⟨h, hsent⟩ | ⟨ho, hf⟩
    case inl => exact .inr ⟨hsent, .of_fabric_eq (congrArg fabric h)⟩
    case inr => exact .inl ⟨id, slots, rfl, ho, hf⟩

end Network

namespace AccessPoint

open Network

variable (ap : AccessPoint)

theorem port_revises (pool : PoolId) (addresses : List Ipv4Addr) (frames queue : Nat) :
    Revises ap.network (ap.port pool addresses frames queue).fst.network := by
  rw [port, Network.port]
  split
  case h_1 network err h =>
    split at h <;> cases h
    exact .of_fabric_eq rfl
  case h_2 network id h =>
    split at h <;> cases h
    refine .single ?_
    have := Change.join (f := ap.network.fabric)
      { (Port.new pool frames queue).lane with online := false } rfl rfl
    convert this using 1
    simp only [fabric, Fabric.mk.injEq, true_and, and_true]
    rw [modify_eq_set_getElem?]
    simp [Port.lane]

theorem stop_revises : Revises ap.network ap.stop.network := by
  refine .single ?_
  convert Change.shutdown using 1
  rw [stop, fabric_dropFrames]
  simp only [fabric, shutdown, map_map, Fabric.mk.injEq, true_and, and_true]
  refine ⟨rfl, ?_⟩
  rw [flatMap_map]
  exact (Nat.add_assoc ..).symm

theorem associate_revises (device : Handle) :
    Revises ap.network (ap.associate device).fst.network := by
  rw [associate]
  split
  case h_1 => exact .of_fabric_eq rfl
  split
  case isTrue => exact .of_fabric_eq rfl
  refine .single ?_
  have := Change.keep (f := ap.network.fabric) device.id
    (g := fun lane => { lane with online := true }) fun lane => ⟨rfl, rfl, rfl, fun _ => rfl⟩
  rwa [← fabric_modify (f := fun port => { port with online := true }) fun _ => rfl] at this

theorem disassociate_revises (device : Handle) :
    Revises ap.network (ap.disassociate device).fst.network := by
  rw [disassociate]
  split
  case h_1 => exact .of_fabric_eq rfl
  case h_2 => exact .single (fabric_disconnect ap.network device.id ▸ .disconnect _)

def Op.sent (ap : AccessPoint) : Op → List Nat
  | .send id slots => (Network.Op.send id slots).sent ap.network
  | _              => []

theorem step_cases (op : Op) :
    (∃ id slots, op = .send id slots ∧ ap.network.isOnline id ∧
      Transit id ap.network.fabric (op.sent ap).sum (ap.step op).network.fabric) ∨
    op.sent ap = [] ∧ Revises ap.network (ap.step op).network := by
  have hnetwork (op : Network.Op) (h : ∀ id slots, op ≠ .send id slots) :
      Revises ap.network (ap.onNetwork op).network :=
    ((ap.network.step_cases op).resolve_left fun ⟨id, slots, heq, _⟩ => h id slots heq).right
  cases op
  case port pool addresses frames queue =>
    exact .inr ⟨rfl, ap.port_revises pool addresses frames queue⟩
  case start => exact .inr ⟨rfl, .of_fabric_eq rfl⟩
  case stop  => exact .inr ⟨rfl, ap.stop_revises⟩
  case associate device =>
    refine .inr ⟨rfl, ?_⟩
    rw [step]
    split
    case isTrue  => exact ap.associate_revises device
    case isFalse => exact .of_fabric_eq rfl
  case disassociate device =>
    refine .inr ⟨rfl, ?_⟩
    rw [step]
    split
    case isTrue  => exact ap.disassociate_revises device
    case isFalse => exact .of_fabric_eq rfl
  case send id slots =>
    rcases ap.network.step_cases (.send id slots) with ⟨id', slots', heq, h⟩ | h
    case inl =>
      cases heq
      exact .inl ⟨id, slots, rfl, h⟩
    case inr => exact .inr h
  all_goals exact .inr ⟨rfl, hnetwork _ (by simp)⟩

end AccessPoint

end Simulation
