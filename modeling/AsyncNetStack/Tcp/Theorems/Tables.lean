import AsyncNetStack.Lib.Keys
import AsyncNetStack.Tcp.Theorems.Acts

open Tcp Fallible List Option Bool

namespace Connection

variable {cfg : TcpConfig} {c c' : Connection}

-- What stays of a connection, no matter what happens to it.
structure Succeeds (c c' : Connection) : Prop where
  localAddr  : c'.localAddr = c.localAddr
  remoteAddr : c'.remoteAddr = c.remoteAddr
  accepted   : c.accepted → c'.accepted
  terminal   : c.state.isTerminal → c'.state.isTerminal

theorem Succeeds.refl (c : Connection) : Succeeds c c :=
  ⟨rfl, rfl, id, id⟩

theorem Succeeds.trans {c'' : Connection} (h₁ : Succeeds c c') (h₂ : Succeeds c' c'') :
    Succeeds c c'' where
  localAddr  := h₂.localAddr.trans h₁.localAddr
  remoteAddr := h₂.remoteAddr.trans h₁.remoteAddr
  accepted   := h₂.accepted ∘ h₁.accepted
  terminal   := h₂.terminal ∘ h₁.terminal

theorem Succeeds.not_accepted (h : Succeeds c c') (ha : c'.accepted = false) : c.accepted = false :=
  eq_false_iff.mpr fun hc => by simp [h.accepted hc] at ha

theorem Succeeds.live (h : Succeeds c c') (ht : c'.state.isTerminal = false) :
    c.state.isTerminal = false :=
  eq_false_iff.mpr fun hc => by simp [h.terminal hc] at ht

theorem Turns.succeeds (h : Turns cfg c c') : Succeeds c c' := by
  have he := h.identity_eq
  simp only [identity, Prod.mk.injEq] at he
  exact ⟨he.left, he.right.left, fun ha => he.right.right.trans ha, h.terminal⟩

end Connection

namespace TcpPool

open Connection (Succeeds Turns)

variable {δ : Type} {p p' : TcpPool δ} {id i j : ConnectionId} {c c' : Connection}
variable {connections : Std.TreeMap ConnectionId Connection}

-- What holds of the tables of a pool.
-- * `unique`: at most one live connection uses a pair of addresses
-- * `backed`: a connection which was not handed out yet belongs to a listener
structure Tables (p : TcpPool δ) : Prop where
  unique      : ∀ (i j : ConnectionId) (c c' : Connection),
    p.connections[i]? = some c → p.connections[j]? = some c' →
    c.state.isTerminal = false → c'.state.isTerminal = false →
    c.localAddr = c'.localAddr → c.remoteAddr = c'.remoteAddr → i = j
  backed      : ∀ (i : ConnectionId) (c : Connection), p.connections[i]? = some c →
    c.accepted = false → c.localAddr ∈ p.listeners
  issued      : ∀ i ∈ p.connections, i < p.nextId
  connections : p.connections.size ≤ p.config.maxConnections
  listeners   : p.listeners.size ≤ p.config.maxListeners
  resets      : p.resets.length ≤ p.config.controlCapacity
  events      : p.events.length ≤ p.config.eventCapacity
  capacity    : p.config.verboseState → 0 < p.config.eventCapacity

-- Every connection is succeeded by one under the same identifier.
def Replaced (m m' : Std.TreeMap ConnectionId Connection) : Prop :=
  ∀ id : ConnectionId, Option.Rel Succeeds m[id]? m'[id]?

namespace Replaced

variable {m m' : Std.TreeMap ConnectionId Connection}

theorem exists_before (h : Replaced m m') (hc : m'[i]? = some c') :
    ∃ c, m[i]? = some c ∧ Succeeds c c' := by
  have h := h i
  rw [hc] at h
  generalize m[i]? = o at h
  cases h
  case some c h => exact ⟨c, rfl, h⟩

theorem mem_iff (h : Replaced m m') (i : ConnectionId) : i ∈ m' ↔ i ∈ m := by
  have h := h i
  rw [Std.TreeMap.mem_iff_isSome_getElem?, Std.TreeMap.mem_iff_isSome_getElem?]
  generalize m[i]? = o, m'[i]? = o' at h
  cases h <;> simp

theorem of_turns {cfg : TcpConfig}
    (h : ∀ id : ConnectionId, Option.Rel (Turns cfg) m[id]? m'[id]?) : Replaced m m' := by
  intro i
  have h := h i
  generalize m[i]? = o, m'[i]? = o' at h ⊢
  cases h
  case none   => exact .none
  case some h => exact .some h.succeeds

theorem of_accept (h : m[id]? = some c) : Replaced m (m.insert id { c with accepted := true }) := by
  intro i
  rw [Std.TreeMap.getElem?_insert]
  split
  case isTrue he =>
    obtain rfl := Std.LawfulEqOrd.eq_of_compare he
    rw [h]
    exact .some ⟨rfl, rfl, fun _ => rfl, fun h => h⟩
  cases m[i]?
  case none   => exact .none
  case some c => exact .some (.refl c)

end Replaced

theorem find_none {localAddr remoteAddr : SocketAddr} (h : p.find localAddr remoteAddr = none)
    (hc : p.connections[i]? = some c) (ht : c.state.isTerminal = false)
    (hl : c.localAddr = localAddr) : c.remoteAddr ≠ remoteAddr := by
  intro hr
  rw [find, map_eq_none_iff, List.find?_eq_none] at h
  have := h (i, c) (Std.TreeMap.mem_toList_iff_getElem?_eq_some.mpr hc)
  simp [hl, hr, ht] at this

namespace Tables

theorem replace (ht : p.Tables) (h : Replaced p.connections connections) :
    Tables { p with connections } := by
  refine { ht with unique := ?unique, backed := ?backed, issued := ?issued, connections := ?size }
  case unique =>
    intro i j c c' hi hj hc hc' hl hr
    have ⟨d, hd, hs⟩ := h.exists_before hi
    have ⟨d', hd', hs'⟩ := h.exists_before hj
    refine ht.unique i j d d' hd hd' (hs.live hc) (hs'.live hc') ?_ ?_
    · rw [← hs.localAddr, hl, hs'.localAddr]
    · rw [← hs.remoteAddr, hr, hs'.remoteAddr]
  case backed =>
    intro i c hc ha
    have ⟨d, hd, hs⟩ := h.exists_before hc
    rw [hs.localAddr]
    exact ht.backed i d hd (hs.not_accepted ha)
  case issued => exact fun i hi => ht.issued i ((h.mem_iff i).mp hi)
  case size => exact Std.TreeMap.size_eq_of_mem h.mem_iff ▸ ht.connections

theorem insert_new (ht : p.Tables) (hfind : p.find c.localAddr c.remoteAddr = none)
    (hs : p.connections.size ≠ p.config.maxConnections)
    (hb : c.accepted = false → c.localAddr ∈ p.listeners) :
    Tables {
      p with
      nextId      := p.nextId + 1
      connections := p.connections.insert p.nextId c
    } := by
  have hnew : p.nextId ∉ p.connections := fun h => Nat.lt_irrefl _ (ht.issued _ h)
  refine { ht with unique := ?unique, backed := ?backed, issued := ?issued, connections := ?size }
  case unique =>
    intro i j d d' hi hj hd hd' hl hr
    rcases getElem?_insert_cases hi with ⟨rfl, rfl⟩ | hi' <;>
      rcases getElem?_insert_cases hj with ⟨rfl, rfl⟩ | hj'
    · rfl
    · exact absurd hr.symm (find_none hfind hj' hd' hl.symm)
    · exact absurd hr (find_none hfind hi' hd hl)
    · exact ht.unique i j d d' hi' hj' hd hd' hl hr
  case backed =>
    intro i d hi hd
    rcases getElem?_insert_cases hi with ⟨rfl, rfl⟩ | hi
    · exact hb hd
    · exact ht.backed i d hi hd
  case issued =>
    intro i hi
    rcases Std.TreeMap.mem_insert.mp hi with he | hi
    · exact Nat.lt_succ_of_le (Nat.le_of_eq (Std.LawfulEqOrd.eq_of_compare he).symm)
    · exact Nat.lt_succ_of_lt (ht.issued i hi)
  case size =>
    have := ht.connections
    dsimp only
    rw [Std.TreeMap.size_insert_new hnew]
    omega

theorem release (ht : p.Tables)
    (h : ∀ (id : ConnectionId) c, connections[id]? = some c → p.connections[id]? = some c) :
    Tables { p with connections } := by
  have hm (i : ConnectionId) (hi : i ∈ connections) : i ∈ p.connections := by
    have ⟨c, hc⟩ := isSome_iff_exists.mp (Std.TreeMap.mem_iff_isSome_getElem?.mp hi)
    exact mem_of_getElem? (h i c hc)
  exact { ht with
    unique i j c c' hi hj := ht.unique i j c c' (h i c hi) (h j c' hj)
    backed i c hi         := ht.backed i c (h i c hi)
    issued i hi           := ht.issued i (hm i hi)
    connections           := (Std.TreeMap.size_le_of_mem hm).trans ht.connections }

-- A listener takes the connections with it that were not handed out.
theorem unlisten (ht : p.Tables) (address : SocketAddr) : (p.unlisten address).Tables := by
  have hkept (i : ConnectionId) (c : Connection)
      (h : (p.unlisten address).connections[i]? = some c) :
      p.connections[i]? = some c ∧ (c.accepted || c.localAddr != address) := by
    rwa [TcpPool.unlisten, Std.TreeMap.getElem?_filter', filter_eq_some_iff] at h
  have hr := ht.release fun i c h => (hkept i c h).left
  refine { hr with backed := ?backed, listeners := ?size }
  case backed =>
    intro i c hc ha
    obtain ⟨hc, hk⟩ := hkept i c hc
    refine Std.TreeSet.mem_erase.mpr ⟨fun he => ?_, ht.backed i c hc ha⟩
    simp [ha, Std.LawfulEqOrd.eq_of_compare he] at hk
  case size => exact Std.TreeSet.size_erase_le.trans ht.listeners

theorem init (device : δ) {cfg : TcpConfig} (h : cfg.rejected = false) :
    (init device cfg).Tables := by
  simp only [TcpConfig.rejected, or_eq_false_iff, and_eq_false_imp, beq_eq_false_iff_ne] at h
  exact {
    unique      := by simp [TcpPool.init]
    backed      := by simp [TcpPool.init]
    issued      := fun i hi => absurd hi Std.TreeMap.not_mem_emptyc
    connections := Nat.zero_le _
    listeners   := Nat.zero_le _
    resets      := Nat.zero_le _
    events      := Nat.zero_le _
    capacity    := fun hv => by
      simp_all only [TcpPool.init, forall_const]
      omega
  }

end Tables

theorem Act.tables (h : Act p p') (ht : p.Tables) : p'.Tables := by
  cases h
  case aside                    => exact { ht with }
  case turns h                  => exact ht.replace (.of_turns h)
  case release h                => exact ht.release h
  case active iss _ _ hf hs     => exact ht.insert_new hf hs nofun
  case passive iss _ _ hf hs hl => exact ht.insert_new hf hs fun _ => hl
  case accept hc                => exact ht.replace (.of_accept hc)
  case unlisten address         => exact ht.unlisten address
  case listen address hs =>
    have hsize : (p.listeners.insert address).size ≤ p.listeners.size + 1 :=
      Std.TreeSet.size_insert_le
    exact { ht with
      backed i c hi ha := Std.TreeSet.mem_insert.mpr (.inr (ht.backed i c hi ha))
      listeners        := by
        have := ht.listeners
        dsimp only
        omega }
  case queue reset hr =>
    refine { ht with resets := ?_ }
    have := ht.resets
    simp only [length_append, length_singleton]
    omega
  case flush hr =>
    refine { ht with resets := ?_ }
    have := ht.resets
    rw [hr, length_cons] at this
    dsimp only
    omega
  case event e hv =>
    refine { ht with events := ?_ }
    have hpos := ht.capacity hv
    have := ht.events
    simp only [length_append, length_singleton]
    split
    · rw [length_tail]
      omega
    · omega
  case popEvent =>
    refine { ht with events := ?_ }
    have := ht.events
    simp only [length_tail]
    omega

theorem Acts.tables (h : Acts p p') (ht : p.Tables) : p'.Tables := by
  induction h
  case refl => exact ht
  case tail h ih => exact h.tables ih

-- The identifiers that were issued before stay with their connections.
structure Keeps (p p' : TcpPool δ) : Prop where
  config : p'.config = p.config
  issued : p.nextId ≤ p'.nextId
  before : ∀ (i : ConnectionId) (c' : Connection), i < p.nextId → p'.connections[i]? = some c' →
    ∃ c, p.connections[i]? = some c ∧ Succeeds c c'

namespace Keeps

theorem trans {p'' : TcpPool δ} (h₁ : Keeps p p') (h₂ : Keeps p' p'') : Keeps p p'' where
  config := h₂.config.trans h₁.config
  issued := h₁.issued.trans h₂.issued
  before i c'' hi hc := by
    have ⟨c', hc', hs'⟩ := h₂.before i c'' (Nat.lt_of_lt_of_le hi h₁.issued) hc
    have ⟨c, hc, hs⟩ := h₁.before i c' hi hc'
    exact ⟨c, hc, hs.trans hs'⟩

theorem of_eq (hf : p'.config = p.config) (hi : p'.nextId = p.nextId)
    (hc : p'.connections = p.connections) : Keeps p p' where
  config := hf
  issued := Nat.le_of_eq hi.symm
  before _ c' _ h := ⟨c', hc ▸ h, .refl c'⟩

theorem of_replaced (h : Replaced p.connections connections) : Keeps p { p with connections } where
  config := rfl
  issued := Nat.le_refl _
  before _ _ _ hc := h.exists_before hc

theorem insert_new (c : Connection) :
    Keeps p {
      p with
      nextId      := p.nextId + 1
      connections := p.connections.insert p.nextId c
    } where
  config := rfl
  issued := Nat.le_succ _
  before i c' hi hc := by
    rcases getElem?_insert_cases hc with ⟨rfl, -⟩ | hc
    · exact absurd hi (Nat.lt_irrefl _)
    · exact ⟨c', hc, .refl c'⟩

-- A connection that was not there before has a new identifier.
theorem fresh (h : Keeps p p') (hi : i ∈ p'.connections) (hn : i ∉ p.connections) :
    p.nextId ≤ i := by
  have ⟨c', hc'⟩ := isSome_iff_exists.mp (Std.TreeMap.mem_iff_isSome_getElem?.mp hi)
  by_contra hlt
  have ⟨c, hc, _⟩ := h.before i c' (Nat.lt_of_not_le hlt) hc'
  exact hn (mem_of_getElem? hc)

-- A connection that was handed out stays so.
theorem accepted (h : Keeps p p') (hi : i < p.nextId)
    (ha : ∀ c ∈ p.connections[i]?, c.accepted) : ∀ c ∈ p'.connections[i]?, c.accepted := by
  intro c' hc'
  have ⟨c, hc, hs⟩ := h.before i c' hi hc'
  exact hs.accepted (ha c hc)

end Keeps

theorem Act.keeps (h : Act p p') : Keeps p p' := by
  have released {connections : Std.TreeMap ConnectionId Connection}
      (h : ∀ (id : ConnectionId) c, connections[id]? = some c → p.connections[id]? = some c) :
      Keeps p { p with connections } :=
    ⟨rfl, Nat.le_refl _, fun i c' _ hc => ⟨c', h i c' hc, .refl c'⟩⟩
  cases h
  case turns h   => exact .of_replaced (.of_turns h)
  case release h => exact released h
  case active    => exact .insert_new _
  case passive   => exact .insert_new _
  case accept hc => exact .of_replaced (.of_accept hc)
  case unlisten address =>
    have h : Keeps p { p with connections := (p.unlisten address).connections } := by
      refine released fun i c hc => ?_
      rw [TcpPool.unlisten, Std.TreeMap.getElem?_filter', filter_eq_some_iff] at hc
      exact hc.left
    exact h.trans (.of_eq rfl rfl rfl)
  all_goals exact .of_eq rfl rfl rfl

theorem Acts.keeps (h : Acts p p') : Keeps p p' := by
  induction h
  case refl => exact .of_eq rfl rfl rfl
  case tail h ih => exact ih.trans h.keeps

-- How a connection came into being.
inductive Origin
  | active
  | passive
  deriving DecidableEq

def Op.origin : Op δ → Origin
  | .connect .. => .active
  | _           => .passive

-- The identifiers of the connections that come into being with an operation.
def opened [Device δ] (p : TcpPool δ) (op : Op δ) : List ConnectionId :=
  (p.step op).connections.keys.filter (· ∉ p.connections)

-- The identifier which an operation hands out.
def handed (p : TcpPool δ) : Op δ → Option ConnectionId
  | .accept address =>
    match (p.accept address).snd with
    | .ok id   => id
    | .error _ => none
  | _ => none

end TcpPool

-- A pool together with the history of its run. No transition depends on the history.
-- * `opened`: the identifiers of the connections that came into being
-- * `handed`: the identifiers returned by `accept`
structure ObservedPool (δ : Type) where
  pool   : TcpPool δ
  opened : List (ConnectionId × TcpPool.Origin)
  handed : List ConnectionId

namespace ObservedPool

open TcpPool

variable {δ : Type}

-- What the history says about the tables.
structure Chronicle (o : ObservedPool δ) : Prop where
  tables  : o.pool.Tables
  issued  : ∀ x ∈ o.opened, x.fst < o.pool.nextId
  nodup   : (o.opened.map (·.fst)).Nodup
  known   : ∀ id ∈ o.pool.connections, id ∈ o.opened.map (·.fst)
  active  : ∀ id, (id, Origin.active) ∈ o.opened → ∀ c ∈ o.pool.connections[id]?, c.accepted
  passive : ∀ id ∈ o.handed, (id, Origin.passive) ∈ o.opened
  handed  : ∀ id ∈ o.handed, ∀ c ∈ o.pool.connections[id]?, c.accepted
  once    : o.handed.Nodup

theorem Chronicle.init {p : TcpPool δ} (h : p.Tables) (he : p.connections = ∅) :
    Chronicle ⟨p, [], []⟩ where
  tables  := h
  issued  := nofun
  nodup   := .nil
  known   := by simp [he]
  active  := nofun
  passive := nofun
  handed  := nofun
  once    := .nil

variable [Device δ]

def step (o : ObservedPool δ) (op : TcpPool.Op δ) : ObservedPool δ where
  pool   := o.pool.step op
  opened := o.opened ++ (o.pool.opened op).map (·, op.origin)
  handed := o.handed ++ (o.pool.handed op).toList

def run (p : TcpPool δ) (ops : List (TcpPool.Op δ)) : ObservedPool δ :=
  Transition.exec step ⟨p, [], []⟩ ops

theorem run_pool (p : TcpPool δ) (ops : List (TcpPool.Op δ)) :
    (run p ops).pool = Transition.exec TcpPool.step p ops := by
  have h (o : ObservedPool δ) :
      (Transition.exec step o ops).pool = Transition.exec TcpPool.step o.pool ops := by
    induction ops generalizing o
    case nil            => rfl
    case cons op ops ih => exact ih (o.step op)
  exact h _

variable {o : ObservedPool δ}
variable {op : TcpPool.Op δ}

-- What `accept` hands out was opened passively, and was not handed out before.
theorem Chronicle.accept (h : o.Chronicle) {id : ConnectionId} (hid : id ∈ o.pool.handed op) :
    id ∉ o.handed ∧ (id, Origin.passive) ∈ o.opened ∧ id ∈ o.pool.connections ∧
    ∀ c ∈ (o.pool.step op).connections[id]?, c.accepted := by
  cases op <;> try cases hid
  case accept address =>
  simp only [TcpPool.handed, TcpPool.step] at hid ⊢
  rcases o.pool.accept_cases address with ⟨e, he⟩ | he | ⟨i, c, hl, hc, ha, hn, he⟩ <;>
    rw [he] at hid ⊢ <;> cases hid
  have hm := mem_of_getElem? hc
  refine ⟨fun hh => ?_, ?_, hm, ?_⟩
  · simp [h.handed id hh c hc] at hn
  · obtain ⟨⟨j, origin⟩, hx, hj⟩ := mem_map.mp (h.known id hm)
    obtain rfl : j = id := hj
    cases origin
    case passive => exact hx
    case active => simp [h.active j hx c hc] at hn
  · simp

theorem mem_opened {p : TcpPool δ} {id : ConnectionId} :
    id ∈ p.opened op ↔ id ∈ (p.step op).connections ∧ id ∉ p.connections := by
  simp [TcpPool.opened]

-- Only `connect` opens connections actively, and these need not be handed out.
theorem opened_active {p : TcpPool δ} {id : ConnectionId} (h : id ∈ p.opened op)
    (ho : op.origin = .active) : ∀ c ∈ (p.step op).connections[id]?, c.accepted := by
  cases op <;> try cases ho
  case connect localAddr remoteAddr sequence =>
  have ⟨hm, hn⟩ := mem_opened.mp h
  intro c hc
  simp only [TcpPool.step] at hm hc
  rcases p.connect_cases localAddr remoteAddr sequence with ⟨e, he⟩ | ⟨iss, -, -, -, -, he⟩ <;>
    rw [he] at hm hc
  · exact absurd hm hn
  · rcases getElem?_insert_cases hc with ⟨-, rfl⟩ | hc
    · rfl
    · exact absurd (mem_of_getElem? hc) hn

theorem Chronicle.step (h : o.Chronicle) (op : TcpPool.Op δ) : (o.step op).Chronicle := by
  have hacts := o.pool.step_acts op
  have hkeeps := hacts.keeps
  have htables := hacts.tables h.tables
  have hids : (o.step op).opened.map (·.fst) = o.opened.map (·.fst) ++ o.pool.opened op := by
    simp [ObservedPool.step, Function.comp_def]
  have hnew {x : ConnectionId × Origin} (hx : x ∈ (o.step op).opened) :
      x ∈ o.opened ∨ x.fst ∈ o.pool.opened op ∧ x.snd = op.origin := by
    rcases mem_append.mp hx with hx | hx
    · exact .inl hx
    · have ⟨id, hid, he⟩ := mem_map.mp hx
      subst he
      exact .inr ⟨hid, rfl⟩
  have hhanded {id : ConnectionId} (hid : id ∈ (o.step op).handed) :
      id ∈ o.handed ∨ id ∈ o.pool.handed op :=
    (mem_append.mp hid).imp_right mem_toList.mp
  refine ⟨htables, ?issued, ?nodup, ?known, ?active, ?passive, ?handed, ?once⟩
  case issued =>
    intro x hx
    rcases hnew hx with hx | ⟨hx, -⟩
    · exact Nat.lt_of_lt_of_le (h.issued x hx) hkeeps.issued
    · exact htables.issued _ (mem_opened.mp hx).left
  case nodup =>
    rw [hids, nodup_append]
    refine ⟨h.nodup, Std.TreeMap.nodup_keys.filter _, ?_⟩
    rintro _ hold id hid rfl
    have ⟨x, hx, he⟩ := mem_map.mp hold
    have ⟨hm, hn⟩ := mem_opened.mp hid
    have hlt := he ▸ h.issued x hx
    exact Nat.not_le_of_lt hlt (hkeeps.fresh hm hn)
  case known =>
    intro id hid
    rw [hids, mem_append]
    by_cases hold : id ∈ o.pool.connections
    · exact .inl (h.known id hold)
    · exact .inr (mem_opened.mpr ⟨hid, hold⟩)
  case active =>
    intro id hx
    rcases hnew hx with hx | ⟨hx, ho⟩
    · exact hkeeps.accepted (h.issued _ hx) (h.active id hx)
    · exact opened_active hx ho.symm
  case passive =>
    intro id hid
    rcases hhanded hid with hid | hid
    · exact mem_append_left _ (h.passive id hid)
    · exact mem_append_left _ (h.accept hid).right.left
  case handed =>
    intro id hid
    rcases hhanded hid with hid | hid
    · exact hkeeps.accepted (h.issued _ (h.passive id hid)) (h.handed id hid)
    · exact (h.accept hid).right.right.right
  case once =>
    show (o.handed ++ (o.pool.handed op).toList).Nodup
    rw [nodup_append]
    refine ⟨h.once, ?_, ?_⟩
    · cases o.pool.handed op <;> simp
    · rintro id hold _ hid rfl
      exact (h.accept (mem_toList.mp hid)).left hold

theorem Chronicle.run {p : TcpPool δ} (h : p.Tables) (he : p.connections = ∅)
    (ops : List (TcpPool.Op δ)) : (run p ops).Chronicle :=
  Transition.exec_induction (.init h he) fun _ op h => h.step op

end ObservedPool

namespace TcpPool

variable {δ : Type} {p p' : TcpPool δ}
variable {e : IoError}

-- Every live connection is found by its addresses.
theorem Tables.find_eq (ht : p.Tables) {id : ConnectionId} {c : Connection}
    (hc : p.connections[id]? = some c) (hl : c.state.isTerminal = false) :
    p.find c.localAddr c.remoteAddr = some id := by
  cases hf : p.find c.localAddr c.remoteAddr
  case none => exact absurd rfl (find_none hf hc hl rfl)
  case some i =>
    obtain ⟨⟨j, d⟩, hd, rfl⟩ := map_eq_some_iff.mp hf
    have hm := Std.TreeMap.mem_toList_iff_getElem?_eq_some.mp (mem_of_find?_eq_some hd)
    have hp := List.find?_some hd
    simp only [and_eq_true, not_eq_true', beq_iff_eq] at hp
    exact congrArg some (ht.unique j id d c hm hc hp.right hl hp.left.left hp.left.right)

theorem input_reset {segment : Segment} (h : has segment.flags RST)
    (sequence : ConnectionId → IoResult U32) :
    (p.input segment sequence).fst.resets = p.resets := by
  unfold input
  split
  · rfl
  split
  · rfl
  split <;> rfl

theorem listen_error {address : SocketAddr} (h : p.listen address = (p', .error e)) : p' = p := by
  unfold TcpPool.listen at h
  repeat' split at h
  all_goals cases h; try rfl

theorem connect_error {localAddr remoteAddr : SocketAddr} {sequence : IoResult U32}
    (h : p.connect localAddr remoteAddr sequence = (p', .error e)) : p' = p := by
  rcases p.connect_cases localAddr remoteAddr sequence with ⟨_, he⟩ | ⟨_, -, -, -, -, he⟩ <;>
    rw [he] at h <;> cases h
  rfl

theorem accept_error {address : SocketAddr} (h : p.accept address = (p', .error e)) : p' = p := by
  rcases p.accept_cases address with ⟨_, he⟩ | he | ⟨_, _, -, -, -, -, he⟩
    <;> rw [he] at h <;> cases h
  rfl

variable [Device δ]

theorem table_invariants {device : δ} {cfg : TcpConfig} {p₀ : TcpPool δ}
    (hn : new device cfg = .ok p₀) (ops : List (Op δ)) {o : ObservedPool δ}
    (ho : ObservedPool.run p₀ ops = o) :
    o.pool = Transition.exec step p₀ ops ∧
    -- At most one live connection uses a pair of addresses, and it is found by them.
    (∀ (i j : ConnectionId) (c c' : Connection),
      o.pool.connections[i]? = some c → o.pool.connections[j]? = some c' →
      c.state.isTerminal = false → c'.state.isTerminal = false →
      c.localAddr = c'.localAddr → c.remoteAddr = c'.remoteAddr → i = j) ∧
    (∀ (i : ConnectionId) (c : Connection), o.pool.connections[i]? = some c →
      c.state.isTerminal = false → o.pool.find c.localAddr c.remoteAddr = some i) ∧
    -- The tables are bounded.
    o.pool.connections.size ≤ cfg.maxConnections ∧
    o.pool.listeners.size ≤ cfg.maxListeners ∧
    o.pool.resets.length ≤ cfg.controlCapacity ∧
    o.pool.events.length ≤ cfg.eventCapacity ∧
    -- No identifier is used twice.
    (o.opened.map (·.fst)).Nodup ∧
    (∀ id ∈ o.pool.connections, id ∈ o.opened.map (·.fst)) ∧
    -- Each connection is handed out at most once, if it was opened passively.
    o.handed.Nodup ∧
    (∀ id ∈ o.handed, (id, Origin.passive) ∈ o.opened) ∧
    (∀ address p' id, o.pool.accept address = (p', .ok (some id)) →
      address ∈ o.pool.listeners ∧ id ∉ o.handed ∧ (id, Origin.passive) ∈ o.opened ∧
      ∃ c, o.pool.connections[id]? = some c ∧ c.localAddr = address) ∧
    -- A reset is not answered by a reset.
    (∀ segment sequence, has segment.flags RST →
      (o.pool.input segment sequence).fst.resets = o.pool.resets) ∧
    -- A call that returns an error leaves the pool as it is.
    (∀ localAddr remoteAddr sequence p' e,
      o.pool.connect localAddr remoteAddr sequence = (p', .error e) → p' = o.pool) ∧
    (∀ address p' e, o.pool.listen address = (p', .error e) → p' = o.pool) ∧
    (∀ address p' e, o.pool.accept address = (p', .error e) → p' = o.pool) := by
  have ⟨hcfg, hp⟩ := new_ok hn
  have h := ObservedPool.Chronicle.run (Tables.init device hcfg) rfl ops
  rw [← hp, ho] at h
  have hc : o.pool.config = cfg := by
    rw [← ho, ObservedPool.run_pool]
    exact Transition.exec_induction (P := fun p : TcpPool δ => p.config = cfg) (congrArg config hp)
      fun p op h => (p.step_acts op).keeps.config.trans h
  have ht := h.tables
  refine ⟨ho ▸ ObservedPool.run_pool p₀ ops, ht.unique, fun i c => ht.find_eq, hc ▸ ht.connections,
    hc ▸ ht.listeners, hc ▸ ht.resets, hc ▸ ht.events, h.nodup, h.known, h.once, h.passive, ?_,
    fun segment sequence hr => input_reset hr sequence, fun _ _ _ _ _ => connect_error,
    fun _ _ _ => listen_error, fun _ _ _ => accept_error⟩
  intro address p' id ha
  have hid : id ∈ o.pool.handed (.accept address) := by simp [handed, ha]
  have ⟨hn, hp, _, _⟩ := h.accept hid
  rcases o.pool.accept_cases address with ⟨_, he⟩ | he | ⟨i, c, hl, hc, hca, -, he⟩ <;>
    rw [he] at ha <;> cases ha
  exact ⟨hl, hn, hp, c, hc, hca⟩

-- Both connections use the same addresses, but the first one is terminal.
theorem table_invariants_reconnect :
    (ObservedPool.run (init idle .default) reconnect).opened = [(1, .active), (2, .active)] ∧
    (Transition.exec step (init idle .default) reconnect).fate 1 =
      some ⟨.timedOut, none, true, clientAddr⟩ ∧
    (ObservedPool.run (init idle .default) reconnect).pool.connections.size ≤ 64 := by
  have hn : new idle .default = .ok (init idle .default) :=
    if_neg (by simp [TcpConfig.default_not_rejected])
  exact ⟨by decide +kernel, by decide +kernel,
    (table_invariants hn reconnect rfl).right.right.right.left⟩

end TcpPool
