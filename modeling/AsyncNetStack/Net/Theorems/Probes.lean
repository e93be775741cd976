import AsyncNetStack.Lib.Trace
import AsyncNetStack.Net.Theorems.Idle
import AsyncNetStack.Net.Theorems.Stale

open Fallible Std Transition List

namespace Ethernet

theorem Roomy.asSlice_write (f : Roomy) {bytes : List U8} (h : bytes.length ≤ 46) :
    (f.write bytes h).frame.asSlice = bytes := by
  rw [write, PacketBuf.asSlice_copyFromSlice]
  exact (PacketBuf.len_withLen ..).symm

end Ethernet

namespace EthernetIpv4

variable {δ : Type} {e e' e'' : EthernetIpv4 δ} {ip ip' : Ipv4Addr} {t : Duration}
  {state : NeighborState} {times : List Duration}

-- The frames by which the control queue is longer than before, and the time.
def added (e e' : EthernetIpv4 δ) : List (Duration × PacketBuf) :=
  (e'.control.drop e.control.length).map (e.now, ·)

section

variable [Device δ]

-- What timers add to the control queue. All requests are among it: replies are queued elsewhere.
def timersQueue (e : EthernetIpv4 δ) : List (Ipv4Addr × NeighborState) → List (Duration × PacketBuf)
  | []        => []
  | w :: work => e.added (e.refresh w.fst w.snd) ++ (e.refresh w.fst w.snd).timersQueue work

def advanceQueue (e : EthernetIpv4 δ) (now : Duration) : List (Duration × PacketBuf) :=
  if now < e.now then
    []
  else
    let e := ensureSpare { e with now }
    e.timersQueue e.neighbors.toList

def queued (e : EthernetIpv4 δ) (op : Op δ) : List (Duration × PacketBuf) :=
  (e.advancing op).elim [] fun a => a.fst.advanceQueue a.snd

end

def requestTimes (ip : Ipv4Addr) (log : List (Duration × PacketBuf)) : List Duration :=
  (log.filter (probes ip ·.snd)).map Prod.fst

@[simp]
theorem requestTimes_nil (ip : Ipv4Addr) : requestTimes ip [] = [] :=
  rfl

@[simp]
theorem requestTimes_append (ip : Ipv4Addr) (log log' : List (Duration × PacketBuf)) :
    requestTimes ip (log ++ log') = requestTimes ip log ++ requestTimes ip log' := by
  simp [requestTimes]

-- The clock and the limits of resolutions stay as they are.
structure Keeps (e e' : EthernetIpv4 δ) : Prop where
  now      : e'.now = e.now
  attempts : e'.config.maxArpAttempts = e.config.maxArpAttempts
  interval : e'.config.retryInterval = e.config.retryInterval

theorem Keeps.trans (h₁ : Keeps e e') (h₂ : Keeps e' e'') : Keeps e e'' where
  now      := h₂.now.trans h₁.now
  attempts := h₂.attempts.trans h₁.attempts
  interval := h₂.interval.trans h₁.interval

-- The entry of an address is the given one, unless it is no longer one of a resolution.
def Leaves (e : EthernetIpv4 δ) (ip : Ipv4Addr) (entry : Option NeighborState) : Prop :=
  e.neighbors[ip]? = entry ∨ ¬e.Resolving ip

-- A resolution that is under way stays as it is, or ends.
structure Fades (ip : Ipv4Addr) (e e' : EthernetIpv4 δ) : Prop extends Keeps e e' where
  entry : e'.Leaves ip e.neighbors[ip]?

namespace Fades

theorem of_eq (hk : Keeps e e') (hn : e'.neighbors = e.neighbors) : Fades ip e e' :=
  ⟨hk, .inl (by rw [hn])⟩

theorem of_aside (h : Aside e e') : Fades ip e e' :=
  of_eq ⟨h.now, by rw [h.config], by rw [h.config]⟩ h.neighbors

theorem of_flushes (h : Flushes e e') : Fades ip e e' :=
  of_eq ⟨h.now, by rw [h.config], by rw [h.config]⟩ h.neighbors

theorem refl (e : EthernetIpv4 δ) : Fades ip e e :=
  of_aside (.refl e)

theorem leaves {entry : Option NeighborState} (h : Fades ip e e') (hl : e.Leaves ip entry) :
    e'.Leaves ip entry := by
  rcases h.entry with heq | hend
  case inr => exact .inr hend
  rw [Leaves, Resolving, heq]
  exact hl

theorem trans (h₁ : Fades ip e e') (h₂ : Fades ip e' e'') : Fades ip e e'' :=
  ⟨h₁.toKeeps.trans h₂.toKeeps, h₂.leaves h₁.entry⟩

end Fades

theorem Manages.fades (h : Manages e e') : Fades ip e e' := by
  rcases h with ha | hd
  case inl => exact .of_aside ha
  case inr => exact ⟨⟨hd.now, by rw [hd.config], by rw [hd.config]⟩, .inr (hd.resolving ip)⟩

-- What a stretch of a run does to a resolution that is under way, and the requests it queues.
inductive Proceeds (ip : Ipv4Addr) (e e' : EthernetIpv4 δ) : List Duration → Prop
  | rests (h : Fades ip e e') : Proceeds ip e e' []
  | requests {attempts : Nat} {nextProbe expires : Duration} (hk : Keeps e e')
      (hs : e.neighbors[ip]? = some (.resolving attempts nextProbe expires))
      (hdue : nextProbe ≤ e.now) (hleft : attempts < e.config.maxArpAttempts)
      (hexpires : e.now < expires)
      (h : e'.Leaves ip (some (.resolving (attempts + 1)
        (e.now.saturatingAdd e.config.retryInterval) expires))) : Proceeds ip e e' [e.now]

namespace Proceeds

theorem keeps (h : Proceeds ip e e' times) : Keeps e e' := by
  cases h
  case rests hf                => exact hf.toKeeps
  case requests hk _ _ _ _ _   => exact hk

theorem fades (h : Proceeds ip e e' []) : Fades ip e e' := by
  cases h
  exact ‹_›

theorem after (h : Proceeds ip e' e'' times) (hf : Fades ip e e') : Proceeds ip e e'' times := by
  cases h
  case rests h => exact .rests (hf.trans h)
  case requests attempts nextProbe expires hk hs hdue hleft hexpires h =>
    rcases hf.entry with heq | hend
    case inl =>
      rw [hf.now] at hdue hexpires h ⊢
      rw [hf.attempts] at hleft
      rw [hf.interval] at h
      exact .requests (hf.toKeeps.trans hk) (heq ▸ hs) hdue hleft hexpires h
    case inr => exact absurd (by rw [Resolving, hs]; rfl) hend

theorem before (h : Proceeds ip e e' times) (hf : Fades ip e' e'') : Proceeds ip e e'' times := by
  cases h
  case rests h => exact .rests (h.trans hf)
  case requests hk hs hdue hleft hexpires h =>
    exact .requests (hk.trans hf.toKeeps) hs hdue hleft hexpires (hf.leaves h)

end Proceeds

theorem fades_insert_other (h : ip' ≠ ip) (state : NeighborState) :
    Fades ip e { e with neighbors := e.neighbors.insert ip' state } :=
  ⟨⟨rfl, rfl, rfl⟩, .inl (getElem?_insert_other h)⟩

theorem fades_insert (state : NeighborState) (h : state.isResolving = false) (ip' : Ipv4Addr) :
    Fades ip e { e with neighbors := e.neighbors.insert ip' state } := by
  by_cases heq : ip' = ip
  case neg => exact fades_insert_other heq state
  case pos => exact ⟨⟨rfl, rfl, rfl⟩, .inr (by simp [Resolving, heq, h])⟩

theorem fades_erase (e : EthernetIpv4 δ) (ip ip' : Ipv4Addr) :
    Fades ip e { e with neighbors := e.neighbors.erase ip' } := by
  refine ⟨⟨rfl, rfl, rfl⟩, ?_⟩
  by_cases heq : ip' = ip
  case pos => exact .inr (by simp [Resolving, heq])
  case neg =>
    exact .inl ((TreeMap.getElem?_erase ..).trans (if_neg (Std.compare_eq_iff_eq.not.mpr heq)))

theorem learn_fades (e : EthernetIpv4 δ) (ip ip' : Ipv4Addr) (mac : Mac) :
    Fades ip e (e.learn ip' mac) := by
  rw [learn]
  split
  case isTrue => exact .refl e
  split
  case isTrue => exact .refl e
  refine (Fades.of_aside (cancelProbes_aside e ip')).trans ?_
  exact (fades_insert (.reachable ..) rfl ip').trans (.of_aside (event_aside ..))

theorem Learns.fades (h : Learns e e') : Fades ip e e' := by
  cases h
  case nothing ha          => exact .of_aside ha
  case neighbor ip' mac ha => exact (learn_fades e ip ip' mac).trans (.of_aside ha)

theorem timeOut_fades (e : EthernetIpv4 δ) (ip ip' : Ipv4Addr) : Fades ip e (e.timeOut ip') := by
  refine (fades_insert (.failed (e.now.saturatingAdd e.config.failedRetryDelay)) rfl ip').trans ?_
  exact .of_eq ⟨rfl, rfl, rfl⟩ rfl

theorem addStaticNeighbor_fades (e : EthernetIpv4 δ) (ip ip' : Ipv4Addr) (mac : Mac) :
    Fades ip e (e.addStaticNeighbor ip' mac).fst := by
  rw [addStaticNeighbor]
  split
  case isTrue => exact .refl e
  split
  case isTrue => exact .refl e
  dsimp only
  generalize hd : (if e.neighbors[ip']?.any (changesMac mac) then e.discardQueued else e) = e₁
  have h₁ : Fades ip e e₁ := by
    rw [← hd]
    split
    case isTrue  => exact Manages.fades (.inr (discardQueued_discards e _ _))
    case isFalse => exact .refl e
  refine (h₁.trans (.of_aside (cancelProbes_aside e₁ ip'))).trans ?_
  refine (fades_insert (.static mac) rfl ip').trans ?_
  rw [releaseResolved_eq]
  exact .of_eq ⟨rfl, rfl, rfl⟩ rfl

-- A packet that waits for a resolution which is under way does not restart it.
theorem Accepts.fades {serial : Nat} (ha : Accepts e serial e') (h : e.Resolving ip) :
    Fades ip e e' := by
  cases ha
  case ready ha => exact .of_eq ⟨ha.now, by rw [ha.config], by rw [ha.config]⟩ ha.neighbors
  case pending p _ _ _ _ ha =>
    refine .trans ?_ (.of_aside ha)
    rw [hold, resolve]
    split
    case isTrue => exact .of_eq ⟨rfl, rfl, rfl⟩ rfl
    case isFalse hnew =>
      have hne : p.nextHop ≠ ip := by
        rintro rfl
        exact hnew h
      exact (fades_insert_other hne _).trans (.of_eq ⟨rfl, rfl, rfl⟩ rfl)

theorem added_eq_nil (h : e'.control.length ≤ e.control.length) : e.added e' = [] := by
  rw [added, drop_eq_nil_of_le h, map_nil]

theorem added_eq_singleton {frame : PacketBuf} (h : e'.control = e.control ++ [frame]) :
    requestTimes ip (e.added e') = if probes ip frame then [e.now] else [] := by
  rw [added, h, drop_left, map_singleton, requestTimes, filter_singleton]
  cases probes ip frame <;> rfl

-- The timers run on the entries which the table has at that time.
def Current (e : EthernetIpv4 δ) (work : List (Ipv4Addr × NeighborState)) : Prop :=
  ∀ w ∈ work, e.neighbors[w.fst]? = some w.snd

theorem current_toList (e : EthernetIpv4 δ) : e.Current e.neighbors.toList :=
  fun _ hw => TreeMap.mem_toList_iff_getElem?_eq_some.mp hw

theorem distinct_toList (m : TreeMap Ipv4Addr NeighborState) :
    m.toList.Pairwise fun w w' => w.fst ≠ w'.fst :=
  TreeMap.distinct_keys_toList.imp fun h heq => h (Std.compare_eq_iff_eq.mpr heq)

theorem probes_encodeArp (e : EthernetIpv4 δ) (packet : Arp.Packet) (destination : Mac)
    (spare : Ethernet.Roomy) :
    probes ip (e.encodeArp packet destination spare) =
      (packet.operation == .request && packet.targetIp == ip) := by
  rw [probes, encodeArp, Ethernet.asSlice_prepend, drop_left' (Ethernet.Header.encode_length _),
    Ethernet.Roomy.asSlice_write, Arp.Packet.parse_encode, Option.any_some]

-- The clock is only set by operations that are given a time, and what happens does so at the new
-- time.
def Op.Proceeds (op : Op δ) (ip : Ipv4Addr) (e e' : EthernetIpv4 δ) (times : List Duration) :
    Prop :=
  ∃ now, (now = e.now ∨ op.Sets now) ∧ EthernetIpv4.Proceeds ip { e with now } e' times

theorem Op.proceeds_of_fades {op : Op δ} (h : Fades ip e e') : op.Proceeds ip e e' [] :=
  ⟨e.now, .inl rfl, .rests h⟩

theorem Resolving.accepts {serial : Nat} (h : e.Resolving ip) (ha : Accepts e serial e') :
    e'.Resolving ip := by
  cases ha
  case ready ha => rwa [Resolving, ha.neighbors]
  case pending p _ _ _ _ ha =>
    rw [Resolving, ha.neighbors]
    exact h.resolve p.nextHop

theorem send_fades (slots : List PacketBuf) (h : e.Resolving ip) :
    Fades ip e (e.send slots).fst := by
  have hsend := sendSlots_sends e slots
  rw [send]
  generalize e.sendSlots slots = o at hsend
  cases hsend
  case refused ha => exact .of_aside ha
  case accepted e₁ k _ _ ha =>
    suffices hi : Fades ip e (e.acceptAll 0 (slots.take k)).fst ∧
        (e.acceptAll 0 (slots.take k)).fst.Resolving ip from
      (hi.left.trans (.of_aside ha)).trans (.of_eq ⟨rfl, rfl, rfl⟩ rfl)
    refine acceptAll_induction (P := fun e' _ => Fades ip e e' ∧ e'.Resolving ip) (slots.take k) ?_
      ⟨.refl e, h⟩
    exact fun _ _ _ _ ha h => ⟨h.left.trans (ha.fades h.right), h.right.accepts ha⟩

-- The limits of resolutions are those of the configuration, and no time of the run is too late for
-- another request.
structure Limited (config : InterfaceConfig) (e : EthernetIpv4 δ) : Prop where
  attempts : e.config.maxArpAttempts = config.maxArpAttempts
  interval : e.config.retryInterval = config.retryInterval
  fits     : e.now.AddFits config.retryInterval

theorem Op.Proceeds.limited {config : InterfaceConfig} {op : Op δ} (hp : op.Proceeds ip e e' times)
    (hf : op.Fits config) (h : e.Limited config) : e'.Limited config := by
  have ⟨now, hnow, hp⟩ := hp
  have hk := hp.keeps
  refine ⟨hk.attempts.trans h.attempts, hk.interval.trans h.interval, ?_⟩
  rw [hk.now]
  rcases hnow with rfl | hsets
  case inl => exact h.fits
  case inr => exact (hf now hsets).right.left

-- The requests in what is left of a resolution, from the attempts and the time of the next one.
structure Spaced (config : InterfaceConfig) (attempts : Nat) (nextProbe expires : Duration)
    (times : List Duration) : Prop where
  bounded : times = [] ∨ attempts + times.length ≤ config.maxArpAttempts
  window  : ∀ t ∈ times, nextProbe ≤ t ∧ t < expires
  chain   : times.IsChain fun t t' => t.nanos + config.retryInterval.nanos ≤ t'.nanos

namespace Spaced

variable {config : InterfaceConfig} {attempts : Nat} {nextProbe expires : Duration}

theorem nil : Spaced config attempts nextProbe expires [] :=
  ⟨.inl rfl, forall_mem_nil _, .nil⟩

theorem cons (hdue : nextProbe ≤ t) (hleft : attempts < config.maxArpAttempts)
    (hexpires : t < expires) (hfits : t.AddFits config.retryInterval)
    (h : Spaced config (attempts + 1) (t.saturatingAdd config.retryInterval) expires times) :
    Spaced config attempts nextProbe expires (t :: times) where
  bounded := by
    rw [length_cons]
    rcases h.bounded with rfl | hle
    case inl => exact .inr hleft
    case inr => exact .inr (by omega)
  window := by
    refine forall_mem_cons.mpr ⟨⟨hdue, hexpires⟩, fun t' ht' => ?_⟩
    have ⟨hle, hlt⟩ := h.window t' ht'
    exact ⟨hdue.trans ((Duration.le_saturatingAdd ..).trans hle), hlt⟩
  chain := by
    refine isChain_cons.mpr ⟨fun t' ht' => ?_, h.chain⟩
    have hle := (h.window t' (mem_of_mem_head? ht')).left
    rwa [Duration.le_def, Duration.saturatingAdd_nanos hfits] at hle

end Spaced

section

variable [Device δ]
variable {work : List (Ipv4Addr × NeighborState)}

theorem queueArp_control (e : EthernetIpv4 δ) (packet : Arp.Packet) (destination : Mac) :
    (∃ e', e.queueArp packet destination = (e', false) ∧ e'.control = e.control) ∨
    ∃ e' spare, e.queueArp packet destination = (e', true) ∧
      e'.control = e.control ++ [e.encodeArp packet destination spare] := by
  rw [queueArp]
  split
  case isTrue => exact .inl ⟨e, rfl, rfl⟩
  dsimp only
  cases hs : e.ensureSpare.controlSpare
  case none => exact .inl ⟨e.ensureSpare, rfl, ensureSpare_control e⟩
  case some spare =>
    refine .inr ⟨_, spare, rfl, ?_⟩
    rw [ensureSpare_control, encodeArp, encodeArp, (ensureSpare_aside e).config]

def requestFor (e : EthernetIpv4 δ) (ip : Ipv4Addr) : Arp.Packet where
  operation := .request
  senderMac := e.config.mac
  senderIp  := e.config.address
  targetMac := 0
  targetIp  := ip

-- An attempt is counted if and only if its request is queued.
theorem probe_queues (e : EthernetIpv4 δ) (ip : Ipv4Addr) (attempts : Nat) (expires : Duration) :
    Aside e (e.probe ip attempts expires) ∧ (e.probe ip attempts expires).control = e.control ∨
    ∃ spare, Keeps e (e.probe ip attempts expires) ∧
      (e.probe ip attempts expires).neighbors = e.neighbors.insert ip
        (.resolving (attempts + 1) (e.now.saturatingAdd e.config.retryInterval) expires) ∧
      (e.probe ip attempts expires).control =
        e.control ++ [e.encodeArp (e.requestFor ip) Mac.broadcast spare] := by
  rcases queueArp_control e (e.requestFor ip) Mac.broadcast with ⟨e₁, hq, hc⟩ | ⟨e₁, spare, hq, hc⟩
  all_goals
    have ha := queueArp_aside_of hq
    rw [requestFor] at hq
    rw [probe, hq]
  case inl => exact .inl ⟨ha, hc⟩
  refine .inr ⟨spare, ⟨ha.now, ?_, ?_⟩, ?_, hc⟩
  all_goals simp only [bump, event, ha.now, ha.config, ha.neighbors]

theorem probe_proceeds {attempts : Nat} {nextProbe expires : Duration}
    (hs : e.neighbors[ip']? = some (.resolving attempts nextProbe expires))
    (hdue : nextProbe ≤ e.now) (hleft : attempts < e.config.maxArpAttempts)
    (hexpires : e.now < expires) :
    let times := requestTimes ip (e.added (e.probe ip' attempts expires))
    Proceeds ip e (e.probe ip' attempts expires) times ∧ (ip' ≠ ip → times = []) := by
  rcases probe_queues e ip' attempts expires with ⟨ha, hc⟩ | ⟨spare, hk, hn, hc⟩
  case inl =>
    rw [added_eq_nil (by rw [hc])]
    exact ⟨.rests (.of_aside ha), fun _ => rfl⟩
  rw [added_eq_singleton hc, probes_encodeArp]
  by_cases hip : ip' = ip
  case pos =>
    subst hip
    rw [if_pos (by simp [requestFor])]
    refine ⟨.requests hk hs hdue hleft hexpires (.inl ?_), fun hne => absurd rfl hne⟩
    rw [hn, TreeMap.getElem?_insert_self]
  case neg =>
    rw [if_neg (by simp [requestFor, hip])]
    exact ⟨.rests ⟨hk, .inl (by rw [hn, getElem?_insert_other hip])⟩, fun _ => rfl⟩

theorem refresh_proceeds (ip : Ipv4Addr) (h : e.neighbors[ip']? = some state) :
    let times := requestTimes ip (e.added (e.refresh ip' state))
    Proceeds ip e (e.refresh ip' state) times ∧ (ip' ≠ ip → times = []) := by
  have still {e' : EthernetIpv4 δ} (hf : Fades ip e e')
      (hc : e'.control.length ≤ e.control.length) :
      Proceeds ip e e' (requestTimes ip (e.added e')) ∧
      (ip' ≠ ip → requestTimes ip (e.added e') = []) := by
    rw [added_eq_nil hc]
    exact ⟨.rests hf, fun _ => rfl⟩
  cases state
  case static => exact still (.refl e) le_rfl
  case reachable mac expires =>
    rw [refresh]
    split
    case isTrue  => exact still (fades_erase e ip ip') le_rfl
    case isFalse => exact still (.refl e) le_rfl
  case failed retryAfter =>
    rw [refresh]
    split
    case isTrue  => exact still (fades_erase e ip ip') le_rfl
    case isFalse => exact still (.refl e) le_rfl
  case resolving attempts nextProbe expires =>
    rw [refresh]
    split
    case isTrue => exact still (timeOut_fades e ip ip') (length_filter_le ..)
    case isFalse hexpires =>
      split
      case isTrue hdue => exact probe_proceeds h hdue.left hdue.right (Std.not_le.mp hexpires)
      case isFalse     => exact still (.refl e) le_rfl

theorem Current.refresh {w : Ipv4Addr × NeighborState}
    (h : e.Current (w :: work)) (hd : ∀ w' ∈ work, w.fst ≠ w'.fst) :
    (e.refresh w.fst w.snd).Current work := by
  intro w' hw'
  rw [refresh_other (hd w' hw')]
  exact h w' (mem_cons_of_mem _ hw')

theorem runTimers_fades (ip : Ipv4Addr) (hc : e.Current work)
    (hd : work.Pairwise fun w w' => w.fst ≠ w'.fst) (hip : ∀ w ∈ work, w.fst ≠ ip) :
    Fades ip e (e.runTimers work) ∧ requestTimes ip (e.timersQueue work) = [] := by
  induction work generalizing e
  case nil => exact ⟨.refl e, rfl⟩
  case cons w work ih =>
    have ⟨hw, hd⟩ := pairwise_cons.mp hd
    have ⟨hne, hip⟩ := forall_mem_cons.mp hip
    have ⟨hp, hnone⟩ := refresh_proceeds ip (hc w mem_cons_self)
    have ⟨hf, hnone'⟩ := ih (hc.refresh hw) hd hip
    rw [hnone hne] at hp
    refine ⟨hp.fades.trans hf, ?_⟩
    rw [timersQueue, requestTimes_append, hnone hne, hnone', append_nil]

-- Each neighbor has one timer, so there is one request for an address at most.
theorem runTimers_proceeds (ip : Ipv4Addr)
    (hc : e.Current work) (hd : work.Pairwise fun w w' => w.fst ≠ w'.fst) :
    Proceeds ip e (e.runTimers work) (requestTimes ip (e.timersQueue work)) := by
  induction work generalizing e
  case nil => exact .rests (.refl e)
  case cons w work ih =>
    have ⟨hw, hd⟩ := pairwise_cons.mp hd
    have ⟨hp, hnone⟩ := refresh_proceeds ip (hc w mem_cons_self)
    rw [timersQueue, requestTimes_append]
    by_cases heq : w.fst = ip
    case pos =>
      have ⟨hf, hrest⟩ := runTimers_fades ip (hc.refresh hw) hd fun w' hw' =>
        heq ▸ (hw w' hw').symm
      rw [hrest, append_nil]
      exact hp.before hf
    case neg =>
      rw [hnone heq] at hp ⊢
      exact (ih (hc.refresh hw) hd).after hp.fades

theorem advance_proceeds (e : EthernetIpv4 δ) (ip : Ipv4Addr) (h : ¬t < e.now) :
    Proceeds ip { e with now := t } (e.advance t).fst (requestTimes ip (e.advanceQueue t)) := by
  have hspare := ensureSpare_flushes { e with now := t }
  rw [advance, advanceQueue, if_neg h, if_neg h]
  refine .after (.before (runTimers_proceeds ip (current_toList _) (distinct_toList _)) ?_)
    (.of_flushes hspare)
  refine Fades.trans ?_ (.of_flushes (flush_flushes _))
  rw [releaseResolved_eq]
  exact .of_eq ⟨rfl, rfl, rfl⟩ rfl

theorem step_proceeds (ip : Ipv4Addr) (op : Op δ)
    (h : (∃ slots, op = .send slots) → e.Resolving ip) :
    op.Proceeds ip e (e.step op) (requestTimes ip (e.queued op)) := by
  have hs := step_steps e op
  generalize e.step op = e' at hs
  cases hs
  case send slots     => exact Op.proceeds_of_fades (send_fades slots (h ⟨slots, rfl⟩))
  case static ip' mac => exact Op.proceeds_of_fades (addStaticNeighbor_fades e ip ip' mac)
  case manages hnone hm =>
    rw [queued, hnone]
    exact Op.proceeds_of_fades hm.fades
  case advances e₁ t device spare frames h₁ ht hadv =>
    have hf : Fades ip e e₁ := by
      rw [h₁]
      exact receiveFrames_induction (P := Fades ip e) (fun _ _ hl h => h.trans hl.fades) frames
        (.of_aside (device_aside ..))
    rw [queued, hadv, Option.elim_some]
    by_cases hlt : t < e₁.now
    case pos =>
      rw [advance_backwards hlt, advanceQueue, if_pos hlt]
      exact Op.proceeds_of_fades hf
    case neg =>
      refine ⟨t, ht.imp_right And.left, (advance_proceeds e₁ ip hlt).after ?_⟩
      exact ⟨⟨rfl, hf.attempts, hf.interval⟩, hf.entry⟩

theorem step_limited {config : InterfaceConfig} (op : Op δ) (hf : op.Fits config)
    (h : e.Limited config) : (e.step op).Limited config := by
  by_cases hop : ∃ slots, op = .send slots
  case pos =>
    obtain ⟨slots, rfl⟩ := hop
    have ⟨hc, hnow⟩ := send_config_now e slots
    exact
      ⟨by rw [step, hc, h.attempts], by rw [step, hc, h.interval], by rw [step, hnow]; exact h.fits⟩
  case neg => exact (step_proceeds 0 op fun hs => absurd hs hop).limited hf h

-- Once a resolution has ended, the stretch of the run which it is about ends too.
theorem requestTimes_ended {es : List (Op δ)} (h : Along step (fun e _ => e.Resolving ip) e es)
    (hend : ¬e.Resolving ip) : requestTimes ip (logs step queued e es) = [] := by
  cases es
  case nil  => rfl
  case cons => exact absurd h.left hend

theorem exec_spaced {config : InterfaceConfig} {es : List (Op δ)} {attempts : Nat}
    {nextProbe expires : Duration} (hl : e.Limited config) (hf : ∀ op ∈ es, op.Fits config)
    (hs : e.neighbors[ip]? = some (.resolving attempts nextProbe expires))
    (ha : Along step (fun e _ => e.Resolving ip) e es) :
    Spaced config attempts nextProbe expires (requestTimes ip (logs step queued e es)) := by
  induction es generalizing e attempts nextProbe
  case nil => exact .nil
  case cons op es ih =>
    have ⟨hop, hf⟩ := forall_mem_cons.mp hf
    have hstep := step_proceeds ip op fun _ => ha.left
    have hl' := hstep.limited hop hl
    have ⟨now, _, hp⟩ := hstep
    have hnow := hl'.fits
    rw [hp.keeps.now] at hnow
    rw [logs, requestTimes_append]
    generalize requestTimes ip (e.queued op) = times at hp
    cases hp
    case rests hfades =>
      rcases hfades.entry with heq | hend
      case inl => exact ih hl' hf (heq.trans hs) ha.right
      rw [requestTimes_ended ha.right hend]
      exact .nil
    case requests hk hs' hdue hleft hexpires hnext =>
      cases hs.symm.trans hs'
      rw [hl.attempts] at hleft
      rw [hl.interval] at hnext
      rw [singleton_append]
      refine .cons hdue hleft hexpires hnow ?_
      rcases hnext with heq | hend
      case inl => exact ih hl' hf heq ha.right
      rw [requestTimes_ended ha.right hend]
      exact .nil

theorem timersQueue_idle (h : ∀ w ∈ work, Idle e.config e.now w.snd) : e.timersQueue work = [] := by
  induction work
  case nil => rfl
  case cons w work ih =>
    have ⟨hw, hrest⟩ := forall_mem_cons.mp h
    rw [timersQueue, refresh_idle hw, added_eq_nil le_rfl, ih hrest, append_nil]

theorem advanceQueue_idle (hle : e.now ≤ t) (hd : ∀ d ∈ e.nextDeadline, t < d) :
    e.advanceQueue t = [] := by
  have hspare := ensureSpare_flushes { e with now := t }
  rw [advanceQueue, if_neg (Std.not_lt.mpr hle)]
  refine timersQueue_idle fun w hw => ?_
  rw [hspare.config, hspare.now]
  rw [hspare.neighbors] at hw
  exact idle_of_lt_nextDeadline hd (TreeMap.mem_toList_iff_getElem?_eq_some.mp hw)

-- Nothing happens to the neighbors and the waiting packets before the next deadline, and the
-- requests for an address are limited in number and rate for as long as its resolution is under
-- way.
theorem timers_complete_probes_bounded {device : δ} {config : InterfaceConfig} {layout : Nat → Nat}
    {e₀ : EthernetIpv4 δ} (h : new device config layout = .ok e₀) (ops : List (Op δ)) :
    let e := exec step e₀ ops
    (∀ t, e.now ≤ t → (∀ d ∈ e.nextDeadline, t < d) →
      (e.advance t).fst.neighbors = e.neighbors ∧ (e.advance t).fst.pending = e.pending ∧
      (e.advance t).fst.control <:+ e.control ∧ e.queued (.advance t) = []) ∧
    ∀ ip attempts nextProbe expires es,
      e.neighbors[ip]? = some (.resolving attempts nextProbe expires) →
      (∀ op ∈ ops ++ es, op.Fits config) → Along step (fun e _ => e.Resolving ip) e es →
      let times := requestTimes ip (logs step queued e es)
      times.length ≤ config.maxArpAttempts ∧ (∀ t ∈ times, t < expires) ∧
      times.IsChain fun t t' => t.nanos + config.retryInterval.nanos ≤ t'.nanos := by
  intro e
  have hfresh := new_fresh h
  constructor
  · intro t hle hd
    have hreleased : Released e :=
      exec_induction (.of_nil hfresh.pending) fun _ op hs => step_released op hs
    have hflushes := (ensureSpare_flushes { e with now := t }).trans (flush_flushes _)
    rw [advance_idle hreleased hle hd]
    exact ⟨hflushes.neighbors, hflushes.pending, hflushes.control, advanceQueue_idle hle hd⟩
  · intro ip attempts nextProbe expires es hs hf ha
    have ⟨hops, hes⟩ := forall_mem_append.mp hf
    have hl₀ : e₀.Limited config :=
      ⟨by rw [hfresh.config_eq], by rw [hfresh.config_eq], hfresh.now ▸ Duration.zero_addFits _⟩
    have hl : e.Limited config :=
      exec_induction_of hl₀ (fun _ op hf hl => step_limited op hf hl) hops
    have hspaced := exec_spaced hl hes hs ha
    refine ⟨?_, fun t ht => (hspaced.window t ht).right, hspaced.chain⟩
    rcases hspaced.bounded with hnil | hle
    case inl => exact hnil ▸ Nat.zero_le _
    case inr => exact (Nat.le_add_left ..).trans hle

end

-- A packet starts a resolution, of which the first two requests are queued.
theorem timers_complete_probes_bounded_loopback : ∃ e₀, overLoopback = .ok e₀ ∧
    let e := exec step e₀ [.send [datagramToPeer]]
    let times := requestTimes 0x0a000002#32
      (logs step queued e [.advance (.fromSecs 0), .advance (.fromSecs 1)])
    e.neighbors[0x0a000002#32]? = some (.resolving 0 (.fromSecs 0) (.fromSecs 3)) ∧
    times = [.fromSecs 0, .fromSecs 1] ∧ times.length ≤ 3 ∧ (∀ t ∈ times, t < .fromSecs 3) ∧
    times.IsChain fun t t' => t.nanos + (Duration.fromSecs 1).nanos ≤ t'.nanos := by
  have ⟨e₀, h, hc⟩ := overLoopback_any (p := fun e₀ =>
    let e := exec step e₀ [.send [datagramToPeer]]
    e.neighbors[0x0a000002#32]? == some (.resolving 0 (.fromSecs 0) (.fromSecs 3)) &&
    (e.step (.advance (.fromSecs 0))).neighbors[0x0a000002#32]?.any (·.isResolving) &&
    requestTimes 0x0a000002#32
      (logs step queued e [.advance (.fromSecs 0), .advance (.fromSecs 1)]) ==
      [.fromSecs 0, .fromSecs 1]) (by decide +kernel)
  simp only [Bool.and_eq_true, beq_iff_eq] at hc
  have ⟨⟨hentry, hnext⟩, htimes⟩ := hc
  refine ⟨e₀, h, hentry, htimes, ?_⟩
  have hresolving : (exec step e₀ [.send [datagramToPeer]]).Resolving 0x0a000002#32 := by
    rw [Resolving, hentry]
    rfl
  refine (timers_complete_probes_bounded h [.send [datagramToPeer]]).right _ _ _ _ _ hentry ?_
    ⟨hresolving, hnext, trivial⟩
  simp only [cons_append, nil_append, forall_mem_cons]
  refine ⟨fun _ hnow => hnow.elim, ?_, ?_, forall_mem_nil _⟩
  all_goals
    rintro now rfl
    decide

end EthernetIpv4
