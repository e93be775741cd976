import AsyncNetStack.Udp.Theorems.Moves

open Std Udp Transition List

namespace UdpPool

variable {δ : Type} {p p₁ p₂ p₃ : UdpPool δ}

-- A pool without some of its datagrams. There is at most one event for each of them.
structure Sheds (p₁ p₂ : UdpPool δ) : Prop where
  device     : p₂.device = p₁.device
  services   : p₂.services = p₁.services
  peers      : p₂.peers = p₁.peers
  config     : p₂.config = p₁.config
  generation : p₂.generation = p₁.generation
  now        : p₂.now = p₁.now
  work       : p₂.tx.queue.length + p₂.events.length ≤ p₁.tx.queue.length + p₁.events.length

namespace Sheds

theorem refl (p : UdpPool δ) : Sheds p p :=
  ⟨rfl, rfl, rfl, rfl, rfl, rfl, le_rfl⟩

theorem trans (h₁ : Sheds p₁ p₂) (h₂ : Sheds p₂ p₃) : Sheds p₁ p₃ where
  device     := h₂.device.trans h₁.device
  services   := h₂.services.trans h₁.services
  peers      := h₂.peers.trans h₁.peers
  config     := h₂.config.trans h₁.config
  generation := h₂.generation.trans h₁.generation
  now        := h₂.now.trans h₁.now
  work       := h₂.work.trans h₁.work

end Sheds

-- A pool with a further event, unless there is no room for it.
structure Notes (p₁ p₂ : UdpPool δ) : Prop where
  device     : p₂.device = p₁.device
  services   : p₂.services = p₁.services
  peers      : p₂.peers = p₁.peers
  queue      : p₂.tx.queue = p₁.tx.queue
  config     : p₂.config = p₁.config
  generation : p₂.generation = p₁.generation
  now        : p₂.now = p₁.now
  events     : p₂.events.length ≤ p₁.events.length + 1

variable (p)

theorem event_notes (ev : UdpEvent) : Notes p (p.event ev) := by
  rw [event]
  split
  case isTrue => exact ⟨rfl, rfl, rfl, rfl, rfl, rfl, rfl, Nat.le_succ _⟩
  split
  case isTrue =>
    refine ⟨rfl, rfl, rfl, rfl, rfl, rfl, rfl, ?_⟩
    rw [bump, length_append, length_tail, length_singleton]
    omega
  case isFalse => exact ⟨rfl, rfl, rfl, rfl, rfl, rfl, rfl, length_append.le⟩

theorem finish_notes (q : Queued) (outcome : UdpOutcome) : Notes p (p.finish q outcome) := by
  cases outcome
  all_goals
    unfold finish
    exact {
      device     := (event_notes ..).device
      services   := (event_notes ..).services
      peers      := (event_notes ..).peers
      queue      := (event_notes ..).queue
      config     := (event_notes ..).config
      generation := (event_notes ..).generation
      now        := (event_notes ..).now
      events     := (event_notes ..).events
    }

theorem drop_sheds (index : Fin p.tx.queue.length) (reason : UdpFailure) :
    Sheds p (p.drop index reason) := by
  let tx := (p.tx.remove index).fst
  have h := finish_notes { p with tx } (p.tx.queue.get index) (.dropped reason)
  refine ⟨h.device, h.services, h.peers, h.config, h.generation, h.now, ?_⟩
  calc (p.drop index reason).tx.queue.length + (p.drop index reason).events.length
    _ ≤ (p.tx.queue.eraseIdx index).length + (p.events.length + 1) :=
      Nat.add_le_add (congrArg List.length h.queue).le h.events
    _ = p.tx.queue.length + p.events.length := by
      have hlen := length_eraseIdx_add_one index.isLt
      omega

theorem dropWhere_sheds (cond : Queued → Bool) (reason : UdpFailure)
    (i rounds : Nat) : Sheds p (p.dropWhere cond reason i rounds) := by
  induction rounds generalizing p i
  case zero => exact .refl p
  case succ rounds ih =>
    rw [dropWhere]
    split
    case isTrue h =>
      split
      case isTrue  => exact (p.drop_sheds ⟨i, h⟩ reason).trans (ih ..)
      case isFalse => exact ih ..
    case isFalse => exact .refl p

theorem dropAll_sheds (cond : Queued → Bool) (reason : UdpFailure) :
    Sheds p (p.dropAll cond reason) :=
  p.dropWhere_sheds ..

-- The services that a request is for are the ones that are installed.
theorem insertServices_ok {m m' : TreeMap SocketAddr U32} {services : List Service}
    (h : insertServices m services = .ok m') (address : SocketAddr) (id : U32) :
    m'[address]? = some id ↔ m[address]? = some id ∨ { address, id } ∈ services := by
  induction services generalizing m
  case nil =>
    rw [insertServices, Except.ok.injEq] at h
    rw [h]
    simp
  case cons service services ih =>
    rw [insertServices] at h
    split at h
    case h_1 => cases h
    split at h
    case isTrue => cases h
    rename_i hmem
    rw [ih h, mem_cons, TreeMap.getElem?_insert]
    rw [TreeMap.contains_iff_mem] at hmem
    simp only [Std.compare_eq_iff_eq]
    split
    case isTrue heq =>
      subst heq
      rw [TreeMap.getElem?_eq_none hmem, Option.some.injEq]
      constructor
      · rintro (rfl | hin)
        · exact .inr (.inl rfl)
        · exact .inr (.inr hin)
      · rintro (hin | heq | hin)
        · cases hin
        · exact .inl (congrArg Service.id heq).symm
        · exact .inr hin
    case isFalse hne =>
      have hne : ({ address, id } : Service) ≠ service := fun h => hne (h ▸ rfl)
      rw [or_iff_right hne]

theorem mem_unbind (a b : SocketAddr) : b ∈ (p.unbind a).fst.services ↔ b ∈ p.services ∧ a ≠ b := by
  rw [unbind]
  split
  case isTrue =>
    rw [(dropAll_sheds ..).services, TreeMap.mem_erase, and_comm]
    simp only [ne_eq, Std.compare_eq_iff_eq]
  case isFalse h =>
    rw [TreeMap.contains_iff_mem] at h
    exact ⟨fun hb => ⟨hb, fun heq => h (heq ▸ hb)⟩, And.left⟩

-- A pool in which an endpoint is free again, if there was one.
def vacate : Option SocketAddr → UdpPool δ
  | none         => p
  | some address => (p.unbind address).fst

theorem mem_vacate (o : Option SocketAddr) (a : SocketAddr) :
    a ∈ (p.vacate o).services ↔ a ∈ p.services ∧ o ≠ some a := by
  cases o
  case none         => simp [vacate]
  case some address => rw [vacate, mem_unbind, ne_eq, ne_eq, Option.some.injEq]

variable {p}

theorem bind_error {service : Service} {err : IoError} (h : p.bind service = (p₁, .error err)) :
    p₁ = p := by
  rw [bind] at h
  split at h
  case h_1 => cases h; rfl
  split at h
  case isTrue => cases h; rfl
  split at h
  case isFalse => cases h
  cases h; rfl

theorem bind_ok {service : Service} (h : p.bind service = (p₁, .ok ())) :
    service.address ∉ p.services ∧ ∀ a, a ∈ p₁.services ↔ a = service.address ∨ a ∈ p.services := by
  rw [bind] at h
  split at h
  case h_1 => cases h
  split at h
  case isTrue => cases h
  rename_i hmem
  split at h
  case isTrue => cases h
  cases h
  rw [TreeMap.contains_iff_mem] at hmem
  refine ⟨hmem, fun a => ?_⟩
  rw [TreeMap.mem_insert, Std.compare_eq_iff_eq, eq_comm]

-- Sends, flushes and polls leave the services alone.
theorem Work.services (h : Work p₁ p₂) : p₂.services = p₁.services := by
  cases h
  case advance now =>
    rw [UdpPool.advance]
    split
    case isTrue  => rfl
    case isFalse => exact (dropAll_sheds ..).services
  case load h =>
    cases h
    case aside h => exact h.services
    case retain  => rfl
    case enqueue =>
      rw [UdpPool.enqueue]
      split
      case isTrue  => rfl
      case isFalse => rfl

section

variable {η : Type} [Device δ]

theorem trace_services {log : List (Selection δ)} (h : Trace Work Selects p₁ log p₂) :
    p₂.services = p₁.services := by
  refine h.invariant (P := fun p => p.services = p₁.services) rfl (fun _ _ hw => hw.services.trans)
    ?_
  rintro _ s _ ⟨rfl, _, rfl⟩ heq
  exact (result_keeps s).left.services.trans heq

theorem sendWithOptions_services (p : UdpPool δ) (source destination : SocketAddr)
    (payload : List U8) (options : SendOptions) :
    (p.sendWithOptions source destination payload options).fst.services = p.services :=
  trace_services (p.sendWithOptions_works ..).trace

theorem flush_services (p : UdpPool δ) : p.flush.fst.services = p.services :=
  trace_services p.flush_trace

theorem poll_services (p : UdpPool δ) (now lease : Duration) (budget : Nat)
    (handler : η → Datagram → η × Action) (h : η) :
    (p.poll now lease budget handler h).fst.services = p.services :=
  trace_services (p.poll_trace ..)

end

end UdpPool
