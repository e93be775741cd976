import AsyncNetStack.Net.Theorems.Framing

open Fallible Std

namespace EthernetIpv4

variable {δ : Type} {e e' e'' : EthernetIpv4 δ}

-- No packet is received for the layer above.
def Unread (e e' : EthernetIpv4 δ) : Prop :=
  e'.stats.receivedIp = e.stats.receivedIp

theorem Unread.refl (e : EthernetIpv4 δ) : Unread e e :=
  rfl

theorem Unread.trans (h₁ : Unread e e') (h₂ : Unread e' e'') : Unread e e'' :=
  Eq.trans h₂ h₁

theorem Unread.andThen {α β : Type} {o : EthernetIpv4 δ × IoResult α}
    {f : EthernetIpv4 δ → α → EthernetIpv4 δ × IoResult β} (h : Unread e o.fst)
    (hf : ∀ e' a, Unread e' (f e' a).fst) : Unread e (andThen o f).fst :=
  andThen_of (P := Unread e) h fun e' a _ h => h.trans (hf e' a)

section

variable [Device δ]

variable (e)

theorem flushFront_unread (queue : List PacketBuf) : Unread e (e.flushFront queue).fst := by
  cases queue <;> exact .refl e

theorem flush_unread : Unread e e.flush.fst := by
  have hcontrol (e : EthernetIpv4 δ) (n : Nat) : Unread e (e.submitControl n) := by
    rw [submitControl]
    split <;> exact .refl e
  have hdata (e : EthernetIpv4 δ) (n : Nat) : Unread e (e.submitData n) := by
    rw [submitData]
    split <;> exact .refl e
  refine (flushFront_unread e e.control).andThen fun e₁ n => ?_
  dsimp only
  split
  case isTrue => exact hcontrol e₁ n
  case isFalse =>
    exact (hcontrol e₁ n).trans ((flushFront_unread ..).andThen fun e₂ m => hdata e₂ m)

theorem advance_unread (now : Duration) : Unread e (e.advance now).fst := by
  rw [advance_eq]
  cases hf : e.flushing now
  case none    => exact .refl e
  case some e₁ => exact Unread.trans (flushing_aloof hf).received (flush_unread e₁)

theorem pollAt_unread (now : Duration) : Unread e (e.pollAt now).fst :=
  Unread.andThen (.refl e) fun e' _ => advance_unread e' now

-- A frame is counted if and only if its packet is received.
theorem receiveFrame_counts (frame : PacketBuf) :
    (e.receiveFrame frame).fst.stats.receivedIp =
      e.stats.receivedIp + (e.receiveFrame frame).snd.toList.length := by
  rw [receiveFrame]
  dsimp only
  repeat' split
  all_goals try rfl
  case h_2.isFalse.isTrue => exact (receiveArp_aloof ..).received
  case h_2.isFalse hip _ =>
    obtain ⟨packet, hstrip⟩ := Option.isSome_iff_exists.mp ((unasserted e).stripped frame _ _ _ hip)
    rw [show (frame.pullHeader 14).bind _ = some packet from hstrip]
    rfl

theorem receiveFrames_counts (frames : List PacketBuf) :
    (e.receiveFrames frames).fst.stats.receivedIp =
      e.stats.receivedIp + (e.receiveFrames frames).snd.length := by
  induction frames generalizing e
  case nil => rfl
  case cons frame frames ih =>
    rw [receiveFrames]
    dsimp only
    rw [ih, receiveFrame_counts, List.length_append, Nat.add_assoc]

-- The packets that a call to `recv` takes from the device, whatever it returns.
def recvPackets (max : Nat) : List PacketBuf :=
  if max = 0 then
    []
  else
    match Device.recv e.dropSpare max with
    | (_, .error _)       => []
    | (device, .ok frames) => (receiveFrames { e with device, controlSpare := none } frames).snd

theorem recv_counts (max : Nat) :
    (e.recv max).fst.stats.receivedIp = e.stats.receivedIp + (e.recvPackets max).length := by
  rw [recv, recvPackets]
  split
  case isTrue =>
    rw [andThen_fst]
    exact advance_unread e e.now
  cases Device.recv e.dropSpare max
  case mk device result =>
    cases result
    case error => rfl
    case ok frames =>
      dsimp only [andThen_ok]
      rw [andThen_fst, advance_unread]
      exact receiveFrames_counts ..

-- The device takes something of a queue that it is offered, or has no room for it.
def Defers (queue : List PacketBuf) : Prop :=
  ∀ err, queue ≠ [] → (Device.send e.device (queue.take (e.front queue.length))).snd = .error err →
    err.kind = .wouldBlock

variable {e}

-- No call of the device's `send` fails for another reason when the queues are sent.
structure Unfailing (e : EthernetIpv4 δ) : Prop where
  control : e.Defers e.control
  data    : ∀ e' n, e.flushFront e.control = (e', .ok n) → (e'.submitControl n).control = [] →
    (e'.submitControl n).Defers ((e'.submitControl n).ready.map (·.frame))

theorem Defers.flushFront {queue : List PacketBuf} (h : e.Defers queue) :
    ∃ e' n, e.flushFront queue = (e', .ok n) := by
  cases queue
  case nil => exact ⟨_, _, rfl⟩
  case cons frame queue =>
    simp only [EthernetIpv4.flushFront]
    cases hs : Device.send e.device ((frame :: queue).take (e.front (frame :: queue).length))
    case mk device result =>
      cases result
      case ok => exact ⟨_, _, rfl⟩
      case error err =>
        have hkind := h err (by rintro ⟨⟩) (congrArg Prod.snd hs)
        dsimp only
        rw [if_pos hkind]
        exact ⟨_, _, rfl⟩

theorem Unfailing.flush (h : Unfailing e) : e.flush.snd = .ok () := by
  obtain ⟨e₁, n, hc⟩ := h.control.flushFront
  rw [EthernetIpv4.flush, hc]
  dsimp only [andThen_ok]
  split
  case isTrue => rfl
  case isFalse hempty =>
    have hnil : (e₁.submitControl n).control = [] := by simpa using hempty
    obtain ⟨e₂, m, hd⟩ := (h.data e₁ n hc hnil).flushFront
    rw [hd]
    rfl

-- When `recv` fails, it has received no packets, unless the device has failed in between.
theorem recv_failed {max : Nat} (h : ∀ e₁, e.sending (.recv max) = some e₁ → Unfailing e₁)
    (hr : (e.recv max).snd.isOk = false) : e.recvPackets max = [] := by
  rw [recvPackets]
  split
  case isTrue => rfl
  rename_i hmax
  cases hd : Device.recv e.dropSpare max
  case mk device result =>
    cases result
    case error => rfl
    case ok frames =>
      rw [recv, if_neg hmax, hd] at hr
      rw [sending, advancing, if_neg hmax, hd] at h
      dsimp only [andThen_ok, Except.toOption, Option.map_some, Option.bind_some] at h hr
      have hnow := receiveFrames_now { e with device, controlSpare := none } frames
      generalize receiveFrames { e with device, controlSpare := none } frames = o at h hr hnow
      rw [← show o.fst.now = e.now from hnow] at h
      have hflush : (o.fst.advance o.fst.now).snd = .ok () := by
        rw [advance_eq]
        cases hf : o.fst.flushing o.fst.now
        case none    => simp [flushing] at hf
        case some e₁ => exact (h e₁ hf).flush
      generalize o.fst.advance o.fst.now = o' at hr hflush
      obtain ⟨e₁, _ | _⟩ := o'
      case error => cases hflush
      case ok    => cases hr

theorem recv_packets {max : Nat} {out : List PacketBuf} (h : e.recv max = (e', .ok out)) :
    out = e.recvPackets max := by
  rw [recvPackets]
  split
  case isTrue hmax =>
    rw [recv, if_pos hmax] at h
    generalize e.advance e.now = o at h
    obtain ⟨e₁, _ | _⟩ := o
    case error => cases h
    case ok    => cases h; rfl
  case isFalse hmax =>
    cases hd : Device.recv e.dropSpare max
    case mk device result =>
      cases result
      case error => simp [recv, hmax, hd] at h
      case ok frames => exact recv_eq hmax hd h

end

end EthernetIpv4
