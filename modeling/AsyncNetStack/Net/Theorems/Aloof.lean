import AsyncNetStack.Device.Recorder
import AsyncNetStack.Device.Theorems.Send
import AsyncNetStack.Net.Theorems.Neighbor

open Fallible Relation Std

namespace EthernetIpv4

variable {δ : Type} [Device δ] {e e' e'' : EthernetIpv4 δ}

-- A device is asked for frames, any number of times.
abbrev Allocs : δ → δ → Prop :=
  ReflTransGen fun d d' => d' = (Device.alloc d).fst

-- Nothing is received for the layer above, and the device is asked for frames at most.
structure Aloof (e e' : EthernetIpv4 δ) : Prop where
  received : e'.stats.receivedIp = e.stats.receivedIp
  device   : Allocs e.device e'.device

namespace Aloof

theorem of_eq (hr : e'.stats.receivedIp = e.stats.receivedIp) (hd : e'.device = e.device) :
    Aloof e e' :=
  ⟨hr, hd ▸ .refl⟩

theorem refl (e : EthernetIpv4 δ) : Aloof e e :=
  ⟨rfl, .refl⟩

theorem trans (h₁ : Aloof e e') (h₂ : Aloof e' e'') : Aloof e e'' :=
  ⟨h₂.received.trans h₁.received, h₁.device.trans h₂.device⟩

end Aloof

variable (e)

theorem learn_aloof (ip : Ipv4Addr) (mac : Mac) : Aloof e (e.learn ip mac) := by
  rw [learn]
  repeat' split
  all_goals exact .of_eq rfl rfl

theorem releaseResolved_aloof : Aloof e e.releaseResolved := by
  rw [releaseResolved_eq]
  exact .of_eq rfl rfl

theorem validate_aloof (slot : PacketBuf) : Aloof e (e.validate slot).fst := by
  unfold validate
  dsimp only
  repeat' split
  all_goals exact .of_eq rfl rfl

theorem validateAll_aloof (slots : List PacketBuf) : Aloof e (e.validateAll slots).fst := by
  induction slots generalizing e
  case nil => exact .refl e
  case cons slot slots ih =>
    exact andThen_of (validate_aloof e slot) fun e' _ _ h => h.trans (ih e')

theorem send_aloof (slots : List PacketBuf) : Aloof e (e.send slots).fst := by
  show Aloof e (e.sendSlots slots).fst
  rw [sendSlots]
  split
  case isTrue => exact .refl e
  dsimp only
  have hv := validateAll_aloof e
    (slots.take (min (e.config.txCapacity - e.pending.length - e.ready.length) slots.length))
  split
  case h_1 heq =>
    rw [heq] at hv
    exact hv
  case h_2 e₁ heq =>
    rw [heq] at hv
    obtain ⟨_, _, _, _, ht⟩ := acceptAll_took e₁ 0
      (slots.take (min (e.config.txCapacity - e.pending.length - e.ready.length) slots.length))
    generalize e₁.acceptAll 0 _ = o at ht
    refine (hv.trans (.of_eq (congrArg InterfaceStats.receivedIp ht.stats) ht.device)).trans ?_
    dsimp only
    split <;> exact .of_eq rfl rfl

theorem ensureSpare_aloof : Aloof e e.ensureSpare := by
  rw [ensureSpare]
  split
  case h_1 => exact .refl e
  case h_2 => exact ⟨rfl, .single rfl⟩

theorem queueArp_aloof (packet : Arp.Packet) (destination : Mac) :
    Aloof e (e.queueArp packet destination).fst := by
  rw [queueArp]
  split
  case isTrue => exact .refl e
  dsimp only
  split
  case h_1 => exact ensureSpare_aloof e
  case h_2 => exact (ensureSpare_aloof e).trans (.of_eq rfl rfl)

theorem replyTo_aloof (packet : Arp.Packet) : Aloof e (e.replyTo packet) := by
  have hq :=
    queueArp_aloof e ⟨.reply, e.config.mac, e.config.address, packet.senderMac, packet.senderIp⟩
    packet.senderMac
  rw [replyTo]
  split
  all_goals
    rename_i heq
    rw [heq] at hq
    exact hq.trans (.of_eq rfl rfl)

theorem receiveArp_aloof (bytes : List U8) (source : Mac) :
    Aloof e (e.receiveArp bytes source) := by
  rw [receiveArp]
  repeat' split
  all_goals first
    | exact .of_eq rfl rfl
    | exact replyTo_aloof ..
    | exact learn_aloof ..
    | exact (learn_aloof ..).trans (replyTo_aloof ..)

theorem receiveFrames_allocs (frames : List PacketBuf) :
    Allocs e.device (e.receiveFrames frames).fst.device := by
  have hframe (e : EthernetIpv4 δ) (frame : PacketBuf) :
      Allocs e.device (e.receiveFrame frame).fst.device := by
    rw [receiveFrame]
    dsimp only
    repeat' split
    all_goals first
      | exact .refl
      | exact (receiveArp_aloof ..).device
  induction frames generalizing e
  case nil                  => exact .refl
  case cons frame frames ih => exact (hframe e frame).trans (ih _)

theorem probe_aloof (ip : Ipv4Addr) (attempts : Nat) (expires : Duration) :
    Aloof e (e.probe ip attempts expires) := by
  have hq := queueArp_aloof e ⟨.request, e.config.mac, e.config.address, 0, ip⟩ Mac.broadcast
  rw [probe]
  split
  all_goals
    rename_i heq
    rw [heq] at hq
    exact hq.trans (.of_eq rfl rfl)

theorem refresh_aloof (ip : Ipv4Addr) (state : NeighborState) : Aloof e (e.refresh ip state) := by
  unfold refresh
  repeat' split
  all_goals first
    | exact .of_eq rfl rfl
    | exact probe_aloof ..

theorem runTimers_aloof : Aloof e (e.runTimers e.neighbors.toList) :=
  runTimers_induction (P := Aloof e) (fun e' ip state _ h => h.trans (refresh_aloof e' ip state))
    (.refl e)

theorem alloc_aloof : Aloof e e.alloc.fst := by
  have hspare := ensureSpare_aloof e
  rw [alloc]
  dsimp only
  split
  case h_1 => exact hspare
  case h_2 => exact hspare.trans ⟨rfl, .single rfl⟩

-- The state in which the queues are sent at a time, unless time goes backwards.
def flushing (now : Duration) : Option (EthernetIpv4 δ) :=
  if now < e.now then
    none
  else
    let e := ensureSpare { e with now }
    some (e.runTimers e.neighbors.toList).releaseResolved

-- The state in which an operation sends the queues, if it does.
def sending (op : Op δ) : Option (EthernetIpv4 δ) :=
  (e.advancing op).bind fun o => o.fst.flushing o.snd

theorem advance_eq (now : Duration) :
    e.advance now =
      (e.flushing now).elim (e, .error (.invalid "time went backwards")) (·.flush) := by
  rw [advance, flushing]
  split
  case isTrue  => rfl
  case isFalse => rfl

variable {e}

theorem flushing_aloof {now : Duration} (h : e.flushing now = some e') : Aloof e e' := by
  rw [flushing] at h
  split at h
  case isTrue => cases h
  cases h
  have hnow : Aloof e { e with now } := .of_eq rfl rfl
  exact ((hnow.trans (ensureSpare_aloof _)).trans (runTimers_aloof _)).trans
    (releaseResolved_aloof _)

end EthernetIpv4
