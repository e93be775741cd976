import AsyncNetStack.Device.Contract
import AsyncNetStack.Device.Loopback
import AsyncNetStack.Lib.Transition

open List

namespace LoopbackDevice

variable {d d' : LoopbackDevice}

inductive Op
  | recv (max : Nat)
  | send (slots : List PacketBuf)
  | alloc
  | recycle (buf : PacketBuf)

def step (d : LoopbackDevice) : Op → LoopbackDevice
  | .recv max    => (d.recv max).fst
  | .send slots  => (d.sendSlots slots).fst
  | .alloc       => d.alloc.fst
  | .recycle buf => d.recycle buf

-- The payloads which wait in the arena.
def queued (d : LoopbackDevice) : List (List U8) :=
  d.rx.map fun entry => (d.arena entry.fst).take entry.snd

-- A slot of the arena is free or has one payload.
def Sound (d : LoopbackDevice) : Prop :=
  (d.rx.map Prod.fst ++ d.freeSlots).Nodup

theorem copyIn_error {frames : List PacketBuf} {k : Nat} {err : IoError}
    (h : d.copyIn k frames = (d', .error err)) : k = 0 ∧ d' = d := by
  induction frames generalizing d k
  case nil => cases h
  case cons frame frames ih =>
    rw [copyIn] at h
    dsimp only at h
    split at h
    case isTrue =>
      split at h
      case isTrue => cases h
      rename_i hk
      cases h
      exact ⟨by omega, rfl⟩
    case isFalse =>
      split at h
      case h_1 => cases h
      cases (ih h).left

-- A payload is copied into a free slot, behind all others.
def store (d : LoopbackDevice) (slot : Nat) (freeSlots : List Nat) (bytes : List U8) :
    LoopbackDevice :=
  let d := write { d with freeSlots } slot bytes
  { d with rx := d.rx ++ [(slot, bytes.length)] }

theorem Sound.store (h : d.Sound) {slot : Nat} {freeSlots : List Nat}
    (hf : d.freeSlots = slot :: freeSlots) (bytes : List U8) :
    (d.store slot freeSlots bytes).Sound := by
  rw [Sound, hf] at h
  rw [Sound, LoopbackDevice.store, map_append, append_assoc]
  exact h

theorem Sound.queued_store (h : d.Sound) {slot : Nat} {freeSlots : List Nat}
    (hf : d.freeSlots = slot :: freeSlots) (bytes : List U8) :
    (d.store slot freeSlots bytes).queued = d.queued ++ [bytes] := by
  rw [Sound, hf] at h
  rw [queued, LoopbackDevice.store, map_append, map_singleton]
  congr 1
  · apply map_congr_left
    intro entry hm
    have hne : entry.fst ≠ slot := by
      rintro rfl
      exact disjoint_of_nodup_append h (mem_map_of_mem hm) mem_cons_self
    simp only [write, if_neg hne]
  · simp [write]

-- The accepted payloads go to the end of the queue.
theorem copyIn_ok (h : d.Sound) {frames : List PacketBuf} {k n : Nat}
    (hc : d.copyIn k frames = (d', .ok n)) :
    k ≤ n ∧ d'.Sound ∧ d'.queued = d.queued ++ (frames.take (n - k)).map (·.asSlice) := by
  induction frames generalizing d k
  case nil =>
    cases hc
    exact ⟨Nat.le_refl _, h, by simp⟩
  case cons frame frames ih =>
    rw [copyIn] at hc
    dsimp only at hc
    split at hc
    case isTrue =>
      split at hc
      case isFalse => cases hc
      cases hc
      exact ⟨Nat.le_refl _, h, by simp⟩
    split at hc
    case h_1 =>
      cases hc
      exact ⟨Nat.le_refl _, h, by simp⟩
    case h_2 slot freeSlots hf =>
      obtain ⟨hle, hs, hq⟩ := ih (h.store hf frame.asSlice) hc
      have hn : n - k = n - (k + 1) + 1 := by omega
      refine ⟨by omega, hs, ?_⟩
      rw [hq, h.queued_store hf, hn, take_succ_cons, map_cons, append_assoc]
      rfl

theorem sendSlots_owned (d : LoopbackDevice) (slots : List PacketBuf) :
    PrefixOwned slots (d.sendSlots slots).snd := by
  rw [sendSlots]
  split
  case h_1 => exact .error _
  case h_2 n heq =>
    have hle := copyIn_le heq
    rw [Nat.zero_add] at hle
    dsimp only
    rw [map_const', length_take, Nat.min_eq_left hle]
    exact .ok hle

theorem sendSlots_error {slots slots' : List PacketBuf} {err : IoError}
    (h : d.sendSlots slots = (d', slots', .error err)) : d' = d := by
  rw [sendSlots] at h
  split at h
  case h_2 => cases h
  rename_i heq
  cases h
  exact (copyIn_error heq).right

theorem sendSlots_ok (h : d.Sound) {slots slots' : List PacketBuf} {n : Nat}
    (hs : d.sendSlots slots = (d', slots', .ok n)) :
    d'.Sound ∧ d'.queued = d.queued ++ (slots.take n).map (·.asSlice) := by
  rw [sendSlots] at hs
  split at hs
  case h_1 => cases hs
  rename_i heq
  cases hs
  exact (copyIn_ok h heq).right

theorem recvInto_sound (h : d.Sound) (bufs : List PacketBuf) : (d.recvInto bufs).fst.Sound := by
  induction bufs generalizing d
  case nil => exact h
  case cons buf bufs ih =>
    rw [recvInto]
    split
    case h_1 => exact h
    case h_2 slot len rx hrx =>
      apply ih
      rw [Sound, hrx, map_cons, cons_append] at h
      exact nodup_middle.mpr h

theorem step_sound (h : d.Sound) (op : Op) : (d.step op).Sound := by
  cases op
  case recv max =>
    have hp : Sound { d with pool := (d.pool.allocBatch (min max d.rx.length)).fst } := h
    exact recvInto_sound hp _
  case alloc       => exact h
  case recycle buf => exact h
  case send slots =>
    rw [step]
    generalize hs : d.sendSlots slots = r
    obtain ⟨d', slots', err | n⟩ := r
    · rw [sendSlots_error hs]
      exact h
    · exact (sendSlots_ok h hs).left

-- The states of a device that was used in any way.
def Reachable (d : LoopbackDevice) : Prop :=
  ∃ id poolFrames kernelSlots ops,
    d = Transition.exec step (withCapacity id poolFrames kernelSlots) ops

theorem Reachable.sound (h : d.Reachable) : d.Sound := by
  have ⟨id, poolFrames, kernelSlots, ops, heq⟩ := h
  rw [heq]
  refine Transition.exec_induction ?_ fun _ op hs => step_sound hs op
  exact nodup_range

theorem contract : Device.Contract sendSlots Reachable
    (fun d frames d' => d'.queued = d.queued ++ frames.map (·.asSlice)) (fun d d' => d' = d) where
  owned        := sendSlots_owned
  takes hr hs  := (sendSlots_ok hr.sound hs).right
  keeps _ hs   := sendSlots_error hs
  replay       := Device.retry_append sendSlots_owned

end LoopbackDevice
