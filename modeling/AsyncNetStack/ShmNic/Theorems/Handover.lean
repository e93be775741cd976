import AsyncNetStack.Lib.Circular
import AsyncNetStack.Lib.Transition
import AsyncNetStack.ShmNic.Theorems.Layout

open List Bool

namespace ShmNic

open Circular (Filled)
open Transition (exec exec_induction)

variable {j : Job} {s : State} {m : Memory} {p : Proc}

namespace Job

theorem fits (j : Job) : j.layout.Fits j.args :=
  Layout.fits j.valid

theorem validate_descriptor (j : Job) (seq : Nat) :
    j.layout.validate (j.descriptor seq) seq j.args.size = some (j.layout.offset seq) := by
  simp [Layout.validate, descriptor]

theorem validateFrame_frame (j : Job) (seq : Nat) :
    validateFrame (j.frame seq) seq j.args.full = true := by
  have hsize : 32 ≤ j.args.size := Nat.le_trans (by decide) j.fits.size.left
  have hlen : (j.frame seq).length = j.args.size := by
    simp only [frame, generate, framePrefix, leBytes, length_append, length_map,
      length_range, length_replicate, length_cons, length_nil]
    omega
  rw [validateFrame, hlen]
  simp only [and_eq_true, decide_eq_true_eq, or_eq_true, beq_iff_eq]
  exact ⟨⟨⟨⟨⟨hsize, rfl⟩, rfl⟩, rfl⟩, rfl⟩, .inr rfl⟩

end Job

namespace Pc

-- The size of the batch, the packets of it that are done with, and those whose frame is.
def pending : Pc → Nat
  | slot n _ | half n _ => n
  | _                   => 0

def entered : Pc → Nat
  | slot _ i | half _ i => i
  | _                   => 0

def framed : Pc → Nat
  | slot _ i => i
  | half _ i => i + 1
  | _        => 0

def Valid (cursor stop : Nat) : Pc → Prop
  | slot n i         => i ≤ n
  | half n i         => i < n
  | drain | finished => cursor = stop
  | failed _         => False
  | _                => True

-- Whether the host has announced the phase, and whether the guest has armed it.
def Started : Pc → Prop
  | arm | begin => False
  | _           => True

def Armed : Pc → Prop
  | arm => False
  | _   => True

theorem Valid.entered_le {pc : Pc} {cursor stop : Nat} (h : pc.Valid cursor stop) :
    pc.entered ≤ pc.pending := by
  cases pc
  case slot => exact h
  case half => exact Nat.le_of_lt h
  all_goals exact le_rfl

end Pc

-- The packet that a process works on.
def Proc.current (p : Proc) : Option Nat :=
  if p.pc.entered < p.pc.pending then some (p.cursor + p.pc.entered) else none

-- The memory in which a run can start.
def Memory.Ready (m : Memory) (j : Job) : Prop :=
  m.published = j.start ∧ m.completed = j.start

structure Sound (j : Job) (s : State) : Prop where
  published   : s.memory.published = s.host.cursor
  completed   : s.memory.completed = s.guest.cursor
  packets     : s.guest.cursor = j.start + s.guest.packets
  hostPeer    : s.host.peer ≤ s.guest.cursor
  guestPeer   : s.guest.peer ≤ s.host.cursor
  room        : s.host.cursor + s.host.pc.pending ≤ s.host.peer + j.args.ring
  within      : s.host.cursor + s.host.pc.pending ≤ j.stop
  granted     : s.guest.cursor + s.guest.pc.pending ≤ s.guest.peer
  frames      : Filled j.args.ring s.memory.frames j.frame s.guest.cursor
                  (s.host.cursor + s.host.pc.framed)
  descriptors : Filled j.args.ring s.memory.descriptors j.descriptor s.guest.cursor
                  (s.host.cursor + s.host.pc.entered)
  delivered   : s.delivered = (List.range' j.start (s.guest.packets + s.guest.pc.entered)).map
    j.frame
  host        : s.host.pc.Valid s.host.cursor j.stop
  guest       : s.guest.pc.Valid s.guest.cursor j.stop
  ended       : s.host.pc = .finished → s.guest.cursor = j.stop
  started     : s.host.pc.Started → s.memory.phase = j.phase
  armed       : s.guest.pc.Armed → s.memory.armed = j.phase

theorem Proc.take_moves {producer : Bool} {peer : Nat} (hlt : p.cursor < j.stop)
    (h : 0 < p.available j.args producer peer) : (p.take j producer peer).pc ≠ .poll := by
  have hbatch := j.fits.batch
  rw [take, if_neg (by omega)]
  rintro ⟨⟩

-- A process polls in vain only if there is nothing to do.
theorem Proc.poll_moves {producer : Bool} {shared : Nat} (hlt : p.cursor < j.stop)
    (h : 0 < p.available j.args producer shared) : (p.poll j producer shared).pc ≠ .poll := by
  have hbatch := j.fits.batch
  rw [poll]
  split
  case isTrue =>
    split
    · rintro ⟨⟩
    · exact take_moves hlt h
  case isFalse => exact take_moves hlt (by omega)

namespace Sound

theorem init (h : m.Ready j) : Sound j (.init j m) where
  published   := h.left
  completed   := h.right
  packets     := rfl
  hostPeer    := le_rfl
  guestPeer   := le_rfl
  room        := Nat.le_add_right ..
  within      := j.le
  granted     := le_rfl
  frames      := .empty le_rfl
  descriptors := .empty le_rfl
  delivered   := rfl
  host        := trivial
  guest       := trivial
  ended       := by rintro ⟨⟩
  started     := False.elim
  armed       := False.elim

theorem guest_le_host (h : Sound j s) : s.guest.cursor ≤ s.host.cursor :=
  (Nat.le_of_add_right_le h.granted).trans h.guestPeer

theorem host_le_ring (h : Sound j s) :
    s.host.cursor + s.host.pc.pending ≤ s.guest.cursor + j.args.ring :=
  h.room.trans (Nat.add_le_add_right h.hostPeer _)

theorem pollHost (h : Sound j s) (heq : s.host.pc = .poll) (hlt : s.host.cursor < j.stop) :
    Sound j { s with host := s.host.poll j true s.memory.completed } := by
  have h₁ := h.guest_le_host
  have h₂ := h.host_le_ring
  have h₃ := h.hostPeer
  have h₄ := h.room
  have hindex : s.host.invalidIndex j true s.guest.cursor = false := by
    simp only [Proc.invalidIndex, if_true, Bool.or_eq_false_iff, decide_eq_false_iff_not]
    omega
  have hframes := h.frames
  have hdescriptors := h.descriptors
  rw [heq] at hframes hdescriptors
  rw [h.completed, Proc.poll, hindex, if_neg Bool.false_ne_true, Proc.take, Proc.take]
  simp only [Proc.available, if_true]
  repeat' split
  all_goals exact { h with
    hostPeer    := by dsimp only; omega
    room        := by dsimp only [Pc.pending]; omega
    within      := by dsimp only [Pc.pending]; omega
    frames      := hframes
    descriptors := hdescriptors
    host        := by simp [Pc.Valid]
    ended       := by rintro ⟨⟩
    started _   := h.started (by rw [heq]; trivial) }

theorem pollGuest (h : Sound j s) (heq : s.guest.pc = .poll) :
    Sound j { s with guest := s.guest.poll j false s.memory.published } := by
  have h₁ := h.guest_le_host
  have h₂ := h.host_le_ring
  have h₃ := h.within
  have h₄ := h.guestPeer
  have h₅ := h.granted
  have hindex : s.guest.invalidIndex j false s.host.cursor = false := by
    simp only [Proc.invalidIndex, Bool.false_eq_true, if_false, Bool.or_eq_false_iff,
      decide_eq_false_iff_not]
    omega
  have hdelivered := h.delivered
  rw [heq] at hdelivered
  rw [h.published, Proc.poll, hindex, if_neg Bool.false_ne_true, Proc.take, Proc.take]
  simp only [Proc.available, Bool.false_eq_true, if_false]
  repeat' split
  all_goals exact { h with
    guestPeer := by dsimp only; omega
    granted   := by dsimp only [Pc.pending]; omega
    delivered := hdelivered
    guest     := by simp [Pc.Valid]
    armed _   := h.armed (by rw [heq]; trivial) }

theorem produce (h : Sound j s) : Sound j (produce j s) := by
  obtain ⟨m, ⟨cursor, peer, packets, pc⟩, guest, delivered⟩ := s
  have hring := h.host_le_ring
  cases pc <;> dsimp only [ShmNic.produce]
  case arm =>
    split
    · exact { h with host := trivial, ended := by rintro ⟨⟩ }
    · exact h
  case begin => exact { h with host := trivial, ended := by rintro ⟨⟩, started := fun _ => rfl }
  case poll =>
    split
    case isTrue hlt  => exact h.pollHost rfl hlt
    case isFalse hge =>
      exact { h with
        host  := le_antisymm h.within (not_lt.mp hge)
        ended := by rintro ⟨⟩ }
  case slot n i =>
    split
    case isTrue hlt =>
      rw [Layout.index_eq j.fits]
      exact { h with
        frames := h.frames.push ((Nat.add_lt_add_left hlt cursor).trans_le hring)
        host   := hlt
        ended  := by rintro ⟨⟩ }
    case isFalse hge =>
      obtain rfl : i = n := le_antisymm h.host (not_lt.mp hge)
      exact { h with
        published := rfl
        guestPeer := h.guestPeer.trans (Nat.le_add_right ..)
        host      := trivial
        ended     := by rintro ⟨⟩ }
  case half n i =>
    rw [Layout.index_eq j.fits]
    exact { h with
      descriptors := h.descriptors.push ((Nat.add_lt_add_left h.host cursor).trans_le hring)
      host        := h.host
      ended       := by rintro ⟨⟩ }
  case drain =>
    split
    case isTrue heq => exact { h with ended := fun _ => h.completed.symm.trans heq }
    case isFalse    => exact h
  case finished | failed => exact h

theorem consume (h : Sound j s) : Sound j (consume j s) := by
  obtain ⟨m, host, ⟨cursor, peer, packets, pc⟩, delivered⟩ := s
  have hgranted : cursor + pc.pending ≤ host.cursor := h.granted.trans h.guestPeer
  have hwithin : host.cursor ≤ j.stop := Nat.le_of_add_right_le h.within
  have hfilled {i : Nat} (hlt : i < pc.pending) :
      m.frames (j.layout.index (cursor + i)) = j.frame (cursor + i) ∧
      m.descriptors (j.layout.index (cursor + i)) = j.descriptor (cursor + i) := by
    rw [Layout.index_eq j.fits]
    exact ⟨h.frames _ (Nat.le_add_right ..) (by dsimp only; omega),
      h.descriptors _ (Nat.le_add_right ..) (by dsimp only; omega)⟩
  cases pc <;> dsimp only [ShmNic.consume, Pc.pending] at hgranted hfilled ⊢
  case arm => exact { h with guest := trivial, armed := fun _ => rfl }
  case begin =>
    split
    · exact { h with guest := trivial }
    · exact h
  case poll =>
    split
    case isTrue      => exact h.pollGuest rfl
    case isFalse hge =>
      exact { h with guest := le_antisymm (hgranted.trans hwithin) (not_lt.mp hge) }
  case slot n i =>
    split
    case isTrue hlt =>
      rw [(hfilled hlt).right, j.validate_descriptor]
      exact { h with guest := hlt }
    rename_i hge
    obtain rfl : i = n := le_antisymm h.guest (not_lt.mp hge)
    exact { h with
      completed   := rfl
      packets     := (congrArg (· + i) h.packets).trans (Nat.add_assoc ..)
      hostPeer    := h.hostPeer.trans (Nat.le_add_right ..)
      frames      := h.frames.mono (Nat.le_add_right ..)
      descriptors := h.descriptors.mono (Nat.le_add_right ..)
      guest       := trivial
      ended       := fun heq => le_antisymm (hgranted.trans hwithin)
        ((h.ended heq).symm.le.trans (Nat.le_add_right ..)) }
  case half n i =>
    have hseq : cursor + i = j.start + 1 * (packets + i) := by
      rw [Nat.one_mul, ← Nat.add_assoc]
      exact congrArg (· + i) h.packets
    rw [(hfilled h.guest).left, j.validateFrame_frame, if_pos rfl]
    exact { h with
      delivered := by
        dsimp only [Pc.entered, Proc.setPc]
        rw [← Nat.add_assoc, List.range'_concat, map_append, hseq]
        exact congrArg (· ++ _) h.delivered
      guest     := h.guest }
  case drain => exact { h with guest := h.guest }
  case finished | failed => exact h

theorem step (h : Sound j s) (t : Turn) : Sound j (step j s t) := by
  cases t
  case host  => exact h.produce
  case guest => exact h.consume

theorem run (h : m.Ready j) (turns : List Turn) :
    Sound j (exec (ShmNic.step j) (.init j m) turns) :=
  exec_induction (.init h) fun _ t hs => hs.step t

-- A process that cannot move has finished or waits for the other one.
theorem host_waits (h : Sound j s) (ha : s.guest.pc.Armed) (hs : ShmNic.produce j s = s) :
    s.host.pc.Started ∧
    (s.host.pc = .finished ∧ s.guest.cursor = j.stop ∨ s.guest.cursor < s.host.cursor) := by
  obtain ⟨m, ⟨cursor, peer, packets, pc⟩, guest, delivered⟩ := s
  have hle : guest.cursor ≤ cursor := h.guest_le_host
  have hcompleted : m.completed = guest.cursor := h.completed
  cases pc <;> dsimp only [ShmNic.produce] at hs ⊢
  case arm =>
    rw [if_pos (h.armed ha)] at hs
    cases congrArg (·.host.pc) hs
  case poll =>
    refine ⟨trivial, .inr (Nat.lt_of_le_of_ne hle fun heq => ?_)⟩
    split at hs
    case isFalse    => cases congrArg (·.host.pc) hs
    case isTrue hlt =>
      refine Proc.poll_moves hlt ?_ (congrArg (·.host.pc) hs)
      have hbatch := j.fits.batch
      simp only [Proc.available, if_true]
      omega
  case drain =>
    have hcursor : cursor = j.stop := h.host
    split at hs
    case isTrue  => cases congrArg (·.host.pc) hs
    case isFalse => exact ⟨trivial, .inr (by omega)⟩
  case finished => exact ⟨trivial, .inl ⟨rfl, h.ended rfl⟩⟩
  case failed   => exact h.host.elim
  case begin | slot | half =>
    repeat' split at hs
    all_goals cases congrArg (·.host.pc) hs

theorem guest_waits (h : Sound j s) (hs : ShmNic.consume j s = s) :
    s.guest.pc.Armed ∧ (s.host.pc.Started → s.guest.pc = .finished ∨
      s.guest.cursor = s.host.cursor ∧ s.guest.cursor < j.stop) := by
  obtain ⟨m, host, ⟨cursor, peer, packets, pc⟩, delivered⟩ := s
  have hle : cursor ≤ host.cursor := h.guest_le_host
  have hpublished : m.published = host.cursor := h.published
  cases pc <;> dsimp only [ShmNic.consume] at hs ⊢
  case begin =>
    refine ⟨trivial, fun hst => ?_⟩
    rw [if_pos (h.started hst)] at hs
    cases congrArg (·.guest.pc) hs
  case poll =>
    split at hs
    case isFalse    => cases congrArg (·.guest.pc) hs
    case isTrue hlt =>
      refine ⟨trivial, fun _ => .inr ⟨le_antisymm hle (Nat.le_of_not_lt fun hless => ?_), hlt⟩⟩
      refine Proc.poll_moves hlt ?_ (congrArg (·.guest.pc) hs)
      simp only [Proc.available, false_eq_true, if_false]
      omega
  case finished => exact ⟨trivial, fun _ => .inl rfl⟩
  case failed   => exact h.guest.elim
  case arm | slot | half | drain =>
    repeat' split at hs
    all_goals cases congrArg (·.guest.pc) hs

end Sound

-- Whatever the order of their steps is, neither process finds the memory in a wrong state, the
-- guest accepts each frame once and in order, and the two never work on the same bytes. When the
-- host has finished, all frames have been accepted, and the memory is ready for the next run.
theorem frames_are_handed_over_once (h : m.Ready j) (turns : List Turn) :
    let s := exec (step j) (.init j m) turns
    (∀ e, s.host.pc ≠ .failed e ∧ s.guest.pc ≠ .failed e) ∧
    s.delivered = (List.range' j.start s.delivered.length).map j.frame ∧
    (∀ x ∈ s.host.current, ∀ y ∈ s.guest.current,
      j.layout.offset x + j.args.size ≤ j.layout.offset y ∨
      j.layout.offset y + j.args.size ≤ j.layout.offset x) ∧
    (s.host.pc = .finished →
      s.delivered.length = j.stop - j.start ∧
      ∀ j' : Job, j'.start = j.stop → s.memory.Ready j') := by
  intro s
  have hs : Sound j s := .run h turns
  have hlen : s.delivered.length = s.guest.packets + s.guest.pc.entered := by
    rw [hs.delivered, length_map, length_range']
  have hle := hs.guest_le_host
  have hring := hs.host_le_ring
  have hgranted := hs.granted.trans hs.guestPeer
  refine ⟨?_, hlen ▸ hs.delivered, ?_, ?_⟩
  · intro e
    constructor <;> intro heq
    · exact cast (by rw [heq]; rfl) hs.host
    · exact cast (by rw [heq]; rfl) hs.guest
  · intro x hx y hy
    obtain ⟨hx, ⟨⟩⟩ := Option.ite_none_right_eq_some.mp hx
    obtain ⟨hy, ⟨⟩⟩ := Option.ite_none_right_eq_some.mp hy
    apply Layout.offset_disjoint j.fits
    rw [Layout.index_eq j.fits, Layout.index_eq j.fits]
    exact (Circular.slot_ne (by omega) (by omega)).symm
  · intro heq
    have hcursor : s.host.cursor = j.stop := cast (by rw [heq]; rfl) hs.host
    have hended := hs.ended heq
    have hpackets := hs.packets
    have hentered := hs.guest.entered_le
    refine ⟨by omega, fun j' hstart => ⟨?_, ?_⟩⟩
    · rw [hstart, hs.published, hcursor]
    · rw [hstart, hs.completed, hended]

def blank : Memory :=
  ⟨0, 0, 0, 0, fun _ => ⟨0, 0, 0, 0⟩, fun _ => []⟩

-- Each process in turn goes on until it has to wait, with the index of the other one that it has
-- cached.
def inTurn : List Turn :=
  .guest :: (replicate 4 (replicate 12 .host ++ replicate 12 .guest)).flatten

-- The host finds the ring full after two packets, and has a stale index in the end.
theorem frames_are_handed_over_once_five :
    (let s := exec (step five) (.init five blank) (.guest :: replicate 12 .host)
    s.host.pc = .poll ∧ s.host.cursor = 2 ∧ s.memory.completed = 0) ∧
    let s := exec (step five) (.init five blank) inTurn
    s.host.pc = .finished ∧ s.host.peer < s.memory.completed ∧
    s.delivered = [0, 1, 2, 3, 4].map five.frame := by
  have hpc : (exec (step five) (.init five blank) inTurn).host.pc = .finished := by decide +kernel
  have ⟨_, hd, _, hend⟩ := frames_are_handed_over_once (j := five) (m := blank) ⟨rfl, rfl⟩ inTurn
  refine ⟨by decide +kernel, hpc, by decide +kernel, ?_⟩
  rw [(hend hpc).left] at hd
  exact hd

-- A state in which neither process can move is one in which both have finished.
theorem one_process_can_move (h : m.Ready j) (turns : List Turn) :
    let s := exec (step j) (.init j m) turns
    (∀ t, step j s t = s) → s.host.pc = .finished ∧ s.guest.pc = .finished := by
  intro s hstuck
  have hs : Sound j s := .run h turns
  have hstop := Nat.le_of_add_right_le hs.within
  obtain ⟨ha, hg⟩ := hs.guest_waits (hstuck .guest)
  obtain ⟨hst, ⟨hh, hc⟩ | hh⟩ := hs.host_waits ha (hstuck .host)
  all_goals obtain hg | ⟨hg, hlt⟩ := hg hst
  · exact ⟨hh, hg⟩
  · omega
  · have hcursor : s.guest.cursor = j.stop := cast (by rw [hg]; rfl) hs.guest
    omega
  · omega

theorem one_process_can_move_five :
    let s := exec (step five) (.init five blank) inTurn
    s.host.pc = .finished ∧ s.guest.pc = .finished := by
  have hhost : (exec (step five) (.init five blank) inTurn).host.pc = .finished := by decide +kernel
  have hguest : (exec (step five) (.init five blank) inTurn).guest.pc = .finished := by
    decide +kernel
  refine one_process_can_move (j := five) (m := blank) ⟨rfl, rfl⟩ inTurn fun t => ?_
  cases t
  case host  => rw [step, produce, hhost]
  case guest => rw [step, consume, hguest]

end ShmNic
