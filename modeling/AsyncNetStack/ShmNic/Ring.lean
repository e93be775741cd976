import AsyncNetStack.Xdp.Ring

-- The shared-memory NIC: a host process hands frames to a guest process through a ring in memory
-- which both of them have mapped.
namespace ShmNic

structure Args where
  packets : Nat
  warmup  : Nat
  size    : Nat
  ring    : Nat
  batch   : Nat
  stride  : Nat
  full    : Bool
  timeout : Nat

structure Descriptor where
  offset   : Nat
  sequence : Nat
  len      : Nat
  reserved : Nat

-- Where the descriptors begin, and the size of each.
def descriptorsAt  : Nat := 4096
def descriptorSize : Nat := 24

structure Layout where
  ring    : Nat
  stride  : Nat
  payload : Nat
  bytes   : Nat

-- `(n + mask) & !mask` for the mask of the lowest bits.
def alignUp (bits n : Nat) : Nat :=
  (n + (2 ^ bits - 1)) >>> bits <<< bits

namespace Layout

def new (a : Args) : Except String Layout :=
  if !Xdp.isPowerOfTwo a.ring || a.ring > 65536 || a.ring < 2 then
    .error "ring must be a power of two in 2..=65536"
  else if a.batch = 0 || a.batch > a.ring || a.size < 64 || a.size > 9000 then
    .error "batch must be in 1..=ring and size in 64..=9000"
  else if a.packets = 0 || a.packets * (a.size * 2) ≥ 2 ^ 64
      || a.packets + a.warmup > (2 ^ 64 - 1) / 2 || a.timeout = 0 || a.timeout > 3600 then
    .error "packets must be positive, total <= u64::MAX/2, timeout in 1..=3600"
  else
    let stride := if a.stride = 0 then alignUp 7 a.size else a.stride
    let payload := alignUp 12 (descriptorsAt + a.ring * descriptorSize)
    if stride < a.size || stride > 65536 || stride % 128 ≠ 0 then
      .error "stride must fit size and be a multiple of 128, at most 65536"
    else if payload + a.ring * stride ≥ 2 ^ 64 then
      .error "mapping size overflows address space"
    else if payload + a.ring * stride > 512 * 1024 * 1024 then
      .error "mapping is limited to 512 MiB"
    else
      .ok { ring := a.ring, stride, payload, bytes := payload + a.ring * stride }

def index (l : Layout) (sequence : Nat) : Nat :=
  sequence &&& (l.ring - 1)

def offset (l : Layout) (sequence : Nat) : Nat :=
  l.payload + l.index sequence * l.stride

def validate (l : Layout) (d : Descriptor) (sequence size : Nat) : Option Nat :=
  if d.sequence ≠ sequence || d.len ≠ size || d.reserved ≠ 0 || d.offset ≠ l.offset sequence then
    none
  else
    some d.offset

end Layout

def framePrefix : List U8 :=
  [2, 0, 0, 0, 0, 2, 2, 0, 0, 0, 0, 1, 0x88, 0xb5, 0x53, 0x4d]

def leBytes (width n : Nat) : List U8 :=
  (List.range width).map fun i => .ofNat 8 (n >>> (8 * i))

def payloadByte (sequence i : Nat) : U8 :=
  .ofNat 8 i + .ofNat 8 sequence

-- Every byte of the slice is written, so only its length matters.
def generate (len sequence : Nat) : List U8 :=
  framePrefix ++ (leBytes 8 sequence ++ (leBytes 4 len ++ (List.replicate 4 0 ++
    (List.range (len - 32)).map (payloadByte sequence))))

def validateFrame (frame : List U8) (sequence : Nat) (full : Bool) : Bool :=
  32 ≤ frame.length &&
  frame.take 16 == framePrefix &&
  (frame.drop 16).take 8 == leBytes 8 sequence &&
  (frame.drop 24).take 4 == leBytes 4 frame.length &&
  (frame.drop 28).take 4 == List.replicate 4 0 &&
  (!full || frame.drop 32 == (List.range (frame.length - 32)).map (payloadByte sequence))

-- What a process can find wrong with the shared memory. One that gives up for another reason (the
-- peer makes no progress, or its pipe is closed) is one that takes no further steps.
inductive Error
  | ringIndex
  | descriptor (sequence : Nat)
  | corrupt (sequence : Nat)
  deriving DecidableEq

-- What the two calls of `run` for one phase have in common.
structure Job where
  args   : Args
  layout : Layout
  start  : Nat
  stop   : Nat
  phase  : Nat
  valid  : Layout.new args = .ok layout
  le     : start ≤ stop

-- The shared memory. Descriptors and frames are stored by their index in the ring.
structure Memory where
  published   : Nat
  completed   : Nat
  phase       : Nat
  armed       : Nat
  descriptors : Nat → Descriptor
  frames      : Nat → List U8

-- Where a process is in `run`. In a batch of `n` packets it is at the packet `i`; with `half`, the
-- host has written its frame but not its descriptor, and the guest has checked its descriptor but
-- not its frame.
inductive Pc
  | arm
  | begin
  | poll
  | slot (n i : Nat)
  | half (n i : Nat)
  | drain
  | finished
  | failed (e : Error)
  deriving DecidableEq

structure Proc where
  cursor  : Nat
  peer    : Nat
  packets : Nat
  pc      : Pc

namespace Proc

def init (j : Job) : Proc :=
  { cursor := j.start, peer := j.start, packets := 0, pc := .arm }

def setPc (p : Proc) (pc : Pc) : Proc :=
  { p with pc }

def available (p : Proc) (a : Args) (producer : Bool) (peer : Nat) : Nat :=
  if producer then a.ring - (p.cursor - peer) else peer - p.cursor

def invalidIndex (p : Proc) (j : Job) (producer : Bool) (peer : Nat) : Bool :=
  if producer then
    peer > p.cursor || p.cursor - peer > j.args.ring
  else
    peer < p.cursor || peer - p.cursor > j.args.ring || peer > j.stop

-- Begins the next batch, as far as the index of the peer allows.
def take (p : Proc) (j : Job) (producer : Bool) (peer : Nat) : Proc :=
  let n := min (min (p.available j.args producer peer) j.args.batch) (j.stop - p.cursor)
  { p with peer, pc := if n = 0 then .poll else .slot n 0 }

-- The index of the peer is cached, and loaded only if the cache does not allow for a full batch.
def poll (p : Proc) (j : Job) (producer : Bool) (shared : Nat) : Proc :=
  if p.available j.args producer p.peer < j.args.batch then
    if p.invalidIndex j producer shared then
      p.setPc (.failed .ringIndex)
    else
      p.take j producer shared
  else
    p.take j producer p.peer

def advance (p : Proc) (n : Nat) : Proc :=
  { p with cursor := p.cursor + n, packets := p.packets + n, pc := .poll }

end Proc

-- The system, with the frames which the guest has accepted.
structure State where
  memory    : Memory
  host      : Proc
  guest     : Proc
  delivered : List (List U8)

def State.init (j : Job) (m : Memory) : State :=
  { memory := m, host := .init j, guest := .init j, delivered := [] }

namespace Job

def frame (j : Job) (sequence : Nat) : List U8 :=
  generate j.args.size sequence

def descriptor (j : Job) (sequence : Nat) : Descriptor where
  offset   := j.layout.offset sequence
  sequence := sequence
  len      := j.args.size
  reserved := 0

end Job

def produce (j : Job) (s : State) : State :=
  let m := s.memory
  let p := s.host
  match p.pc with
  | .arm =>
    if m.armed = j.phase then { s with host := p.setPc .begin } else s
  | .begin =>
    { s with memory := { m with phase := j.phase }, host := p.setPc .poll }
  | .poll =>
    { s with host := if p.cursor < j.stop then p.poll j true m.completed else p.setPc .drain }
  | .slot n i =>
    let seq := p.cursor + i
    if i < n then
      { s with
        memory := { m with frames := Function.update m.frames (j.layout.index seq) (j.frame seq) }
        host   := p.setPc (.half n i) }
    else
      { s with memory := { m with published := p.cursor + n }, host := p.advance n }
  | .half n i =>
    let seq := p.cursor + i
    let descriptors := Function.update m.descriptors (j.layout.index seq) (j.descriptor seq)
    { s with memory := { m with descriptors }, host := p.setPc (.slot n (i + 1)) }
  | .drain =>
    if m.completed = j.stop then { s with host := p.setPc .finished } else s
  | .finished | .failed _ =>
    s

def consume (j : Job) (s : State) : State :=
  let m := s.memory
  let p := s.guest
  match p.pc with
  | .arm =>
    { s with memory := { m with armed := j.phase }, guest := p.setPc .begin }
  | .begin =>
    if m.phase = j.phase then { s with guest := p.setPc .poll } else s
  | .poll =>
    { s with guest := if p.cursor < j.stop then p.poll j false m.published else p.setPc .drain }
  | .slot n i =>
    let seq := p.cursor + i
    if i < n then
      match j.layout.validate (m.descriptors (j.layout.index seq)) seq j.args.size with
      | none   => { s with guest := p.setPc (.failed (.descriptor seq)) }
      | some _ => { s with guest := p.setPc (.half n i) }
    else
      { s with memory := { m with completed := p.cursor + n }, guest := p.advance n }
  | .half n i =>
    let seq := p.cursor + i
    let frame := m.frames (j.layout.index seq)
    if validateFrame frame seq j.args.full then
      { s with guest := p.setPc (.slot n (i + 1)), delivered := s.delivered ++ [frame] }
    else
      { s with guest := p.setPc (.failed (.corrupt seq)) }
  | .drain =>
    { s with guest := p.setPc .finished }
  | .finished | .failed _ =>
    s

inductive Turn
  | host
  | guest

def step (j : Job) (s : State) : Turn → State
  | .host  => produce j s
  | .guest => consume j s

end ShmNic
