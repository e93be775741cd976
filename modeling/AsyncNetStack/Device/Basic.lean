import AsyncNetStack.Device.PacketBuf
import AsyncNetStack.Primitives.Duration

-- A network device backend. Each operation returns the device after the call together with its
-- result. The device owns all frames it accepts, so a caller only learns how many those are:
-- * `recv` returns the received frames.
-- * `send` returns the number of accepted frames. The remaining frames stay with the caller, and an
--   error accepts no frame.
-- * `recycle` is what happens when a caller drops a frame: it goes back to the pool it is from.
class Device (δ : Type) where
  pollAt    : δ → Duration → δ × IoResult Unit
  recv      : δ → Nat → δ × IoResult (List PacketBuf)
  send      : δ → List PacketBuf → δ × IoResult Nat
  alloc     : δ → δ × Option PacketBuf
  recycle   : δ → PacketBuf → δ
  frameSize : δ → Nat

-- The part of the contract of `Device::send` that is not already a matter of its type: the accepted
-- frames are a prefix of the submitted ones.
class LawfulDevice (δ : Type) extends Device δ where
  send_le : ∀ {d d' : δ} {frames : List PacketBuf} {n : Nat},
    send d frames = (d', .ok n) → n ≤ frames.length

namespace Device

variable {δ : Type} [Device δ]

-- A scripted device: it knows the results of the next calls in advance. Every behavior which a
-- caller can observe of a device in a single call is the behavior of a scripted one.
structure Script where
  polled    : IoResult Unit
  received  : IoResult (List PacketBuf)
  sent      : IoResult Nat
  allocated : Option PacketBuf

instance : Device Script where
  pollAt s _  := (s, s.polled)
  recv s _    := (s, s.received)
  send s _    := (s, s.sent)
  alloc s     := (s, s.allocated)
  recycle s _ := s
  frameSize _ := 0

end Device
