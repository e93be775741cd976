import AsyncNetStack.Device.Basic

open List

-- The contract of `Device::send` on the slots of the caller: accepted frames are a prefix, and
-- their slots are empty afterwards. All other slots are untouched.
inductive PrefixOwned (slots : List PacketBuf) : List PacketBuf × IoResult Nat → Prop
  | ok {n : Nat} :
      n ≤ slots.length → PrefixOwned slots (List.replicate n .default ++ slots.drop n, .ok n)
  | error (err : IoError) : PrefixOwned slots (slots, .error err)

namespace PrefixOwned

variable {slots : List PacketBuf} {r : List PacketBuf × IoResult Nat}

-- A slot that still has a frame is one of those before.
theorem mem_of_belongsTo (h : PrefixOwned slots r) {buf : PacketBuf} {id : PoolId}
    (hm : buf ∈ r.fst) (hb : buf.belongsTo id = true) : buf ∈ slots := by
  cases h
  case error => exact hm
  case ok n _ =>
    cases mem_append.mp hm
    case inl hm =>
      rw [eq_of_mem_replicate hm] at hb
      cases hb
    case inr hm => exact mem_of_mem_drop hm

end PrefixOwned

namespace Device

-- A `send` that keeps the slots of the caller in view.
abbrev SlotSend (δ : Type) := δ → List PacketBuf → δ × List PacketBuf × IoResult Nat

-- How many frames a call accepted.
def accepted : IoResult Nat → Nat
  | .ok n    => n
  | .error _ => 0

-- A caller that sends what is left after each call. Between two calls the device can change in any
-- way. The result are the frames that were accepted, call by call, and the slots in the end.
def retry {δ : Type} (send : SlotSend δ) : List δ → List PacketBuf → List PacketBuf × List PacketBuf
  | [], slots      => ([], slots)
  | d :: ds, slots =>
    let (_, slots', result) := send d slots
    let (taken, rest) := retry send ds (slots'.drop (accepted result))
    (slots.take (accepted result) ++ taken, rest)

variable {δ : Type} {send : SlotSend δ}

theorem drop_accepted {slots : List PacketBuf} {r : List PacketBuf × IoResult Nat}
    (h : PrefixOwned slots r) : r.fst.drop (accepted r.snd) = slots.drop (accepted r.snd) := by
  cases h
  case error => rfl
  case ok n _ =>
    have hlen : (List.replicate n PacketBuf.default).length = n := length_replicate
    rw [accepted, drop_append_of_le_length hlen.ge, drop_eq_nil_of_le hlen.le, nil_append]

-- Each frame is either accepted once or still with the caller, and in the order of the slots.
theorem retry_append (h : ∀ d slots, PrefixOwned slots (send d slots).snd) (ds : List δ)
    (slots : List PacketBuf) : (retry send ds slots).fst ++ (retry send ds slots).snd = slots := by
  induction ds generalizing slots
  case nil => rfl
  case cons d ds ih =>
    rw [retry]
    dsimp only
    rw [drop_accepted (h d slots), append_assoc, ih]
    exact take_append_drop ..

-- What a device does with the frames of a batch, from any state that it can be in: it takes the
-- accepted ones if there is no error, and it keeps everything if there is one.
structure Contract (send : SlotSend δ) (Reachable : δ → Prop)
    (Takes : δ → List PacketBuf → δ → Prop) (Keeps : δ → δ → Prop) : Prop where
  owned  : ∀ d slots, PrefixOwned slots (send d slots).snd
  takes  : ∀ {d d' slots slots' n}, Reachable d → send d slots = (d', slots', .ok n) →
    Takes d (slots.take n) d'
  keeps  : ∀ {d d' slots slots' err}, Reachable d → send d slots = (d', slots', .error err) →
    Keeps d d'
  replay : ∀ ds slots, (retry send ds slots).fst ++ (retry send ds slots).snd = slots

end Device
