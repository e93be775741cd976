import AsyncNetStack.Device.Basic

-- A device together with the batches of frames that were passed to its `send`, and the frames that
-- it has taken of them, in order.
structure Recorder (δ : Type) where
  device  : δ
  offered : List (List PacketBuf) := []
  taken   : List PacketBuf := []

namespace Recorder

variable {δ : Type}

instance [Device δ] : Device (Recorder δ) where
  pollAt r now :=
    let (device, result) := Device.pollAt r.device now
    ({ r with device }, result)
  recv r max :=
    let (device, result) := Device.recv r.device max
    ({ r with device }, result)
  send r frames :=
    let (device, result) := Device.send r.device frames
    ({ device
       offered := r.offered ++ [frames]
       taken   := r.taken ++ frames.take (result.toOption.getD 0) }, result)
  alloc r :=
    let (device, frame) := Device.alloc r.device
    ({ r with device }, frame)
  recycle r frame := { r with device := Device.recycle r.device frame }
  frameSize r := Device.frameSize r.device

instance [LawfulDevice δ] : LawfulDevice (Recorder δ) where
  send_le {r _ _ _} h := by
    have hsnd : (Device.send r.device _).snd = .ok _ := congrArg Prod.snd h
    exact LawfulDevice.send_le (Prod.ext rfl hsnd)

end Recorder
