import AsyncNetStack.Device.PacketBuf

open List

namespace PacketBuf

variable {buf : PacketBuf} {bytes : List U8} {start len : Nat}

-- A write replaces its part of the packet.
theorem asSlice_copyFromSlice_at (h : start + bytes.length ≤ buf.len) :
    (buf.copyFromSlice start bytes h).asSlice =
      buf.asSlice.take start ++ bytes ++ buf.asSlice.drop (start + bytes.length) := by
  have := buf.bound
  have hfront : (buf.memory.take buf.dataOffset).length = buf.dataOffset :=
    length_take_of_le (by omega)
  have hinner : ((buf.memory.drop buf.dataOffset).take start).length = start := by
    rw [length_take, length_drop]
    omega
  have hinner' : ((buf.memory.drop buf.dataOffset).take start).take buf.len =
      (buf.memory.drop buf.dataOffset).take start := take_of_length_le (by omega)
  have hbytes : bytes.take (buf.len - start) = bytes := take_of_length_le (by omega)
  rw [asSlice, asSlice]
  dsimp only [copyFromSlice]
  rw [take_add, append_assoc, append_assoc, drop_left' hfront, append_assoc,
    take_append, hinner', hinner, take_append, hbytes, take_take,
    Nat.min_eq_left (by omega), drop_take, drop_drop, Nat.sub_sub, Nat.add_assoc]

theorem asSlice_withHeader (h : bytes.length ≤ buf.dataOffset) :
    (buf.withHeader bytes h).asSlice = bytes ++ buf.asSlice := by
  rw [withHeader, asSlice_copyFromSlice_at, take_zero, nil_append, Nat.zero_add, asSlice,
    asSlice, drop_take, drop_drop, Nat.add_sub_cancel, Nat.sub_add_cancel h]

theorem asSlice_withLen (h : len ≤ buf.tailCapacity) (hlen : len ≤ buf.len) :
    (buf.withLen len h).asSlice = buf.asSlice.take len := by
  rw [asSlice, asSlice, take_take, Nat.min_eq_left hlen]
  rfl

-- A packet that is extended over old bytes, which are overwritten.
theorem asSlice_extend (h : len ≤ buf.tailCapacity) (hlen : buf.len + bytes.length = len) :
    ((buf.withLen len h).copyFromSlice buf.len bytes (by rw [len_withLen, hlen])).asSlice =
      buf.asSlice ++ bytes := by
  have hb := buf.bound
  have htake : (buf.withLen len h).asSlice.take buf.len = buf.asSlice := by
    rw [asSlice, asSlice, take_take]
    show List.take (min buf.len len) _ = _
    rw [Nat.min_eq_left (by omega)]
    rfl
  rw [asSlice_copyFromSlice_at, htake, drop_eq_nil_of_le, append_nil]
  rw [asSlice_length, len_withLen, hlen]

end PacketBuf
