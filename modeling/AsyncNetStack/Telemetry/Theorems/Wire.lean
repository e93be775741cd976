import AsyncNetStack.Lib.Layout
import AsyncNetStack.Telemetry.Collector
import AsyncNetStack.Telemetry.Exporter

namespace Telemetry

open Layout Option

variable {event : TcpEvent} {events : List TcpEvent} {record record' bytes bytes' : List U8}

def recordFields (event : TcpEvent) : List (Cell U8) :=
  [⟨0, be64 (micros event.time)⟩, ⟨8, be64 (.ofNat 64 event.connection)⟩,
    ⟨16, [state event.status.state]⟩, ⟨17, [wait event.status.flow.wait]⟩,
    ⟨20, be32 event.status.localAddr.ip⟩, ⟨24, be32 event.status.remoteAddr.ip⟩,
      ⟨28, be16 event.status.localAddr.port⟩,
    ⟨30, be16 event.status.remoteAddr.port⟩] ++
  (values event.status).zipIdx.map fun (value, i) => ⟨32 + i * 8, be64 value⟩

theorem writeRecord_eq (record : List U8) (event : TcpEvent) :
    writeRecord record event = write record (recordFields event) := by
  simp only [writeRecord, Slice.set_eq_copy]
  rfl

theorem recordFields_fits (event : TcpEvent) : Fits recordSize 0 (recordFields event) := by
  simp [recordFields, values, Fits, Cell.stop, recordSize]

def headerFields (session : Vector U8 8) (sequence : U64) (counters : Counters) (count : Nat) :
    List (Cell U8) :=
  [⟨0, [0x4e, 0x53, 0x54, 0x4c]⟩, ⟨4, [1]⟩, ⟨6, be16 (.ofNat 16 count)⟩, ⟨8, session.toList⟩,
    ⟨16, be64 sequence⟩, ⟨24, be64 counters.progress⟩, ⟨32, be64 counters.dropped⟩,
    ⟨40, be64 counters.sendErrors⟩, ⟨48, be64 counters.sourceOverwrites⟩]

theorem writeHeader_eq (bytes : List U8) (session : Vector U8 8) (sequence : U64)
    (counters : Counters) (count : Nat) : writeHeader bytes session sequence counters count =
      write bytes (headerFields session sequence counters count) := by
  have hs : session.toList.length = 8 := by simp
  simp only [writeHeader, put, Slice.set_eq_copy, headerFields, write_cons, write_nil, Cell.stop,
    hs, be16_length, be64_length, List.length_cons, List.length_nil, bind_eq_bind, bind_fun_some,
    Nat.zero_add, Nat.reduceAdd]

theorem headerFields_fits (session : Vector U8 8) (sequence : U64) (counters : Counters)
    (count : Nat) : Fits headerSize 0 (headerFields session sequence counters count) := by
  simp [headerFields, Fits, Cell.stop, headerSize]

-- The bytes of a record, wherever they are.
structure IsRecord (event : TcpEvent) (record : List U8) : Prop where
  length : record.length = recordSize
  fields : ∀ f ∈ recordFields event, Slice.range record f.offset f.stop = some f.bytes

theorem writeRecord_spec (h : record.length = recordSize) (event : TcpEvent) :
    ∃ record', writeRecord record event = some record' ∧ IsRecord event record' := by
  have hfits := recordFields_fits event
  have ⟨record', hw, hlen⟩ := exists_write (l := record) fun f hf => h ▸ (hfits.le hf).right
  refine ⟨record', (writeRecord_eq ..).trans hw, hlen.trans h, fun f hf => ?_⟩
  exact range_write hw hfits.ordered hf

theorem writeAt_spec {index : Nat} (h : headerSize + (index + 1) * recordSize ≤ bytes.length)
    (event : TcpEvent) :
    ∃ bytes' record, writeAt bytes event index = some bytes' ∧ bytes'.length = bytes.length ∧
      IsRecord event record ∧ Slice.range bytes' (headerSize + index * recordSize)
        (headerSize + (index + 1) * recordSize) = some record ∧
      ∀ start stop, stop ≤ headerSize + index * recordSize →
        Slice.range bytes' start stop = Slice.range bytes start stop := by
  have hle : headerSize + index * recordSize ≤ headerSize + (index + 1) * recordSize := by
    rw [Nat.add_mul]
    omega
  have hrange := Slice.range_of_le hle h
  have hold : ((bytes.take (headerSize + (index + 1) * recordSize)).drop
      (headerSize + index * recordSize)).length = recordSize := by
    rw [List.length_drop, List.length_take, Nat.add_mul] at *
    omega
  have ⟨record, hrecord, his⟩ := writeRecord_spec hold event
  have hsize : record.length =
      headerSize + (index + 1) * recordSize - (headerSize + index * recordSize) := by
    rw [his.length, Nat.add_mul]
    omega
  have hcopy := Slice.copy_of_le hle h hsize
  refine ⟨_, record, ?_, Slice.length_copy hcopy, his, ?_, fun start stop hs => ?_⟩
  case refine_1 =>
    rw [writeAt]
    simp only [hrange, hrecord, hcopy, bind_eq_bind, bind_some]
  case refine_2 => exact Slice.range_copy_self hcopy
  case refine_3 => exact Slice.range_copy_disjoint hcopy (.inl hs)

-- The records follow the header in order, and leave what is before them as it is.
theorem writeRecords_spec {n : Nat}
    (h : headerSize + (n + events.length) * recordSize ≤ bytes.length) :
    ∃ bytes', (events.zipIdx n).foldlM (fun bytes e => writeAt bytes e.fst e.snd)
      bytes = some bytes' ∧
      bytes'.length = bytes.length ∧
      (∀ i event, events[i]? = some event → ∃ record, IsRecord event record ∧
        Slice.range bytes' (headerSize + (n + i) * recordSize)
        (headerSize + (n + i + 1) * recordSize) =
          some record) ∧
      ∀ start stop, stop ≤ headerSize + n * recordSize →
        Slice.range bytes' start stop = Slice.range bytes start stop := by
  induction events generalizing bytes n
  case nil => exact ⟨bytes, rfl, rfl, by simp, fun _ _ _ => rfl⟩
  case cons event events ih =>
    rw [List.length_cons, ← Nat.add_assoc, Nat.add_right_comm] at h
    have hfirst : headerSize + (n + 1) * recordSize ≤ bytes.length := by
      rw [Nat.add_mul] at h
      omega
    obtain ⟨mid, record, hmid, hlen, his, hrecord, hbefore⟩ := writeAt_spec hfirst event
    rw [← hlen] at h
    obtain ⟨bytes', hrest, hlen', hrecords, hbefore'⟩ := ih h
    refine ⟨bytes', ?_, hlen'.trans hlen, ?_, fun start stop hs => ?_⟩
    case refine_1 =>
      rw [List.zipIdx_cons, List.foldlM_cons, hmid]
      exact hrest
    case refine_2 =>
      intro i e he
      cases i
      case zero =>
        cases he
        refine ⟨record, his, ?_⟩
        rw [Nat.add_zero, hbefore' _ _ (Nat.le_refl _), hrecord]
      case succ i =>
        have hi : n + (i + 1) = n + 1 + i := by omega
        rw [hi]
        exact hrecords i e he
    case refine_3 =>
      rw [hbefore' start stop (by rw [Nat.add_mul]; omega), hbefore start stop hs]

theorem datagram_spec (h : events.length ≤ batchSize) (session : Vector U8 8) (sequence : U64)
    (counters : Counters) :
    ∃ data, datagram session sequence counters events = some data ∧
      data.length = headerSize + recordSize * events.length ∧
      (∀ f ∈ headerFields session sequence counters events.length,
        Slice.range data f.offset f.stop = some f.bytes) ∧
      Slice.range data 5 6 = some [0] ∧
      ∀ i event, events[i]? = some event → ∃ record, IsRecord event record ∧
        Slice.range data (headerSize + i * recordSize)
        (headerSize + (i + 1) * recordSize) = some record := by
  have hfits := headerFields_fits session sequence counters events.length
  have hsize : (List.replicate (headerSize + recordSize * batchSize) (0 : U8)).length =
      headerSize + recordSize * batchSize := List.length_replicate
  have hroom : headerSize + recordSize * events.length ≤ headerSize + recordSize * batchSize :=
    Nat.add_le_add_left (Nat.mul_le_mul_left _ h) _
  have hbound :
      headerSize ≤ (List.replicate (headerSize + recordSize * batchSize) (0 : U8)).length := by
    rw [hsize]
    exact Nat.le_add_right ..
  obtain ⟨header, hheader, hlen⟩ := exists_write fun f hf => (hfits.le hf).right.trans hbound
  have hrecords : headerSize + (0 + events.length) * recordSize ≤ header.length := by
    rw [hlen, hsize, Nat.zero_add, Nat.mul_comm]
    exact hroom
  obtain ⟨bytes, hbytes, hlen', hrecord, hbefore⟩ := writeRecords_spec hrecords
  rw [hlen, hsize] at hlen'
  rw [← hlen'] at hroom
  have hrange := Slice.range_of_le (Nat.zero_le _) hroom
  rw [List.drop_zero] at hrange
  -- What is read of the datagram is what is read of the buffer.
  have hdata {start stop : Nat} (hs : stop ≤ headerSize + recordSize * events.length) :
      Slice.range (bytes.take (headerSize + recordSize * events.length)) start stop =
        Slice.range bytes start stop := Slice.range_take_eq hs
  refine ⟨bytes.take (headerSize + recordSize * events.length), ?_, ?_, fun f hf => ?_, ?_,
    fun i event he => ?_⟩
  case refine_1 =>
    simp only [datagram, writeHeader_eq, hheader, hbytes, hrange, bind_eq_bind, bind_some]
  case refine_2 => rw [List.length_take, Nat.min_eq_left hroom]
  case refine_3 =>
    have hstop := (hfits.le hf).right
    rw [hdata (hstop.trans (Nat.le_add_right ..)), hbefore _ _ (hstop.trans (Nat.le_add_right ..)),
      range_write hheader hfits.ordered hf]
  case refine_4 =>
    -- The reserved byte is not written.
    have hheader' : 6 ≤ headerSize := by decide
    rw [hdata (hheader'.trans (Nat.le_add_right ..)),
      hbefore _ _ (hheader'.trans (Nat.le_add_right ..)),
      range_write_of_disjoint hheader (by simp [headerFields, Cell.stop]), Slice.range_of_le
        (by decide) (hheader'.trans hbound), List.take_replicate, List.drop_replicate]
    rfl
  case refine_5 =>
    have hi : i + 1 ≤ events.length := (List.getElem?_eq_some_iff.mp he).fst
    obtain ⟨record, his, hr⟩ := hrecord i event he
    rw [Nat.zero_add] at hr
    refine ⟨record, his, ?_⟩
    rw [hdata, hr]
    rw [Nat.mul_comm recordSize]
    exact Nat.add_le_add_left (Nat.mul_le_mul_right _ hi) _

end Telemetry
