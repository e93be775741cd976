import AsyncNetStack.Telemetry.Theorems.Wire

namespace Telemetry

open Layout Collector Option BitVec

variable {event : TcpEvent} {events : List TcpEvent} {data : List U8} {pos : Nat}
  {fields : List (Cell U8)}

theorem number_be16 (x : U16) : number (be16 x) = x.toNat := by
  have := x.isLt
  simp only [number, be16, List.foldl_cons, List.foldl_nil, BitVec.extractLsb'_toNat,
    Nat.shiftRight_eq_div_pow]
  omega

theorem number_be64 (x : U64) : number (be64 x) = x.toNat := by
  -- Every byte extends the number by one digit.
  have hdigit (k : Nat) :
      x.toNat / 2 ^ (k + 8) * 256 + x.toNat / 2 ^ k % 2 ^ 8 = x.toNat / 2 ^ k := by
    rw [Nat.pow_add, ← Nat.div_div_eq_div_mul]
    exact Nat.div_add_mod' ..
  have hfirst : 0 * 256 + x.toNat / 2 ^ 56 % 2 ^ 8 = x.toNat / 2 ^ 56 := by
    have := x.isLt
    omega
  simp only [number, be64, List.foldl_cons, List.foldl_nil, BitVec.extractLsb'_toNat,
    Nat.shiftRight_eq_div_pow]
  rw [hfirst, hdigit 48, hdigit 40, hdigit 32, hdigit 24, hdigit 16, hdigit 8, hdigit 0,
    Nat.pow_zero, Nat.div_one]

theorem be64_append (a b c d e f g h : U8) :
    be64 (a ++ b ++ c ++ d ++ e ++ f ++ g ++ h) = [a, b, c, d, e, f, g, h] := by
  simp (disch := decide) only [be64, BitVec.extractLsb'_append_eq_of_le,
    BitVec.extractLsb'_append_eq_of_add_le, BitVec.extractLsb'_eq_self, Nat.reduceSub]

-- No two sessions have the same number.
theorem be64_number {bytes : List U8} (h : bytes.length = 8) :
    be64 (.ofNat 64 (number bytes)) = bytes := by
  match bytes, h with
  | [a, b, c, d, e, f, g, h], _ =>
    rw [← be64_append, number_be64, ofNat_toNat, setWidth_eq]

theorem unpackFrom_eq (hp : Packed pos fields)
    (h : ∀ f ∈ fields, Slice.range data f.offset f.stop = some f.bytes) :
    unpackFrom data pos (fields.map (·.bytes.length)) = some (fields.map (number ·.bytes)) := by
  induction fields generalizing pos
  case nil => rfl
  case cons f fields ih =>
    obtain ⟨rfl, hrest⟩ := hp
    simp only [List.map_cons, unpackFrom, h f (.head _), ih hrest fun g hg => h g (.tail _ hg),
      bind_eq_bind, bind_some, pure_def]

-- What the collector shows for an event.
def stateName : TcpState → String
  | .synSent     => "SynSent"
  | .synReceived => "SynReceived"
  | .established => "Established"
  | .finWait1    => "FinWait1"
  | .finWait2    => "FinWait2"
  | .closeWait   => "CloseWait"
  | .closing     => "Closing"
  | .lastAck     => "LastAck"
  | .timeWait    => "TimeWait"
  | .closed      => "Closed"
  | .reset       => "Reset"
  | .timedOut    => "TimedOut"
  | .failed      => "Failed"

def waitName : TcpWait → String
  | .application      => "Application"
  | .acknowledgment   => "Acknowledgment"
  | .peerWindow       => "PeerWindow"
  | .congestionWindow => "CongestionWindow"
  | .flightLimit      => "FlightLimit"
  | .device           => "Device"
  | .handshake        => "Handshake"
  | .closing          => "Closing"
  | .terminal         => "Terminal"
  | .ready            => "Ready"

def display (addr : SocketAddr) : String :=
  ".".intercalate ((be32 addr.ip).map (toString ·.toNat)) ++ ":" ++ toString addr.port.toNat

def saturatedMicros (d : Duration) : Nat :=
  min (d.nanos / 1000) (2 ^ 64 - 1)

def shown (event : TcpEvent) : Record :=
  let s := event.status
  let f := s.flow
  { timestampUs := saturatedMicros event.time
    connection  := event.connection
    state       := stateName s.state
    wait        := waitName f.wait
    localAddr   := display s.localAddr
    remoteAddr  := display s.remoteAddr
    metrics     := [
      ("send_buffered", s.sendBuffered),
      ("receive_buffered", s.receiveBuffered),
      ("cwnd", f.congestionWindow),
      ("ssthresh", f.slowStartThreshold),
      ("bytes_in_flight", f.bytesInFlight),
      ("outstanding_segments", f.outstandingSegments),
      ("rto_us", saturatedMicros f.retransmissionTimeout),
      ("timeout_retransmissions", f.timeoutRetransmissions),
      ("receive_window", f.advertisedWindow.toNat),
      ("peer_window", f.peerWindow.toNat)] }

theorem toNat_micros (d : Duration) : (micros d).toNat = saturatedMicros d := by
  rw [micros, saturatedMicros, toNat_ofNat]
  omega

-- The tables of the collector have the codes of the exporter.
theorem states_state (s : TcpState) : states[(state s).toNat]? = some (stateName s) := by
  cases s <;> rfl

theorem waits_wait (w : TcpWait) : waits[(wait w).toNat]? = some (waitName w) := by
  cases w <;> rfl

theorem toNat_ofNat {n : Nat} (h : n < 2 ^ 64) : (BitVec.ofNat 64 n).toNat = n :=
  (BitVec.toNat_ofNat ..).trans (Nat.mod_eq_of_lt h)

theorem zip_values (h : Event.Fits event) :
    metrics.zip ((values event.status).map BitVec.toNat) = (shown event).metrics := by
  have hport (w : U16) : (w.setWidth 64).toNat = w.toNat := toNat_setWidth_of_le (by decide)
  simp only [metrics, values, shown, List.map_cons, List.map_nil, List.zip_cons_cons,
    List.zip_nil_right, toNat_micros, hport, toNat_ofNat h.sendBuffered,
    toNat_ofNat h.receiveBuffered, toNat_ofNat h.congestionWindow, toNat_ofNat h.slowStartThreshold,
      toNat_ofNat h.bytesInFlight, toNat_ofNat h.outstandingSegments,
    toNat_ofNat h.timeoutRetransmissions]

theorem slice_eq {start stop : Nat} {part : List U8} (h : Slice.range data start stop = some part) :
    slice data start stop = part := by
  obtain ⟨_, _, rfl⟩ := Slice.range_eq_some.mp h
  exact List.drop_take

theorem inetNtoa_be32 (ip : Ipv4Addr) :
    inetNtoa (be32 ip) = some (".".intercalate ((be32 ip).map (toString ·.toNat))) :=
  if_pos (be32_length ip)

theorem decodeRecord_eq (h : IsRecord event data) (hf : Event.Fits event) :
    decodeRecord data = some (some (shown event)) := by
  have hfields := h.fields
  -- The fields which are read at once are next to each other.
  have hstamps : unpackFrom data 0 [8, 8] =
      some [(micros event.time).toNat, (BitVec.ofNat 64 event.connection).toNat] := by
    have hp : Packed 0 ((recordFields event).take 2) := by simp [Packed, recordFields, Cell.stop]
    have := unpackFrom_eq hp fun f hf => hfields f (List.mem_of_mem_take hf)
    simpa [recordFields, number_be64] using this
  have hports : unpackFrom data 28 [2, 2] =
      some [event.status.localAddr.port.toNat, event.status.remoteAddr.port.toNat] := by
    have hp : Packed 28 (((recordFields event).drop 6).take 2) := by
      simp [Packed, recordFields, Cell.stop]
    have := unpackFrom_eq hp fun f hf => hfields f (List.mem_of_mem_drop (List.mem_of_mem_take hf))
    simpa [recordFields, number_be16] using this
  have hvalues : unpackFrom data 32 (List.replicate 10 8) =
      some ((values event.status).map BitVec.toNat) := by
    have hp : Packed 32 ((recordFields event).drop 8) := by
      simp [Packed, recordFields, values, Cell.stop]
    have := unpackFrom_eq hp fun f hf => hfields f (List.mem_of_mem_drop hf)
    simpa [recordFields, values, number_be64] using this
  have hstate : data[16]? = some (state event.status.state) :=
    Slice.getElem?_of_range (hfields ⟨16, [state event.status.state]⟩ (by simp [recordFields]))
  have hwait : data[17]? = some (wait event.status.flow.wait) :=
    Slice.getElem?_of_range (hfields ⟨17, [wait event.status.flow.wait]⟩ (by simp [recordFields]))
  have hlocal : slice data 20 24 = be32 event.status.localAddr.ip :=
    slice_eq (hfields ⟨20, be32 event.status.localAddr.ip⟩ (by simp [recordFields]))
  have hremote : slice data 24 28 = be32 event.status.remoteAddr.ip :=
    slice_eq (hfields ⟨24, be32 event.status.remoteAddr.ip⟩ (by simp [recordFields]))
  have hknown : ¬((state event.status.state).toNat ≥ states.length ||
      (wait event.status.flow.wait).toNat ≥ waits.length) := by
    have hs := (List.getElem?_eq_some_iff.mp (states_state event.status.state)).fst
    have hw := (List.getElem?_eq_some_iff.mp (waits_wait event.status.flow.wait)).fst
    simpa using ⟨hs, hw⟩
  simp only [decodeRecord, hstamps, hports, hvalues, hstate, hwait, hlocal, hremote, states_state,
    waits_wait, inetNtoa_be32, if_neg hknown, bind_eq_bind, bind_some, pure_def, toNat_micros,
    toNat_ofNat hf.connection, zip_values hf]
  rfl

theorem decodeRecords_eq {n : Nat} (hf : ∀ event ∈ events, Event.Fits event)
    (h : ∀ i event, events[i]? = some event → ∃ record, IsRecord event record ∧
      Slice.range data (headerSize + (n + i) * recordSize) (headerSize + (n + i + 1) * recordSize) =
        some record) :
    decodeRecords data (List.range' n events.length) = some (some (events.map shown)) := by
  induction events generalizing n
  case nil => rfl
  case cons event events ih =>
    obtain ⟨record, his, hrange⟩ := h 0 event rfl
    rw [Nat.add_zero, headerSize, recordSize] at hrange
    have hrecord : decodeRecord (slice data (56 + n * 112) (56 + (n + 1) * 112)) =
        some (some (shown event)) := by
      rw [slice_eq hrange]
      exact decodeRecord_eq his (hf event (.head _))
    have hrest := ih (fun e he => hf e (.tail _ he)) fun i e he => by
      have hi : n + 1 + i = n + (i + 1) := by omega
      rw [hi]
      exact h (i + 1) e he
    simp only [List.length_cons, List.range'_succ, decodeRecords, hrecord, hrest, bind_eq_bind,
      bind_some, pure_def, map_some, List.map_cons]

-- What the collector shows for a batch.
def reported (session : Vector U8 8) (sequence : U64) (counters : Counters)
    (events : List TcpEvent) : Report where
  count       := events.length
  session     := number session.toList
  sequence    := sequence.toNat
  progress    := counters.progress.toNat
  dropped     := counters.dropped.toNat
  errors      := counters.sendErrors.toNat
  overwritten := counters.sourceOverwrites.toNat
  records     := events.map shown

theorem collect_datagram (h : events.length ≤ batchSize) (hf : ∀ event ∈ events, Event.Fits event)
    (session : Vector U8 8) (sequence : U64) (counters : Counters) :
    ∃ data, datagram session sequence counters events = some data ∧
      collect data = some (some (reported session sequence counters events)) := by
  obtain ⟨data, hdata, hlen, hheader, hzero, hrecords⟩ := datagram_spec h session sequence counters
  refine ⟨data, hdata, ?_⟩
  have hshort : data.take 2048 = data := by
    refine List.take_of_length_le ?_
    rw [hlen]
    simp only [headerSize, recordSize, batchSize] at h ⊢
    omega
  have hmagic : data.take 6 = [0x4e, 0x53, 0x54, 0x4c, 1, 0] := by
    have hname := hheader ⟨0, [0x4e, 0x53, 0x54, 0x4c]⟩ (by simp [headerFields])
    have hversion := hheader ⟨4, [1]⟩ (by simp [headerFields])
    exact slice_eq (Slice.range_append (Slice.range_append hname hversion) hzero)
  have hcounts :
      unpackFrom data 6 (2 :: List.replicate 6 8) = some [events.length, number session.toList,
      sequence.toNat, counters.progress.toNat, counters.dropped.toNat, counters.sendErrors.toNat,
      counters.sourceOverwrites.toNat] := by
    have hp : Packed 6 ((headerFields session sequence counters events.length).drop 2) := by
      simp [Packed, headerFields, Cell.stop]
    have := unpackFrom_eq hp fun f hf => hheader f (List.mem_of_mem_drop hf)
    have hcount : events.length % 65536 = events.length := by
      simp only [batchSize] at h
      omega
    simpa [headerFields, number_be16, number_be64, hcount] using this
  have hrecs : decodeRecords data (List.range events.length) = some (some (events.map shown)) := by
    rw [List.range_eq_range']
    refine decodeRecords_eq hf fun i event he => ?_
    rw [Nat.zero_add]
    exact hrecords i event he
  have haccept : ¬(data.length < 56 || data.take 6 != [0x4e, 0x53, 0x54, 0x4c, 1, 0]) := by
    rw [hmagic, hlen]
    simp [headerSize]
  have hwhole : ¬(events.length > 10 || data.length != 56 + events.length * 112) := by
    rw [hlen]
    simpa [headerSize, recordSize, batchSize, Nat.mul_comm] using h
  rw [collect, hshort, decode, if_neg haccept]
  simp only [hcounts, hrecs, if_neg hwhole, bind_eq_bind, bind_some, pure_def,
    map_some, reported]

end Telemetry
