import SerialLink.Proofs.AnswerBits
import SerialLink.Proofs.Archive
import SerialLink.Proofs.Ranges
import SerialLink.SerialPort.Snapshot

/-!
# Saved states that are loaded

A saved state of a port is ten bytes: the two registers, the time and the cycles since the last step.  Of the bytes
that are loaded the first ten count, zeros stand for those that are missing, and of the time and the cycles only
the bits count that the clock has (`Snapshot.decode_spec`).  Since the clock of a port is in its range, what was
saved is loaded as it was; and since nothing else is done to what is loaded, it is saved again up to the bits that
did not count.  Together: `SerialPort.survives_saving`.
-/

namespace SerialLink

open Archive

/-! ### Bytes that are missing -/

namespace Archive.Kind

variable {bytes : Bytes}

/-- A text that is cut or filled up is so piece by piece. -/
theorem resize_add (m n : Nat) (bytes : Bytes) :
    resize (m + n) bytes = resize m bytes ++ resize n (bytes.drop m) := by
  rw [resize, resize, resize, List.length_drop]
  rcases Nat.le_total m bytes.length with enough | few
  · have all : m - bytes.length = 0 := Nat.sub_eq_zero_of_le enough
    rw [all, List.replicate_zero, List.append_nil, List.take_add, List.append_assoc]
    congr 3
    omega
  · rw [List.drop_eq_nil_of_le few, List.take_nil, List.nil_append, List.take_of_length_le few,
      List.take_of_length_le (by omega), List.append_assoc, List.replicate_append_replicate]
    congr 2
    omega

theorem resize_of_le {m : Nat} (enough : m ≤ bytes.length) : resize m bytes = bytes.take m := by
  rw [resize, Nat.sub_eq_zero_of_le enough]
  exact List.append_nil _

/-- Zeros stand for the bytes that are missing. -/
theorem resize_eq_take (m : Nat) (bytes : Bytes) :
    resize m bytes = (bytes ++ List.replicate (m - bytes.length) 0).take m := by
  rw [resize, List.take_append, List.take_replicate, Nat.min_self]

/-- Whether the zeros are put there before or not makes no difference. -/
theorem resize_pad (m : Nat) (bytes : Bytes) :
    resize m (bytes ++ List.replicate (m - bytes.length) 0) = resize m bytes := by
  have enough : m ≤ (bytes ++ List.replicate (m - bytes.length) 0).length := by
    rw [List.length_append, List.length_replicate]
    omega
  rw [resize_of_le enough, ← resize_eq_take]

end Archive.Kind

/-- What is read from a tape are the bytes that are there, and zeros for those that are missing. -/
theorem Tape.read_spec {count : Nat} (some : 0 < count) (t : Tape) :
    ∃ u, t.read count = (decide (count ≤ t.unread.length), Kind.resize count t.unread, u) ∧
      u.unread = t.unread.drop count := by
  refine ⟨(t.read count).2.2, ?_, unread_read count t⟩
  have ok : (t.read count).1 = decide (count ≤ t.unread.length) := by
    show decide (t.reading + count ≤ t.data.length) = _
    rw [unread, List.length_drop, decide_eq_decide]
    omega
  have filled : (t.read count).2.1 = Kind.resize count t.unread := by
    have missing : count - (t.unread.take count).length = count - t.unread.length := by
      rw [List.length_take]
      omega
    show t.unread.take count ++ List.replicate (count - (t.unread.take count).length) 0 = _
    rw [missing]
    rfl
  rw [← ok, ← filled]

namespace Archive

/-- A byte that is taken from a tape. -/
theorem Kind.decode_u8 (old : UInt8) (t : Tape) : ∃ v u,
    Kind.u8.decode old t = (decide (1 ≤ t.unread.length), v, u) ∧ [v] = Kind.resize 1 t.unread ∧
      u.unread = t.unread.drop 1 := by
  obtain ⟨u, read, left⟩ := Tape.read_spec Nat.one_pos t
  have length := Kind.length_resize 1 t.unread
  obtain ⟨v, only⟩ := List.length_eq_one_iff.mp length
  refine ⟨v, u, ?_, only.symm, left⟩
  have read : Source.read [old] t = (decide (1 ≤ t.unread.length), [v], u) := only ▸ read
  rw [decode, read]
  rfl

/-- A word of four bytes that is taken from a tape. -/
theorem Kind.decode_u32 (old : UInt32) (t : Tape) : ∃ v u,
    Kind.u32.decode old t = (decide (4 ≤ t.unread.length), v, u) ∧
      Bytes.ofUInt32 v = Kind.resize 4 t.unread ∧ u.unread = t.unread.drop 4 := by
  obtain ⟨u, read, left⟩ := Tape.read_spec (Nat.zero_lt_succ 3) t
  refine ⟨_, u, ?_, Bytes.ofUInt32_toUInt32 (Kind.length_resize 4 t.unread), left⟩
  have read : readZeroed 4 t = (decide (4 ≤ t.unread.length), Kind.resize 4 t.unread, u) := read
  rw [decode, read]

end Archive

/-! ### Snapshots -/

namespace Snapshot

theorem encode_eq (s : Snapshot) : layout.encode s =
    [s.data] ++ [s.control] ++ Bytes.ofUInt32 s.clock.timestamp ++ Bytes.ofUInt32 s.clock.cycles := by
  show [[s.data]].flatten ++ ([[s.control]].flatten ++ ([Bytes.ofUInt32 s.clock.timestamp].flatten ++
    ([Bytes.ofUInt32 s.clock.cycles].flatten ++ []))) = _
  simp

/-- Ten bytes are loaded, the missing ones as zeros, and the clock is put into its range. -/
theorem decode_spec (bytes : Bytes) (s : Snapshot) : ∃ data control timestamp cycles,
    [data] ++ [control] ++ Bytes.ofUInt32 timestamp ++ Bytes.ofUInt32 cycles = Kind.resize 10 bytes ∧
      layout.decode bytes s = (decide (10 ≤ bytes.length),
        ⟨data, control, { s.clock with
          timestamp := timestamp &&& timestampMask
          cycles := cycles &&& Clock.cycleMask }⟩) := by
  obtain ⟨data, t, readData, dataBytes, leftData⟩ := Kind.decode_u8 s.data (Tape.ofBytes bytes)
  obtain ⟨control, u, readControl, controlBytes, leftControl⟩ := Kind.decode_u8 s.control t
  obtain ⟨timestamp, v, readTime, timeBytes, leftTime⟩ := Kind.decode_u32 s.clock.timestamp u
  obtain ⟨cycles, w, readCycles, cyclesBytes, _⟩ := Kind.decode_u32 s.clock.cycles v
  have behindControl : u.unread = bytes.drop 2 := by rw [leftControl, leftData, List.drop_drop]; rfl
  have behindTime : v.unread = bytes.drop 6 := by rw [leftTime, behindControl, List.drop_drop]
  rw [Tape.unread_ofBytes] at readData dataBytes leftData
  rw [leftData] at readControl controlBytes
  rw [behindControl] at readTime timeBytes
  rw [behindTime] at readCycles cyclesBytes
  refine ⟨data, control, timestamp, cycles, ?_, ?_⟩
  · rw [dataBytes, controlBytes, timeBytes, cyclesBytes, Kind.resize_add 6 4, Kind.resize_add 2 4,
      Kind.resize_add 1 1]
  · have enough : ((((true && decide (1 ≤ bytes.length)) && decide (1 ≤ (bytes.drop 1).length)) &&
        decide (4 ≤ (bytes.drop 2).length)) && decide (4 ≤ (bytes.drop 6).length)) =
        decide (10 ≤ bytes.length) := by
      rw [Bool.eq_iff_iff]
      simp only [List.length_drop, Bool.true_and, Bool.and_eq_true, decide_eq_true_iff]
      omega
    simp only [Layout.decode, layout, Clock.layout, Layout.under, Layout.within, List.map, List.cons_append,
      List.nil_append, Layout.read, Reader.read, Field.within, Field.under, readData, readControl, readTime,
      readCycles, enough]

/-- The bits of a saved state that count: the time has no highest one, and the cycles have 21. -/
def countedBits : Bytes := [0xff, 0xff, 0xff, 0xff, 0xff, 0x7f, 0xff, 0xff, 0x1f, 0x00]

/-- What is in the bytes of a saved state is determined by them. -/
theorem eq_of_bytes_eq {a b a' b' : UInt8} {v w v' w' : UInt32}
    (same : [a] ++ [b] ++ Bytes.ofUInt32 v ++ Bytes.ofUInt32 w =
      [a'] ++ [b'] ++ Bytes.ofUInt32 v' ++ Bytes.ofUInt32 w') : a = a' ∧ b = b' ∧ v = v' ∧ w = w' := by
  obtain ⟨front, last⟩ := List.append_inj same (by simp)
  obtain ⟨bytes, time⟩ := List.append_inj front rfl
  obtain ⟨first, second⟩ := List.append_inj bytes rfl
  refine ⟨List.singleton_inj.mp first, List.singleton_inj.mp second, ?_, ?_⟩
  · rw [← Bytes.toUInt32_ofUInt32 v, time, Bytes.toUInt32_ofUInt32]
  · rw [← Bytes.toUInt32_ofUInt32 w, last, Bytes.toUInt32_ofUInt32]

/-- What is kept of a word and what is not shows in its bytes. -/
theorem and_countedBits (a b : UInt8) (v w : UInt32) :
    List.zipWith (· &&& ·) ([a] ++ [b] ++ Bytes.ofUInt32 v ++ Bytes.ofUInt32 w) countedBits =
      [a] ++ [b] ++ Bytes.ofUInt32 (v &&& timestampMask) ++ Bytes.ofUInt32 (w &&& Clock.cycleMask) := by
  have masks : countedBits = [0xff] ++ [0xff] ++ Bytes.ofUInt32 timestampMask ++
      Bytes.ofUInt32 Clock.cycleMask := by decide
  have all : ∀ c : UInt8, c &&& 0xff = c := by
    intro c
    rw [← UInt8.toNat_inj, UInt8.toNat_and]
    exact (Nat.and_two_pow_sub_one_eq_mod c.toNat 8).trans (Nat.mod_eq_of_lt c.toNat_lt)
  rw [masks, List.zipWith_append (by simp), List.zipWith_append (by simp), ← Bytes.ofUInt32_and,
    ← Bytes.ofUInt32_and]
  show [a &&& 0xff] ++ [b &&& 0xff] ++ _ ++ _ = _
  rw [all, all]

end Snapshot

namespace SerialPort

open Archive

variable {p : SerialPort}

theorem save_eq (p : SerialPort) : p.save = [p.port.data] ++ [p.port.control] ++
    Bytes.ofUInt32 p.clock.timestamp ++ Bytes.ofUInt32 p.clock.cycles :=
  Snapshot.encode_eq p.snapshot

theorem length_save (p : SerialPort) : p.save.length = 10 := by
  rw [save_eq]
  simp

/-- A port is saved on a tape behind what is there. -/
theorem data_write_snapshot (p : SerialPort) {t : Tape} (atEnd : t.writing = t.size) :
    (Snapshot.layout.write p.snapshot ⟨t, true⟩).success = true ∧
      (Snapshot.layout.write p.snapshot ⟨t, true⟩).sink.data = t.data ++ p.save := by
  obtain ⟨success, holds⟩ := Layout.write_whole Tape.gathers Snapshot.layout p.snapshot
    (⟨rfl, atEnd⟩ : Tape.Holds t.data t)
  exact ⟨success, holds.data⟩

/-- **What was saved is loaded as it was**, if the clock is in its range. -/
theorem load_save (range : p.clock.InRange) (q : SerialPort) : q.load p.save = (true, q.restore
    ⟨p.port.data, p.port.control, { p.clock with received := q.clock.received }⟩) := by
  obtain ⟨data, control, timestamp, cycles, bytes, decoded⟩ := Snapshot.decode_spec p.save q.snapshot
  have whole : Kind.resize 10 p.save = p.save := by
    rw [← length_save p, Kind.resize_of_le (Nat.le_refl _), List.take_length]
  rw [whole, save_eq] at bytes
  obtain ⟨rfl, rfl, rfl, rfl⟩ := Snapshot.eq_of_bytes_eq bytes
  have time : p.clock.timestamp &&& timestampMask = p.clock.timestamp := by
    rw [← UInt32.toNat_inj, Clock.toNat_mask, Nat.mod_eq_of_lt range.timestamp]
  have rest : p.clock.cycles &&& Clock.cycleMask = p.clock.cycles := by
    rw [← UInt32.toNat_inj, Clock.toNat_cycleMask, Nat.mod_eq_of_lt range.cycles]
  rw [time, rest, length_save] at decoded
  rw [load, decoded]
  rfl

/-- Only the answers that are taken after a state was loaded depend on it: their first eight bits are those of the
data register that was loaded. -/
theorem answers_after_load {r : SerialPort} {answers : List Answer} {byte : UInt8} {s : Snapshot}
    (loaded : (p.restore s).port.data = byte) (course : Course (p.restore s) (answers.map .taken) r) :
    ∀ j answer, j < 8 → answers[j]? = some answer → answer.bit = Bits.nth byte j := by
  have start : Answer.Place byte [] (p.restore s).port :=
    (Answer.place_load p.port).of_eq loaded rfl
  have place := course.place start
  have same : since byte (answers.map .taken) = (byte, answers) := since_loaded byte byte [] answers
  rw [same] at place
  intro j answer low found
  refine place.follow 0 j answer low ?_
  rw [Nat.mul_zero, Nat.zero_add]
  exact found

/-- Whatever is loaded, what counts of it is saved again; without a link the data register stays as it is. -/
theorem save_load (bytes : Bytes) (p : SerialPort) :
    (p.isEnabled = true → (p.load bytes).2.save =
      List.zipWith (· &&& ·) (Kind.resize 10 bytes) Snapshot.countedBits) ∧
    (p.isEnabled = false → (p.load bytes).2.port.data = 0xff ∧ (p.load bytes).2.save =
      0xff :: (List.zipWith (· &&& ·) (Kind.resize 10 bytes) Snapshot.countedBits).tail) := by
  obtain ⟨data, control, timestamp, cycles, same, decoded⟩ := Snapshot.decode_spec bytes p.snapshot
  rw [load, decoded, save_eq, ← same, Snapshot.and_countedBits]
  constructor
  · intro enabled
    have register : (if p.isEnabled then data else 0xff) = data := if_pos enabled
    show [if p.isEnabled then data else 0xff] ++ _ ++ _ ++ _ = _
    rw [register]
    rfl
  · intro off
    have register : (if p.isEnabled then data else 0xff) = 0xff := by rw [off]; rfl
    show (if p.isEnabled then data else 0xff) = 0xff ∧
      [if p.isEnabled then data else 0xff] ++ _ ++ _ ++ _ = _
    rw [register]
    exact ⟨rfl, rfl⟩

/-- Bytes that are missing are loaded as zeros. -/
theorem load_pad (bytes : Bytes) (p : SerialPort) :
    (p.load (bytes ++ List.replicate (10 - bytes.length) 0)).2 = (p.load bytes).2 := by
  obtain ⟨_, _, _, _, same, decoded⟩ := Snapshot.decode_spec bytes p.snapshot
  obtain ⟨_, _, _, _, padded, decodedPadded⟩ :=
    Snapshot.decode_spec (bytes ++ List.replicate (10 - bytes.length) 0) p.snapshot
  rw [Kind.resize_pad, ← same] at padded
  obtain ⟨rfl, rfl, rfl, rfl⟩ := Snapshot.eq_of_bytes_eq padded
  rw [load, load, decoded, decodedPadded]

theorem inRange_load (bytes : Bytes) (p : SerialPort) :
    (p.load bytes).2.clock.timestamp.toNat < 2147483648 ∧ (p.load bytes).2.clock.cycles.toNat < 2097152 := by
  obtain ⟨_, _, timestamp, cycles, _, decoded⟩ := Snapshot.decode_spec bytes p.snapshot
  rw [load, decoded]
  refine ⟨?_, ?_⟩
  · show (timestamp &&& timestampMask).toNat < _
    rw [Clock.toNat_mask]
    exact Nat.mod_lt _ (by decide)
  · show (cycles &&& Clock.cycleMask).toNat < _
    rw [Clock.toNat_cycleMask]
    exact Nat.mod_lt _ (by decide)

theorem load_fst (bytes : Bytes) (p : SerialPort) : (p.load bytes).1 = decide (10 ≤ bytes.length) := by
  obtain ⟨_, _, _, _, _, decoded⟩ := Snapshot.decode_spec bytes p.snapshot
  rw [load, decoded]

/-- **Saved states survive, and whatever else is loaded is put in range.**  At any time of its life the state of a port
with a link is saved as ten bytes, in memory and on a tape.  When they are loaded into any port with a link, its
registers, its time and its cycles are those that were saved; a byte that was under way begins anew, the next
eight answers are the bits of the data register, whatever happens meanwhile, and all else stays as it was.  Of
other bytes ten count, zeros stand for those that are missing, and it is told if any are.  What was loaded is
saved again but for the bits that do not count; a port without a link keeps its data register. -/
theorem survives_saving :
    (∀ ops, new.canLive ops → (new.live ops).value.isEnabled →
      let p := (new.live ops).value
      p.save.length = 10 ∧
      (∀ t : Tape, t.writing = t.size →
        (Snapshot.layout.write p.snapshot ⟨t, true⟩).success = true ∧
          (Snapshot.layout.write p.snapshot ⟨t, true⟩).sink.data = t.data ++ p.save) ∧
      ∀ q : SerialPort, q.isEnabled →
        q.load p.save = (true, { q with
          clock := { p.clock with received := q.clock.received }
          port := { q.port with
            data := p.port.data
            control := p.port.control
            answer := p.port.data
            answered := 0 }
          transferredBits := 0
          cycleCount := 0 }) ∧
        ∀ (answers : List Answer) (r : SerialPort), Course (q.load p.save).2 (answers.map .taken) r →
          ∀ j answer, j < 8 → answers[j]? = some answer → answer.bit = Bits.nth p.port.data j) ∧
    ∀ (bytes : Bytes) (q : SerialPort),
      let padded := bytes ++ List.replicate (10 - bytes.length) 0
      let loaded := (q.load bytes).2
      ((q.load bytes).1 = true ↔ 10 ≤ bytes.length) ∧
      loaded = (q.load padded).2 ∧
      loaded.clock.timestamp.toNat < 2147483648 ∧ loaded.clock.cycles.toNat < 2097152 ∧
      (q.isEnabled = true →
        loaded.save = List.zipWith (· &&& ·) (padded.take 10) Snapshot.countedBits) ∧
      (q.isEnabled = false → loaded.port.data = 0xff ∧
        loaded.save = 0xff :: (List.zipWith (· &&& ·) (padded.take 10) Snapshot.countedBits).tail) := by
  constructor
  · intro ops can _ p
    have range : p.clock.InRange := (inRange_live can).session.clock
    refine ⟨length_save p, fun t atEnd => data_write_snapshot p atEnd, fun q enabled => ?_⟩
    let s : Snapshot := ⟨p.port.data, p.port.control, { p.clock with received := q.clock.received }⟩
    have loaded : q.load p.save = (true, q.restore s) := load_save range q
    have data : (q.restore s).port.data = p.port.data := if_pos enabled
    refine ⟨?_, ?_⟩
    · rw [loaded, restore, if_pos enabled]
    · intro answers r course
      rw [loaded] at course
      exact answers_after_load data course
  · intro bytes q padded loaded
    obtain ⟨time, cycles⟩ := inRange_load bytes q
    obtain ⟨on, off⟩ := save_load bytes q
    rw [Kind.resize_eq_take] at on off
    refine ⟨?_, (load_pad bytes q).symm, time, cycles, on, off⟩
    rw [load_fst, decide_eq_true_iff]

/-- The machine has written a byte and has let some time pass. -/
def underWay : List Operation :=
  [.plug Link.called.config true Link.called.host, .act (.writeData 0xa4), .act (.tick 3000000),
    .act (.writeControl 0x80), .act (.tick 100)]

/-- A state with a byte under way is loaded into a new port; then the highest bit of its data register is the first
answer.  Of six bytes, the highest bit of the time is lost, and the cycles are zeros. -/
theorem survives_saving_underWay :
    let p := (new.live underWay).value
    let q := Link.called.made.value
    (new.canLive underWay = true ∧ p.isEnabled = true) ∧
      p.save = [0xa4, 0x80, 1, 0, 0, 0, 0x24, 0xc7, 0x0d, 0] ∧
      (q.load p.save).1 = true ∧ (q.load p.save).2.save = p.save ∧
      (∀ answer r, Course (q.load p.save).2 [.taken answer] r → answer.bit = 1) ∧
      (q.load [1, 2, 255, 255, 255, 255]).1 = false ∧
      (q.load [1, 2, 255, 255, 255, 255]).2.save = [1, 2, 255, 255, 255, 127, 0, 0, 0, 0] ∧
      (new.load [1, 2, 255, 255, 255, 255]).2.save = [255, 2, 255, 255, 255, 127, 0, 0, 0, 0] := by
  intro p q
  have can : new.canLive underWay = true := by decide
  have enabled : p.isEnabled = true := by decide
  have linked : q.isEnabled = true := by decide
  obtain ⟨saved, any⟩ := survives_saving
  obtain ⟨loaded, answers⟩ := (saved underWay can enabled).2.2 q linked
  refine ⟨⟨can, enabled⟩, by decide, congrArg Prod.fst loaded, ?_, ?_, ?_, ?_, ?_⟩
  · rw [(any p.save q).2.2.2.2.1 linked]
    decide
  · intro answer r course
    exact answers [answer] r course 0 answer (by decide) rfl
  · cases ok : (q.load [1, 2, 255, 255, 255, 255]).1 with
    | false => rfl
    | true => exact absurd ((any _ q).1.mp ok) (by decide)
  · rw [(any [1, 2, 255, 255, 255, 255] q).2.2.2.2.1 linked]
    decide
  · rw [((any [1, 2, 255, 255, 255, 255] new).2.2.2.2.2 (by decide)).2]
    decide

end SerialPort

end SerialLink
