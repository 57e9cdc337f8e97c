import SerialLink.Proofs.Clock
import SerialLink.Proofs.Layouts
import SerialLink.Proofs.Life

/-!
# The ranges of the port

Whatever is done with a port, its numbers stay in their ranges: the bits of a byte that were exchanged, the
bits of an answer that have gone out, and the clock; and a port without a link shows so in its registers.
That is `SerialPort.InRange`, which every step and every operation keeps (`Step.inRange`,
`InRange.operate`).  A port waits for a bit of the peer only while a tick is under way
(`SerialPort.phase_live`).  Together: `SerialPort.live_in_range`.
-/

namespace SerialLink

open Archive Event

/-! ### Answers -/

namespace Registers

variable {r : Registers}

/-- If no more bits have gone out than a byte has, then one of a byte's eight bits is taken. -/
theorem takeAnswer_eq (range : r.answered ≤ 8) : ∃ n ≤ 7, r.takeAnswer.2.answered = n + 1 ∧
    r.takeAnswer.1 = (r.takeAnswer.2.answer >>> UInt8.ofNat (7 - n)) &&& 1 := by
  unfold takeAnswer
  split
  · exact ⟨0, by omega, rfl, rfl⟩
  · next more => exact ⟨r.answered, by omega, rfl, rfl⟩

theorem answered_takeAnswer (range : r.answered ≤ 8) : r.takeAnswer.2.answered ≤ 8 := by
  obtain ⟨n, low, same, _⟩ := takeAnswer_eq range
  omega

end Registers

/-! ### The end mark -/

namespace BitQueue

variable {q : BitQueue}

theorem Ordered.getLast?_eq_endMark (ordered : q.Ordered) :
    q.closed = true ↔ q.entries.getLast? = some .endMark := by
  rw [ordered]
  cases closed : q.closed with
  | true => simp
  | false => cases q.items.getLast? <;> simp [List.getLast?_map, *]

theorem Ordered.count_endMark (ordered : q.Ordered) :
    q.entries.count .endMark = if q.closed then 1 else 0 := by
  have none : (q.items.map Entry.item).count .endMark = 0 := by
    rw [List.count_eq_zero]
    intro mem
    obtain ⟨item, _, same⟩ := List.mem_map.mp mem
    cases same
  rw [ordered, List.count_append, none, Nat.zero_add]
  cases q.closed <;> rfl

end BitQueue

/-! ### Sessions -/

namespace Session

variable {s t : Session Registers} {h : List Event}

/-- What a move does to the port: nothing, or it ends a request that is under way, or it takes a bit to answer
with. -/
theorem Move.port_cases (move : Move s h t) : t.port = s.port ∨
    s.port.pending = true ∧ t.port = { s.port with pending := false } ∨
    s.port.pending = false ∧ t.port = s.port.takeAnswer.2 := by
  cases move with
  | read | finish => exact .inl rfl
  | take packet =>
    cases bit : packet.isSync with
    | false => exact .inl (port_outcome_of_not_isSync packet s bit)
    | true =>
      have port := port_outcome packet s bit
      cases pending : s.port.pending with
      | true => exact .inr (.inl ⟨rfl, port.trans (if_pos pending)⟩)
      | false => exact .inr (.inr ⟨rfl, port.trans (if_neg (by rw [pending]; decide))⟩)

theorem Move.answered (move : Move s h t) (range : s.port.answered ≤ 8) : t.port.answered ≤ 8 := by
  rcases move.port_cases with same | ⟨_, same⟩ | ⟨_, same⟩
  · exact same ▸ range
  · exact same ▸ range
  · exact same ▸ Registers.answered_takeAnswer range

theorem Moves.answered (moves : Moves s h t) (range : s.port.answered ≤ 8) : t.port.answered ≤ 8 :=
  moves.keeps (P := fun s => s.port.answered ≤ 8) (fun _ _ _ move => move.answered) range

theorem Move.clock (move : Move s h t) (range : s.clock.InRange) : t.clock.InRange := by
  cases move with
  | read | finish => exact range
  | take packet => exact range.hear packet.timestamp

/-- The receiver leaves the port without a request under way if there is none. -/
theorem Move.pending (move : Move s h t) (free : s.port.pending = false) : t.port.pending = false := by
  rcases move.port_cases with same | ⟨_, same⟩ | ⟨_, same⟩
  · exact same ▸ free
  · exact same ▸ rfl
  · exact same ▸ (Registers.pending_takeAnswer _).trans free

theorem Move.ordered (move : Move s h t) (ordered : s.queue.Ordered) : t.queue.Ordered := by
  cases move with
  | read => exact ordered
  | finish => exact ordered.close
  | take packet =>
    show (s.outcome packet).value.queue.Ordered
    rw [queue_outcome]
    split
    · exact ordered.push _
    · exact ordered

/-- What is in range in a session. -/
structure InRange (s : Session Registers) : Prop where
  answered : s.port.answered ≤ 8
  clock : s.clock.InRange
  ordered : s.queue.Ordered

theorem Moves.inRange (moves : Moves s h t) (range : s.InRange) : t.InRange := by
  refine moves.keeps (P := InRange) (fun _ _ _ move range => ?_) range
  exact ⟨move.answered range.answered, move.clock range.clock, move.ordered range.ordered⟩

theorem Moves.pending (moves : Moves s h t) (free : s.port.pending = false) : t.port.pending = false :=
  moves.keeps (P := fun s => s.port.pending = false) (fun _ _ _ move => move.pending) free

end Session

/-! ### Saved states -/

/-- The clock of a snapshot is reduced to its ranges, whatever is read. -/
theorem Snapshot.inRange_set : ∀ f ∈ Snapshot.layout, ∀ v (s : Snapshot), s.clock.InRange →
    (f.set v s).clock.InRange := by
  have timestamp : ∀ v (c : Clock), c.InRange →
      Clock.InRange { c with timestamp := v &&& timestampMask } := by
    intro v c range
    refine ⟨?_, range.cycles, range.received⟩
    rw [Clock.toNat_mask]
    omega
  have cycles : ∀ v (c : Clock), c.InRange →
      Clock.InRange { c with cycles := v &&& Clock.cycleMask } := by
    intro v c range
    refine ⟨range.timestamp, ?_, range.received⟩
    rw [Clock.toNat_cycleMask]
    omega
  intro f mem
  rcases List.mem_cons.mp mem with rfl | mem
  · exact fun _ _ range => range
  rcases List.mem_cons.mp mem with rfl | mem
  · exact fun _ _ range => range
  rcases List.mem_cons.mp mem with rfl | mem
  · exact fun v s range => timestamp v s.clock range
  rcases List.mem_cons.mp mem with rfl | mem
  · exact fun v s range => cycles v s.clock range
  · exact nomatch mem

/-! ### Ports -/

namespace SerialPort

variable {p q : SerialPort}

/-- What is in range in a port; without a link the registers show that there is none. -/
structure InRange (p : SerialPort) : Prop where
  session : p.toSession.InRange
  bits : p.transferredBits ≤ 7
  data : p.phase = .disabled → p.port.data = 0xff
  pending : p.phase = .disabled → p.port.pending = false

theorem inRange_new : new.InRange :=
  ⟨⟨by decide, Clock.inRange_start, BitQueue.ordered_fresh⟩, by decide, fun _ => rfl, fun _ => rfl⟩

/-- While there is a link its registers may hold anything. -/
theorem InRange.of_linked (session : p.toSession.InRange) (bits : p.transferredBits ≤ 7)
    (linked : p.phase ≠ .disabled) : p.InRange :=
  ⟨session, bits, fun unlinked => absurd unlinked linked, fun unlinked => absurd unlinked linked⟩

theorem Step.inRange {h : List Event} (step : Step p h q) (range : p.InRange) : q.InRange := by
  obtain ⟨session, bits, data, pending⟩ := range
  obtain ⟨answered, clock, ordered⟩ := session
  cases step with
  | receiver move =>
    refine ⟨(Session.Moves.one move).inRange ⟨answered, clock, ordered⟩, bits, fun unlinked => ?_,
      fun unlinked => move.pending (pending unlinked)⟩
    exact move.kept.data.trans (data unlinked)
  | connection => exact ⟨⟨answered, clock, ordered⟩, bits, data, pending⟩
  | idle => exact ⟨⟨answered, clock, ordered⟩, bits, fun _ => rfl, pending⟩
  | pass cycles ready =>
    refine .of_linked ⟨answered, clock.advance cycles, ordered⟩ bits ?_
    rw [phase_elapse ready]
    exact nofun
  | listen | offer | fail => exact .of_linked ⟨answered, clock, ordered⟩ bits nofun
  | wait begun =>
    refine .of_linked ⟨answered, clock, ordered⟩ bits ?_
    show p.phase ≠ .disabled
    rw [begun]
    exact nofun
  | shift item rest begun items more =>
    exact .of_linked ⟨answered, clock, ordered.pop⟩ (Nat.le_of_lt_succ more) nofun
  | complete => exact .of_linked ⟨answered, clock, ordered.pop⟩ (Nat.zero_le _) nofun
  | lose => exact ⟨⟨answered, clock, ordered⟩, Nat.zero_le _, fun _ => rfl, fun _ => rfl⟩

/-! ### What the machine does -/

theorem InRange.writeData (range : p.InRange) (byte : UInt8) : (p.writeData byte).InRange := by
  unfold SerialPort.writeData
  split
  · next enabled =>
    exact .of_linked ⟨Nat.zero_le _, range.session.clock, range.session.ordered⟩ range.bits
      (isEnabled_iff.mp enabled)
  · exact range

theorem InRange.writeControl (range : p.InRange) (byte : UInt8) : (p.writeControl byte).InRange := by
  obtain ⟨⟨answered, clock, ordered⟩, bits, data, pending⟩ := range
  unfold SerialPort.writeControl
  dsimp only
  split
  · exact ⟨⟨answered, clock, ordered⟩, Nat.zero_le _, data, pending⟩
  · exact ⟨⟨answered, clock, ordered⟩, bits, data, pending⟩

/-- The data register of a port without a link is set so that it shows that. -/
theorem data_of_unlinked {byte : UInt8} (unlinked : p.phase = .disabled) :
    (if p.isEnabled then byte else 0xff) = 0xff := by
  rw [isEnabled, unlinked]
  rfl

theorem InRange.reset (range : p.InRange) : p.reset.InRange := by
  refine ⟨⟨Nat.zero_le _, range.session.clock, range.session.ordered⟩, Nat.zero_le _,
    fun unlinked => ?_, fun _ => rfl⟩
  exact data_of_unlinked ((accessed_reset p).unlinked.mp unlinked)

theorem InRange.restore {s : Snapshot} (range : p.InRange) (clock : s.clock.InRange) :
    (p.restore s).InRange :=
  ⟨⟨Nat.zero_le _, clock, range.session.ordered⟩, Nat.zero_le _, data_of_unlinked, range.pending⟩

theorem InRange.load (range : p.InRange) (bytes : Bytes) : (p.load bytes).2.InRange := by
  have before : p.snapshot.clock.InRange := range.session.clock
  have clock := Layout.read_keeps (P := fun s : Snapshot => s.clock.InRange) Snapshot.inRange_set
    (⟨Tape.ofBytes bytes, true⟩ : Reader Tape) before
  exact range.restore clock

theorem InRange.loadTree (range : p.InRange) (tree : Tree) : (p.loadTree tree).2.InRange := by
  -- The parts of a document are those of a snapshot, under one more name.
  have set : ∀ f ∈ Snapshot.documentLayout, ∀ v (s : Snapshot), s.clock.InRange →
      (f.set v s).clock.InRange := by
    intro f mem
    obtain ⟨part, among, rfl⟩ := List.mem_map.mp mem
    exact Snapshot.inRange_set part among
  have clock := Layout.ofTree_keeps (P := fun s : Snapshot => s.clock.InRange) set tree
    (show p.snapshot.clock.InRange from range.session.clock)
  unfold SerialPort.loadTree
  dsimp only
  split
  · exact range.restore clock
  · exact range

/-- Whatever the machine does with the state of a port, the port stays in its ranges. -/
theorem InRange.access {act : Act} (range : p.InRange) (access : act.isAccess) :
    (p.perform act).value.2.InRange := by
  cases act with
  | writeData byte => exact range.writeData byte
  | writeControl byte => exact range.writeControl byte
  | write address byte =>
    show (p.write address byte).InRange
    unfold write
    split
    · exact range.writeData byte
    split
    · exact range.writeControl byte
    · exact range
  | reset => exact range.reset
  | load bytes => exact range.load bytes
  | loadTree tree => exact range.loadTree tree
  | _ => cases access

/-! ### Plugging in and out -/

theorem InRange.unplug (range : p.InRange) : p.unplug.value.InRange := by
  have stopped : p.toSession.stop.value.InRange := by
    rw [Session.stop_eq]
    split
    · have closing : Session.InRange { p.toSession with connection := p.connection.close } :=
        ⟨range.session.answered, range.session.clock, range.session.ordered⟩
      have closed := (Session.moves_pump _).inRange closing
      exact ⟨closed.answered, closed.clock, closed.ordered⟩
    · exact range.session
  exact ⟨⟨stopped.answered, stopped.clock, BitQueue.ordered_fresh⟩, range.bits, fun _ => rfl, fun _ => rfl⟩

theorem InRange.plugIn (range : p.InRange) (unplugged : p.Unplugged) (config : Config)
    (hasListener : Bool) (host : Tcp.Host) : (p.plugIn config hasListener host).value.InRange := by
  obtain ⟨q, attempted, value⟩ := plugIn_cases config hasListener host p
  rw [value]
  refine InRange.reset ?_
  cases attempted with
  | linked connection protocol established same =>
    obtain ⟨_, _, _, _, moves, _⟩ := Session.start_spec
      (s := (p.prepared config hasListener host).session connection protocol) established
      unplugged.started rfl
    rw [same]
    exact .of_linked (moves.inRange ⟨range.session.answered, Clock.inRange_start, BitQueue.ordered_fresh⟩)
      range.bits nofun
  | without connection error _ same =>
    rw [same]
    exact ⟨⟨range.session.answered, Clock.inRange_start, range.session.ordered⟩, range.bits, range.data,
      range.pending⟩

/-- Whatever is done with a port, it stays in its ranges. -/
theorem InRange.operate {op : Operation} (range : p.InRange) (sound : p.Sound)
    (possible : op.isPossible p) : (p.operate op).value.2.InRange := by
  cases op with
  | act act =>
    cases access : act.isAccess with
    | true => exact range.access access
    | false =>
      exact (leads_perform access possible sound).steps.keeps (fun _ _ _ step => step.inRange) range
  | unplug => exact range.unplug
  | plug config hasListener host =>
    exact range.unplug.plugIn (unplugged_unplug p) config hasListener host

/-! ### Waiting -/

/-- Whether a tick is under way after an operation, given how far the operation has come and whether one
was under way before. -/
def Operation.leavesWaiting (progress : Progress) (before : Bool) : Operation → Bool
  | .act (.tick _) | .act .resume => progress == .blocked
  | .act (.arrive _) | .act (.turn _) => before
  | _ => false

/-- Whether a tick is under way when one operation after the other was done. -/
def isWaiting : List Operation → Bool → SerialPort → Bool
  | [], before, _ => before
  | op :: ops, before, p =>
    isWaiting ops (op.leavesWaiting (p.operate op).value.1 before) (p.operate op).value.2

/-- The port waits for a bit of the peer exactly if the tick is blocked. -/
def Waits (x : Progress × SerialPort) : Prop := x.2.phase = .exchanging ↔ x.1 = .blocked

theorem waits_awaitBit (begun : p.phase = .exchanging) : Waits p.awaitBit.value := by
  cases p.looks_awaitBit with
  | shifts _ _ _ same | completes _ _ _ same | loses _ same =>
    rw [same]
    exact ⟨nofun, nofun⟩
  | waits _ same =>
    rw [same]
    exact ⟨fun _ => rfl, fun _ => begun⟩

theorem phase_offerBit (p : SerialPort) : p.offerBit.value.phase = p.phase := by
  cases drives : p.port.drivesClock with
  | false => rw [offerBit_of_driven drives]; rfl
  | true =>
    cases taken : (p.connection.send p.syncPacket).value.1 with
    | true => rw [offerBit_of_taken drives taken]; rfl
    | false => rw [offerBit_of_refused drives taken]; rfl

theorem waits_exchange (p : SerialPort) : Waits p.exchange.value :=
  waits_awaitBit (phase_offerBit { p with phase := .exchanging })

theorem waits_tick (cycles : UInt32) (p : SerialPort) : Waits (p.tick cycles).value := by
  cases p.ticks_tick cycles with
  | unlinked phase same =>
    rw [same]
    refine ⟨fun begun => ?_, nofun⟩
    cases phase.symm.trans begun
  | blocked phase same =>
    rw [same]
    exact ⟨fun _ => rfl, fun _ => phase⟩
  | loses _ _ same =>
    rw [same]
    exact ⟨nofun, nofun⟩
  | exchanges _ _ _ same =>
    rw [same]
    exact waits_exchange _
  | passes ready _ _ same =>
    rw [same]
    refine ⟨fun begun => ?_, nofun⟩
    cases (phase_elapse ready cycles).symm.trans begun

theorem phase_plug (config : Config) (hasListener : Bool) (host : Tcp.Host) (p : SerialPort) :
    (p.plug config hasListener host).value.phase ≠ .exchanging := by
  obtain ⟨q, attempted, value⟩ := plugIn_cases config hasListener host p.unplug.value
  have value : (p.plug config hasListener host).value = q.reset := value
  rw [value, ne_eq, (accessed_reset q).begun]
  cases attempted with
  | linked _ _ _ same | without _ _ _ same =>
    rw [same]
    exact nofun

/-- After an operation the port waits exactly if a tick is under way. -/
theorem phase_operate {op : Operation} {before : Bool} (possible : op.isPossible p)
    (waits : p.phase = .exchanging ↔ before = true) :
    (p.operate op).value.2.phase = .exchanging ↔
      op.leavesWaiting (p.operate op).value.1 before = true := by
  cases op with
  | unplug => exact ⟨nofun, nofun⟩
  | plug config hasListener host => exact ⟨fun begun => absurd begun (phase_plug config hasListener host p), nofun⟩
  | act act =>
    cases access : act.isAccess with
    | true =>
      -- While the port waits the machine can do nothing.
      have idle : p.phase ≠ .exchanging := by
        cases act with
        | writeData | writeControl | write | reset | load | loadTree => exact bne_iff_ne.mp possible
        | _ => cases access
      have after : (p.perform act).value.2.phase ≠ .exchanging :=
        mt (accessed_perform access p).2.begun.mp idle
      refine ⟨fun begun => absurd begun after, fun waiting => ?_⟩
      cases act with
      | writeData | writeControl | write | reset | load | loadTree => cases waiting
      | _ => cases access
    | false =>
      cases act with
      | tick cycles => exact (waits_tick cycles p).trans beq_iff_eq.symm
      | resume =>
        have begun : p.phase = .exchanging := beq_iff_eq.mp possible
        show p.resume.value.2.phase = .exchanging ↔ (p.resume.value.1 == .blocked) = true
        unfold resume
        rw [if_pos begun]
        exact (waits_awaitBit begun).trans beq_iff_eq.symm
      | timeOut =>
        refine ⟨fun begun => ?_, nofun⟩
        have gone : p.timeOut.value.phase ≠ .exchanging := by
          unfold timeOut
          split
          · exact nofun
          · assumption
        exact absurd begun gone
      | arrive segment => exact waits
      | turn host => exact waits
      | _ => cases access

/-- A port waits for a bit of the peer only while a tick is under way. -/
theorem phase_live {ops : List Operation} {before : Bool} (can : p.canLive ops)
    (waits : p.phase = .exchanging ↔ before = true) :
    (p.live ops).value.phase = .exchanging ↔ p.isWaiting ops before = true := by
  induction ops generalizing p before with
  | nil => exact waits
  | cons op rest ih =>
    obtain ⟨possible, can⟩ := Bool.and_eq_true _ _ ▸ can
    exact ih can (phase_operate possible waits)

/-! ### All its life -/

variable {ops : List Operation}

theorem inRange_live (can : new.canLive ops) : (new.live ops).value.InRange :=
  (live_keeps (fun _ _ possible sound range => range.operate sound possible) can sound_new inRange_new).2

/-- **What always holds of a port**, whatever was done with it and whatever has come from the peer.  It waits
for a bit only while a tick is under way.  Less than a byte was exchanged since the last whole one, and
whenever a bit is taken for an answer, however far the receiver has gone on, it is one of a byte's eight.
The clock is in its ranges.  Without a link the data register is all ones and no request is under way; with a
link no failure is noted.  The queue is closed exactly if the end mark is its last entry, and there is one
only. -/
theorem live_in_range (can : new.canLive ops) :
    let p := (new.live ops).value
    (p.phase = .exchanging ↔ new.isWaiting ops false = true) ∧
      p.transferredBits ≤ 7 ∧ p.port.answered ≤ 8 ∧
      (∀ (s t : Session Registers) (h : List Event), s.port.answered = p.port.answered →
        Session.Moves s h t → ∃ n ≤ 7, t.port.takeAnswer.2.answered = n + 1 ∧
          t.port.takeAnswer.1 = (t.port.takeAnswer.2.answer >>> UInt8.ofNat (7 - n)) &&& 1) ∧
      p.clock.timestamp.toNat < 2147483648 ∧ p.clock.received.toNat < 2147483648 ∧
      p.clock.cycles.toNat < 2097152 ∧
      (p.isEnabled = false → p.port.data = 0xff ∧ p.port.pending = false) ∧
      (p.isEnabled = true → p.lastError = none) ∧
      (p.queue.closed = true ↔ p.queue.entries.getLast? = some .endMark) ∧
      p.queue.entries.count .endMark = if p.queue.closed then 1 else 0 := by
  intro p
  obtain ⟨⟨answered, clock, ordered⟩, bits, data, pending⟩ : p.InRange := inRange_live can
  have waits : p.phase = .exchanging ↔ new.isWaiting ops false = true := phase_live can ⟨nofun, nofun⟩
  refine ⟨waits, bits, answered, ?_, clock.timestamp, clock.received, clock.cycles, ?_,
    fun enabled => (linked_live can enabled).unnoted, ordered.getLast?_eq_endMark, ordered.count_endMark⟩
  · intro s t h same moves
    refine Registers.takeAnswer_eq (moves.answered ?_)
    rw [same]
    exact answered
  · intro off
    have unlinked : p.phase = .disabled := bne_eq_false_iff_eq.mp off
    exact ⟨data unlinked, pending unlinked⟩

/-- A link is made, a byte is begun and the peer's first bit has come; then the second one is waited for. -/
theorem live_in_range_waiting :
    let ops : List Operation := [.plug Link.called.config true Link.called.host, .act (.writeControl 129),
      .act (.tick 514), .act (.arrive (.data [104, 1, 129, 0, 0, 0, 0, 0])), .act .resume,
      .act (.tick 600)]
    let p := (new.live ops).value
    new.canLive ops = true ∧ p.phase = .exchanging ∧ p.transferredBits ≤ 7 ∧ p.lastError = none ∧
      p.queue.entries.getLast? ≠ some .endMark := by
  intro ops p
  have can : new.canLive ops = true := by decide
  have enabled : p.isEnabled = true := by decide
  have opened : p.queue.closed = false := by decide
  obtain ⟨waits, bits, _, _, _, _, _, _, unnoted, closed, _⟩ := live_in_range can
  refine ⟨can, waits.mpr (by decide), bits, unnoted enabled, fun last => ?_⟩
  rw [closed.mpr last] at opened
  cases opened

end SerialPort

end SerialLink
