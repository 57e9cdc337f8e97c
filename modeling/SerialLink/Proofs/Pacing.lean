import SerialLink.Proofs.Ranges
import SerialLink.Proofs.Turns

/-!
# Pacing

A side that is ahead of its peer waits: as long as no packet comes, cycles pass and nothing else happens, however
many they are, and no cycle is lost that counts for the next bit (`SerialPort.Paced.run`).  When a packet has told
a time that this side is not ahead of, a bit that is due is exchanged with the next tick, and only one is
(`SerialPort.exchanges_tick`).  Together: `SerialPort.waits_for_peer`.
-/

namespace SerialLink

open Event

/-! ### Receivers that hear of nothing -/

namespace Session

variable {s t : Session Registers} {h : List Event}

theorem heard_take (packet : Packet) (reply : Option Packet) (c : Connection) :
    heard (.handled packet reply :: deeds (c.answer reply).trace) = [packet] := by
  rw [← List.singleton_append, heard_append, c.heard_answer]
  rfl

/-- The clock takes note of the time that each packet tells, one after the other. -/
theorem Moves.clock_eq (moves : Moves s h t) :
    t.clock = (heard h).foldl (fun c packet => c.hear packet.timestamp) s.clock := by
  induction moves with
  | refl => rfl
  | step move _ ih =>
    rw [heard_append, List.foldl_append, ih]
    cases move with
    | read | finish => rfl
    | take packet => rw [heard_take]; rfl

/-- A receiver that handles no packet leaves the port as it is, and does nothing that shows. -/
theorem Moves.silent (moves : Moves s h t) (none : heard h = []) : h = [] ∧ t.port = s.port := by
  induction moves with
  | refl => exact ⟨rfl, rfl⟩
  | step move _ ih =>
    rw [heard_append, List.append_eq_nil_iff] at none
    obtain ⟨quiet, same⟩ := ih none.2
    cases move with
    | read | finish => exact ⟨quiet, same⟩
    | take packet =>
      rw [heard_take] at none
      cases none.1

/-- Closing a sound session leaves in the queue what is there. -/
theorem Sound.items_close (sound : s.Sound) : s.close.value.queue.items = s.queue.items := by
  have moves : Moves { s with connection := s.connection.close } (deeds s.close.trace) s.close.value :=
    moves_pump _
  rw [sound.deeds_close] at moves
  exact (moves.items ⟨sound.ordered, sound.closed⟩).trans (List.append_nil _)

/-- As long as the receiver runs more may come out of the queue. -/
theorem Sound.supplied (sound : s.Sound) (working : s.receiver.running) : s.queue.isExhausted = false := by
  have opened : s.queue.closed = false := by rw [sound.closed, working]; rfl
  rw [BitQueue.isExhausted, opened, Bool.false_and]

end Session

namespace SerialPort

variable {p q : SerialPort}

/-! ### Counting cycles -/

theorem toNat_addCycles (a b : UInt32) :
    (addCycles a b).toNat = min (a.toNat + b.toNat) 4294967295 := by
  have small : min (a.toNat + b.toNat) (UInt32.size - 1) < 2 ^ 32 :=
    Nat.lt_of_le_of_lt (Nat.min_le_right _ _) (by decide)
  rw [addCycles, UInt32.toNat_ofNat_of_lt' small]
  rfl

/-- The cycles until the next bit, as a number. -/
theorem toNat_cyclesToTransmit (enabled : p.isEnabled) (transfer : p.port.isTransferring) :
    p.cyclesToTransmit.toNat = 514 - p.cycleCount.toNat := by
  unfold cyclesToTransmit
  rw [enabled, transfer, if_neg (by decide)]
  split
  · next more =>
    rw [UInt32.toNat_sub_of_le _ _ (UInt32.le_of_lt more)]
    rfl
  · next less =>
    rw [UInt32.lt_iff_toNat_lt] at less
    have low : 514 ≤ p.cycleCount.toNat := Nat.le_of_not_lt less
    rw [Nat.sub_eq_zero_of_le low]
    rfl

/-! ### Waiting for the peer -/

/-- So many cycles have passed, and nothing else has happened to the port. -/
structure Paced (cycles : Nat) (p q : SerialPort) : Prop where
  sound : q.Sound
  ready : q.phase = .armed ∨ q.phase = .complete
  port : q.port = p.port
  bits : q.transferredBits = p.transferredBits
  items : q.queue.items = p.queue.items
  count : q.cycleCount.toNat = min (p.cycleCount.toNat + cycles) 4294967295
  since : q.clock.cycles.toNat = (p.clock.cycles.toNat + cycles) % 2097152
  lead : q.clock.lead = (p.clock.lead + p.clock.steps cycles) % 2147483648
  range : q.clock.InRange

theorem Paced.refl (sound : p.Sound) (ready : p.phase = .armed ∨ p.phase = .complete)
    (range : p.clock.InRange) : Paced 0 p p := by
  have count := p.cycleCount.toNat_lt
  have since := range.cycles
  have lead : p.clock.lead < 2147483648 := by
    rw [Clock.lead, Clock.toNat_distance]
    omega
  refine ⟨sound, ready, rfl, rfl, rfl, by omega, by omega, ?_, range⟩
  unfold Clock.steps
  omega

/-- A linked port that does not wait can let cycles pass. -/
theorem ready_of_outside (enabled : p.isEnabled) (outside : p.phase ≠ .exchanging) :
    p.phase = .armed ∨ p.phase = .complete := by
  have linked := isEnabled_iff.mp enabled
  cases phase : p.phase with
  | disabled => exact absurd phase linked
  | exchanging => exact absurd phase outside
  | armed => exact .inl rfl
  | complete => exact .inr rfl

theorem Paced.outside {n : Nat} (paced : Paced n p q) : q.phase ≠ .exchanging := by
  rcases paced.ready with h | h <;> rw [h] <;> decide

theorem enabled_of_ready (ready : p.phase = .armed ∨ p.phase = .complete) : p.isEnabled :=
  isEnabled_iff.mpr (linked_of_ready ready)

/-- A tick of a port that is linked and does not wait, if bits are left or may come. -/
theorem tick_of_ready (ready : q.phase = .armed ∨ q.phase = .complete)
    (more : q.queue.isExhausted = false) (cycles : UInt32) :
    q.tick cycles = if (q.elapse cycles).isDue then (q.elapse cycles).exchange
      else return (.idle, q.elapse cycles) := by
  unfold tick
  rcases ready with h | h <;> simp only [h, more, Bool.false_eq_true, if_false]

/-- A side that is ahead exchanges no bit when cycles pass, though one may be due. -/
theorem Paced.tick {n : Nat} (paced : Paced n p q) (more : q.queue.isExhausted = false) (cycles : UInt32)
    (ahead : 1 ≤ p.clock.lead)
    (near : p.clock.lead + p.clock.steps (n + cycles.toNat) < 1073741824) :
    q.tick cycles = pure (.idle, q.elapse cycles) ∧ Paced (n + cycles.toNat) p (q.elapse cycles) := by
  obtain ⟨sound, ready, port, bits, items, count, since, lead, range⟩ := paced
  have linked := linked_of_ready ready
  -- The whole steps so far and those to come are the steps of all cycles together.
  have later : (q.elapse cycles).clock.lead = p.clock.lead + p.clock.steps (n + cycles.toNat) := by
    show (q.clock.advance cycles).lead = _
    rw [Clock.lead_advance, lead]
    unfold Clock.steps at near ⊢
    omega
  have waits : (q.elapse cycles).isDue = false := by
    have front : Clock.isAhead (q.elapse cycles).clock.timestamp (q.elapse cycles).clock.received = true := by
      rw [Clock.isAhead_iff]
      show 0 < (q.elapse cycles).clock.lead ∧ (q.elapse cycles).clock.lead < 1073741824
      omega
    rw [isDue, Clock.isReady, front, Bool.not_true, Bool.and_false]
  constructor
  · rw [tick_of_ready ready more, waits]
    rfl
  · refine ⟨⟨fun _ => (sound.linked linked).of_eq rfl rfl rfl, fun off => ?_⟩,
      .inl (phase_elapse ready cycles), port, bits, items, ?_, ?_, ?_, range.advance cycles⟩
    · rw [phase_elapse ready] at off
      cases off
    · show (addCycles q.cycleCount cycles).toNat = _
      rw [toNat_addCycles, count]
      omega
    · show (q.clock.advance cycles).cycles.toNat = _
      rw [Clock.cycles_advance, since]
      omega
    · rw [later]
      omega

/-- What comes without making up a packet changes nothing for the port. -/
theorem Paced.arrive {n : Nat} (paced : Paced n p q) (segment : Tcp.Segment)
    (none : heard (q.arrive segment).trace = []) :
    deeds (q.arrive segment).trace = [] ∧ Paced n p (q.arrive segment).value := by
  obtain ⟨sound, ready, port, bits, items, count, since, lead, range⟩ := paced
  have linked := linked_of_ready ready
  have session := sound.linked linked
  have moves := moves_arrive segment q
  rw [← heard_deeds] at none
  obtain ⟨quiet, same⟩ := moves.silent none
  have clock := moves.clock_eq
  rw [none] at clock
  have left := moves.items ⟨session.ordered, session.closed⟩
  rw [quiet] at left
  refine ⟨quiet, ?_⟩
  have after : (q.arrive segment).value.Sound := (leads_arrive sound segment).sound
  exact ⟨after, ready, same.trans port, bits, left.trans ((List.append_nil _).trans items), count,
    clock ▸ since, clock ▸ lead, clock ▸ range⟩

/-! ### Runs without a packet -/

/-- Whether an act lets time pass, or is one of the world outside. -/
def Act.letsPass : Act → Bool
  | .tick _ | .arrive _ | .turn _ => true
  | _ => false

/-- The cycles that pass with an act. -/
def Act.cycles : Act → Nat
  | .tick cycles => cycles.toNat
  | _ => 0

/-- The cycles that pass with all acts. -/
def passed : List Act → Nat
  | [] => 0
  | act :: acts => act.cycles + passed acts

variable {acts : List Act}

/-- Whether at every tick bits are left in the queue or may still come. -/
def isSupplied : List Act → SerialPort → Bool
  | [], _ => true
  | act :: acts, p =>
    !(act.isTick && p.queue.isExhausted) && isSupplied acts (p.perform act).value.2

theorem isSupplied_append (a b : List Act) (p : SerialPort) :
    p.isSupplied (a ++ b) = (p.isSupplied a && (p.run a).value.isSupplied b) := by
  induction a generalizing p with
  | nil => rfl
  | cons act rest ih =>
    rw [List.cons_append, isSupplied, isSupplied, ih, Bool.and_assoc]
    rfl

theorem passed_append (a b : List Act) : passed (a ++ b) = passed a + passed b := by
  induction a with
  | nil => exact (Nat.zero_add _).symm
  | cons act rest ih =>
    rw [List.cons_append, passed, passed, ih, Nat.add_assoc]

/-- With any one act, if no packet comes, cycles pass and nothing else happens. -/
theorem Paced.perform {n : Nat} {act : Act} (paced : Paced n p q) (passing : act.letsPass = true)
    (none : heard (q.perform act).trace = []) (more : (act.isTick && q.queue.isExhausted) = false)
    (ahead : 1 ≤ p.clock.lead)
    (near : p.clock.lead + p.clock.steps (n + act.cycles) < 1073741824) :
    act.isPossible q = true ∧ deeds (q.perform act).trace = [] ∧
      Paced (n + act.cycles) p (q.perform act).value.2 := by
  cases act with
  | tick cycles =>
    obtain ⟨same, next⟩ := paced.tick more cycles ahead near
    have same : q.perform (.tick cycles) = pure (.idle, q.elapse cycles) := same
    rw [same]
    exact ⟨bne_iff_ne.mpr paced.outside, rfl, next⟩
  | arrive segment =>
    have trace : (q.perform (.arrive segment)).trace = (q.arrive segment).trace := List.append_nil _
    rw [trace] at none ⊢
    obtain ⟨quiet, next⟩ := paced.arrive segment none
    exact ⟨rfl, quiet, next⟩
  | turn host =>
    have sound : (q.perform (.turn host)).value.2.Sound := sound_perform rfl paced.sound
    exact ⟨rfl, rfl, sound, paced.ready, paced.port, paced.bits, paced.items, paced.count, paced.since,
      paced.lead, paced.range⟩
  | _ => cases passing

/-- **As long as this side is ahead and no packet comes, cycles pass and nothing else happens.** -/
theorem Paced.run {n : Nat} (paced : Paced n p q) (passing : ∀ act ∈ acts, act.letsPass = true)
    (none : heard (q.run acts).trace = []) (supplied : q.isSupplied acts = true) (ahead : 1 ≤ p.clock.lead)
    (near : p.clock.lead + p.clock.steps (n + passed acts) < 1073741824) :
    q.canRun acts = true ∧ deeds (q.run acts).trace = [] ∧ Paced (n + passed acts) p (q.run acts).value := by
  induction acts generalizing q n with
  | nil => exact ⟨rfl, rfl, paced⟩
  | cons act rest ih =>
    obtain ⟨first, others⟩ := List.forall_mem_cons.mp passing
    obtain ⟨more, later⟩ := Bool.and_eq_true _ _ ▸ supplied
    have total : n + passed (act :: rest) = n + act.cycles + passed rest := (Nat.add_assoc _ _ _).symm
    have trace : (q.run (act :: rest)).trace =
        (q.perform act).trace ++ ((q.perform act).value.2.run rest).trace := rfl
    rw [total] at near ⊢
    rw [trace, heard_append, List.append_eq_nil_iff] at none
    have sooner : p.clock.lead + p.clock.steps (n + act.cycles) < 1073741824 := by
      unfold Clock.steps at near ⊢
      omega
    obtain ⟨possible, quiet, next⟩ := paced.perform first none.1 (Bool.not_eq_true' _ ▸ more) ahead sooner
    obtain ⟨can, silent, last⟩ := ih next others none.2 later near
    refine ⟨Bool.and_eq_true _ _ ▸ ⟨possible, can⟩, ?_, last⟩
    rw [trace, deeds_append, quiet, silent]
    rfl

/-- What holds after all acts holds after the first ones. -/
theorem Paced.run_prefix (start : Paced 0 p p) (a b : List Act)
    (passing : ∀ act ∈ a ++ b, act.letsPass = true) (none : heard (p.run (a ++ b)).trace = [])
    (supplied : p.isSupplied (a ++ b) = true) (ahead : 1 ≤ p.clock.lead)
    (near : p.clock.lead + p.clock.steps (passed (a ++ b)) < 1073741824) :
    p.canRun a = true ∧ deeds (p.run a).trace = [] ∧ Paced (0 + passed a) p (p.run a).value := by
  rw [trace_run_append, heard_append, List.append_eq_nil_iff] at none
  rw [isSupplied_append, Bool.and_eq_true] at supplied
  rw [passed_append] at near
  refine start.run (fun act mem => passing act (List.mem_append_left b mem)) none.1 supplied.1 ahead ?_
  unfold Clock.steps at near ⊢
  omega

/-! ### One exchange -/

/-- One bit is exchanged, from a port that was about to begin it: what drives the clock puts its bit out once, and
one bit of the peer is taken, which is the next one in the queue.  If there is none the port waits for it, unless
its own did not go out; then the link is lost. -/
structure Exchanges (p : SerialPort) (x : Traced (Progress × SerialPort)) : Prop where
  offers : told x.trace = if p.port.drivesClock then [p.syncPacket] else []
  takes : ∀ item rest, p.queue.items = item :: rest →
    shifted x.trace = [item.data &&& 1] ∧ x.value.2.queue.items = rest
  waits : p.queue.items = [] → shifted x.trace = [] ∧
    (x.value.1 = .blocked ∧ x.value.2.phase = .exchanging ∨
      .refused p.syncPacket ∈ x.trace ∧ x.value.1 = .idle ∧ x.value.2.phase = .disabled)

/-- What becomes of the queue when a bit is begun: nothing, unless the bit did not go out. -/
structure Offers (p : SerialPort) (o : Traced SerialPort) : Prop where
  told : told o.trace = if p.port.drivesClock then [p.syncPacket] else []
  items : o.value.queue.items = p.queue.items
  closed : o.value.queue.closed = p.queue.closed ∨
    .refused p.syncPacket ∈ o.trace ∧ o.value.queue.closed = true

theorem offers_offerBit (sound : p.toSession.Sound) : p.Offers p.offerBit := by
  have deeds_eq := Connection.deeds_send p.syncPacket p.connection
  cases drives : p.port.drivesClock with
  | false =>
    rw [offerBit_of_driven drives]
    exact ⟨by rw [drives]; rfl, rfl, .inl rfl⟩
  | true =>
    have sent : Session.Sound (p.offering false).toSession :=
      (sound.send p.syncPacket).of_eq rfl rfl rfl
    cases taken : (p.connection.send p.syncPacket).value.1 with
    | true =>
      rw [taken] at deeds_eq
      rw [offerBit_of_taken drives taken]
      refine ⟨?_, rfl, .inl rfl⟩
      rw [drives, told_append, ← told_deeds, deeds_eq]
      rfl
    | false =>
      rw [taken] at deeds_eq
      rw [offerBit_of_refused drives taken]
      refine ⟨?_, sent.items_close, .inr ⟨?_, ?_⟩⟩
      · rw [drives, told_append, ← told_deeds, deeds_eq, ← told_deeds (Traced.trace _), sent.deeds_close]
        rfl
      · have put : Event.refused p.syncPacket ∈ deeds (p.connection.send p.syncPacket).trace := by
          rw [deeds_eq]
          exact List.mem_singleton_self _
        exact List.mem_append_left _ (List.mem_filter.mp put).1
      · show (p.offering false).toSession.close.value.queue.closed = true
        rw [sent.close.closed, Session.running_close]
        rfl

theorem told_awaitBit (sound : p.toSession.Sound) : told p.awaitBit.trace = [] := by
  cases p.looks_awaitBit with
  | shifts _ _ _ same | waits _ same =>
    rw [same]
    rfl
  | completes _ _ _ same =>
    rw [same]
    cases p.interruptBased && p.hasListener <;> rfl
  | loses _ same =>
    rw [same]
    exact told_of_silent (deeds_disable_idle sound p.receiverError)

/-- A port that waits takes the next bit of the peer, if there is one. -/
theorem takes_awaitBit {item : BitQueue.Item} {rest : List BitQueue.Item} (sound : p.toSession.Sound)
    (items : p.queue.items = item :: rest) :
    shifted p.awaitBit.trace = [item.data &&& 1] ∧ p.awaitBit.value.2.queue.items = rest := by
  cases p.looks_awaitBit with
  | shifts other found _ same =>
    obtain ⟨rfl, left⟩ := List.cons.inj ((BitQueue.items_pop found).symm.trans items)
    rw [same]
    exact ⟨rfl, left⟩
  | completes other found _ same =>
    obtain ⟨rfl, left⟩ := List.cons.inj ((BitQueue.items_pop found).symm.trans items)
    rw [same]
    refine ⟨?_, left⟩
    cases p.interruptBased && p.hasListener <;> rfl
  | loses found => cases (sound.ordered.of_pop_closed found).1.symm.trans items
  | waits found => cases (sound.ordered.of_pop_empty found).1.symm.trans items

/-- If there is none it goes on waiting, or loses the link if none will come. -/
theorem waits_of_items_nil (sound : p.toSession.Sound) (begun : p.phase = .exchanging)
    (items : p.queue.items = []) : shifted p.awaitBit.trace = [] ∧
    (p.queue.closed = false ∧ p.awaitBit.value.1 = .blocked ∧ p.awaitBit.value.2.phase = .exchanging ∨
      p.queue.closed = true ∧ p.awaitBit.value.1 = .idle ∧ p.awaitBit.value.2.phase = .disabled) := by
  cases p.looks_awaitBit with
  | shifts _ found | completes _ found => cases (BitQueue.items_pop found).symm.trans items
  | loses found same =>
    rw [same]
    refine ⟨?_, .inr ⟨(sound.ordered.of_pop_closed found).2, rfl, rfl⟩⟩
    rw [← shifted_deeds]
    exact congrArg shifted (deeds_disable_idle sound p.receiverError)
  | waits found same =>
    rw [same]
    exact ⟨rfl, .inl ⟨(sound.ordered.of_pop_empty found).2, rfl, begun⟩⟩

/-- **What is due is exchanged once.** -/
theorem exchanges_exchange (sound : p.toSession.Sound) (ready : p.phase = .armed) (due : p.isDue)
    (more : p.queue.isExhausted = false) : p.Exchanges p.exchange := by
  have offers := offers_offerBit (p := { p with phase := .exchanging }) sound
  have begun := begun_offerBit sound ready due
  have trace : p.exchange.trace = (offerBit { p with phase := .exchanging }).trace ++
      ((offerBit { p with phase := .exchanging }).value.withRegisters
        fun r => { r with waiting := true }).awaitBit.trace := rfl
  have waiting : Session.Sound ((offerBit { p with phase := .exchanging }).value.withRegisters
      fun r => { r with waiting := true }).toSession := begun.sound.of_eq rfl rfl rfl
  constructor
  · rw [trace, told_append, told_awaitBit waiting, List.append_nil]
    exact offers.told
  · intro item rest items
    obtain ⟨bit, left⟩ := takes_awaitBit waiting (offers.items.trans items)
    rw [trace, shifted_append, begun.silent, bit]
    exact ⟨rfl, left⟩
  · intro items
    have opened : p.queue.closed = false := by
      cases closed : p.queue.closed with
      | false => rfl
      | true =>
        rw [(BitQueue.isExhausted_iff sound.ordered).mpr ⟨closed, items⟩] at more
        cases more
    obtain ⟨quiet, ends⟩ := waits_of_items_nil waiting begun.begun (offers.items.trans items)
    rw [trace, shifted_append, begun.silent, quiet]
    refine ⟨rfl, ends.imp (fun ⟨_, blocked⟩ => blocked) fun ⟨closed, lost⟩ => ?_⟩
    -- The queue is closed now only because the bit of this side was not taken.
    rcases offers.closed with same | ⟨refused, _⟩
    · have closed : (offerBit { p with phase := .exchanging }).value.queue.closed = true := closed
      rw [same, opened] at closed
      cases closed
    · exact ⟨List.mem_append_left _ refused, lost⟩

/-! ### When the peer catches up -/

/-- Of the times that packets tell only the last one counts. -/
theorem foldl_hear_concat (earlier : List Packet) (packet : Packet) (c : Clock) :
    (earlier ++ [packet]).foldl (fun c packet => c.hear packet.timestamp) c = c.hear packet.timestamp := by
  induction earlier generalizing c with
  | nil => rfl
  | cons first rest ih => exact ih (c.hear first.timestamp)

/-- After packets have come the peer's time is what the last one tells, and that of this side is what it was. -/
theorem clock_arrive {segment : Tcp.Segment} {earlier : List Packet} {packet : Packet}
    (came : heard (p.arrive segment).trace = earlier ++ [packet]) :
    (p.arrive segment).value.clock = p.clock.hear packet.timestamp := by
  have clock := (moves_arrive segment p).clock_eq
  rw [heard_deeds, came, foldl_hear_concat] at clock
  exact clock

/-- When a packet has told a time that this side is not ahead of, a bit that is due is exchanged with the next
tick, unless its cycles put this side ahead again. -/
theorem exchanges_tick {segment : Tcp.Segment} {earlier : List Packet} {packet : Packet} (sound : p.Sound)
    (ready : p.phase = .armed ∨ p.phase = .complete)
    (came : heard (p.arrive segment).trace = earlier ++ [packet])
    (more : (p.arrive segment).value.queue.isExhausted = false) (cycles : UInt32)
    (due : ((p.arrive segment).value.elapse cycles).cyclesToTransmit = 0)
    (level : Clock.isAhead (p.clock.advance cycles).timestamp packet.timestamp = false) :
    ((p.arrive segment).value.elapse cycles).Exchanges ((p.arrive segment).value.tick cycles) := by
  have after : (p.arrive segment).value.Sound := (leads_arrive sound segment).sound
  have still : (p.arrive segment).value.phase = .armed ∨ (p.arrive segment).value.phase = .complete := ready
  have linked := linked_of_ready still
  have isDue : ((p.arrive segment).value.elapse cycles).isDue = true := by
    have clock : ((p.arrive segment).value.elapse cycles).clock =
        (p.clock.advance cycles).hear packet.timestamp := by
      show (p.arrive segment).value.clock.advance cycles = _
      rw [clock_arrive came]
      rfl
    have here : Clock.isAhead (p.clock.advance cycles).timestamp (packet.timestamp &&& timestampMask) = false :=
      (Clock.isAhead_mask _ _).trans level
    rw [SerialPort.isDue, due, clock, Clock.isReady]
    show (true && !Clock.isAhead (p.clock.advance cycles).timestamp (packet.timestamp &&& timestampMask)) = true
    rw [here]
    rfl
  rw [tick_of_ready still more, if_pos isDue]
  exact exchanges_exchange ((after.linked linked).of_eq rfl rfl rfl) (phase_elapse still cycles) isDue more

/-- A bit is due as soon as so many cycles have passed as the port tells. -/
theorem due_elapse (ready : p.phase = .armed ∨ p.phase = .complete) (transfer : p.port.isTransferring)
    {cycles : UInt32} (enough : p.cyclesToTransmit.toNat ≤ cycles.toNat) :
    (p.elapse cycles).cyclesToTransmit = 0 := by
  have enabled := enabled_of_ready ready
  have still := enabled_of_ready (.inl (phase_elapse ready cycles))
  have later := toNat_cyclesToTransmit still (p := p.elapse cycles) transfer
  have count : (p.elapse cycles).cycleCount.toNat = min (p.cycleCount.toNat + cycles.toNat) 4294967295 :=
    toNat_addCycles _ _
  rw [toNat_cyclesToTransmit enabled transfer] at enough
  rw [← UInt32.toNat_inj, later, count]
  show _ = 0
  omega

/-- **A side that is ahead waits for its peer, and loses nothing by it.**  As long as it is ahead and no packet
comes, it may let any number of cycles pass, as far as they do not take it half around the ring: each tick ends
at once, nothing is sent, nothing is taken out of the queue, the registers and the bits exchanged so far stay, the
port never comes to give up the link, and all cycles count for the next bit.  When packets have come then, the last
of which tells a time that this side is not ahead of, the next tick exchanges a bit if one is due, and only one,
unless its own cycles put this side ahead again; no cycles never do.  It needs a queue out of which more may
come, which it is as long as no packet has ended the receiver. -/
theorem waits_for_peer {ops : List Operation} (can : new.canLive ops)
    (enabled : (new.live ops).value.isEnabled = true) (outside : (new.live ops).value.phase ≠ .exchanging)
    (passing : ∀ act ∈ acts, act.letsPass = true)
    (silent : heard ((new.live ops).value.run acts).trace = [])
    (supplied : (new.live ops).value.isSupplied acts = true)
    (ahead : 1 ≤ (new.live ops).value.clock.lead)
    (near : (new.live ops).value.clock.lead + (new.live ops).value.clock.steps (passed acts) < 1073741824) :
    let p := (new.live ops).value
    let q := (p.run acts).value
    p.canRun acts = true ∧
      (∀ a cycles b, acts = a ++ .tick cycles :: b → ((p.run a).value.tick cycles).value.1 = .idle) ∧
      (∀ a b, acts = a ++ b → (p.run a).value.isEnabled = true ∧
        Act.timeOut.isPossible (p.run a).value = false) ∧
      deeds (p.run acts).trace = [] ∧ q.queue.items = p.queue.items ∧ q.port = p.port ∧
      q.transferredBits = p.transferredBits ∧
      q.cycleCount.toNat = min (p.cycleCount.toNat + passed acts) 4294967295 ∧
      (p.port.isTransferring = true →
        q.cyclesToTransmit.toNat = p.cyclesToTransmit.toNat - passed acts) ∧
      ∀ segment earlier packet, heard (q.arrive segment).trace = earlier ++ [packet] →
        let r := (q.arrive segment).value
        (r.receiver.running = true → r.queue.isExhausted = false) ∧
        (Clock.isAhead q.clock.timestamp packet.timestamp = false →
          Clock.isAhead (q.clock.advance 0).timestamp packet.timestamp = false) ∧
        ∀ cycles : UInt32, r.queue.isExhausted = false → r.port.isTransferring = true →
          r.cyclesToTransmit.toNat ≤ cycles.toNat →
          Clock.isAhead (q.clock.advance cycles).timestamp packet.timestamp = false →
          (r.elapse cycles).Exchanges (r.tick cycles) := by
  intro p q
  have start : Paced 0 p p :=
    .refl (sound_live can) (ready_of_outside enabled outside) (inRange_live can).session.clock
  have cut : ∀ a b, acts = a ++ b →
      p.canRun a = true ∧ deeds (p.run a).trace = [] ∧ Paced (0 + passed a) p (p.run a).value := by
    rintro a b rfl
    exact start.run_prefix a b passing silent supplied ahead near
  obtain ⟨ran, quiet, last⟩ := cut acts [] (List.append_nil _).symm
  rw [Nat.zero_add] at last
  refine ⟨ran, ?_, ?_, quiet, last.items, last.port, last.bits, last.count, ?_, ?_⟩
  · intro a cycles b same
    obtain ⟨_, _, before⟩ := cut a _ same
    rw [same, isSupplied_append, Bool.and_eq_true, isSupplied, Bool.and_eq_true] at supplied
    have more : (p.run a).value.queue.isExhausted = false := Bool.not_eq_true' _ ▸ supplied.2.1
    have total : passed acts = passed a + cycles.toNat + passed b := by
      rw [same, passed_append, Nat.add_assoc]
      rfl
    have near : p.clock.lead + p.clock.steps (0 + passed a + cycles.toNat) < 1073741824 := by
      have near : p.clock.lead + p.clock.steps (passed acts) < 1073741824 := near
      unfold Clock.steps at near ⊢
      omega
    rw [(before.tick more cycles ahead near).1]
    rfl
  · intro a b same
    obtain ⟨_, _, before⟩ := cut a b same
    refine ⟨enabled_of_ready before.ready, ?_⟩
    have apart : ((p.run a).value.phase == .exchanging) = false := beq_eq_false_iff_ne.mpr before.outside
    rw [Act.isPossible, apart]
    rfl
  · intro transfer
    have still : q.port.isTransferring := last.port ▸ transfer
    rw [toNat_cyclesToTransmit (enabled_of_ready last.ready) still, toNat_cyclesToTransmit (p := p) enabled transfer, last.count]
    omega
  · intro segment earlier packet came r
    have linked : r.phase ≠ .disabled := isEnabled_iff.mp (enabled_of_ready (p := r) last.ready)
    refine ⟨((leads_arrive last.sound segment).sound.linked linked).supplied, ?_, ?_⟩
    · intro level
      rw [last.range.timestamp_advance_zero]
      exact level
    · intro cycles more transfer enough level
      exact exchanges_tick last.sound last.ready came more cycles
        (due_elapse (p := r) last.ready transfer enough) level

/-- A bit is due, but this side is a step ahead; ticks and half a packet change nothing.  With the other half the
peer tells of that step, and the bit is exchanged without any more cycles. -/
theorem waits_for_peer_called :
    let ops : List Operation := [.plug Link.called.config true Link.called.host, .act (.writeControl 129),
      .act (.tick 2097152)]
    let acts : List Act := [.tick 514, .arrive (.data [104, 1]), .tick 0]
    let q := ((new.live ops).value.run acts).value
    let r := (q.arrive (.data [129, 0, 1, 0, 0, 0])).value
    deeds ((new.live ops).value.run acts).trace = [] ∧ q.cyclesToTransmit = 0 ∧
      told (r.tick 0).trace = [Packet.sync .slave 0 129 1] ∧ shifted (r.tick 0).trace = [1] := by
  intro ops acts q r
  have can : new.canLive ops = true := by decide
  have law := @waits_for_peer acts ops can (by decide) (by decide) (by decide) (by decide) (by decide)
    (by decide) (by decide)
  obtain ⟨_, _, _, quiet, _, _, _, _, _, next⟩ := law
  have came : heard (q.arrive (.data [129, 0, 1, 0, 0, 0])).trace = [] ++ [⟨104, 1, 129, 0, 1⟩] := by decide
  have exchanges := (next _ _ _ came).2.2 0 ((next _ _ _ came).1 (by decide)) (by decide) (by decide) (by decide)
  refine ⟨quiet, by decide, exchanges.offers.trans (by decide), ?_⟩
  exact (exchanges.takes ⟨1, 1⟩ [] (by decide)).1

end SerialPort

end SerialLink
