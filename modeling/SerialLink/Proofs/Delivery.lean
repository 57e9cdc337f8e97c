import SerialLink.Proofs.Schedule

/-!
# Delivery of bits

The bits of the peer are shifted into the data register in the order in which they came, each of them once, and
those that have come and were not shifted in are in the queue (`SerialPort.Step.delivered`).  That holds in every
schedule of the machine and the receiver (`Schedule.Step.delivers`).  The machine gives a link up only when the
queue is empty; what the receiver still takes until it has ended is left there (`Link.delivers_every_bit`).
-/

namespace SerialLink

open Event

/-- The bit that an item brings. -/
def BitQueue.Item.bit (item : Item) : UInt8 := item.data &&& 1

namespace SerialPort

/-- The items that were there at first and those that came are the ones whose bits were shifted in,
followed by those in the queue. -/
structure Delivered (first : List BitQueue.Item) (h : List Event) (p : SerialPort) : Prop where
  orderly : p.toSession.Orderly
  taken : ∃ taken, first ++ arrived h = taken ++ p.queue.items ∧ shifted h = taken.map (·.bit)

theorem Delivered.start {p : SerialPort} (orderly : p.toSession.Orderly) :
    Delivered p.queue.items [] p :=
  ⟨orderly, [], List.append_nil _, rfl⟩

/-- What comes is queued, and nothing else happens to the queue. -/
theorem Delivered.queued {first : List BitQueue.Item} {g h : List Event} {p q : SerialPort}
    (delivered : Delivered first g p) (orderly : q.toSession.Orderly)
    (items : q.queue.items = p.queue.items ++ arrived h) (silent : shifted h = []) :
    Delivered first (g ++ h) q := by
  obtain ⟨taken, came, bits⟩ := delivered.taken
  refine ⟨orderly, taken, ?_, ?_⟩
  · rw [arrived_append, items, ← List.append_assoc, came, List.append_assoc]
  · rw [shifted_append, silent, bits, List.append_nil]

/-- The first item of the queue is taken, and its bit is shifted in. -/
theorem Delivered.shifted {first rest : List BitQueue.Item} {item : BitQueue.Item} {g h : List Event}
    {p q : SerialPort} (delivered : Delivered first g p) (items : p.queue.items = item :: rest)
    (queue : q.queue = p.queue.pop.2) (receiver : q.receiver = p.receiver) (none : arrived h = [])
    (bit : shifted h = [item.bit]) : Delivered first (g ++ h) q := by
  obtain ⟨orderly, taken, came, bits⟩ := delivered
  have left := BitQueue.pop_of_items_cons orderly.ordered items
  refine ⟨⟨?_, ?_⟩, taken ++ [item], ?_, ?_⟩
  · exact queue ▸ left.2.2
  · rw [queue, receiver, BitQueue.closed_pop]
    exact orderly.closed
  · rw [arrived_append, none, List.append_nil, came, items, queue, left.2.1, List.append_assoc]
    rfl
  · rw [shifted_append, bits, bit, List.map_append]
    rfl

/-- Every step delivers the bits in their order. -/
theorem Step.delivered {first : List BitQueue.Item} {g h : List Event} {p q : SerialPort}
    (step : Step p h q) (delivered : Delivered first g p) : Delivered first (g ++ h) q := by
  have orderly := delivered.orderly
  cases step with
  | receiver move =>
    exact delivered.queued (move.orderly orderly) (move.items orderly) (shifted_of_traffic move.traffic)
  | shift item rest begun items more => exact delivered.shifted items rfl rfl rfl rfl
  | complete item rest begun items last =>
    refine delivered.shifted items rfl rfl ?_ ?_
    · cases p.interruptBased && p.hasListener <;> rfl
    · cases p.interruptBased && p.hasListener <;> rfl
  | _ => exact delivered.queued ⟨orderly.ordered, orderly.closed⟩ (List.append_nil _).symm rfl

theorem Accessed.delivered {first : List BitQueue.Item} {h : List Event} {p q : SerialPort}
    (accessed : p.Accessed q) (delivered : Delivered first h p) : Delivered first h q := by
  obtain ⟨⟨ordered, closed⟩, taken⟩ := delivered
  rw [← accessed.queue] at ordered closed taken
  rw [← accessed.receiver] at closed
  exact ⟨⟨ordered, closed⟩, taken⟩

theorem Made.delivered {h : List Event} {p : SerialPort} (made : Made h p) :
    Delivered [] (deeds h) p := by
  obtain ⟨deeds_eq, greeting, fresh, moves, sound⟩ := made
  rename_i k first q s
  have orderly : q.toSession.Orderly := by
    constructor
    · exact fresh.queue ▸ BitQueue.ordered_fresh
    · rw [fresh.queue, fresh.working]
      rfl
  have begun : Delivered [] [first] q := by
    have start := Delivered.start orderly
    rw [fresh.queue] at start
    refine start.queued orderly ?_ ?_
    · rcases greeting with rfl | rfl <;> exact (List.append_nil _).symm
    · rcases greeting with rfl | rfl <;> rfl
  rw [deeds_eq, ← List.singleton_append]
  have steps : Steps q k (q.withSession s) := .of_moves moves
  exact steps.preserves (fun _ _ _ _ step => step.delivered) begun

end SerialPort

/-! ### The machine and the receiver at work -/

namespace Schedule

open SerialPort

variable {p q : SerialPort} {s t u : State} {g h k : List Event}

/-- What the machine does with a port is a step of it. -/
theorem Works.step (works : Works p h q) : SerialPort.Step p h q := by
  cases works with
  | idle unlinked => exact .idle p unlinked
  | pass cycles ready => exact .pass p cycles ready
  | begin ready due taken => exact step_offerBit ready due taken
  | fail ready due drives => exact .fail p ready due drives
  | wait begun => exact .wait p begun
  | take item begun found => exact step_awaitBit begun found

/-- It leaves the receiver alone, does not lose the link, and receives nothing. -/
theorem Works.keeps (works : Works p h q) :
    q.receiver = p.receiver ∧ (q.phase = .disabled ↔ p.phase = .disabled) ∧ received h = [] := by
  cases works with
  | idle | wait => exact ⟨rfl, .rfl, rfl⟩
  | pass cycles ready =>
    have linked := linked_of_ready ready
    have still := linked_of_ready (.inl (phase_elapse ready cycles))
    exact ⟨rfl, ⟨fun h => absurd h still, fun h => absurd h linked⟩, rfl⟩
  | begin ready due taken =>
    rw [ready]
    cases drives : p.port.drivesClock with
    | false =>
      rw [offerBit_of_driven (p := { p with phase := .exchanging }) drives]
      exact ⟨rfl, ⟨nofun, nofun⟩, rfl⟩
    | true =>
      have trace := deeds_offering (taken drives)
      rw [offerBit_of_taken (p := { p with phase := .exchanging }) drives (taken drives)]
      exact ⟨rfl, ⟨nofun, nofun⟩, congrArg received trace⟩
  | fail ready =>
    rw [ready]
    exact ⟨rfl, ⟨nofun, nofun⟩, rfl⟩
  | take item begun found =>
    rw [begun]
    cases p.looks_awaitBit with
    | shifts _ _ _ same =>
      rw [same]
      exact ⟨rfl, ⟨nofun, nofun⟩, rfl⟩
    | completes _ _ _ same =>
      rw [same]
      refine ⟨rfl, ⟨nofun, nofun⟩, ?_⟩
      cases p.interruptBased && p.hasListener <;> rfl
    | loses other | waits other => cases found.symm.trans other

/-- With a port without a link it does nothing that shows. -/
theorem Works.eq_nil (works : Works p h q) (unlinked : p.phase = .disabled) : h = [] := by
  cases works with
  | idle | pass | wait => rfl
  | begin ready | fail ready => cases unlinked.symm.trans ready
  | take _ begun => cases unlinked.symm.trans begun

/-- The link is given up only when no bit is left in the queue. -/
theorem GivesUp.drained {reason : Failure} (givesUp : GivesUp p reason) (ordered : p.queue.Ordered) :
    p.queue.items = [] := by
  cases givesUp with
  | expired _ _ empty => exact BitQueue.items_of_isEmpty empty
  | deserted _ found => exact (ordered.of_pop_closed found).1
  | exhausted _ exhausted => exact ((BitQueue.isExhausted_iff ordered).mp exhausted).2

/-! ### Delivery -/

/-- The bits are delivered so far, and a receiver that is at a packet has not ended. -/
structure Delivers (h : List Event) (s : State) : Prop where
  delivered : Delivered [] h s.port
  working : s.reader ≠ .idle → s.port.receiver.running

/-- Every step delivers the bits in their order. -/
theorem Step.delivers (step : Step s k t) (inv : Delivers g s) : Delivers (g ++ k) t := by
  obtain ⟨delivered, working⟩ := inv
  have orderly := delivered.orderly
  cases step with
  | access act staying free access =>
    have accessed := (accessed_perform access s.port).2
    rw [List.append_nil]
    exact ⟨accessed.delivered delivered, fun busy => by rw [accessed.receiver]; exact working busy⟩
  | work staying works =>
    exact ⟨works.step.delivered delivered, fun busy => by rw [works.keeps.1]; exact working busy⟩
  | giveUp | hangUp | join | arrive | turn =>
    exact ⟨delivered.queued ⟨orderly.ordered, orderly.closed⟩ (List.append_nil _).symm rfl, working⟩
  | look _ running =>
    exact ⟨delivered.queued ⟨orderly.ordered, orderly.closed⟩ (List.append_nil _).symm rfl, fun _ => running⟩
  | handle packet o read outcome =>
    subst outcome
    have running := working (by rw [read]; nofun)
    exact ⟨delivered.queued (orderly.handled packet) (orderly.items_handled running packet _) rfl, fun _ => running⟩
  | answer reply failure handled =>
    have running := working (by rw [handled]; nofun)
    refine ⟨delivered.queued ⟨orderly.ordered, orderly.closed⟩ ?_ ?_, fun _ => running⟩
    · rw [Session.arrived_answer, List.append_nil]
    · exact shifted_of_traffic (Session.traffic_answer _ _)
  | finish reason ending =>
    have move := Session.Move.finish s.port.toSession reason (working (by rw [ending]; nofun))
    exact ⟨delivered.queued (move.orderly orderly) (move.items orderly) rfl, fun busy => absurd rfl busy⟩

theorem Run.delivers (run : Run s k t) (inv : Delivers g s) : Delivers (g ++ k) t :=
  run.preserves (fun _ _ _ _ step inv => step.delivers inv) inv

/-- What was shifted in, followed by what is in the queue, is what was received. -/
theorem Delivers.law (inv : Delivers h s) : shifted h ++ s.port.queue.items.map (·.bit) = received h := by
  obtain ⟨taken, came, bits⟩ := inv.delivered.taken
  rw [List.nil_append] at came
  rw [bits, ← List.map_append, ← came, received_eq]
  rfl

/-! ### Giving the link up -/

/-- The link is lost, or the machine is giving it up. -/
def Gone (s : State) : Prop := s.machine ≠ .staying ∨ s.port.phase = .disabled

/-- No bit is shifted in any more. -/
theorem Step.gone (step : Step s k t) (gone : Gone s) : Gone t ∧ shifted k = [] := by
  have unlinked : s.machine = .staying → s.port.phase = .disabled := fun staying => gone.resolve_left (absurd staying)
  cases step with
  | access act staying _ access =>
    exact ⟨.inr ((accessed_perform access s.port).2.unlinked.mpr (unlinked staying)), rfl⟩
  | work staying works =>
    refine ⟨.inr (works.keeps.2.1.mpr (unlinked staying)), ?_⟩
    rw [works.eq_nil (unlinked staying)]
    rfl
  | giveUp => exact ⟨.inl nofun, rfl⟩
  | hangUp => exact ⟨.inl nofun, rfl⟩
  | join => exact ⟨.inr rfl, rfl⟩
  | answer => exact ⟨gone, shifted_of_traffic (Session.traffic_answer _ _)⟩
  | look | handle | finish | arrive | turn => exact ⟨gone, rfl⟩

theorem Run.gone (run : Run s k t) (gone : Gone s) : Gone t ∧ shifted k = [] := by
  induction run with
  | nothing => exact ⟨gone, rfl⟩
  | step _ step ih =>
    obtain ⟨before, silent⟩ := ih
    obtain ⟨after, more⟩ := step.gone before
    exact ⟨after, by rw [shifted_append, silent, more]; rfl⟩

/-- A receiver that has ended receives nothing. -/
theorem Step.ended (step : Step s k t) (idle : s.reader = .idle) (ended : s.port.receiver.running = false) :
    t.reader = .idle ∧ t.port.receiver.running = false ∧ received k = [] := by
  cases step with
  | access act _ _ access =>
    exact ⟨idle, by rw [(accessed_perform access s.port).2.receiver]; exact ended, rfl⟩
  | work staying works =>
    obtain ⟨same, _, silent⟩ := works.keeps
    exact ⟨idle, by rw [same]; exact ended, silent⟩
  | look _ running => cases ended.symm.trans running
  | handle _ _ read => cases idle.symm.trans read
  | answer _ _ handled => cases idle.symm.trans handled
  | finish _ ending => cases idle.symm.trans ending
  | giveUp | hangUp | join | arrive | turn => exact ⟨idle, ended, rfl⟩

theorem Run.ended (run : Run s k t) (idle : s.reader = .idle) (ended : s.port.receiver.running = false) :
    received k = [] := by
  suffices t.reader = .idle ∧ t.port.receiver.running = false ∧ received k = [] from this.2.2
  induction run with
  | nothing => exact ⟨idle, ended, rfl⟩
  | step _ step ih =>
    obtain ⟨idle, ended, silent⟩ := ih
    obtain ⟨idle, ended, more⟩ := step.ended idle ended
    exact ⟨idle, ended, by rw [received_append, silent, more]; rfl⟩

/-- The machine loses no link that it has not given up. -/
theorem Step.givesUp (step : Step s k t) (there : ¬ Gone s) (gone : Gone t) :
    ∃ reason, k = [] ∧ s.machine = .staying ∧ GivesUp s.port reason ∧ t = s.leave reason := by
  have staying : s.machine = .staying := Classical.byContradiction fun other => there (.inl other)
  have linked : s.port.phase ≠ .disabled := fun unlinked => there (.inr unlinked)
  cases step with
  | access act _ _ access =>
    exact absurd ((accessed_perform access s.port).2.unlinked.mp (gone.resolve_left (absurd staying))) linked
  | work _ works => exact absurd (works.keeps.2.1.mp (gone.resolve_left (absurd staying))) linked
  | giveUp reason _ givesUp => exact ⟨reason, rfl, staying, givesUp, rfl⟩
  | hangUp _ leaving => cases staying.symm.trans leaving
  | join _ joining => cases staying.symm.trans joining
  | look | handle | answer | finish | arrive | turn => exact absurd gone there

/-- A link that is lost was given up. -/
theorem Run.givenUp (run : Run s h t) (there : ¬ Gone s) (gone : Gone t) :
    ∃ g k u reason, h = g ++ k ∧ Run s g u ∧ u.machine = .staying ∧ GivesUp u.port reason ∧
      Run (u.leave reason) k t := by
  induction run with
  | nothing => exact absurd gone there
  | @step h k t _ before step ih =>
    by_cases already : Gone t
    · obtain ⟨g, l, u, reason, same, first, staying, givesUp, rest⟩ := ih already
      exact ⟨g, l ++ k, u, reason, by rw [same, List.append_assoc], first, staying, givesUp, rest.step step⟩
    · obtain ⟨reason, rfl, staying, givesUp, rfl⟩ := step.givesUp already gone
      exact ⟨h, [], t, reason, rfl, before, staying, givesUp, .nothing⟩

end Schedule

namespace Link

open SerialPort Schedule

theorem delivers_made {l : Link} (enabled : l.made.value.isEnabled) :
    Delivers (deeds l.made.trace) { port := l.made.value } := by
  obtain ⟨_, made, value⟩ := made_spec enabled
  refine ⟨?_, absurd rfl⟩
  rw [value]
  exact (accessed_reset _).delivered made.delivered

/-- At any time the bits that were shifted in, followed by those in the queue, are the bits that were received. -/
theorem shifted_append_queued {l : Link} (enabled : l.made.value.isEnabled) {h : List Event} {s : State}
    (run : Run { port := l.made.value } h s) :
    shifted (l.made.trace ++ h) ++ s.port.queue.items.map (·.bit) = received (l.made.trace ++ h) := by
  have law := (run.delivers (delivers_made enabled)).law
  simp only [shifted_append, shifted_deeds, received_append, received_deeds] at law ⊢
  exact law

/-- When the machine finds that it must give the link up, all of them were shifted in. -/
theorem shifted_of_givesUp {l : Link} (enabled : l.made.value.isEnabled) {h : List Event} {s : State}
    (run : Run { port := l.made.value } h s) {reason : Failure} (givesUp : GivesUp s.port reason) :
    s.port.queue.items = [] ∧ shifted (l.made.trace ++ h) = received (l.made.trace ++ h) := by
  have law := shifted_append_queued enabled run
  have drained := givesUp.drained (run.delivers (delivers_made enabled)).delivered.orderly.ordered
  rw [drained, List.map_nil, List.append_nil] at law
  exact ⟨drained, law⟩

/-- **No bit is lost, doubled or moved**, however the machine and the receiver come in between each other: the bits that
were shifted in, followed by those in the queue, are the bits that were received.  When the machine finds that it must
give the link up, nothing is left in the queue, so that all of them were shifted in.  When it has lost the link, those
were shifted in that had been received when it found that, and what the receiver has taken since is left in the
queue; if the queue was closed then, nothing is. -/
theorem delivers_every_bit {l : Link} (enabled : l.made.value.isEnabled) {h : List Event} {s : State}
    (run : Run { port := l.made.value } h s) :
    shifted (l.made.trace ++ h) ++ s.port.queue.items.map (·.bit) = received (l.made.trace ++ h) ∧
      (∀ reason, GivesUp s.port reason →
        s.port.queue.items = [] ∧ shifted (l.made.trace ++ h) = received (l.made.trace ++ h)) ∧
      (s.port.isEnabled = false → ∃ g k r reason,
        h = g ++ k ∧ Run { port := l.made.value } g r ∧ r.machine = .staying ∧ GivesUp r.port reason ∧
          Run (r.leave reason) k s ∧
          shifted (l.made.trace ++ h) = received (l.made.trace ++ g) ∧
          s.port.queue.items.map (·.bit) = received k ∧ (r.port.queue.closed → s.port.queue.items = [])) := by
  refine ⟨shifted_append_queued enabled run, fun _ => shifted_of_givesUp enabled run, fun lost => ?_⟩
  have there : ¬ Gone { port := l.made.value } := by
    rintro (left | unlinked)
    · exact left rfl
    · exact isEnabled_iff.mp enabled unlinked
  have unlinked : s.port.phase = .disabled := by simpa [isEnabled] using lost
  obtain ⟨g, k, r, reason, rfl, first, staying, givesUp, rest⟩ := run.givenUp there (.inr unlinked)
  obtain ⟨_, all⟩ := shifted_of_givesUp enabled first givesUp
  -- Since then no bit was shifted in, so that what has come since is what is in the queue.
  have silent := (rest.gone (.inl nofun)).2
  have same : shifted (l.made.trace ++ (g ++ k)) = received (l.made.trace ++ g) := by
    rw [← List.append_assoc, shifted_append, silent, List.append_nil, all]
  have left : s.port.queue.items.map (·.bit) = received k := by
    have law := shifted_append_queued enabled run
    rw [same, ← List.append_assoc, received_append (l.made.trace ++ g)] at law
    exact List.append_cancel_left law
  refine ⟨g, k, r, reason, rfl, first, staying, givesUp, rest, same, left, fun closed => ?_⟩
  obtain ⟨delivered, working⟩ := first.delivers (delivers_made enabled)
  have ended : r.port.receiver.running = false := by
    rw [← Bool.not_eq_true', ← delivered.orderly.closed]
    exact closed
  have idle : r.reader = .idle := Classical.byContradiction fun busy => by
    cases ended.symm.trans (working busy)
  rw [Run.ended rest idle ended] at left
  exact List.map_eq_nil_iff.mp left

/-- A link whose port waits a millisecond for a bit. -/
def impatient : Link := { called with config := { called.config with transferTimeout := 1 } }

/-- The wait expires, and then a bit comes.  The receiver is at it when the machine closes the connection, and has
queued it before the machine has waited for its end. -/
theorem late : ∃ h s, Run { port := impatient.made.value } h s ∧ s.port.isEnabled = false ∧
    s.port.queue.items = [⟨1, 0⟩] ∧ shifted (impatient.made.trace ++ h) = [] ∧
      received (impatient.made.trace ++ h) = [1] := by
  have begins := ((Run.one (.access { port := impatient.made.value } (.writeControl 128) rfl (by decide) rfl)).step
    (.work _ rfl (.pass 514 (.inl rfl) rfl))).step (.work _ rfl (.begin rfl rfl nofun))
  have expires := (begins.step (.work _ rfl (.wait rfl))).step
    (.giveUp _ _ rfl (.expired rfl (by decide) rfl))
  have comes := (expires.step (.arrive _ (.data [104, 1, 129, 0, 0, 0, 0, 0]))).step (.look _ rfl rfl)
  have hangsUp := (comes.step (.hangUp _ _ rfl)).step (.handle _ ⟨104, 1, 129, 0, 0⟩ _ rfl rfl)
  have ends := ((hangsUp.step (.answer _ _ _ rfl)).step (.finish _ _ rfl)).step (.join _ _ rfl rfl rfl)
  exact ⟨_, _, ends, rfl, rfl, rfl, rfl⟩

/-- The bit that was late is left behind: that nothing is in the queue of a port that has lost its link, and all that
was received was shifted in, does not hold of every schedule. -/
theorem left_behind : ¬ ∀ (l : Link) (h : List Event) (s : State), l.made.value.isEnabled →
    Run { port := l.made.value } h s → s.port.isEnabled = false →
      s.port.queue.items = [] ∧ shifted (l.made.trace ++ h) = received (l.made.trace ++ h) := by
  intro claim
  obtain ⟨h, s, run, lost, left, _⟩ := late
  have drained := (claim impatient h s (by decide) run lost).1
  rw [left] at drained
  cases drained

/-- It is what the receiver has taken since the machine found that it must give the link up. -/
theorem delivers_every_bit_late : ∃ h s, Run { port := impatient.made.value } h s ∧ s.port.isEnabled = false ∧
    s.port.queue.items = [⟨1, 0⟩] ∧ ∃ g k r reason,
      h = g ++ k ∧ Run { port := impatient.made.value } g r ∧ r.machine = .staying ∧ GivesUp r.port reason ∧
        Run (r.leave reason) k s ∧
        shifted (impatient.made.trace ++ h) = received (impatient.made.trace ++ g) ∧
        s.port.queue.items.map (·.bit) = received k ∧ (r.port.queue.closed → s.port.queue.items = []) := by
  obtain ⟨h, s, run, lost, left, _⟩ := late
  exact ⟨h, s, run, lost, left, (delivers_every_bit (by decide) run).2.2 lost⟩

end Link

end SerialLink
