import SerialLink.Proofs.Step

/-!
# What a linked port does

A port is `SerialPort.Sound` if its session is, or if it has no link and no bit of the peer is left.  What
the port does by itself are steps that keep it sound: `SerialPort.leads_tick`, `SerialPort.leads_resume`,
`SerialPort.leads_timeOut` and `SerialPort.leads_arrive`.  Each shifts in one bit at most, and tells that a
byte is completed if that was the last one.  What a look for the bit of the peer and what a tick can come to is
said once, in `SerialPort.Looks` and in `SerialPort.Ticks`.
-/

namespace SerialLink.SerialPort

open Event

/-- A linked port has a sound session; without a link there is nothing left to take. -/
structure Sound (p : SerialPort) : Prop where
  linked : p.phase ≠ .disabled → p.toSession.Sound
  unlinked : p.phase = .disabled → p.receiver.running = false ∧ p.queue.items = []

/-- What a port does by itself: steps that keep it sound.  It tells that a byte is completed exactly if it
has shifted in the last bit of it. -/
structure Leads (p : SerialPort) (x : Traced (Progress × SerialPort)) : Prop where
  steps : Steps p (deeds x.trace) x.value.2
  sound : x.value.2.Sound
  single : (shifted x.trace).length ≤ 1
  completed : x.value.1 = .completed ↔ shifted x.trace ≠ [] ∧ ¬ p.transferredBits + 1 < 8
  rest : x.value.1 = .completed → x.value.2.phase = .complete ∧ x.value.2.cycleCount = 0

/-- What was done before, without shifting a bit in, may be counted in. -/
theorem Leads.after {p q : SerialPort} {h : List Event} {x y : Traced (Progress × SerialPort)}
    (steps : Steps p h q) (silent : shifted h = []) (bits : q.transferredBits = p.transferredBits)
    (leads : q.Leads x) (trace : deeds y.trace = h ++ deeds x.trace) (value : y.value = x.value) :
    p.Leads y := by
  have same : shifted y.trace = shifted x.trace := by
    rw [← shifted_deeds, trace, shifted_append, silent, shifted_deeds]
    rfl
  refine ⟨?_, ?_, ?_, ?_, ?_⟩
  · rw [trace, value]
    exact steps.trans leads.steps
  · rw [value]
    exact leads.sound
  · rw [same]
    exact leads.single
  · rw [same, value, ← bits]
    exact leads.completed
  · rw [value]
    exact leads.rest

/-- What shifts no bit in completes no byte. -/
theorem Leads.quiet {p : SerialPort} {x : Traced (Progress × SerialPort)}
    (steps : Steps p (deeds x.trace) x.value.2) (sound : x.value.2.Sound) (silent : shifted x.trace = [])
    (going : x.value.1 ≠ .completed) : p.Leads x := by
  refine ⟨steps, sound, ?_, ⟨fun h => absurd h going, fun h => absurd silent h.1⟩,
    fun h => absurd h going⟩
  rw [silent]
  exact Nat.zero_le _

/-! ### Losing the link -/

theorem deeds_disable {p : SerialPort} (sound : p.toSession.Sound) (reason : Failure) :
    deeds (p.disable reason).trace = [] := by
  unfold disable
  simp only [Traced.trace_bind, Traced.trace_note, List.singleton_append, deeds_noted, deeds_append,
    sound.deeds_stop]
  rfl

theorem deeds_disable_idle {p : SerialPort} (sound : p.toSession.Sound) (reason : Failure) :
    deeds (p.disable reason >>= fun q => pure (Progress.idle, q)).trace = [] := by
  rw [Traced.trace_bind, deeds_append, deeds_disable sound]
  rfl

/-- A receiver that was started is stopped before the link is given up. -/
theorem disable_eq (p : SerialPort) (reason : Failure) :
    (p.disable reason).value = lost (p.lastError <|> some reason)
      (if p.receiver.started then p.withSession p.toSession.close.value else p) := by
  unfold disable
  simp only [Traced.value_bind, Session.stop_eq]
  split
  · rfl
  · next hs =>
    have same : { p.receiver with started := false } = p.receiver := by
      rw [← (Bool.not_eq_true _).mp hs]
    rw [lost, same]
    rfl

/-- A sound port without bits of the peer loses its link in steps. -/
theorem steps_disable {p : SerialPort} (sound : p.toSession.Sound) (drained : p.queue.items = [])
    (reason : Failure) :
    Steps p [] (p.disable reason).value ∧ (p.disable reason).value.receiver.running = false ∧
      (p.disable reason).value.queue.items = [] := by
  rw [disable_eq]
  cases hs : p.receiver.started with
  | true =>
    -- The receiver is stopped through the connection: that is closed, and then it deals with the end.
    have closing : Step p [] { p with connection := p.connection.close } :=
      .connection p p.connection.close rfl nofun
    have moves : Session.Moves { p.toSession with connection := p.connection.close }
        (deeds p.toSession.close.trace) p.toSession.close.value := Session.moves_pump _
    rw [sound.deeds_close] at moves
    have stopped := Session.running_close p.toSession
    have left : p.toSession.close.value.queue.items = [] :=
      (moves.items ⟨sound.ordered, sound.closed⟩).trans (by rw [drained]; rfl)
    have walk : Steps { p with connection := p.connection.close } []
        (p.withSession p.toSession.close.value) := .of_moves moves
    exact ⟨.step closing (walk.trans (.one (.lose _ _ stopped left))), stopped, left⟩
  | false =>
    have stopped : p.receiver.running = false := by
      cases hr : p.receiver.running with
      | false => rfl
      | true => rw [sound.started hr] at hs; cases hs
    exact ⟨.one (.lose p _ stopped drained), stopped, drained⟩

/-- A port that loses its link has done so in steps, and no byte is completed by that. -/
theorem leads_disable {p : SerialPort} (sound : p.toSession.Sound) (drained : p.queue.items = [])
    (reason : Failure) : p.Leads (do return (.idle, ← p.disable reason)) := by
  obtain ⟨steps, stopped, left⟩ := steps_disable sound drained reason
  have quiet := deeds_disable_idle sound reason
  refine .quiet ?_ ⟨fun h => absurd rfl h, fun _ => ⟨stopped, left⟩⟩ ?_ nofun
  · rw [quiet]
    exact steps
  · rw [← shifted_deeds, quiet]
    rfl

/-! ### Exchanging a bit -/

/-- The port that has found an item in the queue. -/
def taking (p : SerialPort) : SerialPort :=
  { p with queue := p.queue.pop.2, port := { p.port with waiting := false } }

theorem awaitBit_of_item {p : SerialPort} {item : BitQueue.Item} (found : p.queue.pop.1 = .item item) :
    p.awaitBit = p.taking.takeBit item.data := by
  unfold awaitBit
  rw [show p.queue.pop = (.item item, p.queue.pop.2) by rw [← found]]
  rfl

/-- What a look for the bit of the peer can come to; what is proved of looks is proved by these cases. -/
inductive Looks (p : SerialPort) (x : Traced (Progress × SerialPort)) : Prop
  | shifts (item : BitQueue.Item) (found : p.queue.pop.1 = .item item) (more : p.transferredBits + 1 < 8)
      (same : x = ⟨(.idle, { p.taking with
        port := p.taking.port.shiftIn item.data
        cycleCount := 0
        transferredBits := p.transferredBits + 1
        phase := .armed }), [.clockedIn (item.data &&& 1)]⟩)
  | completes (item : BitQueue.Item) (found : p.queue.pop.1 = .item item) (last : ¬ p.transferredBits + 1 < 8)
      (same : x = ⟨(.completed, { p.taking with
        port := { p.taking.port.shiftIn item.data with
          control := p.port.control &&& ~~~Registers.transferBit }
        cycleCount := 0
        transferredBits := 0
        phase := .complete }),
        .clockedIn (item.data &&& 1) :: if p.interruptBased && p.hasListener then [.interrupted] else []⟩)
  | loses (found : p.queue.pop.1 = .closed) (same : x = do return (.idle, ← p.disable p.receiverError))
  | waits (found : p.queue.pop.1 = .empty) (same : x = pure (.blocked, p))

theorem looks_awaitBit (p : SerialPort) : p.Looks p.awaitBit := by
  cases found : p.queue.pop.1 with
  | item item =>
    rw [awaitBit_of_item found]
    by_cases more : p.transferredBits + 1 < 8
    · exact .shifts item found more (takeBit_of_more (p := p.taking) more _)
    · exact .completes item found more (takeBit_of_last (p := p.taking) more _)
  | closed =>
    refine .loses found ?_
    unfold awaitBit
    rw [show p.queue.pop = (.closed, p.queue.pop.2) by rw [← found]]
  | empty =>
    refine .waits found ?_
    unfold awaitBit
    rw [show p.queue.pop = (.empty, p.queue.pop.2) by rw [← found]]

/-- The bit of the peer is shifted in with one step, if it is there. -/
theorem step_awaitBit {p : SerialPort} {item : BitQueue.Item} (begun : p.phase = .exchanging)
    (found : p.queue.pop.1 = .item item) : Step p (deeds p.awaitBit.trace) p.awaitBit.value.2 := by
  cases p.looks_awaitBit with
  | shifts item found more same =>
    rw [same]
    exact .shift p item _ begun (BitQueue.items_pop found) more
  | completes item found last same =>
    have same_deeds : ∀ bit raised, deeds (.clockedIn bit :: if raised = true then [.interrupted] else []) =
        .clockedIn bit :: if raised = true then [.interrupted] else [] := by
      intro bit raised
      cases raised <;> rfl
    rw [same]
    simp only [same_deeds]
    exact .complete p item _ begun (BitQueue.items_pop found) last
  | loses other | waits other => cases found.symm.trans other

/-- A port that waits takes the first bit of the peer, or learns that none will come, or goes on
waiting. -/
theorem leads_awaitBit {p : SerialPort} (sound : p.toSession.Sound) (begun : p.phase = .exchanging) :
    p.Leads p.awaitBit := by
  cases p.looks_awaitBit with
  | shifts item found more same =>
    have step := step_awaitBit begun found
    rw [same] at step ⊢
    exact ⟨.one step, ⟨fun _ => sound.take.of_eq rfl rfl rfl, nofun⟩, Nat.le_refl _,
      ⟨nofun, fun h => absurd more h.2⟩, nofun⟩
  | completes item found last same =>
    have step := step_awaitBit begun found
    rw [same] at step ⊢
    refine ⟨.one step, ⟨fun _ => sound.take.of_eq rfl rfl rfl, nofun⟩, ?_, ⟨fun _ => ⟨?_, last⟩, fun _ => rfl⟩,
      fun _ => ⟨rfl, rfl⟩⟩
    · show (shifted (_ :: if (p.interruptBased && p.hasListener) = true then _ else _)).length ≤ 1
      cases p.interruptBased && p.hasListener <;> exact Nat.le_refl _
    · exact List.cons_ne_nil _ _
  | loses found same =>
    rw [same]
    exact leads_disable sound (sound.ordered.of_pop_closed found).1 p.receiverError
  | waits _ same =>
    rw [same]
    exact .quiet (.refl p) ⟨fun _ => sound, fun h => nomatch begun.symm.trans h⟩ rfl nofun

/-- How a bit is begun: in steps that leave the port waiting, with a sound session. -/
structure Begun (p : SerialPort) (x : Traced SerialPort) : Prop where
  steps : Steps p (deeds x.trace) x.value
  sound : x.value.toSession.Sound
  begun : x.value.phase = .exchanging
  silent : shifted x.trace = []
  bits : x.value.transferredBits = p.transferredBits
  vocal : offered x.trace ≠ [] → x.value.connection.established

/-- The port that has sent its bit. -/
def offering (pending : Bool) (p : SerialPort) : SerialPort :=
  { p with
    port := { p.port with pending }
    connection := (p.connection.send p.syncPacket).value.2 }

/-- A side that is driven puts no bit out. -/
theorem offerBit_of_driven {p : SerialPort} (driven : p.port.drivesClock = false) : p.offerBit = pure p := by
  unfold offerBit
  rw [driven]
  rfl

theorem offerBit_of_taken {p : SerialPort} (drives : p.port.drivesClock)
    (taken : (p.connection.send p.syncPacket).value.1 = true) :
    p.offerBit = ⟨p.offering true,
      (p.connection.send p.syncPacket).trace ++ [.clockedOut p.syncPacket]⟩ := by
  have same : (p.withRegisters fun r => { r with pending := true }).syncPacket = p.syncPacket := rfl
  unfold offerBit offering
  simp only [drives, same, Bool.not_true, Bool.false_eq_true, if_false]
  show Traced.mk _ _ = _
  simp only [withRegisters, taken, if_true]
  rfl

theorem offerBit_of_refused {p : SerialPort} (drives : p.port.drivesClock)
    (refused : (p.connection.send p.syncPacket).value.1 = false) :
    p.offerBit = ⟨p.withSession (p.offering false).toSession.close.value,
      (p.connection.send p.syncPacket).trace ++ (p.offering false).toSession.close.trace⟩ := by
  have same : (p.withRegisters fun r => { r with pending := true }).syncPacket = p.syncPacket := rfl
  unfold offerBit offering
  simp only [drives, same, Bool.not_true, Bool.false_eq_true, if_false]
  show Traced.mk _ _ = _
  simp only [withRegisters, refused, Bool.false_eq_true, if_false, Traced.trace_bind, Traced.trace_pure,
    List.append_nil]
  rfl

/-- A bit that goes out is clocked out. -/
theorem deeds_offering {p : SerialPort} (taken : (p.connection.send p.syncPacket).value.1 = true) :
    deeds ((p.connection.send p.syncPacket).trace ++ [.clockedOut p.syncPacket]) =
      [.sent p.syncPacket, .clockedOut p.syncPacket] := by
  rw [deeds_append, Connection.deeds_send, taken]
  rfl

/-- A bit is begun with one step, if this side does not drive the clock or its bit goes out. -/
theorem step_offerBit {p : SerialPort} (ready : p.phase = .armed) (due : p.isDue)
    (taken : p.port.drivesClock → (p.connection.send p.syncPacket).value.1) :
    Step p (deeds { p with phase := .exchanging }.offerBit.trace) { p with phase := .exchanging }.offerBit.value := by
  cases drives : p.port.drivesClock with
  | false =>
    rw [offerBit_of_driven (p := { p with phase := .exchanging }) drives]
    exact .listen p ready due drives
  | true =>
    have taken := taken drives
    rw [offerBit_of_taken (p := { p with phase := .exchanging }) drives taken]
    exact deeds_offering taken ▸ .offer p ready due drives taken

/-- Whether this side drives the clock or not, and whether its bit goes out or not, it then waits. -/
theorem begun_offerBit {p : SerialPort} (sound : p.toSession.Sound) (ready : p.phase = .armed)
    (due : p.isDue) : p.Begun { p with phase := .exchanging }.offerBit := by
  have sent := sound.send p.syncPacket
  have deeds_eq := Connection.deeds_send p.syncPacket p.connection
  cases drives : p.port.drivesClock with
  | false =>
    have step := step_offerBit ready due fun h => by rw [drives] at h; cases h
    rw [offerBit_of_driven (p := { p with phase := .exchanging }) drives] at step ⊢
    exact ⟨.one step, sound.of_eq rfl rfl rfl, rfl, rfl, rfl, fun h => absurd rfl h⟩
  | true =>
    cases taken : (p.connection.send p.syncPacket).value.1 with
    | true =>
      have step := step_offerBit ready due fun _ => taken
      rw [offerBit_of_taken (p := { p with phase := .exchanging }) drives taken] at step ⊢
      refine ⟨.one step, sent.of_eq rfl rfl rfl, rfl, ?_, rfl, fun _ => ?_⟩
      · exact (shifted_deeds _).symm.trans (congrArg shifted (deeds_offering taken))
      · exact (Connection.established_send _ _).trans (Connection.established_of_send taken)
    | false =>
      rw [taken] at deeds_eq
      rw [offerBit_of_refused (p := { p with phase := .exchanging }) drives taken]
      -- The connection is closed for that, and the receiver, which was at rest, finds the end.
      have closing : Session.Sound (offering false { p with phase := .exchanging }).toSession :=
        sent.of_eq rfl rfl rfl
      have trace : deeds ((p.connection.send p.syncPacket).trace ++
          (offering false { p with phase := .exchanging }).toSession.close.trace) =
            [.refused p.syncPacket] := by
        rw [deeds_append, deeds_eq, closing.deeds_close]
        rfl
      have moves : Session.Moves
          { (offering false { p with phase := .exchanging }).toSession with
            connection := (p.connection.send p.syncPacket).value.2.close }
          (deeds (offering false { p with phase := .exchanging }).toSession.close.trace)
          (offering false { p with phase := .exchanging }).toSession.close.value :=
        Session.moves_pump _
      rw [closing.deeds_close] at moves
      refine ⟨?_, closing.close, rfl, ?_, rfl, fun h => absurd ?_ h⟩
      · exact trace ▸ .step (.fail p ready due drives) (.of_moves moves)
      · exact (shifted_deeds _).symm.trans (congrArg shifted trace)
      · exact (offered_deeds _).symm.trans (congrArg offered trace)

/-- A bit is begun, and then the port waits for that of the peer. -/
theorem leads_exchange {p : SerialPort} (sound : p.toSession.Sound) (ready : p.phase = .armed)
    (due : p.isDue) : p.Leads p.exchange := by
  obtain ⟨steps, sound, begun, silent, bits, _⟩ := begun_offerBit sound ready due
  have waiting := Step.wait _ begun
  refine .after (steps.trans (.one waiting)) ?_ bits (leads_awaitBit (sound.of_eq rfl rfl rfl) begun) ?_ rfl
  · rw [List.append_nil, shifted_deeds, silent]
  · rw [List.append_nil, exchange, Traced.trace_bind, deeds_append]

/-! ### Whole acts -/

/-- A port that can let cycles pass has a link. -/
theorem linked_of_ready {p : SerialPort} (ready : p.phase = .armed ∨ p.phase = .complete) :
    p.phase ≠ .disabled := by
  rcases ready with h | h <;> rw [h] <;> decide

/-- When cycles pass the port is armed, also if it has just finished a byte. -/
theorem phase_elapse {p : SerialPort} (ready : p.phase = .armed ∨ p.phase = .complete) (cycles : UInt32) :
    (p.elapse cycles).phase = .armed := by
  rcases ready with h | h <;> simp [elapse, h]

/-- What a tick can come to; what is proved of ticks is proved by these cases. -/
inductive Ticks (p : SerialPort) (cycles : UInt32) (x : Traced (Progress × SerialPort)) : Prop
  | unlinked (phase : p.phase = .disabled)
      (same : x = pure (.idle, p.withRegisters fun r => { r with data := 0xff }))
  | blocked (phase : p.phase = .exchanging) (same : x = pure (.blocked, p))
  /-- Nothing is left in the queue and nothing more will come. -/
  | loses (ready : p.phase = .armed ∨ p.phase = .complete) (exhausted : p.queue.isExhausted = true)
      (same : x = do return (.idle, ← p.disable p.receiverError))
  | exchanges (ready : p.phase = .armed ∨ p.phase = .complete) (more : p.queue.isExhausted = false)
      (due : (p.elapse cycles).isDue = true) (same : x = (p.elapse cycles).exchange)
  | passes (ready : p.phase = .armed ∨ p.phase = .complete) (more : p.queue.isExhausted = false)
      (early : (p.elapse cycles).isDue = false) (same : x = pure (.idle, p.elapse cycles))

theorem ticks_tick (cycles : UInt32) (p : SerialPort) : p.Ticks cycles (p.tick cycles) := by
  have going : p.phase = .armed ∨ p.phase = .complete →
      p.Ticks cycles (if p.queue.isExhausted then (do return (.idle, ← p.disable p.receiverError))
        else if (p.elapse cycles).isDue then (p.elapse cycles).exchange
        else return (.idle, p.elapse cycles)) := by
    intro ready
    split
    · next exhausted => exact .loses ready exhausted rfl
    · next more =>
      split
      · next due => exact .exchanges ready ((Bool.not_eq_true _).mp more) due rfl
      · next early => exact .passes ready ((Bool.not_eq_true _).mp more) ((Bool.not_eq_true _).mp early) rfl
  unfold tick
  cases phase : p.phase with
  | disabled => exact .unlinked phase rfl
  | exchanging => exact .blocked phase rfl
  | armed => exact going (.inl phase)
  | complete => exact going (.inr phase)

/-- Letting cycles pass. -/
theorem leads_tick {p : SerialPort} (sound : p.Sound) (cycles : UInt32) : p.Leads (p.tick cycles) := by
  cases p.ticks_tick cycles with
  | unlinked phase same =>
    rw [same]
    obtain ⟨stopped, drained⟩ := sound.unlinked phase
    exact .quiet (.one (.idle p phase)) ⟨fun h => absurd phase h, fun _ => ⟨stopped, drained⟩⟩ rfl nofun
  | blocked _ same =>
    rw [same]
    exact .quiet (.refl p) sound rfl nofun
  | loses ready exhausted same =>
    rw [same]
    have session := sound.linked (linked_of_ready ready)
    exact leads_disable session ((BitQueue.isExhausted_iff session.ordered).mp exhausted).2 _
  | exchanges ready _ due same =>
    rw [same]
    have still : (p.elapse cycles).toSession.Sound := (sound.linked (linked_of_ready ready)).of_eq rfl rfl rfl
    exact .after (.one (.pass p cycles ready)) rfl rfl (leads_exchange still (phase_elapse ready cycles) due) rfl rfl
  | passes ready _ _ same =>
    rw [same]
    have still : (p.elapse cycles).toSession.Sound := (sound.linked (linked_of_ready ready)).of_eq rfl rfl rfl
    exact .quiet (.one (.pass p cycles ready))
      ⟨fun _ => still, fun h => nomatch (phase_elapse ready cycles).symm.trans h⟩ rfl nofun

/-- Looking for the bit of the peer again. -/
theorem leads_resume {p : SerialPort} (sound : p.Sound) : p.Leads p.resume := by
  unfold resume
  split
  · next begun => exact leads_awaitBit (sound.linked (begun ▸ nofun)) begun
  · exact .quiet (.refl p) sound rfl nofun

/-- Giving up, which a port does only if there is no bit of the peer. -/
theorem leads_timeOut {p : SerialPort} (sound : p.Sound) (empty : p.queue.entries.isEmpty) :
    p.Leads (do return (.idle, ← p.timeOut)) := by
  unfold timeOut
  split
  · next begun =>
    have leads := leads_disable (sound.linked (begun ▸ nofun)) (BitQueue.items_of_isEmpty empty)
      .transferTimeout
    exact .after (.refl p) rfl rfl leads rfl rfl
  · exact .quiet (.refl p) sound rfl nofun

/-- What comes from the peer is dealt with by the receiver. -/
theorem moves_arrive (segment : Tcp.Segment) (p : SerialPort) :
    Session.Moves { p.toSession with connection := p.connection.arrive segment }
      (deeds (p.arrive segment).trace) (p.arrive segment).value.toSession := by
  have moves := Session.moves_pump { p.toSession with connection := p.connection.arrive segment }
  rw [arrive, Traced.trace_bind, deeds_append, Traced.trace_pure, deeds_nil, List.append_nil]
  exact moves

/-- Something comes from the peer. -/
theorem leads_arrive {p : SerialPort} (sound : p.Sound) (segment : Tcp.Segment) :
    p.Leads (do return (.idle, ← p.arrive segment)) := by
  have came := Step.connection p (p.connection.arrive segment) (Connection.role_arrive _ _)
    (fun h => (Connection.established_arrive _ _).symm.trans h)
  have moves := moves_arrive segment p
  have trace : deeds (p.arrive segment >>= fun q => pure (Progress.idle, q)).trace =
      deeds (p.arrive segment).trace := by
    rw [Traced.trace_bind, deeds_append]
    exact List.append_nil _
  refine .quiet ?_ ⟨?_, ?_⟩ ?_ nofun
  · exact trace ▸ .step came (.of_moves moves)
  · exact fun linked => (sound.linked linked).pump rfl rfl (Connection.established_arrive _ _)
  · intro unlinked
    -- Without a link the receiver does not run, so that what comes is left alone.
    obtain ⟨stopped, drained⟩ := sound.unlinked unlinked
    have same := (moves.eq_of_stopped stopped).2
    exact ⟨(congrArg (·.receiver.running) same).trans stopped,
      (congrArg (·.queue.items) same).trans drained⟩
  · rw [← shifted_deeds, trace]
    exact shifted_of_traffic moves.traffic

end SerialLink.SerialPort
