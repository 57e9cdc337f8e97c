import SerialLink.Proofs.Plug

/-!
# How a link is given up

The machine and the receiver are at work at the same time, and neither waits until the other is done.  A
`Schedule.Step` is what one of them does, or what comes from the peer.  The receiver looks for a packet, handles it,
sends the answer, and ends if there is a reason to.  The machine lets cycles pass, begins a bit, waits for that of the
peer and takes it; it gives the link up when the wait has expired, or when nothing is left in the queue and nothing
will come (`Schedule.GivesUp`).  That takes several steps as well: it closes the connection, waits until the receiver
has ended, and has lost the link only then.  Until then the receiver may still handle packets.

If nobody comes in between, the steps amount to what the port does in one piece (`Schedule.Run.perform`), and so every
run of a link is a schedule (`Schedule.Run.run`).
-/

namespace SerialLink.Schedule

open Event
open SerialPort (Act)

/-! ### The state -/

/-- What the machine is about to do with the link. -/
inductive Machine
  | staying
  /-- It has found that it must give the link up. -/
  | leaving (reason : Failure)
  /-- It has closed the connection, and waits until the receiver has ended. -/
  | joining (reason : Failure)
  deriving DecidableEq, Inhabited, Repr

/-- How far the receiver has come. -/
inductive Reader
  | idle
  | read (packet : Packet)
  /-- The packet was handled, and only the answer is to be sent, if there is one. -/
  | handled (reply : Option Packet) (failure : Option Failure)
  /-- It has found a reason to end. -/
  | ending (reason : Failure)
  deriving DecidableEq, Inhabited, Repr

namespace Reader

/-- How the receiver goes on after a look at the connection. -/
def ofArrival (established : Bool) : Connection.Arrival → Reader
  | .packet packet => .read packet
  | .failure reason => .ending (if established then reason else .connectionTerminated)
  | .waiting => .idle

/-- How the receiver goes on after the answer to a packet. -/
def ofAnswer (answered : Bool) (failure : Option Failure) : Reader :=
  if !answered then .ending .connectionTerminated
  else
    match Session.isFatal failure with
    | some reason => .ending reason
    | none => .idle

end Reader

/-- The port, and how far the two have come with it. -/
structure State where
  port : SerialPort
  machine : Machine := .staying
  reader : Reader := .idle

/-- The machine has stopped waiting, and is about to give the link up. -/
def State.leave (reason : Failure) (s : State) : State :=
  { s with
    port := s.port.withRegisters fun r => { r with waiting := false }
    machine := .leaving reason }

/-! ### Steps -/

/-- What the machine does with a port while it has no reason to give the link up. -/
inductive Works (p : SerialPort) : List Event → SerialPort → Prop
  | idle (unlinked : p.phase = .disabled) : Works p [] (p.withRegisters fun r => { r with data := 0xff })
  | pass (cycles : UInt32) (ready : p.phase = .armed ∨ p.phase = .complete)
      (going : p.queue.isExhausted = false) : Works p [] (p.elapse cycles)
  /-- A bit is begun.  A side that drives the clock sends its own. -/
  | begin (ready : p.phase = .armed) (due : p.isDue)
      (taken : p.port.drivesClock → (p.connection.send p.syncPacket).value.1) :
      Works p (deeds (SerialPort.offerBit { p with phase := .exchanging }).trace)
        (SerialPort.offerBit { p with phase := .exchanging }).value
  /-- A connection that does not take the bit is closed. -/
  | fail (ready : p.phase = .armed) (due : p.isDue) (drives : p.port.drivesClock)
      (refused : (p.connection.send p.syncPacket).value.1 = false) :
      Works p [.refused p.syncPacket] { p.offering false with
        phase := .exchanging
        connection := (p.offering false).connection.close }
  | wait (begun : p.phase = .exchanging) : Works p [] (p.withRegisters fun r => { r with waiting := true })
  /-- The bit of the peer is taken out of the queue and shifted in. -/
  | take (item : BitQueue.Item) (begun : p.phase = .exchanging) (found : p.queue.pop.1 = .item item) :
      Works p (deeds p.awaitBit.trace) p.awaitBit.value.2

/-- For what reason the machine gives the link up. -/
inductive GivesUp (p : SerialPort) : Failure → Prop
  /-- The wait for a bit has expired. -/
  | expired (begun : p.phase = .exchanging) (bounded : p.transferTimeout ≠ 0) (empty : p.queue.entries.isEmpty) :
      GivesUp p .transferTimeout
  /-- There is no bit to wait for. -/
  | deserted (begun : p.phase = .exchanging) (found : p.queue.pop.1 = .closed) : GivesUp p p.receiverError
  /-- No cycles are let pass when nothing is left and nothing will come. -/
  | exhausted (ready : p.phase = .armed ∨ p.phase = .complete) (exhausted : p.queue.isExhausted) :
      GivesUp p p.receiverError

/-- What is done at a time, in any order, with the deeds by which it shows in the history. -/
inductive Step : State → List Event → State → Prop
  -- The machine.
  | access (s : State) (act : Act) (staying : s.machine = .staying) (free : s.port.phase ≠ .exchanging)
      (access : act.isAccess) : Step s [] { s with port := (s.port.perform act).value.2 }
  | work (s : State) {h : List Event} {q : SerialPort} (staying : s.machine = .staying) (works : Works s.port h q) :
      Step s h { s with port := q }
  | giveUp (s : State) (reason : Failure) (staying : s.machine = .staying) (givesUp : GivesUp s.port reason) :
      Step s [] (s.leave reason)
  | hangUp (s : State) (reason : Failure) (leaving : s.machine = .leaving reason) :
      Step s [] { s with
        port := { s.port with connection := s.port.connection.close }
        machine := .joining reason }
  /-- The receiver has ended. -/
  | join (s : State) (reason : Failure) (joining : s.machine = .joining reason) (idle : s.reader = .idle)
      (ended : s.port.receiver.running = false) :
      Step s [] { s with port := s.port.lost (s.port.lastError <|> some reason), machine := .staying }
  -- The receiver.
  | look (s : State) (idle : s.reader = .idle) (working : s.port.receiver.running) :
      Step s [] { s with
        port := { s.port with connection := s.port.connection.receive.value.2 }
        reader := .ofArrival s.port.connection.receive.value.2.established s.port.connection.receive.value.1 }
  | handle (s : State) (packet : Packet) (o : Protocol.Outcome Registers) (read : s.reader = .read packet)
      (outcome : o = (s.port.toSession.outcome packet).value) :
      Step s [.handled packet o.reply] { s with
        port := s.port.withSession (s.port.toSession.handled packet o)
        reader := .handled o.reply o.failure }
  | answer (s : State) (reply : Option Packet) (failure : Option Failure) (handled : s.reader = .handled reply failure) :
      Step s (deeds (s.port.connection.answer reply).trace) { s with
        port := { s.port with connection := (s.port.connection.answer reply).value.2 }
        reader := .ofAnswer (s.port.connection.answer reply).value.1 failure }
  | finish (s : State) (reason : Failure) (ending : s.reader = .ending reason) :
      Step s [] { s with port := s.port.withSession (s.port.toSession.finish reason).value, reader := .idle }
  -- The peer and the operating system.
  | arrive (s : State) (segment : Tcp.Segment) :
      Step s [] { s with port := { s.port with connection := s.port.connection.arrive segment } }
  | turn (s : State) (host : Tcp.Host) :
      Step s [] { s with port := { s.port with connection := { s.port.connection with host } } }

/-- Any number of steps. -/
inductive Run (first : State) : List Event → State → Prop
  | nothing : Run first [] first
  | step {h k : List Event} {s t : State} (before : Run first h s) (step : Step s k t) : Run first (h ++ k) t

variable {s t u : State} {h k : List Event}

theorem Run.trans (before : Run s h t) (after : Run t k u) : Run s (h ++ k) u := by
  induction after with
  | nothing =>
    rw [List.append_nil]
    exact before
  | step _ step ih =>
    rw [← List.append_assoc]
    exact .step ih step

theorem Run.one (step : Step s h t) : Run s h t := .step .nothing step

/-! ### The receiver alone -/

variable {p : SerialPort} {m : Machine}

/-- After an answer the receiver goes on, or it ends. -/
theorem Run.proceed (answered : Bool) (failure : Option Failure) (p : SerialPort) (m : Machine) :
    Run ⟨p, m, .ofAnswer answered failure⟩ []
      ⟨p.withSession (p.toSession.proceed answered failure).value, m, .idle⟩ := by
  unfold Session.proceed Reader.ofAnswer
  cases answered with
  | false => exact .one (.finish ⟨p, m, .ending .connectionTerminated⟩ _ rfl)
  | true =>
    cases Session.isFatal failure with
    | none => exact .nothing
    | some reason => exact .one (.finish ⟨p, m, .ending reason⟩ _ rfl)

/-- A packet that was read is handled, and the answer is sent. -/
theorem Run.takePacket (packet : Packet) (p : SerialPort) (m : Machine) :
    Run ⟨p, m, .read packet⟩ (deeds (p.toSession.takePacket packet).trace)
      ⟨p.withSession (p.toSession.takePacket packet).value, m, .idle⟩ := by
  have quiet : deeds (p.toSession.outcome packet).trace = [] := Protocol.deeds_handle _ _ _ _ _
  have handles := Run.one (.handle ⟨p, m, .read packet⟩ packet _ rfl rfl)
  have answers := handles.step (.answer _ _ _ rfl)
  have whole := answers.trans (.proceed _ _ _ m)
  unfold Session.takePacket
  simp only [Traced.trace_bind, Traced.value_bind, deeds_append, quiet, List.nil_append, Session.deeds_proceed]
  exact whole

/-- **What the receiver does without anybody coming in between is one look at the connection.** -/
theorem Run.receiveNext (p : SerialPort) (m : Machine) :
    Run ⟨p, m, .idle⟩ (deeds p.toSession.receiveNext.trace)
      ⟨p.withSession p.toSession.receiveNext.value.2, m, .idle⟩ := by
  have quiet := Connection.deeds_receive p.connection
  unfold Session.receiveNext
  cases working : p.receiver.running with
  | false => exact .nothing
  | true =>
    have looks := Run.one (.look ⟨p, m, .idle⟩ rfl working)
    rw [if_neg (by decide)]
    simp only [Traced.trace_bind, Traced.value_bind, deeds_append, quiet, List.nil_append]
    -- What was read decides: a packet is handled, a failure ends the receiver, and else it waits.
    cases arrival : p.connection.receive.value.1 with
    | packet packet =>
      rw [arrival] at looks
      have takes := looks.trans (.takePacket packet _ m)
      simp only [Traced.trace_bind, Traced.value_bind, Traced.trace_pure, Traced.value_pure, List.append_nil]
      exact takes
    | failure given =>
      rw [arrival] at looks
      exact looks.step (.finish _ _ rfl)
    | waiting =>
      rw [arrival] at looks
      exact looks

theorem Run.pumpUpTo (bound : Nat) (p : SerialPort) (m : Machine) :
    Run ⟨p, m, .idle⟩ (deeds (p.toSession.pumpUpTo bound).trace)
      ⟨p.withSession (p.toSession.pumpUpTo bound).value, m, .idle⟩ := by
  induction bound generalizing p with
  | zero => exact .nothing
  | succ bound ih =>
    -- One turn is a look, and what is left is the loop with the smaller bound.
    have looks := Run.receiveNext p m
    rw [Session.pumpUpTo_succ, Traced.trace_bind, Traced.value_bind, deeds_append]
    split
    · exact looks.trans (ih _)
    · rw [Traced.trace_pure, deeds_nil, List.append_nil]
      exact looks

/-- Whatever has come, the receiver deals with it. -/
theorem Run.pump (p : SerialPort) (m : Machine) :
    Run ⟨p, m, .idle⟩ (deeds p.toSession.pump.trace) ⟨p.withSession p.toSession.pump.value, m, .idle⟩ :=
  .pumpUpTo _ p m

/-! ### The machine alone -/

/-- A link keeps the receiver that was started for it. -/
def Attended (p : SerialPort) : Prop := p.phase ≠ .disabled → p.receiver.started

theorem Attended.step {q : SerialPort} (attended : Attended p) (step : SerialPort.Step p h q) : Attended q := by
  intro linked
  cases step with
  | receiver move =>
    have same := move.kept.started
    exact same.trans (attended linked)
  | idle unlinked => exact absurd unlinked linked
  | pass _ ready => exact attended (SerialPort.linked_of_ready ready)
  | listen ready | offer ready | fail ready => exact attended (by rw [ready]; decide)
  | shift _ _ begun | complete _ _ begun => exact attended (by rw [begun]; decide)
  | lose => exact absurd rfl linked
  | connection | wait => exact attended linked

theorem Attended.steps {q : SerialPort} (attended : Attended p) (steps : SerialPort.Steps p h q) : Attended q := by
  induction steps with
  | refl => exact attended
  | step one _ ih => exact ih (attended.step one)

/-- Whether the machine has waited is forgotten when the link is lost, and the receiver that ends does not ask. -/
theorem disable_eq_lost (sound : p.toSession.Sound) (started : p.receiver.started) (reason : Failure) :
    (p.disable reason).value = SerialPort.lost (p.lastError <|> some reason)
      (p.withSession (Session.close { p.toSession with port.waiting := false }).value) := by
  have waited : p.toSession.close.value = { p.toSession.close.value with port := p.port } := sound.close_with p.port
  have stopped := sound.close_with { p.port with waiting := false }
  rw [SerialPort.disable_eq, if_pos started, waited, stopped]
  rfl

/-- A machine that gives the link up loses it, and no packet is handled on the way if the receiver had dealt with all
that had come. -/
theorem Run.giveUp {reason : Failure} (sound : p.toSession.Sound) (started : p.receiver.started)
    (givesUp : GivesUp p reason) : Run ⟨p, .staying, .idle⟩ [] ⟨(p.disable reason).value, .staying, .idle⟩ := by
  have leaves := Run.one (.giveUp ⟨p, .staying, .idle⟩ reason rfl givesUp)
  have hangsUp := leaves.step (.hangUp _ reason rfl)
  have ends := Run.pump { p with connection := p.connection.close, port.waiting := false } (.joining reason)
  have quiet : deeds (Session.close { p.toSession with port.waiting := false }).trace = [] :=
    Session.Sound.deeds_close (sound.of_eq rfl rfl rfl)
  have stopped := Session.running_close { p.toSession with port.waiting := false }
  rw [disable_eq_lost sound started]
  exact (hangsUp.trans (quiet ▸ ends)).step (.join _ _ rfl rfl stopped)

/-- What the machine does for a bit of the peer is a look at the queue. -/
theorem Run.awaitBit (sound : p.toSession.Sound) (started : p.receiver.started) (begun : p.phase = .exchanging) :
    Run ⟨p, .staying, .idle⟩ (deeds p.awaitBit.trace) ⟨p.awaitBit.value.2, .staying, .idle⟩ := by
  have takes := fun item found => Run.one (.work ⟨p, .staying, .idle⟩ rfl (.take item begun found))
  cases p.looks_awaitBit with
  | shifts item found | completes item found => exact takes item found
  | loses found same =>
    rw [same, SerialPort.deeds_disable_idle sound]
    exact .giveUp sound started (.deserted begun found)
  | waits _ same =>
    rw [same]
    exact .nothing

/-- A bit is begun, and if it is not taken the receiver finds the end of the connection. -/
theorem Run.offerBit (ready : p.phase = .armed) (due : p.isDue) :
    Run ⟨p, .staying, .idle⟩ (deeds (SerialPort.offerBit { p with phase := .exchanging }).trace)
      ⟨(SerialPort.offerBit { p with phase := .exchanging }).value, .staying, .idle⟩ := by
  by_cases taken : p.port.drivesClock → (p.connection.send p.syncPacket).value.1
  · exact .one (.work ⟨p, .staying, .idle⟩ rfl (.begin ready due taken))
  · obtain ⟨drives, refused⟩ := Classical.not_imp.mp taken
    have refused : (p.connection.send p.syncPacket).value.1 = false := (Bool.not_eq_true _).mp refused
    have fails := Run.one (.work ⟨p, .staying, .idle⟩ rfl (.fail ready due drives refused))
    have sent := Connection.deeds_send p.syncPacket p.connection
    rw [refused] at sent
    have trace : deeds ((p.connection.send p.syncPacket).trace ++
        (SerialPort.offering false { p with phase := .exchanging }).toSession.close.trace) =
          [.refused p.syncPacket] ++
            deeds (SerialPort.offering false { p with phase := .exchanging }).toSession.close.trace := by
      rw [deeds_append, sent]
      rfl
    rw [SerialPort.offerBit_of_refused (p := { p with phase := .exchanging }) drives refused]
    exact trace ▸ fails.trans (.pump _ _)

/-- A bit that is due is exchanged. -/
theorem Run.exchange (sound : p.toSession.Sound) (attended : Attended p) (ready : p.phase = .armed)
    (due : p.isDue) :
    Run ⟨p, .staying, .idle⟩ (deeds p.exchange.trace) ⟨p.exchange.value.2, .staying, .idle⟩ := by
  obtain ⟨steps, sound, begun, _⟩ := SerialPort.begun_offerBit sound ready due
  have started := attended.steps steps (by rw [begun]; decide)
  have waits := (Run.offerBit ready due).step (.work _ rfl (.wait begun))
  rw [List.append_nil] at waits
  rw [SerialPort.exchange, Traced.trace_bind, deeds_append]
  exact waits.trans (.awaitBit (sound.of_eq rfl rfl rfl) started begun)

/-- Every tick. -/
theorem Run.tick (sound : p.Sound) (attended : Attended p) (free : p.phase ≠ .exchanging) (cycles : UInt32) :
    Run ⟨p, .staying, .idle⟩ (deeds (p.tick cycles).trace) ⟨(p.tick cycles).value.2, .staying, .idle⟩ := by
  cases p.ticks_tick cycles with
  | unlinked phase same =>
    rw [same]
    exact .one (.work _ rfl (.idle phase))
  | blocked phase => exact absurd phase free
  | loses ready exhausted same =>
    have linked := SerialPort.linked_of_ready ready
    rw [same, SerialPort.deeds_disable_idle (sound.linked linked)]
    exact .giveUp (sound.linked linked) (attended linked) (.exhausted ready exhausted)
  | exchanges ready going due same =>
    have session := sound.linked (SerialPort.linked_of_ready ready)
    have passes := Run.one (.work ⟨p, .staying, .idle⟩ rfl (.pass cycles ready going))
    rw [same]
    exact passes.trans (.exchange (session.of_eq rfl rfl rfl) (attended.step (.pass p cycles ready))
      (SerialPort.phase_elapse ready cycles) due)
  | passes ready going _ same =>
    rw [same]
    exact .one (.work _ rfl (.pass cycles ready going))

/-- A machine that gives up waiting finds the receiver at rest, if nobody comes in between. -/
theorem Run.timeOut (sound : p.Sound) (attended : Attended p) (possible : Act.timeOut.isPossible p) :
    Run ⟨p, .staying, .idle⟩ (deeds p.timeOut.trace) ⟨p.timeOut.value, .staying, .idle⟩ := by
  simp only [Act.isPossible, Bool.and_eq_true, beq_iff_eq, bne_iff_ne] at possible
  obtain ⟨⟨begun, bounded⟩, empty⟩ := possible
  have linked : p.phase ≠ .disabled := by rw [begun]; decide
  rw [SerialPort.timeOut, if_pos begun, Traced.trace_bind, deeds_append,
    SerialPort.deeds_disable (sound.linked linked)]
  exact .giveUp (sound.linked linked) (attended linked) (.expired begun bounded empty)

/-- What comes is dealt with by the receiver. -/
theorem Run.arrive (segment : Tcp.Segment) (p : SerialPort) (m : Machine) :
    Run ⟨p, m, .idle⟩ (deeds (p.arrive segment).trace) ⟨(p.arrive segment).value, m, .idle⟩ := by
  have comes := Run.one (.arrive ⟨p, m, .idle⟩ segment)
  have whole := comes.trans (.pump _ m)
  rw [SerialPort.arrive, Traced.trace_bind, deeds_append, Traced.trace_pure, deeds_nil, List.append_nil]
  exact whole

/-! ### Whole acts -/

/-- **Every act of a port is a schedule in which nobody comes in between.** -/
theorem Run.perform {act : Act} (possible : act.isPossible p) (sound : p.Sound) (attended : Attended p) :
    Run ⟨p, .staying, .idle⟩ (deeds (p.perform act).trace) ⟨(p.perform act).value.2, .staying, .idle⟩ := by
  cases access : act.isAccess with
  | true =>
    rw [(SerialPort.accessed_perform access p).1]
    have free : p.phase ≠ .exchanging := by
      cases act with
      | writeData | writeControl | write | reset | load | loadTree => exact bne_iff_ne.mp possible
      | _ => cases access
    exact .one (.access ⟨p, .staying, .idle⟩ act rfl free access)
  | false =>
    cases act with
    | tick cycles => exact .tick sound attended (bne_iff_ne.mp possible) cycles
    | resume =>
      have begun : p.phase = .exchanging := eq_of_beq possible
      have linked : p.phase ≠ .disabled := by rw [begun]; decide
      show Run _ (deeds p.resume.trace) ⟨p.resume.value.2, .staying, .idle⟩
      rw [SerialPort.resume, if_pos begun]
      exact .awaitBit (sound.linked linked) (attended linked) begun
    | timeOut =>
      show Run _ (deeds (p.timeOut.trace ++ [])) ⟨p.timeOut.value, .staying, .idle⟩
      rw [List.append_nil]
      exact .timeOut sound attended possible
    | arrive segment =>
      show Run _ (deeds ((p.arrive segment).trace ++ [])) ⟨(p.arrive segment).value, .staying, .idle⟩
      rw [List.append_nil]
      exact .arrive segment p .staying
    | turn host => exact .one (.turn ⟨p, .staying, .idle⟩ host)
    | _ => cases access

theorem Attended.accessed {q : SerialPort} (attended : Attended p) (accessed : p.Accessed q) : Attended q := by
  intro linked
  rw [accessed.receiver]
  exact attended (mt accessed.unlinked.mpr linked)

theorem Attended.perform {act : Act} (attended : Attended p) (possible : act.isPossible p) (sound : p.Sound) :
    Attended (p.perform act).value.2 := by
  cases access : act.isAccess with
  | true => exact attended.accessed (SerialPort.accessed_perform access p).2
  | false => exact attended.steps (SerialPort.leads_perform access possible sound).steps

/-- So is every run of a port. -/
theorem Run.run {acts : List Act} (can : p.canRun acts) (sound : p.Sound) (attended : Attended p) :
    Run ⟨p, .staying, .idle⟩ (deeds (p.run acts).trace) ⟨(p.run acts).value, .staying, .idle⟩ := by
  induction acts generalizing p with
  | nil => exact .nothing
  | cons act rest ih =>
    obtain ⟨possible, can⟩ := Bool.and_eq_true _ _ ▸ can
    have more := ih can (SerialPort.sound_perform possible sound) (attended.perform possible sound)
    rw [SerialPort.run, Traced.trace_bind, deeds_append]
    exact (Run.perform possible sound attended).trans more

theorem attended_made {l : Link} (enabled : l.made.value.isEnabled) : Attended l.made.value := by
  obtain ⟨_, made, value⟩ := Link.made_spec enabled
  obtain ⟨_, _, fresh, moves, _⟩ := made
  rw [value]
  exact Attended.accessed (fun _ => moves.kept.started.trans fresh.started) (SerialPort.accessed_reset _)

/-- **Every run of a link is a schedule in which nobody comes in between.** -/
theorem Run.link {acts : List Act} {l : Link} (can : l.canRun acts) :
    Run { port := l.made.value } (deeds (l.made.value.run acts).trace) { port := (l.run acts).value } := by
  obtain ⟨enabled, can⟩ := Bool.and_eq_true _ _ ▸ can
  exact .run can (Link.sound_made enabled) (attended_made enabled)

/-! ### What schedules keep -/

/-- What every step keeps is kept by all of them. -/
theorem Run.preserves {Inv : List Event → State → Prop}
    (step : ∀ g s k t, Step s k t → Inv g s → Inv (g ++ k) t) {g : List Event} (run : Run s h t)
    (start : Inv g s) : Inv (g ++ h) t := by
  induction run with
  | nothing =>
    rw [List.append_nil]
    exact start
  | step _ one ih =>
    rw [← List.append_assoc]
    exact step _ _ _ _ one ih

end SerialLink.Schedule
