import SerialLink.Proofs.Queue
import SerialLink.Proofs.Receiver

/-!
# Sound sessions

A session is `Session.Sound` if the receiver has dealt with all that has come: it runs exactly as long as
the connection is established and the queue is open, and as long as it runs no whole packet is unread.
Whatever comes, the receiver makes the session sound again (`Session.Sound.pump`).  Closing the connection of
a sound session ends the receiver at once, and no packet is handled on the way (`Session.Sound.close`).
-/

namespace SerialLink.Session

open Event Tcp

/-! ### What a move keeps -/

/-- What the receiver leaves alone. -/
structure Kept (s t : Session Registers) : Prop where
  data : t.port.data = s.port.data
  control : t.port.control = s.port.control
  role : t.connection.role = s.connection.role
  started : t.receiver.started = s.receiver.started

theorem Kept.refl (s : Session Registers) : s.Kept s := ⟨rfl, rfl, rfl, rfl⟩

theorem Kept.trans {s t u : Session Registers} (first : s.Kept t) (second : t.Kept u) : s.Kept u :=
  ⟨second.data.trans first.data, second.control.trans first.control, second.role.trans first.role,
    second.started.trans first.started⟩

theorem role_answer (reply : Option Packet) (c : Connection) :
    (c.answer reply).value.2.role = c.role := by
  rcases Connection.answer_eq reply c with h | ⟨packet, h⟩
  · rw [h]
  · rw [h, Connection.role_send]

theorem established_answer (reply : Option Packet) (c : Connection) :
    (c.answer reply).value.2.established = c.established := by
  rcases Connection.answer_eq reply c with h | ⟨packet, h⟩
  · rw [h]
  · rw [h, Connection.established_send]

theorem Move.kept {s t : Session Registers} {h : List Event} (move : Move s h t) : s.Kept t := by
  cases move with
  | read | finish => exact ⟨rfl, rfl, rfl, rfl⟩
  | take packet =>
    -- Of the port only what is kept for answers changes.
    have port : (s.outcome packet).value.port.data = s.port.data ∧
        (s.outcome packet).value.port.control = s.port.control := by
      cases hs : packet.isSync with
      | false => rw [port_outcome_of_not_isSync packet s hs]; exact ⟨rfl, rfl⟩
      | true =>
        rw [port_outcome packet s hs]
        split
        · exact ⟨rfl, rfl⟩
        · exact ⟨Registers.data_takeAnswer _, Registers.control_takeAnswer _⟩
    exact ⟨port.1, port.2, role_answer _ _, rfl⟩

theorem Moves.kept {s t : Session Registers} {h : List Event} (moves : Moves s h t) : s.Kept t := by
  induction moves with
  | refl => exact .refl _
  | step move _ ih => exact move.kept.trans ih

/-- A receiver that is started keeps the role of its connection. -/
theorem role_start (s : Session Registers) : s.start.value.2.connection.role = s.connection.role := by
  have sent := Connection.role_send (Packet.version 0) s.connection
  have pumped := (moves_pump { s with
    receiver := { started := true, running := true }
    connection := (s.connection.send (Packet.version 0)).value.2 }).kept.role
  unfold start
  split
  · rfl
  · rw [Traced.value_bind]
    dsimp only
    split
    · exact pumped.trans sent
    · exact sent

/-- An answer is a packet that goes out, or does not. -/
theorem traffic_answer (reply : Option Packet) (c : Connection) :
    ∀ event ∈ deeds (c.answer reply).trace, event.isTraffic := by
  rw [Connection.deeds_answer]
  intro event mem
  obtain ⟨packet, _, rfl⟩ := List.mem_map.mp mem
  split <;> rfl

theorem Move.traffic {s t : Session Registers} {h : List Event} (move : Move s h t) :
    ∀ event ∈ h, event.isTraffic := by
  cases move with
  | read | finish => exact nofun
  | take packet =>
    intro event mem
    rcases List.mem_cons.mp mem with rfl | mem
    · rfl
    · exact traffic_answer _ _ event mem

/-- The receiver does nothing but handle packets and answer them. -/
theorem Moves.traffic {s t : Session Registers} {h : List Event} (moves : Moves s h t) :
    ∀ event ∈ h, event.isTraffic := by
  induction moves with
  | refl => exact nofun
  | step move _ ih =>
    intro event mem
    rcases List.mem_append.mp mem with mem | mem
    · exact move.traffic event mem
    · exact ih event mem

/-- A receiver that does not run makes no move. -/
theorem Moves.eq_of_stopped {s t : Session Registers} {h : List Event} (moves : Moves s h t)
    (stopped : s.receiver.running = false) : h = [] ∧ t = s := by
  cases moves with
  | refl => exact ⟨rfl, rfl⟩
  | step move _ =>
    -- Every move is one of a receiver that runs.
    have working : s.receiver.running = true := by cases move <;> assumption
    rw [stopped] at working
    cases working

/-! ### Whether the receiver runs -/

/-- The receiver runs exactly as long as the queue is open. -/
structure Orderly (s : Session Registers) : Prop where
  ordered : s.queue.Ordered
  closed : s.queue.closed = !s.receiver.running

/-- Handling a packet leaves a session orderly. -/
theorem Orderly.handled {s : Session Registers} (orderly : s.Orderly) (packet : Packet) :
    (s.handled packet (s.outcome packet).value).Orderly := by
  obtain ⟨ordered, closed⟩ := orderly
  have queue := queue_outcome packet s
  constructor
  · show (s.outcome packet).value.queue.Ordered
    rw [queue]
    split
    · exact ordered.push _
    · exact ordered
  · show (s.outcome packet).value.queue.closed = !s.receiver.running
    rw [queue, ← closed]
    split
    · exact BitQueue.closed_push _ _
    · rfl

theorem Move.orderly {s t : Session Registers} {h : List Event} (move : Move s h t)
    (orderly : s.Orderly) : t.Orderly := by
  cases move with
  | read => exact ⟨orderly.ordered, orderly.closed⟩
  | finish => exact ⟨orderly.ordered.close, BitQueue.closed_close _⟩
  | take packet =>
    have handled := orderly.handled packet
    exact ⟨handled.ordered, handled.closed⟩

theorem Moves.orderly {s t : Session Registers} {h : List Event} (moves : Moves s h t)
    (orderly : s.Orderly) : t.Orderly :=
  moves.keeps (fun _ _ _ move => move.orderly) orderly

/-- A receiver that runs puts every bit that comes into the queue. -/
theorem Orderly.items_handled {s : Session Registers} (orderly : s.Orderly) (working : s.receiver.running)
    (packet : Packet) (reply : Option Packet) :
    (s.handled packet (s.outcome packet).value).queue.items =
      s.queue.items ++ arrived [.handled packet reply] := by
  have came : arrived [.handled packet reply] = if packet.isSync then [Protocol.itemOf packet] else [] := by
    cases bit : packet.isSync <;> simp [arrived, bit]
  rw [came]
  show (s.outcome packet).value.queue.items = _
  rw [queue_outcome]
  cases packet.isSync with
  | false => exact (List.append_nil _).symm
  | true =>
    rw [if_pos rfl, if_pos rfl, BitQueue.items_push, orderly.closed, working]
    rfl

/-- An answer brings nothing. -/
theorem arrived_answer (reply : Option Packet) (c : Connection) :
    arrived (deeds (c.answer reply).trace) = [] :=
  Connection.filterMap_answer (fun _ => rfl) (fun _ => rfl) reply c

theorem Move.items {s t : Session Registers} {h : List Event} (move : Move s h t)
    (orderly : s.Orderly) : t.queue.items = s.queue.items ++ arrived h := by
  cases move with
  | read => exact (List.append_nil _).symm
  | finish => exact (BitQueue.items_close _).trans (List.append_nil _).symm
  | take packet working =>
    rw [← List.singleton_append, arrived_append, arrived_answer, List.append_nil]
    exact orderly.items_handled working packet _

theorem Moves.items {s t : Session Registers} {h : List Event} (moves : Moves s h t)
    (orderly : s.Orderly) : t.queue.items = s.queue.items ++ arrived h := by
  induction moves with
  | refl => exact (List.append_nil _).symm
  | step move _ ih =>
    rw [ih (move.orderly orderly), move.items orderly, arrived_append, List.append_assoc]

/-- As far as a receiver runs, so far the connection is established; closing it is how the receiver
ends. -/
theorem Move.established {s t : Session Registers} {h : List Event} (move : Move s h t)
    (same : s.connection.established = s.receiver.running) :
    t.connection.established = t.receiver.running := by
  cases move with
  | read => exact same
  | finish => rfl
  | take => exact (established_answer _ _).trans same

theorem Moves.established {s t : Session Registers} {h : List Event} (moves : Moves s h t)
    (same : s.connection.established = s.receiver.running) :
    t.connection.established = t.receiver.running :=
  moves.keeps (fun _ _ _ move => move.established) same

/-- A connection that is not established does not become so. -/
theorem Move.not_established {s t : Session Registers} {h : List Event} (move : Move s h t)
    (broken : s.connection.established = false) : t.connection.established = false := by
  cases move with
  | read => exact broken
  | finish => rfl
  | take => exact (established_answer _ _).trans broken

theorem Moves.not_established {s t : Session Registers} {h : List Event} (moves : Moves s h t)
    (broken : s.connection.established = false) : t.connection.established = false :=
  moves.keeps (fun _ _ _ move => move.not_established) broken

/-- From an end that is shut down no packet can be waited for, whatever is read from it. -/
theorem Move.isShut {s t : Session Registers} {h : List Event} (move : Move s h t)
    (shut : s.connection.stream.IsShut) : t.connection.stream.IsShut := by
  cases move with
  | read =>
    show s.connection.receive.value.2.stream.IsShut
    have reads := Connection.readsTo_receive s.connection
    generalize s.connection.receive.value.1 = arrival at reads
    cases reads with
    | packet e packet before enough decoded after =>
      rw [before] at shut
      rw [after]
      exact Socket.isShut_stream (e := e) rfl shut
    | atRest rest same =>
      rw [same]
      exact shut
    | ended reason keeps => exact keeps shut
  | finish => exact Socket.isShut_shutdown _
  | take packet =>
    show (s.connection.answer (s.outcome packet).value.reply).value.2.stream.IsShut
    rcases Connection.answer_eq (s.outcome packet).value.reply s.connection with h | ⟨reply, h⟩
    · rw [h]
      exact shut
    · rw [h]
      exact Connection.isShut_send shut

theorem Moves.isShut {s t : Session Registers} {h : List Event} (moves : Moves s h t)
    (shut : s.connection.stream.IsShut) : t.connection.stream.IsShut :=
  moves.keeps (fun _ _ _ move => move.isShut) shut

/-! ### Dealing with all that has come -/

theorem unread_takePacket (packet : Packet) (s : Session Registers)
    (working : (s.takePacket packet).value.receiver.running) :
    (s.takePacket packet).value.connection.unread = s.connection.unread := by
  have answer : (s.connection.answer (s.outcome packet).value.reply).value.2.unread =
      s.connection.unread := by
    rcases Connection.answer_eq (s.outcome packet).value.reply s.connection with h | ⟨reply, h⟩
    · rw [h]
    · rw [h, Connection.unread_send]
  -- A receiver that still runs has come to the end of `proceed`.
  revert working
  unfold takePacket proceed
  simp only [Traced.value_bind]
  split
  · exact nofun
  split
  · exact nofun
  · exact fun _ => answer

/-- A receiver that reads often enough has ended, or waits for more. -/
theorem atRest_pumpUpTo (bound : Nat) (s : Session Registers)
    (enough : s.connection.unread < Packet.size * bound)
    (working : (s.pumpUpTo bound).value.receiver.running) :
    (s.pumpUpTo bound).value.connection.AtRest := by
  induction bound generalizing s with
  | zero => exact absurd enough (Nat.not_lt_zero _)
  | succ bound ih =>
    revert working
    unfold pumpUpTo
    simp only [Traced.value_bind]
    cases look_receiveNext s with
    | idle stopped _ value =>
      rw [value]
      intro working
      rw [show s.receiver.running = true from working] at stopped
      cases stopped
    | packet _ packet t after reads _ value =>
      rw [value]
      cases more : (t.takePacket packet).value.receiver.running with
      | false =>
        intro working
        rw [show (t.takePacket packet).value.receiver.running = true from working] at more
        cases more
      | true =>
        -- A whole packet was taken out, and an answer brings nothing in.
        refine ih _ ?_
        rw [unread_takePacket packet t more]
        cases reads with
        | packet e _ before length decoded after =>
          have left : t.connection.unread = e.inbox.length - Packet.size := by
            rw [Connection.unread, after]
            exact List.length_drop
          have whole : s.connection.unread = e.inbox.length := by
            rw [Connection.unread, before]
          rw [whole, Nat.mul_succ] at enough
          omega
    | ended _ _ _ _ _ _ _ _ value =>
      rw [value]
      intro working
      cases working
    | atRest _ t _ reads _ value =>
      rw [value]
      cases reads with
      | atRest rest _ => exact fun _ => rest

theorem atRest_pump (s : Session Registers) (working : s.pump.value.receiver.running) :
    s.pump.value.connection.AtRest := by
  refine atRest_pumpUpTo _ s ?_ working
  have := Nat.div_add_mod s.connection.unread Packet.size
  have := Nat.mod_lt s.connection.unread (show 0 < Packet.size by decide)
  rw [Nat.mul_succ]
  omega

/-- The receiver has dealt with all that has come. -/
structure Sound (s : Session Registers) : Prop extends Orderly s where
  established : s.connection.established = s.receiver.running
  started : s.receiver.running → s.receiver.started
  atRest : s.receiver.running → s.connection.AtRest

/-- Soundness says nothing about the port and the clock. -/
theorem Sound.of_eq {s t : Session Registers} (sound : s.Sound) (queue : t.queue = s.queue)
    (receiver : t.receiver = s.receiver) (connection : t.connection = s.connection) : t.Sound := by
  obtain ⟨⟨ordered, closed⟩, established, started, atRest⟩ := sound
  rw [← queue] at ordered closed
  rw [← receiver] at closed established started atRest
  rw [← connection] at established atRest
  exact ⟨⟨ordered, closed⟩, established, started, atRest⟩

/-- Sending a packet leaves a session sound, whether it goes out or not. -/
theorem Sound.send {s : Session Registers} (sound : s.Sound) (packet : Packet) :
    Sound { s with connection := (s.connection.send packet).value.2 } := by
  obtain ⟨⟨ordered, closed⟩, established, started, atRest⟩ := sound
  refine ⟨⟨ordered, closed⟩, ?_, started, fun working => Connection.atRest_send (atRest working)⟩
  rw [Connection.established_send]
  exact established

/-- Taking an item out of the queue leaves a session sound. -/
theorem Sound.take {s : Session Registers} (sound : s.Sound) : Sound { s with queue := s.queue.pop.2 } := by
  obtain ⟨⟨ordered, closed⟩, established, started, atRest⟩ := sound
  exact ⟨⟨ordered.pop, (BitQueue.closed_pop _).trans closed⟩, established, started, atRest⟩

/-- Whatever comes, the receiver makes the session sound again. -/
theorem sound_pump {s : Session Registers} (orderly : s.Orderly)
    (established : s.connection.established = s.receiver.running)
    (started : s.receiver.running → s.receiver.started) : s.pump.value.Sound := by
  have moves := moves_pump s
  refine ⟨moves.orderly orderly, moves.established established, ?_, atRest_pump s⟩
  intro working
  rw [moves.kept.started]
  cases hr : s.receiver.running with
  | true => exact started hr
  | false =>
    rw [(moves.eq_of_stopped hr).2, hr] at working
    cases working

theorem Sound.pump {s t : Session Registers} (sound : s.Sound) (queue : t.queue = s.queue)
    (receiver : t.receiver = s.receiver)
    (established : t.connection.established = s.connection.established) : t.pump.value.Sound := by
  refine sound_pump ⟨?_, ?_⟩ ?_ ?_
  · rw [queue]
    exact sound.ordered
  · rw [queue, receiver]
    exact sound.closed
  · rw [established, receiver]
    exact sound.established
  · rw [receiver]
    exact sound.started

/-! ### Closing -/

/-- Closing the connection ends the receiver. -/
theorem running_close (s : Session Registers) : s.close.value.receiver.running = false := by
  cases working : s.close.value.receiver.running with
  | false => rfl
  | true =>
    -- If it still ran it would be at rest, and so at an end that is not shut.
    obtain ⟨e, stream, rest⟩ := atRest_pump { s with connection := s.connection.close } working
    have shut := (moves_pump { s with connection := s.connection.close }).isShut
      (Socket.isShut_shutdown s.connection.stream)
    have := rest.shut
    rw [shut e stream] at this
    cases this

/-- A sound session that is closed has nothing more to deal with. -/
theorem Sound.close {s : Session Registers} (sound : s.Sound) : s.close.value.Sound := by
  have moves := moves_pump { s with connection := s.connection.close }
  have stopped := running_close s
  refine ⟨moves.orderly ⟨sound.ordered, sound.closed⟩, ?_, ?_, ?_⟩
  · rw [stopped]
    exact moves.not_established rfl
  all_goals
    intro working
    rw [stopped] at working
    cases working

/-- At rest there is no packet that the receiver could read when the connection is closed: it would have been there
before. -/
theorem Sound.not_readsTo {s : Session Registers} (sound : s.Sound) (working : s.receiver.running) {c : Connection}
    {packet : Packet} : ¬ s.connection.close.ReadsTo c (.packet packet) := by
  obtain ⟨e, stream, rest⟩ := sound.atRest working
  have shut : s.connection.close.stream = .stream e.shutdown.2 := by
    rw [Connection.close, stream]
    rfl
  intro reads
  cases reads with
  | packet f _ before enough =>
    rw [shut] at before
    rw [← Socket.stream.inj before] at enough
    exact absurd rest.inbox (Nat.not_lt_of_le enough)

/-- So none is handled. -/
theorem Sound.deeds_close {s : Session Registers} (sound : s.Sound) : deeds s.close.trace = [] := by
  show deeds (pumpUpTo _ _).trace = []
  unfold pumpUpTo
  rw [Traced.trace_bind, deeds_append]
  cases look_receiveNext { s with connection := s.connection.close } with
  | packet working _ _ _ reads => exact absurd reads (sound.not_readsTo working)
  | idle _ deeds_eq value | ended _ _ _ _ _ _ _ deeds_eq value | atRest _ _ _ _ deeds_eq value =>
    rw [deeds_eq, value]
    rfl

/-- And the port has no part in that. -/
theorem Sound.close_with {s : Session Registers} (sound : s.Sound) (port : Registers) :
    (Session.close { s with port }).value = { s.close.value with port } := by
  have reads := Connection.readsTo_receive s.connection.close
  unfold Session.close Session.pump pumpUpTo receiveNext
  cases working : s.receiver.running with
  | false => rfl
  | true =>
    rw [if_neg (by decide), if_neg (by decide)]
    simp only [Traced.value_bind]
    cases arrival : s.connection.close.receive.value.1 with
    | packet packet => exact absurd (arrival ▸ reads) (sound.not_readsTo working)
    | failure given => rfl
    | waiting => rfl

/-- Stopping a receiver closes the connection, unless it was stopped before. -/
theorem stop_eq (s : Session Registers) :
    s.stop.value = (if s.receiver.started then
        { s.close.value with receiver := { s.close.value.receiver with started := false } }
      else s) := by
  unfold stop
  split <;> rfl

theorem Sound.deeds_stop {s : Session Registers} (sound : s.Sound) : deeds s.stop.trace = [] := by
  unfold stop
  split
  · rw [Traced.trace_bind, deeds_append, sound.deeds_close]
    rfl
  · rfl

end SerialLink.Session
