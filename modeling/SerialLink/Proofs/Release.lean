import SerialLink.Proofs.Afresh
import SerialLink.Proofs.Intake

/-!
# Peers that ran ahead

Each reply tells a time, which is that of this side or, while the port waits for a bit, the time of the packet that
is answered, if that is later (`Session.timestamp_reply`).  So a peer that ran ahead of a side that waits is not
ahead of what the reply tells (`Registers.releases`).  The port shows that it waits exactly while a tick is
under way (`SerialPort.showsWaiting_live`).  Together: `SerialPort.reply_releases`.
-/

namespace SerialLink

open Event

/-! ### The time that is told -/

namespace Registers

variable (r : Registers) (clock : Clock) (timestamp : UInt32)

/-- After a packet was heard of, the time that is told is that of this side or that of the packet. -/
theorem time_hear : r.time (clock.hear timestamp) =
    if r.waiting && Clock.isAhead timestamp clock.timestamp then timestamp &&& timestampMask
    else clock.timestamp := by
  rw [time]
  show (if r.waiting && Clock.isAhead (timestamp &&& timestampMask) clock.timestamp then
    timestamp &&& timestampMask else clock.timestamp) = _
  rw [Clock.isAhead_mask_left]

/-- **A side that waits tells a time that the packet is not ahead of.** -/
theorem releases (waits : r.waiting = true) :
    Clock.isAhead timestamp (r.time (clock.hear timestamp)) = false := by
  rw [time_hear, waits, Bool.true_and]
  split
  · rw [Clock.isAhead_mask, Clock.isAhead_self]
  · next level => exact (Bool.not_eq_true _).mp level

end Registers

/-- What a reply to a packet tells: the time of this side or that of the packet, and its own if it does not wait.  If
it waits, a peer whose time is that of the packet is not ahead of it and goes on. -/
structure Packet.Releases (here : UInt32) (waits : Prop) (packet reply : Packet) : Prop where
  told : reply.timestamp = here ∨ reply.timestamp = packet.timestamp &&& timestampMask
  own : ¬ waits → reply.timestamp = here
  level : waits → Clock.isAhead packet.timestamp reply.timestamp = false
  ready : waits → ∀ peer : Clock, peer.timestamp &&& timestampMask = packet.timestamp &&& timestampMask →
    (peer.hear reply.timestamp).isReady = true

namespace Protocol

variable {packet reply : Packet} {clock : Clock} {p : Protocol} {queue : BitQueue} {r : Registers}

/-- Whatever is replied, the reply tells the time. -/
theorem timestamp_handle (answers : (p.handle packet clock queue r).value.reply = some reply) :
    reply.timestamp = r.time clock &&& timestampMask := by
  cases bit : packet.isSync with
  | true =>
    rw [handle_of_isSync _ _ _ _ _ bit] at answers
    have answers : (syncReply p.role clock r).1 = some reply := answers
    rw [Registers.syncReply_eq] at answers
    split at answers
    · cases answers
    · obtain rfl := Option.some.inj answers
      rfl
  | false =>
    unfold handle at answers
    split at answers
    · unfold handleVersion at answers
      simp only [Traced.value_bind] at answers
      split at answers
      · cases answers
      split at answers
      · cases answers
      · obtain rfl := Option.some.inj answers
        rfl
    case h_3 kind => rw [Packet.isSync_of_kind? kind] at bit; cases bit
    case h_4 kind => rw [Packet.isSync_of_kind? kind] at bit; cases bit
    case h_5 | h_6 =>
      obtain rfl := Option.some.inj answers
      rfl
    all_goals cases answers

end Protocol

namespace Session

variable {s t : Session Registers} {h : List Event} {packet reply : Packet}

theorem timestamp_reply (answers : (s.outcome packet).value.reply = some reply) :
    reply.timestamp = s.port.time (s.clock.hear packet.timestamp) &&& timestampMask :=
  Protocol.timestamp_handle answers

/-- **A reply releases the peer**, whatever the time of this side and whatever the port does. -/
theorem releases_reply (answers : (s.outcome packet).value.reply = some reply) :
    packet.Releases (s.clock.timestamp &&& timestampMask) (s.port.waiting = true) reply := by
  have time := timestamp_reply answers
  have level : s.port.waiting = true → Clock.isAhead packet.timestamp reply.timestamp = false := by
    intro waits
    rw [time, Clock.isAhead_mask]
    exact s.port.releases s.clock packet.timestamp waits
  refine ⟨?_, fun idle => ?_, level, fun waits peer same => ?_⟩
  · rw [time, Registers.time_hear]
    split
    · exact .inr (Packet.mask_mask _)
    · exact .inl rfl
  · rw [time, Registers.time_hear, (Bool.not_eq_true _).mp idle]
    rfl
  · have front : Clock.isAhead peer.timestamp (reply.timestamp &&& timestampMask) = false := by
      rw [Clock.isAhead_mask, ← Clock.isAhead_mask_left, same, Clock.isAhead_mask_left]
      exact level waits
    rw [Clock.isReady, Clock.hear, front]
    rfl

/-! ### What the receiver leaves alone -/

theorem Move.waiting (move : Move s h t) : t.port.waiting = s.port.waiting := by
  rcases move.port_cases with same | ⟨_, same⟩ | ⟨_, same⟩
  · rw [same]
  · rw [same]
  · rw [same, Registers.waiting_takeAnswer]

theorem Move.timestamp (move : Move s h t) : t.clock.timestamp = s.clock.timestamp := by
  cases move <;> rfl

/-- Whatever the receiver does, the time of this side and whether the port waits stay as they are. -/
theorem Moves.still (moves : Moves s h t) :
    t.clock.timestamp = s.clock.timestamp ∧ t.port.waiting = s.port.waiting := by
  induction moves with
  | refl => exact ⟨rfl, rfl⟩
  | step move _ ih => exact ⟨ih.1.trans move.timestamp, ih.2.trans move.waiting⟩

/-- The packets of a history were handled at a time of this side, and while the port did or did not wait. -/
def HandledAt (time : UInt32) (waiting : Bool) (h : List Event) : Prop :=
  ∀ packet reply?, .handled packet reply? ∈ h → ∃ u : Session Registers,
    u.clock.timestamp = time ∧ u.port.waiting = waiting ∧ (u.outcome packet).value.reply = reply?

variable {time : UInt32} {waiting : Bool} {k : List Event}

theorem handledAt_of_heard_nil (none : heard h = []) : HandledAt time waiting h :=
  fun _ _ mem => absurd (List.filterMap_eq_nil_iff.mp none _ mem) nofun

theorem HandledAt.append (first : HandledAt time waiting h) (second : HandledAt time waiting k) :
    HandledAt time waiting (h ++ k) := fun packet reply? mem =>
  (List.mem_append.mp mem).elim (first packet reply?) (second packet reply?)

/-- The log does not matter. -/
theorem handledAt_deeds : HandledAt time waiting (deeds h) ↔ HandledAt time waiting h :=
  ⟨fun handled packet reply? mem => handled packet reply? (List.mem_filter.mpr ⟨mem, rfl⟩),
    fun handled packet reply? mem => handled packet reply? (List.mem_filter.mp mem).1⟩

theorem Move.handledAt (move : Move s h t) : HandledAt s.clock.timestamp s.port.waiting h := by
  cases move with
  | read | finish => exact handledAt_of_heard_nil rfl
  | take packet =>
    rw [← List.singleton_append]
    -- Sending the reply handles nothing.
    refine .append ?_ (handledAt_of_heard_nil (Connection.heard_answer _ _))
    intro other reply? mem
    obtain ⟨rfl, rfl⟩ := Event.handled.inj (List.mem_singleton.mp mem)
    exact ⟨s, rfl, rfl, rfl⟩

theorem Moves.handledAt (moves : Moves s h t) : HandledAt s.clock.timestamp s.port.waiting h := by
  induction moves with
  | refl => exact handledAt_of_heard_nil rfl
  | step move _ ih =>
    rw [move.timestamp, move.waiting] at ih
    exact move.handledAt.append ih

end Session

/-! ### Showing that the port waits -/

namespace SerialPort

variable {p : SerialPort} {op : Operation} {ops : List Operation}

/-- The receiver can see that the port waits exactly while it does. -/
def ShowsWaiting (p : SerialPort) : Prop := p.port.waiting = true ↔ p.phase = .exchanging

theorem showsWaiting_disable (reason : Failure) (p : SerialPort) : (p.disable reason).value.ShowsWaiting :=
  ⟨nofun, nofun⟩

/-- A port that takes a bit no longer waits, and neither does one that loses its link. -/
theorem ShowsWaiting.awaitBit (shows : p.ShowsWaiting) : p.awaitBit.value.2.ShowsWaiting := by
  cases p.looks_awaitBit with
  | shifts _ _ _ same | completes _ _ _ same =>
    rw [same]
    exact ⟨nofun, nofun⟩
  | loses _ same =>
    rw [same]
    exact showsWaiting_disable p.receiverError p
  | waits _ same =>
    rw [same]
    exact shows

theorem showsWaiting_exchange (p : SerialPort) : p.exchange.value.2.ShowsWaiting :=
  ShowsWaiting.awaitBit ⟨fun _ => phase_offerBit { p with phase := .exchanging }, fun _ => rfl⟩

theorem ShowsWaiting.tick (shows : p.ShowsWaiting) (cycles : UInt32) :
    (p.tick cycles).value.2.ShowsWaiting := by
  cases p.ticks_tick cycles with
  | unlinked _ same | blocked _ same =>
    rw [same]
    exact shows
  | loses _ _ same =>
    rw [same]
    exact showsWaiting_disable p.receiverError p
  | exchanges _ _ _ same =>
    rw [same]
    exact showsWaiting_exchange _
  | passes ready _ _ same =>
    rw [same]
    refine ⟨fun waits => ?_, fun begun => nomatch (phase_elapse ready cycles).symm.trans begun⟩
    rcases ready with h | h <;> cases h.symm.trans (shows.mp waits)

theorem ShowsWaiting.resume (shows : p.ShowsWaiting) : p.resume.value.2.ShowsWaiting := by
  unfold SerialPort.resume
  split
  · exact shows.awaitBit
  · exact shows

theorem ShowsWaiting.timeOut (shows : p.ShowsWaiting) : p.timeOut.value.ShowsWaiting := by
  unfold SerialPort.timeOut
  split
  · exact showsWaiting_disable .transferTimeout p
  · exact shows

theorem showsWaiting_plug (config : Config) (hasListener : Bool) (host : Tcp.Host) (p : SerialPort) :
    (p.plug config hasListener host).value.ShowsWaiting := by
  obtain ⟨q, attempted, value⟩ := plugIn_cases config hasListener host p.unplug.value
  have value : (p.plug config hasListener host).value = q.reset := value
  have idle : q.port.waiting = false := by
    cases attempted with
    | linked connection protocol established same =>
      obtain ⟨_, _, _, _, moves, _⟩ := Session.start_spec
        (s := (p.unplug.value.prepared config hasListener host).session connection protocol) established
        (unplugged_unplug p).started rfl
      rw [same]
      exact moves.still.2
    | without _ _ _ same => rw [same]; rfl
  rw [value]
  refine ⟨fun waits => ?_, fun begun => ?_⟩
  · have waits : q.port.waiting = true := waits
    rw [idle] at waits
    cases waits
  · rw [← value] at begun
    exact absurd begun (phase_plug config hasListener host p)

theorem ShowsWaiting.operate (shows : p.ShowsWaiting) : (p.operate op).value.2.ShowsWaiting := by
  cases op with
  | unplug => exact ⟨nofun, nofun⟩
  | plug config hasListener host => exact showsWaiting_plug config hasListener host p
  | act act =>
    cases access : act.isAccess with
    | true =>
      show (p.perform act).value.2.port.waiting = true ↔ (p.perform act).value.2.phase = .exchanging
      rw [(accessed_perform access p).2.begun, (flags_perform access p).1]
      exact shows
    | false =>
      cases act with
      | tick cycles => exact shows.tick cycles
      | resume => exact shows.resume
      | timeOut => exact shows.timeOut
      | arrive segment =>
        show (p.arrive segment).value.port.waiting = true ↔ p.phase = .exchanging
        rw [(moves_arrive segment p).still.2]
        exact shows
      | turn => exact shows
      | _ => cases access

theorem showsWaiting_live (can : new.canLive ops) : (new.live ops).value.ShowsWaiting :=
  (live_keeps (fun _ _ _ _ shows => shows.operate) can sound_new ⟨nofun, nofun⟩).2

/-! ### When packets are handled -/

open Session (HandledAt handledAt_deeds handledAt_of_heard_nil)

theorem handledAt_arrive (segment : Tcp.Segment) (p : SerialPort) :
    HandledAt (p.arrive segment).value.clock.timestamp p.port.waiting (p.arrive segment).trace := by
  have moves := moves_arrive segment p
  have handled := moves.handledAt
  rw [← moves.still.1] at handled
  exact handledAt_deeds.mp handled

/-- What has come by the time a receiver is started is handled then. -/
theorem handledAt_attach (unplugged : p.Unplugged) {made : Bool} {connection : Connection}
    (established : made → connection.established) :
    (p.attach made connection).value.2.clock.timestamp = p.clock.timestamp ∧
      HandledAt p.clock.timestamp p.port.waiting (p.attach made connection).trace := by
  unfold attach
  split
  · next protocol _ =>
    obtain ⟨first, h, deeds_eq, greeting, moves, _⟩ := Session.start_spec
      (s := p.session connection protocol) (established rfl) unplugged.started rfl
    refine ⟨moves.still.1, ?_⟩
    have greets : HandledAt p.clock.timestamp p.port.waiting [first] := by
      rcases greeting with rfl | rfl <;> exact handledAt_of_heard_nil rfl
    have trace : deeds (p.session connection protocol).start.trace = [first] ++ h := deeds_eq
    have started : HandledAt p.clock.timestamp p.port.waiting (p.session connection protocol).start.trace := by
      rw [← handledAt_deeds, trace]
      exact greets.append moves.handledAt
    exact started.append (handledAt_of_heard_nil rfl)
  · exact ⟨rfl, handledAt_of_heard_nil rfl⟩

theorem handledAt_connect (unplugged : p.Unplugged) (config : Config) :
    (p.connect config).value.2.clock.timestamp = p.clock.timestamp ∧
      HandledAt p.clock.timestamp p.port.waiting (p.connect config).trace := by
  unfold connect
  split
  · exact ⟨rfl, handledAt_of_heard_nil rfl⟩
  · next address _ =>
    obtain ⟨silent, established⟩ := made_dial config address p.connection
    obtain ⟨time, handled⟩ := handledAt_attach unplugged established
    exact ⟨time, (handledAt_of_heard_nil (heard_of_silent silent)).append handled⟩

/-- A link begins at the beginning of time, and nothing waits then. -/
theorem handledAt_plug (sound : p.Sound) (config : Config) (hasListener : Bool) (host : Tcp.Host) :
    HandledAt (p.plug config hasListener host).value.clock.timestamp false
      (p.plug config hasListener host).trace := by
  have gives : HandledAt (p.plug config hasListener host).value.clock.timestamp false p.unplug.trace :=
    handledAt_of_heard_nil (heard_of_silent sound.deeds_unplug)
  refine gives.append ?_
  by_cases named : config.peerAddress = []
  · exact handledAt_of_heard_nil (heard_of_silent (plugIn_unnamed config hasListener host _ named).2)
  · obtain ⟨value, trace⟩ := plugIn_eq config hasListener host p.unplug.value named
    have unplugged := unplugged_unplug p
    obtain ⟨time, handled⟩ := handledAt_connect (p := p.unplug.value.prepared config hasListener host)
      ⟨unplugged.phase, unplugged.pending, unplugged.started⟩ config
    have value : (p.plug config hasListener host).value = _ := value
    rw [← handledAt_deeds, trace, handledAt_deeds, value]
    rw [← time] at handled
    exact handled

/-- **Whenever a packet is handled, this side's time is what it is afterwards**, and the receiver sees of the waiting
what it saw before. -/
theorem handledAt_operate (possible : op.isPossible p) (sound : p.Sound) (shows : p.ShowsWaiting) :
    HandledAt (p.operate op).value.2.clock.timestamp p.port.waiting (p.operate op).trace := by
  cases op with
  | act act =>
    cases arrival : act.isArrival with
    | false => exact handledAt_of_heard_nil (heard_perform arrival sound)
    | true =>
      cases act with
      | arrive segment => exact (handledAt_arrive segment p).append (handledAt_of_heard_nil rfl)
      | _ => cases arrival
  | unplug =>
    exact (handledAt_of_heard_nil (heard_of_silent sound.deeds_unplug)).append (handledAt_of_heard_nil rfl)
  | plug config hasListener host =>
    have idle : p.port.waiting = false :=
      (Bool.not_eq_true _).mp (mt shows.mp (bne_iff_ne.mp possible))
    rw [idle]
    exact (handledAt_plug sound config hasListener host).append (handledAt_of_heard_nil rfl)

end SerialPort

end SerialLink
