import SerialLink.Proofs.Act
import SerialLink.Proofs.Turns
import SerialLink.SerialPort.Plug

/-!
# Links from their beginning

A `Link` says how a link is plugged into a port.  Its history begins when the link that was there before is
given up.  If the link is made, the port has sent its version and dealt with what has come
(`Link.made_spec`); it is sound, and stays so whatever is done with it (`Link.run_preserves`).
-/

namespace SerialLink

open Event

/-! ### Making a connection -/

namespace Tcp.Socket

theorem deeds_listen (address : Address) (h : Host) (s : Socket) :
    deeds (s.listen address h).trace = [] := by
  unfold listen
  repeat' split
  all_goals rfl

theorem deeds_accept (h : Host) (s : Socket) : deeds (s.accept h).trace = [] := by
  unfold accept
  repeat' split
  all_goals rfl

theorem deeds_connect (address : Address) (h : Host) (s : Socket) :
    deeds (s.connect address h).trace = [] := by
  unfold connect
  repeat' split
  all_goals rfl

theorem deeds_setNoDelay (h : Host) (s : Socket) : deeds (s.setNoDelay h).trace = [] := by
  unfold setNoDelay
  repeat' split
  all_goals rfl

end Tcp.Socket

namespace Connection

/-- A connection that was made is established, and making it does nothing else. -/
def Made (x : Traced (Bool × Connection)) : Prop :=
  deeds x.trace = [] ∧ (x.value.1 → x.value.2.established)

theorem made_false (c : Connection) : Made (pure (false, c)) := ⟨rfl, nofun⟩

theorem Made.after {α : Type} {x : Traced α} {f : α → Traced (Bool × Connection)}
    (silent : deeds x.trace = []) (made : Made (f x.value)) : Made (x >>= f) := by
  refine ⟨?_, made.2⟩
  rw [Traced.trace_bind, deeds_append, silent, made.1]
  rfl

/-- A connection that was made may be told of. -/
theorem Made.told {x : Traced (Bool × Connection)} (made : Made x) (notice : Notice) :
    Made (do
      let (ok, c) ← x
      if ok then Traced.note notice
      return (ok, c)) := by
  constructor
  · rw [Traced.trace_bind, deeds_append, made.1]
    dsimp only
    split <;> rfl
  · rw [Traced.value_bind]
    dsimp only
    split <;> exact made.2

theorem made_establish (role : Role) (c : Connection) : Made (c.establish role) := by
  refine .after (Tcp.Socket.deeds_setNoDelay _ _) ?_
  dsimp only
  split
  · exact ⟨rfl, fun _ => rfl⟩
  · exact made_false _

theorem made_accept (c : Connection) : Made c.accept := by
  refine .after (Tcp.Socket.deeds_accept _ _) ?_
  split
  · exact made_false _
  · exact (made_establish _ _).told _

theorem made_bindAndAccept (address : Address) (c : Connection) : Made (c.bindAndAccept address) := by
  have silent : deeds (c.listen address).trace = [] := by
    unfold listen
    rw [Traced.trace_bind, Traced.trace_note, List.singleton_append, deeds_noted, Traced.trace_bind,
      deeds_append, Tcp.Socket.deeds_listen]
    rfl
  refine .after silent ?_
  dsimp only
  split
  · exact made_accept _
  · exact made_false _

theorem made_connect (address : Address) (c : Connection) : Made (c.connect address) := by
  refine .after rfl (.after (Tcp.Socket.deeds_connect _ _ _) ?_)
  dsimp only
  split
  · exact made_false _
  · exact (made_establish _ _).told _

end Connection

/-! ### Starting the receiver -/

namespace Session

/-- A receiver that is started tells the version, and then deals with what has come. -/
theorem start_spec {s : Session Registers} (established : s.connection.established)
    (unstarted : s.receiver.started = false) (queue : s.queue = .fresh) :
    ∃ first h, deeds s.start.trace = first :: h ∧
      (first = .sent (Packet.version 0) ∨ first = .refused (Packet.version 0)) ∧
      Moves s.greeted h s.start.value.2 ∧ s.start.value.2.Sound := by
  obtain ⟨value, trace⟩ := start_of_established established unstarted
  -- The queue is new and open, and the receiver runs from now on.
  have orderly : s.greeted.Orderly := by
    constructor
    · exact queue ▸ BitQueue.ordered_fresh
    · exact queue ▸ rfl
  refine ⟨_, _, trace, ?_, ?_⟩
  · split
    · exact .inl rfl
    · exact .inr rfl
  rw [value]
  split
  · have same : s.greeted.connection.established = s.greeted.receiver.running :=
      (Connection.established_send _ _).trans established
    exact ⟨moves_pump _, sound_pump orderly same fun _ => rfl⟩
  · have move := Move.finish s.greeted .connectionTerminated rfl
    have ended := move.orderly orderly
    exact ⟨.one move, ended, rfl, nofun, nofun⟩

end Session

/-! ### Plugging in -/

namespace SerialPort

/-- What is left when a link was given up. -/
structure Unplugged (p : SerialPort) : Prop where
  phase : p.phase = .disabled
  pending : p.port.pending = false
  started : p.receiver.started = false

theorem unplugged_unplug (p : SerialPort) : p.unplug.value.Unplugged := by
  refine ⟨rfl, rfl, ?_⟩
  show p.toSession.stop.value.receiver.started = false
  rw [Session.stop_eq]
  split
  · rfl
  · next h => exact (Bool.not_eq_true _).mp h

/-- The port of a link that was just made, before the receiver has looked at what has come. -/
structure Fresh (p : SerialPort) : Prop where
  phase : p.phase = .armed
  queue : p.queue = .fresh
  working : p.receiver.running = true
  pending : p.port.pending = false
  started : p.receiver.started = true

theorem made_dial (config : Config) (address : Address) (c : Connection) :
    Connection.Made (dial config address c) := by
  unfold dial
  split
  · exact Connection.made_bindAndAccept address c
  · exact Connection.made_connect address c

/-- How a link has come about: the receiver has told the version, and has dealt with what has come. -/
inductive Made : List Event → SerialPort → Prop
  | intro {h k : List Event} {first : Event} {p : SerialPort} {s : Session Registers}
      (deeds_eq : deeds h = first :: k)
      (greeting : first = .sent (Packet.version 0) ∨ first = .refused (Packet.version 0))
      (fresh : Fresh p) (moves : Session.Moves p.toSession k s) (sound : s.Sound) :
      Made h (p.withSession s)

theorem Made.of_deeds_eq {g h : List Event} {p : SerialPort} (made : Made g p)
    (same : deeds h = deeds g) : Made h p := by
  obtain ⟨deeds_eq, greeting, fresh, moves, sound⟩ := made
  exact .intro (same.trans deeds_eq) greeting fresh moves sound

theorem made_attach {p : SerialPort} (unplugged : p.Unplugged) {made : Bool} {connection : Connection}
    (established : made → connection.established) :
    (p.attach made connection).value.2.phase = .disabled ∨
      Made (p.attach made connection).trace (p.attach made connection).value.2 := by
  unfold attach
  split
  · next protocol _ =>
    obtain ⟨first, h, deeds_eq, greeting, moves, sound⟩ := Session.start_spec
      (s := { p.toSession with connection, protocol, queue := .fresh }) (established rfl)
      unplugged.started rfl
    have fresh : Fresh { p.withSession (Session.greeted { p.toSession with
        connection, protocol, queue := .fresh }) with phase := .armed } :=
      ⟨rfl, rfl, rfl, unplugged.pending, rfl⟩
    refine .inr (.intro ?_ greeting fresh moves sound)
    rw [Traced.trace_bind, deeds_append, deeds_eq]
    exact List.append_nil _
  · exact .inl unplugged.phase

/-- A link is made as the configuration says, or not at all. -/
theorem made_connect {p : SerialPort} (unplugged : p.Unplugged) (config : Config) :
    (p.connect config).value.2.phase = .disabled ∨
      Made (p.connect config).trace (p.connect config).value.2 := by
  unfold connect
  split
  · exact .inl unplugged.phase
  · next address _ =>
    obtain ⟨silent, established⟩ := made_dial config address p.connection
    refine (made_attach unplugged established).imp id fun made => ?_
    refine made.of_deeds_eq ?_
    rw [Traced.trace_bind, deeds_append, silent]
    rfl

theorem isEnabled_iff {p : SerialPort} : p.isEnabled ↔ p.phase ≠ .disabled := bne_iff_ne

/-- A link that is plugged in was made, and then the port was reset. -/
theorem made_plugIn {p : SerialPort} (unplugged : p.Unplugged) (config : Config) (hasListener : Bool)
    (host : Tcp.Host) (enabled : (p.plugIn config hasListener host).value.isEnabled) :
    ∃ q, Made (p.plugIn config hasListener host).trace q ∧
      (p.plugIn config hasListener host).value = q.reset := by
  obtain ⟨phase, pending, started⟩ := unplugged
  -- A reset makes no link, so that one which is there now was made before it.
  have lost : ∀ q : SerialPort, q.phase = .disabled → ¬ q.reset.isEnabled := by
    intro q h enabled
    exact isEnabled_iff.mp enabled ((accessed_reset q).unlinked.mpr h)
  revert enabled
  unfold plugIn
  dsimp only
  split
  · exact fun enabled => absurd enabled (lost _ phase)
  · have made := made_connect (p := { p with
      hasListener
      interruptBased := config.interruptBased
      transferTimeout := config.transferTimeout
      lastError := none
      clock := .start
      connection := { p.connection with host } }) ⟨phase, pending, started⟩ config
    rw [Traced.value_bind, Traced.trace_bind]
    split
    all_goals
      intro enabled
      rcases made with h | made
      · exact absurd enabled (lost _ h)
      · refine ⟨_, made.of_deeds_eq ?_, rfl⟩
        exact (deeds_append _ _).trans (List.append_nil _)

end SerialPort

/-! ### Links -/

/-- A link at its beginning: the port into which it is plugged, and how. -/
structure Link where
  origin : SerialPort
  config : Config
  hasListener : Bool
  /-- How the operating system answers. -/
  host : Tcp.Host

namespace Link

open SerialPort

/-- The port with the link, if that could be made; the link that was there before is given up. -/
def made (l : Link) : Traced SerialPort :=
  l.origin.unplug.value.plugIn l.config l.hasListener l.host

/-- The link is made, and then the port is run. -/
def run (acts : List Act) (l : Link) : Traced SerialPort := do (← l.made).run acts

/-- Whether the link can be made and the port be run. -/
def canRun (acts : List Act) (l : Link) : Bool := l.made.value.isEnabled && l.made.value.canRun acts

theorem made_spec {l : Link} (enabled : l.made.value.isEnabled) :
    ∃ p, Made l.made.trace p ∧ l.made.value = p.reset :=
  made_plugIn (unplugged_unplug l.origin) l.config l.hasListener l.host enabled

theorem sound_made {l : Link} (enabled : l.made.value.isEnabled) : l.made.value.Sound := by
  obtain ⟨p, made, value⟩ := made_spec enabled
  obtain ⟨_, _, fresh, _, sound⟩ := made
  rw [value]
  refine (accessed_reset _).sound ⟨fun _ => sound, fun unlinked => ?_⟩
  exact nomatch fresh.phase.symm.trans unlinked

/-- What holds of a link that was made, and is kept by every step and every access, holds after every
run. -/
theorem run_preserves {Inv : List Event → SerialPort → Prop} {allowed : Act → Prop}
    (start : ∀ h p, Made h p → Inv (deeds h) p.reset)
    (step : ∀ g p h q, Step p h q → Inv g p → Inv (g ++ h) q)
    (access : ∀ g p act, act.isAccess → act.isPossible p → allowed act → Inv g p →
      Inv g (p.perform act).value.2)
    {acts : List Act} {l : Link} (all : ∀ act ∈ acts, allowed act) (can : l.canRun acts) :
    Inv (deeds (l.run acts).trace) (l.run acts).value := by
  obtain ⟨enabled, can⟩ := Bool.and_eq_true _ _ ▸ can
  obtain ⟨p, made, value⟩ := made_spec enabled
  have begun : Inv (deeds l.made.trace) l.made.value := value ▸ start _ _ made
  rw [run, Traced.trace_bind, deeds_append]
  exact SerialPort.run_preserves step access all can (sound_made enabled) begun

theorem sound_run {acts : List Act} {l : Link} (can : l.canRun acts) : (l.run acts).value.Sound := by
  obtain ⟨enabled, can⟩ := Bool.and_eq_true _ _ ▸ can
  exact SerialPort.sound_run can (sound_made enabled)

theorem value_run_append (a b : List Act) (l : Link) :
    (l.run (a ++ b)).value = ((l.run a).value.run b).value :=
  SerialPort.value_run_append a b l.made.value

theorem canRun_append (a b : List Act) (l : Link) :
    l.canRun (a ++ b) = (l.canRun a && (l.run a).value.canRun b) := by
  rw [canRun, SerialPort.canRun_append, ← Bool.and_assoc]
  rfl

/-- A link that was made by calling a peer that answers. -/
def called : Link where
  origin := .new
  config := { peerAddress := [49, 50, 55, 46, 48, 46, 48, 46, 49, 58, 53, 48, 48, 48] }
  hasListener := true
  host := { answering := some {} }

end Link

end SerialLink
