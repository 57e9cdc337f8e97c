import SerialLink.Proofs.Plug
import SerialLink.Proofs.Turns

/-!
# How a link is lost

A linked port keeps no failure of its own as long as the link is there, and its receiver tells why it has ended as
soon as it has (`SerialPort.Candid`).  So when the link is lost the port either has given up waiting, or takes
over what the receiver told (`SerialPort.fate_perform`); and it is off from then on, whatever is done with it
(`SerialPort.Off`), until a link is plugged in again.
-/

namespace SerialLink

open Event

namespace Session

/-! ### Why a receiver ends -/

/-- The reasons for which a receiver ends. -/
def reasons : List Failure := [.versionMismatch, .connectionTerminated, .malformedPacket]

variable {π : Type} {s t u : Session π}

/-- If the receiver does not run, it has told why. -/
def Explained (s : Session π) : Prop :=
  s.receiver.running = false → ∃ reason ∈ reasons, s.receiver.error = some reason

/-- What becomes of the receiver: it tells why it ends, and a receiver that has ended stays as it is. -/
structure Continues (s t : Session π) : Prop where
  explained : s.Explained → t.Explained
  ended : s.receiver.running = false →
    t.receiver.running = false ∧ t.receiver.error = s.receiver.error

theorem Continues.of_receiver (same : t.receiver = s.receiver) : s.Continues t := by
  constructor
  · intro explained
    rw [Explained, same]
    exact explained
  · intro stopped
    rw [same]
    exact ⟨stopped, rfl⟩

theorem Continues.trans (first : s.Continues t) (second : t.Continues u) : s.Continues u := by
  refine ⟨fun explained => second.explained (first.explained explained), fun stopped => ?_⟩
  obtain ⟨stopped, same⟩ := first.ended stopped
  obtain ⟨still, again⟩ := second.ended stopped
  exact ⟨still, again.trans same⟩

theorem explained_finish {reason : Failure} (among : reason ∈ reasons) (s : Session π) :
    (s.finish reason).value.Explained := fun _ => ⟨reason, among, rfl⟩

variable [Responder π]

/-- Whatever the receiver does, it tells why it ends. -/
theorem lasting_explained : Lasting fun _ (s : Session π) => s.Explained where
  connection _ _ _ _ _ explained := explained
  take _ s packet working _ := by
    rw [value_takePacket]
    rcases proceed_cases (s.answering packet).value.2 (s.answering packet).value.1
      (s.outcome packet).value.failure with ⟨_, _, value⟩ | ⟨reason, cause, value⟩
    · -- The receiver goes on.
      rw [value]
      intro stopped
      rw [show (s.answering packet).value.2.receiver.running = s.receiver.running from rfl,
        working] at stopped
      cases stopped
    · rw [value]
      refine explained_finish ?_ _
      rcases cause with rfl | fatal
      · decide
      · have ending : packet.ending? = some reason := (Protocol.isFatal_handle ..).symm.trans fatal
        exact List.mem_append_left [.malformedPacket] (Packet.ending?_mem ending)
  finish _ s reason cause _ _ := by
    refine explained_finish ?_ s
    rcases cause with rfl | rfl <;> decide

/-- A receiver that is started may have ended by then, and has told why. -/
theorem explained_start (established : s.connection.established)
    (unstarted : s.receiver.started = false) : s.start.value.2.Explained := by
  have greeted : s.greeted.Explained := nofun
  rw [(start_of_established established unstarted).1]
  split
  · exact lasting_explained.pumpUpTo (h := []) _ greeted
  · exact explained_finish (by decide) _

theorem continues_pump (s : Session π) : s.Continues s.pump.value := by
  constructor
  · exact fun explained => lasting_explained.pumpUpTo (h := []) _ explained
  · intro stopped
    rw [pump, pumpUpTo_of_stopped stopped]
    exact ⟨stopped, rfl⟩

theorem continues_close (s : Session π) : s.Continues s.close.value := by
  have closing : s.Continues { s with connection := s.connection.close } := .of_receiver rfl
  exact closing.trans (continues_pump _)

end Session

namespace SerialPort

open Session (Continues Explained reasons)

/-! ### Single acts -/

/-- What is done with a port leaves the failure alone that it has noted, and the receiver goes on. -/
structure Keeps (p q : SerialPort) : Prop where
  lastError : q.lastError = p.lastError
  session : p.toSession.Continues q.toSession

variable {p q r : SerialPort}

theorem Keeps.trans (first : p.Keeps q) (second : q.Keeps r) : p.Keeps r :=
  ⟨second.lastError.trans first.lastError, first.session.trans second.session⟩

theorem Keeps.of_receiver (lastError : q.lastError = p.lastError) (receiver : q.receiver = p.receiver) :
    p.Keeps q := ⟨lastError, .of_receiver receiver⟩

/-- What becomes of a link: it is still there, or it was lost because the queue was found closed. -/
inductive Fate (p q : SerialPort) : Prop
  | lasts (enabled : q.isEnabled) (keeps : p.Keeps q)
  | lost (r : SerialPort) (keeps : p.Keeps r) (sound : r.toSession.Sound) (closed : r.queue.closed = true)
      (value : q = (r.disable r.receiverError).value)

theorem Fate.after (keeps : p.Keeps q) (fate : q.Fate r) : p.Fate r := by
  cases fate with
  | lasts enabled more => exact .lasts enabled (keeps.trans more)
  | lost s more sound closed value => exact .lost s (keeps.trans more) sound closed value

theorem fate_awaitBit (sound : p.toSession.Sound) (enabled : p.isEnabled) : p.Fate p.awaitBit.value.2 := by
  cases p.looks_awaitBit with
  | shifts _ _ _ same | completes _ _ _ same =>
    rw [same]
    exact .lasts rfl (.of_receiver rfl rfl)
  | loses found same =>
    rw [same]
    exact .lost p (.of_receiver rfl rfl) sound (sound.ordered.of_pop_closed found).2 rfl
  | waits _ same =>
    rw [same]
    exact .lasts enabled (.of_receiver rfl rfl)

theorem keeps_offerBit (p : SerialPort) : p.Keeps p.offerBit.value := by
  cases drives : p.port.drivesClock with
  | false =>
    rw [offerBit_of_driven drives]
    exact .of_receiver rfl rfl
  | true =>
    cases taken : (p.connection.send p.syncPacket).value.1 with
    | true =>
      rw [offerBit_of_taken drives taken]
      exact .of_receiver rfl rfl
    | false =>
      rw [offerBit_of_refused drives taken]
      have begun : p.Keeps (p.offering false) := .of_receiver rfl rfl
      exact begun.trans ⟨rfl, Session.continues_close _⟩

theorem fate_exchange (sound : p.toSession.Sound) (ready : p.phase = .armed) (due : p.isDue) :
    p.Fate p.exchange.value.2 := by
  have begun := begun_offerBit sound ready due
  have offers : p.Keeps (offerBit { p with phase := .exchanging }).value :=
    ⟨(keeps_offerBit { p with phase := .exchanging }).lastError,
      (keeps_offerBit { p with phase := .exchanging }).session⟩
  have waits : p.Keeps ((offerBit { p with phase := .exchanging }).value.withRegisters
      fun r => { r with waiting := true }) := offers.trans (.of_receiver rfl rfl)
  refine .after waits (fate_awaitBit (begun.sound.of_eq rfl rfl rfl) ?_)
  rw [isEnabled_iff]
  show (offerBit { p with phase := .exchanging }).value.phase ≠ .disabled
  rw [begun.begun]
  exact nofun

theorem fate_tick (sound : p.Sound) (enabled : p.isEnabled) (cycles : UInt32) :
    p.Fate (p.tick cycles).value.2 := by
  have linked := isEnabled_iff.mp enabled
  have session := sound.linked linked
  have passed : p.Keeps (p.elapse cycles) := .of_receiver rfl rfl
  cases p.ticks_tick cycles with
  | unlinked phase => exact absurd phase linked
  | blocked _ same =>
    rw [same]
    exact .lasts enabled (.of_receiver rfl rfl)
  | loses _ exhausted same =>
    rw [same]
    exact .lost p (.of_receiver rfl rfl) session ((BitQueue.isExhausted_iff session.ordered).mp exhausted).1 rfl
  | exchanges ready _ due same =>
    rw [same]
    exact .after passed (fate_exchange (session.of_eq rfl rfl rfl) (phase_elapse ready cycles) due)
  | passes ready _ _ same =>
    rw [same]
    exact .lasts (isEnabled_iff.mpr (linked_of_ready (.inl (phase_elapse ready cycles)))) passed

/-- **A link lasts, or it is lost** because the port gives up waiting, or because the queue was found closed. -/
theorem fate_perform {act : Act} (sound : p.Sound) (enabled : p.isEnabled) (possible : act.isPossible p) :
    act = .timeOut ∧ (p.perform act).value.2 = (p.disable .transferTimeout).value ∨
      act ≠ .timeOut ∧ p.Fate (p.perform act).value.2 := by
  have linked := isEnabled_iff.mp enabled
  cases access : act.isAccess with
  | true =>
    have accessed := (accessed_perform access p).2
    refine .inr ⟨fun same => ?_, .lasts ?_ (.of_receiver (settings_perform access p).1 accessed.receiver)⟩
    · rw [same] at access
      cases access
    · rw [isEnabled_iff]
      exact mt accessed.unlinked.mp linked
  | false =>
    cases act with
    | tick cycles => exact .inr ⟨nofun, fate_tick sound enabled cycles⟩
    | resume =>
      refine .inr ⟨nofun, ?_⟩
      show p.Fate p.resume.value.2
      unfold resume
      split
      · exact fate_awaitBit (sound.linked linked) enabled
      · exact .lasts enabled (.of_receiver rfl rfl)
    | timeOut =>
      refine .inl ⟨rfl, ?_⟩
      have begun : p.phase = .exchanging := by
        simp only [Act.isPossible, Bool.and_eq_true, beq_iff_eq] at possible
        exact possible.1.1
      show p.timeOut.value = _
      unfold timeOut
      rw [if_pos begun]
      rfl
    | arrive segment =>
      have came : p.toSession.Continues { p.toSession with connection := p.connection.arrive segment } :=
        .of_receiver rfl
      exact .inr ⟨nofun, .lasts enabled ⟨rfl, came.trans (Session.continues_pump _)⟩⟩
    | turn host => exact .inr ⟨nofun, .lasts enabled (.of_receiver rfl rfl)⟩
    | _ => cases access

/-! ### A port without a link -/

/-- A port that has lost its link, and notes why. -/
structure Off (reason : Failure) (p : SerialPort) : Prop where
  phase : p.phase = .disabled
  stopped : p.receiver.running = false
  unstarted : p.receiver.started = false
  noted : p.lastError = some reason

/-- When a link is lost the port is off, and the failure is noted if there was none before. -/
theorem off_disable (sound : p.toSession.Sound) (first : p.lastError = none) (reason : Failure) :
    Off reason (p.disable reason).value := by
  rw [disable_eq]
  refine ⟨rfl, ?_, rfl, ?_⟩
  · cases started : p.receiver.started with
    | true => exact Session.running_close p.toSession
    | false =>
      cases working : p.receiver.running with
      | false => exact working
      | true =>
        rw [sound.started working] at started
        cases started
  · show (p.lastError <|> some reason) = some reason
    rw [first]
    rfl

/-- What is seen of a port that is off. -/
theorem Off.seen {reason : Failure} (off : p.Off reason) :
    p.isEnabled = false ∧ p.role = .disabled ∧ p.readData = 0xff ∧ p.cyclesToTransmit = 65536 ∧
      p.error = some reason := by
  have disabled : p.isEnabled = false := by
    rw [isEnabled, off.phase]
    rfl
  refine ⟨disabled, ?_, ?_, ?_, ?_⟩
  · rw [role, disabled]
    rfl
  · rw [readData, disabled]
    rfl
  · rw [cyclesToTransmit, disabled]
    rfl
  · rw [error, off.noted]
    rfl

/-- What can be done with a port when its link is lost; plugging in another one is not among it. -/
inductive Deed
  | act (act : Act)
  | unplug

/-- Does a deed. -/
def doDeed : Deed → SerialPort → Traced (Progress × SerialPort)
  | .act act, p => p.perform act
  | .unplug, p => do return (.idle, ← p.unplug)

/-- Does one deed after the other. -/
def doDeeds : List Deed → SerialPort → Traced SerialPort
  | [], p => return p
  | deed :: rest, p => do
    let (_, p) ← p.doDeed deed
    p.doDeeds rest

/-- There is nothing to be given up where there is no link. -/
theorem Off.unplug {reason : Failure} (off : p.Off reason) :
    p.unplug.value.Off reason ∧ deeds p.unplug.trace = [] := by
  obtain ⟨_, stopped, unstarted, noted⟩ := off
  have stays : p.toSession.stop = pure p.toSession := by
    unfold Session.stop
    rw [unstarted]
    rfl
  unfold SerialPort.unplug
  rw [stays]
  exact ⟨⟨rfl, stopped, unstarted, noted⟩, rfl⟩

/-- What comes is not read where there is no receiver. -/
theorem Off.arrive {reason : Failure} (off : p.Off reason) (segment : Tcp.Segment) :
    (p.arrive segment).value.Off reason ∧ deeds (p.arrive segment).trace = [] := by
  obtain ⟨phase, stopped, unstarted, noted⟩ := off
  have still : p.toSession.arrive segment =
      pure { p.toSession with connection := p.connection.arrive segment } :=
    Session.pumpUpTo_of_stopped (s := { p.toSession with connection := p.connection.arrive segment })
      stopped _
  unfold SerialPort.arrive
  rw [still]
  exact ⟨⟨phase, stopped, unstarted, noted⟩, rfl⟩

/-- A port that is off stays so: no act makes any progress or shows in the history. -/
theorem Off.perform {reason : Failure} (off : p.Off reason) (act : Act) :
    (p.perform act).value.2.Off reason ∧ deeds (p.perform act).trace = [] ∧
      (p.perform act).value.1 = .idle := by
  cases access : act.isAccess with
  | true =>
    obtain ⟨quiet, accessed⟩ := accessed_perform access p
    refine ⟨⟨accessed.unlinked.mpr off.phase, ?_, ?_, ?_⟩, ?_, progress_perform access p⟩
    · rw [accessed.receiver]
      exact off.stopped
    · rw [accessed.receiver]
      exact off.unstarted
    · rw [(settings_perform access p).1]
      exact off.noted
    · rw [quiet]
      rfl
  | false =>
    have waits : ¬ p.phase = .exchanging := by
      rw [off.phase]
      exact nofun
    cases act with
    | tick cycles =>
      unfold SerialPort.perform tick
      simp only [off.phase]
      exact ⟨⟨off.phase, off.stopped, off.unstarted, off.noted⟩, rfl, rfl⟩
    | resume =>
      unfold SerialPort.perform resume
      simp only [if_neg waits]
      exact ⟨off, rfl, rfl⟩
    | timeOut =>
      unfold SerialPort.perform timeOut
      simp only [if_neg waits]
      exact ⟨off, rfl, rfl⟩
    | arrive segment =>
      obtain ⟨later, quiet⟩ := off.arrive segment
      refine ⟨later, ?_, rfl⟩
      unfold SerialPort.perform
      rw [Traced.trace_bind, deeds_append, quiet]
      rfl
    | turn host => exact ⟨⟨off.phase, off.stopped, off.unstarted, off.noted⟩, rfl, rfl⟩
    | _ => cases access

theorem Off.run {reason : Failure} (off : p.Off reason) (acts : List Act) :
    (p.run acts).value.Off reason := by
  induction acts generalizing p with
  | nil => exact off
  | cons act rest ih => exact ih (off.perform act).1

theorem Off.doDeeds {reason : Failure} (off : p.Off reason) (ds : List Deed) :
    (p.doDeeds ds).value.Off reason ∧ deeds (p.doDeeds ds).trace = [] := by
  induction ds generalizing p with
  | nil => exact ⟨off, rfl⟩
  | cons deed rest ih =>
    have next : (p.doDeed deed).value.2.Off reason ∧ deeds (p.doDeed deed).trace = [] := by
      cases deed with
      | act act =>
        obtain ⟨next, quiet, _⟩ := off.perform act
        exact ⟨next, quiet⟩
      | unplug =>
        obtain ⟨next, quiet⟩ := off.unplug
        refine ⟨next, ?_⟩
        unfold doDeed
        rw [Traced.trace_bind, deeds_append, quiet]
        rfl
    obtain ⟨last, silent⟩ := ih next.1
    rw [SerialPort.doDeeds, Traced.trace_bind, Traced.value_bind, deeds_append, next.2]
    exact ⟨last, silent⟩

/-! ### Whole runs -/

/-- The link is there.  The port has noted no failure, and if the receiver has ended it has told why. -/
structure Linked (p : SerialPort) : Prop where
  enabled : p.isEnabled
  unnoted : p.lastError = none
  explained : p.toSession.Explained

theorem Linked.keeps (linked : p.Linked) (keeps : p.Keeps q) (enabled : q.isEnabled) : q.Linked :=
  ⟨enabled, keeps.lastError.trans linked.unnoted, keeps.session.explained linked.explained⟩

/-- If the link is lost in an act the port is off. -/
theorem Linked.perform {act : Act} (linked : p.Linked) (sound : p.Sound) (possible : act.isPossible p) :
    p.Keeps (p.perform act).value.2 ∧ (p.perform act).value.2.Linked ∨
      ∃ reason, (p.perform act).value.2.Off reason := by
  rcases fate_perform sound linked.enabled possible with ⟨_, value⟩ | ⟨_, fate⟩
  · rw [value]
    exact .inr ⟨_, off_disable (sound.linked (isEnabled_iff.mp linked.enabled)) linked.unnoted _⟩
  · cases fate with
    | lasts enabled keeps => exact .inl ⟨keeps, linked.keeps keeps enabled⟩
    | lost r keeps session _ value =>
      rw [value]
      exact .inr ⟨_, off_disable session (keeps.lastError.trans linked.unnoted) _⟩

/-- After a run the link is still there, or the port is off. -/
theorem Linked.run {acts : List Act} (linked : p.Linked) (sound : p.Sound) (can : p.canRun acts) :
    p.Keeps (p.run acts).value ∧ (p.run acts).value.Linked ∨ ∃ reason, (p.run acts).value.Off reason := by
  induction acts generalizing p with
  | nil => exact .inl ⟨.of_receiver rfl rfl, linked⟩
  | cons act rest ih =>
    obtain ⟨possible, can⟩ := Bool.and_eq_true _ _ ▸ can
    rcases linked.perform sound possible with ⟨keeps, next⟩ | ⟨reason, off⟩
    · rcases ih next (sound_perform possible sound) can with ⟨more, last⟩ | off
      · exact .inl ⟨keeps.trans more, last⟩
      · exact .inr off
    · exact .inr ⟨reason, off.run rest⟩

/-- A link that is there after a run was there all the time. -/
theorem Linked.lasted {acts : List Act} (linked : p.Linked) (sound : p.Sound) (can : p.canRun acts)
    (enabled : (p.run acts).value.isEnabled) :
    p.Keeps (p.run acts).value ∧ (p.run acts).value.Linked := by
  refine (linked.run sound can).resolve_right fun ⟨_, off⟩ => ?_
  exact isEnabled_iff.mp enabled off.phase

/-! ### Links from their beginning -/

theorem linked_attach {made : Bool} {connection : Connection} (unplugged : p.Unplugged)
    (unnoted : p.lastError = none) (established : made → connection.established)
    (enabled : (p.attach made connection).value.2.isEnabled) :
    (p.attach made connection).value.2.Linked := by
  revert enabled
  unfold attach
  split
  · next protocol _ =>
    have explained := Session.explained_start
      (s := { p.toSession with connection, protocol, queue := .fresh }) (established rfl) unplugged.started
    exact fun enabled => ⟨enabled, unnoted, explained⟩
  · exact fun enabled => absurd unplugged.phase (isEnabled_iff.mp enabled)

theorem linked_connect (config : Config) (unplugged : p.Unplugged) (unnoted : p.lastError = none)
    (enabled : (p.connect config).value.2.isEnabled) : (p.connect config).value.2.Linked := by
  revert enabled
  unfold connect
  split
  · exact fun enabled => absurd unplugged.phase (isEnabled_iff.mp enabled)
  · next address _ =>
    exact linked_attach unplugged unnoted (made_dial config address p.connection).2

/-- A link that was plugged in is there, and nothing has failed. -/
theorem linked_plugIn {config : Config} {hasListener : Bool} {host : Tcp.Host} (unplugged : p.Unplugged)
    (enabled : (p.plugIn config hasListener host).value.isEnabled) :
    (p.plugIn config hasListener host).value.Linked := by
  obtain ⟨phase, pending, started⟩ := unplugged
  -- A reset makes no link, so that one which is there now was there before it.
  have before : ∀ q : SerialPort, q.reset.isEnabled → q.isEnabled := by
    intro q enabled
    rw [isEnabled_iff] at enabled ⊢
    exact mt (accessed_reset q).unlinked.mpr enabled
  revert enabled
  unfold plugIn
  dsimp only
  split
  · exact fun enabled => absurd phase (isEnabled_iff.mp (before _ enabled))
  · have connected := linked_connect (p := { p with
      hasListener
      interruptBased := config.interruptBased
      transferTimeout := config.transferTimeout
      lastError := none
      clock := .start
      connection := { p.connection with host } }) config ⟨phase, pending, started⟩ rfl
    rw [Traced.value_bind]
    split
    all_goals
      intro enabled
      obtain ⟨_, unnoted, explained⟩ := connected (before _ enabled)
      exact ⟨enabled, unnoted, explained⟩

end SerialPort

namespace Link

open SerialPort

theorem linked_made {l : Link} (enabled : l.made.value.isEnabled) : l.made.value.Linked :=
  linked_plugIn (unplugged_unplug l.origin) enabled

/-- If a link is there after a run, it was so at every point of it, and a receiver that had ended has stayed as
it was. -/
theorem keeps_run {l : Link} {a b : List Act} (can : l.canRun (a ++ b))
    (enabled : (l.run (a ++ b)).value.isEnabled) :
    (l.run a).value.Keeps (l.run (a ++ b)).value ∧ (l.run (a ++ b)).value.Linked := by
  obtain ⟨first, last⟩ := Bool.and_eq_true _ _ ▸ l.canRun_append a b ▸ can
  obtain ⟨made, ran⟩ := Bool.and_eq_true _ _ ▸ first
  rw [value_run_append] at enabled ⊢
  rcases (linked_made made).run (sound_made made) ran with ⟨_, linked⟩ | ⟨_, off⟩
  · exact linked.lasted (sound_run first) last enabled
  · exact absurd (off.run b).phase (isEnabled_iff.mp enabled)

/-- **The loss of a link is final, and its cause is the first one.**  A link that an act loses is lost because the
port gave up waiting, with nothing in the queue and the queue still open, or else for the reason that the
receiver had told when it ended, be that in this act or before.  That remains the failure, and there is no role,
no data, no bit to come, no packet and no interrupt any more, whatever is done except to plug another link
in. -/
theorem loss_is_final {l : Link} {acts : List Act} {act : Act} (can : l.canRun (acts ++ [act]))
    (enabled : (l.run acts).value.isEnabled)
    (lost : (l.run (acts ++ [act])).value.isEnabled = false) (later : List Deed) :
    let p := (l.run acts).value
    let q := (l.run (acts ++ [act])).value
    let x := q.doDeeds later
    (act = .timeOut ∧ p.transferTimeout ≠ 0 ∧ p.queue = .fresh ∧ q.error = some .transferTimeout ∨
        act ≠ .timeOut ∧ ∃ r : SerialPort,
          ∃ reason ∈ [Failure.versionMismatch, .connectionTerminated, .malformedPacket],
            q = (r.disable r.receiverError).value ∧ r.receiver.running = false ∧
              r.receiver.error = some reason ∧ q.error = some reason ∧
              ∀ a b, acts = a ++ b → (l.run a).value.receiver.running = false →
                (l.run a).value.receiver.error = some reason) ∧
      x.value.isEnabled = false ∧ x.value.role = .disabled ∧ x.value.readData = 0xff ∧
      x.value.cyclesToTransmit = 65536 ∧ packets x.trace = [] ∧ interrupts x.trace = 0 ∧
      x.value.error = q.error ∧ ∀ cycles, (x.value.tick cycles).value.1 = .idle := by
  intro p q x
  obtain ⟨first, last⟩ := Bool.and_eq_true _ _ ▸ l.canRun_append acts [act] ▸ can
  have possible : act.isPossible p := (Bool.and_eq_true _ _ ▸ last).1
  have sound : p.Sound := sound_run first
  have linked : p.Linked := (keeps_run (a := []) first enabled).2
  have session := sound.linked (isEnabled_iff.mp enabled)
  have next : q = (p.perform act).value.2 := l.value_run_append acts [act]
  -- Once it is known why the port is off, the rest is how a port that is off goes on.
  have after : ∀ reason, q.Off reason → x.value.isEnabled = false ∧ x.value.role = .disabled ∧
      x.value.readData = 0xff ∧ x.value.cyclesToTransmit = 65536 ∧ packets x.trace = [] ∧
      interrupts x.trace = 0 ∧ x.value.error = q.error ∧
      ∀ cycles, (x.value.tick cycles).value.1 = .idle := by
    intro reason off
    obtain ⟨later, quiet⟩ := off.doDeeds later
    obtain ⟨disabled, role, data, cycles, error⟩ := later.seen
    refine ⟨disabled, role, data, cycles, ?_, ?_, error.trans off.seen.2.2.2.2.symm, ?_⟩
    · rw [← packets_deeds, quiet]
      rfl
    · rw [← interrupts_deeds, quiet]
      rfl
    · exact fun cycles => (later.perform (.tick cycles)).2.2
  rcases fate_perform sound linked.enabled possible with ⟨rfl, value⟩ | ⟨other, fate⟩
  · have off : q.Off .transferTimeout := by
      rw [next, value]
      exact off_disable session linked.unnoted _
    simp only [Act.isPossible, Bool.and_eq_true, beq_iff_eq, bne_iff_ne] at possible
    obtain ⟨⟨_, bounded⟩, empty⟩ := possible
    exact ⟨.inl ⟨rfl, bounded, session.ordered.eq_fresh empty, off.seen.2.2.2.2⟩, after _ off⟩
  · cases fate with
    | lasts enabled _ =>
      rw [← next, lost] at enabled
      cases enabled
    | lost r keeps session closed value =>
      have stopped : r.receiver.running = false := by
        rw [session.closed, Bool.not_eq_true'] at closed
        exact closed
      obtain ⟨reason, among, told⟩ := keeps.session.explained linked.explained stopped
      have cause : r.receiverError = reason := by
        rw [receiverError, told]
        rfl
      have off : q.Off reason := by
        rw [next, value, cause]
        exact off_disable session (keeps.lastError.trans linked.unnoted) reason
      refine ⟨.inr ⟨other, r, reason, among, next.trans value, stopped, told, off.seen.2.2.2.2, ?_⟩,
        after _ off⟩
      rintro a b rfl before
      have kept := ((keeps_run first enabled).1.trans keeps).session.ended before
      exact kept.2.symm.trans told

/-- The peer speaks another version, and nothing that is done after the next tick changes that. -/
theorem loss_is_final_mismatch :
    let q := (called.run [.arrive (.data [1, 1, 3, 0, 0, 0, 0, 0]), .tick 4]).value
    let x := q.doDeeds [.act (.writeControl 129), .act (.tick 514), .unplug, .act .reset]
    q.error = some .versionMismatch ∧ x.value.error = some .versionMismatch ∧ x.value.readData = 0xff ∧
      packets x.trace = [] := by
  have can : called.canRun ([.arrive (.data [1, 1, 3, 0, 0, 0, 0, 0])] ++ [.tick 4]) := by decide
  have law := loss_is_final can (by decide) (by decide)
    [.act (.writeControl 129), .act (.tick 514), .unplug, .act .reset]
  obtain ⟨_, _, _, data, _, sent, _, error, _⟩ := law
  have cause : (called.run [.arrive (.data [1, 1, 3, 0, 0, 0, 0, 0]), .tick 4]).value.error =
      some .versionMismatch := by decide
  exact ⟨cause, error.trans cause, data, sent⟩

end Link

end SerialLink
