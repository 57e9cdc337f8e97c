import SerialLink.Proofs.Alike
import SerialLink.Proofs.Life

/-!
# Plugging in afresh

Plugging a link in begins anew: whatever was done with the port before, it ends as for a port that was just switched
on, but for what an earlier receiver has left behind (`SerialPort.plug_afresh`).  A receiver that is started
forgets that; if no link is made it stays.  So after an earlier link the port goes on telling of that link's end
where nothing was to be plugged in (`SerialPort.error_plug_unnamed`).
-/

namespace SerialLink

open Event

/-! ### What receivers leave behind -/

namespace Session

/-- The receiver runs, or it has told why it has ended. -/
def Marked (s : Session Registers) : Prop := s.receiver.running = false → s.receiver.error ≠ none

variable {s t : Session Registers} {h : List Event}

theorem Move.marked (move : Move s h t) (marked : s.Marked) : t.Marked := by
  cases move with
  | read | take => exact marked
  | finish => exact fun _ => nofun

theorem Moves.marked (moves : Moves s h t) (marked : s.Marked) : t.Marked :=
  moves.keeps (fun _ _ _ move => move.marked) marked

end Session

namespace SerialPort

variable {p q : SerialPort} {op : Operation} {ops : List Operation}

theorem Step.marked {h : List Event} (step : Step p h q) (marked : p.toSession.Marked) :
    q.toSession.Marked := by
  cases step with
  | receiver move => exact move.marked marked
  | _ => exact marked

theorem marked_unplug (marked : p.toSession.Marked) : p.unplug.value.toSession.Marked := by
  have stopped : p.toSession.stop.value.Marked := by
    rw [Session.stop_eq]
    split
    · have closing : Session.Marked { p.toSession with connection := p.connection.close } := marked
      exact (Session.moves_pump _).marked closing
    · exact marked
  exact stopped

theorem marked_operate (possible : op.isPossible p) (sound : p.Sound) (marked : p.toSession.Marked) :
    (p.operate op).value.2.toSession.Marked := by
  cases op with
  | act act =>
    cases access : act.isAccess with
    | true =>
      have same := (accessed_perform access p).2.receiver
      show Session.Marked (p.perform act).value.2.toSession
      rw [Session.Marked, same]
      exact marked
    | false =>
      exact (leads_perform access possible sound).steps.keeps (P := fun p => p.toSession.Marked)
        (fun _ _ _ step => step.marked) marked
  | unplug => exact marked_unplug marked
  | plug config hasListener host =>
    obtain ⟨q, attempted, value⟩ := plugIn_cases config hasListener host p.unplug.value
    have value : (p.plug config hasListener host).value = q.reset := value
    show Session.Marked (p.plug config hasListener host).value.toSession
    rw [value]
    show q.toSession.Marked
    cases attempted with
    | linked connection protocol established same =>
      obtain ⟨_, _, _, _, moves, _⟩ := Session.start_spec
        (s := (p.unplug.value.prepared config hasListener host).session connection protocol) established
        (unplugged_unplug p).started rfl
      rw [same]
      exact moves.marked nofun
    | without connection error _ same =>
      rw [same]
      exact marked_unplug marked

/-- There is no link, and no receiver was ever started. -/
structure Pristine (p : SerialPort) : Prop where
  phase : p.phase = .disabled
  receiver : p.receiver = {}

theorem pristine_new : new.Pristine := ⟨rfl, rfl⟩

theorem Step.pristine {h : List Event} (step : Step p h q) (pristine : p.Pristine) : q.Pristine := by
  obtain ⟨phase, receiver⟩ := pristine
  cases step with
  | receiver move =>
    -- Every move is one of a receiver that runs.
    have working : p.receiver.running = true := by cases move <;> assumption
    rw [receiver] at working
    cases working
  | connection | idle => exact ⟨phase, receiver⟩
  | pass cycles ready => rcases ready with h | h <;> cases phase.symm.trans h
  | listen ready | offer ready | fail ready => cases phase.symm.trans ready
  | wait begun | shift _ _ begun | complete _ _ begun => cases phase.symm.trans begun
  | lose =>
    refine ⟨rfl, ?_⟩
    show { p.receiver with started := false } = _
    rw [receiver]

theorem pristine_unplug (pristine : p.Pristine) : p.unplug.value.Pristine := by
  refine ⟨rfl, ?_⟩
  show p.toSession.stop.value.receiver = {}
  rw [Session.stop_eq, if_neg]
  · exact pristine.receiver
  · rw [pristine.receiver]
    exact nofun

/-- As long as no link is made no receiver is started. -/
theorem pristine_operate (possible : op.isPossible p) (sound : p.Sound) (pristine : p.Pristine)
    (off : (p.operate op).value.2.phase = .disabled) : (p.operate op).value.2.Pristine := by
  cases op with
  | act act =>
    cases access : act.isAccess with
    | true => exact ⟨off, (accessed_perform access p).2.receiver.trans pristine.receiver⟩
    | false =>
      exact (leads_perform access possible sound).steps.keeps (fun _ _ _ step => step.pristine) pristine
  | unplug => exact pristine_unplug pristine
  | plug config hasListener host =>
    obtain ⟨q, attempted, value⟩ := plugIn_cases config hasListener host p.unplug.value
    have value : (p.plug config hasListener host).value = q.reset := value
    refine ⟨off, ?_⟩
    show (p.plug config hasListener host).value.receiver = {}
    have off : (p.plug config hasListener host).value.phase = .disabled := off
    rw [value] at off ⊢
    cases attempted with
    | linked connection protocol _ same =>
      rw [same] at off
      cases off
    | without connection error _ same =>
      rw [same]
      exact (pristine_unplug pristine).receiver

/-- Whether a link was ever made while one operation after the other was done. -/
def hasLinked : List Operation → SerialPort → Bool
  | [], _ => false
  | op :: ops, p => (p.operate op).value.2.isEnabled || hasLinked ops (p.operate op).value.2

/-- What the receivers have left behind tells whether a link was ever made. -/
theorem left_live (can : p.canLive ops) (sound : p.Sound) (pristine : p.Pristine) :
    if p.hasLinked ops then (p.live ops).value.toSession.Marked else (p.live ops).value.Pristine := by
  induction ops generalizing p with
  | nil => exact pristine
  | cons op rest ih =>
    obtain ⟨possible, can⟩ := Bool.and_eq_true _ _ ▸ can
    rw [hasLinked]
    cases enabled : (p.operate op).value.2.isEnabled with
    | false =>
      have off : (p.operate op).value.2.phase = .disabled := bne_eq_false_iff_eq.mp enabled
      rw [Bool.false_or]
      exact ih can (sound.operate possible) (pristine_operate possible sound pristine off)
    | true =>
      -- The receiver of a link that was just made runs, or has told why it has ended.
      have linked := linked_operate possible sound
        (fun enabled => absurd pristine.phase (isEnabled_iff.mp enabled)) enabled
      have marked : (p.operate op).value.2.toSession.Marked := by
        intro stopped
        obtain ⟨reason, _, told⟩ := linked.explained stopped
        rw [told]
        exact nofun
      rw [Bool.true_or, if_pos rfl]
      exact (live_keeps (P := fun p => p.toSession.Marked)
        (fun _ _ possible sound => marked_operate possible sound) can (sound.operate possible) marked).2

/-! ### Two ports -/

/-- The ports are the same but for registers that the next reset sets anew, and for what receivers have left
behind if there is no link. -/
inductive Alike (p : SerialPort) : SerialPort → Prop
  | intro {r : Registers} {receiver : Receiver} {bits : Nat} {cycles : UInt32} (port : p.port.Alike r)
      (linked : p.phase ≠ .disabled → receiver = p.receiver) :
      Alike p { p with port := r, receiver, transferredBits := bits, cycleCount := cycles }

theorem Alike.connection (alike : p.Alike q) : q.connection = p.connection := by
  cases alike
  rfl

theorem Alike.reset (alike : p.Alike q) : q.reset = { p.reset with receiver := q.receiver } := by
  cases alike with
  | intro port linked =>
    unfold SerialPort.reset
    dsimp only
    rw [port.waiting]
    rfl

theorem Alike.receiver (alike : p.Alike q) (linked : p.phase ≠ .disabled) : q.receiver = p.receiver := by
  cases alike with
  | intro _ same => exact same linked

/-- Whatever was done with a port, it is prepared for a link as one that was just switched on. -/
theorem alike_prepared (config : Config) (hasListener : Bool) (host : Tcp.Host) (p : SerialPort) :
    (new.prepared config hasListener host).Alike (p.unplug.value.prepared config hasListener host) := by
  have alike : (new.prepared config hasListener host).port.Alike p.unplug.value.port := ⟨rfl, rfl, rfl⟩
  show Alike _ { new.prepared config hasListener host with
    port := p.unplug.value.port
    receiver := p.unplug.value.receiver
    transferredBits := p.unplug.value.transferredBits
    cycleCount := p.unplug.value.cycleCount }
  exact .intro alike fun linked => absurd rfl linked

/-- Ports come out alike, with similar histories. -/
structure Likewise (x y : Traced (Bool × SerialPort)) : Prop where
  made : y.value.1 = x.value.1
  alike : x.value.2.Alike y.value.2
  similar : Resembles (deeds x.trace) (deeds y.trace)

theorem Alike.attach (alike : p.Alike q) (unstarted : p.receiver.started = false)
    (unstarted' : q.receiver.started = false) {made : Bool} {connection : Connection}
    (established : made → connection.established) (off : p.phase = .disabled) :
    Likewise (p.attach made connection) (q.attach made connection) := by
  have without : ∀ lastError : Option Failure, Alike { p with connection := connection.destroy, lastError }
      { q with connection := connection.destroy, lastError } := by
    intro lastError
    cases alike with
    | intro port _ => exact .intro port fun linked => absurd off linked
  unfold SerialPort.attach
  cases made with
  | false => exact ⟨rfl, without _, .refl _⟩
  | true =>
    cases Protocol.start? connection.role with
    | none => exact ⟨rfl, without _, .refl _⟩
    | some protocol =>
      have greeted : Session.Alike (p.session connection protocol).greeted
          (q.session connection protocol).greeted := by
        cases alike with
        | intro port _ => exact .intro _ port
      obtain ⟨after, similar⟩ := greeted.start rfl (established rfl) unstarted unstarted'
      have attached : (p.attached connection protocol).Alike (q.attached connection protocol) := by
        unfold SerialPort.attached
        generalize (p.session connection protocol).start.value.2 = s at after
        generalize (q.session connection protocol).start.value.2 = t at after
        cases alike
        cases after with
        | intro port => exact .intro port fun _ => rfl
      refine ⟨rfl, attached, ?_⟩
      simp only [Traced.trace_bind, deeds_append]
      exact similar.append (.refl _)

theorem Alike.connect (alike : p.Alike q) (unstarted : p.receiver.started = false)
    (unstarted' : q.receiver.started = false) (off : p.phase = .disabled) (config : Config) :
    Likewise (p.connect config) (q.connect config) := by
  unfold SerialPort.connect
  cases Address.parse? config.peerAddress with
  | none =>
    refine ⟨rfl, ?_, .refl _⟩
    cases alike with
    | intro port _ => exact .intro port fun linked => absurd off linked
  | some address =>
    obtain ⟨made, attached, similar⟩ := alike.attach unstarted unstarted'
      (made_dial config address p.connection).2 off
    rw [alike.connection]
    refine ⟨made, attached, ?_⟩
    simp only [Traced.trace_bind, deeds_append]
    exact (Resembles.refl _).append similar

/-- An attempt begins with the port prepared for it, and ends with a reset. -/
theorem plugIn_eq (config : Config) (hasListener : Bool) (host : Tcp.Host) (p : SerialPort)
    (named : config.peerAddress ≠ []) :
    (p.plugIn config hasListener host).value =
        ((p.prepared config hasListener host).connect config).value.2.reset ∧
      deeds (p.plugIn config hasListener host).trace =
        deeds ((p.prepared config hasListener host).connect config).trace := by
  have some : config.peerAddress.isEmpty = false := List.isEmpty_eq_false_iff.mpr named
  unfold plugIn
  simp only [some, Bool.false_eq_true, if_false, Traced.value_bind, Traced.trace_bind, deeds_append]
  constructor
  · split <;> rfl
  · split <;> exact List.append_nil _

/-- Where no peer is named nothing is attempted. -/
theorem plugIn_unnamed (config : Config) (hasListener : Bool) (host : Tcp.Host) (p : SerialPort)
    (unnamed : config.peerAddress = []) :
    (p.plugIn config hasListener host).value = (p.prepared config hasListener host).reset ∧
      deeds (p.plugIn config hasListener host).trace = [] := by
  have none : config.peerAddress.isEmpty = true := List.isEmpty_iff.mpr unnamed
  unfold plugIn
  simp only [none, if_true]
  exact ⟨rfl, rfl⟩

/-- Whatever was done with a port, plugging in comes out as for one that was just switched on. -/
theorem afresh_plugIn (config : Config) (hasListener : Bool) (host : Tcp.Host) (p : SerialPort) :
    let x := p.unplug.value.plugIn config hasListener host
    let y := new.plugIn config hasListener host
    x.value = { y.value with receiver := x.value.receiver } ∧
      (y.value.isEnabled → x.value.receiver = y.value.receiver) ∧
      Resembles (deeds y.trace) (deeds x.trace) := by
  intro x y
  have alike := alike_prepared config hasListener host p
  by_cases named : config.peerAddress = []
  · obtain ⟨value, trace⟩ := plugIn_unnamed config hasListener host p.unplug.value named
    obtain ⟨value', trace'⟩ := plugIn_unnamed config hasListener host new named
    rw [value, value', trace, trace']
    exact ⟨alike.reset, nofun, .refl _⟩
  · obtain ⟨value, trace⟩ := plugIn_eq config hasListener host p.unplug.value named
    obtain ⟨value', trace'⟩ := plugIn_eq config hasListener host new named
    obtain ⟨_, after, similar⟩ := alike.connect rfl (unplugged_unplug p).started rfl config
    rw [value, value', trace, trace']
    refine ⟨after.reset, fun enabled => after.receiver ?_, similar⟩
    exact mt (accessed_reset _).unlinked.mpr (isEnabled_iff.mp enabled)

/-! ### After any life -/

/-- Giving a link up handles nothing and sends nothing. -/
theorem Sound.deeds_unplug (sound : p.Sound) : deeds p.unplug.trace = [] := by
  have quiet : deeds p.toSession.stop.trace = [] := by
    by_cases unlinked : p.phase = .disabled
    · unfold Session.stop
      split
      · -- Without a link the receiver does not run, and makes no move.
        have moves := Session.moves_pump { p.toSession with connection := p.connection.close }
        rw [Traced.trace_bind, deeds_append]
        exact (List.append_nil _).trans (moves.eq_of_stopped (sound.unlinked unlinked).1).1
      · rfl
    · exact (sound.linked unlinked).deeds_stop
  unfold SerialPort.unplug
  rw [Traced.trace_bind, deeds_append, quiet]
  rfl

/-- If no link is made the reason is noted, if there is one; the queue and what receivers have left behind stay. -/
theorem off_plugIn {config : Config} {hasListener : Bool} {host : Tcp.Host}
    (off : (p.plugIn config hasListener host).value.isEnabled = false) :
    ((p.plugIn config hasListener host).value.lastError = none ↔ config.peerAddress = []) ∧
      (p.plugIn config hasListener host).value.receiver = p.receiver ∧
      (p.plugIn config hasListener host).value.queue = p.queue := by
  obtain ⟨q, attempted, value⟩ := plugIn_cases config hasListener host p
  rw [value] at off ⊢
  cases attempted with
  | linked connection protocol _ same =>
    rw [same] at off
    cases off
  | without connection error cause same =>
    rw [same]
    exact ⟨cause, rfl, rfl⟩

/-- In the queue of a link that was just made is what has come since. -/
theorem items_plug {config : Config} {hasListener : Bool} {host : Tcp.Host} (sound : p.Sound)
    (enabled : (p.plug config hasListener host).value.isEnabled) :
    (p.plug config hasListener host).value.queue.items =
        arrived (p.plug config hasListener host).trace ∧
      (p.plug config hasListener host).value.queue.closed =
        !(p.plug config hasListener host).value.receiver.running := by
  let l : Link := ⟨p, config, hasListener, host⟩
  have session := (Link.sound_made (l := l) enabled).linked (isEnabled_iff.mp enabled)
  refine ⟨?_, session.closed⟩
  have came : arrived (p.plug config hasListener host).trace = arrived l.made.trace := by
    rw [← arrived_deeds, ← arrived_deeds l.made.trace]
    show arrived (deeds (p.unplug.trace ++ l.made.trace)) = _
    rw [deeds_append, sound.deeds_unplug]
    rfl
  rw [came]
  show l.made.value.queue.items = arrived l.made.trace
  obtain ⟨q, made, value⟩ := Link.made_spec (l := l) enabled
  rw [value]
  obtain ⟨deeds_eq, greeting, fresh, moves, _⟩ := made
  rw [← arrived_deeds, deeds_eq]
  have items := moves.items ⟨fresh.queue ▸ BitQueue.ordered_fresh, by rw [fresh.queue, fresh.working]; rfl⟩
  rw [fresh.queue] at items
  -- What was first told is the version, which brings nothing.
  rcases greeting with rfl | rfl <;> exact items

/-- When a link is given up nothing is left behind if there was never one, and else the reason for which the
last receiver has ended. -/
theorem left_unplug (can : new.canLive ops) :
    if new.hasLinked ops then (new.live ops).value.unplug.value.receiver.error ≠ none
    else (new.live ops).value.unplug.value.receiver = {} := by
  have left := left_live can sound_new pristine_new
  cases linked : new.hasLinked ops with
  | true =>
    rw [linked, if_pos rfl] at left
    exact marked_unplug left (sound_live can).running_unplug
  | false =>
    rw [linked, if_neg (by decide)] at left
    exact (pristine_unplug left).receiver

/-- Where a link was made now, or none was before, nothing is left of an earlier one. -/
theorem plug_eq (can : new.canLive ops) (config : Config) (hasListener : Bool) (host : Tcp.Host)
    (cause : ((new.live ops).value.plug config hasListener host).value.isEnabled = true ∨
      new.hasLinked ops = false) :
    ((new.live ops).value.plug config hasListener host).value =
      (new.plug config hasListener host).value := by
  have left := left_unplug can
  let x := ((new.live ops).value.unplug.value.plugIn config hasListener host).value
  let y := (new.plugIn config hasListener host).value
  obtain ⟨same, linked, _⟩ : x = { y with receiver := x.receiver } ∧
    (y.isEnabled → x.receiver = y.receiver) ∧ _ := afresh_plugIn config hasListener host _
  have enabled : x.isEnabled = y.isEnabled := by rw [same]; rfl
  have receiver : x.receiver = y.receiver := by
    cases on : x.isEnabled with
    | true => exact linked (enabled ▸ on)
    | false =>
      -- On either side the receiver is the one that was left behind.
      have never : new.hasLinked ops = false := by
        rcases cause with made | never
        · exact nomatch on.symm.trans made
        · exact never
      rw [never, if_neg (by decide)] at left
      exact ((off_plugIn on).2.1.trans left).trans (off_plugIn (p := new) (enabled ▸ on)).2.1.symm
  show x = y
  rw [same, receiver]

/-- The failure that the port tells is that of a new port, unless no peer is named and there was a link before. -/
theorem error_plug_iff (can : new.canLive ops) (config : Config) (hasListener : Bool) (host : Tcp.Host) :
    ((new.live ops).value.plug config hasListener host).value.error =
        (new.plug config hasListener host).value.error ↔
      config.peerAddress ≠ [] ∨ new.hasLinked ops = false := by
  have left := left_unplug can
  let x := ((new.live ops).value.unplug.value.plugIn config hasListener host).value
  let y := (new.plugIn config hasListener host).value
  obtain ⟨same, _⟩ : x = { y with receiver := x.receiver } ∧ _ := afresh_plugIn config hasListener host _
  constructor
  · intro told
    refine Decidable.or_iff_not_imp_left.mpr fun unnamed => ?_
    have unnamed : config.peerAddress = [] := Decidable.not_not.mp unnamed
    -- Nothing is attempted, so what is told is what was left behind.
    have value : x = (prepared config hasListener host (new.live ops).value.unplug.value).reset :=
      (plugIn_unnamed config hasListener host _ unnamed).1
    have value' : y = (new.prepared config hasListener host).reset :=
      (plugIn_unnamed config hasListener host new unnamed).1
    have told : x.error = y.error := told
    rw [value, value'] at told
    cases linked : new.hasLinked ops with
    | false => rfl
    | true =>
      rw [linked, if_pos rfl] at left
      exact absurd told left
  · intro cause
    cases on : x.isEnabled with
    | true => exact congrArg error (plug_eq can config hasListener host (.inl on))
    | false =>
      rcases cause with named | never
      · -- The reason for which no link was made is told before all that was left behind.
        have noted : y.lastError ≠ none := by
          have noted := mt (off_plugIn on).1.mp named
          rw [show x.lastError = y.lastError by rw [same]] at noted
          exact noted
        show x.error = y.error
        rw [same]
        show (y.lastError <|> x.receiver.error) = (y.lastError <|> y.receiver.error)
        cases first : y.lastError with
        | none => exact absurd first noted
        | some => rfl
      · exact congrArg error (plug_eq can config hasListener host (.inr never))

/-- **Plugging in begins anew**: whatever was done with the port before, it comes out as for a port that was just
switched on, but for what an earlier receiver has left behind if no link is made.  That is seen if no peer is
named and there was a link at any time: the port then tells of the end of that link, instead of no failure.
The histories differ at most in the answers to bits of the peer that come before plugging in is over. -/
theorem plug_afresh (can : new.canLive ops) (config : Config) (hasListener : Bool) (host : Tcp.Host) :
    let p := (new.live ops).value
    let x := p.plug config hasListener host
    let y := new.plug config hasListener host
    x.value = { y.value with receiver := x.value.receiver } ∧
      (x.value.isEnabled = true ∨ new.hasLinked ops = false → x.value = y.value) ∧
      (x.value.error = y.value.error ↔ config.peerAddress ≠ [] ∨ new.hasLinked ops = false) ∧
      (config.peerAddress = [] → y.value.error = none) ∧
      x.value.port.pending = false ∧
      (x.value.isEnabled = false → x.value.queue = .fresh) ∧
      (x.value.isEnabled = true → x.value.queue.items = arrived x.trace ∧
        x.value.queue.closed = !x.value.receiver.running) ∧
      Resembles (deeds y.trace) (deeds x.trace) := by
  intro p x y
  have sound : p.Sound := sound_live can
  obtain ⟨same, _, similar⟩ : x.value = { y.value with receiver := x.value.receiver } ∧ _ ∧
      Resembles (deeds y.trace) (deeds (p.unplug.value.plugIn config hasListener host).trace) :=
    afresh_plugIn config hasListener host p
  have trace : deeds x.trace = deeds (p.unplug.value.plugIn config hasListener host).trace := by
    show deeds (p.unplug.trace ++ _) = _
    rw [deeds_append, sound.deeds_unplug]
    rfl
  refine ⟨same, plug_eq can config hasListener host, error_plug_iff can config hasListener host, ?_, ?_, ?_,
    fun on => items_plug sound on, trace ▸ similar⟩
  · intro unnamed
    show (new.plugIn config hasListener host).value.error = none
    rw [(plugIn_unnamed config hasListener host new unnamed).1]
    rfl
  · obtain ⟨q, _, value⟩ := plugIn_cases config hasListener host p.unplug.value
    show (p.unplug.value.plugIn config hasListener host).value.port.pending = false
    rw [value]
    rfl
  · intro off
    exact (off_plugIn (p := p.unplug.value) off).2.2

/-- A byte is half exchanged when the link is given up; plugging in again comes out as for a new port. -/
theorem plug_afresh_called :
    let ops : List Operation := [.plug Link.called.config true Link.called.host, .act (.writeControl 129),
      .act (.tick 514), .act (.arrive (.data [104, 1, 129, 0, 0, 0, 0, 0])), .act .resume, .unplug]
    new.canLive ops = true ∧
      ((new.live ops).value.plug Link.called.config true Link.called.host).value =
        (new.plug Link.called.config true Link.called.host).value := by
  intro ops
  have can : new.canLive ops = true := by decide
  have law := plug_afresh can Link.called.config true Link.called.host
  exact ⟨can, law.2.1 (.inl (by decide))⟩

/-- After a link, a port into which nothing was to be plugged tells of the end of that link. -/
theorem error_plug_unnamed :
    let p := (new.live [.plug Link.called.config true Link.called.host]).value
    (p.plug {} false {}).value.error = some .connectionTerminated ∧
      (new.plug {} false {}).value.error = none := by
  decide

end SerialPort

end SerialLink
