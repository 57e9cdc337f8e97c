import SerialLink.Proofs.AtWork
import SerialLink.Proofs.Sending

/-!
# The tool, step by step

What happens to the tool is one thing after the other until its work is over; what comes later then does not matter
(`Tool.Process.work_append_of_over`).  A step is what its port does that goes on, and what the tool makes of that
(`Tool.Process.exists_stepped`).  The tool begins over a connection that it has made: if that works, its port is
linked, attends to the peer, and all bits that the peer has said so far are queued (`Tool.establish_of_carries`).
-/

namespace SerialLink.Tool

open SerialPort Event

/-- Whether what happens is that a wait does not run out, and that the operating system goes on doing what it is
asked to. -/
def Happening.IsSmooth : Happening → Prop
  | .timeOut => False
  | .turn host => host.Calm
  | _ => True

/-- What the peer has said when something has happened. -/
def Happening.said (speech : Speech) : Happening → Speech
  | .arrive segment => speech.come segment
  | _ => speech

/-- What the peer has said when all of that has happened. -/
def saidAfter (speech : Speech) (happenings : List Happening) : Speech :=
  happenings.foldl Happening.said speech

variable {speech : Speech} {happening : Happening} {happenings : List Happening}

theorem said_of_over (happening : Happening) (gone : speech.IsOver) :
    (happening.said speech).IsOver ∧ (happening.said speech).bits = speech.bits := by
  cases happening with
  | arrive segment => exact ⟨gone.come.1, congrArg Speech.bitsOf gone.come.2⟩
  | _ => exact ⟨gone, rfl⟩

theorem saidAfter_of_over (happenings : List Happening) (gone : speech.IsOver) :
    (saidAfter speech happenings).IsOver ∧ (saidAfter speech happenings).bits = speech.bits := by
  induction happenings generalizing speech with
  | nil => exact ⟨gone, rfl⟩
  | cons happening rest ih =>
    obtain ⟨still, same⟩ := said_of_over happening gone
    obtain ⟨last, all⟩ := ih still
    exact ⟨last, all.trans same⟩

theorem bits_saidAfter (speech : Speech) (happenings : List Happening) :
    speech.bits <+: (saidAfter speech happenings).bits := by
  induction happenings generalizing speech with
  | nil => exact List.prefix_refl _
  | cons happening rest ih =>
    refine List.IsPrefix.trans ?_ (ih (happening.said speech))
    cases happening with
    | arrive segment => exact speech.bits_come segment
    | _ => exact List.prefix_refl _

theorem saidAfter_steps (speech : Speech) (n : Nat) :
    saidAfter speech (List.replicate n .step) = speech := by
  induction n with
  | zero => rfl
  | succ n ih => exact ih

theorem saidAfter_append (speech : Speech) (a b : List Happening) :
    saidAfter speech (a ++ b) = saidAfter (saidAfter speech a) b := List.foldl_append

namespace Process

variable {p : Process}

/-- Whether no bit is held back, whatever happens. -/
def keepsUp (happenings : List Happening) (p : Process) : Bool :=
  p.always (fun p happening => (p.meet happening).value.1 != .heldBack) happenings

/-- The tool lets so many cycles pass that the port comes nearer to its next bit. -/
theorem pace_nextCycles (p : Process) :
    p.nextCycles = 16 ∨ p.port.cyclesToTransmit.toNat ≤ p.nextCycles.toNat := by
  unfold nextCycles
  split
  · split
    · next none => exact .inr (by rw [none]; exact Nat.zero_le _)
    · exact .inr (Nat.le_refl _)
  · exact .inl rfl

/-! ### One thing after the other -/

theorem work_of_over {happening : Happening} {success : Bool} (rest : List Happening)
    (stands : (p.meet happening).value.1 = .over success) :
    (p.work (happening :: rest)).value.1 = .over success ∧
      (p.work (happening :: rest)).trace = (p.meet happening).trace := by
  rcases met : p.meet happening with ⟨⟨standing, q⟩, trace⟩
  rw [met] at stands
  obtain rfl : standing = .over success := stands
  rw [work, met]
  exact ⟨rfl, List.append_nil trace⟩

theorem work_of_going {happening : Happening} (rest : List Happening)
    (going : ∀ success, (p.meet happening).value.1 ≠ .over success) :
    (p.work (happening :: rest)).value = ((p.meet happening).value.2.work rest).value ∧
      (p.work (happening :: rest)).trace = (p.meet happening).trace ++
        ((p.meet happening).value.2.work rest).trace := by
  rcases met : p.meet happening with ⟨⟨standing, q⟩, trace⟩
  rw [met] at going
  rw [work, met]
  rcases standing with _ | _ | _ | success
  · exact ⟨rfl, rfl⟩
  · exact ⟨rfl, rfl⟩
  · exact ⟨rfl, rfl⟩
  · exact absurd rfl (going success)

theorem keepsUp_cons {happening : Happening} {rest : List Happening} :
    p.keepsUp (happening :: rest) ↔ (p.meet happening).value.1 ≠ .heldBack ∧
      ((∀ success, (p.meet happening).value.1 ≠ .over success) → (p.meet happening).value.2.keepsUp rest) := by
  refine Bool.and_eq_true_iff.trans (and_congr bne_iff_ne ?_)
  rcases (p.meet happening).value with ⟨standing, q⟩
  rcases standing with _ | _ | _ | success
  · exact ⟨fun later _ => later, fun later => later nofun⟩
  · exact ⟨fun later _ => later, fun later => later nofun⟩
  · exact ⟨fun later _ => later, fun later => later nofun⟩
  · exact ⟨fun _ going => absurd rfl (going success), fun _ => rfl⟩

theorem over_or_going (standing : Standing) :
    (∃ success, standing = .over success) ∨ ∀ success, standing ≠ .over success := by
  rcases standing with _ | _ | _ | success
  · exact .inr nofun
  · exact .inr nofun
  · exact .inr nofun
  · exact .inl ⟨success, rfl⟩

theorem going_of_cases {standing : Standing} (going : standing = .running ∨ standing = .blocked) (success : Bool) :
    standing ≠ .over success := by
  rcases going with rfl | rfl <;> nofun

/-! ### One run after the other -/

variable {a b : List Happening}

/-- A tool that is not over goes on from where it is. -/
theorem work_append_of_going (b : List Happening) (going : ∀ success, (p.work a).value.1 ≠ .over success) :
    (p.work (a ++ b)).value = ((p.work a).value.2.work b).value ∧
      (p.work (a ++ b)).trace = (p.work a).trace ++ ((p.work a).value.2.work b).trace := by
  induction a generalizing p with
  | nil => exact ⟨rfl, rfl⟩
  | cons happening rest ih =>
    have first : ∀ success, (p.meet happening).value.1 ≠ .over success :=
      fun success stands => going success (work_of_over rest stands).1
    obtain ⟨value, trace⟩ := work_of_going rest first
    obtain ⟨all, traces⟩ := work_of_going (rest ++ b) first
    rw [value] at going ⊢
    obtain ⟨later, more⟩ := ih going
    rw [List.cons_append, all, traces, trace, later, more, List.append_assoc]
    exact ⟨rfl, rfl⟩

/-- What happens after the work is over does not matter. -/
theorem work_append_of_over (b : List Happening) {success : Bool} (stands : (p.work a).value.1 = .over success) :
    (p.work (a ++ b)).value.1 = .over success ∧ (p.work (a ++ b)).trace = (p.work a).trace := by
  induction a generalizing p with
  | nil => cases stands
  | cons happening rest ih =>
    rcases over_or_going (p.meet happening).value.1 with ⟨_, standing⟩ | going
    · obtain ⟨first, trace⟩ := work_of_over rest standing
      obtain ⟨all, traces⟩ := work_of_over (rest ++ b) standing
      rw [first] at stands
      rw [List.cons_append, all, traces, trace, stands]
      exact ⟨rfl, rfl⟩
    · obtain ⟨value, trace⟩ := work_of_going rest going
      obtain ⟨all, traces⟩ := work_of_going (rest ++ b) going
      rw [value] at stands
      obtain ⟨later, more⟩ := ih stands
      rw [List.cons_append, all, traces, trace, later, more]
      exact ⟨rfl, rfl⟩

theorem work_singleton (happening : Happening) (p : Process) :
    (p.work [happening]).trace = (p.meet happening).trace ∧
      (∀ success, (p.meet happening).value.1 = .over success → (p.work [happening]).value.1 = .over success) ∧
      ((∀ success, (p.meet happening).value.1 ≠ .over success) →
        (p.work [happening]).value = (.running, (p.meet happening).value.2)) := by
  rcases over_or_going (p.meet happening).value.1 with ⟨success, standing⟩ | going
  · obtain ⟨stands, trace⟩ := work_of_over [] standing
    rw [standing]
    exact ⟨trace, fun _ same => stands.trans same, fun going => absurd rfl (going success)⟩
  · obtain ⟨value, trace⟩ := work_of_going [] going
    exact ⟨trace.trans (List.append_nil _), fun success same => absurd same (going success), fun _ => value⟩

/-- No bit is held back in a whole run if none is in its first part, nor in its second if it comes to that. -/
theorem keepsUp_append : p.keepsUp (a ++ b) ↔ p.keepsUp a ∧
    ((∀ success, (p.work a).value.1 ≠ .over success) → (p.work a).value.2.keepsUp b) := by
  induction a generalizing p with
  | nil => exact ⟨fun level => ⟨rfl, fun _ => level⟩, fun level => level.2 (going_of_cases (.inl rfl))⟩
  | cons happening rest ih =>
    rw [List.cons_append, keepsUp_cons, keepsUp_cons, and_assoc]
    refine and_congr_right fun _ => ?_
    rcases over_or_going (p.meet happening).value.1 with ⟨success, standing⟩ | going
    · have stands := (work_of_over rest standing).1
      exact ⟨fun _ => ⟨fun going => absurd standing (going success), fun going => absurd stands (going success)⟩,
        fun _ going => absurd standing (going success)⟩
    · rw [(work_of_going rest going).1, imp_iff_right going, imp_iff_right going, ih]

/-! ### Steps -/

/-- The tool whose port has gone on, before it makes anything of that. -/
structure Stepped (p q : Process) : Prop where
  port : q.port = (p.port.goOn p.nextCycles).value.2
  job : q.job = p.job
  value : p.step.value = (q.afterTick (p.port.goOn p.nextCycles).value.1).value
  trace : ∀ {α : Type} (view : Event → Option α), (∀ number, view (.noted (.interrupt number)) = none) →
    p.step.trace.filterMap view = (p.port.goOn p.nextCycles).trace.filterMap view ++
      (q.afterTick (p.port.goOn p.nextCycles).value.1).trace.filterMap view

/-- A step of the tool is one of its port, and then what the tool makes of it. -/
theorem exists_stepped (p : Process) : ∃ q, p.Stepped q := by
  refine ⟨{ p with
    port := (p.port.goOn p.nextCycles).value.2
    interrupts := (countInterrupts (p.port.goOn p.nextCycles).trace p.interrupts).2 }, rfl, rfl, rfl, ?_⟩
  intro α view counted
  show ((countInterrupts (p.port.goOn p.nextCycles).trace p.interrupts).1 ++ _).filterMap view = _
  rw [List.filterMap_append, filterMap_countInterrupts view counted]
  rfl

/-- A tool whose port has completed a byte finishes it. -/
theorem Stepped.finishes {q : Process} (stepped : p.Stepped q)
    (progress : (p.port.goOn p.nextCycles).value.1 = .completed) : p.step.value = q.finishByte.value := by
  rw [stepped.value, progress]
  rfl

/-- If the tool holds no bit back, its port does not. -/
theorem Stepped.level {q : Process} (stepped : p.Stepped q) (level : p.step.value.1 ≠ .heldBack)
    (idle : (p.port.goOn p.nextCycles).value.1 = .idle)
    (enabled : (p.port.goOn p.nextCycles).value.2.isEnabled) :
    isHeldBack (p.port.goOn p.nextCycles).value.2 = false := by
  rw [← stepped.port] at enabled ⊢
  rw [stepped.value, idle] at level
  unfold afterTick at level
  simp only [enabled, Bool.not_true, Bool.false_eq_true, if_false, Traced.value_pure] at level
  cases held : isHeldBack q.port with
  | false => rfl
  | true =>
    rw [held] at level
    exact absurd rfl level

/-- A tool whose port has lost the link is done. -/
theorem afterTick_of_off (off : p.port.phase = .disabled) :
    p.afterTick .idle = pure (.over (isEndless p.job), p) := by
  have off : p.port.isEnabled = false := by
    rw [SerialPort.isEnabled, off]
    rfl
  unfold afterTick
  simp only [off, Bool.not_false, if_true]

/-- A tool whose port goes on goes on. -/
theorem afterTick_of_going {progress : SerialPort.Progress} (linked : p.port.phase ≠ .disabled)
    (going : progress ≠ .completed) (level : (p.afterTick progress).value.1 ≠ .heldBack) :
    ∃ standing, (standing = .running ∨ standing = .blocked) ∧ p.afterTick progress = pure (standing, p) := by
  have enabled : p.port.isEnabled = true := isEnabled_iff.mpr linked
  cases progress with
  | completed => exact absurd rfl going
  | blocked => exact ⟨.blocked, .inr rfl, rfl⟩
  | idle =>
    unfold afterTick at level ⊢
    simp only [enabled, Bool.not_true, Bool.false_eq_true, if_false, Traced.value_pure] at level ⊢
    cases held : isHeldBack p.port with
    | false => exact ⟨.running, .inl rfl, rfl⟩
    | true =>
      rw [held] at level
      exact absurd rfl level

end Process

/-! ### How the tool begins -/

/-- The connection that the tool makes, as it is before its receiver is started. -/
def dialed (config : Config) (host : Tcp.Host) : Connection :=
  match Address.parse? config.peerAddress with
  | some address => (SerialPort.dial config address { host }).value.2
  | none => { host }

/-- A port that has a link after one was plugged in has it on the connection that was made. -/
theorem plug_of_enabled {config : Config} {host : Tcp.Host}
    (enabled : (SerialPort.new.plug config true host).value.isEnabled) :
    ∃ protocol, (SerialPort.new.plug config true host).value =
      ((SerialPort.new.unplug.value.prepared config true host).attached (dialed config host) protocol).reset := by
  have value : (SerialPort.new.plug config true host).value = _ :=
    SerialPort.value_plugIn config true host SerialPort.new.unplug.value
  have off : (SerialPort.new.unplug.value.prepared config true host).phase = .disabled := rfl
  rw [value] at enabled ⊢
  have linked := mt (accessed_reset _).unlinked.mpr (isEnabled_iff.mp enabled)
  split at linked
  · exact absurd off linked
  · next named =>
    rw [if_neg named]
    unfold SerialPort.connect at linked ⊢
    unfold dialed
    cases parsed : Address.parse? config.peerAddress with
    | none =>
      rw [parsed] at linked
      exact absurd off linked
    | some address =>
      rw [parsed] at linked
      obtain ⟨protocol, same⟩ := SerialPort.attached_of_enabled off linked
      exact ⟨protocol, congrArg SerialPort.reset same⟩

/-- **How the tool begins**: over a connection that works its port is linked and attends to what the peer says,
and no byte is under way. -/
theorem establish_of_carries {o : Options} {config : Config} {host : Tcp.Host} {p : Process} {early : Bytes}
    {closing : Bool} (carries : (dialed config host).Carries early closing)
    (established : (establish? o config host).value = some p) :
    ∃ q : SerialPort, p = Process.beginByte { port := q, job := o.job, stepwise := config.interruptBased } ∧
      q.Sound ∧ q.phase ≠ .disabled ∧ q.phase ≠ .exchanging ∧ q.toSession.Attends ⟨early, closing⟩ ∧
      q.port.isTransferring = false ∧ (Speech.mk early closing).bits = q.queue.items.map (·.bit) ∧
      q.connection.role = (dialed config host).role := by
  unfold establish? at established
  rw [Traced.value_bind] at established
  split at established
  · cases established
  · next on =>
    have enabled : (SerialPort.new.plug config true host).value.isEnabled := by simpa using on
    obtain rfl := Option.some.inj established
    have made : (Link.mk .new config true host).made.value.isEnabled := enabled
    obtain ⟨outside, clear⟩ := ready_made made
    obtain ⟨protocol, value⟩ := plug_of_enabled enabled
    obtain ⟨attends, items⟩ := Session.attends_start (s := SerialPort.session (dialed config host) protocol
      (SerialPort.new.unplug.value.prepared config true host)) carries rfl rfl
    refine ⟨_, rfl, Link.sound_made made, isEnabled_iff.mp enabled, outside, ?_, clear, ?_, ?_⟩
    · rw [value]
      exact attends.of_eq rfl fun _ => id
    · have same : (SerialPort.new.plug config true host).value.queue.items =
          ((Speech.mk early closing).packets.filter (·.isSync)).map Protocol.itemOf := by
        rw [value]
        exact items
      rw [same, List.map_map]
      rfl
    · rw [value]
      exact Session.role_start _

end SerialLink.Tool
