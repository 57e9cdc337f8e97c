import SerialLink.Proofs.Completion
import SerialLink.Tool.Process

/-!
# Texts that go out

The tool sends a text in transfers that follow each other without a pause (`SerialPort.Sends`): when a byte
is completed it begins the next one.  So what is known about one transfer is known about the whole text: all
of its bits have gone out exactly if the receiver was still at work after every tick (`completed_iff_works`).
-/

namespace SerialLink

open Event

/-! ### Transfers that follow each other -/

theorem internalClock_driving : (Registers.transferBit ||| Registers.internalClockBit) &&&
    Registers.internalClockBit ≠ 0 := by
  decide

namespace SerialPort

theorem isTransferring_writeData (byte : UInt8) (p : SerialPort) :
    (p.writeData byte).port.isTransferring = p.port.isTransferring := by
  unfold writeData
  split <;> rfl

end SerialPort

namespace Transfer

open SerialPort

variable {t : Transfer} {acts : List Act} {act : Act}

/-- What was done with a port until a transfer began at it, and then. -/
theorem run_before (t : Transfer) (acts : List Act) :
    (t.link.run (t.before ++ .writeControl t.control :: acts)).value = (t.start.run acts).value := by
  rw [Link.value_run_append]
  rfl

theorem canRun_before (t : Transfer) (acts : List Act) :
    t.link.canRun (t.before ++ .writeControl t.control :: acts) = t.start.canRun acts := by
  have can := t.can
  rw [Link.canRun_append] at can ⊢
  obtain ⟨before, possible⟩ := Bool.and_eq_true _ _ ▸ can
  have possible : (Act.writeControl t.control).isPossible (t.link.run t.before).value = true :=
    (Bool.and_eq_true _ _ ▸ possible).1
  rw [before, canRun, possible]
  rfl

/-- A port that has completed a byte can begin the next one. -/
theorem IsDriven.canRun (driven : t.IsDriven acts act) (byte control : UInt8) :
    t.start.canRun (acts ++ [act] ++ [.writeData byte, .writeControl control]) := by
  have complete := complete_of_completes driven.passive driven.can driven.completes
  have ready : (t.start.run (acts ++ [act])).value.phase ≠ .exchanging := complete ▸ nofun
  have still := mt (accessed_writeData byte _).begun.mp ready
  rw [canRun_append, driven.can]
  refine Bool.and_eq_true_iff.mpr ⟨rfl, Bool.and_eq_true_iff.mpr ⟨bne_iff_ne.mpr ready, ?_⟩⟩
  exact Bool.and_eq_true_iff.mpr ⟨bne_iff_ne.mpr still, rfl⟩

/-- In a port that has completed a byte the transfer bit is cleared. -/
theorem IsDriven.clear (driven : t.IsDriven acts act) :
    (t.start.run (acts ++ [act])).value.port.isTransferring = false := by
  obtain ⟨_, passive, can, completes⟩ := driven
  have complete := complete_of_completes passive can completes
  have linked : (t.start.run (acts ++ [act])).value.phase ≠ .disabled := complete ▸ nofun
  exact Registers.isTransferring_cleared
    ((t.last passive can linked).completed passive can linked completes).control

/-- The transfer of the next byte, which begins when one is completed. -/
def following (driven : t.IsDriven acts act) (byte : UInt8) : Transfer where
  link := t.link
  before := t.before ++ .writeControl t.control :: (acts ++ [act] ++ [.writeData byte])
  control := Registers.transferBit ||| Registers.internalClockBit
  can := by
    rw [List.append_assoc, List.cons_append, canRun_before, List.append_assoc]
    exact driven.canRun byte _
  clear := by
    rw [run_before, value_run_concat]
    exact (isTransferring_writeData byte _).trans driven.clear
  set := by decide

theorem start_following (driven : t.IsDriven acts act) (byte : UInt8) :
    (following driven byte).start =
      (((t.start.run acts).value.perform act).value.2.writeData byte).writeControl
        (Registers.transferBit ||| Registers.internalClockBit) := by
  have port : (following driven byte).port =
      (t.start.run (acts ++ [act] ++ [.writeData byte])).value := t.run_before _
  rw [start, port, value_run_concat, value_run_concat]
  rfl

end Transfer

namespace SerialPort

/-- The port completes the byte under way and then all others, each of which begins when the one before it
is completed. -/
inductive Sends : Bytes → List Act → SerialPort → Prop
  | done {act : Act} {p : SerialPort} (passive : act.isAccess = false) (possible : act.isPossible p)
      (completes : (p.perform act).value.1 = .completed) : Sends [] [act] p
  | next {byte : UInt8} {rest : Bytes} {act : Act} {acts : List Act} {p : SerialPort}
      (passive : act.isAccess = false) (possible : act.isPossible p)
      (completes : (p.perform act).value.1 = .completed)
      (sends : Sends rest acts (((p.perform act).value.2.writeData byte).writeControl
        (Registers.transferBit ||| Registers.internalClockBit))) :
      Sends (byte :: rest) (act :: .writeData byte ::
        .writeControl (Registers.transferBit ||| Registers.internalClockBit) :: acts) p
  | further {rest : Bytes} {act : Act} {acts : List Act} {p : SerialPort}
      (passive : act.isAccess = false) (possible : act.isPossible p)
      (sends : Sends rest acts (p.perform act).value.2) : Sends rest (act :: acts) p

variable {t : Transfer} {before acts : List Act} {act : Act} {rest : Bytes} {p : SerialPort}

theorem value_run_nil (p : SerialPort) : (p.run []).value = p := rfl

/-- Writing the registers leaves no trace, and is no tick. -/
theorem trace_run_begin (byte control : UInt8) (acts : List Act) (p : SerialPort) :
    (p.run (.writeData byte :: .writeControl control :: acts)).trace =
      (((p.writeData byte).writeControl control).run acts).trace := rfl

theorem worksAtTicks_begin (byte control : UInt8) (acts : List Act) (p : SerialPort) :
    p.worksAtTicks (.writeData byte :: .writeControl control :: acts) =
      ((p.writeData byte).writeControl control).worksAtTicks acts := rfl

/-- Of the bits of all bytes at most all go out, and all of them exactly if the receiver is at work after
every tick. -/
theorem Sends.offered (sends : p.Sends rest acts) (port : p = (t.start.run before).value)
    (drives : t.control &&& Registers.internalClockBit ≠ 0)
    (passive : ∀ a ∈ before, a.isAccess = false) (can : t.start.canRun before) :
    (Event.offered (t.start.run (before ++ acts)).trace).length ≤ 8 * (rest.length + 1) ∧
      ((Event.offered (t.start.run (before ++ acts)).trace).length = 8 * (rest.length + 1) ↔
        t.start.worksAtTicks (before ++ acts)) := by
  induction sends generalizing t before with
  | done last possible completes =>
    subst port
    have driven : t.IsDriven before _ :=
      ⟨drives, passive_concat.mpr ⟨passive, last⟩, canRun_concat.mpr ⟨can, possible⟩, completes⟩
    exact driven.offered
  | further last possible _ ih =>
    subst port
    have more := ih (value_run_concat _ _ _).symm drives (passive_concat.mpr ⟨passive, last⟩)
      (canRun_concat.mpr ⟨can, possible⟩)
    rw [List.append_assoc] at more
    exact more
  | @next byte rest act acts p last possible completes sends ih =>
    subst port
    have driven : t.IsDriven before act :=
      ⟨drives, passive_concat.mpr ⟨passive, last⟩, canRun_concat.mpr ⟨can, possible⟩, completes⟩
    obtain ⟨few, one⟩ := driven.offered
    -- What follows is a transfer of its own, of which nothing was done yet.
    have start := Transfer.start_following driven byte
    have begun := start.symm.trans (value_run_nil _).symm
    obtain ⟨most, others⟩ := ih begun internalClock_driving (List.forall_mem_nil _) rfl
    rw [List.nil_append, start] at most others
    have split : before ++ act :: .writeData byte ::
        .writeControl (Registers.transferBit ||| Registers.internalClockBit) :: acts =
          before ++ [act] ++ (.writeData byte ::
            .writeControl (Registers.transferBit ||| Registers.internalClockBit) :: acts) := by
      rw [List.append_assoc]
      rfl
    rw [split, trace_run_append, offered_append, List.length_append, worksAtTicks_append,
      Bool.and_eq_true, ← one, value_run_concat, trace_run_begin, worksAtTicks_begin, ← others,
      List.length_cons]
    omega

end SerialPort

/-! ### The tool at work -/

namespace Tool

open SerialPort

/-- What can happen while the tool is at work. -/
inductive Happening
  /-- The tool goes on. -/
  | step
  | timeOut
  | arrive (segment : Tcp.Segment)
  | turn (host : Tcp.Host)

namespace Process

variable {p : Process} {byte : UInt8} {rest : Bytes}

/-- What something that happens to the tool is to its port. -/
def act (p : Process) : Happening → Act
  | .step => if p.port.phase = .exchanging then .resume else .tick p.nextCycles
  | .timeOut => .timeOut
  | .arrive segment => .arrive segment
  | .turn host => .turn host

/-- What becomes of the tool. -/
def meet (p : Process) : Happening → Traced (Standing × Process)
  | .step => p.step
  | .timeOut => p.timeOut
  | .arrive segment => do return (.running, ← p.arrive segment)
  | .turn host =>
    return (.running, { p with port := { p.port with connection := { p.port.connection with host } } })

/-- Lets things happen until the work is over. -/
def work : List Happening → Process → Traced (Standing × Process)
  | [], p => return (.running, p)
  | happening :: happenings, p => do
    let (standing, p) ← p.meet happening
    match standing with
    | .over success => return (.over success, p)
    | _ => p.work happenings

/-- Whether something is true of all that happens until the work is over. -/
def always (check : Process → Happening → Bool) : List Happening → Process → Bool
  | [], _ => true
  | happening :: happenings, p =>
    check p happening && match (p.meet happening).value with
      | (.over _, _) => true
      | (_, next) => next.always check happenings

/-- Whether all that happens can. -/
def canWork (happenings : List Happening) (p : Process) : Bool :=
  p.always (fun p happening => (p.act happening).isPossible p.port) happenings

/-- Whether the receiver is still at work after every tick. -/
def worksAtTicks (happenings : List Happening) (p : Process) : Bool :=
  p.always (fun p happening =>
    !(p.act happening).isTick || (p.meet happening).value.2.port.receiver.running) happenings

theorem perform_step (p : Process) : p.port.perform (p.act .step) =
    if p.port.phase = .exchanging then p.port.resume else p.port.tick p.nextCycles := by
  show p.port.perform (if p.port.phase = .exchanging then _ else _) = _
  split <;> rfl

theorem passive_act (p : Process) (happening : Happening) : (p.act happening).isAccess = false := by
  cases happening with
  | step =>
    show (if p.port.phase = .exchanging then Act.resume else _).isAccess = false
    split <;> rfl
  | _ => rfl

/-! ### What goes out -/

section

variable {α : Type} (view : Event → Option α)

/-- Counting the interrupts leaves alone what passes that over. -/
theorem filterMap_countInterrupts (counted : ∀ number, view (.noted (.interrupt number)) = none)
    (trace : List Event) (n : UInt32) : (countInterrupts trace n).1.filterMap view = trace.filterMap view := by
  induction trace generalizing n with
  | nil => rfl
  | cons event trace ih =>
    cases event with
    | interrupted =>
      rw [countInterrupts, List.filterMap_cons, List.filterMap_cons, List.filterMap_cons, counted, ih]
    | _ =>
      rw [countInterrupts, List.filterMap_cons, List.filterMap_cons, ih]
      nofun

variable (noted : ∀ notice, view (.noted notice) = none)
include noted

variable (printed : ∀ byte, view (.printed byte) = none)
include printed

theorem filterMap_afterTick (progress : SerialPort.Progress) (p : Process) :
    (p.afterTick progress).trace.filterMap view = [] := by
  unfold afterTick
  split
  · unfold finishByte
    split
    · split <;> exact List.filterMap_cons_none (noted _)
    · split <;> exact List.filterMap_cons_none (printed _)
  · rfl
  · split <;> rfl

/-- Whatever happens to the tool, what passes the log and the output over is what its port has done. -/
theorem filterMap_meet (p : Process) (happening : Happening) :
    (p.meet happening).trace.filterMap view = (p.port.perform (p.act happening)).trace.filterMap view := by
  cases happening with
  | step =>
    rw [perform_step]
    show ((countInterrupts _ _).1 ++ _).filterMap view = _
    rw [List.filterMap_append, filterMap_countInterrupts view fun _ => noted _, filterMap_afterTick view noted printed,
      List.append_nil]
  | timeOut =>
    show (p.port.timeOut.trace ++ _).filterMap view = (p.port.timeOut.trace ++ []).filterMap view
    rw [List.filterMap_append, filterMap_afterTick view noted printed, List.append_nil, List.append_nil]
  | arrive segment =>
    show (((p.port.arrive segment).trace ++ []) ++ []).filterMap view = List.filterMap view (_ ++ [])
    rw [List.append_nil]
  | turn host => rfl

end

/-- Whatever happens to the tool, what goes out is what its port has clocked out. -/
theorem offered_meet (p : Process) (happening : Happening) :
    offered (p.meet happening).trace = offered (p.port.perform (p.act happening)).trace :=
  filterMap_meet _ (fun _ => rfl) (fun _ => rfl) p happening

/-! ### What becomes of a text -/

/-- What becomes of a tool that sends a text: its byte was the last one and is completed, or the next one
is begun, or the port has gone on. -/
inductive Comes (rest : Bytes) (progress : SerialPort.Progress) (port : SerialPort) :
    Standing × Process → Prop
  | done {p : Process} (completes : progress = .completed) (last : rest = [])
      (same : p.port = port) : Comes rest progress port (.over true, p)
  | next {p : Process} {byte : UInt8} {more : Bytes} (completes : progress = .completed)
      (split : rest = byte :: more) (job : p.job = .send byte more)
      (begun : p.port = (port.writeData byte).writeControl
        (Registers.transferBit ||| Registers.internalClockBit)) :
      Comes rest progress port (.running, p)
  | further {standing : Standing} {p : Process} {byte : UInt8} (unsent : standing ≠ .over true)
      (job : p.job = .send byte rest) (same : p.port = port) :
      Comes rest progress port (standing, p)

/-- What the tool makes of the progress of its port. -/
theorem comes_afterTick (job : p.job = .send byte rest) (progress : SerialPort.Progress) :
    Comes rest progress p.port (p.afterTick progress).value := by
  cases progress with
  | completed =>
    show Comes rest .completed p.port p.finishByte.value
    unfold finishByte
    rw [job]
    cases rest with
    | nil => exact .done rfl rfl rfl
    | cons next more => exact .next rfl rfl rfl rfl
  | blocked => exact .further nofun job rfl
  | idle =>
    show Comes rest .idle p.port
      (if !p.port.isEnabled then (pure (.over (isEndless p.job), p) : Traced _) else
        pure (if isHeldBack p.port then .heldBack else .running, p)).value
    split
    · refine .further ?_ job rfl
      rw [job]
      nofun
    · refine .further ?_ job rfl
      split <;> nofun

theorem comes_meet (job : p.job = .send byte rest) (happening : Happening) :
    Comes rest (p.port.perform (p.act happening)).value.1 (p.port.perform (p.act happening)).value.2
      (p.meet happening).value := by
  cases happening with
  | step =>
    rw [perform_step]
    exact comes_afterTick (p := (p.absorb _).value.2) job _
  | timeOut => exact comes_afterTick (p := { p with port := p.port.timeOut.value }) job .idle
  | arrive segment => exact .further nofun job rfl
  | turn host => exact .further nofun job rfl

/-- A tool that has sent its text has had the port send all of it. -/
theorem sends_of_work {happenings : List Happening} (job : p.job = .send byte rest)
    (can : p.canWork happenings) (sent : (p.work happenings).value.1 = .over true) :
    ∃ acts, p.port.Sends rest acts ∧
      offered (p.work happenings).trace = offered (p.port.run acts).trace ∧
      p.port.worksAtTicks acts = p.worksAtTicks happenings := by
  induction happenings generalizing p byte rest with
  | nil => cases sent
  | cons happening happenings ih =>
    have comes := comes_meet job happening
    have passive := p.passive_act happening
    have out := p.offered_meet happening
    obtain ⟨possible, can⟩ := Bool.and_eq_true _ _ ▸ can
    rw [work, Traced.value_bind] at sent
    simp only [work, worksAtTicks, always, Traced.trace_bind, offered_append, out]
    generalize (p.meet happening).value = y at comes can sent ⊢
    cases comes with
    | done completes last same =>
      subst last
      refine ⟨[p.act happening], .done passive possible completes, ?_, ?_⟩
      · show _ ++ offered [] = offered (_ ++ [])
        rw [List.append_nil]
        exact List.append_nil _
      · rw [same]
        rfl
    | next completes split left begun =>
      subst split
      obtain ⟨acts, sends, trace, works⟩ := ih left can sent
      rw [begun] at sends trace works
      refine ⟨_, .next passive possible completes sends, ?_, ?_⟩
      · rw [run, Traced.trace_bind, offered_append, trace_run_begin, ← trace]
      · rw [SerialPort.worksAtTicks, worksAtTicks_begin, works, begun,
          (accessed_writeControl _ _).receiver, (accessed_writeData _ _).receiver]
        rfl
    | @further standing q _ unsent left same =>
      -- The tool may tell different things here, but as long as it is not over it goes on alike.
      have further : q.canWork happenings ∧ (q.work happenings).value.1 = .over true →
          ∃ acts, p.port.Sends rest acts ∧
            offered (p.port.perform (p.act happening)).trace ++ offered (q.work happenings).trace =
              offered (p.port.run acts).trace ∧
            p.port.worksAtTicks acts = ((!(p.act happening).isTick || q.port.receiver.running) &&
              q.worksAtTicks happenings) := by
        rintro ⟨can, sent⟩
        obtain ⟨acts, sends, trace, works⟩ := ih left can sent
        rw [same] at sends trace works
        refine ⟨_, .further passive possible sends, ?_, ?_⟩
        · rw [run, Traced.trace_bind, offered_append, ← trace]
        · rw [SerialPort.worksAtTicks, works, same]
      rcases standing with _ | _ | _ | success
      · exact further ⟨can, sent⟩
      · exact further ⟨can, sent⟩
      · exact further ⟨can, sent⟩
      · cases success with
        | true => exact absurd rfl unsent
        | false => cases sent

end Process

/-! ### Texts -/

/-- A link that was just made is ready for a transfer. -/
theorem ready_made {l : Link} (enabled : l.made.value.isEnabled) :
    l.made.value.phase ≠ .exchanging ∧ l.made.value.port.isTransferring = false := by
  obtain ⟨q, made, value⟩ := Link.made_spec enabled
  obtain ⟨_, _, fresh, _, _⟩ := made
  rw [value]
  refine ⟨mt (accessed_reset _).begun.mp ?_, ?_⟩
  · exact fun begun => nomatch fresh.phase.symm.trans begun
  · show ((0 : UInt8) &&& Registers.transferBit != 0) = false
    decide

/-- The transfer of the first byte over a link that was made. -/
def first (l : Link) (enabled : l.made.value.isEnabled) (byte : UInt8) : Transfer where
  link := l
  before := [.writeData byte]
  control := Registers.transferBit ||| Registers.internalClockBit
  can := by
    have ready := (ready_made enabled).1
    have still := mt (accessed_writeData byte _).begun.mp ready
    refine Bool.and_eq_true_iff.mpr ⟨enabled, Bool.and_eq_true_iff.mpr ⟨bne_iff_ne.mpr ready, ?_⟩⟩
    exact Bool.and_eq_true_iff.mpr ⟨bne_iff_ne.mpr still, rfl⟩
  clear := (isTransferring_writeData byte _).trans (ready_made enabled).2
  set := by decide

/-- The tool begins with the first byte of its text, over a link that was made. -/
theorem establish_spec {o : Options} {config : Config} {host : Tcp.Host} {p : Process} {byte : UInt8}
    {rest : Bytes} (text : o.sendText = byte :: rest)
    (established : (establish? o config host).value = some p) :
    ∃ l enabled, p.port = (first l enabled byte).start ∧ p.job = .send byte rest := by
  have made : (SerialPort.new.plug config true host).value =
      (Link.mk .new config true host).made.value := rfl
  have job : o.job = .send byte rest := by
    rw [Options.job, text]
  unfold establish? at established
  rw [Traced.value_bind, made, job] at established
  split at established
  · cases established
  · next enabled =>
    have enabled : (Link.mk .new config true host).made.value.isEnabled := by
      simpa using enabled
    obtain rfl := Option.some.inj established
    exact ⟨Link.mk .new config true host, enabled, rfl, rfl⟩

/-- The tool has sent its text, as it tells. -/
structure HasSent (o : Options) (config : Config) (host : Tcp.Host) (p : Process)
    (happenings : List Happening) : Prop where
  text : o.sendText ≠ []
  established : (establish? o config host).value = some p
  can : p.canWork happenings
  success : (p.work happenings).value.1 = .over true

theorem HasSent.offered {o : Options} {config : Config} {host : Tcp.Host} {p : Process}
    {happenings : List Happening} (sent : HasSent o config host p happenings) :
    (Event.offered (p.work happenings).trace).length = 8 * o.sendText.length ↔
      p.worksAtTicks happenings := by
  obtain ⟨text, established, can, success⟩ := sent
  obtain ⟨byte, rest, split⟩ := List.exists_cons_of_ne_nil text
  obtain ⟨l, enabled, port, job⟩ := establish_spec split established
  obtain ⟨acts, sends, trace, works⟩ := Process.sends_of_work job can success
  have begun := port.trans (value_run_nil _).symm
  have law := (sends.offered begun internalClock_driving (List.forall_mem_nil _) rfl).2
  rw [List.nil_append, ← port] at law
  rw [trace, split, ← works]
  exact law

end Tool

open SerialPort

/-- **What is completed has gone out, unless the receiver was not at work**: if a side that drives the clock
has completed a byte, all eight bits of it have gone out exactly if the receiver was still at work after
every tick; and if the tool has sent a text, all eight bits of each of its bytes have gone out exactly if
that was so.  If the peer has ended the connection before, bits of it that are still in the queue complete
bytes none of whose own bits go out. -/
theorem completed_iff_works (t : Transfer) (acts : List Act) (act : Act) (o : Tool.Options)
    (config : Config) (host : Tcp.Host) (p : Tool.Process) (happenings : List Tool.Happening) :
    (t.IsDriven acts act →
      ((offered (t.start.run (acts ++ [act])).trace).length = 8 ↔
        t.start.worksAtTicks (acts ++ [act]))) ∧
    (Tool.HasSent o config host p happenings →
      ((offered (p.work happenings).trace).length = 8 * o.sendText.length ↔
        p.worksAtTicks happenings)) := by
  constructor
  · intro driven
    exact driven.offered.2
  · intro sent
    exact sent.offered

namespace Tool

/-- Options to send a byte. -/
def sendByte : Options := { sendText := [0x3c] }

/-- A configuration to go from bit to bit. -/
def stepwise : Config := { Link.called.config with interruptBased := true }

theorem isSome_establish : (establish? sendByte stepwise Link.called.host).value.isSome := by
  decide

/-- The tool that has called a peer which answers. -/
def caller : Process := (establish? sendByte stepwise Link.called.host).value.get isSome_establish

theorem establish_caller : (establish? sendByte stepwise Link.called.host).value = some caller :=
  (Option.some_get isSome_establish).symm

/-- The peer sends a bit. -/
def bitOf (bit : UInt8) : Happening := .arrive (.data [104, bit, 0, 0, 0, 0, 0, 0])

/-- The peer answers each bit with one of its own. -/
def dialogue : List Happening := [1, 0, 1, 0, 0, 1, 0, 1].flatMap fun bit => [.step, bitOf bit, .step]

/-- The peer sends a byte and ends the connection before the tool begins. -/
def monologue : List Happening :=
  [1, 0, 1, 0, 0, 1, 0, 1].map bitOf ++ .arrive .finish :: List.replicate 8 .step

end Tool

theorem completed_iff_works_called :
    (offered (Transfer.sending.start.run (Transfer.answering ++ [.resume])).trace).length = 8 ∧
      (offered (Tool.caller.work Tool.dialogue).trace).length = 8 := by
  have law := completed_iff_works .sending Transfer.answering .resume Tool.sendByte Tool.stepwise
    Link.called.host Tool.caller Tool.dialogue
  constructor
  · exact (law.1 ⟨by decide, by decide, by decide, by decide⟩).mpr (by decide)
  · exact (law.2 ⟨by decide, Tool.establish_caller, by decide, by decide⟩).mpr (by decide)

/-- The bits of a byte of the peer, which then ends the connection. -/
def farewell : List Act :=
  [1, 0, 1, 0, 0, 1, 0, 1].map (fun bit => .arrive (.data [104, bit, 0, 0, 0, 0, 0, 0])) ++
    [.arrive .finish]

/-- A byte that is to be sent to a peer which has gone. -/
def Transfer.unheard : Transfer where
  link := .called
  before := farewell ++ [.writeData 0x3c]
  control := 0x81
  can := by decide
  clear := by decide
  set := sending.set

theorem completed_unsent :
    Transfer.unheard.IsDriven (.replicate 7 (.tick 514)) (.tick 514) ∧
      offered (Transfer.unheard.start.run (.replicate 7 (.tick 514) ++ [.tick 514])).trace = [] ∧
      Tool.HasSent Tool.sendByte Tool.stepwise Link.called.host Tool.caller Tool.monologue ∧
      offered (Tool.caller.work Tool.monologue).trace = [] := by
  refine ⟨⟨by decide, by decide, by decide, by decide⟩, by decide, ⟨by decide, ?_, ?_, ?_⟩, by decide⟩
  · exact Tool.establish_caller
  · decide
  · decide

end SerialLink
