import SerialLink.Proofs.Rounds

/-!
# Texts that come in

The tool prints the bytes that its peer clocks out to it.  Whatever the peer says, in whatever segments, and however
the tool goes from bit to bit, what it prints are the bytes that the bits make up, as far as it is to receive them;
and when the peer has ended the connection the tool comes to an end, at the latest when the bits are taken that are
still queued (`Tool.prints_bits`).
-/

namespace SerialLink

open Event

namespace Event

variable (a b history : List Event)

@[simp] theorem output_append : output (a ++ b) = output a ++ output b := List.filterMap_append

@[simp] theorem output_deeds : output (deeds history) = output history :=
  filterMap_deeds _ (fun _ => rfl) history

variable {history}

theorem output_of_traffic (h : ∀ event ∈ history, event.isTraffic) : output history = [] := by
  refine List.filterMap_eq_nil_iff.mpr fun event mem => ?_
  have traffic := h event mem
  cases event <;> first | rfl | cases traffic

end Event

namespace SerialPort

variable {p q : SerialPort} {h : List Event} {act : Act}

theorem Step.mute_output (step : Step p h q) : output h = [] := by
  cases step with
  | receiver move => exact output_of_traffic move.traffic
  | complete => split <;> rfl
  | _ => rfl

/-- The port itself prints nothing. -/
theorem output_perform (passive : act.isAccess = false) (possible : act.isPossible p) (sound : p.Sound) :
    output (p.perform act).trace = [] := by
  have silent : output ([] ++ deeds (p.perform act).trace) = [] := by
    have keeps : ∀ g p h q, Step p h q → output g = [] → output (g ++ h) = [] := by
      intro g _ h _ step before
      rw [output_append, before, step.mute_output]
      rfl
    exact (leads_perform passive possible sound).steps.preserves keeps rfl
  rw [List.nil_append, output_deeds] at silent
  exact silent

end SerialPort

namespace Tool

open SerialPort

/-! ### How long the bits last that are left -/

/-- How many steps it takes at most until the link is lost, if no more bits come. -/
def stepsLeft (p : SerialPort) : Nat :=
  match p.queue.items with
  | [] => 1
  | _ :: rest => (if p.phase = .exchanging then 1 else p.ticksLeft) + 33 * rest.length + 1

variable {p q first : SerialPort} {speech : Speech} {done : List UInt8} {g : List Event}

theorem stepsLeft_le (p : SerialPort) : stepsLeft p ≤ 33 * p.queue.items.length + 1 := by
  cases items : p.queue.items with
  | nil =>
    simp only [stepsLeft, items]
    omega
  | cons item rest =>
    simp only [stepsLeft, items, List.length_cons, ticksLeft]
    split <;> omega

/-- Before a bit that is queued is taken there is a step to go. -/
theorem stepsLeft_of_cons (work : AtWork speech done first g p) {item : BitQueue.Item} {rest : List BitQueue.Item}
    (items : p.queue.items = item :: rest) : 33 * rest.length + 2 ≤ stepsLeft p := by
  unfold stepsLeft
  rw [items]
  by_cases begun : p.phase = .exchanging
  · simp only [if_pos begun]
    omega
  · have soon := work.soon begun
    simp only [if_neg begun, ticksLeft]
    omega

/-- With a bit that is taken the end comes nearer. -/
theorem stepsLeft_of_takes (work : AtWork speech done first g p) {item : BitQueue.Item}
    (items : p.queue.items = item :: q.queue.items) : stepsLeft q < stepsLeft p := by
  have before := stepsLeft_of_cons work items
  have after := stepsLeft_le q
  omega

/-- **When all is said, each step brings the end nearer.** -/
theorem stepsLeft_of_goes {cycles : UInt32} {x : Traced (Progress × SerialPort)} {h : List Event}
    (work : AtWork speech done first g p) (gone : speech.IsOver) (goes : Goes cycles p x)
    (after : AtWork speech done first h x.value.2)
    (pace : cycles = 16 ∨ p.cyclesToTransmit.toNat ≤ cycles.toNat) : stepsLeft x.value.2 < stepsLeft p := by
  have session := work.sound.linked work.linked
  have closed : p.queue.closed = true := by
    rw [session.closed, work.attends.stopped gone]
    rfl
  cases goes with
  | passes outside more same early =>
    subst same
    have still : (p.elapse cycles).phase ≠ .exchanging := by
      rw [phase_elapse (ready_of_outside (isEnabled_iff.mpr work.linked) outside)]
      nofun
    have nearer := work.ticksLeft_elapse outside (after.soon still) pace
    cases items : p.queue.items with
    | nil =>
      rw [(BitQueue.isExhausted_iff session.ordered).mpr ⟨closed, items⟩] at more
      cases more
    | cons item rest =>
      have later : (p.elapse cycles).queue.items = item :: rest := items
      show stepsLeft (p.elapse cycles) < stepsLeft p
      simp only [stepsLeft, items, later, if_neg outside, if_neg still]
      omega
  | takes item rest items left => exact stepsLeft_of_takes work (left ▸ items)
  | waits _ opened =>
    rw [closed] at opened
    cases opened
  | loses _ _ _ phase => exact absurd phase after.linked

/-! ### Receiving -/

/-- What is printed of some bits by a tool that is to receive a byte and then so many others, or without end. -/
def printed (others : Option Nat) (bits : List UInt8) : Bytes :=
  match others with
  | none => Bits.bytes bits
  | some n => (Bits.bytes bits).take (n + 1)

/-- Whether some bits are enough for the tool to succeed. -/
def isEnough (others : Option Nat) (bits : List UInt8) : Bool :=
  match others with
  | none => true
  | some n => n + 1 ≤ (Bits.bytes bits).length

/-- The tool receives bytes.  Those before the one under way have used up some bits. -/
structure Receives (speech : Speech) (done : List UInt8) (others : Option Nat) (p : Process) : Prop where
  job : p.job = .receive others
  under : ∃ first g, AtWork speech done first g p.port ∧ first.port.control = Registers.transferBit

variable {p : Process} {others : Option Nat} {happening : Happening} {happenings : List Happening}

/-- A tool that begins to receive a byte receives it. -/
theorem receives_begin (job : p.job = .receive others) (sound : p.port.Sound) (linked : p.port.phase ≠ .disabled)
    (outside : p.port.phase ≠ .exchanging) (attends : p.port.toSession.Attends speech)
    (clear : p.port.port.isTransferring = false) (bits : speech.bits = done ++ p.port.queue.items.map (·.bit))
    (whole : done.length % 8 = 0) :
    Receives speech done others p.beginByte ∧ p.beginByte.port.queue = p.port.queue := by
  have port : p.beginByte.port = (p.port.writeData 0).writeControl Registers.transferBit := by
    unfold Process.beginByte
    rw [job]
  have set : Registers.transferBit &&& Registers.transferBit ≠ 0 := by decide
  refine ⟨⟨job, p.beginByte.port, [], ?_, ?_⟩, ?_⟩
  · rw [port]
    exact atWork_begin sound linked outside attends clear set bits whole
  · rw [port, begin_eq linked clear set 0]
  · rw [port, begin_eq linked clear set 0]

/-- What becomes of a tool that receives when something happens: it loses the link, as no bits are left and none
will come; or it prints its last byte; or it prints one and begins the next; or it goes on. -/
inductive Prints (happening : Happening) (speech : Speech) (done : List UInt8) (others : Option Nat) (p : Process)
    (x : Traced (Standing × Process)) : Prop
  | loses (now : List UInt8) (few : now.length < 8) (bits : speech.bits = done ++ now) (gone : speech.IsOver)
      (standing : x.value.1 = .over others.isNone) (silent : output x.trace = [])
  | ends (eight rest : List UInt8) (whole : eight.length = 8)
      (bits : (happening.said speech).bits = done ++ (eight ++ rest)) (last : others = some 0)
      (standing : x.value.1 = .over true) (out : output x.trace = [Bits.byte eight])
  | prints (eight rest : List UInt8) (next : Option Nat) (whole : eight.length = 8)
      (bits : (happening.said speech).bits = done ++ (eight ++ rest)) (count : others = next.map (· + 1))
      (standing : x.value.1 = .running) (out : output x.trace = [Bits.byte eight])
      (receives : Receives (happening.said speech) (done ++ eight) next x.value.2)
      (less : stepsLeft x.value.2.port < stepsLeft p.port)
  | goes (going : x.value.1 = .running ∨ x.value.1 = .blocked) (silent : output x.trace = [])
      (receives : Receives (happening.said speech) done others x.value.2)
      (less : happening = .step → speech.IsOver → stepsLeft x.value.2.port < stepsLeft p.port)

theorem others_cases (others : Option Nat) : others = some 0 ∨ ∃ next : Option Nat, others = next.map (· + 1) := by
  cases others with
  | none => exact .inr ⟨none, rfl⟩
  | some n =>
    cases n with
    | zero => exact .inl rfl
    | succ n => exact .inr ⟨some n, rfl⟩

/-- After its last byte the tool is done. -/
theorem finishByte_last (job : p.job = .receive (some 0)) :
    p.finishByte = ⟨(.over true, p), [.printed p.port.readData]⟩ := by
  unfold Process.finishByte
  rw [job]
  rfl

/-- After any other one it begins the next. -/
theorem finishByte_next {next : Option Nat} (job : p.job = .receive (next.map (· + 1))) :
    p.finishByte = ⟨(.running, Process.beginByte { p with job := .receive next }), [.printed p.port.readData]⟩ := by
  unfold Process.finishByte
  cases next with
  | none =>
    have same : { p with job := .receive none } = p := by rw [show Job.receive none = p.job from job.symm]
    rw [job, same]
    rfl
  | some n =>
    rw [job]
    rfl

/-- A step prints what the tool prints when its port has gone on. -/
theorem output_step {q : Process} (stepped : p.Stepped q) (sound : p.port.Sound) :
    output p.step.trace = output (q.afterTick (p.port.goOn p.nextCycles).value.1).trace := by
  have silent : output (p.port.goOn p.nextCycles).trace = [] := by
    rw [goOn_eq]
    exact output_perform (passive_nextAct _ _) (possible_nextAct _ _) sound
  have views : output p.step.trace = output (p.port.goOn p.nextCycles).trace ++ output (q.afterTick _).trace :=
    stepped.trace _ fun _ => rfl
  exact views.trans (congrArg (· ++ _) silent)

/-- A tool whose port has completed a byte prints it, and begins the next one or is done. -/
theorem Receives.completes {q : Process} (job : p.job = .receive others)
    (work : AtWork speech done first g p.port) (stepped : p.Stepped q)
    (completed : Completed speech done first g p.nextCycles p.port (p.port.goOn p.nextCycles)) :
    Prints .step speech done others p p.step := by
  have value := stepped.finishes completed.progress
  have out := output_step stepped work.sound
  have reads := completed.readData
  have linked := completed.linked
  have outside := completed.outside
  obtain ⟨progress, eight, -, clear, sound, -, -, attends, bits, ⟨item, items⟩, -⟩ := completed
  rw [progress] at out
  rw [← stepped.port] at reads linked outside clear sound attends bits items
  generalize shifted (g ++ deeds (p.port.goOn p.nextCycles).trace) = byte at eight reads bits
  have split : speech.bits = done ++ (byte ++ q.port.queue.items.map (·.bit)) := by
    rw [bits, List.append_assoc]
  rcases others_cases others with rfl | ⟨next, rfl⟩
  · have finished := finishByte_last (stepped.job.trans job)
    refine .ends _ _ eight split rfl ?_ ?_
    · rw [value, finished]
    · rw [out, ← reads]
      exact congrArg (output ·.trace) finished
  · have finished := finishByte_next (stepped.job.trans job)
    obtain ⟨begun, queue⟩ := receives_begin (p := { q with job := .receive next }) rfl sound linked outside attends
      clear bits (by rw [List.length_append, eight, Nat.add_mod_right]; exact work.whole)
    rw [finished] at value
    refine .prints _ _ next eight split rfl ?_ ?_ ?_ ?_
    · rw [value]
    · rw [out, ← reads]
      exact congrArg (output ·.trace) finished
    · rw [value]
      exact begun
    · rw [value]
      exact stepsLeft_of_takes work (queue ▸ items)

/-- **One step of a tool that receives.** -/
theorem Receives.step (receives : Receives speech done others p) (level : p.step.value.1 ≠ .heldBack) :
    Prints .step speech done others p p.step := by
  obtain ⟨job, first, g, work, control⟩ := receives
  have passive : p.port.port.drivesClock = false := by
    rw [work.drivesClock, Registers.drivesClock, control]
    rfl
  obtain ⟨q, stepped⟩ := p.exists_stepped
  have proceeds : Proceeds speech done first g p.nextCycles p.port (p.port.goOn p.nextCycles) :=
    work.goOn (fun drives => absurd (passive.symm.trans drives) (by decide)) (stepped.level level)
  have out := output_step stepped work.sound
  have value := stepped.value
  cases proceeds with
  | loses items gone progress phase quiet =>
    rw [progress, Process.afterTick_of_off (stepped.port ▸ phase)] at value out
    refine .loses (shifted g) work.few ?_ gone ?_ out
    · rw [work.bits, items, List.map_nil, List.append_nil]
    · rw [value]
      show Standing.over (Process.isEndless q.job) = _
      rw [stepped.job, job]
      rfl
  | completes completed => exact Receives.completes job work stepped completed
  | goes going still goes =>
    have port := stepped.port
    rw [value] at level
    obtain ⟨standing, further, same⟩ := Process.afterTick_of_going (p := q) (port ▸ still.linked) going level
    rw [same] at value out
    refine .goes ?_ out ?_ ?_
    · rw [value]
      exact further
    · rw [value]
      exact ⟨stepped.job.trans job, first, _, port ▸ still, control⟩
    · intro _ gone
      rw [value, Traced.value_pure, port]
      exact stepsLeft_of_goes work gone goes still p.pace_nextCycles

/-- **Whatever happens to a tool that receives.** -/
theorem Receives.meet (receives : Receives speech done others p) (smooth : happening.IsSmooth)
    (level : (p.meet happening).value.1 ≠ .heldBack) :
    Prints happening speech done others p (p.meet happening) := by
  cases happening with
  | step => exact receives.step level
  | timeOut => cases smooth
  | arrive segment =>
    obtain ⟨job, first, g, work, control⟩ := receives
    have silent : output (p.port.perform (.arrive segment)).trace = [] := output_perform rfl rfl work.sound
    refine .goes (.inl rfl) ?_ ⟨job, first, _, work.arrive segment, control⟩ nofun
    show output (((p.port.arrive segment).trace ++ []) ++ []) = []
    rw [List.append_nil]
    exact silent
  | turn host =>
    obtain ⟨job, first, g, work, control⟩ := receives
    exact .goes (.inl rfl) rfl ⟨job, first, g, work.turn smooth, control⟩ nofun

/-! ### Whole runs -/

theorem printed_of_short (others : Option Nat) {bits : List UInt8} (short : bits.length < 8) :
    printed others bits = [] ∧ isEnough others bits = others.isNone := by
  have none := Bits.bytes_of_short short
  cases others with
  | none => exact ⟨none, rfl⟩
  | some n => simp [printed, isEnough, none]

theorem printed_last {eight : List UInt8} (whole : eight.length = 8) (rest : List UInt8) :
    printed (some 0) (eight ++ rest) = [Bits.byte eight] ∧ isEnough (some 0) (eight ++ rest) = true := by
  rw [printed, isEnough, Bits.bytes_append whole]
  exact ⟨rfl, by simp⟩

theorem printed_next {eight : List UInt8} (whole : eight.length = 8) (next : Option Nat) (rest : List UInt8) :
    printed (next.map (· + 1)) (eight ++ rest) = Bits.byte eight :: printed next rest ∧
      isEnough (next.map (· + 1)) (eight ++ rest) = isEnough next rest := by
  cases next with
  | none => exact ⟨Bits.bytes_append whole rest, rfl⟩
  | some n => simp [printed, isEnough, Bits.bytes_append whole]

/-- **When a tool that receives is done, it has printed what it had to**, and tells whether it was enough.  Which
bits were used up and which were left does not matter. -/
theorem Receives.output_work {success : Bool} {left : List UInt8} (receives : Receives speech done others p)
    (smooth : ∀ h ∈ happenings, h.IsSmooth) (level : p.keepsUp happenings)
    (stands : (p.work happenings).value.1 = .over success)
    (bits : (saidAfter speech happenings).bits = done ++ left) :
    output (p.work happenings).trace = printed others left ∧ success = isEnough others left := by
  induction happenings generalizing p speech done others left with
  | nil => cases stands
  | cons happening rest ih =>
    obtain ⟨calm, calmly⟩ := List.forall_mem_cons.mp smooth
    obtain ⟨now, later⟩ := Process.keepsUp_cons.mp level
    -- What was said so far is the beginning of all that is said.
    obtain ⟨more, all⟩ := bits_saidAfter (happening.said speech) rest
    have all : (happening.said speech).bits ++ more = done ++ left := all.trans bits
    cases receives.meet calm now with
    | loses few short said ended standing silent =>
      obtain ⟨finished, trace⟩ := Process.work_of_over rest standing
      have last := (saidAfter_of_over (happening :: rest) ended).2
      rw [bits, said] at last
      obtain rfl := List.append_cancel_left last
      obtain ⟨none, enough⟩ := printed_of_short others short
      rw [stands] at finished
      rw [trace, silent, none, enough]
      exact ⟨rfl, Standing.over.inj finished⟩
    | ends eight queued whole said last standing out =>
      obtain ⟨finished, trace⟩ := Process.work_of_over rest standing
      rw [said, List.append_assoc, List.append_assoc] at all
      obtain rfl := List.append_cancel_left all
      obtain ⟨one, enough⟩ := printed_last whole (queued ++ more)
      rw [stands] at finished
      rw [last, trace, out, one, enough]
      exact ⟨rfl, Standing.over.inj finished⟩
    | prints eight queued next whole said count standing out receives less =>
      have going := Process.going_of_cases (.inl standing)
      obtain ⟨value, trace⟩ := Process.work_of_going rest going
      rw [said, List.append_assoc, List.append_assoc] at all
      obtain rfl := List.append_cancel_left all
      obtain ⟨one, enough⟩ := printed_next whole next (queued ++ more)
      rw [value] at stands
      have bits : (saidAfter (happening.said speech) rest).bits = done ++ eight ++ (queued ++ more) :=
        bits.trans (List.append_assoc ..).symm
      obtain ⟨printed, success⟩ := ih receives calmly (later going) stands bits
      rw [count, trace, output_append, out, printed, one, enough]
      exact ⟨rfl, success⟩
    | goes going silent receives less =>
      have going := Process.going_of_cases going
      obtain ⟨value, trace⟩ := Process.work_of_going rest going
      rw [value] at stands
      rw [trace, output_append, silent, List.nil_append]
      exact ih receives calmly (later going) stands bits

/-- **When all is said the tool comes to an end.** -/
theorem Receives.ends_of_steps {m : Nat} (receives : Receives speech done others p) (said : speech.IsOver)
    (enough : stepsLeft p.port ≤ m) (level : p.keepsUp (List.replicate m .step)) :
    ∃ success, (p.work (List.replicate m .step)).value.1 = .over success := by
  induction m generalizing p done others with
  | zero =>
    have some : 1 ≤ stepsLeft p.port := by
      unfold stepsLeft
      split <;> omega
    omega
  | succ m ih =>
    rw [List.replicate_succ] at level ⊢
    obtain ⟨now, later⟩ := Process.keepsUp_cons.mp level
    have prints : Prints .step speech done others p (p.meet .step) := receives.meet trivial now
    cases prints with
    | loses _ _ _ _ standing => exact ⟨_, (Process.work_of_over _ standing).1⟩
    | ends _ _ _ _ _ standing => exact ⟨_, (Process.work_of_over _ standing).1⟩
    | prints _ _ _ _ _ _ standing _ receives less =>
      have going := Process.going_of_cases (.inl standing)
      rw [(Process.work_of_going _ going).1]
      exact ih receives (by omega) (later going)
    | goes going _ receives less =>
      have going := Process.going_of_cases going
      have less := less rfl said
      rw [(Process.work_of_going _ going).1]
      exact ih receives (by omega) (later going)

/-- As long as a tool that receives is not done, it receives. -/
theorem Receives.work (receives : Receives speech done others p) (smooth : ∀ h ∈ happenings, h.IsSmooth)
    (level : p.keepsUp happenings) (going : ∀ success, (p.work happenings).value.1 ≠ .over success) :
    ∃ used further, Receives (saidAfter speech happenings) used further (p.work happenings).value.2 := by
  induction happenings generalizing p speech done others with
  | nil => exact ⟨done, others, receives⟩
  | cons happening rest ih =>
    obtain ⟨calm, calmly⟩ := List.forall_mem_cons.mp smooth
    obtain ⟨now, later⟩ := Process.keepsUp_cons.mp level
    rcases Process.over_or_going (p.meet happening).value.1 with ⟨success, standing⟩ | first
    · exact absurd (Process.work_of_over rest standing).1 (going success)
    · rw [(Process.work_of_going rest first).1] at going ⊢
      cases receives.meet calm now with
      | loses _ _ _ _ standing => exact absurd standing (first _)
      | ends _ _ _ _ _ standing => exact absurd standing (first _)
      | prints _ _ _ _ _ _ _ _ receives => exact ih receives calmly (later first) going
      | goes _ _ receives => exact ih receives calmly (later first) going

/-- The tool has received what a peer had to say, which has then ended the connection. -/
structure HasReceived (o : Options) (config : Config) (host : Tcp.Host) (early : Speech) (p : Process)
    (happenings : List Happening) (m : Nat) : Prop where
  receiving : o.sendText = []
  carries : (dialed config host).Carries early.bytes early.ended
  established : (establish? o config host).value = some p
  smooth : ∀ h ∈ happenings, h.IsSmooth
  gone : (saidAfter early happenings).IsOver
  enough : 33 * (saidAfter early happenings).bits.length + 1 ≤ m
  level : p.keepsUp (happenings ++ List.replicate m .step)

/-- How many bytes the tool is to print of so many. -/
def wanted (o : Options) (available : Nat) : Nat := if o.count = 0 then available else min available o.count.toNat

/-- How many bytes the tool is to receive after the first one. -/
def Options.furtherBytes (o : Options) : Option Nat := if o.count = 0 then none else some (o.count.toNat - 1)

theorem printed_furtherBytes (o : Options) (bits : List UInt8) :
    printed o.furtherBytes bits = (Bits.bytes bits).take (wanted o (bits.length / 8)) ∧
      (isEnough o.furtherBytes bits = true ↔ o.count = 0 ∨ (printed o.furtherBytes bits).length = o.count.toNat) := by
  have count := Bits.length_bytes bits
  unfold Options.furtherBytes wanted
  by_cases endless : o.count = 0
  · simp [endless, printed, isEnough, ← count]
  · have some : o.count.toNat ≠ 0 := fun zero => endless (UInt32.toNat_inj.mp zero)
    have all : o.count.toNat - 1 + 1 = o.count.toNat := by omega
    rw [if_neg endless, if_neg endless, or_iff_right endless]
    simp only [printed, isEnough, all, ← count, decide_eq_true_eq, List.length_take]
    refine ⟨?_, by omega⟩
    rw [Nat.min_comm, ← List.take_take, List.take_length]

section

variable {o : Options} {config : Config} {host : Tcp.Host} {early : Speech} {m : Nat}
  (received : HasReceived o config host early p happenings m)
include received

theorem HasReceived.receives : Receives early [] o.furtherBytes p := by
  obtain ⟨q, rfl, sound, linked, outside, attends, clear, said, _⟩ :=
    establish_of_carries received.carries received.established
  have job : o.job = .receive o.furtherBytes := by
    rw [Options.job, received.receiving]
    rfl
  exact (receives_begin (p := { port := q, job := o.job, stepwise := config.interruptBased }) job sound linked outside
    attends clear said rfl).1

/-- The steps at the end are as many as it takes for the bits that are left by then. -/
theorem HasReceived.ends :
    ∃ success, (p.work (happenings ++ List.replicate m .step)).value.1 = .over success := by
  obtain ⟨first, later⟩ := Process.keepsUp_append.mp received.level
  rcases Process.over_or_going (p.work happenings).value.1 with ⟨success, stands⟩ | going
  · exact ⟨success, (Process.work_append_of_over _ stands).1⟩
  · obtain ⟨used, further, job, start, g, work, control⟩ :=
      received.receives.work received.smooth first going
    have few := congrArg List.length work.bits
    have least := stepsLeft_le (p.work happenings).value.2.port
    have enough := received.enough
    rw [List.length_append, List.length_map] at few
    obtain ⟨success, last⟩ :=
      Receives.ends_of_steps ⟨job, start, g, work, control⟩ received.gone (by omega) (later going)
    exact ⟨success, (Process.work_append_of_going _ going).1 ▸ last⟩

/-- A tool that has received what its peer had to say has printed it, and is done. -/
theorem HasReceived.is_done :
    let bits := (saidAfter early happenings).bits
    let run := p.work (happenings ++ List.replicate m .step)
    output run.trace = printed o.furtherBytes bits ∧ run.value.1 = .over (isEnough o.furtherBytes bits) := by
  intro bits run
  have calmly : ∀ h ∈ happenings ++ List.replicate m .step, h.IsSmooth := by
    intro h mem
    rcases List.mem_append.mp mem with mem | mem
    · exact received.smooth h mem
    · rw [List.eq_of_mem_replicate mem]
      trivial
  have all : (saidAfter early (happenings ++ List.replicate m .step)).bits = bits := by
    rw [saidAfter_append, saidAfter_steps]
  obtain ⟨success, last⟩ := received.ends
  obtain ⟨out, same⟩ := received.receives.output_work calmly received.level last all
  exact ⟨out, same ▸ last⟩

end

/-- Options to receive a byte. -/
def receiveByte : Options := { count := 1 }

theorem isSome_receive : (establish? receiveByte stepwise Link.called.host).value.isSome := by
  decide

/-- The tool that is to receive a byte from a peer that it has called. -/
def listener : Process := (establish? receiveByte stepwise Link.called.host).value.get isSome_receive

/-- The nine bits that the peer sends. -/
def nineBits : Bytes := [1, 0, 1, 0, 0, 1, 0, 1, 1].flatMap fun bit => [104, bit, 0, 0, 0, 0, 0, 0]

/-- They come in two pieces, with a packet cut through, and then the peer ends the connection. -/
def pieces : List Happening :=
  [.step, .arrive (.data (nineBits.take 13)), .step, .step, .arrive (.data (nineBits.drop 13)), .arrive .finish]

theorem hasReceived_pieces : HasReceived receiveByte stepwise Link.called.host ⟨[], false⟩ listener pieces 298 where
  receiving := rfl
  carries := ⟨rfl, nofun, _, rfl, rfl, rfl, rfl, rfl, rfl⟩
  established := (Option.some_get isSome_receive).symm
  smooth := by simp [pieces, Happening.IsSmooth]
  gone := .inl (by decide)
  enough := by decide
  level := by decide

end Tool

end SerialLink
