import SerialLink.Proofs.AnswerBits
import SerialLink.Proofs.Rounds
import SerialLink.Proofs.Reports

/-!
# Texts that are answered

The tool sends a text to a peer that answers each bit with one of its own, and says no other bits (`Tool.Sends`).
However the tool goes from bit to bit, the bits of the text go out one after the other, and none of the peer's is taken
for anything but an answer.  With all that happens the tool comes nearer to the end, or it waits for the peer
(`Tool.Sends.meet`).
-/

namespace SerialLink

open Event

/-! ### Bits without an answer -/

namespace Session

variable {s t : Session Registers} {h : List Event}

/-- The one bit that a port waits for is not answered, and until it comes the port waits. -/
theorem Move.unanswered (move : Move s h t) (few : (received h).length ≤ s.port.pending.toNat) :
    answerBits h = [] ∧ (received h = [] → t.port.pending = s.port.pending) := by
  cases move with
  | read | finish => exact ⟨rfl, fun _ => rfl⟩
  | take packet working =>
    have silent := Connection.heard_answer (s.outcome packet).value.reply s.connection
    have none : received (deeds (s.connection.answer (s.outcome packet).value.reply).trace) = [] := by
      rw [← Speech.bitsOf_heard, silent]
      rfl
    rw [← List.singleton_append, received_append, none, List.append_nil] at few ⊢
    rw [answerBits_append, answerBits_of_heard_nil silent, List.append_nil]
    cases bit : packet.isSync with
    | false =>
      refine ⟨?_, fun _ => ?_⟩
      · cases (s.outcome packet).value.reply <;> simp [answerBits, bit]
      · exact congrArg (·.pending) (port_outcome_of_not_isSync packet s bit)
    | true =>
      have one : received [.handled packet (s.outcome packet).value.reply] = [packet.b2 &&& 1] := by
        simp [received, bit]
      rw [one] at few ⊢
      cases waits : s.port.pending with
      | false =>
        rw [waits] at few
        exact absurd few (Nat.not_succ_le_zero 0)
      | true =>
        rw [reply_outcome packet s bit, waits]
        exact ⟨rfl, fun none => absurd none (List.cons_ne_nil _ _)⟩

theorem Moves.unanswered (moves : Moves s h t) (few : (received h).length ≤ s.port.pending.toNat) :
    answerBits h = [] ∧ (received h = [] → t.port.pending = s.port.pending) := by
  induction moves with
  | refl => exact ⟨rfl, fun _ => rfl⟩
  | @step s t u h k move _ ih =>
    rw [received_append, List.length_append] at few
    obtain ⟨silent, waits⟩ := move.unanswered (by omega)
    -- Once the bit has come, no other one does.
    have later : (received k).length ≤ t.port.pending.toNat := by
      cases came : received h with
      | nil =>
        rw [waits came]
        omega
      | cons =>
        have most := s.port.pending.toNat_le
        rw [came, List.length_cons] at few
        omega
    obtain ⟨rest, still⟩ := ih later
    rw [answerBits_append, silent, rest, received_append]
    refine ⟨rfl, fun none => ?_⟩
    obtain ⟨first, second⟩ := List.append_eq_nil_iff.mp none
    exact (still second).trans (waits first)

end Session

namespace SerialPort

variable {p : SerialPort}

/-- The one bit that a port waits for is not answered. -/
theorem unanswered_arrive (segment : Tcp.Segment)
    (few : (received (p.arrive segment).trace).length ≤ p.port.pending.toNat) :
    answerBits (p.arrive segment).trace = [] ∧
      (received (p.arrive segment).trace = [] → (p.arrive segment).value.port.pending = p.port.pending) := by
  rw [← answerBits_deeds, ← received_deeds] at *
  exact (moves_arrive segment p).unanswered few

/-- What comes from the peer brings no bit of this side out, and none in. -/
theorem mute_arrive (segment : Tcp.Segment) (p : SerialPort) :
    offered (p.arrive segment).trace = [] ∧ shifted (p.arrive segment).trace = [] := by
  have traffic := (moves_arrive segment p).traffic
  rw [← offered_deeds, ← shifted_deeds]
  exact ⟨offered_of_traffic traffic, shifted_of_traffic traffic⟩

/-- The bits that come are queued. -/
theorem AtWork.length_arrive {speech : Speech} {done : List UInt8} {first : SerialPort} {g : List Event}
    (work : AtWork speech done first g p) (segment : Tcp.Segment) :
    (p.arrive segment).value.queue.items.length =
      p.queue.items.length + (received (p.arrive segment).trace).length := by
  have shifts := (mute_arrive segment p).2
  have after := congrArg List.length (work.arrive segment).bits
  rw [bits_come work.attends segment, work.bits, shifted_append, shifted_deeds, shifts, List.append_nil] at after
  simp only [List.length_append, List.length_map] at after
  omega

theorem heard_goOn (sound : p.Sound) (cycles : UInt32) : heard (p.goOn cycles).trace = [] := by
  rw [goOn_eq]
  exact heard_perform (isArrival_nextAct cycles p) sound

end SerialPort

/-! ### Texts as packets -/

namespace Packet

/-- The packet but for its time. -/
def untimed (packet : Packet) : Packet := { packet with timestamp := 0 }

end Packet

namespace Tool

open SerialPort

/-- The packets with the bits of a text, but for their times. -/
def message (role : Role) (text : Bytes) : List Packet :=
  (Bits.ofBytes text).map fun bit => Packet.sync role bit 0x81 0

theorem length_message (role : Role) (text : Bytes) : (message role text).length = 8 * text.length := by
  rw [message, List.length_map, Bits.length_ofBytes]

/-- So many bits of a text have gone out, and no bit of the peer was answered. -/
structure Conveyed (role : Role) (text : Bytes) (count : Nat) (h : List Event) : Prop where
  out : (offered h).map Packet.untimed = (message role text).take count
  unanswered : answerBits h = []

variable {role : Role} {text sent rest : Bytes} {speech : Speech} {h k : List Event} {done : List UInt8}
  {first : SerialPort} {g : List Event} {p q : Process} {count : Nat}

theorem Conveyed.same (conveyed : Conveyed role text count h) (mute : offered k = []) (silent : answerBits k = []) :
    Conveyed role text count (h ++ k) := by
  refine ⟨?_, ?_⟩
  · rw [offered_append, mute, List.append_nil]
    exact conveyed.out
  · rw [answerBits_append, conveyed.unanswered, silent]
    rfl

theorem Conveyed.length (conveyed : Conveyed role text count h) (most : count ≤ 8 * text.length) :
    (offered h).length = count := by
  have same := congrArg List.length conveyed.out
  rw [List.length_map, List.length_take, length_message] at same
  omega

/-! ### Sending -/

/-- The tool sends a text: some bytes were sent, one is under way, and the rest will follow. -/
structure Sends (role : Role) (text : Bytes) (speech : Speech) (h : List Event) (sent rest : Bytes)
    (done : List UInt8) (first : SerialPort) (g : List Event) (p : Process) : Prop where
  split : text = sent ++ first.port.data :: rest
  job : p.job = .send first.port.data rest
  work : AtWork speech done first g p.port
  control : first.port.control = 0x81
  origin : first.connection.role = role
  count : done.length = 8 * sent.length
  bits : shifted h = done ++ shifted g
  reported : reports h = sent.zip (Bits.bytes done)
  conveyed : Conveyed role text ((shifted h).length + p.port.begunBits) h
  pending : p.port.phase = .exchanging → p.port.queue.items = [] → p.port.port.pending = true

namespace Sends

theorem place (sends : Sends role text speech h sent rest done first g p) :
    (shifted h).length = 8 * sent.length + (shifted g).length := by
  rw [sends.bits, List.length_append, sends.count]

theorem few (sends : Sends role text speech h sent rest done first g p) : (shifted h).length < 8 * text.length := by
  have few := sends.work.few
  rw [sends.place, sends.split, List.length_append, List.length_cons]
  omega

theorem said (sends : Sends role text speech h sent rest done first g p) :
    speech.bits = shifted h ++ p.port.queue.items.map (·.bit) := by
  rw [sends.work.bits, sends.bits]

theorem begun (sends : Sends role text speech h sent rest done first g p) :
    (offered h).length = (shifted h).length + p.port.begunBits := by
  have few := sends.few
  have most := p.port.begunBits_le
  exact sends.conveyed.length (by omega)

/-- A peer that only answers has said no more than the answer to the bit that was begun. -/
theorem queued (sends : Sends role text speech h sent rest done first g p)
    (answering : speech.bits.length ≤ (offered h).length) :
    p.port.queue.items.length ≤ p.port.begunBits := by
  rw [sends.said, sends.begun, List.length_append, List.length_map] at answering
  omega

theorem drives (sends : Sends role text speech h sent rest done first g p) : p.port.port.drivesClock = true := by
  rw [sends.work.drivesClock, Registers.drivesClock, sends.control]
  rfl

/-- The bit that the tool puts out next is the next one of the text. -/
theorem conveyed_of_utters (sends : Sends role text speech h sent rest done first g p) {cycles : UInt32}
    (out : offered k = p.port.utters cycles) (silent : answerBits k = []) :
    Conveyed role text ((shifted h).length + 1) (h ++ k) := by
  by_cases begun : p.port.phase = .exchanging
  · have mute : offered k = [] := out.trans (if_neg fun both => both.1 begun)
    have one : p.port.begunBits = 1 := if_pos begun
    have conveyed := sends.conveyed
    rw [one] at conveyed
    exact conveyed.same mute silent
  · have none : p.port.begunBits = 0 := if_neg begun
    have conveyed := sends.conveyed
    rw [none] at conveyed
    have few := sends.work.few
    have next : (message role text)[(shifted h).length]? =
        some (Packet.sync role (Bits.nth first.port.data (shifted g).length) 0x81 0) := by
      rw [message, List.getElem?_map, sends.place, sends.split, Bits.getElem?_ofBytes _ _ _ few]
      rfl
    have packet : (p.port.elapse cycles).syncPacket.untimed =
        Packet.sync role (Bits.nth first.port.data (shifted g).length) 0x81 0 := by
      have bit := sends.work.underway.data.outgoing few
      have control := sends.work.control.trans sends.control
      have kind := sends.work.underway.role.trans sends.origin
      show Packet.sync p.port.connection.role p.port.port.outgoing p.port.port.control 0 = _
      rw [bit, control, kind]
      rfl
    have vocal : offered k = [(p.port.elapse cycles).syncPacket] := out.trans (if_pos ⟨begun, sends.drives⟩)
    refine ⟨?_, ?_⟩
    · rw [offered_append, vocal, List.map_append, conveyed.out, List.take_add_one, next, List.map_singleton, packet]
      rfl
    · rw [answerBits_append, conveyed.unanswered, silent]
      rfl

end Sends

/-- The tool sends a text, wherever it is in it. -/
def IsSending (role : Role) (text : Bytes) (speech : Speech) (h : List Event) (p : Process) : Prop :=
  ∃ sent rest done first g, Sends role text speech h sent rest done first g p

/-- What a text has come to when the tool is done with it: all of it has gone out and was answered, and every byte
was reported with the answers to it; or the peer has ended the connection before, and at most one more bit has gone
out than was answered. -/
inductive Concludes (role : Role) (text : Bytes) (speech : Speech) (h : List Event) : Bool → Prop
  | sent (conveyed : Conveyed role text (8 * text.length) h) (answered : speech.bits.length = 8 * text.length)
      (reported : reports h = text.zip (Bits.bytes speech.bits)) : Concludes role text speech h true
  | lost (gone : speech.IsOver) (few : speech.bits.length < 8 * text.length) (count : Nat)
      (most : count ≤ speech.bits.length + 1) (conveyed : Conveyed role text count h) :
      Concludes role text speech h false

/-- How far the tool still has to go with a text, waiting apart. -/
def wayLeft (text : Bytes) (h : List Event) (p : SerialPort) : Nat :=
  35 * (8 * text.length - (shifted h).length) + if p.phase = .exchanging then 0 else p.ticksLeft

/-- Whether the tool does not wait for the peer: if a bit was begun the answer is there, or will never be. -/
def Ready (speech : Speech) (p : SerialPort) : Prop :=
  p.phase = .exchanging → p.queue.items = [] → speech.IsOver

/-- What becomes of a tool that sends a text when something happens: it is done; or it sends on, and then it has come
nearer to the end, or it has only waited, or something else has happened than that it went on. -/
inductive Conveys (role : Role) (text : Bytes) (happening : Happening) (speech : Speech) (h : List Event) (p : Process)
    (x : Traced (Standing × Process)) : Prop
  | ends (success : Bool) (standing : x.value.1 = .over success)
      (concludes : Concludes role text (happening.said speech) (h ++ x.trace) success)
  | goes (going : x.value.1 = .running ∨ x.value.1 = .blocked)
      (sending : IsSending role text (happening.said speech) (h ++ x.trace) x.value.2)
      (less : wayLeft text (h ++ x.trace) x.value.2.port < wayLeft text h p.port ∨
        wayLeft text (h ++ x.trace) x.value.2.port = wayLeft text h p.port ∧
          (Ready speech p.port → happening ≠ .step ∧ Ready (happening.said speech) x.value.2.port))

/-- A tool that begins a byte of its text sends it. -/
theorem sends_begin {byte : UInt8} (job : p.job = .send byte rest) (split : text = sent ++ byte :: rest)
    (sound : p.port.Sound) (linked : p.port.phase ≠ .disabled) (outside : p.port.phase ≠ .exchanging)
    (attends : p.port.toSession.Attends speech) (clear : p.port.port.isTransferring = false)
    (bits : speech.bits = done ++ p.port.queue.items.map (·.bit)) (count : done.length = 8 * sent.length)
    (origin : p.port.connection.role = role) (shifts : shifted h = done)
    (reported : reports h = sent.zip (Bits.bytes done)) (conveyed : Conveyed role text done.length h) :
    Sends role text speech h sent rest done p.beginByte.port [] p.beginByte := by
  have port : p.beginByte.port = (p.port.writeData byte).writeControl 0x81 := by
    unfold Process.beginByte
    rw [job]
    rfl
  have set : (0x81 : UInt8) &&& Registers.transferBit ≠ 0 := by decide
  have begun := begin_eq linked clear set byte
  have data : p.beginByte.port.port.data = byte := by rw [port, begun]
  have phase : p.beginByte.port.phase = p.port.phase := by rw [port, begun]
  refine ⟨?_, ?_, ?_, ?_, ?_, count, ?_, reported, ?_, fun now => absurd (phase ▸ now) outside⟩
  · rw [data]
    exact split
  · rw [data]
    exact job
  · rw [port]
    exact atWork_begin sound linked outside attends clear set bits (by rw [count, Nat.mul_mod_right])
  · rw [port, begun]
  · rw [port, begun]
    exact origin
  · rw [shifts]
    exact (List.append_nil _).symm
  · rw [shifts, begunBits, phase, if_neg outside]
    exact conveyed

/-- Of a byte of a text that was exchanged the tool reports. -/
theorem trace_finishByte {byte : UInt8} (job : p.job = .send byte rest) :
    p.finishByte.trace = [.noted (.exchanged byte p.port.readData)] := by
  unfold Process.finishByte
  rw [job]
  cases rest <;> rfl

/-- After the last byte it is done. -/
theorem value_finishByte_nil {byte : UInt8} (job : p.job = .send byte []) : p.finishByte.value = (.over true, p) := by
  unfold Process.finishByte
  rw [job]
  rfl

/-- After any other one it begins the next. -/
theorem value_finishByte_cons {byte next : UInt8} (job : p.job = .send byte (next :: rest)) :
    p.finishByte.value = (.running, Process.beginByte { p with job := .send next rest }) := by
  unfold Process.finishByte
  rw [job]
  rfl

/-- What a step of the tool shows: of bits and packets what its port shows that goes on, and of bytes what the tool
reports then. -/
structure Shown (p q : Process) (x : Traced (Progress × SerialPort)) : Prop where
  port : q.port = x.value.2
  job : q.job = p.job
  value : p.step.value = (q.afterTick x.value.1).value
  out : offered p.step.trace = offered x.trace
  shifts : shifted p.step.trace = shifted x.trace
  silent : answerBits p.step.trace = []
  report : reports p.step.trace = reports (q.afterTick x.value.1).trace

theorem exists_shown (sound : p.port.Sound) : ∃ q, Shown p q (p.port.goOn p.nextCycles) := by
  obtain ⟨q, port, job, value, trace⟩ := p.exists_stepped
  have act : p.port.perform (p.act .step) = p.port.goOn p.nextCycles := p.perform_step
  have same : ∀ {α : Type} (view : Event → Option α), (∀ notice, view (.noted notice) = none) →
      (∀ byte, view (.printed byte) = none) →
      p.step.trace.filterMap view = (p.port.goOn p.nextCycles).trace.filterMap view :=
    fun view noted printed => act ▸ Process.filterMap_meet view noted printed p .step
  have bits : answerBits p.step.trace = answerBits (p.port.goOn p.nextCycles).trace :=
    same _ (fun _ => rfl) fun _ => rfl
  have quiet : reports (p.port.goOn p.nextCycles).trace = [] := goOn_eq _ p.port ▸ reports_perform _ _
  have views : reports p.step.trace = reports (p.port.goOn p.nextCycles).trace ++ reports (q.afterTick _).trace :=
    trace _ fun _ => rfl
  refine ⟨q, port, job, value, same _ (fun _ => rfl) fun _ => rfl, same _ (fun _ => rfl) fun _ => rfl, ?_, ?_⟩
  · rw [bits, answerBits_of_heard_nil (heard_goOn sound _)]
  · exact views.trans (congrArg (· ++ _) quiet)

namespace Sends

variable {x : Traced (Progress × SerialPort)}

/-- A tool that loses the link is done. -/
theorem loses (sends : Sends role text speech h sent rest done first g p) (shown : Shown p q x)
    (items : p.port.queue.items = []) (gone : speech.IsOver) (progress : x.value.1 = .idle)
    (phase : x.value.2.phase = .disabled) (quiet : deeds x.trace = []) : Conveys role text .step speech h p p.step := by
  have mute : offered p.step.trace = [] := by
    rw [shown.out, ← offered_deeds, quiet]
    rfl
  have few := sends.few
  have most := p.port.begunBits_le
  have said := sends.said
  rw [items, List.map_nil, List.append_nil] at said
  refine .ends false ?_ (.lost gone ?_ _ ?_ (sends.conveyed.same mute shown.silent))
  · rw [shown.value, progress, Process.afterTick_of_off (shown.port ▸ phase), shown.job, sends.job]
    rfl
  · show speech.bits.length < _
    rw [said]
    exact few
  · show _ ≤ speech.bits.length + 1
    rw [said]
    omega

/-- A tool whose port has completed a byte reports it, and begins the next one or is done. -/
theorem completes (sends : Sends role text speech h sent rest done first g p) (shown : Shown p q x)
    (answering : speech.bits.length ≤ (offered h).length)
    (completed : Completed speech done first g p.nextCycles p.port x) :
    Conveys role text .step speech h p p.step := by
  have reads := completed.readData
  have linked := completed.linked
  have outside := completed.outside
  obtain ⟨progress, eight, -, clear, sound, -, origin, attends, bits, ⟨item, items⟩, utters⟩ := completed
  have queued := sends.queued answering
  rw [items, List.length_cons] at queued
  have most := p.port.begunBits_le
  have left : x.value.2.queue.items = [] := List.eq_nil_of_length_eq_zero (by omega)
  rw [left, List.map_nil, List.append_nil] at bits
  -- The bit that was waited for is the last one of the byte.
  have last : (shifted h).length + 1 = (done ++ shifted (g ++ deeds x.trace)).length := by
    rw [← bits, sends.said, items, left, List.length_append]
    rfl
  have all : shifted (h ++ p.step.trace) = done ++ shifted (g ++ deeds x.trace) := by
    rw [shifted_append, shown.shifts, sends.bits, shifted_append, shifted_deeds, List.append_assoc]
  have conveyed := last ▸ sends.conveyed_of_utters (shown.out.trans utters) shown.silent
  rw [← shown.port] at reads linked outside clear sound origin attends left
  have job := shown.job.trans sends.job
  have finished : q.afterTick x.value.1 = q.finishByte := by
    rw [progress]
    rfl
  have value := shown.value
  rw [finished] at value
  have reported : reports (h ++ p.step.trace) =
      (sent ++ [first.port.data]).zip (Bits.bytes (done ++ shifted (g ++ deeds x.trace))) := by
    have pairs : sent.length = (Bits.bytes done).length := by
      rw [Bits.length_bytes, sends.count]
      omega
    rw [reports_append, sends.reported, shown.report, finished, trace_finishByte job, reads,
      Bits.bytes_concat eight done sends.work.whole, List.zip_append pairs]
    rfl
  have split := sends.split
  cases rest with
  | nil =>
    have size : (done ++ shifted (g ++ deeds x.trace)).length = 8 * text.length := by
      rw [List.length_append, eight, sends.count, split, List.length_append, List.length_singleton, Nat.mul_succ]
    refine .ends true ?_ (.sent (size ▸ conveyed) ?_ ?_)
    · rw [value, value_finishByte_nil job]
    · exact (congrArg List.length bits).trans size
    · rw [reported, split]
      exact congrArg (List.zip _ <| Bits.bytes ·) bits.symm
  | cons next more =>
    rw [value_finishByte_cons job] at value
    have begins := sends_begin (p := { q with job := .send next more }) rfl
      (show text = (sent ++ [first.port.data]) ++ next :: more by rw [split, List.append_assoc]; rfl) sound linked
      outside attends clear (by rw [left, List.map_nil, List.append_nil]; exact bits)
      (by rw [List.length_append, eight, sends.count, List.length_append]; rfl) (origin.trans sends.origin) all
      reported conveyed
    have next : p.step.value.2 = Process.beginByte { q with job := .send next more } := congrArg (·.2) value
    rw [← next] at begins
    refine .goes (.inl (congrArg (·.1) value)) ⟨_, _, _, _, _, begins⟩ (.inl ?_)
    have less := p.step.value.2.port.ticksLeft_le
    have more := begins.few
    unfold wayLeft
    rw [all] at more ⊢
    split <;> omega

/-- A tool whose port goes on with a byte does so. -/
theorem goes (sends : Sends role text speech h sent rest done first g p) (shown : Shown p q x)
    (alone : p.port.phase ≠ .exchanging → p.port.queue.items = []) (level : p.step.value.1 ≠ .heldBack)
    (going : x.value.1 ≠ .completed) (still : AtWork speech done first (g ++ deeds x.trace) x.value.2)
    (goes : Goes p.nextCycles p.port x) : Conveys role text .step speech h p p.step := by
  obtain ⟨port, sameJob, value, out, shifts, silent, report⟩ := shown
  rw [value] at level
  obtain ⟨standing, further, same⟩ := Process.afterTick_of_going (p := q) (port ▸ still.linked) going level
  rw [same] at value report
  have next : p.step.value.2 = q := congrArg (·.2) value
  have runs : p.step.value.1 = .running ∨ p.step.value.1 = .blocked := congrArg (·.1) value ▸ further
  -- Whatever the port has done, the byte under way is the same, and nothing is reported of it yet.
  have sending : Conveyed role text ((shifted h).length + (shifted x.trace).length + x.value.2.begunBits)
        (h ++ p.step.trace) →
      (x.value.2.phase = .exchanging → x.value.2.queue.items = [] → x.value.2.port.pending = true) →
      IsSending role text speech (h ++ p.step.trace) p.step.value.2 := by
    intro conveyed pending
    rw [← port] at conveyed pending still
    rw [next]
    refine ⟨sent, rest, done, first, g ++ deeds x.trace, sends.split, sameJob.trans sends.job, still, sends.control,
      sends.origin, sends.count, ?_, ?_, ?_, pending⟩
    · rw [shifted_append, shifts, sends.bits, shifted_append, shifted_deeds, List.append_assoc]
    · rw [reports_append, report, sends.reported]
      exact List.append_nil _
    · rw [shifted_append, shifts, List.length_append]
      exact conveyed
  have way : wayLeft text (h ++ p.step.trace) p.step.value.2.port =
      35 * (8 * text.length - ((shifted h).length + (shifted x.trace).length)) +
        if x.value.2.phase = .exchanging then 0 else x.value.2.ticksLeft := by
    rw [next, port, wayLeft, shifted_append, shifts, List.length_append]
  have few := sends.few
  cases goes with
  | passes outside more pass early =>
    have after : x.value.2 = p.port.elapse p.nextCycles := congrArg (·.value.2) pass
    have none : x.trace = [] := congrArg Traced.trace pass
    have stays : x.value.2.phase ≠ .exchanging := by
      rw [after, phase_elapse (ready_of_outside (isEnabled_iff.mpr sends.work.linked) outside)]
      nofun
    have conveyed := sends.conveyed.same (out.trans (congrArg offered none)) silent
    have nearer := sends.work.ticksLeft_elapse outside (after ▸ still.soon stays) p.pace_nextCycles
    rw [show p.port.begunBits = 0 from if_neg outside] at conveyed
    rw [none, show x.value.2.begunBits = 0 from if_neg stays] at sending
    refine .goes runs (sending conveyed fun now => absurd now stays) (.inl ?_)
    rw [way, wayLeft, if_neg outside, if_neg stays, none, after]
    exact Nat.add_lt_add_left nearer _
  | takes item others items left bit count ready _ _ utters =>
    have begun : p.port.phase = .exchanging := by
      refine Decidable.byContradiction fun outside => ?_
      rw [alone outside] at items
      cases items
    have stays : x.value.2.phase ≠ .exchanging := by
      rcases ready with ⟨_, phase⟩ | ⟨_, phase⟩ <;> rw [phase] <;> nofun
    have conveyed := sends.conveyed_of_utters (out.trans utters) silent
    have less := x.value.2.ticksLeft_le
    rw [bit, List.length_singleton, show x.value.2.begunBits = 0 from if_neg stays] at sending
    refine .goes runs (sending conveyed fun now => absurd now stays) (.inl ?_)
    rw [way, wayLeft, if_pos begun, if_neg stays, bit, List.length_singleton]
    omega
  | waits items opened progress phase queue receiver carries pending none utters =>
    have conveyed := sends.conveyed_of_utters (out.trans utters) silent
    rw [none, List.length_nil, Nat.add_zero, show x.value.2.begunBits = 1 from if_pos phase] at sending
    refine .goes runs (sending conveyed fun _ _ => pending sends.drives fun begun => sends.pending begun items) ?_
    rw [way, wayLeft, if_pos phase, none, List.length_nil, Nat.add_zero]
    by_cases begun : p.port.phase = .exchanging
    · -- It has only waited on, and the peer may still have something to say.
      rw [if_pos begun]
      refine .inr ⟨rfl, fun ready => ?_⟩
      have session := sends.work.sound.linked sends.work.linked
      have stopped := sends.work.attends.stopped (ready begun items)
      rw [session.closed, stopped] at opened
      cases opened
    · have soon := sends.work.soon begun
      rw [if_neg begun, ticksLeft]
      omega
  | loses _ _ _ phase => exact absurd phase still.linked

/-- **One step of a tool that sends a text** to a peer that only answers. -/
theorem step (sends : Sends role text speech h sent rest done first g p)
    (answering : speech.bits.length ≤ (offered h).length) (level : p.step.value.1 ≠ .heldBack) :
    Conveys role text .step speech h p p.step := by
  have queued := sends.queued answering
  have alone : p.port.phase ≠ .exchanging → p.port.queue.items = [] := by
    intro outside
    rw [show p.port.begunBits = 0 from if_neg outside] at queued
    exact List.eq_nil_of_length_eq_zero (Nat.le_zero.mp queued)
  obtain ⟨r, stepped⟩ := p.exists_stepped
  obtain ⟨q, shown⟩ := exists_shown sends.work.sound
  have proceeds : Proceeds speech done first g p.nextCycles p.port (p.port.goOn p.nextCycles) :=
    sends.work.goOn (fun _ => alone) (stepped.level level)
  cases proceeds with
  | loses items gone progress phase quiet => exact sends.loses shown items gone progress phase quiet
  | completes completed => exact sends.completes shown answering completed
  | goes going still goes => exact sends.goes shown alone level going still goes

/-- Where nothing but bits of the peer comes in, the tool sends on. -/
theorem stays (sends : Sends role text speech h sent rest done first g p) {later : Speech} {t : List Event}
    (job : q.job = p.job) (work : AtWork later done first (g ++ deeds t) q.port) (shifts : shifted t = [])
    (mute : offered t = []) (silent : answerBits t = []) (report : reports t = [])
    (phase : q.port.phase = p.port.phase)
    (pending : q.port.phase = .exchanging → q.port.queue.items = [] → q.port.port.pending = true) :
    IsSending role text later (h ++ t) q := by
  have conveyed := sends.conveyed.same mute silent
  refine ⟨sent, rest, done, first, g ++ deeds t, sends.split, job.trans sends.job, work, sends.control, sends.origin,
    sends.count, ?_, ?_, ?_, pending⟩
  · rw [shifted_append, shifted_append, shifted_deeds, shifts, List.append_nil, List.append_nil, sends.bits]
  · rw [reports_append, report, List.append_nil, sends.reported]
  · rw [shifted_append, shifts, List.append_nil, begunBits, phase]
    exact conveyed

/-- What comes from a peer that only answers. -/
theorem arrive (sends : Sends role text speech h sent rest done first g p) (segment : Tcp.Segment)
    (answering : (speech.come segment).bits.length ≤ (offered h).length) :
    IsSending role text (speech.come segment) (h ++ (p.port.arrive segment).trace)
      { p with port := (p.port.arrive segment).value } := by
  obtain ⟨mute, shifts⟩ := mute_arrive segment p.port
  have queue := sends.work.length_arrive segment
  have bits := congrArg List.length (bits_come sends.work.attends segment)
  have most := p.port.begunBits_le
  rw [sends.said, List.length_append, List.length_append, List.length_map] at bits
  rw [sends.begun, bits] at answering
  have few : (received (p.port.arrive segment).trace).length ≤ p.port.port.pending.toNat := by
    by_cases begun : p.port.phase = .exchanging
    · cases items : p.port.queue.items with
      | nil =>
        rw [sends.pending begun items, Bool.toNat_true]
        omega
      | cons =>
        rw [items, List.length_cons] at answering
        omega
    · have none : p.port.begunBits = 0 := if_neg begun
      omega
  obtain ⟨silent, waits⟩ := unanswered_arrive segment few
  refine sends.stays rfl (sends.work.arrive segment) shifts mute silent ?_ rfl fun begun none => ?_
  · have quiet := reports_perform p.port (.arrive segment)
    rw [show (p.port.perform (.arrive segment)).trace = (p.port.arrive segment).trace from List.append_nil _] at quiet
    exact quiet
  · -- Where nothing is queued nothing has come, and nothing was there before.
    have empty : (p.port.arrive segment).value.queue.items.length = 0 := congrArg List.length none
    refine (waits (List.eq_nil_of_length_eq_zero (by omega))).trans (sends.pending begun ?_)
    exact List.eq_nil_of_length_eq_zero (by omega)

/-- **Whatever happens to a tool that sends a text** to a peer that only answers. -/
theorem meet (sends : Sends role text speech h sent rest done first g p) {happening : Happening}
    (smooth : happening.IsSmooth) (before : speech.bits.length ≤ (offered h).length)
    (after : (happening.said speech).bits.length ≤ (offered (h ++ (p.meet happening).trace)).length)
    (level : (p.meet happening).value.1 ≠ .heldBack) :
    Conveys role text happening speech h p (p.meet happening) := by
  cases happening with
  | step => exact sends.step before level
  | timeOut => cases smooth
  | turn host =>
    refine .goes (.inl rfl) ?_ (.inr ⟨?_, fun ready => ⟨nofun, ready⟩⟩)
    · refine sends.stays (t := []) rfl ?_ rfl rfl rfl rfl rfl sends.pending
      rw [deeds_nil, List.append_nil]
      exact sends.work.turn smooth
    · show wayLeft text (h ++ []) _ = _
      rw [List.append_nil]
      rfl
  | arrive segment =>
    have trace : (p.meet (.arrive segment)).trace = (p.port.arrive segment).trace :=
      (List.append_nil _).trans (List.append_nil _)
    obtain ⟨mute, shifts⟩ := mute_arrive segment p.port
    rw [trace, offered_append, mute, List.append_nil] at after
    refine .goes (.inl rfl) (trace ▸ sends.arrive segment after) (.inr ⟨?_, fun ready => ⟨nofun, ?_⟩⟩)
    · rw [trace, wayLeft, shifted_append, shifts, List.append_nil]
      rfl
    · intro begun none
      have queue := sends.work.length_arrive segment
      have empty : (p.port.arrive segment).value.queue.items.length = 0 := congrArg List.length none
      exact (said_of_over (.arrive segment) (ready begun (List.eq_nil_of_length_eq_zero (by omega)))).1

end Sends

end Tool

end SerialLink
