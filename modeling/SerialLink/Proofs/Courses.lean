import SerialLink.Proofs.Conversation

/-!
# Whole conversations

In a conversation things happen without end: the tool goes on again and again, and the peer answers each bit in the
end, unless it leaves (`Tool.Converses`).  At each time the tool sends its text or is done with it
(`Tool.Converses.always`).  The way that is left grows shorter whenever the tool does not wait, and it does not wait
for ever, so it comes to an end (`Tool.Converses.ends`): with all of the text, or if the peer leaves before, with what
has gone out by then (`Tool.sends_text`).
-/

namespace SerialLink.Tool

open SerialPort Event

variable {role : Role} {p : Process}

/-! ### Courses of happenings -/

/-- What happens before a time. -/
def upTo (course : Nat → Happening) (time : Nat) : List Happening := (List.range time).map course

theorem upTo_succ (course : Nat → Happening) (time : Nat) :
    upTo course (time + 1) = upTo course time ++ [course time] := by
  rw [upTo, List.range_succ, List.map_append]
  rfl

theorem upTo_add (course : Nat → Happening) (time later : Nat) :
    upTo course (time + later) = upTo course time ++ upTo (fun n => course (time + n)) later := by
  rw [upTo, List.range_add, List.map_append, List.map_map]
  rfl

/-- What the peer has said at a time. -/
def saidAt (early : Speech) (course : Nat → Happening) (time : Nat) : Speech := saidAfter early (upTo course time)

theorem saidAt_add (early : Speech) (course : Nat → Happening) (time later : Nat) :
    saidAt early course (time + later) =
      saidAfter (saidAt early course time) (upTo (fun n => course (time + n)) later) := by
  rw [saidAt, upTo_add, saidAfter_append]
  rfl

/-- What was said when all is said is all that is ever said. -/
theorem length_saidAt_le {early : Speech} {course : Nat → Happening} {left : Nat} (time : Nat)
    (gone : (saidAt early course left).IsOver) :
    (saidAt early course time).bits.length ≤ (saidAt early course left).bits.length := by
  rcases Nat.le_total time left with before | after
  · obtain ⟨later, rfl⟩ := Nat.exists_eq_add_of_le before
    rw [saidAt_add]
    exact (bits_saidAfter _ _).length_le
  · obtain ⟨later, rfl⟩ := Nat.exists_eq_add_of_le after
    rw [saidAt_add]
    exact Nat.le_of_eq (congrArg List.length (saidAfter_of_over _ gone).2)

/-- How it stands with the tool at a time, and what has happened until then. -/
def Process.workTo (course : Nat → Happening) (time : Nat) (p : Process) : Traced (Standing × Process) :=
  p.work (upTo course time)

/-- The tool sends a text to a peer that answers each bit with one of its own, and says no others.  It goes on again
and again, no wait runs out, and no bit is held back. -/
structure Converses (o : Options) (config : Config) (host : Tcp.Host) (early : Speech) (p : Process)
    (course : Nat → Happening) : Prop where
  text : o.sendText ≠ []
  carries : (dialed config host).Carries early.bytes early.ended
  established : (establish? o config host).value = some p
  smooth : ∀ time, (course time).IsSmooth
  goesOn : ∀ time, ∃ later, time ≤ later ∧ course later = .step
  level : ∀ time, p.keepsUp (upTo course time)
  /-- The peer only answers. -/
  answering : ∀ time, (saidAt early course time).bits.length ≤ (offered (p.workTo course time).trace).length
  /-- It answers all bits, as long as it does not end the connection. -/
  answers : ∀ time, ∃ later, time ≤ later ∧
    ((offered (p.workTo course time).trace).length ≤ (saidAt early course later).bits.length ∨
      (saidAt early course later).IsOver)

/-- At a time the tool is done with a text. -/
def EndsAt (role : Role) (text : Bytes) (early : Speech) (course : Nat → Happening) (p : Process) (time : Nat) : Prop :=
  ∃ success, (p.workTo course time).value.1 = .over success ∧
    Concludes role text (saidAt early course time) (p.workTo course time).trace success

/-- At a time the tool sends a text. -/
structure SendsAt (role : Role) (text : Bytes) (early : Speech) (course : Nat → Happening) (p : Process) (time : Nat) :
    Prop where
  going : ∀ success, (p.workTo course time).value.1 ≠ .over success
  sending : IsSending role text (saidAt early course time) (p.workTo course time).trace (p.workTo course time).value.2

/-- How far the tool has to go at a time. -/
def wayLeftAt (text : Bytes) (course : Nat → Happening) (p : Process) (time : Nat) : Nat :=
  wayLeft text (p.workTo course time).trace (p.workTo course time).value.2.port

/-- Whether at a time the tool does not wait for the peer. -/
def ReadyAt (early : Speech) (course : Nat → Happening) (p : Process) (time : Nat) : Prop :=
  Ready (saidAt early course time) (p.workTo course time).value.2.port

section

variable {o : Options} {config : Config} {host : Tcp.Host} {early : Speech} {course : Nat → Happening} {time : Nat}
  (converses : Converses o config host early p course)
include converses

theorem Converses.begins : SendsAt (dialed config host).role o.sendText early course p 0 := by
  obtain ⟨byte, rest, split⟩ := List.exists_cons_of_ne_nil converses.text
  obtain ⟨q, rfl, sound, linked, outside, attends, clear, said, role⟩ :=
    establish_of_carries converses.carries converses.established
  have job : o.job = .send byte rest := by
    rw [Options.job, split]
  have begins : Sends (dialed config host).role o.sendText early [] [] rest [] _ [] _ :=
    sends_begin (p := { port := q, job := o.job, stepwise := config.interruptBased }) job split sound linked outside
      attends clear said rfl role rfl rfl ⟨rfl, rfl⟩
  exact ⟨Process.going_of_cases (.inl rfl), _, _, _, _, _, begins⟩

/-- **From one time to the next** the tool comes nearer to the end, or it has only waited, or something else has
happened than that it went on. -/
theorem Converses.next (sends : SendsAt role o.sendText early course p time) :
    EndsAt role o.sendText early course p (time + 1) ∨ SendsAt role o.sendText early course p (time + 1) ∧
      (wayLeftAt o.sendText course p (time + 1) < wayLeftAt o.sendText course p time ∨
        wayLeftAt o.sendText course p (time + 1) = wayLeftAt o.sendText course p time ∧
          (ReadyAt early course p time → course time ≠ .step ∧ ReadyAt early course p (time + 1))) := by
  obtain ⟨going, sent, rest, done, first, g, sends⟩ := sends
  obtain ⟨values, traces⟩ := Process.work_append_of_going [course time] going
  obtain ⟨trace, stands, value⟩ := Process.work_singleton (course time) (p.workTo course time).value.2
  have said : saidAt early course (time + 1) = (course time).said (saidAt early course time) := by
    rw [saidAt, upTo_succ, saidAfter_append]
    rfl
  have next : p.workTo course (time + 1) = p.work (upTo course time ++ [course time]) :=
    congrArg (Process.work · p) (upTo_succ course time)
  have traces : (p.workTo course (time + 1)).trace =
      (p.workTo course time).trace ++ ((p.workTo course time).value.2.meet (course time)).trace := by
    rw [next, traces]
    exact congrArg (_ ++ ·) trace
  have after := converses.answering (time + 1)
  have level := converses.level (time + 1)
  rw [upTo_succ] at level
  rw [said, traces] at after
  have now := (Process.keepsUp_cons.mp ((Process.keepsUp_append.mp level).2 going)).1
  cases sends.meet (converses.smooth time) (converses.answering time) after now with
  | ends success standing concludes =>
    refine .inl ⟨success, ?_, ?_⟩
    · rw [next, values]
      exact stands success standing
    · rw [said, traces]
      exact concludes
  | goes further sending less =>
    have going := Process.going_of_cases further
    have values : (p.workTo course (time + 1)).value =
        (.running, ((p.workTo course time).value.2.meet (course time)).value.2) := by
      rw [next, values]
      exact value going
    refine .inr ⟨⟨?_, ?_⟩, ?_⟩
    · rw [values]
      nofun
    · rw [said, traces, values]
      exact sending
    · unfold wayLeftAt ReadyAt
      rw [said, traces, values]
      exact less

/-- If the tool does not wait it comes nearer to the end. -/
theorem Converses.nears (sends : SendsAt role o.sendText early course p time) (ready : ReadyAt early course p time) :
    ∃ later, EndsAt role o.sendText early course p later ∨ SendsAt role o.sendText early course p later ∧
      wayLeftAt o.sendText course p later < wayLeftAt o.sendText course p time := by
  obtain ⟨later, after, step⟩ := converses.goesOn time
  obtain ⟨distance, rfl⟩ := Nat.exists_eq_add_of_le after
  -- Until it goes on it does not begin to wait, and then it does not wait.
  induction distance generalizing time with
  | zero =>
    rcases converses.next sends with ends | ⟨sends, less | ⟨_, other⟩⟩
    · exact ⟨_, .inl ends⟩
    · exact ⟨_, .inr ⟨sends, less⟩⟩
    · exact absurd step (other ready).1
  | succ distance ih =>
    rcases converses.next sends with ends | ⟨sends, less | ⟨same, other⟩⟩
    · exact ⟨_, .inl ends⟩
    · exact ⟨_, .inr ⟨sends, less⟩⟩
    · rw [show time + (distance + 1) = time + 1 + distance by omega] at step
      obtain ⟨later, ends | ⟨sends, less⟩⟩ := ih sends (other ready).2 (Nat.le_add_right _ _) step
      · exact ⟨_, .inl ends⟩
      · exact ⟨_, .inr ⟨sends, same ▸ less⟩⟩

/-- The tool never gets farther from the end. -/
theorem Converses.keeps (sends : SendsAt role o.sendText early course p time) (distance : Nat) :
    (∃ later, EndsAt role o.sendText early course p later) ∨ SendsAt role o.sendText early course p (time + distance) ∧
      wayLeftAt o.sendText course p (time + distance) ≤ wayLeftAt o.sendText course p time := by
  induction distance with
  | zero => exact .inr ⟨sends, Nat.le_refl _⟩
  | succ distance ih =>
    rcases ih with ends | ⟨sends, most⟩
    · exact .inl ends
    · rcases converses.next sends with ends | ⟨sends, less | ⟨same, _⟩⟩
      · exact .inl ⟨_, ends⟩
      · exact .inr ⟨sends, Nat.le_trans (Nat.le_of_lt less) most⟩
      · exact .inr ⟨sends, Nat.le_trans (Nat.le_of_eq same) most⟩

/-- If it waits the peer answers, or ends the connection. -/
theorem Converses.wakes (sends : SendsAt role o.sendText early course p time) :
    ∃ later, EndsAt role o.sendText early course p later ∨ SendsAt role o.sendText early course p later ∧
      (wayLeftAt o.sendText course p later < wayLeftAt o.sendText course p time ∨
        wayLeftAt o.sendText course p later = wayLeftAt o.sendText course p time ∧ ReadyAt early course p later) := by
  obtain ⟨later, after, answered⟩ := converses.answers time
  obtain ⟨distance, rfl⟩ := Nat.exists_eq_add_of_le after
  rcases converses.keeps sends distance with ⟨_, ends⟩ | ⟨still, most⟩
  · exact ⟨_, .inl ends⟩
  rcases Nat.lt_or_eq_of_le most with less | same
  · exact ⟨_, .inr ⟨still, .inl less⟩⟩
  refine ⟨_, .inr ⟨still, .inr ⟨same, fun begun none => answered.resolve_left fun enough => ?_⟩⟩⟩
  -- It cannot be still the same bit that it waits for.
  obtain ⟨_, _, _, _, _, _, first⟩ := sends
  obtain ⟨_, _, _, _, _, _, last⟩ := still
  have said := congrArg List.length last.said
  have before := first.begun
  have few := first.few
  have soon := first.work.soon
  rw [none, List.map_nil, List.append_nil] at said
  unfold wayLeftAt wayLeft at same
  unfold begunBits at before
  rw [if_pos begun] at same
  split at before
  · next waits =>
    rw [if_pos waits] at same
    omega
  · next outside =>
    have soon := soon outside
    have most := SerialPort.ticksLeft_le (p.workTo course time).value.2.port
    rw [if_neg outside] at same
    unfold ticksLeft at same most
    omega

/-- **The tool comes to an end.** -/
theorem Converses.ends (sends : SendsAt role o.sendText early course p time) :
    ∃ later, EndsAt role o.sendText early course p later := by
  induction way : wayLeftAt o.sendText course p time using Nat.strongRecOn generalizing time with
  | _ way ih =>
    subst way
    obtain ⟨later, ends | ⟨sends, less | ⟨same, ready⟩⟩⟩ := converses.wakes sends
    · exact ⟨_, ends⟩
    · exact ih _ less sends rfl
    · obtain ⟨last, ends | ⟨sends, less⟩⟩ := converses.nears sends ready
      · exact ⟨_, ends⟩
      · exact ih _ (same ▸ less) sends rfl

/-- What the tool has come to stays. -/
theorem Converses.rests (ends : EndsAt role o.sendText early course p time) :
    EndsAt role o.sendText early course p (time + 1) := by
  obtain ⟨success, stands, concludes⟩ := ends
  obtain ⟨still, trace⟩ := Process.work_append_of_over (upTo (fun n => course (time + n)) 1) stands
  rw [← upTo_add] at still trace
  have trace : (p.workTo course (time + 1)).trace = (p.workTo course time).trace := trace
  refine ⟨success, still, ?_⟩
  rw [trace]
  have answering := converses.answering (time + 1)
  rw [trace] at answering
  rw [saidAt_add] at answering ⊢
  cases concludes with
  | sent conveyed answered reported =>
    -- All bits were answered, and the peer says no others.
    have said := bits_saidAfter (saidAt early course time) (upTo (fun n => course (time + n)) 1)
    rw [conveyed.length (Nat.le_refl _), ← answered] at answering
    have same := said.eq_of_length_le answering
    exact .sent conveyed (same ▸ answered) (same ▸ reported)
  | lost gone few count most conveyed =>
    obtain ⟨gone, same⟩ := saidAfter_of_over (upTo (fun n => course (time + n)) 1) gone
    rw [← same] at few most
    exact .lost gone few count most conveyed

/-- At all times the tool sends its text, or is done with it. -/
theorem Converses.always (time : Nat) : SendsAt (dialed config host).role o.sendText early course p time ∨
    EndsAt (dialed config host).role o.sendText early course p time := by
  induction time with
  | zero => exact .inl converses.begins
  | succ time ih =>
    rcases ih with sends | ends
    · rcases converses.next sends with ends | ⟨sends, _⟩
      · exact .inr ends
      · exact .inl sends
    · exact .inr (converses.rests ends)

/-- At all times so much of the text has gone out as was answered, and at most one bit more. -/
theorem Converses.conveyed (time : Nat) : ∃ count, count ≤ (saidAt early course time).bits.length + 1 ∧
    Conveyed (dialed config host).role o.sendText count (p.workTo course time).trace := by
  rcases converses.always time with ⟨_, _, _, _, _, _, sends⟩ | ⟨_, _, concludes⟩
  · refine ⟨_, ?_, sends.conveyed⟩
    have most := (p.workTo course time).value.2.port.begunBits_le
    rw [sends.said, List.length_append]
    omega
  · cases concludes with
    | sent conveyed answered => exact ⟨_, Nat.le_succ_of_le (Nat.le_of_eq answered.symm), conveyed⟩
    | lost _ _ count most conveyed => exact ⟨count, most, conveyed⟩

/-- A tool that has succeeded has sent all of its text. -/
theorem Converses.succeeds (done : (p.workTo course time).value.1 = .over true) :
    (offered (p.workTo course time).trace).map Packet.untimed = message (dialed config host).role o.sendText ∧
      (saidAt early course time).bits.length = 8 * o.sendText.length ∧
      reports (p.workTo course time).trace = o.sendText.zip (Bits.bytes (saidAt early course time).bits) := by
  rcases converses.always time with sends | ⟨success, stands, concludes⟩
  · exact absurd done (sends.going true)
  · obtain rfl : success = true := Standing.over.inj (stands.symm.trans done)
    cases concludes with
    | sent conveyed answered reported =>
      have out := conveyed.out
      rw [List.take_of_length_le (Nat.le_of_eq (length_message _ _))] at out
      exact ⟨out, answered, reported⟩

end

/-- **The tool sends its text, bit by bit.**  What goes out is the text from its beginning, the highest bit of each
byte first, and no bit of the peer is answered.  If the peer does not end the connection before it has answered all
bits, the tool succeeds; then all of the text has gone out, and each byte was reported with the eight answers to it.
If the peer ends the connection before, the tool fails, and at most one more bit goes out than was answered.  But for
the times of the packets all of this is the same however the tool goes from bit to bit. -/
theorem sends_text {o : Options} {config : Config} {host : Tcp.Host} {early : Speech} {course : Nat → Happening}
    (converses : Converses o config host early p course) :
    ((∀ left, (saidAt early course left).IsOver → 8 * o.sendText.length ≤ (saidAt early course left).bits.length) →
      ∃ time, (p.workTo course time).value.1 = .over true) ∧
    (∀ left, (saidAt early course left).IsOver → (saidAt early course left).bits.length < 8 * o.sendText.length →
      (∃ time, (p.workTo course time).value.1 = .over false) ∧
        ∀ time, (offered (p.workTo course time).trace).length ≤ (saidAt early course left).bits.length + 1) ∧
    (∀ time,
      (offered (p.workTo course time).trace).map Packet.untimed <+: message (dialed config host).role o.sendText ∧
        answerBits (p.workTo course time).trace = [] ∧
        ((p.workTo course time).value.1 = .over true →
          (offered (p.workTo course time).trace).map Packet.untimed = message (dialed config host).role o.sendText ∧
            (saidAt early course time).bits.length = 8 * o.sendText.length ∧
            reports (p.workTo course time).trace = o.sendText.zip (Bits.bytes (saidAt early course time).bits))) ∧
    ∀ (interruptBased : Bool) (early' : Speech) (p' : Process) (course' : Nat → Happening),
      Converses o { config with interruptBased } host early' p' course' → ∀ time time',
        (p.workTo course time).value.1 = .over true → (p'.workTo course' time').value.1 = .over true →
          (offered (p'.workTo course' time').trace).map Packet.untimed =
              (offered (p.workTo course time).trace).map Packet.untimed ∧
            ((saidAt early' course' time').bits = (saidAt early course time).bits →
              reports (p'.workTo course' time').trace = reports (p.workTo course time).trace) := by
  obtain ⟨time, success, stands, concludes⟩ := converses.ends converses.begins
  refine ⟨fun patient => ?_, fun left gone short => ⟨?_, fun time => ?_⟩, fun time => ?_, ?_⟩
  · cases concludes with
    | sent => exact ⟨time, stands⟩
    | lost gone few =>
      have enough := patient time gone
      omega
  · cases concludes with
    | sent _ answered =>
      have most := length_saidAt_le time gone
      omega
    | lost => exact ⟨time, stands⟩
  · obtain ⟨count, most, conveyed⟩ := converses.conveyed time
    have size := congrArg List.length conveyed.out
    have less := length_saidAt_le time gone
    rw [List.length_map, List.length_take] at size
    omega
  · obtain ⟨count, _, conveyed⟩ := converses.conveyed time
    exact ⟨conveyed.out ▸ List.take_prefix _ _, conveyed.unanswered, converses.succeeds⟩
  · intro interruptBased early' p' course' converses' time time' done done'
    obtain ⟨out, _, reported⟩ := converses.succeeds done
    obtain ⟨out', _, reported'⟩ := converses'.succeeds done'
    refine ⟨out'.trans out.symm, fun same => ?_⟩
    rw [reported', reported, same]

/-- The peer answers each bit, and then the tool may go on for ever. -/
def answered (time : Nat) : Happening := (dialogue[time]?).getD .step

theorem answered_of_le {time : Nat} (late : 24 ≤ time) : answered time = .step := by
  rw [answered, List.getElem?_eq_none late]
  rfl

theorem upTo_answered (time : Nat) : upTo answered (24 + time) = dialogue ++ List.replicate time .step := by
  rw [upTo_add, show upTo answered 24 = dialogue from rfl]
  refine congrArg (dialogue ++ ·) (List.eq_replicate_iff.mpr ⟨?_, fun happening mem => ?_⟩)
  · rw [upTo, List.length_map, List.length_range]
  · obtain ⟨n, _, rfl⟩ := List.mem_map.mp mem
    exact answered_of_le (Nat.le_add_right 24 n)

/-- As long as the tool is at work no bit is held back, and the peer says no more than it is asked for. -/
theorem early_answered : ∀ time, time ≤ 24 → caller.keepsUp (upTo answered time) ∧
    (saidAt ⟨[], false⟩ answered time).bits.length ≤ (offered (caller.workTo answered time).trace).length ∧
    (offered (caller.workTo answered time).trace).length ≤ 8 := by
  decide

theorem over_dialogue : (caller.work dialogue).value.1 = .over true := by decide

/-- Behind the end nothing is said any more, and nothing goes out. -/
theorem late_answered (later : Nat) : (saidAt ⟨[], false⟩ answered (24 + later)).bits.length = 8 ∧
    (offered (caller.workTo answered (24 + later)).trace).length = 8 := by
  rw [saidAt, Process.workTo, upTo_answered, saidAfter_append, saidAfter_steps,
    (Process.work_append_of_over _ over_dialogue).2]
  decide

theorem converses_answered : Converses sendByte stepwise Link.called.host ⟨[], false⟩ caller answered where
  text := by decide
  carries := ⟨rfl, nofun, _, rfl, rfl, rfl, rfl, rfl, rfl⟩
  established := establish_caller
  smooth time := by
    have all : ∀ happening ∈ dialogue, happening.IsSmooth := by simp [dialogue, bitOf, Happening.IsSmooth]
    rw [answered]
    cases here : dialogue[time]? with
    | none => trivial
    | some happening => exact all happening (List.mem_of_getElem? here)
  goesOn time := ⟨24 + time, Nat.le_add_left _ _, answered_of_le (Nat.le_add_right _ _)⟩
  level time := by
    rcases Nat.le_total time 24 with before | after
    · exact (early_answered time before).1
    · obtain ⟨later, rfl⟩ := Nat.exists_eq_add_of_le after
      rw [upTo_answered]
      exact Process.keepsUp_append.mpr
        ⟨(early_answered 24 (Nat.le_refl _)).1, fun going => absurd over_dialogue (going true)⟩
  answering time := by
    rcases Nat.le_total time 24 with before | after
    · exact (early_answered time before).2.1
    · obtain ⟨later, rfl⟩ := Nat.exists_eq_add_of_le after
      obtain ⟨said, out⟩ := late_answered later
      exact Nat.le_of_eq (said.trans out.symm)
  answers time := by
    refine ⟨24 + time, Nat.le_add_left _ _, .inl ?_⟩
    rw [(late_answered time).1]
    rcases Nat.le_total time 24 with before | after
    · exact (early_answered time before).2.2
    · obtain ⟨later, rfl⟩ := Nat.exists_eq_add_of_le after
      exact Nat.le_of_eq (late_answered later).2

/-- The tool has sent its byte, and reports it with the one that came back. -/
theorem sends_text_answered :
    Converses sendByte stepwise Link.called.host ⟨[], false⟩ caller answered ∧
      (offered (caller.workTo answered 24).trace).map Packet.untimed =
          message (dialed stepwise Link.called.host).role [0x3c] ∧
        reports (caller.workTo answered 24).trace = [(0x3c, 0xa5)] := by
  obtain ⟨_, _, always, _⟩ := sends_text converses_answered
  obtain ⟨out, _, reported⟩ := (always 24).2.2 over_dialogue
  refine ⟨converses_answered, out, reported.trans ?_⟩
  decide

end SerialLink.Tool
