import SerialLink.Proofs.Elapsed
import SerialLink.Proofs.Pacing
import SerialLink.Proofs.Transfer

/-!
# Cycles that pass in parts

What becomes of a port that exchanges nothing depends on how many cycles have passed, and not on the ticks in which
they came: any number of cycles passes at once in `SerialPort.pass`, and one number after the other is their sum
(`SerialPort.pass_pass`).  Of the two counters the one for the next bit stops at the top, and the clock goes round;
both come to the same however the cycles are parted.  A tick exchanges a bit exactly if one is due when its cycles
have passed (`SerialPort.Ready.exchanged_iff`), and a port whose transfer bit is clear never does
(`SerialPort.Still.run`).  Together: `SerialPort.ticks_in_parts`.
-/

namespace SerialLink

open Event

namespace SerialPort

variable {p q : SerialPort} {h : List Event} {act : Act} {acts : List Act}

/-! ### Cycles without a bit -/

/-- Lets any number of cycles pass at once. -/
def pass (cycles : Nat) (p : SerialPort) : SerialPort :=
  { p with
    phase := if p.phase = .complete then .armed else p.phase
    cycleCount := UInt32.ofNat (min (p.cycleCount.toNat + cycles) 4294967295)
    clock := p.clock.pass cycles }

theorem toNat_cycleCount_pass (cycles : Nat) (p : SerialPort) :
    (p.pass cycles).cycleCount.toNat = min (p.cycleCount.toNat + cycles) 4294967295 :=
  UInt32.toNat_ofNat_of_lt' (Nat.lt_of_le_of_lt (Nat.min_le_right _ _) (by decide))

theorem elapse_eq (range : p.clock.InRange) (cycles : UInt32) : p.elapse cycles = p.pass cycles.toNat := by
  rw [elapse, Clock.advance_eq range.timestamp]
  rfl

theorem phase_pass (ready : p.phase = .armed ∨ p.phase = .complete) (cycles : Nat) :
    (p.pass cycles).phase = .armed := by
  rcases ready with h | h <;> simp [pass, h]

/-- It does not matter how the cycles are parted: what is above the top of a counter stays there, and a clock that
has gone round goes on. -/
theorem pass_pass (ready : p.phase = .armed ∨ p.phase = .complete) (m n : Nat) :
    (p.pass m).pass n = p.pass (m + n) := by
  have count : min ((p.pass m).cycleCount.toNat + n) 4294967295 =
      min (p.cycleCount.toNat + (m + n)) 4294967295 := by
    rw [toNat_cycleCount_pass]
    omega
  have phase : (if (p.pass m).phase = .complete then .armed else (p.pass m).phase) = (p.pass (m + n)).phase := by
    rw [phase_pass ready, phase_pass ready]
    rfl
  have clock : (p.pass m).clock.pass n = p.clock.pass (m + n) := Clock.pass_pass m n p.clock
  rw [pass, count, phase, clock]
  rfl

/-- The cycles until the next bit when some have passed, however many they were. -/
theorem toNat_cyclesToTransmit_pass (ready : p.phase = .armed ∨ p.phase = .complete)
    (transfer : p.port.isTransferring) (cycles : Nat) :
    (p.pass cycles).cyclesToTransmit.toNat = p.cyclesToTransmit.toNat - cycles := by
  have still : (p.pass cycles).isEnabled := enabled_of_ready (.inl (phase_pass ready cycles))
  rw [toNat_cyclesToTransmit (enabled_of_ready ready) transfer, toNat_cyclesToTransmit still transfer,
    toNat_cycleCount_pass]
  omega

/-! ### Ticks that exchange a bit -/

/-- Whether a tick has exchanged a bit: one was shifted in, or the port waits for it, or has lost its link over
it. -/
def Exchanged (x : Traced (Progress × SerialPort)) : Prop :=
  shifted x.trace ≠ [] ∨ x.value.2.phase = .exchanging ∨ x.value.2.phase = .disabled

instance (x : Traced (Progress × SerialPort)) : Decidable (Exchanged x) :=
  inferInstanceAs (Decidable (_ ∨ _ ∨ _))

/-- Whether none of the ticks that are made one after the other exchanges a bit. -/
def onlyPass : List UInt32 → SerialPort → Bool
  | [], _ => true
  | cycles :: ticks, p => !decide (Exchanged (p.tick cycles)) && onlyPass ticks (p.tick cycles).value.2

/-- A port that can let cycles pass: it has a link, does not wait, and bits are left in its queue or may still
come. -/
structure Ready (p : SerialPort) : Prop where
  sound : p.Sound
  phase : p.phase = .armed ∨ p.phase = .complete
  more : p.queue.isExhausted = false
  range : p.clock.InRange

theorem Ready.pass (ready : p.Ready) (cycles : Nat) : (p.pass cycles).Ready := by
  have armed := phase_pass ready.phase cycles
  have linked := linked_of_ready ready.phase
  refine ⟨⟨fun _ => (ready.sound.linked linked).of_eq rfl rfl rfl, fun off => ?_⟩, .inl armed, ready.more,
    ready.range.pass cycles⟩
  cases armed.symm.trans off

/-- What a tick comes to: the bit that is due is exchanged, or cycles pass and that is all. -/
theorem Ready.tick_cases (ready : p.Ready) (cycles : UInt32) :
    (p.elapse cycles).isDue = true ∧ Exchanged (p.tick cycles) ∧
        (p.elapse cycles).Exchanges (p.tick cycles) ∨
      (p.elapse cycles).isDue = false ∧ ¬ Exchanged (p.tick cycles) ∧
        p.tick cycles = pure (.idle, p.pass cycles.toNat) := by
  cases p.ticks_tick cycles with
  | unlinked phase => exact absurd phase (linked_of_ready ready.phase)
  | blocked phase => rcases ready.phase with h | h <;> cases h.symm.trans phase
  | loses _ exhausted => cases ready.more.symm.trans exhausted
  | exchanges _ more due same =>
    have session := ready.sound.linked (linked_of_ready ready.phase)
    have exchanges : (p.elapse cycles).Exchanges (p.elapse cycles).exchange :=
      exchanges_exchange (session.of_eq rfl rfl rfl) (phase_elapse ready.phase cycles) due more
    rw [same]
    refine .inl ⟨due, ?_, exchanges⟩
    cases items : (p.elapse cycles).queue.items with
    | nil =>
      rcases (exchanges.waits items).2 with ⟨_, begun⟩ | ⟨_, _, lost⟩
      · exact .inr (.inl begun)
      · exact .inr (.inr lost)
    | cons item rest =>
      refine .inl ?_
      rw [(exchanges.takes item rest items).1]
      exact List.cons_ne_nil _ _
  | passes _ _ early same =>
    have armed := phase_elapse ready.phase cycles
    rw [same, ← elapse_eq ready.range]
    refine .inr ⟨early, ?_, rfl⟩
    rintro (some | begun | lost)
    · exact some rfl
    · cases armed.symm.trans begun
    · cases armed.symm.trans lost

/-- **When a tick exchanges a bit**: as soon as so many cycles have passed as the port tells, if this side is not
ahead of its peer then. -/
theorem Ready.exchanged_iff (ready : p.Ready) (cycles : UInt32) : Exchanged (p.tick cycles) ↔
    p.port.isTransferring = true ∧ p.cyclesToTransmit.toNat ≤ cycles.toNat ∧
      Clock.isAhead (p.clock.advance cycles).timestamp p.clock.received = false := by
  have isDue : Exchanged (p.tick cycles) ↔ (p.elapse cycles).isDue = true := by
    rcases ready.tick_cases cycles with ⟨due, exchanged, _⟩ | ⟨due, idle, _⟩
    · exact ⟨fun _ => due, fun _ => exchanged⟩
    · rw [due]
      exact ⟨fun exchanged => absurd exchanged idle, nofun⟩
  rw [isDue]
  constructor
  · intro due
    have transfer : (p.elapse cycles).port.isTransferring = true := isTransferring_of_isDue due
    have count := toNat_cyclesToTransmit_pass ready.phase transfer cycles.toNat
    obtain ⟨none, level⟩ := Bool.and_eq_true _ _ ▸ due
    rw [← elapse_eq ready.range, beq_iff_eq.mp none] at count
    have count : 0 = _ := count
    exact ⟨transfer, by omega, Bool.not_eq_true' _ ▸ level⟩
  · rintro ⟨transfer, enough, level⟩
    have level : Clock.isAhead (p.elapse cycles).clock.timestamp (p.elapse cycles).clock.received = false := level
    rw [SerialPort.isDue, due_elapse ready.phase transfer enough, Clock.isReady, level]
    rfl

/-- **Cycles that pass in parts pass as well at once**, as long as no bit is exchanged on the way, and none is due
then. -/
theorem Ready.run_ticks {ticks : List UInt32} (ready : p.Ready) (some : ticks ≠ [])
    (only : p.onlyPass ticks = true) :
    p.run (ticks.map .tick) = pure (p.pass (passed (ticks.map .tick))) ∧
      (p.pass (passed (ticks.map .tick))).isDue = false := by
  induction ticks generalizing p with
  | nil => exact absurd rfl some
  | cons cycles rest ih =>
    obtain ⟨idle, later⟩ := Bool.and_eq_true _ _ ▸ only
    obtain ⟨early, tick⟩ : (p.pass cycles.toNat).isDue = false ∧
        p.tick cycles = pure (.idle, p.pass cycles.toNat) := by
      rw [← elapse_eq ready.range]
      rcases ready.tick_cases cycles with ⟨_, exchanged, _⟩ | ⟨early, _, tick⟩
      · exact absurd exchanged (of_decide_eq_false (Bool.not_eq_true' _ ▸ idle))
      · exact ⟨early, elapse_eq ready.range cycles ▸ tick⟩
    have run : p.run ((cycles :: rest).map .tick) = (p.pass cycles.toNat).run (rest.map .tick) := by
      show (p.tick cycles >>= fun x => x.2.run (rest.map .tick)) = _
      rw [tick]
      rfl
    rw [tick] at later
    have total : passed ((cycles :: rest).map .tick) = cycles.toNat + passed (rest.map .tick) := rfl
    rw [run, total]
    cases rest with
    | nil => exact ⟨rfl, early⟩
    | cons next rest =>
      rw [← pass_pass ready.phase]
      exact ih (ready.pass cycles.toNat) (List.cons_ne_nil _ _) later

/-! ### Ports whose transfer bit is clear -/

/-- Whether the transfer bit is clear whenever the machine has accessed the state. -/
def leavesClear : List Act → SerialPort → Bool
  | [], _ => true
  | act :: acts, p =>
    !(act.isAccess && (p.perform act).value.2.port.isTransferring) &&
      leavesClear acts (p.perform act).value.2

theorem Still.perform (still : p.Still) (sound : p.Sound) (possible : act.isPossible p)
    (clear : (act.isAccess && (p.perform act).value.2.port.isTransferring) = false) :
    (p.perform act).value.2.Still ∧ shifted (p.perform act).trace = [] ∧ offered (p.perform act).trace = [] := by
  cases access : act.isAccess with
  | true =>
    rw [access, Bool.true_and] at clear
    obtain ⟨trace, accessed⟩ := accessed_perform access p
    rw [trace]
    exact ⟨⟨mt accessed.begun.mp still.phase, clear⟩, rfl, rfl⟩
  | false =>
    rw [← shifted_deeds, ← offered_deeds]
    exact (leads_perform access possible sound).steps.still still

/-- **As long as the transfer bit is clear no bit is exchanged**, however many cycles pass. -/
theorem Still.run (still : p.Still) (sound : p.Sound) (can : p.canRun acts) (clear : p.leavesClear acts) :
    (p.run acts).value.Still ∧ shifted (p.run acts).trace = [] ∧ offered (p.run acts).trace = [] := by
  induction acts generalizing p with
  | nil => exact ⟨still, rfl, rfl⟩
  | cons act rest ih =>
    obtain ⟨possible, can⟩ := Bool.and_eq_true _ _ ▸ can
    obtain ⟨now, later⟩ := Bool.and_eq_true _ _ ▸ clear
    obtain ⟨next, none, mute⟩ := still.perform sound possible (Bool.not_eq_true' _ ▸ now)
    obtain ⟨last, shifts, offers⟩ := ih next (sound_perform possible sound) can later
    rw [SerialPort.run, Traced.trace_bind, shifted_append, offered_append, none, mute]
    exact ⟨last, shifts, offers⟩

theorem Still.cyclesToTransmit_eq (still : p.Still) : p.cyclesToTransmit = 65536 := by
  rw [cyclesToTransmit, still.clear]
  cases p.isEnabled <;> rfl

/-! ### At any time of a life -/

/-- **It does not matter in which ticks cycles pass.**  Whenever a tick can be made, a port with a link and with bits
that are left or may come is after ticks that exchange nothing as it is after one tick of all their cycles, if
these make one; the cycles for the next bit are counted as far as the counter goes, so that a bit that is due
stays so.  A tick exchanges a bit exactly if the transfer bit is set, its cycles are as many as the port tells,
and with them this side is not ahead of its peer.  It exchanges one bit then; else the port tells so many cycles
less.  While the transfer bit is clear it tells the same number for ever, and no bit is exchanged. -/
theorem ticks_in_parts {ops : List Operation} (can : new.canLive ops)
    (enabled : (new.live ops).value.isEnabled = true) (outside : (new.live ops).value.phase ≠ .exchanging)
    (more : (new.live ops).value.queue.isExhausted = false) :
    let p := (new.live ops).value
    (∀ ticks : List UInt32, ticks ≠ [] → p.onlyPass ticks = true →
      let total := passed (ticks.map .tick)
      let q := (p.run (ticks.map .tick)).value
      (total < 4294967296 → q = (p.tick (UInt32.ofNat total)).value.2 ∧
        ¬ Exchanged (p.tick (UInt32.ofNat total))) ∧
      q.cycleCount.toNat = min (p.cycleCount.toNat + total) 4294967295 ∧
      (p.port.isTransferring = true →
        q.cyclesToTransmit.toNat = p.cyclesToTransmit.toNat - total)) ∧
    (∀ cycles : UInt32,
      (Exchanged (p.tick cycles) ↔ p.port.isTransferring = true ∧ p.cyclesToTransmit.toNat ≤ cycles.toNat ∧
        Clock.isAhead (p.clock.advance cycles).timestamp p.clock.received = false) ∧
      (Exchanged (p.tick cycles) → (p.elapse cycles).Exchanges (p.tick cycles)) ∧
      (¬ Exchanged (p.tick cycles) → p.tick cycles = pure (.idle, p.elapse cycles) ∧
        (p.port.isTransferring = true →
          (p.elapse cycles).cyclesToTransmit.toNat = p.cyclesToTransmit.toNat - cycles.toNat))) ∧
    (p.port.isTransferring = false → ∀ acts : List Act, p.canRun acts → p.leavesClear acts →
      (p.run acts).value.port.isTransferring = false ∧ (p.run acts).value.cyclesToTransmit = 65536 ∧
        shifted (p.run acts).trace = [] ∧ offered (p.run acts).trace = []) := by
  intro p
  have ready : p.Ready :=
    ⟨sound_live can, ready_of_outside enabled outside, more, (inRange_live can).session.clock⟩
  refine ⟨fun ticks some only => ?_, fun cycles => ⟨ready.exchanged_iff cycles, ?_, ?_⟩, ?_⟩
  · intro total q
    obtain ⟨run, early⟩ := ready.run_ticks some only
    have after : q = p.pass total := congrArg Traced.value run
    refine ⟨fun small => ?_, ?_, fun transfer => ?_⟩
    · have same : (UInt32.ofNat total).toNat = total := UInt32.toNat_ofNat_of_lt' small
      rcases ready.tick_cases (UInt32.ofNat total) with ⟨due, _⟩ | ⟨_, none, tick⟩
      · rw [elapse_eq ready.range, same] at due
        exact nomatch early.symm.trans due
      · rw [same] at tick
        rw [after]
        exact ⟨(congrArg (·.value.2) tick).symm, none⟩
    · rw [after, toNat_cycleCount_pass]
    · rw [after, toNat_cyclesToTransmit_pass ready.phase transfer]
  · intro exchanged
    rcases ready.tick_cases cycles with ⟨_, _, exchanges⟩ | ⟨_, idle, _⟩
    · exact exchanges
    · exact absurd exchanged idle
  · intro idle
    rcases ready.tick_cases cycles with ⟨_, exchanged, _⟩ | ⟨_, _, tick⟩
    · exact absurd exchanged idle
    · rw [elapse_eq ready.range]
      exact ⟨tick, fun transfer => toNat_cyclesToTransmit_pass ready.phase transfer cycles.toNat⟩
  · intro clear acts can' leaves
    have still : p.Still := ⟨outside, clear⟩
    obtain ⟨last, shifts, offers⟩ := still.run ready.sound can' leaves
    exact ⟨last.clear, last.cyclesToTransmit_eq, shifts, offers⟩

/-- A port that drives the clock, at the beginning of time. -/
def driving : List Operation :=
  [.plug Link.called.config true Link.called.host, .act (.writeControl 129)]

/-- Ticks of 200 and 313 cycles are one of 513, with which no bit is due; one of 514 exchanges a bit.  Two ticks as
long as they can be put the port thousands of steps ahead of its peer, and the bit stays due.  Before the transfer
bit is set, they change nothing that the port tells. -/
theorem ticks_in_parts_driving :
    let p := (new.live driving).value
    let short : List UInt32 := [200, 313]
    let long : List UInt32 := [4294967295, 4294967295]
    let idle := (new.live (driving.take 1)).value
    (p.run (short.map .tick)).value = (p.tick 513).value.2 ∧
      Exchanged (p.tick 514) ∧ told (p.tick 514).trace = [Packet.sync .slave 0 129 0] ∧
      (p.run (long.map .tick)).value.cycleCount.toNat = 4294967295 ∧
      (p.run (long.map .tick)).value.cyclesToTransmit.toNat = 0 ∧
      (idle.run (long.map .tick)).value.cyclesToTransmit = 65536 := by
  intro p short long idle
  have can : new.canLive driving = true := by decide
  obtain ⟨parts, one, _⟩ := ticks_in_parts can (by decide) (by decide) (by decide)
  obtain ⟨_, _, clear⟩ := @ticks_in_parts (driving.take 1) (by decide) (by decide) (by decide) (by decide)
  have exchanged : Exchanged (p.tick 514) := (one 514).1.mpr (by decide)
  obtain ⟨_, count, rest⟩ := parts long (by decide) (by decide)
  refine ⟨?_, exchanged, ?_, ?_, ?_, ?_⟩
  · have total : UInt32.ofNat (passed (short.map .tick)) = 513 := by decide
    rw [((parts short (by decide) (by decide)).1 (by decide)).1, total]
  · rw [((one 514).2.1 exchanged).offers]
    decide
  · rw [count]
    decide
  · rw [rest (by decide)]
    decide
  · exact (clear (by decide) (long.map .tick) (by decide) (by decide)).2.1

end SerialPort

end SerialLink
