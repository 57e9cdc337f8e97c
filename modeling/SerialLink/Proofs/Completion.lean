import SerialLink.Proofs.Transfer

/-!
# What a completed byte tells

A side that drives the clock clocks a bit out for every bit that it shifts in, unless its packet is not
taken.  Then the connection is closed, but the bits of the peer that are still in the queue are shifted in
all the same, and may complete the byte.  So a completed byte has gone out as a whole exactly if the receiver
was still at work when its last bit had been begun (`Transfer.IsDriven.offered`).
-/

namespace SerialLink

open Event

namespace Registers

/-- A side that has set both bits drives the clock. -/
theorem drivesClock_of_set {r : Registers} (transfer : r.isTransferring)
    (internal : r.control &&& internalClockBit ≠ 0) : r.drivesClock := by
  have all : ∀ n : Fin 256, UInt8.ofFin n &&& transferBit ≠ 0 → UInt8.ofFin n &&& internalClockBit ≠ 0 →
      UInt8.ofFin n &&& (transferBit ||| internalClockBit) = transferBit ||| internalClockBit := by
    decide +kernel
  exact beq_iff_eq.mpr (all r.control.toFin (bne_iff_ne.mp transfer) internal)

end Registers

namespace SerialPort

/-- How many bits are begun and were not shifted in yet. -/
def begunBits (p : SerialPort) : Nat := if p.phase = .exchanging then 1 else 0

theorem begunBits_le (p : SerialPort) : p.begunBits ≤ 1 := by
  unfold begunBits
  split <;> omega

theorem begunBits_of_armed {p : SerialPort} (ready : p.phase = .armed) : p.begunBits = 0 := by
  unfold begunBits
  rw [ready]
  rfl

/-! ### Waiting for a bit -/

/-- What does not begin a bit: nothing is clocked out, and no bit is shifted in but the one that was
begun. -/
structure Rests (p : SerialPort) (x : Traced (Progress × SerialPort)) : Prop where
  mute : offered x.trace = []
  bound : (shifted x.trace).length + x.value.2.begunBits ≤ p.begunBits

theorem Rests.quiet {p : SerialPort} {x : Traced (Progress × SerialPort)} (trace : deeds x.trace = [])
    (bits : x.value.2.begunBits ≤ p.begunBits) : p.Rests x := by
  constructor
  · rw [← offered_deeds, trace]
    rfl
  · rw [← shifted_deeds, trace]
    exact Nat.le_trans (Nat.le_of_eq (Nat.zero_add _)) bits

theorem rests_awaitBit {p : SerialPort} (sound : p.toSession.Sound) (begun : p.phase = .exchanging) :
    p.Rests p.awaitBit := by
  have one : p.begunBits = 1 := if_pos begun
  cases p.looks_awaitBit with
  | shifts _ _ _ same =>
    rw [same]
    exact ⟨rfl, Nat.le_of_eq one.symm⟩
  | completes _ _ _ same =>
    rw [same]
    cases p.interruptBased && p.hasListener <;> exact ⟨rfl, Nat.le_of_eq one.symm⟩
  | loses _ same =>
    rw [same]
    exact .quiet (deeds_disable_idle sound p.receiverError) (Nat.zero_le _)
  | waits _ same =>
    rw [same]
    exact .quiet rfl (Nat.le_refl _)

/-- What is done with a port between two ticks begins no bit. -/
theorem rests_perform {act : Act} {p : SerialPort} (passive : act.isAccess = false)
    (noTick : act.isTick = false) (sound : p.Sound) : p.Rests (p.perform act) := by
  cases act with
  | resume =>
    show p.Rests p.resume
    unfold resume
    split
    · next begun => exact rests_awaitBit (sound.linked (begun ▸ nofun)) begun
    · exact .quiet rfl (Nat.le_refl _)
  | timeOut =>
    show p.Rests (do return (.idle, ← p.timeOut))
    unfold timeOut
    split
    · next begun =>
      exact .quiet (deeds_disable_idle (sound.linked (begun ▸ nofun)) .transferTimeout) (Nat.zero_le _)
    · exact .quiet rfl (Nat.le_refl _)
  | arrive segment =>
    have traffic := (moves_arrive segment p).traffic
    have trace : (p.arrive segment >>= fun q => pure (Progress.idle, q)).trace =
        (p.arrive segment).trace := List.append_nil _
    constructor
    · exact (congrArg offered trace).trans ((offered_deeds _).symm.trans (offered_of_traffic traffic))
    · have none := (congrArg shifted trace).trans
        ((shifted_deeds _).symm.trans (shifted_of_traffic traffic))
      exact Nat.le_of_eq ((congrArg (·.length + _) none).trans (Nat.zero_add _))
  | turn => exact .quiet rfl (Nat.le_refl _)
  | tick => cases noTick
  | _ => cases passive

/-! ### Ticks that clock a bit out -/

/-- A connection that is established is not closed by looking for the bit of the peer. -/
theorem established_awaitBit {p : SerialPort} (sound : p.toSession.Sound)
    (established : p.connection.established) : p.awaitBit.value.2.connection.established := by
  cases p.looks_awaitBit with
  | shifts _ _ _ same | completes _ _ _ same | waits _ same =>
    rw [same]
    exact established
  | loses found =>
    -- While the connection is there the receiver keeps the queue open.
    have closed := (sound.ordered.of_pop_closed found).2
    rw [sound.closed, ← sound.established, established] at closed
    cases closed

/-- After a bit was exchanged of which this side's own went out, the connection is still there. -/
theorem established_exchange {p : SerialPort} (sound : p.toSession.Sound) (ready : p.phase = .armed)
    (due : p.isDue) (vocal : offered p.exchange.trace ≠ []) :
    p.exchange.value.2.connection.established := by
  obtain ⟨_, waiting, begun, _, _, established⟩ := begun_offerBit sound ready due
  have rests := rests_awaitBit (p := ({ p with phase := .exchanging }.offerBit.value.withRegisters
    fun r => { r with waiting := true })) (waiting.of_eq rfl rfl rfl) begun
  rw [exchange, Traced.trace_bind, offered_append, rests.mute, List.append_nil] at vocal
  exact established_awaitBit (waiting.of_eq rfl rfl rfl) (established vocal)

/-- After a tick that has clocked a bit out the connection is still there. -/
theorem established_tick {p : SerialPort} (sound : p.Sound) (cycles : UInt32)
    (vocal : offered (p.tick cycles).trace ≠ []) : (p.tick cycles).value.2.connection.established := by
  cases p.ticks_tick cycles with
  | exchanges ready _ due same =>
    have session := sound.linked (linked_of_ready ready)
    rw [same] at vocal ⊢
    exact established_exchange (session.of_eq rfl rfl rfl) (phase_elapse ready cycles) due vocal
  | loses ready _ same =>
    have session := sound.linked (linked_of_ready ready)
    rw [same, ← offered_deeds, deeds_disable_idle session] at vocal
    exact absurd rfl vocal
  | unlinked _ same | blocked _ same | passes _ _ _ same =>
    rw [same] at vocal
    exact absurd rfl vocal

/-! ### Counting the bits that went out -/

/-- Of the bits that were begun at most all have gone out, and all of them as long as the connection is
there. -/
structure Counted (h : List Event) (p : SerialPort) : Prop where
  most : (offered h).length ≤ (shifted h).length + p.begunBits
  all : p.connection.established → (offered h).length = (shifted h).length + p.begunBits

variable {s p q : SerialPort} {g h : List Event}

theorem Counted.same (counted : Counted g p) (mute : offered h = []) (silent : shifted h = [])
    (begun : q.begunBits = p.begunBits)
    (established : q.connection.established → p.connection.established) : Counted (g ++ h) q := by
  obtain ⟨most, all⟩ := counted
  constructor
  all_goals rw [offered_append, mute, shifted_append, silent, List.append_nil, List.append_nil, begun]
  · exact most
  · exact fun h => all (established h)

/-- A bit that was begun is shifted in. -/
theorem Counted.shiftIn (counted : Counted g p) (begun : p.begunBits = 1) (mute : offered h = [])
    (bit : (shifted h).length = 1) (ended : q.begunBits = 0)
    (established : q.connection.established → p.connection.established) : Counted (g ++ h) q := by
  obtain ⟨most, all⟩ := counted
  rw [begun] at most all
  constructor
  all_goals rw [offered_append, mute, List.append_nil, shifted_append, List.length_append, bit, ended]
  · exact most
  · exact fun h => all (established h)

theorem Step.counted (step : Step p h q) (linked : q.phase ≠ .disabled)
    (drives : p.isDue → p.port.drivesClock) (counted : Counted g p) : Counted (g ++ h) q := by
  cases step with
  | receiver move =>
    have traffic := move.traffic
    refine counted.same (offered_of_traffic traffic) (shifted_of_traffic traffic) rfl ?_
    intro established
    cases before : p.connection.established with
    | true => rfl
    | false => exact (move.not_established before).symm.trans established
  | connection c role established => exact counted.same rfl rfl rfl established
  | idle unlinked => exact absurd unlinked linked
  | pass cycles ready =>
    refine counted.same rfl rfl ?_ id
    rcases ready with h | h <;> simp [begunBits, elapse, h]
  -- A side that drives the clock does not listen.
  | listen ready due still => cases still.symm.trans (drives due)
  | offer ready due _ taken =>
    have none := begunBits_of_armed ready
    obtain ⟨most, all⟩ := counted
    rw [none] at most all
    refine ⟨?_, fun established => ?_⟩
    all_goals rw [offered_append, List.length_append, shifted_append, List.length_append]
    · exact Nat.succ_le_succ most
    · exact congrArg (· + 1) (all ((Connection.established_send _ _).symm.trans established))
  | fail ready due =>
    have none := begunBits_of_armed ready
    have most := counted.most
    rw [none] at most
    constructor
    · rw [offered_append, List.length_append, shifted_append, List.length_append]
      exact Nat.le_succ_of_le most
    · intro established
      cases established
  | wait => exact counted.same rfl rfl rfl id
  | shift item rest begun =>
    refine counted.shiftIn (if_pos begun) rfl ?_ rfl id
    rfl
  | complete item rest begun =>
    refine counted.shiftIn (if_pos begun) ?_ ?_ rfl id
    · split <;> rfl
    · split <;> rfl
  | lose => exact absurd rfl linked

/-- A transfer of a side that drives the clock, as far as the link is not lost. -/
def Counting (s : SerialPort) (h : List Event) (p : SerialPort) : Prop :=
  p.phase ≠ .disabled → Underway s h p ∧ Counted h p

theorem Step.counting (drives : s.port.control &&& Registers.internalClockBit ≠ 0) (step : Step p h q)
    (c : Counting s g p) : Counting s (g ++ h) q := by
  intro linked
  obtain ⟨u, counted⟩ := c (step.linked linked)
  refine ⟨step.underway linked u, step.counted linked (fun due => ?_) counted⟩
  rw [← (u.due due).2] at drives
  exact Registers.drivesClock_of_set (isTransferring_of_isDue due) drives

/-- Over a connection that is closed nothing goes out. -/
theorem Step.mute (step : Step p h q) (broken : p.connection.established = false) :
    q.connection.established = false ∧ offered h = [] := by
  cases step with
  | receiver move => exact ⟨move.not_established broken, offered_of_traffic move.traffic⟩
  | connection c role established =>
    exact ⟨Bool.eq_false_iff.mpr (mt established (Bool.eq_false_iff.mp broken)), rfl⟩
  | offer ready due drives taken =>
    cases (Connection.established_of_send taken).symm.trans broken
  | complete => exact ⟨broken, by split <;> rfl⟩
  | fail | lose => exact ⟨rfl, rfl⟩
  | _ => exact ⟨broken, rfl⟩

theorem mute_run {acts : List Act} (passive : ∀ a ∈ acts, a.isAccess = false) (can : p.canRun acts)
    (sound : p.Sound) (broken : p.connection.established = false) :
    offered (p.run acts).trace = [] := by
  have keeps : ∀ g p h q, Step p h q → (p.connection.established = false ∧ offered g = []) →
      q.connection.established = false ∧ offered (g ++ h) = [] := by
    rintro g p h q step ⟨broken, silent⟩
    obtain ⟨after, none⟩ := step.mute broken
    refine ⟨after, ?_⟩
    rw [offered_append, silent, none]
    rfl
  have mute := ((steps_run passive can sound).preserves keeps ⟨broken, rfl⟩ (g := [])).2
  rw [← offered_deeds]
  exact mute

/-! ### A receiver at work -/

/-- Whether the receiver is still at work after every tick of a run. -/
def worksAtTicks : List Act → SerialPort → Bool
  | [], _ => true
  | act :: acts, p =>
    let next := (p.perform act).value.2
    (!act.isTick || next.receiver.running) && worksAtTicks acts next

theorem worksAtTicks_append (a b : List Act) (p : SerialPort) :
    p.worksAtTicks (a ++ b) = (p.worksAtTicks a && (p.run a).value.worksAtTicks b) := by
  induction a generalizing p with
  | nil => rfl
  | cons act rest ih =>
    rw [List.cons_append, worksAtTicks, worksAtTicks, ih, Bool.and_assoc]
    rfl

/-- If the receiver is not at work after every tick, there is a tick after which it is not. -/
theorem exists_tick_of_not_worksAtTicks {acts : List Act} (idle : p.worksAtTicks acts = false) :
    ∃ earlier cycles later, acts = earlier ++ .tick cycles :: later ∧
      ((p.run earlier).value.tick cycles).value.2.receiver.running = false := by
  induction acts generalizing p with
  | nil => cases idle
  | cons act rest ih =>
    rw [worksAtTicks] at idle
    rcases (Bool.and_eq_false_iff).mp idle with here | there
    · obtain ⟨tick, stopped⟩ := Bool.or_eq_false_iff.mp here
      cases act with
      | tick cycles => exact ⟨[], cycles, rest, rfl, stopped⟩
      | _ => cases tick
    · obtain ⟨earlier, cycles, later, split, stopped⟩ := ih there
      exact ⟨act :: earlier, cycles, later, congrArg (act :: ·) split, stopped⟩

/-- Nothing goes out from a tick on after which the receiver is not at work. -/
theorem mute_of_stopped {cycles : UInt32} {later : List Act} (sound : p.Sound)
    (passive : ∀ a ∈ Act.tick cycles :: later, a.isAccess = false)
    (can : p.canRun (.tick cycles :: later))
    (linked : (p.run (.tick cycles :: later)).value.phase ≠ .disabled)
    (stopped : (p.tick cycles).value.2.receiver.running = false) :
    offered (p.run (.tick cycles :: later)).trace = [] := by
  have canLater := (Bool.and_eq_true _ _ ▸ can).2
  have others : ∀ a ∈ later, a.isAccess = false := fun a mem => passive a (List.mem_cons_of_mem _ mem)
  have leads := leads_tick sound cycles
  have still := (steps_run others canLater leads.sound).linked linked
  have broken := (leads.sound.linked still).established.trans stopped
  have mute : offered (p.tick cycles).trace = [] := by
    refine Decidable.byContradiction fun vocal => ?_
    cases (established_tick sound cycles vocal).symm.trans broken
  rw [run, Traced.trace_bind, offered_append]
  exact (congrArg (· ++ _) mute).trans (mute_run others canLater leads.sound broken)

/-- If the receiver is at work after every tick, all bits that are begun go out. -/
theorem Counting.all {acts : List Act} (counting : Counting s g p)
    (drives : s.port.control &&& Registers.internalClockBit ≠ 0)
    (passive : ∀ a ∈ acts, a.isAccess = false) (can : p.canRun acts) (sound : p.Sound)
    (linked : (p.run acts).value.phase ≠ .disabled) (works : p.worksAtTicks acts)
    (all : (offered g).length = (shifted g).length + p.begunBits) :
    (offered (g ++ deeds (p.run acts).trace)).length =
      (shifted (g ++ deeds (p.run acts).trace)).length + (p.run acts).value.begunBits := by
  induction acts generalizing p g with
  | nil =>
    rw [show deeds (p.run []).trace = [] from rfl, List.append_nil]
    exact all
  | cons act rest ih =>
    obtain ⟨possible, can⟩ := Bool.and_eq_true _ _ ▸ can
    obtain ⟨here, works⟩ := Bool.and_eq_true _ _ ▸ works
    have first := passive act (List.mem_cons_self ..)
    have others : ∀ a ∈ rest, a.isAccess = false := fun a mem => passive a (List.mem_cons_of_mem act mem)
    have leads := leads_perform first possible sound
    have next := leads.steps.preserves (fun _ _ _ _ step => step.counting drives) counting
    have still := (steps_run others can leads.sound).linked linked
    obtain ⟨most, full⟩ := (next still).2
    rw [run, Traced.trace_bind, deeds_append, ← List.append_assoc]
    refine ih next others can leads.sound linked works ?_
    cases tick : act.isTick with
    -- After a tick the receiver is at work, and so the connection is there.
    | true =>
      rw [tick] at here
      exact full ((leads.sound.linked still).established.trans here)
    -- Between ticks a bit that was begun may be shifted in, but none is begun.
    | false =>
      obtain ⟨mute, bound⟩ := rests_perform first tick sound
      show (offered _).length = (shifted _).length + (p.perform act).value.2.begunBits
      rw [offered_append, shifted_append, offered_deeds, shifted_deeds, mute, List.append_nil,
        List.length_append] at most ⊢
      omega

end SerialPort

/-! ### Whole transfers -/

open SerialPort

namespace Transfer

variable {t : Transfer} {acts : List Act} {act : Act}

theorem begunBits_start : t.start.begunBits = 0 := by
  rw [t.start_eq]
  exact if_neg t.can_before.2

theorem counting_start : Counting t.start [] t.start := by
  intro _
  have begun : t.start.phase ≠ .exchanging ∧ t.start.transferredBits = 0 := by
    rw [t.start_eq]
    exact ⟨t.can_before.2, rfl⟩
  refine ⟨.start begun.1 begun.2, Nat.zero_le _, fun _ => ?_⟩
  rw [begunBits_start]
  rfl

/-- As long as the machine leaves the port alone, the bits that go out can be counted. -/
theorem counting (drives : t.control &&& Registers.internalClockBit ≠ 0)
    (passive : ∀ a ∈ acts, a.isAccess = false) (can : t.start.canRun acts)
    (linked : (t.start.run acts).value.phase ≠ .disabled) :
    (offered (t.start.run acts).trace).length ≤
      (shifted (t.start.run acts).trace).length + (t.start.run acts).value.begunBits := by
  rw [← t.control_start] at drives
  have counting := (steps_run passive can t.sound_start).preserves
    (fun _ _ _ _ step => step.counting drives) counting_start
  have most := (counting linked).2.most
  rw [List.nil_append, offered_deeds, shifted_deeds] at most
  exact most

/-- If the receiver was at work after every tick, all bits that were begun have gone out. -/
theorem all_offered (drives : t.control &&& Registers.internalClockBit ≠ 0)
    (passive : ∀ a ∈ acts, a.isAccess = false) (can : t.start.canRun acts)
    (linked : (t.start.run acts).value.phase ≠ .disabled) (works : t.start.worksAtTicks acts) :
    (offered (t.start.run acts).trace).length =
      (shifted (t.start.run acts).trace).length + (t.start.run acts).value.begunBits := by
  rw [← t.control_start] at drives
  have all := counting_start.all drives passive can t.sound_start linked works
    (begunBits_start.symm ▸ rfl)
  rw [List.nil_append, offered_deeds, shifted_deeds] at all
  exact all

/-- If the receiver was not at work after a tick, not even all bits that were shifted in before the last act
have gone out with one more. -/
theorem few_offered (drives : t.control &&& Registers.internalClockBit ≠ 0)
    (passive : ∀ a ∈ acts ++ [act], a.isAccess = false) (can : t.start.canRun (acts ++ [act]))
    (linked : (t.start.run (acts ++ [act])).value.phase ≠ .disabled)
    (idle : t.start.worksAtTicks (acts ++ [act]) = false) :
    (offered (t.start.run (acts ++ [act])).trace).length ≤
      (shifted (t.start.run acts).trace).length := by
  obtain ⟨earlier, cycles, later, split, stopped⟩ := exists_tick_of_not_worksAtTicks idle
  rw [split] at passive can linked
  rw [canRun_append] at can
  obtain ⟨canEarlier, canLater⟩ := Bool.and_eq_true _ _ ▸ can
  rw [value_run_append] at linked
  have passiveEarlier : ∀ a ∈ earlier, a.isAccess = false :=
    fun a mem => passive a (List.mem_append_left _ mem)
  have passiveLater : ∀ a ∈ Act.tick cycles :: later, a.isAccess = false :=
    fun a mem => passive a (List.mem_append_right _ mem)
  have sound := sound_run canEarlier t.sound_start
  have silent := mute_of_stopped sound passiveLater canLater linked stopped
  have out : offered (t.start.run (acts ++ [act])).trace = offered (t.start.run earlier).trace := by
    rw [split, trace_run_append, offered_append, silent, List.append_nil]
  have still := (steps_run passiveLater canLater sound).linked linked
  have few := counting drives passiveEarlier canEarlier still
  -- No bit is begun before a tick, and the tick is one of the acts before the last one or that one.
  have atRest : (t.start.run earlier).value.begunBits = 0 :=
    if_neg (bne_iff_ne.mp (Bool.and_eq_true _ _ ▸ canLater).1)
  have before : acts = earlier ++ (Act.tick cycles :: later).dropLast := by
    rw [← List.dropLast_append_of_ne_nil (List.cons_ne_nil _ _), ← split, List.dropLast_concat]
  rw [out]
  rw [atRest] at few
  rw [before, trace_run_append, shifted_append, List.length_append]
  exact Nat.le_trans few (Nat.le_add_right _ _)

/-- A byte that a side which drives the clock has completed, with the machine leaving the port alone. -/
structure IsDriven (t : Transfer) (acts : List Act) (act : Act) : Prop where
  drives : t.control &&& Registers.internalClockBit ≠ 0
  passive : ∀ a ∈ acts ++ [act], a.isAccess = false
  can : t.start.canRun (acts ++ [act])
  completes : ((t.start.run acts).value.perform act).value.1 = .completed

/-- **All eight bits of a byte that was completed have gone out exactly if the receiver was still at work
after every tick**, and not if the peer has ended the connection but had so many bits in the queue that they
completed the byte. -/
theorem IsDriven.offered (driven : t.IsDriven acts act) :
    (Event.offered (t.start.run (acts ++ [act])).trace).length ≤ 8 ∧
      ((Event.offered (t.start.run (acts ++ [act])).trace).length = 8 ↔
        t.start.worksAtTicks (acts ++ [act])) := by
  obtain ⟨drives, passive, can, completes⟩ := driven
  have complete := complete_of_completes passive can completes
  have linked : (t.start.run (acts ++ [act])).value.phase ≠ .disabled := complete ▸ nofun
  have none : (t.start.run (acts ++ [act])).value.begunBits = 0 := if_neg (complete ▸ nofun)
  obtain ⟨seven, eight⟩ := (t.last passive can linked).completes_iff.mp completes
  have most := counting drives passive can linked
  rw [eight, none] at most
  refine ⟨most, ?_⟩
  cases works : t.start.worksAtTicks (acts ++ [act]) with
  | true =>
    have all := all_offered drives passive can linked works
    rw [eight, none] at all
    exact ⟨fun _ => rfl, fun _ => all⟩
  | false =>
    have few := few_offered drives passive can linked works
    rw [seven] at few
    exact ⟨fun all => by omega, nofun⟩

end Transfer

end SerialLink
