import SerialLink.Proofs.Delivery

/-!
# Transfers

A `Transfer` begins when the machine sets the transfer bit of a linked port.  As long as the machine leaves
the port alone and the link is not lost, the transfer is `SerialPort.Underway`: so many bits were shifted in,
and the registers, the interrupts and the packets that were clocked out are what they have to be after so
many bits.  The eighth bit completes the byte, and no other one does (`Transfer.exact_eight`).
-/

namespace SerialLink

open Event

namespace Registers

/-- Once the transfer bit is cleared no transfer is under way. -/
theorem isTransferring_cleared {r : Registers} {byte : UInt8}
    (h : r.control = byte &&& ~~~transferBit) : r.isTransferring = false := by
  have none : byte &&& ~~~transferBit &&& transferBit = 0 := by
    rw [UInt8.and_assoc]
    exact UInt8.and_zero
  rw [isTransferring, h, none]
  rfl

/-- Only a side that has set the bit for that drives the clock. -/
theorem internalClock_of_drivesClock {r : Registers} (h : r.drivesClock) :
    r.control &&& internalClockBit ≠ 0 := by
  have both : r.control &&& (transferBit ||| internalClockBit) = transferBit ||| internalClockBit :=
    beq_iff_eq.mp h
  have low : r.control &&& internalClockBit =
      r.control &&& (transferBit ||| internalClockBit) &&& internalClockBit := by
    rw [UInt8.and_assoc]
    rfl
  rw [low, both]
  decide

end Registers

/-- The packet with which a port clocks a bit of the byte `x` out: the bits are numbered from one, the
highest one first. -/
structure IsOffer (role : Role) (x control : UInt8) (number : Nat) (packet : Packet) : Prop where
  lower : 1 ≤ number
  upper : number ≤ 8
  kind : packet.kind = (Packet.Kind.ofRole role).code
  bit : packet.b2 = (x >>> UInt8.ofNat (8 - number)) &&& 1
  control : packet.b3 = control
  rest : packet.b4 = 0

namespace SerialPort

/-- A bit is due only while a transfer is under way. -/
theorem isTransferring_of_isDue {p : SerialPort} (due : p.isDue) : p.port.isTransferring = true := by
  cases h : p.port.isTransferring with
  | true => rfl
  | false =>
    have idle : p.cyclesToTransmit = idleCycles := by
      rw [cyclesToTransmit, h]
      cases p.isEnabled <;> rfl
    rw [isDue, idle] at due
    cases due

/-- How it stands with a transfer that has begun at a port `s`: the state of the port after a history. -/
structure Underway (s : SerialPort) (h : List Event) (p : SerialPort) : Prop where
  few : (shifted h).length ≤ 8
  data : Bits.Holds s.port.data (shifted h) p.port.data
  control : p.port.control = if (shifted h).length < 8 then s.port.control
    else s.port.control &&& ~~~Registers.transferBit
  bits : p.transferredBits = (shifted h).length % 8
  begun : p.phase = .exchanging → (shifted h).length < 8
  role : p.connection.role = s.connection.role
  raises : (p.interruptBased && p.hasListener) = (s.interruptBased && s.hasListener)
  interrupts : interrupts h =
    if (shifted h).length = 8 ∧ (s.interruptBased && s.hasListener) then 1 else 0

/-- How it stands with the bits that a transfer has clocked out: they are those of the byte, each of them
was clocked out once at most and before the next one was shifted in, and none was if another side drives the
clock. -/
structure Offering (s : SerialPort) (h : List Event) (p : SerialPort) : Prop where
  all : ∀ offer ∈ offers 0 h, IsOffer s.connection.role s.port.data s.port.control offer.1 offer.2
  latest : ∀ offer ∈ offers 0 h, offer.1 ≤ (shifted h).length + 1 ∧
    (p.phase ≠ .exchanging → offer.1 ≤ (shifted h).length)
  ordered : (offers 0 h).Pairwise fun a b => a.1 < b.1
  driven : s.port.control &&& Registers.internalClockBit = 0 → offers 0 h = []

variable {s p q : SerialPort} {g h : List Event}

theorem Underway.start (begun : s.phase ≠ .exchanging) (bits : s.transferredBits = 0) :
    Underway s [] s :=
  ⟨Nat.zero_le _, Bits.holds_nil _, rfl, bits, fun h => absurd h begun, rfl, rfl, rfl⟩

theorem Offering.start : Offering s [] s := ⟨nofun, nofun, .nil, fun _ => rfl⟩

/-- A bit that is due is one of the first eight, and the control register is as it was. -/
theorem Underway.due (u : Underway s g p) (due : p.isDue) :
    (shifted g).length < 8 ∧ p.port.control = s.port.control := by
  have control := u.control
  split at control
  · next more => exact ⟨more, control⟩
  -- After eight bits the transfer bit is cleared, and then no bit is due.
  · have cleared := Registers.isTransferring_cleared control
    rw [isTransferring_of_isDue due] at cleared
    cases cleared

/-- Nothing changes about the transfer while no bit is shifted in. -/
theorem Underway.quiet (u : Underway s g p) (bit : shifted h = []) (silent : Event.interrupts h = 0)
    (data : q.port.data = p.port.data) (control : q.port.control = p.port.control)
    (bits : q.transferredBits = p.transferredBits)
    (begins : q.phase = .exchanging → p.phase = .exchanging ∨ p.isDue)
    (role : q.connection.role = p.connection.role) (interruptBased : q.interruptBased = p.interruptBased)
    (hasListener : q.hasListener = p.hasListener) : Underway s (g ++ h) q := by
  have same : shifted (g ++ h) = shifted g := by
    rw [shifted_append, bit, List.append_nil]
  refine ⟨?_, ?_, ?_, ?_, ?_, role.trans u.role, ?_, ?_⟩
  · rw [same]
    exact u.few
  · rw [same, data]
    exact u.data
  · rw [same, control]
    exact u.control
  · rw [same, bits]
    exact u.bits
  · rw [same]
    exact fun h => (begins h).elim u.begun fun due => (u.due due).1
  · rw [interruptBased, hasListener]
    exact u.raises
  · rw [same, interrupts_append, silent]
    exact u.interrupts

/-- A bit that is not the eighth one is shifted in. -/
theorem Underway.shift (u : Underway s g p) (bit : UInt8) (begun : p.phase = .exchanging)
    (more : p.transferredBits + 1 < 8) (queue : BitQueue) :
    Underway s (g ++ [.clockedIn (bit &&& 1)]) { p with
      queue
      port := { p.port.shiftIn bit with waiting := false }
      phase := .armed
      transferredBits := p.transferredBits + 1
      cycleCount := 0 } := by
  have few := u.begun begun
  have bits := u.bits
  have next : shifted (g ++ [.clockedIn (bit &&& 1)]) = shifted g ++ [bit &&& 1] := shifted_append _ _
  have length : (shifted (g ++ [.clockedIn (bit &&& 1)])).length = (shifted g).length + 1 := by
    rw [next, List.length_append]
    rfl
  have control := u.control
  rw [if_pos few] at control
  have none := u.interrupts
  rw [if_neg (by omega)] at none
  refine ⟨?_, ?_, ?_, ?_, nofun, u.role, u.raises, ?_⟩
  · omega
  · rw [next]
    exact u.data.shiftIn bit
  · rw [length, if_pos (by omega)]
    exact control
  · rw [length]
    show p.transferredBits + 1 = _
    omega
  · rw [length, if_neg (by omega), interrupts_append, none]
    rfl

/-- The eighth bit is shifted in. -/
theorem Underway.complete (u : Underway s g p) (bit : UInt8) (begun : p.phase = .exchanging)
    (last : ¬ p.transferredBits + 1 < 8) (queue : BitQueue) :
    Underway s (g ++ .clockedIn (bit &&& 1) ::
        if p.interruptBased && p.hasListener then [.interrupted] else []) { p with
      queue
      port := { p.port.shiftIn bit with
        control := p.port.control &&& ~~~Registers.transferBit
        waiting := false }
      phase := .complete
      transferredBits := 0
      cycleCount := 0 } := by
  have few := u.begun begun
  have bits := u.bits
  have raised : shifted (if p.interruptBased && p.hasListener then [.interrupted] else []) = [] := by
    split <;> rfl
  have next : shifted (g ++ .clockedIn (bit &&& 1) ::
      if p.interruptBased && p.hasListener then [.interrupted] else []) = shifted g ++ [bit &&& 1] := by
    rw [shifted_append]
    exact congrArg _ (congrArg ((bit &&& 1) :: ·) raised)
  -- Fewer than eight bits were shifted in, and their number is seven up to eights.
  have length : (shifted g).length + 1 = 8 := by omega
  have eight : (shifted (g ++ .clockedIn (bit &&& 1) ::
      if p.interruptBased && p.hasListener then [.interrupted] else [])).length = 8 := by
    rw [next, List.length_append]
    exact length
  have control := u.control
  rw [if_pos few] at control
  have none := u.interrupts
  rw [if_neg (by omega)] at none
  refine ⟨?_, ?_, ?_, ?_, nofun, u.role, u.raises, ?_⟩
  · exact Nat.le_of_eq eight
  · rw [next]
    exact u.data.shiftIn bit
  · rw [eight, if_neg (by decide), ← control]
  · rw [eight]
  · rw [eight, interrupts_append, none, ← u.raises]
    cases p.interruptBased && p.hasListener <;> rfl

/-- Every step but the loss of the link keeps the transfer under way. -/
theorem Step.underway (step : Step p h q) (linked : q.phase ≠ .disabled) (u : Underway s g p) :
    Underway s (g ++ h) q := by
  cases step with
  | receiver move =>
    have traffic := move.traffic
    have kept := move.kept
    exact u.quiet (shifted_of_traffic traffic) (interrupts_of_traffic traffic) kept.data kept.control rfl
      .inl kept.role rfl rfl
  | connection c role => exact u.quiet rfl rfl rfl rfl rfl .inl role rfl rfl
  | idle unlinked => exact absurd unlinked linked
  | pass cycles ready =>
    refine u.quiet rfl rfl rfl rfl rfl (fun h => ?_) rfl rfl rfl
    rcases ready with hp | hp <;> simp [elapse, hp] at h
  | listen ready due => exact u.quiet rfl rfl rfl rfl rfl (fun _ => .inr due) rfl rfl rfl
  | offer ready due =>
    exact u.quiet rfl rfl rfl rfl rfl (fun _ => .inr due) (Connection.role_send _ _) rfl rfl
  | fail ready due =>
    exact u.quiet rfl rfl rfl rfl rfl (fun _ => .inr due) (Connection.role_send _ _) rfl rfl
  | wait => exact u.quiet rfl rfl rfl rfl rfl .inl rfl rfl rfl
  | shift item rest begun items more => exact u.shift item.data begun more _
  | complete item rest begun items last => exact u.complete item.data begun last _
  | lose => exact absurd rfl linked

/-- Nothing changes about the bits that were clocked out while none is. -/
theorem Offering.quiet (o : Offering s g p) (offer : ∀ n, offers n h = [])
    (ends : q.phase ≠ .exchanging → p.phase ≠ .exchanging ∨ (shifted h).length = 1) :
    Offering s (g ++ h) q := by
  have same : offers 0 (g ++ h) = offers 0 g := by
    rw [offers_append, offer, List.append_nil]
  refine ⟨?_, ?_, ?_, ?_⟩
  · rw [same]
    exact o.all
  · rw [same, shifted_append, List.length_append]
    intro offer mem
    obtain ⟨upper, settled⟩ := o.latest offer mem
    refine ⟨by omega, fun still => ?_⟩
    rcases ends still with before | one
    · exact Nat.le_trans (settled before) (Nat.le_add_right _ _)
    · omega
  · rw [same]
    exact o.ordered
  · rw [same]
    exact o.driven

/-- The next bit is clocked out. -/
theorem Offering.offer (u : Underway s g p) (o : Offering s g p) (ready : p.phase = .armed)
    (due : p.isDue) (drives : p.port.drivesClock) (begun : q.phase = .exchanging) :
    Offering s (g ++ [.sent p.syncPacket, .clockedOut p.syncPacket]) q := by
  obtain ⟨few, control⟩ := u.due due
  have next : offers 0 (g ++ [.sent p.syncPacket, .clockedOut p.syncPacket]) =
      offers 0 g ++ [((shifted g).length + 1, p.syncPacket)] := by
    rw [offers_append, Nat.zero_add]
    rfl
  have length : (shifted (g ++ [.sent p.syncPacket, .clockedOut p.syncPacket])).length =
      (shifted g).length := by
    rw [shifted_append]
    exact congrArg _ (List.append_nil _)
  -- The port is armed, so all that were clocked out before have smaller numbers.
  have settled : ∀ offer ∈ offers 0 g, offer.1 ≤ (shifted g).length :=
    fun offer mem => (o.latest offer mem).2 (ready ▸ nofun)
  have isOffer : IsOffer s.connection.role s.port.data s.port.control ((shifted g).length + 1)
      p.syncPacket := by
    refine ⟨by omega, by omega, ?_, ?_, control, rfl⟩
    · rw [← u.role]
      rfl
    · rw [Nat.add_sub_add_right 7 1]
      show p.port.outgoing &&& 1 = _
      rw [u.data.outgoing few, UInt8.and_assoc]
      rfl
  refine ⟨?_, ?_, ?_, ?_⟩
  · rw [next]
    intro offer mem
    rcases List.mem_append.mp mem with mem | mem
    · exact o.all offer mem
    · rw [List.mem_singleton.mp mem]
      exact isOffer
  · rw [next, length]
    intro offer mem
    refine ⟨?_, fun still => absurd begun still⟩
    rcases List.mem_append.mp mem with mem | mem
    · exact (o.latest offer mem).1
    · exact Nat.le_of_eq (congrArg Prod.fst (List.mem_singleton.mp mem))
  · rw [next]
    refine List.pairwise_append.mpr ⟨o.ordered, List.pairwise_singleton _ _, ?_⟩
    intro a ha b hb
    rw [List.mem_singleton.mp hb]
    exact Nat.lt_succ_of_le (settled a ha)
  · intro other
    rw [← control] at other
    exact absurd other (Registers.internalClock_of_drivesClock drives)

/-- Every step but the loss of the link keeps the bits that were clocked out in order. -/
theorem Step.offering (step : Step p h q) (linked : q.phase ≠ .disabled) (u : Underway s g p)
    (o : Offering s g p) : Offering s (g ++ h) q := by
  cases step with
  | receiver move => exact o.quiet (fun n => offers_of_traffic n move.traffic) .inl
  | pass cycles ready =>
    refine o.quiet (fun _ => rfl) fun _ => .inl ?_
    rcases ready with h | h <;> rw [h] <;> nofun
  | listen ready => exact o.quiet (fun _ => rfl) fun h => absurd rfl h
  | offer ready due drives => exact o.offer u ready due drives rfl
  | fail ready => exact o.quiet (fun _ => rfl) fun h => absurd rfl h
  | shift => exact o.quiet (fun _ => rfl) fun _ => .inr rfl
  | complete =>
    split
    · exact o.quiet (fun _ => rfl) fun _ => .inr rfl
    · exact o.quiet (fun _ => rfl) fun _ => .inr rfl
  | lose => exact absurd rfl linked
  | _ => exact o.quiet (fun _ => rfl) .inl

/-- A link that was lost is not made again by what the port does. -/
theorem Step.linked (step : Step p h q) (linked : q.phase ≠ .disabled) : p.phase ≠ .disabled := by
  cases step with
  | receiver | connection | idle => exact linked
  | pass _ ready => rcases ready with h | h <;> rw [h] <;> nofun
  | listen ready | offer ready | fail ready => rw [ready]; nofun
  | wait begun | shift _ _ begun | complete _ _ begun => rw [begun]; nofun
  | lose => exact absurd rfl linked

theorem Steps.linked (steps : Steps p h q) (linked : q.phase ≠ .disabled) : p.phase ≠ .disabled := by
  induction steps with
  | refl => exact linked
  | step step _ ih => exact step.linked (ih linked)

/-- The transfer as far as the link is not lost. -/
def Transferring (s : SerialPort) (h : List Event) (p : SerialPort) : Prop :=
  p.phase ≠ .disabled → Underway s h p ∧ Offering s h p

theorem Step.transferring (step : Step p h q) (t : Transferring s g p) : Transferring s (g ++ h) q := by
  intro linked
  obtain ⟨u, o⟩ := t (step.linked linked)
  exact ⟨step.underway linked u, step.offering linked u o⟩

/-! ### After a transfer -/

/-- No bit is begun and none will be. -/
structure Still (p : SerialPort) : Prop where
  phase : p.phase ≠ .exchanging
  clear : p.port.isTransferring = false

/-- Whatever the port does by itself, no bit is exchanged and none is begun. -/
theorem Step.still (step : Step p h q) (still : p.Still) : q.Still ∧ shifted h = [] ∧ offered h = [] := by
  obtain ⟨phase, clear⟩ := still
  cases step with
  | receiver move =>
    have same := congrArg (fun control => control &&& Registers.transferBit != 0) move.kept.control
    exact ⟨⟨phase, same.trans clear⟩, shifted_of_traffic move.traffic, offered_of_traffic move.traffic⟩
  | connection | idle => exact ⟨⟨phase, clear⟩, rfl, rfl⟩
  | pass cycles ready =>
    refine ⟨⟨?_, clear⟩, rfl, rfl⟩
    rw [phase_elapse ready]
    exact nofun
  | listen _ due | offer _ due | fail _ due => exact nomatch clear.symm.trans (isTransferring_of_isDue due)
  | wait begun | shift _ _ begun | complete _ _ begun => exact absurd begun phase
  | lose => exact ⟨⟨nofun, clear⟩, rfl, rfl⟩

theorem Steps.still (steps : Steps p h q) (still : p.Still) : q.Still ∧ shifted h = [] ∧ offered h = [] := by
  have keeps : ∀ g p h q, Step p h q → (p.Still ∧ shifted g = [] ∧ offered g = []) →
      q.Still ∧ shifted (g ++ h) = [] ∧ offered (g ++ h) = [] := by
    rintro g p h q step ⟨still, shifts, offers⟩
    obtain ⟨after, none, mute⟩ := step.still still
    rw [shifted_append, offered_append, shifts, offers]
    exact ⟨after, none, mute⟩
  exact steps.preserves keeps ⟨still, rfl, rfl⟩ (g := [])

/-- A port that does not transfer completes a byte only if the machine has set the transfer bit since. -/
theorem Still.rises {later : List Act} {last : Act} (still : p.Still) (sound : p.Sound)
    (can : p.canRun (later ++ [last]))
    (completed : ((p.run later).value.perform last).value.1 = .completed) :
    ∃ earlier write rest, later = earlier ++ write :: rest ∧ write.isAccess ∧
      (p.run earlier).value.port.isTransferring = false ∧
      (p.run (earlier ++ [write])).value.port.isTransferring = true := by
  induction later generalizing p with
  | nil =>
    have possible := (Bool.and_eq_true _ _ ▸ can).1
    cases access : last.isAccess with
    | true => cases (progress_perform access p).symm.trans completed
    | false =>
      have leads := leads_perform access possible sound
      have silent := (leads.steps.still still).2.1
      rw [shifted_deeds] at silent
      exact absurd silent (leads.completed.mp completed).1
  | cons act later ih =>
    obtain ⟨possible, can⟩ := Bool.and_eq_true _ _ ▸ can
    -- By itself the port goes on doing nothing, so it is an access that sets the transfer bit.
    have kept : (p.perform act).value.2.phase ≠ .exchanging ∧
        (act.isAccess = false → (p.perform act).value.2.Still) := by
      cases access : act.isAccess with
      | true => exact ⟨mt (accessed_perform access p).2.begun.mp still.phase, nofun⟩
      | false =>
        have after := ((leads_perform access possible sound).steps.still still).1
        exact ⟨after.phase, fun _ => after⟩
    cases set : (p.perform act).value.2.port.isTransferring with
    | true =>
      refine ⟨[], act, later, rfl, ?_, still.clear, set⟩
      cases access : act.isAccess with
      | true => rfl
      | false => cases (kept.2 access).clear.symm.trans set
    | false =>
      obtain ⟨earlier, write, rest, split, rises⟩ :=
        ih ⟨kept.1, set⟩ (sound_perform possible sound) can completed
      exact ⟨act :: earlier, write, rest, congrArg (act :: ·) split, rises⟩

end SerialPort

/-! ### Whole transfers -/

open SerialPort

/-- A transfer: a link, what was done with it before, and the byte with which the machine then sets the
transfer bit. -/
structure Transfer where
  link : Link
  before : List Act
  control : UInt8
  can : link.canRun (before ++ [.writeControl control])
  clear : (link.run before).value.port.isTransferring = false
  set : control &&& Registers.transferBit ≠ 0

namespace Transfer

/-- The port before the transfer. -/
def port (t : Transfer) : SerialPort := (t.link.run t.before).value

/-- The port with which the transfer begins. -/
def start (t : Transfer) : SerialPort := t.port.writeControl t.control

/-- What has become of a transfer that is completed: eight bits of the peer make up the data register, and
all the rest is as it was before the transfer, but for the interrupt. -/
structure Completed (t : Transfer) (h : List Event) (p : SerialPort) : Prop where
  taken : ∃ taken, taken.length = 8 ∧ t.port.queue.items ++ arrived h = taken ++ p.queue.items ∧
    p.port.data = Bits.byte (taken.map (·.bit))
  control : p.port.control = t.control &&& ~~~Registers.transferBit
  bits : p.transferredBits = 0
  cycles : p.cycleCount = 0
  phase : p.phase = .complete
  interrupts : interrupts h = if t.port.interruptBased && t.port.hasListener then 1 else 0

variable (t : Transfer)

theorem can_before : t.link.canRun t.before ∧ t.port.phase ≠ .exchanging := by
  have can := t.can
  rw [Link.canRun_append] at can
  obtain ⟨before, possible⟩ := Bool.and_eq_true _ _ ▸ can
  exact ⟨before, bne_iff_ne.mp (Bool.and_eq_true _ _ ▸ possible).1⟩

theorem start_eq : t.start = { t.port with
    port := { t.port.port with control := t.control }
    transferredBits := 0
    cycleCount := 0 } := by
  have clear : t.port.port.isTransferring = false := t.clear
  have set : Registers.isTransferring { t.port.port with control := t.control } = true :=
    bne_iff_ne.mpr t.set
  unfold start writeControl withRegisters
  simp only [clear, set, Bool.not_false, Bool.and_self, if_true]

theorem role_start : t.start.connection.role = t.port.connection.role := by
  rw [start_eq]

theorem data_start : t.start.port.data = t.port.port.data := by
  rw [start_eq]

theorem control_start : t.start.port.control = t.control := by
  rw [start_eq]

theorem sound_start : t.start.Sound :=
  (accessed_writeControl t.control t.port).sound (Link.sound_run t.can_before.1)

variable {t} {acts : List Act} {act : Act}

/-- As long as the machine leaves the port alone, the transfer goes on. -/
theorem transferring (passive : ∀ a ∈ acts, a.isAccess = false) (can : t.start.canRun acts) :
    Transferring t.start (deeds (t.start.run acts).trace) (t.start.run acts).value := by
  have begun : Transferring t.start [] t.start := by
    intro _
    refine ⟨.start ?_ ?_, .start⟩
    · rw [t.start_eq]
      exact t.can_before.2
    · rw [t.start_eq]
  exact (steps_run passive can t.sound_start).preserves (fun _ _ _ _ step => step.transferring) begun

/-- The bits that are shifted in meanwhile are those that were queued before or come. -/
theorem delivered (passive : ∀ a ∈ acts, a.isAccess = false) (can : t.start.canRun acts)
    (linked : (t.start.run acts).value.phase ≠ .disabled) :
    Delivered t.port.queue.items (deeds (t.start.run acts).trace) (t.start.run acts).value := by
  have steps := steps_run passive can t.sound_start
  have orderly := (t.sound_start.linked (steps.linked linked)).toOrderly
  have begun : Delivered t.port.queue.items [] t.start := by
    have start := Delivered.start orderly
    rw [t.start_eq] at start ⊢
    exact start
  exact steps.preserves (fun _ _ _ _ step => step.delivered) begun

/-- How it stands with a transfer before and after the last act of a run, if the link is not lost. -/
structure Last (t : Transfer) (acts : List Act) (act : Act) : Prop where
  leads : (t.start.run acts).value.Leads ((t.start.run acts).value.perform act)
  before : Underway t.start (deeds (t.start.run acts).trace) (t.start.run acts).value
  after : Underway t.start (deeds (t.start.run (acts ++ [act])).trace)
    (t.start.run (acts ++ [act])).value

theorem last (passive : ∀ a ∈ acts ++ [act], a.isAccess = false) (can : t.start.canRun (acts ++ [act]))
    (linked : (t.start.run (acts ++ [act])).value.phase ≠ .disabled) : t.Last acts act := by
  obtain ⟨canBefore, possible⟩ := canRun_concat.mp can
  have leads := leads_perform (passive_concat.mp passive).2 possible (sound_run canBefore t.sound_start)
  refine ⟨leads, ?_, (transferring passive can linked).1⟩
  rw [value_run_concat] at linked
  exact (transferring (passive_concat.mp passive).1 canBefore
    (leads.steps.linked linked)).1

/-- A link over which a byte was completed is there. -/
theorem complete_of_completes (passive : ∀ a ∈ acts ++ [act], a.isAccess = false)
    (can : t.start.canRun (acts ++ [act]))
    (completes : ((t.start.run acts).value.perform act).value.1 = .completed) :
    (t.start.run (acts ++ [act])).value.phase = .complete := by
  obtain ⟨canBefore, possible⟩ := canRun_concat.mp can
  have leads := leads_perform (passive_concat.mp passive).2 possible (sound_run canBefore t.sound_start)
  rw [value_run_concat]
  exact (leads.rest completes).1

/-- The byte is completed by the act that shifts the eighth bit in, and by no other. -/
theorem Last.completes_iff (last : t.Last acts act) :
    ((t.start.run acts).value.perform act).value.1 = .completed ↔
      (shifted (t.start.run acts).trace).length = 7 ∧
        (shifted (t.start.run (acts ++ [act])).trace).length = 8 := by
  obtain ⟨leads, before, after⟩ := last
  have few := before.few
  have bits := before.bits
  have single := leads.single
  rw [shifted_deeds] at few bits
  rw [leads.completed, trace_run_concat, shifted_append, List.length_append,
    ← List.length_pos_iff]
  omega

/-- What has become of the port when the byte is completed. -/
theorem Last.completed (last : t.Last acts act) (passive : ∀ a ∈ acts ++ [act], a.isAccess = false)
    (can : t.start.canRun (acts ++ [act]))
    (linked : (t.start.run (acts ++ [act])).value.phase ≠ .disabled)
    (completes : ((t.start.run acts).value.perform act).value.1 = .completed) :
    t.Completed (t.start.run (acts ++ [act])).trace (t.start.run (acts ++ [act])).value := by
  have eight := (last.completes_iff.mp completes).2
  obtain ⟨leads, _, after⟩ := last
  obtain ⟨taken, came, bits⟩ := (delivered passive can linked).taken
  have rest := leads.rest completes
  rw [← value_run_concat] at rest
  rw [shifted_deeds] at bits
  rw [arrived_deeds] at came
  have length : taken.length = 8 := by
    rw [bits, List.length_map] at eight
    exact eight
  have data := after.data
  have control := after.control
  have count := after.bits
  have interrupts := after.interrupts
  rw [shifted_deeds] at data control count interrupts
  rw [eight] at control count interrupts
  rw [interrupts_deeds] at interrupts
  rw [if_neg (by decide)] at control
  refine ⟨⟨taken, length, came, ?_⟩, ?_, count, rest.2, rest.1, ?_⟩
  · rw [← bits]
    exact data.eq_byte eight
  · rw [control, control_start]
  · rw [interrupts, t.start_eq]
    cases t.port.interruptBased && t.port.hasListener <;> rfl

/-- **One transfer is exactly eight bits**: as long as the machine leaves the port alone and the link is not
lost, the byte is completed by the act that shifts the eighth bit in, and by no other.  Then eight bits of
the peer make up the data register; each bit of the old byte has gone out once at most, if this side drives
the clock, and none otherwise.  No other byte is completed until the machine sets the transfer bit again. -/
theorem exact_eight (t : Transfer) (acts : List Act) (act : Act)
    (passive : ∀ a ∈ acts ++ [act], a.isAccess = false) (can : t.start.canRun (acts ++ [act]))
    (kept : (t.start.run (acts ++ [act])).value.isEnabled) :
    let h := (t.start.run (acts ++ [act])).trace
    let p := (t.start.run (acts ++ [act])).value
    let completes := ((t.start.run acts).value.perform act).value.1 = .completed
    (completes ↔ (shifted (t.start.run acts).trace).length = 7 ∧ (shifted h).length = 8) ∧
      (completes → t.Completed h p) ∧
      (∀ offer ∈ offers 0 h,
        IsOffer t.port.connection.role t.port.port.data t.control offer.1 offer.2) ∧
      (offers 0 h).Pairwise (fun a b => a.1 < b.1) ∧
      (t.control &&& Registers.internalClockBit = 0 → offers 0 h = []) ∧
      (completes → ∀ later last, p.canRun (later ++ [last]) →
        ((p.run later).value.perform last).value.1 = .completed →
          ∃ earlier write rest, later = earlier ++ write :: rest ∧ write.isAccess ∧
            (p.run earlier).value.port.isTransferring = false ∧
            (p.run (earlier ++ [write])).value.port.isTransferring = true) := by
  intro h p completes
  have linked : p.phase ≠ .disabled := isEnabled_iff.mp kept
  have last := t.last passive can linked
  have offering := (transferring passive can linked).2
  obtain ⟨all, _, ordered, driven⟩ := offering
  rw [offers_deeds] at all ordered driven
  rw [role_start, data_start, control_start] at all
  rw [control_start] at driven
  refine ⟨last.completes_iff, last.completed passive can linked, all, ordered, driven, ?_⟩
  intro done later next canLater again
  obtain ⟨_, control, _, _, phase, _⟩ := last.completed passive can linked done
  have still : p.Still := ⟨phase ▸ nofun, Registers.isTransferring_cleared control⟩
  exact still.rises (sound_run can t.sound_start) canLater again

/-- A byte that is sent to a peer which has been called. -/
def sending : Transfer where
  link := .called
  before := [.writeData 0x3c]
  control := 0x81
  can := by decide
  clear := by decide
  set := by decide

/-- The peer answers seven bits, and the port waits for the eighth one when it comes. -/
def answering : List Act :=
  let bit (b : UInt8) : List Act := [.tick 514, .arrive (.data [104, b, 0, 0, 0, 0, 0, 0])]
  ([1, 0, 1, 0, 0, 1, 0].flatMap fun b => bit b ++ [.resume]) ++ bit 1

theorem exact_eight_sending :
    ((sending.start.run answering).value.perform .resume).value.1 = .completed ∧
      sending.Completed (sending.start.run (answering ++ [.resume])).trace
        (sending.start.run (answering ++ [.resume])).value ∧
      (sending.start.run (answering ++ [.resume])).value.port.data = 0xa5 ∧
      ((offers 0 (sending.start.run (answering ++ [.resume])).trace).map fun offer => offer.2.b2) =
        [0, 0, 1, 1, 1, 1, 0, 0] := by
  have law := exact_eight sending answering .resume (by decide) (by decide) (by decide)
  have completes : ((sending.start.run answering).value.perform .resume).value.1 = .completed :=
    law.1.mpr (by decide)
  exact ⟨completes, law.2.1 completes, by decide, by decide⟩

end Transfer

end SerialLink
