import SerialLink.Proofs.Link
import SerialLink.SerialPort.Snapshot

/-!
# Runs of a port

What the machine, the peer and the operating system do with a port are its acts.  A port runs through a
list of them (`SerialPort.run`) if each is possible when its turn comes (`SerialPort.canRun`): a port that
waits for a bit of the peer keeps the machine waiting as well.  What every step of the port and every
access to its registers keeps, is kept by all runs (`SerialPort.run_preserves`).
-/

namespace SerialLink.SerialPort

open Event

/-- What is done with a port.  That the machine reads a register or saves the state is left out: it changes
nothing. -/
inductive Act
  | tick (cycles : UInt32)
  /-- The port that waits looks for the bit again. -/
  | resume
  /-- The port that waits gives up, and nobody comes in between; `Schedule.Step` takes that apart. -/
  | timeOut
  | arrive (segment : Tcp.Segment)
  /-- The operating system will answer otherwise from now on. -/
  | turn (host : Tcp.Host)
  | writeData (byte : UInt8)
  | writeControl (byte : UInt8)
  | write (address : UInt16) (byte : UInt8)
  | reset
  | load (bytes : Bytes)
  | loadTree (tree : Tree)

namespace Act

/-- Whether the machine accesses the state of the port with an act. -/
def isAccess : Act → Bool
  | writeData _ | writeControl _ | write .. | reset | load _ | loadTree _ => true
  | _ => false

/-- Whether the machine lets cycles pass. -/
def isTick : Act → Bool
  | tick _ => true
  | _ => false

/-- Whether the machine resets the port with an act. -/
def isReset : Act → Bool
  | reset => true
  | _ => false

/-- Whether an act can be done with a port as it stands.  While the port waits for a bit the machine can
do nothing; the port gives up only if it is set to, and if no bit is there. -/
def isPossible (p : SerialPort) : Act → Bool
  | arrive _ | turn _ => true
  | resume => p.phase == .exchanging
  | timeOut => p.phase == .exchanging && p.transferTimeout != 0 && p.queue.entries.isEmpty
  | _ => p.phase != .exchanging

end Act

/-- Does an act.  Only a tick, or what is left of one, makes progress. -/
def perform (act : Act) (p : SerialPort) : Traced (Progress × SerialPort) :=
  match act with
  | .tick cycles => p.tick cycles
  | .resume => p.resume
  | .timeOut => do return (.idle, ← p.timeOut)
  | .arrive segment => do return (.idle, ← p.arrive segment)
  | .turn host => return (.idle, { p with connection := { p.connection with host } })
  | .writeData byte => return (.idle, p.writeData byte)
  | .writeControl byte => return (.idle, p.writeControl byte)
  | .write address byte => return (.idle, p.write address byte)
  | .reset => return (.idle, p.reset)
  | .load bytes => return (.idle, (p.load bytes).2)
  | .loadTree tree => return (.idle, (p.loadTree tree).2)

/-- Does one act after the other. -/
def run : List Act → SerialPort → Traced SerialPort
  | [], p => return p
  | act :: acts, p => do
    let (_, p) ← p.perform act
    p.run acts

/-- Whether every act is possible when its turn comes. -/
def canRun : List Act → SerialPort → Bool
  | [], _ => true
  | act :: acts, p => act.isPossible p && canRun acts (p.perform act).value.2

theorem value_run_append (a b : List Act) (p : SerialPort) :
    (p.run (a ++ b)).value = ((p.run a).value.run b).value := by
  induction a generalizing p with
  | nil => rfl
  | cons act rest ih => exact ih _

theorem trace_run_append (a b : List Act) (p : SerialPort) :
    (p.run (a ++ b)).trace = (p.run a).trace ++ ((p.run a).value.run b).trace := by
  induction a generalizing p with
  | nil => rfl
  | cons act rest ih =>
    rw [List.cons_append, run, run, Traced.trace_bind, Traced.trace_bind, List.append_assoc]
    exact congrArg _ (ih _)

theorem value_run_concat (acts : List Act) (act : Act) (p : SerialPort) :
    (p.run (acts ++ [act])).value = ((p.run acts).value.perform act).value.2 :=
  value_run_append acts [act] p

theorem trace_run_concat (acts : List Act) (act : Act) (p : SerialPort) :
    (p.run (acts ++ [act])).trace = (p.run acts).trace ++ ((p.run acts).value.perform act).trace := by
  rw [trace_run_append]
  exact congrArg _ (List.append_nil _)

theorem canRun_append (a b : List Act) (p : SerialPort) :
    p.canRun (a ++ b) = (p.canRun a && (p.run a).value.canRun b) := by
  induction a generalizing p with
  | nil => rfl
  | cons act rest ih =>
    rw [List.cons_append, canRun, canRun, ih, Bool.and_assoc]
    rfl

/-! ### Single acts -/

/-- What the machine leaves alone when it accesses the state. -/
structure Accessed (p q : SerialPort) : Prop where
  connection : q.connection = p.connection
  queue : q.queue = p.queue
  receiver : q.receiver = p.receiver
  unlinked : q.phase = .disabled ↔ p.phase = .disabled
  begun : q.phase = .exchanging ↔ p.phase = .exchanging

theorem accessed_writeData (byte : UInt8) (p : SerialPort) : p.Accessed (p.writeData byte) := by
  unfold writeData
  split <;> exact ⟨rfl, rfl, rfl, .rfl, .rfl⟩

theorem accessed_writeControl (byte : UInt8) (p : SerialPort) :
    p.Accessed (p.writeControl byte) := by
  unfold writeControl
  dsimp only
  split <;> exact ⟨rfl, rfl, rfl, .rfl, .rfl⟩

theorem accessed_reset (p : SerialPort) : p.Accessed p.reset := by
  -- A port that has just finished a byte is armed again; that is all that happens to the phase.
  have phase : p.reset.phase = if p.phase = .complete then .armed else p.phase := rfl
  refine ⟨rfl, rfl, rfl, ?_, ?_⟩
  all_goals
    rw [phase]
    split
    · next h => rw [h]; exact ⟨nofun, nofun⟩
    · exact .rfl

theorem accessed_perform {act : Act} (access : act.isAccess) (p : SerialPort) :
    (p.perform act).trace = [] ∧ p.Accessed (p.perform act).value.2 := by
  cases act with
  | writeData byte => exact ⟨rfl, accessed_writeData byte p⟩
  | writeControl byte => exact ⟨rfl, accessed_writeControl byte p⟩
  | write address byte =>
    refine ⟨rfl, ?_⟩
    show p.Accessed (p.write address byte)
    unfold write
    split
    · exact accessed_writeData byte p
    split
    · exact accessed_writeControl byte p
    · exact ⟨rfl, rfl, rfl, .rfl, .rfl⟩
  | reset => exact ⟨rfl, accessed_reset p⟩
  | load => exact ⟨rfl, rfl, rfl, rfl, .rfl, .rfl⟩
  | loadTree tree =>
    refine ⟨rfl, ?_⟩
    show p.Accessed (p.loadTree tree).2
    unfold loadTree
    dsimp only
    split <;> exact ⟨rfl, rfl, rfl, .rfl, .rfl⟩
  | _ => cases access

theorem progress_perform {act : Act} (access : act.isAccess) (p : SerialPort) :
    (p.perform act).value.1 = .idle := by
  cases act with
  | writeData | writeControl | write | reset | load | loadTree => rfl
  | _ => cases access

/-- What the machine writes to the registers changes nothing of what is under way with the peer. -/
theorem flags_writeData (byte : UInt8) (p : SerialPort) :
    (p.writeData byte).port.waiting = p.port.waiting ∧ (p.writeData byte).port.pending = p.port.pending := by
  unfold writeData
  split <;> exact ⟨rfl, rfl⟩

theorem flags_writeControl (byte : UInt8) (p : SerialPort) :
    (p.writeControl byte).port.waiting = p.port.waiting ∧
      (p.writeControl byte).port.pending = p.port.pending := by
  unfold writeControl
  dsimp only
  split <;> exact ⟨rfl, rfl⟩

/-- The machine leaves the waiting alone, and only a reset makes the port forget that it has sent a bit. -/
theorem flags_perform {act : Act} (access : act.isAccess) (p : SerialPort) :
    (p.perform act).value.2.port.waiting = p.port.waiting ∧
      (act.isReset = false → (p.perform act).value.2.port.pending = p.port.pending) := by
  cases act with
  | writeData byte => exact (flags_writeData byte p).imp id fun same _ => same
  | writeControl byte => exact (flags_writeControl byte p).imp id fun same _ => same
  | write address byte =>
    show (p.write address byte).port.waiting = _ ∧ (_ → (p.write address byte).port.pending = _)
    unfold write
    split
    · exact (flags_writeData byte p).imp id fun same _ => same
    split
    · exact (flags_writeControl byte p).imp id fun same _ => same
    · exact ⟨rfl, fun _ => rfl⟩
  | reset => exact ⟨rfl, nofun⟩
  | load => exact ⟨rfl, fun _ => rfl⟩
  | loadTree tree =>
    show (p.loadTree tree).2.port.waiting = _ ∧ (_ → (p.loadTree tree).2.port.pending = _)
    unfold loadTree
    dsimp only
    split <;> exact ⟨rfl, fun _ => rfl⟩
  | _ => cases access

theorem pending_perform {act : Act} (access : act.isAccess) (noReset : act.isReset = false)
    (p : SerialPort) : (p.perform act).value.2.port.pending = p.port.pending :=
  (flags_perform access p).2 noReset

theorem settings_writeData (byte : UInt8) (p : SerialPort) :
    (p.writeData byte).lastError = p.lastError ∧
      (p.writeData byte).transferTimeout = p.transferTimeout := by
  unfold writeData
  split <;> exact ⟨rfl, rfl⟩

theorem settings_writeControl (byte : UInt8) (p : SerialPort) :
    (p.writeControl byte).lastError = p.lastError ∧
      (p.writeControl byte).transferTimeout = p.transferTimeout := by
  unfold writeControl
  dsimp only
  split <;> exact ⟨rfl, rfl⟩

/-- The machine touches neither the failure that the port has noted nor how long it waits. -/
theorem settings_perform {act : Act} (access : act.isAccess) (p : SerialPort) :
    (p.perform act).value.2.lastError = p.lastError ∧
      (p.perform act).value.2.transferTimeout = p.transferTimeout := by
  cases act with
  | writeData byte => exact settings_writeData byte p
  | writeControl byte => exact settings_writeControl byte p
  | write address byte =>
    show (p.write address byte).lastError = p.lastError ∧
      (p.write address byte).transferTimeout = p.transferTimeout
    unfold write
    split
    · exact settings_writeData byte p
    split
    · exact settings_writeControl byte p
    · exact ⟨rfl, rfl⟩
  | reset | load => exact ⟨rfl, rfl⟩
  | loadTree tree =>
    show (p.loadTree tree).2.lastError = p.lastError ∧
      (p.loadTree tree).2.transferTimeout = p.transferTimeout
    unfold loadTree
    dsimp only
    split <;> exact ⟨rfl, rfl⟩
  | _ => cases access

theorem Accessed.sound {p q : SerialPort} (accessed : p.Accessed q) (sound : p.Sound) : q.Sound := by
  obtain ⟨connection, queue, receiver, unlinked, _⟩ := accessed
  refine ⟨fun h => ?_, fun h => ?_⟩
  · exact (sound.linked (mt unlinked.mpr h)).of_eq queue receiver connection
  · rw [receiver, queue]
    exact sound.unlinked (unlinked.mp h)

/-- Whatever is done with a port except that the machine accesses its state, comes about in steps. -/
theorem leads_perform {act : Act} {p : SerialPort} (passive : act.isAccess = false)
    (possible : act.isPossible p) (sound : p.Sound) : p.Leads (p.perform act) := by
  cases act with
  | tick cycles => exact leads_tick sound cycles
  | resume => exact leads_resume sound
  | timeOut =>
    have empty := (Bool.and_eq_true _ _ ▸ possible).2
    exact leads_timeOut sound empty
  | arrive segment => exact leads_arrive sound segment
  | turn host =>
    refine .quiet (.one (.connection p _ rfl id)) ⟨fun linked => ?_, sound.unlinked⟩ rfl nofun
    obtain ⟨⟨ordered, closed⟩, established, started, atRest⟩ := sound.linked linked
    exact ⟨⟨ordered, closed⟩, established, started, atRest⟩
  | _ => cases passive

/-! ### Whole runs -/

theorem canRun_concat {acts : List Act} {act : Act} {p : SerialPort} :
    p.canRun (acts ++ [act]) ↔ p.canRun acts ∧ act.isPossible (p.run acts).value := by
  rw [canRun_append, Bool.and_eq_true, canRun, canRun, Bool.and_true]

theorem passive_concat {acts : List Act} {act : Act} :
    (∀ a ∈ acts ++ [act], a.isAccess = false) ↔
      (∀ a ∈ acts, a.isAccess = false) ∧ act.isAccess = false := by
  rw [List.forall_mem_append, List.forall_mem_singleton]

theorem sound_perform {act : Act} {p : SerialPort} (possible : act.isPossible p) (sound : p.Sound) :
    (p.perform act).value.2.Sound := by
  cases access : act.isAccess with
  | true => exact (accessed_perform access p).2.sound sound
  | false => exact (leads_perform access possible sound).sound

theorem sound_run {acts : List Act} {p : SerialPort} (can : p.canRun acts) (sound : p.Sound) :
    (p.run acts).value.Sound := by
  induction acts generalizing p with
  | nil => exact sound
  | cons act rest ih =>
    obtain ⟨possible, can⟩ := Bool.and_eq_true _ _ ▸ can
    exact ih can (sound_perform possible sound)

/-- A run in which the machine does not access the state comes about in steps. -/
theorem steps_run {acts : List Act} {p : SerialPort} (passive : ∀ act ∈ acts, act.isAccess = false)
    (can : p.canRun acts) (sound : p.Sound) : Steps p (deeds (p.run acts).trace) (p.run acts).value := by
  induction acts generalizing p with
  | nil => exact .refl p
  | cons act rest ih =>
    obtain ⟨possible, can⟩ := Bool.and_eq_true _ _ ▸ can
    have leads := leads_perform (passive act (List.mem_cons_self ..)) possible sound
    have more := ih (fun a mem => passive a (List.mem_cons_of_mem act mem)) can leads.sound
    rw [run, Traced.trace_bind, deeds_append]
    exact leads.steps.trans more

/-- What every step and every access keeps is kept by every run. -/
theorem run_preserves {Inv : List Event → SerialPort → Prop} {allowed : Act → Prop}
    (step : ∀ g p h q, Step p h q → Inv g p → Inv (g ++ h) q)
    (access : ∀ g p act, act.isAccess → act.isPossible p → allowed act → Inv g p →
      Inv g (p.perform act).value.2)
    {acts : List Act} {p : SerialPort} {g : List Event} (all : ∀ act ∈ acts, allowed act)
    (can : p.canRun acts) (sound : p.Sound) (start : Inv g p) :
    Inv (g ++ deeds (p.run acts).trace) (p.run acts).value := by
  induction acts generalizing p g with
  | nil =>
    rw [show deeds (p.run []).trace = [] from rfl, List.append_nil]
    exact start
  | cons act rest ih =>
    obtain ⟨possible, can⟩ := Bool.and_eq_true _ _ ▸ can
    -- An access leaves no trace; whatever else is done comes about in steps.
    have next : Inv (g ++ deeds (p.perform act).trace) (p.perform act).value.2 := by
      cases ha : act.isAccess with
      | true =>
        rw [(accessed_perform ha p).1, deeds_nil, List.append_nil]
        exact access g p act ha possible (all act (List.mem_cons_self ..)) start
      | false => exact (leads_perform ha possible sound).steps.preserves step start
    have more := ih (fun a ha => all a (List.mem_cons_of_mem act ha)) can
      (sound_perform possible sound) next
    rw [List.append_assoc] at more
    rw [run, Traced.trace_bind, deeds_append]
    exact more

end SerialLink.SerialPort
