import SerialLink.Proofs.Loss

/-!
# The life of a port

From when the machine is switched on the port may be linked and unlinked again and again, and used
meanwhile, in any order: these are its operations (`SerialPort.Operation`), of which a life is a list
(`SerialPort.live`).  How plugging in ends is `SerialPort.plugIn_cases`.  What each operation keeps of a sound
port holds all its life (`SerialPort.live_keeps`): so there is always a link or none with all that belongs to
it (`SerialPort.sound_live`, `SerialPort.linked_live`).
-/

namespace SerialLink.SerialPort

open Event

/-! ### Plugging in -/

/-- The port into which a link is about to be plugged. -/
def prepared (config : Config) (hasListener : Bool) (host : Tcp.Host) (p : SerialPort) : SerialPort :=
  { p with
    hasListener
    interruptBased := config.interruptBased
    transferTimeout := config.transferTimeout
    lastError := none
    clock := .start
    connection := { p.connection with host } }

/-- The session on a connection that was just made, before its receiver is started. -/
def session (connection : Connection) (protocol : Protocol) (p : SerialPort) : Session Registers :=
  { p.toSession with connection, protocol, queue := .fresh }

/-- The port whose receiver was started on a connection. -/
def attached (connection : Connection) (protocol : Protocol) (p : SerialPort) : SerialPort :=
  { p.withSession (p.session connection protocol).start.value.2 with phase := .armed }

/-- How an attempt to plug a link in has left a port that was prepared for it: with a receiver on an
established connection, or without a link. -/
inductive Attempted (config : Config) (p q : SerialPort) : Prop
  | linked (connection : Connection) (protocol : Protocol) (established : connection.established)
      (value : q = p.attached connection protocol)
  | without (connection : Connection) (error : Option Failure)
      (cause : error = none ↔ config.peerAddress = [])
      (value : q = { p with connection, lastError := error })

theorem attempted_attach (config : Config) (named : config.peerAddress ≠ []) {made : Bool}
    {connection : Connection} (established : made → connection.established) (p : SerialPort) :
    Attempted config p (p.attach made connection).value.2 := by
  unfold attach
  split
  · next protocol _ => exact .linked connection protocol (established rfl) rfl
  · exact .without connection.destroy (some .connectionFailed) (by simp [named]) rfl

theorem attempted_connect (config : Config) (named : config.peerAddress ≠ []) (p : SerialPort) :
    Attempted config p (p.connect config).value.2 := by
  unfold connect
  split
  · exact .without p.connection (some .addressFormat) (by simp [named]) rfl
  · next address _ =>
    exact attempted_attach config named (made_dial config address p.connection).2 p

/-- A receiver is started only on a connection that was made. -/
theorem attached_of_enabled {made : Bool} {connection : Connection} {p : SerialPort} (off : p.phase = .disabled)
    (enabled : (p.attach made connection).value.2.phase ≠ .disabled) :
    ∃ protocol, (p.attach made connection).value.2 = p.attached connection protocol := by
  unfold attach at enabled ⊢
  split
  · next protocol _ => exact ⟨protocol, rfl⟩
  · next other =>
    exfalso
    split at enabled
    · next protocol started => exact other protocol rfl started
    · exact enabled off

theorem value_plugIn (config : Config) (hasListener : Bool) (host : Tcp.Host) (p : SerialPort) :
    (p.plugIn config hasListener host).value = (if config.peerAddress.isEmpty then p.prepared config hasListener host
      else ((p.prepared config hasListener host).connect config).value.2).reset := by
  unfold plugIn
  cases empty : config.peerAddress.isEmpty with
  | true => rfl
  | false =>
    simp only [Bool.false_eq_true, if_false]
    rw [Traced.value_bind]
    show Traced.value (if !((p.prepared config hasListener host).connect config).value.1 then _ else _) = _
    split <;> rfl

/-- However plugging in ends, the port is reset then. -/
theorem plugIn_cases (config : Config) (hasListener : Bool) (host : Tcp.Host) (p : SerialPort) :
    ∃ q, Attempted config (p.prepared config hasListener host) q ∧
      (p.plugIn config hasListener host).value = q.reset := by
  refine ⟨_, ?_, value_plugIn config hasListener host p⟩
  split
  · next empty => exact .without _ none (by simp [List.isEmpty_iff.mp empty]) rfl
  · next named => exact attempted_connect config (mt List.isEmpty_iff.mpr named) _

/-! ### Operations -/

/-- What is done with a port in the course of its life. -/
inductive Operation
  | act (act : Act)
  | unplug
  | plug (config : Config) (hasListener : Bool) (host : Tcp.Host)

/-- Whether an operation can be done with a port as it stands; nothing is plugged in or unplugged while a
tick waits. -/
def Operation.isPossible (p : SerialPort) : Operation → Bool
  | .act a => a.isPossible p
  | .unplug | .plug .. => p.phase != .exchanging

/-- Does an operation. -/
def operate : Operation → SerialPort → Traced (Progress × SerialPort)
  | .act act, p => p.perform act
  | .unplug, p => do return (.idle, ← p.unplug)
  | .plug config hasListener host, p => do return (.idle, ← p.plug config hasListener host)

/-- Does one operation after the other. -/
def live : List Operation → SerialPort → Traced SerialPort
  | [], p => return p
  | op :: ops, p => do
    let (_, p) ← p.operate op
    p.live ops

/-- Whether every operation is possible when its turn comes. -/
def canLive : List Operation → SerialPort → Bool
  | [], _ => true
  | op :: ops, p => op.isPossible p && canLive ops (p.operate op).value.2

variable {p q : SerialPort} {op : Operation} {ops : List Operation}

/-! ### Soundness -/

theorem sound_new : new.Sound := ⟨fun linked => absurd rfl linked, fun _ => ⟨rfl, rfl⟩⟩

/-- A receiver that was never started, or was stopped, does not run. -/
theorem Sound.stopped (sound : p.Sound) (unstarted : p.receiver.started = false) :
    p.receiver.running = false := by
  by_cases unlinked : p.phase = .disabled
  · exact (sound.unlinked unlinked).1
  · cases working : p.receiver.running with
    | false => rfl
    | true =>
      rw [(sound.linked unlinked).started working] at unstarted
      cases unstarted

/-- Once the link is given up the receiver does not run. -/
theorem Sound.running_unplug (sound : p.Sound) : p.unplug.value.receiver.running = false := by
  show p.toSession.stop.value.receiver.running = false
  rw [Session.stop_eq]
  split
  · exact Session.running_close p.toSession
  · next unstarted => exact sound.stopped ((Bool.not_eq_true _).mp unstarted)

theorem Sound.unplug (sound : p.Sound) : p.unplug.value.Sound :=
  ⟨fun linked => absurd rfl linked, fun _ => ⟨sound.running_unplug, rfl⟩⟩

theorem Sound.plug (sound : p.Sound) (config : Config) (hasListener : Bool) (host : Tcp.Host) :
    (p.plug config hasListener host).value.Sound := by
  by_cases enabled : (p.plug config hasListener host).value.isEnabled
  · exact Link.sound_made (l := ⟨p, config, hasListener, host⟩) enabled
  · obtain ⟨q, attempted, value⟩ := plugIn_cases config hasListener host p.unplug.value
    have value : (p.plug config hasListener host).value = q.reset := value
    rw [value] at enabled ⊢
    cases attempted with
    | linked connection protocol _ same =>
      rw [same] at enabled
      exact absurd rfl enabled
    | without connection error _ same =>
      rw [same]
      exact (accessed_reset _).sound ⟨fun linked => absurd rfl linked, fun _ => ⟨sound.running_unplug, rfl⟩⟩

theorem Sound.operate (sound : p.Sound) (possible : op.isPossible p) :
    (p.operate op).value.2.Sound := by
  cases op with
  | act act => exact sound_perform possible sound
  | unplug => exact sound.unplug
  | plug config hasListener host => exact sound.plug config hasListener host

/-- What every operation keeps of a sound port, the port keeps all its life, and it is always sound. -/
theorem live_keeps {P : SerialPort → Prop}
    (one : ∀ p op, op.isPossible p → p.Sound → P p → P (p.operate op).value.2)
    (can : p.canLive ops) (sound : p.Sound) (start : P p) :
    (p.live ops).value.Sound ∧ P (p.live ops).value := by
  induction ops generalizing p with
  | nil => exact ⟨sound, start⟩
  | cons op rest ih =>
    obtain ⟨possible, can⟩ := Bool.and_eq_true _ _ ▸ can
    exact ih can (sound.operate possible) (one p op possible sound start)

theorem sound_live (can : new.canLive ops) : (new.live ops).value.Sound :=
  (live_keeps (P := fun _ => True) (fun _ _ _ _ _ => trivial) can sound_new trivial).1

/-! ### Whether there is a link -/

/-- What every step keeps of a port, all of them keep. -/
theorem Steps.keeps {P : SerialPort → Prop} {h : List Event} (step : ∀ p h q, Step p h q → P p → P q)
    (steps : Steps p h q) (start : P p) : P q :=
  @Steps.preserves (fun _ p => P p) (fun _ p h q one => step p h q one) [] h p q steps start

/-- Nothing that is done with a port but plugging in makes a link. -/
theorem unlinked_perform {act : Act} (sound : p.Sound) (possible : act.isPossible p)
    (unlinked : p.phase = .disabled) : (p.perform act).value.2.phase = .disabled := by
  cases access : act.isAccess with
  | true => exact (accessed_perform access p).2.unlinked.mpr unlinked
  | false =>
    refine (leads_perform access possible sound).steps.keeps (P := fun q => q.phase = .disabled) ?_ unlinked
    intro q _ r step unlinked
    cases step with
    | receiver | connection | idle => exact unlinked
    | pass cycles ready => rcases ready with h | h <;> cases unlinked.symm.trans h
    | listen ready | offer ready | fail ready => cases unlinked.symm.trans ready
    | wait begun => exact unlinked
    | shift item rest begun | complete item rest begun => cases unlinked.symm.trans begun
    | lose => rfl

/-- If there is a link, no failure is noted, and a receiver that has ended has told why. -/
theorem linked_operate (possible : op.isPossible p) (sound : p.Sound)
    (linked : p.isEnabled → p.Linked) (enabled : (p.operate op).value.2.isEnabled) :
    (p.operate op).value.2.Linked := by
  cases op with
  | act act =>
    by_cases before : p.isEnabled
    · rcases (linked before).perform sound possible with ⟨_, after⟩ | ⟨_, off⟩
      · exact after
      · exact absurd off.phase (isEnabled_iff.mp enabled)
    · have unlinked : p.phase = .disabled := by
        rw [isEnabled_iff, ne_eq, Decidable.not_not] at before
        exact before
      exact absurd (unlinked_perform sound possible unlinked) (isEnabled_iff.mp enabled)
  | unplug => exact absurd rfl (isEnabled_iff.mp enabled)
  | plug config hasListener host => exact linked_plugIn (unplugged_unplug p) enabled

theorem linked_live (can : new.canLive ops) (enabled : (new.live ops).value.isEnabled) :
    (new.live ops).value.Linked :=
  (live_keeps (fun _ _ => linked_operate) can sound_new fun enabled => absurd rfl
    (isEnabled_iff.mp enabled)).2 enabled

end SerialLink.SerialPort
