import SerialLink.Proofs.History
import SerialLink.SerialPort.Registers
import SerialLink.Session

/-!
# Handling packets

What becomes of a packet that has come.  One that brings a bit goes into the queue
(`Session.queue_outcome`), and is answered with the next bit of this side unless a request of this side is
under way, which it ends (`Session.reply_outcome`, `Session.port_outcome`).  Any other packet leaves the
queue and the port alone, and no bit is sent back (`Protocol.handle_of_not_isSync`).
-/

namespace SerialLink

open Event

namespace Packet

theorem kind?_eq_some {p : Packet} {k : Kind} (h : p.kind? = some k) : p.kind = k.code := by
  have hk := List.find?_some h
  exact (beq_iff_eq.mp hk).symm

theorem isSync_of_kind? {p : Packet} {k : Kind} (h : p.kind? = some k) :
    p.isSync = (k == .sync1 || k == .sync2) := by
  rw [isSync, kind?_eq_some h]
  cases k <;> rfl

/-- A packet of no kind that the protocol has brings no bit. -/
theorem isSync_of_kind?_none {p : Packet} (h : p.kind? = none) : p.isSync = false := by
  have hk : ∀ k : Kind, (p.kind == k.code) = false := by
    intro k
    cases hc : p.kind == k.code with
    | false => rfl
    | true =>
      rw [kind?, beq_iff_eq.mp hc, Kind.ofCode?_code] at h
      cases h
  rw [isSync, hk, hk]
  rfl

/-- The packet with which a side sends a bit is recognized as such. -/
@[simp] theorem isSync_sync (role : Role) (bit control : UInt8) (timestamp : UInt32) :
    (sync role bit control timestamp).isSync = true := by
  cases role <;> rfl

end Packet

namespace Protocol

variable {σ : Type} [Responder σ] (packet : Packet) (clock : Clock) (p : Protocol) (queue : BitQueue)
  (port : σ)

theorem deeds_handle : deeds (p.handle packet clock queue port).trace = [] := by
  unfold handle
  split
  · unfold handleVersion
    simp only [Traced.trace_bind, Traced.trace_note]
    split
    · rfl
    split <;> rfl
  all_goals rfl

/-- A packet that brings a bit is answered as `syncReply` says, and the bit is queued. -/
theorem handle_of_isSync (h : packet.isSync) :
    p.handle packet clock queue port = return p.handleSync packet clock queue port := by
  unfold handle
  split
  case h_3 => rfl
  case h_4 => rfl
  case h_8 hk => rw [Packet.isSync_of_kind?_none hk] at h; cases h
  all_goals
    rename_i hk
    rw [Packet.isSync_of_kind? hk] at h
    cases h

/-- What is made of a packet that brings no bit: nothing is queued, no bit is sent back, and the port was
asked for the time at most. -/
theorem handle_of_not_isSync (h : packet.isSync = false) :
    (p.handle packet clock queue port).value.queue = queue ∧
      (∀ reply, (p.handle packet clock queue port).value.reply = some reply → reply.isSync = false) ∧
      ((p.handle packet clock queue port).value.port = port ∨
        (p.handle packet clock queue port).value.port = (Responder.timestamp clock port).2) := by
  have silent : ∀ reply, (none : Option Packet) = some reply → reply.isSync = false := nofun
  unfold handle
  split
  · unfold handleVersion
    simp only [Traced.value_bind]
    split
    · exact ⟨rfl, silent, .inl rfl⟩
    split
    · exact ⟨rfl, silent, .inl rfl⟩
    · refine ⟨rfl, ?_, .inr rfl⟩
      rintro reply ⟨⟩
      rfl
  case h_3 hk => rw [Packet.isSync_of_kind? hk] at h; cases h
  case h_4 hk => rw [Packet.isSync_of_kind? hk] at h; cases h
  case h_5 | h_6 =>
    refine ⟨rfl, ?_, .inr rfl⟩
    rintro reply ⟨⟩
    rfl
  all_goals exact ⟨rfl, silent, .inl rfl⟩

end Protocol

namespace Registers

theorem data_takeAnswer (r : Registers) : r.takeAnswer.2.data = r.data := by
  unfold takeAnswer
  split <;> rfl

theorem control_takeAnswer (r : Registers) : r.takeAnswer.2.control = r.control := by
  unfold takeAnswer
  split <;> rfl

theorem pending_takeAnswer (r : Registers) : r.takeAnswer.2.pending = r.pending := by
  unfold takeAnswer
  split <;> rfl

/-- A port with a request under way takes the bit of the peer for the answer to it; otherwise it answers
with its next bit. -/
theorem syncReply_eq (role : Role) (clock : Clock) (r : Registers) :
    Protocol.syncReply role clock r =
      if r.pending then (none, { r with pending := false })
      else (some (Packet.sync role r.takeAnswer.1 r.control (r.time clock)), r.takeAnswer.2) := by
  obtain ⟨data, control, answer, answered, pending, waiting⟩ := r
  cases pending
  · by_cases h : answered = 8
    · subst h
      rfl
    · simp [Protocol.syncReply, Protocol.bitReply, Responder.takeRequest, Responder.takeBit,
        Responder.control, Responder.timestamp, takeAnswer, time, h]
  · rfl

end Registers

namespace Session

variable (packet : Packet) (s : Session Registers)

theorem outcome_of_isSync (h : packet.isSync) :
    (s.outcome packet).value = s.protocol.handleSync packet (s.clock.hear packet.timestamp) s.queue
      s.port := by
  rw [outcome, Protocol.handle_of_isSync _ _ _ _ _ h]
  rfl

/-- A packet that brings a bit is answered exactly if no request is under way. -/
theorem reply_outcome (h : packet.isSync) :
    (s.outcome packet).value.reply =
      if s.port.pending then none
      else some (Packet.sync s.protocol.role s.port.takeAnswer.1 s.port.control
        (s.port.time (s.clock.hear packet.timestamp))) := by
  rw [outcome_of_isSync packet s h, Protocol.handleSync, Registers.syncReply_eq]
  cases s.port.pending <;> rfl

theorem port_outcome (h : packet.isSync) :
    (s.outcome packet).value.port =
      if s.port.pending then { s.port with pending := false } else s.port.takeAnswer.2 := by
  rw [outcome_of_isSync packet s h, Protocol.handleSync, Registers.syncReply_eq]
  cases s.port.pending <;> rfl

theorem port_outcome_of_not_isSync (h : packet.isSync = false) :
    (s.outcome packet).value.port = s.port := by
  obtain ⟨_, _, hp | hp⟩ := Protocol.handle_of_not_isSync packet (s.clock.hear packet.timestamp)
    s.protocol s.queue s.port h <;> exact hp

/-- The bit that a packet brings is put at the end of the queue. -/
theorem queue_outcome :
    (s.outcome packet).value.queue =
      if packet.isSync then s.queue.push (Protocol.itemOf packet) else s.queue := by
  cases h : packet.isSync with
  | true =>
    rw [outcome_of_isSync packet s h]
    rfl
  | false =>
    exact (Protocol.handle_of_not_isSync packet (s.clock.hear packet.timestamp) s.protocol s.queue
      s.port h).1

end Session

end SerialLink
