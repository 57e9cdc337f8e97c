import SerialLink.Proofs.Plug
import SerialLink.Proofs.Turns

/-!
# Receivers at ports that are alike

What a receiver does hardly depends on the registers of its port.  If two ports differ in nothing but the control
register and the byte that is under way to the peer (`Registers.Alike`), then two receivers that start alike stay
so (`Session.Alike.pump`, `Session.Alike.start`), and their histories are `Event.Resembles`: only the bits of this
side and its control register, in the answers to bits of the peer, may differ.
-/

namespace SerialLink

open Event

/-! ### What may differ in a history -/

/-- A packet without what it tells of the registers of the side that sends it, if it brings a bit. -/
def Packet.bare (packet : Packet) : Packet :=
  if packet.isSync then { packet with b2 := 0, b3 := 0 } else packet

theorem Packet.bare_sync (role : Role) (bit control : UInt8) (timestamp : UInt32) :
    (Packet.sync role bit control timestamp).bare = Packet.sync role 0 0 timestamp := by
  rw [bare, isSync_sync, if_pos rfl]
  rfl

namespace Event

/-- An event without what the packets of this side tell of its registers. -/
def bare : Event → Event
  | .sent packet => .sent packet.bare
  | .refused packet => .refused packet.bare
  | .handled packet reply => .handled packet (reply.map Packet.bare)
  | event => event

/-- Two histories are the same but for what the packets of this side tell of its registers; and if no bit has come
from the peer they are the same altogether. -/
structure Resembles (h k : List Event) : Prop where
  bare : k.map Event.bare = h.map Event.bare
  same : (∀ packet ∈ heard h, packet.isSync = false) → k = h

variable {h k h' k' : List Event}

/-- Answers that are sent or refused alike, and are the same but for the registers, show so in a history. -/
theorem bare_answer (answered : Bool) {a b : Option Packet}
    (same : b.map Packet.bare = a.map Packet.bare) :
    (b.toList.map fun reply => if answered then sent reply else refused reply).map Event.bare =
      (a.toList.map fun reply => if answered then sent reply else refused reply).map Event.bare := by
  cases a with
  | none =>
    rw [Option.map_none, Option.map_eq_none_iff] at same
    rw [same]
  | some first =>
    obtain ⟨second, rfl, bare⟩ := Option.map_eq_some_iff.mp same
    cases answered <;> simp [Event.bare, bare]

theorem Resembles.refl (h : List Event) : Resembles h h := ⟨rfl, fun _ => rfl⟩

theorem Resembles.append (first : Resembles h k) (second : Resembles h' k') : Resembles (h ++ h') (k ++ k') := by
  constructor
  · rw [List.map_append, List.map_append, first.bare, second.bare]
  · intro none
    rw [heard_append] at none
    rw [first.same fun packet mem => none packet (List.mem_append_left _ mem),
      second.same fun packet mem => none packet (List.mem_append_right _ mem)]

end Event

/-! ### Registers -/

namespace Registers

/-- The registers are the same but for the control register and the byte that is under way to the peer. -/
structure Alike (r t : Registers) : Prop where
  data : t.data = r.data
  pending : t.pending = r.pending
  waiting : t.waiting = r.waiting

variable {r t : Registers}

theorem waiting_takeAnswer (r : Registers) : r.takeAnswer.2.waiting = r.waiting := by
  unfold takeAnswer
  split <;> rfl

theorem Alike.time (alike : r.Alike t) (clock : Clock) : t.time clock = r.time clock := by
  unfold Registers.time
  rw [alike.waiting]

theorem Alike.takeAnswer (alike : r.Alike t) : r.takeAnswer.2.Alike t.takeAnswer.2 := by
  constructor
  · rw [data_takeAnswer, data_takeAnswer, alike.data]
  · rw [pending_takeAnswer, pending_takeAnswer, alike.pending]
  · rw [waiting_takeAnswer, waiting_takeAnswer, alike.waiting]

end Registers

/-! ### Handling a packet -/

namespace Protocol

/-- What packets lead to at ports that are alike. -/
structure Outcome.Alike (isBit : Bool) (x y : Outcome Registers) : Prop where
  protocol : y.protocol = x.protocol
  queue : y.queue = x.queue
  failure : y.failure = x.failure
  port : x.port.Alike y.port
  bare : y.reply.map Packet.bare = x.reply.map Packet.bare
  same : isBit = false → y.reply = x.reply

variable (packet : Packet) (clock : Clock) (p : Protocol) (queue : BitQueue) {r t : Registers}

/-- Of a port that brings no bit nothing is asked but the time. -/
theorem handle_of_time (none : packet.isSync = false) (time : t.time clock = r.time clock) :
    (p.handle packet clock queue t).value =
      { (p.handle packet clock queue r).value with port := t } := by
  have told : ∀ u : Registers, statusReply clock u = (Packet.status Packet.running (u.time clock), u) :=
    fun _ => rfl
  unfold handle
  split
  · unfold handleVersion
    simp only [Traced.value_bind, told, time]
    split
    · rfl
    split <;> rfl
  · rfl
  · next kind => rw [Packet.isSync_of_kind? kind] at none; cases none
  · next kind => rw [Packet.isSync_of_kind? kind] at none; cases none
  · show (handleEcho packet clock p queue t) = { handleEcho packet clock p queue r with port := t }
    have asked : ∀ u : Registers, Responder.timestamp clock u = (u.time clock, u) := fun _ => rfl
    simp only [handleEcho, asked, time]
  · simp only [handleStatus, Traced.value_bind, told, time]
    rfl
  · rfl
  · rfl

end Protocol

/-! ### Sending an answer -/

namespace Connection

/-- Whether a packet goes out, and what becomes of the connection, does not depend on what is in it. -/
theorem value_send (a b : Packet) (c : Connection) : (c.send a).value = (c.send b).value := by
  unfold send
  split
  · rfl
  · show (_, _) = (_, _)
    rfl

theorem value_answer {a b : Option Packet} (same : b.isSome = a.isSome) (c : Connection) :
    (c.answer b).value = (c.answer a).value := by
  cases a with
  | none =>
    cases b with
    | none => rfl
    | some => cases same
  | some first =>
    cases b with
    | none => cases same
    | some second => exact value_send second first c

end Connection

namespace Session

/-- The sessions are the same but for what may differ in the registers of the port. -/
inductive Alike : Session Registers → Session Registers → Prop
  | intro (s : Session Registers) {t : Registers} (port : s.port.Alike t) : Alike s { s with port := t }

variable {s t : Session Registers}

theorem Alike.running (alike : s.Alike t) : t.receiver.running = s.receiver.running := by
  cases alike
  rfl

theorem Alike.outcome (alike : s.Alike t) (packet : Packet) :
    Protocol.Outcome.Alike packet.isSync (s.outcome packet).value (t.outcome packet).value := by
  cases alike with
  | @intro r port =>
  have time := port.time (s.clock.hear packet.timestamp)
  cases bit : packet.isSync with
  | false =>
    have same : (outcome packet { s with port := r }).value =
        { (s.outcome packet).value with port := r } :=
      Protocol.handle_of_time packet _ s.protocol s.queue bit time
    have kept := port_outcome_of_not_isSync packet s bit
    rw [same]
    exact ⟨rfl, rfl, rfl, kept ▸ port, rfl, fun _ => rfl⟩
  | true =>
    rw [outcome_of_isSync packet s bit, outcome_of_isSync packet { s with port := r } bit]
    simp only [Protocol.handleSync, Registers.syncReply_eq, port.pending, time]
    -- A side that has a request under way sends no bit, and else one that may differ.
    cases s.port.pending with
    | true =>
      exact ⟨rfl, rfl, rfl, ⟨port.data, rfl, port.waiting⟩, rfl, fun none => absurd none (by decide)⟩
    | false =>
      refine ⟨rfl, rfl, rfl, port.takeAnswer, ?_, fun none => absurd none (by decide)⟩
      simp only [Bool.false_eq_true, if_false, Option.map_some, Packet.bare_sync]

theorem Alike.finish (alike : s.Alike t) (reason : Failure) :
    (s.finish reason).value.Alike (t.finish reason).value := by
  obtain ⟨port⟩ := alike
  exact .intro (s.finish reason).value port

theorem Alike.proceed (alike : s.Alike t) (answered : Bool) (failure : Option Failure) :
    (s.proceed answered failure).value.Alike (t.proceed answered failure).value := by
  unfold Session.proceed
  split
  · exact alike.finish _
  split
  · exact alike.finish _
  · exact alike

/-- What handling a packet and answering it makes of a session. -/
theorem value_answering (packet : Packet) (s : Session Registers) :
    (s.answering packet).value = ((s.connection.answer (s.outcome packet).value.reply).value.1, { s with
      connection := (s.connection.answer (s.outcome packet).value.reply).value.2
      protocol := (s.outcome packet).value.protocol
      clock := s.clock.hear packet.timestamp
      queue := (s.outcome packet).value.queue
      receiver := { s.receiver with packetCount := s.receiver.packetCount + 1 }
      port := (s.outcome packet).value.port }) := rfl

theorem Alike.answering (alike : s.Alike t) (packet : Packet) :
    (t.answering packet).value.1 = (s.answering packet).value.1 ∧
      (s.answering packet).value.2.Alike (t.answering packet).value.2 := by
  obtain ⟨protocol, queue, _, port, bare, _⟩ := alike.outcome packet
  have answers : (t.outcome packet).value.reply.isSome = (s.outcome packet).value.reply.isSome := by
    rw [← Option.isSome_map (f := Packet.bare), bare, Option.isSome_map]
  have sent := Connection.value_answer answers s.connection
  rw [value_answering, value_answering, protocol, queue]
  cases alike with
  | @intro r _ =>
    dsimp only
    rw [sent]
    exact ⟨rfl, .intro _ port⟩

/-- Receivers go on alike, with similar histories. -/
def Likewise (x y : Traced (Session Registers)) : Prop :=
  x.value.Alike y.value ∧ Resembles (deeds x.trace) (deeds y.trace)

theorem Alike.takePacket (alike : s.Alike t) (packet : Packet) :
    Likewise (s.takePacket packet) (t.takePacket packet) := by
  obtain ⟨answered, after⟩ := alike.answering packet
  obtain ⟨_, _, failure, _, bare, same⟩ := alike.outcome packet
  constructor
  · rw [value_takePacket, value_takePacket, answered, failure]
    exact after.proceed _ _
  · rw [deeds_takePacket, deeds_takePacket, answered]
    constructor
    · rw [List.map_cons, List.map_cons, bare_answer _ bare, Event.bare, Event.bare, bare]
    · intro none
      have bit : packet.isSync = false := none packet (List.mem_cons_self ..)
      rw [same bit]

/-- Receivers find the same when they read, and both go on or neither does. -/
theorem Alike.receiveNext (alike : s.Alike t) : t.receiveNext.value.1 = s.receiveNext.value.1 ∧
    s.receiveNext.value.2.Alike t.receiveNext.value.2 ∧
    Resembles (deeds s.receiveNext.trace) (deeds t.receiveNext.trace) := by
  cases alike with
  | @intro r port =>
    have read : Alike { s with connection := s.connection.receive.value.2 }
        { s with connection := s.connection.receive.value.2, port := r } := .intro _ port
    have quiet := Connection.deeds_receive s.connection
    unfold Session.receiveNext
    cases working : s.receiver.running with
    | false => exact ⟨rfl, .intro s port, .refl _⟩
    | true =>
      -- What was read decides, as it does for any receiver.
      cases arrival : s.connection.receive.value.1 with
      | packet packet =>
        obtain ⟨after, similar⟩ := read.takePacket packet
        simp only [Bool.not_true, Bool.false_eq_true, if_false, Traced.value_bind, Traced.trace_bind,
          deeds_append, quiet, arrival, Traced.value_pure, Traced.trace_pure, List.nil_append,
          List.append_nil]
        exact ⟨after.running, after, similar⟩
      | failure reason =>
        have after := fun reason => read.finish reason
        simp only [Bool.not_true, Bool.false_eq_true, if_false, Traced.value_bind, Traced.trace_bind,
          deeds_append, quiet, arrival, Traced.value_pure, Traced.trace_pure, List.nil_append,
          List.append_nil]
        exact ⟨trivial, after _, .refl _⟩
      | waiting =>
        simp only [Bool.not_true, Bool.false_eq_true, if_false, Traced.value_bind, Traced.trace_bind,
          deeds_append, quiet, arrival, Traced.value_pure, Traced.trace_pure, deeds_nil, List.nil_append]
        exact ⟨trivial, read, .refl _⟩

theorem Alike.pumpUpTo (alike : s.Alike t) (bound : Nat) :
    Likewise (s.pumpUpTo bound) (t.pumpUpTo bound) := by
  induction bound generalizing s t with
  | zero => exact ⟨alike, .refl _⟩
  | succ bound ih =>
    obtain ⟨more, after, similar⟩ := alike.receiveNext
    unfold Likewise
    rw [pumpUpTo_succ, pumpUpTo_succ]
    simp only [Traced.value_bind, Traced.trace_bind, deeds_append]
    rw [more]
    split
    · obtain ⟨last, rest⟩ := ih after
      exact ⟨last, similar.append rest⟩
    · exact ⟨after, similar.append (.refl _)⟩

theorem Alike.pump (alike : s.Alike t) : Likewise s.pump t.pump := by
  have same : t.connection = s.connection := by cases alike; rfl
  unfold Session.pump
  rw [same]
  exact alike.pumpUpTo _

/-- Receivers that are started alike, whatever earlier ones have left behind, go on alike. -/
theorem Alike.start (alike : s.greeted.Alike t.greeted) (same : t.connection = s.connection)
    (established : s.connection.established) (unstarted : s.receiver.started = false)
    (unstarted' : t.receiver.started = false) :
    s.start.value.2.Alike t.start.value.2 ∧ Resembles (deeds s.start.trace) (deeds t.start.trace) := by
  obtain ⟨value, trace⟩ := start_of_established established unstarted
  obtain ⟨value', trace'⟩ := start_of_established (s := t) (same ▸ established) unstarted'
  rw [value, value', trace, trace', same]
  split
  · obtain ⟨after, similar⟩ := alike.pump
    exact ⟨after, (Resembles.refl [_]).append similar⟩
  · exact ⟨alike.finish _, .refl _⟩

end Session

end SerialLink
