import SerialLink.Proofs.Connection
import SerialLink.Proofs.Handling
import SerialLink.Proofs.Stream

/-!
# A receiver at whatever port

What the receiver does does not depend on the port that answers for this side.  Things come from the peer
and the receiver reads, in turns (`Session.turns`): that it waits for more whenever it has read all is only one
way to take them.  What handling a packet and ending keep is kept by all turns (`Session.Lasting.turns`).  Which packets were handled is read off the history (`Event.heard`).
-/

namespace SerialLink

open Event

namespace Event

/-- The packets that were handled. -/
def heard (history : List Event) : List Packet :=
  history.filterMap fun
    | .handled packet _ => some packet
    | _ => none

/-- The packets that were to be sent, whether the connection took them or not. -/
def told (history : List Event) : List Packet :=
  history.filterMap fun
    | .sent packet => some packet
    | .refused packet => some packet
    | _ => none

variable (a b history : List Event)

@[simp] theorem heard_append : heard (a ++ b) = heard a ++ heard b := List.filterMap_append

@[simp] theorem told_append : told (a ++ b) = told a ++ told b := List.filterMap_append

@[simp] theorem heard_deeds : heard (deeds history) = heard history :=
  filterMap_deeds _ (fun _ => rfl) history

@[simp] theorem told_deeds : told (deeds history) = told history :=
  filterMap_deeds _ (fun _ => rfl) history

variable {history}

/-- In a history without deeds nothing was handled. -/
theorem heard_of_silent (silent : deeds history = []) : heard history = [] := by
  rw [← heard_deeds, silent]
  rfl

theorem told_of_silent (silent : deeds history = []) : told history = [] := by
  rw [← told_deeds, silent]
  rfl

end Event

/-! ### Handling a packet -/

/-- Sending an answer is not handling a packet. -/
theorem Connection.heard_answer (reply : Option Packet) (c : Connection) :
    heard (deeds (c.answer reply).trace) = [] :=
  filterMap_answer (fun _ => rfl) (fun _ => rfl) reply c

namespace Protocol

variable {σ : Type} [Responder σ] (packet : Packet) (clock : Clock) (p : Protocol) (queue : BitQueue)
  (port : σ)

theorem queue_handle : (p.handle packet clock queue port).value.queue =
    if packet.isSync then queue.push (itemOf packet) else queue := by
  cases bit : packet.isSync with
  | true =>
    rw [handle_of_isSync _ _ _ _ _ bit]
    rfl
  | false => exact (handle_of_not_isSync _ _ _ _ _ bit).1

/-- The connection ends with the packets of which that is said, and with no others. -/
theorem isFatal_handle :
    Session.isFatal (p.handle packet clock queue port).value.failure = packet.ending? := by
  unfold handle Packet.ending?
  cases packet.kind? with
  | none => rfl
  | some kind =>
    cases kind with
    | version =>
      simp only [handleVersion, Traced.value_bind]
      by_cases right : (packet.b2, packet.b3, packet.b4) = Packet.protocolVersion
      · rw [if_neg (by simp [right]), if_pos right]
        split <;> rfl
      · rw [if_pos (by simpa using right), if_neg right]
        rfl
    | _ => rfl

end Protocol

namespace Session

variable {π : Type} [Responder π] (packet : Packet) (s : Session π)

/-- The session in which a packet was handled and the answer sent, if there is one. -/
def answering : Traced (Bool × Session π) := do
  let outcome ← s.outcome packet
  let s := s.handled packet outcome
  let (answered, connection) ← s.connection.answer outcome.reply
  return (answered, { s with connection })

theorem value_takePacket : (s.takePacket packet).value =
    ((s.answering packet).value.2.proceed (s.answering packet).value.1
      (s.outcome packet).value.failure).value := rfl

omit [Responder π] in
theorem deeds_proceed (answered : Bool) (failure : Option Failure) :
    deeds (s.proceed answered failure).trace = [] := by
  unfold proceed
  split
  · rfl
  split <;> rfl

/-- A packet is handled, and the answer is sent or refused. -/
theorem deeds_takePacket : deeds (s.takePacket packet).trace =
    .handled packet (s.outcome packet).value.reply ::
      (s.outcome packet).value.reply.toList.map fun reply =>
        if (s.answering packet).value.1 then .sent reply else .refused reply := by
  have quiet : deeds (s.outcome packet).trace = [] := Protocol.deeds_handle _ _ _ _ _
  have answer := Connection.deeds_answer (s.outcome packet).value.reply
    (s.handled packet (s.outcome packet).value).connection
  unfold takePacket
  simp only [Traced.trace_bind, deeds_append, quiet, List.nil_append, answer, deeds_proceed,
    List.append_nil]
  rfl

theorem heard_takePacket : heard (s.takePacket packet).trace = [packet] := by
  rw [← heard_deeds, deeds_takePacket, heard, List.filterMap_cons, List.filterMap_map]
  refine congrArg (packet :: ·) (List.filterMap_eq_nil_iff.mpr fun reply _ => ?_)
  cases (s.answering packet).value.1 <;> rfl

omit [Responder π] in
/-- After a packet the receiver goes on, or it ends, because the answer did not go out or because of the
packet. -/
theorem proceed_cases (answered : Bool) (failure : Option Failure) :
    answered = true ∧ isFatal failure = none ∧ (s.proceed answered failure).value = s ∨
      ∃ reason, (reason = .connectionTerminated ∨ isFatal failure = some reason) ∧
        (s.proceed answered failure).value = (s.finish reason).value := by
  unfold proceed
  cases answered with
  | false => exact .inr ⟨_, .inl rfl, rfl⟩
  | true =>
    rw [if_neg (by decide)]
    cases isFatal failure with
    | none => exact .inl ⟨rfl, rfl, rfl⟩
    | some reason => exact .inr ⟨reason, .inr rfl, rfl⟩

variable {s}

/-- A receiver that has ended reads nothing. -/
theorem receiveNext_of_stopped (stopped : s.receiver.running = false) :
    s.receiveNext = pure (false, s) := by
  unfold Session.receiveNext
  rw [stopped]
  rfl

theorem pumpUpTo_of_stopped (stopped : s.receiver.running = false) (times : Nat) :
    s.pumpUpTo times = pure s := by
  cases times with
  | zero => rfl
  | succ times =>
    unfold Session.pumpUpTo
    rw [receiveNext_of_stopped stopped]
    rfl

/-! ### The start of a receiver -/

/-- The session whose receiver has told the version of the protocol, and has read nothing yet. -/
def greeted (s : Session π) : Session π :=
  { s with
    receiver := { started := true, running := true }
    connection := (s.connection.send (Packet.version 0)).value.2 }

/-- A receiver that is started on an established connection tells the version, and then reads; if that cannot
be sent it ends. -/
theorem start_of_established (established : s.connection.established)
    (unstarted : s.receiver.started = false) :
    s.start.value.2 = (if (s.connection.send (Packet.version 0)).value.1 then s.greeted.pump
        else s.greeted.finish .connectionTerminated).value ∧
      deeds s.start.trace =
        (if (s.connection.send (Packet.version 0)).value.1 then .sent (Packet.version 0)
          else .refused (Packet.version 0)) ::
        deeds (if (s.connection.send (Packet.version 0)).value.1 then s.greeted.pump
          else s.greeted.finish .connectionTerminated).trace := by
  have sent := Connection.deeds_send (Packet.version 0) s.connection
  unfold start
  rw [if_neg (by simp [established, unstarted])]
  simp only [Traced.trace_bind, Traced.value_bind, deeds_append, sent]
  cases (s.connection.send (Packet.version 0)).value.1 with
  | true => exact ⟨rfl, congrArg (_ :: ·) (congrArg deeds (List.append_nil _))⟩
  | false => exact ⟨rfl, rfl⟩

/-! ### Turns -/

/-- What happens to a session, one thing at a time. -/
inductive Turn
  /-- Something comes from the peer. -/
  | come (segment : Tcp.Segment)
  /-- The receiver reads, so many times at most. -/
  | read (times : Nat)

/-- Does one turn. -/
def turn : Turn → Session π → Traced (Session π)
  | .come segment, s => return { s with connection := s.connection.arrive segment }
  | .read times, s => s.pumpUpTo times

/-- Does one turn after the other. -/
def turns : List Turn → Session π → Traced (Session π)
  | [], s => return s
  | t :: rest, s => do turns rest (← s.turn t)

/-- What holds of a session and its history whatever becomes of the connection, and is kept when the receiver
handles a packet and when it ends, which of its own accord it does only when nothing more will come. -/
structure Lasting (P : List Event → Session π → Prop) : Prop where
  connection : ∀ h k t c, deeds k = [] → P h t → P (h ++ k) { t with connection := c }
  take : ∀ h t packet, t.receiver.running → P h t →
    P (h ++ (t.takePacket packet).trace) (t.takePacket packet).value
  finish : ∀ h t reason, reason = .malformedPacket ∨ reason = .connectionTerminated →
    t.receiver.running → P h t → P (h ++ (t.finish reason).trace) (t.finish reason).value

variable {P : List Event → Session π → Prop} {h : List Event}

theorem Lasting.receiveNext (lasting : Lasting P) (start : P h s) :
    P (h ++ s.receiveNext.trace) s.receiveNext.value.2 := by
  have begun := lasting.connection h _ s s.connection.receive.value.2
    (Connection.deeds_receive s.connection) start
  unfold Session.receiveNext
  cases working : s.receiver.running with
  | false =>
    rw [if_pos (by decide), Traced.trace_pure, List.append_nil]
    exact start
  | true =>
    rw [if_neg (by decide), Traced.trace_bind, Traced.value_bind, ← List.append_assoc]
    -- What was read decides: a packet is handled, a failure ends the receiver, and else it waits.
    cases arrival : s.connection.receive.value.1 with
    | packet packet =>
      have taken := lasting.take _ { s with connection := s.connection.receive.value.2 } packet working begun
      simp only [arrival, Traced.trace_bind, Traced.value_bind, Traced.trace_pure, List.append_nil]
      exact taken
    | failure given =>
      have ended := fun reason cause =>
        lasting.finish _ { s with connection := s.connection.receive.value.2 } reason cause working begun
      simp only [arrival, Traced.trace_bind, Traced.value_bind, Traced.trace_pure, List.append_nil]
      split
      · exact ended given (Connection.failure_receive arrival)
      · exact ended .connectionTerminated (.inr rfl)
    | waiting =>
      simp only [arrival, Traced.trace_pure, Traced.value_pure, List.append_nil]
      exact begun

/-- The receiver reads, and if there may be more it goes on. -/
theorem pumpUpTo_succ (times : Nat) (s : Session π) : s.pumpUpTo (times + 1) = (do
    let x ← s.receiveNext
    if x.1 then x.2.pumpUpTo times else return x.2) := rfl

theorem Lasting.pumpUpTo (lasting : Lasting P) (times : Nat) (start : P h s) :
    P (h ++ (s.pumpUpTo times).trace) (s.pumpUpTo times).value := by
  induction times generalizing s h with
  | zero =>
    rw [Session.pumpUpTo, Traced.trace_pure, List.append_nil]
    exact start
  | succ times ih =>
    have first := lasting.receiveNext start
    rw [pumpUpTo_succ, Traced.trace_bind, Traced.value_bind, ← List.append_assoc]
    split
    · exact ih first
    · rw [Traced.trace_pure, List.append_nil]
      exact first

/-- **What lasts is kept by all turns.** -/
theorem Lasting.turns (lasting : Lasting P) (ts : List Turn) (start : P h s) :
    P (h ++ (s.turns ts).trace) (s.turns ts).value := by
  induction ts generalizing s h with
  | nil =>
    rw [Session.turns, Traced.trace_pure, List.append_nil]
    exact start
  | cons t rest ih =>
    have first : P (h ++ (s.turn t).trace) (s.turn t).value := by
      cases t with
      | come segment => exact lasting.connection h [] s _ rfl start
      | read times => exact lasting.pumpUpTo times start
    rw [Session.turns, Traced.trace_bind, Traced.value_bind, ← List.append_assoc]
    exact ih first

end Session

end SerialLink
