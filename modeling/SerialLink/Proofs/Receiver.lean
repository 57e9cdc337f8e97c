import SerialLink.Proofs.Connection
import SerialLink.Proofs.Handling

/-!
# The receiver, move by move

All that the receiver does is a sequence of three kinds of `Session.Move`: it reads, it handles a packet
and sends the answer, and it ends.  `Session.moves_pump` cuts a whole `pump` into moves; what each move
keeps is then kept by every pump (`Session.Moves.keeps`).
-/

namespace SerialLink.Session

open Event

/-- One thing that the receiver does. -/
inductive Move : Session Registers → List Event → Session Registers → Prop
  /-- It reads, and comes upon a packet or upon the end. -/
  | read (s : Session Registers) (working : s.receiver.running) :
      Move s [] { s with connection := s.connection.receive.value.2 }
  /-- It handles a packet, and sends the answer. -/
  | take (s : Session Registers) (packet : Packet) (working : s.receiver.running) :
      Move s
        (.handled packet (s.outcome packet).value.reply ::
          deeds (s.connection.answer (s.outcome packet).value.reply).trace)
        { s.handled packet (s.outcome packet).value with
          connection := (s.connection.answer (s.outcome packet).value.reply).value.2 }
  /-- It ends. -/
  | finish (s : Session Registers) (reason : Failure) (working : s.receiver.running) :
      Move s [] (s.finish reason).value

/-- What the receiver does, one thing after the other. -/
inductive Moves : Session Registers → List Event → Session Registers → Prop
  | refl (s : Session Registers) : Moves s [] s
  | step {s t u : Session Registers} {h k : List Event} :
      Move s h t → Moves t k u → Moves s (h ++ k) u

theorem Moves.one {s t : Session Registers} {h : List Event} (move : Move s h t) : Moves s h t := by
  have := Moves.step move (.refl t)
  rwa [List.append_nil] at this

theorem Moves.trans {s t u : Session Registers} {h k : List Event} (first : Moves s h t)
    (second : Moves t k u) : Moves s (h ++ k) u := by
  induction first with
  | refl => exact second
  | step move _ ih =>
    rw [List.append_assoc]
    exact .step move (ih second)

/-- What every move keeps is kept by all of them. -/
theorem Moves.keeps {P : Session Registers → Prop} (step : ∀ s h t, Move s h t → P s → P t)
    {s t : Session Registers} {h : List Event} (moves : Moves s h t) (start : P s) : P t := by
  induction moves with
  | refl => exact start
  | step move _ ih => exact ih (step _ _ _ move start)

theorem moves_proceed (answered : Bool) (failure : Option Failure) (s : Session Registers)
    (working : s.receiver.running) :
    Moves s (deeds (s.proceed answered failure).trace) (s.proceed answered failure).value := by
  unfold proceed
  split
  · exact .one (.finish s _ working)
  split
  · exact .one (.finish s _ working)
  · exact .refl s

theorem moves_takePacket (packet : Packet) (s : Session Registers) (working : s.receiver.running) :
    Moves s (deeds (s.takePacket packet).trace) (s.takePacket packet).value := by
  have quiet : deeds (s.outcome packet).trace = [] := Protocol.deeds_handle _ _ _ _ _
  unfold takePacket
  simp only [Traced.trace_bind, Traced.value_bind, deeds_append, quiet, List.nil_append]
  rw [← List.append_assoc]
  exact .step (.take s packet working) (moves_proceed _ _ _ working)

/-- What one look at the connection comes to. -/
inductive Look (s : Session Registers) (x : Traced (Bool × Session Registers)) : Prop
  | idle (stopped : s.receiver.running = false) (deeds_eq : deeds x.trace = [])
      (value : x.value = (false, s))
  | packet (working : s.receiver.running) (packet : Packet) (t : Session Registers)
      (after : t = { s with connection := s.connection.receive.value.2 })
      (reads : s.connection.ReadsTo t.connection (.packet packet))
      (deeds_eq : deeds x.trace = deeds (t.takePacket packet).trace)
      (value : x.value = ((t.takePacket packet).value.receiver.running, (t.takePacket packet).value))
  | ended (working : s.receiver.running) (given reason : Failure) (t : Session Registers)
      (after : t = { s with connection := s.connection.receive.value.2 })
      (reads : s.connection.ReadsTo t.connection (.failure given))
      (cause : reason = if t.connection.established then given else .connectionTerminated)
      (deeds_eq : deeds x.trace = []) (value : x.value = (false, (t.finish reason).value))
  | atRest (working : s.receiver.running) (t : Session Registers)
      (after : t = { s with connection := s.connection.receive.value.2 })
      (reads : s.connection.ReadsTo t.connection .waiting)
      (deeds_eq : deeds x.trace = []) (value : x.value = (false, t))

theorem look_receiveNext (s : Session Registers) : s.Look s.receiveNext := by
  unfold receiveNext
  cases hr : s.receiver.running with
  | false => exact .idle hr rfl rfl
  | true =>
    have reads := Connection.readsTo_receive s.connection
    have quiet := Connection.deeds_receive s.connection
    rw [if_neg (by decide)]
    -- What was read decides: a packet is handled, a failure ends the receiver, and else it waits.
    cases ha : s.connection.receive.value.1 with
    | packet packet =>
      rw [ha] at reads
      refine .packet hr packet _ rfl reads ?_ ?_
      · simp only [Traced.trace_bind, deeds_append, quiet, ha]
        exact List.append_nil _
      · simp only [Traced.value_bind, ha]
        rfl
    | failure given =>
      rw [ha] at reads
      refine .ended hr given _ _ rfl reads rfl ?_ ?_
      · simp only [Traced.trace_bind, deeds_append, quiet, ha]
        rfl
      · simp only [Traced.value_bind, ha]
        rfl
    | waiting =>
      rw [ha] at reads
      refine .atRest hr _ rfl reads ?_ ?_
      · simp only [Traced.trace_bind, deeds_append, quiet, ha]
        rfl
      · simp only [Traced.value_bind, ha]
        rfl

theorem moves_receiveNext (s : Session Registers) :
    Moves s (deeds s.receiveNext.trace) s.receiveNext.value.2 := by
  cases look_receiveNext s with
  | idle stopped deeds_eq value =>
    rw [deeds_eq, value]
    exact .refl s
  | packet working packet t after reads deeds_eq value =>
    rw [deeds_eq, value]
    subst after
    exact .step (.read s working) (moves_takePacket packet _ working)
  | ended working given reason t after reads cause deeds_eq value =>
    rw [deeds_eq, value]
    subst after
    exact .step (.read s working) (.one (.finish _ reason working))
  | atRest working t after reads deeds_eq value =>
    rw [deeds_eq, value]
    subst after
    exact .one (.read s working)

theorem moves_pumpUpTo (bound : Nat) (s : Session Registers) :
    Moves s (deeds (s.pumpUpTo bound).trace) (s.pumpUpTo bound).value := by
  induction bound generalizing s with
  | zero => exact .refl s
  | succ bound ih =>
    -- One turn is a look, and what is left is the loop with the smaller bound.
    have next := moves_receiveNext s
    unfold pumpUpTo
    simp only [Traced.trace_bind, Traced.value_bind, deeds_append]
    split
    · exact next.trans (ih _)
    · rw [Traced.trace_pure, deeds_nil, List.append_nil]
      exact next

/-- Whatever has come, the receiver deals with it in moves. -/
theorem moves_pump (s : Session Registers) : Moves s (deeds s.pump.trace) s.pump.value :=
  moves_pumpUpTo _ s

end SerialLink.Session
