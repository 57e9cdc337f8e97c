import SerialLink.Proofs.Act

/-!
# What is reported of bytes

Of each byte that was exchanged the tool reports what went out and what came in (`Event.reports`).  A port knows
nothing of bytes as the tool counts them, so whatever it logs, it reports none (`SerialPort.reports_perform`).
-/

namespace SerialLink

open Event

namespace Event

/-- The bytes that were reported to be exchanged: each one that went out, with the one that came in for it. -/
def reports (history : List Event) : List (UInt8 × UInt8) :=
  history.filterMap fun
    | .noted (.exchanged out back) => some (out, back)
    | _ => none

@[simp] theorem reports_append (a b : List Event) : reports (a ++ b) = reports a ++ reports b :=
  List.filterMap_append

end Event

/-! ### What sockets and connections log -/

namespace Tcp.Socket

theorem reports_send (bytes : Bytes) (h : Host) (s : Socket) : reports (s.send bytes h).trace = [] := by
  unfold send
  repeat' split
  all_goals rfl

theorem reports_readFailure (bytes : Bytes) (error : SystemError) (s : Socket) (h : Host) :
    reports (readFailure bytes error s h).trace = [] := by
  unfold readFailure
  split <;> rfl

theorem reports_receive (count : Nat) (h : Host) (s : Socket) : reports (s.receive count h).trace = [] := by
  unfold receive
  repeat' split
  all_goals first | rfl | exact reports_readFailure ..

end Tcp.Socket

namespace Connection

theorem reports_send (packet : Packet) (c : Connection) : reports (c.send packet).trace = [] := by
  unfold send
  split
  · rfl
  · rw [Traced.trace_bind, reports_append, Tcp.Socket.reports_send]
    dsimp only [Traced.trace_bind, Traced.trace_emit]
    split <;> rfl

theorem reports_answer (reply : Option Packet) (c : Connection) : reports (c.answer reply).trace = [] := by
  cases reply with
  | none => rfl
  | some packet => exact reports_send packet c

theorem reports_receive (c : Connection) : reports c.receive.trace = [] := by
  unfold receive
  rw [Traced.trace_bind, reports_append, Tcp.Socket.reports_receive]
  rfl

end Connection

/-! ### What a receiver logs -/

theorem Protocol.reports_handle {σ : Type} [Responder σ] (packet : Packet) (clock : Clock) (p : Protocol)
    (queue : BitQueue) (port : σ) : reports (p.handle packet clock queue port).trace = [] := by
  unfold handle
  split <;> try rfl
  unfold handleVersion
  repeat' split
  all_goals rfl

namespace Session

variable {π : Type}

theorem reports_finish (reason : Failure) (s : Session π) : reports (s.finish reason).trace = [] := by
  unfold finish
  rw [Traced.trace_bind, reports_append]
  split <;> rfl

theorem reports_proceed (answered : Bool) (failure : Option Failure) (s : Session π) :
    reports (s.proceed answered failure).trace = [] := by
  unfold proceed
  repeat' split
  all_goals first | rfl | exact reports_finish ..

variable [Responder π]

theorem reports_takePacket (packet : Packet) (s : Session π) : reports (s.takePacket packet).trace = [] := by
  unfold takePacket outcome
  simp only [Traced.trace_bind, reports_append, Protocol.reports_handle, Connection.reports_answer,
    reports_proceed]
  rfl

theorem reports_receiveNext (s : Session π) : reports s.receiveNext.trace = [] := by
  unfold receiveNext
  split
  · rfl
  · rw [Traced.trace_bind, reports_append, Connection.reports_receive]
    dsimp only
    split
    · rw [Traced.trace_bind, reports_append, reports_takePacket]
      rfl
    · rw [Traced.trace_bind, reports_append, reports_finish]
      rfl
    · rfl

theorem reports_pumpUpTo (bound : Nat) (s : Session π) : reports (s.pumpUpTo bound).trace = [] := by
  induction bound generalizing s with
  | zero => rfl
  | succ bound ih =>
    unfold pumpUpTo
    rw [Traced.trace_bind, reports_append, reports_receiveNext]
    dsimp only
    split
    · exact ih _
    · rfl

theorem reports_stop (s : Session π) : reports s.stop.trace = [] := by
  unfold stop
  split
  · rw [Traced.trace_bind, reports_append]
    exact congrArg (· ++ []) (reports_pumpUpTo _ _)
  · rfl

end Session

/-! ### What a port logs -/

namespace SerialPort

variable (p : SerialPort)

theorem reports_disable (reason : Failure) : reports (p.disable reason).trace = [] := by
  unfold disable
  rw [Traced.trace_bind, Traced.trace_bind, reports_append, reports_append, Session.reports_stop]
  rfl

theorem reports_disable_idle (reason : Failure) :
    reports (do return (Progress.idle, ← p.disable reason) : Traced (Progress × SerialPort)).trace = [] := by
  rw [Traced.trace_bind, reports_append, reports_disable]
  rfl

theorem reports_awaitBit : reports p.awaitBit.trace = [] := by
  cases p.looks_awaitBit with
  | shifts _ _ _ same | waits _ same =>
    rw [same]
    rfl
  | completes _ _ _ same =>
    rw [same]
    cases p.interruptBased && p.hasListener <;> rfl
  | loses _ same =>
    rw [same]
    exact p.reports_disable_idle _

theorem reports_offerBit : reports p.offerBit.trace = [] := by
  unfold offerBit
  split
  · rfl
  · rw [Traced.trace_bind, reports_append, Connection.reports_send]
    dsimp only
    split
    · rfl
    · rw [Traced.trace_bind, reports_append]
      exact congrArg (· ++ []) (Session.reports_pumpUpTo _ _)

theorem reports_exchange : reports p.exchange.trace = [] := by
  rw [exchange, Traced.trace_bind, reports_append, reports_offerBit]
  exact reports_awaitBit _

theorem reports_tick (cycles : UInt32) : reports (p.tick cycles).trace = [] := by
  cases p.ticks_tick cycles with
  | unlinked _ same | blocked _ same | passes _ _ _ same =>
    rw [same]
    rfl
  | loses _ _ same =>
    rw [same]
    exact p.reports_disable_idle _
  | exchanges _ _ _ same =>
    rw [same]
    exact reports_exchange _

/-- **A port reports no bytes.** -/
theorem reports_perform (act : Act) : reports (p.perform act).trace = [] := by
  cases act with
  | tick cycles => exact p.reports_tick cycles
  | resume =>
    show reports p.resume.trace = []
    unfold resume
    split
    · exact p.reports_awaitBit
    · rfl
  | timeOut =>
    show reports (p.timeOut.trace ++ []) = []
    unfold timeOut
    split
    · rw [List.append_nil, Traced.trace_bind, reports_append, reports_disable]
      rfl
    · rfl
  | arrive segment =>
    show reports (((p.toSession.arrive segment).trace ++ []) ++ []) = []
    rw [List.append_nil, List.append_nil]
    exact Session.reports_pumpUpTo _ _
  | _ => rfl

end SerialPort

end SerialLink
