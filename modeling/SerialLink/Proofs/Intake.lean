import SerialLink.Proofs.Pacing

/-!
# When packets are handled

The receiver handles packets when something comes from the peer, and at no other time: whatever else is done
with a sound port, no packet is handled on the way (`SerialPort.heard_perform`).
-/

namespace SerialLink

open Event

namespace SerialPort

variable {p : SerialPort}

/-- What is shifted in, and the interrupt after the last bit, have nothing to do with packets. -/
theorem heard_awaitBit (sound : p.toSession.Sound) : heard p.awaitBit.trace = [] := by
  cases p.looks_awaitBit with
  | shifts _ _ _ same | waits _ same =>
    rw [same]
    rfl
  | completes _ _ _ same =>
    rw [same]
    cases p.interruptBased && p.hasListener <;> rfl
  | loses _ same =>
    rw [same]
    exact heard_of_silent (deeds_disable_idle sound p.receiverError)

/-- If the bit of this side does not go out the connection is closed, but the receiver has dealt with all that
had come. -/
theorem heard_offerBit (sound : p.toSession.Sound) : heard p.offerBit.trace = [] := by
  have sent := Connection.deeds_send p.syncPacket p.connection
  cases drives : p.port.drivesClock with
  | false =>
    rw [offerBit_of_driven drives]
    rfl
  | true =>
    cases taken : (p.connection.send p.syncPacket).value.1 with
    | true =>
      rw [taken] at sent
      rw [offerBit_of_taken drives taken, heard_append, ← heard_deeds, sent]
      rfl
    | false =>
      have closing : Session.Sound (p.offering false).toSession := (sound.send p.syncPacket).of_eq rfl rfl rfl
      rw [taken] at sent
      rw [offerBit_of_refused drives taken, heard_append, ← heard_deeds, sent,
        heard_of_silent closing.deeds_close]
      rfl

theorem heard_exchange (sound : p.toSession.Sound) (ready : p.phase = .armed) (due : p.isDue) :
    heard p.exchange.trace = [] := by
  have begun := begun_offerBit sound ready due
  have offers : heard (offerBit { p with phase := .exchanging }).trace = [] := heard_offerBit sound
  rw [exchange, Traced.trace_bind, heard_append, offers]
  exact heard_awaitBit (begun.sound.of_eq rfl rfl rfl)

theorem heard_tick (sound : p.Sound) (cycles : UInt32) : heard (p.tick cycles).trace = [] := by
  cases p.ticks_tick cycles with
  | unlinked _ same | blocked _ same | passes _ _ _ same =>
    rw [same]
    rfl
  | loses ready _ same =>
    have session := sound.linked (linked_of_ready ready)
    rw [same]
    exact heard_of_silent (deeds_disable_idle session p.receiverError)
  | exchanges ready _ due same =>
    have session := sound.linked (linked_of_ready ready)
    rw [same]
    exact heard_exchange (session.of_eq rfl rfl rfl) (phase_elapse ready cycles) due

theorem heard_resume (sound : p.Sound) : heard p.resume.trace = [] := by
  unfold resume
  split
  · next begun =>
    refine heard_awaitBit (sound.linked ?_)
    rw [begun]
    decide
  · rfl

theorem heard_timeOut (sound : p.Sound) : heard p.timeOut.trace = [] := by
  unfold timeOut
  split
  · next begun =>
    have session : p.toSession.Sound := by
      refine sound.linked ?_
      rw [begun]
      decide
    rw [Traced.trace_bind, heard_append]
    exact heard_of_silent (deeds_disable session .transferTimeout)
  · rfl

/-- Whether something comes from the peer with an act. -/
def Act.isArrival : Act → Bool
  | .arrive _ => true
  | _ => false

/-- **Packets are handled only when something comes from the peer.** -/
theorem heard_perform {act : Act} (other : act.isArrival = false) (sound : p.Sound) :
    heard (p.perform act).trace = [] := by
  cases access : act.isAccess with
  | true =>
    rw [(accessed_perform access p).1]
    rfl
  | false =>
    cases act with
    | tick cycles => exact heard_tick sound cycles
    | resume => exact heard_resume sound
    | timeOut =>
      show heard (p.timeOut.trace ++ []) = []
      rw [List.append_nil]
      exact heard_timeOut sound
    | turn => rfl
    | arrive => cases other
    | _ => cases access

end SerialPort

end SerialLink
