import SerialLink.Proofs.Connection

/-!
# Connections that work

A connection `Carries` the bytes of the peer as long as the operating system does what it is asked to and
neither side has given the connection up.  Whatever is sent over it goes out (`Connection.Carries.send`).  Of the
bytes that have come eight are read as a packet (`Connection.Carries.receive_whole`); fewer are left until more
come (`Connection.Carries.receive_waiting`), or are all that will come (`Connection.Carries.receive_over`).
-/

namespace SerialLink

open Tcp

namespace Tcp.Host

/-- The operating system does what it is asked to when something is sent or read; that it is interrupted is no
failure. -/
def Calm (h : Host) : Prop :=
  ∀ fault, h.fault = some fault → fault.call = .receive ∨ fault.call = .send → fault.error = .interrupted

theorem Calm.insist {h : Host} (calm : h.Calm) {call : Call} (asked : call = .receive ∨ call = .send) :
    (h.insist call).1 = none ∧ (h.insist call).2.Calm := by
  unfold Host.insist attempt
  cases hf : h.fault with
  | none => exact ⟨rfl, calm⟩
  | some fault =>
    by_cases same : fault.call = call
    · -- The request that is made to fail is only interrupted, and made again.
      have interrupted := calm fault hf (same ▸ asked)
      simp only [if_pos same, interrupted]
      exact ⟨trivial, nofun⟩
    · simp only [if_neg same]
      exact ⟨trivial, calm⟩

end Tcp.Host

namespace Connection

/-- A connection over which packets can be sent, with the bytes that have come and were not read, and whether
the peer has said that these are the last ones. -/
structure Carries (unread : Bytes) (closing : Bool) (c : Connection) : Prop where
  established : c.established = true
  calm : c.host.Calm
  stream : ∃ e, c.stream = .stream e ∧ e.inbox = unread ∧ e.finished = closing ∧ e.failure = Option.none ∧
    e.broken = false ∧ e.shut = false

variable {unread : Bytes} {closing : Bool} {c : Connection}

theorem Carries.send (carries : c.Carries unread closing) (packet : Packet) :
    (c.send packet).value.1 = true ∧ (c.send packet).value.2.Carries unread closing := by
  obtain ⟨established, calm, e, stream, inbox, finished, failure, broken, shut⟩ := carries
  obtain ⟨served, still⟩ := calm.insist (.inr rfl : Call.send = .receive ∨ Call.send = .send)
  have sent : e.send = (Option.none, e) := by
    unfold Endpoint.send
    rw [failure, broken, shut]
    rfl
  have some : packet.encode.isEmpty = false := by
    rw [List.isEmpty_eq_false_iff, ← List.length_pos_iff, Packet.length_encode]
    decide
  have taken : (Socket.send packet.encode c.host c.stream).value =
      (true, .stream e, (c.host.insist .send).2) := by
    unfold Socket.send
    rw [stream, some]
    rcases hi : c.host.insist .send with ⟨refusal, host⟩
    rw [hi] at served
    cases served
    simp only [Socket.isOpen, Bool.not_true, Bool.false_eq_true, if_false, sent, Traced.value_pure]
  unfold Connection.send
  rw [established, if_neg (by decide)]
  simp only [Traced.value_bind, Traced.value_pure, taken]
  exact ⟨trivial, rfl, still, e, rfl, inbox, finished, failure, broken, shut⟩

theorem Carries.answer (carries : c.Carries unread closing) (reply : Option Packet) :
    (c.answer reply).value.1 = true ∧ (c.answer reply).value.2.Carries unread closing := by
  cases reply with
  | none => exact ⟨rfl, carries⟩
  | some packet => exact carries.send packet

/-- What a read of a packet comes to on a connection that works. -/
theorem Carries.receive_eq (carries : c.Carries unread closing) : ∃ e, c.stream = .stream e ∧
    e.inbox = unread ∧ (c.host.insist .receive).2.Calm ∧
    (Socket.receive Packet.size c.host c.stream).value =
      if Packet.size ≤ unread.length then
        ⟨.ok, unread.take Packet.size, .stream { e with inbox := unread.drop Packet.size },
          (c.host.insist .receive).2⟩
      else if closing then
        ⟨if unread.isEmpty then .closed else .truncated, unread, .stream { e with inbox := [] },
          (c.host.insist .receive).2⟩
      else ⟨.waiting, [], c.stream, (c.host.insist .receive).2⟩ := by
  obtain ⟨established, calm, e, stream, rfl, rfl, failure, broken, shut⟩ := carries
  obtain ⟨served, still⟩ := calm.insist (.inl rfl : Call.receive = .receive ∨ Call.receive = .send)
  refine ⟨e, stream, rfl, still, ?_⟩
  unfold Socket.receive
  rw [stream]
  rcases hi : c.host.insist .receive with ⟨refusal, host⟩
  rw [hi] at served
  cases served
  have some : ¬ Packet.size = 0 := by decide
  simp only [Socket.isOpen, Bool.not_true, Bool.false_eq_true, if_false, if_neg some]
  unfold Endpoint.take
  by_cases enough : Packet.size ≤ e.inbox.length
  · simp only [if_pos enough, Traced.value_pure]
  · cases hf : e.finished with
    | true => simp only [if_neg enough, if_true, Traced.value_pure]
    | false =>
      simp only [if_neg enough, Bool.false_eq_true, if_false, failure, broken, shut, Bool.or_self,
        Traced.value_pure]

/-- Eight bytes that have come are read as a packet. -/
theorem Carries.receive_whole {chunk rest : Bytes} (carries : c.Carries (chunk ++ rest) closing)
    (whole : chunk.length = Packet.size) :
    ∃ packet, Packet.decode? chunk = some packet ∧ c.receive.value.1 = .packet packet ∧
      c.receive.value.2.Carries rest closing := by
  have decoded : (Packet.decode? chunk).isSome := by
    rw [Packet.isSome_decode?, whole]
    rfl
  obtain ⟨packet, decoded⟩ := Option.isSome_iff_exists.mp decoded
  obtain ⟨e, stream, inbox, still, reads⟩ := carries.receive_eq
  have enough : Packet.size ≤ (chunk ++ rest).length := by
    rw [List.length_append, whole]
    exact Nat.le_add_right _ _
  rw [if_pos enough, ← whole, List.take_left, List.drop_left] at reads
  unfold receive
  simp only [Traced.value_bind, Traced.value_pure, ← whole, reads, decoded]
  obtain ⟨established, _, f, same, _, finished, failure, broken, shut⟩ := carries
  obtain rfl : e = f := by
    rw [stream] at same
    exact Socket.stream.inj same
  exact ⟨packet, rfl, rfl, established, still, _, rfl, rfl, finished, failure, broken, shut⟩

/-- Fewer than eight bytes are waited on for more, as long as more may come. -/
theorem Carries.receive_waiting (carries : c.Carries unread false)
    (short : ¬ Packet.size ≤ unread.length) :
    c.receive.value.1 = .waiting ∧ c.receive.value.2.Carries unread false := by
  obtain ⟨e, _, _, still, reads⟩ := carries.receive_eq
  rw [if_neg short, if_neg (by decide)] at reads
  unfold receive
  simp only [Traced.value_bind, Traced.value_pure, reads]
  exact ⟨trivial, carries.established, still, carries.stream⟩

/-- Behind the last byte the connection has ended, and so inside a packet if there are bytes left. -/
theorem Carries.receive_over (carries : c.Carries unread true) (short : ¬ Packet.size ≤ unread.length) :
    c.receive.value.1 =
        .failure (if unread.isEmpty then .connectionTerminated else .malformedPacket) ∧
      c.receive.value.2.established = true := by
  obtain ⟨e, _, _, still, reads⟩ := carries.receive_eq
  rw [if_neg short, if_pos rfl] at reads
  unfold receive
  simp only [Traced.value_bind, Traced.value_pure, reads]
  refine ⟨?_, carries.established⟩
  cases unread.isEmpty <;> rfl

/-- A packet that was read is what the first eight bytes decode to. -/
theorem Carries.of_packet {packet : Packet} (carries : c.Carries unread closing)
    (arrival : c.receive.value.1 = .packet packet) :
    ∃ chunk rest, unread = chunk ++ rest ∧ Packet.decode? chunk = some packet ∧
      c.receive.value.2.Carries rest closing := by
  by_cases enough : Packet.size ≤ unread.length
  · have cut : unread = unread.take Packet.size ++ unread.drop Packet.size :=
      (List.take_append_drop _ _).symm
    have eight : (unread.take Packet.size).length = Packet.size := by
      rw [List.length_take, Nat.min_eq_left enough]
    rw [cut] at carries
    obtain ⟨found, decoded, same, still⟩ := carries.receive_whole eight
    rw [arrival] at same
    obtain rfl := Arrival.packet.inj same
    exact ⟨_, _, cut, decoded, still⟩
  · cases closing with
    | true =>
      rw [(carries.receive_over enough).1] at arrival
      cases arrival
    | false =>
      rw [(carries.receive_waiting enough).1] at arrival
      cases arrival

/-- What comes is put behind what is unread; behind the last byte nothing comes. -/
theorem Carries.come (carries : c.Carries unread closing) {bytes : Bytes}
    (last : closing = true → bytes = []) :
    (c.arrive (.data bytes)).Carries (unread ++ bytes) closing := by
  obtain ⟨established, calm, e, stream, rfl, finished, failure, broken, shut⟩ := carries
  unfold arrive
  rw [stream]
  refine ⟨established, calm, _, rfl, ?_⟩
  cases closing with
  | false =>
    simp only [Endpoint.arrive, finished, broken, shut, Bool.false_eq_true, if_false]
    exact ⟨trivial, trivial, failure, trivial, trivial⟩
  | true =>
    simp only [Endpoint.arrive, finished, last rfl, if_true, List.append_nil]
    exact ⟨trivial, trivial, failure, broken, shut⟩

theorem Carries.finish (carries : c.Carries unread closing) :
    (c.arrive .finish).Carries unread true := by
  obtain ⟨established, calm, e, stream, inbox, finished, failure, broken, shut⟩ := carries
  unfold arrive
  rw [stream]
  refine ⟨established, calm, _, rfl, ?_⟩
  simp only [Endpoint.arrive, broken, Bool.false_eq_true, if_false]
  exact ⟨inbox, trivial, failure, trivial, shut⟩

end Connection

end SerialLink
