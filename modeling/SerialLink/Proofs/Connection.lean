import SerialLink.Connection
import SerialLink.Proofs.History

/-!
# Reading and sending

What a read of a packet comes to (`Connection.readsTo_receive`): a packet is taken out of what has come, or
the end is at rest and nothing was changed, or no packet will ever come.  Sending takes nothing out of what
has come (`Connection.unread_send`), and a packet is either sent or refused (`Connection.deeds_send`).
Neither makes a connection that is closed usable again.
-/

namespace SerialLink

open Tcp Event

namespace Tcp

/-- An end at which nothing is to be read, and from which something can be sent: no whole packet has
come, and the connection has ended on neither side. -/
structure Endpoint.AtRest (e : Endpoint) : Prop where
  inbox : e.inbox.length < Packet.size
  finished : e.finished = false
  failure : e.failure = none
  broken : e.broken = false
  shut : e.shut = false

namespace Socket

/-- Whether a socket is shut down as far as a connection goes: from an end that is not shut something
may still come. -/
def IsShut (s : Socket) : Prop := ∀ e, s = .stream e → e.shut = true

theorem deeds_send (bytes : Bytes) (h : Host) (s : Socket) : deeds (s.send bytes h).trace = [] := by
  unfold send
  split
  · rfl
  split
  · rfl
  split
  · rfl
  split
  · split <;> rfl
  · rfl

/-- Sending changes nothing about a socket but that a failure shows. -/
theorem send_socket (bytes : Bytes) (h : Host) (s : Socket) :
    (s.send bytes h).value.2.1 = s ∨
      ∃ e, s = .stream e ∧ (s.send bytes h).value.2.1 = .stream { e with failure := none } := by
  unfold send
  split
  · exact .inl rfl
  split
  · exact .inl rfl
  split
  · exact .inl rfl
  split
  · rename_i _ _ _ _ e _
    cases hf : e.failure with
    | none =>
      left
      have hs : e.send = (if e.shut || e.broken then some .brokenPipe else none, e) := by
        unfold Endpoint.send
        rw [hf]
      rw [hs]
      cases e.shut || e.broken <;> rfl
    | some error =>
      right
      refine ⟨e, rfl, ?_⟩
      have hs : e.send = (some error, { e with failure := none }) := by
        unfold Endpoint.send
        rw [hf]
      rw [hs]
      rfl
  · exact .inl rfl

theorem deeds_readFailure (bytes : Bytes) (error : SystemError) (s : Socket) (h : Host) :
    deeds (readFailure bytes error s h).trace = [] := by
  unfold readFailure
  split <;> rfl

theorem deeds_receive (count : Nat) (h : Host) (s : Socket) :
    deeds (s.receive count h).trace = [] := by
  unfold receive
  split
  · rfl
  split
  · rfl
  split
  · exact deeds_readFailure _ _ _ _
  split
  · split
    · rfl
    · rfl
    · exact deeds_readFailure _ _ _ _
    · rfl
  · rfl
  · exact deeds_readFailure _ _ _ _

/-- What a read of a packet comes to: the bytes were there and are taken out, or the end is at rest, or
no packet will ever come. -/
inductive ReadsTo (s : Socket) (r : Received) : Prop
  | taken (e : Endpoint) (before : s = .stream e) (enough : Packet.size ≤ e.inbox.length)
      (bytes : r.bytes = e.inbox.take Packet.size) (status : r.status = .ok)
      (after : r.socket = .stream { e with inbox := e.inbox.drop Packet.size })
  | atRest (e : Endpoint) (before : s = .stream e) (rest : e.AtRest) (status : r.status = .waiting)
      (after : r.socket = s)
  | ended (status : r.status = .closed ∨ r.status = .truncated ∨ r.status = .error)
      (shut : s.IsShut → r.socket.IsShut)

theorem readsTo_readFailure (bytes : Bytes) (error : SystemError) (s t : Socket) (h : Host)
    (shut : s.IsShut → t.IsShut) : s.ReadsTo (readFailure bytes error t h).value := by
  unfold readFailure
  split
  · exact .ended (.inl rfl) shut
  · exact .ended (.inr (.inr rfl)) shut

theorem readsTo_ended (bytes : Bytes) (s t : Socket) (h : Host) (shut : s.IsShut → t.IsShut) :
    s.ReadsTo ⟨if bytes.isEmpty then .closed else .truncated, bytes, t, h⟩ := by
  cases bytes with
  | nil => exact .ended (.inl rfl) shut
  | cons => exact .ended (.inr (.inl rfl)) shut

theorem isShut_stream {e f : Endpoint} (h : f.shut = e.shut) :
    (Socket.stream e).IsShut → (Socket.stream f).IsShut := by
  intro shut g hg
  cases hg
  rw [h]
  exact shut e rfl

/-- Shutting an end down leaves what has come. -/
theorem isShut_shutdown (s : Socket) : s.shutdown.IsShut := by
  intro e he
  cases s with
  | closed | listener | unconnected => cases he
  | stream => cases he; rfl

theorem readsTo_receive (h : Host) (s : Socket) : s.ReadsTo (s.receive Packet.size h).value := by
  unfold receive
  split
  · exact .ended (.inr (.inr rfl)) id
  rw [if_neg (by decide)]
  split
  · exact readsTo_readFailure _ _ _ _ _ id
  split
  · rename_i e _
    unfold Endpoint.take
    by_cases hc : Packet.size ≤ e.inbox.length
    · rw [if_pos hc]
      exact .taken e rfl hc rfl rfl rfl
    rw [if_neg hc]
    cases hf : e.finished
    · cases hn : e.failure with
      | some error => exact readsTo_readFailure _ _ _ _ _ (isShut_stream rfl)
      | none =>
        cases hs : e.shut
        · cases hb : e.broken
          · exact .atRest e rfl ⟨Nat.lt_of_not_le hc, hf, hn, hb, hs⟩ rfl rfl
          · exact readsTo_ended _ _ _ _ (isShut_stream hs.symm)
        · exact readsTo_ended _ _ _ _ (isShut_stream hs.symm)
    · exact readsTo_ended _ _ _ _ (isShut_stream rfl)
  · exact .ended (.inl rfl) id
  · exact readsTo_readFailure _ _ _ _ _ id

end Socket

end Tcp

namespace Connection

/-- Whether the end of a connection is at rest. -/
def AtRest (c : Connection) : Prop := ∃ e, c.stream = .stream e ∧ e.AtRest

/-! ### Sending -/

theorem deeds_send (packet : Packet) (c : Connection) :
    deeds (c.send packet).trace =
      [if (c.send packet).value.1 then .sent packet else .refused packet] := by
  unfold send
  split
  · rfl
  · simp only [Traced.trace_bind, Traced.value_bind, deeds_append, Socket.deeds_send]
    cases (Socket.send packet.encode c.host c.stream).value.1 <;> rfl

theorem established_send (packet : Packet) (c : Connection) :
    (c.send packet).value.2.established = c.established := by
  unfold send
  split <;> rfl

theorem role_send (packet : Packet) (c : Connection) :
    (c.send packet).value.2.role = c.role := by
  unfold send
  split <;> rfl

/-- Only an established connection takes packets. -/
theorem established_of_send {packet : Packet} {c : Connection} (h : (c.send packet).value.1) :
    c.established := by
  unfold send at h
  split at h
  · cases h
  · rename_i he
    simpa using he

theorem stream_send (packet : Packet) (c : Connection) :
    (c.send packet).value.2.stream = c.stream ∨
      ∃ e, c.stream = .stream e ∧
        (c.send packet).value.2.stream = .stream { e with failure := Option.none } := by
  unfold send
  split
  · exact .inl rfl
  · exact Socket.send_socket packet.encode c.host c.stream

theorem unread_send (packet : Packet) (c : Connection) :
    (c.send packet).value.2.unread = c.unread := by
  unfold unread
  rcases stream_send packet c with h | ⟨e, he, h⟩
  · rw [h]
  · rw [h, he]

theorem isShut_send {packet : Packet} {c : Connection} (shut : c.stream.IsShut) :
    (c.send packet).value.2.stream.IsShut := by
  rcases stream_send packet c with h | ⟨e, he, h⟩
  · rw [h]
    exact shut
  · rw [he] at shut
    rw [h]
    exact Socket.isShut_stream (e := e) rfl shut

theorem atRest_send {packet : Packet} {c : Connection} (rest : c.AtRest) :
    (c.send packet).value.2.AtRest := by
  rcases stream_send packet c with h | ⟨e, he, h⟩
  · rw [AtRest, h]
    exact rest
  · obtain ⟨f, hf, rest⟩ := rest
    obtain rfl : e = f := by
      rw [he] at hf
      exact Socket.stream.inj hf
    exact ⟨_, h, rest.inbox, rest.finished, rfl, rest.broken, rest.shut⟩

/-- The answer that is due is sent or refused, and nothing else is. -/
theorem deeds_answer (reply : Option Packet) (c : Connection) :
    deeds (c.answer reply).trace = reply.toList.map fun packet =>
      if (c.answer reply).value.1 then .sent packet else .refused packet := by
  cases reply with
  | none => rfl
  | some packet => exact deeds_send packet c

/-- What has nothing to do with sending passes an answer over. -/
theorem filterMap_answer {α : Type} {view : Event → Option α} (sent : ∀ packet, view (.sent packet) = Option.none)
    (refused : ∀ packet, view (.refused packet) = Option.none) (reply : Option Packet) (c : Connection) :
    (deeds (c.answer reply).trace).filterMap view = [] := by
  rw [deeds_answer, List.filterMap_map]
  refine List.filterMap_eq_nil_iff.mpr fun packet _ => ?_
  show view (if _ then _ else _) = _
  split
  · exact sent packet
  · exact refused packet

theorem answer_eq (reply : Option Packet) (c : Connection) :
    (c.answer reply).value.2 = c ∨ ∃ packet, (c.answer reply).value.2 = (c.send packet).value.2 := by
  cases reply with
  | none => exact .inl rfl
  | some packet => exact .inr ⟨packet, rfl⟩

/-! ### Reading -/

theorem deeds_receive (c : Connection) : deeds c.receive.trace = [] := by
  unfold receive
  rw [Traced.trace_bind, deeds_append, Socket.deeds_receive]
  rfl

/-- What reading a packet comes to: a packet is taken out of what has come, or the end is at rest, or no
packet will ever come. -/
inductive ReadsTo (c d : Connection) : Arrival → Prop
  | packet (e : Endpoint) (packet : Packet) (before : c.stream = .stream e)
      (enough : Packet.size ≤ e.inbox.length)
      (decoded : Packet.decode? (e.inbox.take Packet.size) = some packet)
      (after : d.stream = .stream { e with inbox := e.inbox.drop Packet.size }) :
      ReadsTo c d (.packet packet)
  | atRest (rest : d.AtRest) (same : d.stream = c.stream) : ReadsTo c d .waiting
  | ended (reason : Failure) (shut : c.stream.IsShut → d.stream.IsShut) : ReadsTo c d (.failure reason)

theorem readsTo_receive (c : Connection) : c.ReadsTo c.receive.value.2 c.receive.value.1 := by
  have hr := Socket.readsTo_receive c.host c.stream
  unfold receive
  simp only [Traced.value_bind, Traced.value_pure]
  generalize (Socket.receive Packet.size c.host c.stream).value = r at hr
  cases hr with
  | taken e before enough bytes status after =>
    -- Eight bytes always make a packet.
    have decoded : (Packet.decode? r.bytes).isSome := by
      rw [Packet.isSome_decode?, bytes, List.length_take, Nat.min_eq_left enough]
      rfl
    obtain ⟨packet, hp⟩ := Option.isSome_iff_exists.mp decoded
    rw [status]
    simp only [hp]
    exact .packet e packet before enough (bytes ▸ hp) after
  | atRest e before rest status after =>
    rw [status]
    exact .atRest ⟨e, after.trans before, rest⟩ after
  | ended status shut =>
    rcases status with hs | hs | hs <;> rw [hs] <;> exact .ended _ shut

/-- Reading fails only because nothing more will come, inside a packet or behind one. -/
theorem failure_receive {c : Connection} {reason : Failure}
    (failed : c.receive.value.1 = .failure reason) :
    reason = .malformedPacket ∨ reason = .connectionTerminated := by
  unfold receive at failed
  simp only [Traced.value_bind, Traced.value_pure] at failed
  split at failed
  · split at failed
    · cases failed
    · cases failed
      exact .inl rfl
  · cases failed
    exact .inl rfl
  · cases failed
    exact .inr rfl
  · cases failed
    exact .inr rfl
  · cases failed

/-! ### What comes from the peer -/

theorem established_arrive (segment : Segment) (c : Connection) :
    (c.arrive segment).established = c.established := by
  unfold arrive
  split <;> rfl

theorem role_arrive (segment : Segment) (c : Connection) : (c.arrive segment).role = c.role := by
  unfold arrive
  split <;> rfl

end Connection

end SerialLink
