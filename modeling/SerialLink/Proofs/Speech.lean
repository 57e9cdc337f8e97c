import SerialLink.Proofs.Listening
import SerialLink.Proofs.Session

/-!
# What a peer says

What a peer says over a connection is a stream of bytes and, in the end, that nothing more will come
(`Speech`).  Whatever it is cut into, and with whatever packet it ends, the receiver attends to it as long as it is
not over (`Session.Attends`): with each segment it handles the packets that are heard in addition
(`Session.Attends.arrive`), and when all is said it has ended.
-/

namespace SerialLink

open Event

/-- What the peer has said over a connection so far. -/
structure Speech where
  bytes : Bytes
  /-- Whether it has ended the connection. -/
  ended : Bool := false
  deriving DecidableEq, Repr

namespace Speech

/-- The peer goes on.  Behind the end nothing comes. -/
def come (segment : Tcp.Segment) (s : Speech) : Speech :=
  if s.ended then s
  else
    match segment with
    | .data bytes => { s with bytes := s.bytes ++ bytes }
    | .finish | .reset => { s with ended := true }

/-- The packets that are heard. -/
def packets (s : Speech) : List Packet := Packet.heard (Packet.ofStream s.bytes)

/-- The bits that packets bring. -/
def bitsOf (packets : List Packet) : List UInt8 := (packets.filter (·.isSync)).map (·.b2 &&& 1)

/-- The bits that are heard. -/
def bits (s : Speech) : List UInt8 := bitsOf s.packets

/-- Whether nothing more is heard: the peer has ended the connection, or said a packet with which it ends. -/
def IsOver (s : Speech) : Prop := s.ended = true ∨ Packet.Ends (Packet.ofStream s.bytes)

variable {s : Speech} {segment : Tcp.Segment}

theorem bitsOf_append (a b : List Packet) : bitsOf (a ++ b) = bitsOf a ++ bitsOf b := by
  rw [bitsOf, List.filter_append, List.map_append]
  rfl

/-- The bits of the packets that were handled are those that came. -/
theorem bitsOf_heard (h : List Event) : bitsOf (heard h) = received h := by
  induction h with
  | nil => rfl
  | cons event rest ih =>
    cases event with
    | handled packet reply =>
      have split : bitsOf (heard (.handled packet reply :: rest)) =
          bitsOf [packet] ++ bitsOf (heard rest) := bitsOf_append [packet] _
      rw [split, ih]
      cases bit : packet.isSync <;> simp [bitsOf, received, bit]
    | _ => exact ih

/-- Behind its end a speech does not change as far as it is heard. -/
theorem IsOver.come (gone : s.IsOver) : (s.come segment).IsOver ∧ (s.come segment).packets = s.packets := by
  unfold Speech.come
  split
  · exact ⟨gone, rfl⟩
  · next unfinished =>
    have ends : Packet.Ends (Packet.ofStream s.bytes) := gone.resolve_left unfinished
    cases segment with
    | data bytes =>
      obtain ⟨packet, mem, ending⟩ := ends
      refine ⟨.inr ⟨packet, (Packet.ofStream_prefix s.bytes bytes).subset mem, ending⟩, ?_⟩
      exact Packet.heard_stream_append ⟨packet, mem, ending⟩ bytes
    | finish | reset => exact ⟨.inl rfl, rfl⟩

/-- A speech goes on behind whole packets and what is left of one. -/
theorem packets_append {taken unread bytes : Bytes} (whole : taken.length % Packet.size = 0)
    (short : unread.length < Packet.size) (going : ∀ p ∈ Packet.ofStream (taken ++ unread), p.ending? = none) :
    Packet.heard (Packet.ofStream (taken ++ unread ++ bytes)) =
      Packet.heard (Packet.ofStream (taken ++ unread)) ++ Packet.heard (Packet.ofStream (unread ++ bytes)) := by
  have front : Packet.ofStream (taken ++ unread) = Packet.ofStream taken := by
    rw [Packet.ofStream_append whole, Packet.ofStream_of_short short, List.append_nil]
  rw [Packet.heard_of_not_ends going]
  rw [front] at going ⊢
  rw [List.append_assoc, Packet.ofStream_append whole]
  generalize Packet.ofStream taken = packets at going
  induction packets with
  | nil => rfl
  | cons p rest ih =>
    have first : p.ending? = none := going p (List.mem_cons_self ..)
    have later := ih fun q mem => going q (List.mem_cons_of_mem p mem)
    rw [List.cons_append, Packet.heard, first, later]
    rfl

theorem heard_prefix (a b : List Packet) : Packet.heard a <+: Packet.heard (a ++ b) := by
  induction a with
  | nil => exact List.nil_prefix
  | cons p rest ih =>
    rw [List.cons_append, Packet.heard, Packet.heard]
    split
    · exact List.prefix_refl _
    · exact (List.prefix_cons_inj p).mpr ih

/-- What was heard is not taken back. -/
theorem bits_come (segment : Tcp.Segment) (s : Speech) : s.bits <+: (s.come segment).bits := by
  have packets : s.packets <+: (s.come segment).packets := by
    unfold Speech.come
    split
    · exact List.prefix_refl _
    cases segment with
    | data bytes =>
      obtain ⟨more, stream⟩ := Packet.ofStream_prefix s.bytes bytes
      show Packet.heard (Packet.ofStream s.bytes) <+: Packet.heard (Packet.ofStream (s.bytes ++ bytes))
      rw [← stream]
      exact heard_prefix _ more
    | finish | reset => exact List.prefix_refl _
  obtain ⟨more, split⟩ := packets
  rw [bits, bits, ← split, bitsOf_append]
  exact List.prefix_append _ _

end Speech

/-! ### Attending -/

namespace Session

variable {s t : Session Registers} {speech : Speech} {unread : Bytes}

/-- Whether the receiver has followed a speech so far: it listens, and what it has not read is no whole packet;
or it has ended, and the speech is over. -/
inductive Attends (speech : Speech) (s : Session Registers) : Prop
  | listening (taken unread : Bytes) (split : speech.bytes = taken ++ unread)
      (whole : taken.length % Packet.size = 0) (short : unread.length < Packet.size)
      (working : s.receiver.running = true) (unfinished : speech.ended = false)
      (going : ∀ p ∈ Packet.ofStream speech.bytes, p.ending? = none)
      (carries : s.connection.Carries unread false)
  | ended (stopped : s.receiver.running = false) (gone : speech.IsOver)

/-- A port whose registers answer leaves the connection alone. -/
theorem isQuiet_registers : IsQuiet Registers := fun _ => rfl

/-- What one look at a connection comes to over which a whole packet has come. -/
theorem receiveNext_of_whole (carries : s.connection.Carries unread false) (working : s.receiver.running = true)
    (enough : Packet.size ≤ unread.length) :
    ∃ packet, Packet.ofStream unread = packet :: Packet.ofStream (unread.drop Packet.size) ∧
      heard s.receiveNext.trace = [packet] ∧
      (packet.ending? = none ∧ s.receiveNext.value.1 = true ∧
          s.receiveNext.value.2.receiver.running = true ∧
          s.receiveNext.value.2.connection.Carries (unread.drop Packet.size) false ∨
        packet.ending?.isSome ∧ s.receiveNext.value.1 = false ∧
          s.receiveNext.value.2.receiver.running = false) := by
  have cut : unread = unread.take Packet.size ++ unread.drop Packet.size :=
    (List.take_append_drop _ _).symm
  have eight : (unread.take Packet.size).length = Packet.size := by
    rw [List.length_take, Nat.min_eq_left enough]
  rw [cut] at carries
  obtain ⟨packet, decoded, arrival, still⟩ := carries.receive_whole eight
  have quietly : heard s.connection.receive.trace = [] := heard_of_silent (Connection.deeds_receive s.connection)
  have next : s.receiveNext.value =
      ((takePacket packet { s with connection := s.connection.receive.value.2 }).value.receiver.running,
        (takePacket packet { s with connection := s.connection.receive.value.2 }).value) := by
    unfold Session.receiveNext
    rw [working, if_neg (by decide)]
    simp only [arrival, Traced.value_bind, Traced.value_pure]
  refine ⟨packet, ?_, ?_, ?_⟩
  · have front := Packet.ofStream_append_of_decode? decoded (unread.drop Packet.size)
    rw [List.take_append_drop] at front
    exact front
  · unfold Session.receiveNext
    rw [working, if_neg (by decide)]
    simp only [arrival, Traced.trace_bind, Traced.trace_pure, List.append_nil, heard_append, quietly,
      heard_takePacket, List.nil_append]
  · have value := value_takePacket_of_carries isQuiet_registers
      (s := { s with connection := s.connection.receive.value.2 }) still packet
    have answered := (answering_of_carries isQuiet_registers
      (s := { s with connection := s.connection.receive.value.2 }) still packet).2
    rw [next]
    cases ending : packet.ending? with
    | none =>
      rw [ending] at value
      rw [value]
      exact .inl ⟨rfl, working, working, answered⟩
    | some reason =>
      rw [ending] at value
      rw [value]
      exact .inr ⟨rfl, rfl, rfl⟩

/-- **What the receiver makes of what has come**: it handles the packets that are heard, and goes on listening
unless the connection ends with one of them. -/
theorem hears_pumpUpTo {times : Nat} (carries : s.connection.Carries unread false)
    (working : s.receiver.running = true) (enough : unread.length < Packet.size * times) :
    heard (s.pumpUpTo times).trace = Packet.heard (Packet.ofStream unread) ∧
      ((s.pumpUpTo times).value.receiver.running = true ∧
          (∀ p ∈ Packet.ofStream unread, p.ending? = none) ∧
          (∃ taken rest, unread = taken ++ rest ∧ taken.length % Packet.size = 0 ∧
            rest.length < Packet.size ∧ (s.pumpUpTo times).value.connection.Carries rest false) ∨
        (s.pumpUpTo times).value.receiver.running = false ∧ Packet.Ends (Packet.ofStream unread)) := by
  induction times generalizing s unread with
  | zero => exact absurd enough (Nat.not_lt_zero _)
  | succ times ih =>
    rw [pumpUpTo_succ, Traced.trace_bind, Traced.value_bind, heard_append]
    by_cases whole : Packet.size ≤ unread.length
    · obtain ⟨packet, stream, first, ⟨going, more, still, later⟩ | ⟨ending, done, stopped⟩⟩ :=
        receiveNext_of_whole carries working whole
      · have fewer : (unread.drop Packet.size).length < Packet.size * times := by
          rw [List.length_drop]
          rw [Nat.mul_succ] at enough
          omega
        obtain ⟨others, ends⟩ := ih later still fewer
        rw [more, if_pos rfl, first, others, stream, Packet.heard, going]
        refine ⟨rfl, ends.imp ?_ ?_⟩
        · rintro ⟨on, calm, taken, rest, split, eights, short, carries⟩
          refine ⟨on, List.forall_mem_cons.mpr ⟨going, calm⟩, unread.take Packet.size ++ taken, rest, ?_, ?_, short,
            carries⟩
          · rw [List.append_assoc, ← split, List.take_append_drop]
          · rw [List.length_append, List.length_take, Nat.min_eq_left whole, Nat.add_mod_left]
            exact eights
        · rintro ⟨off, packet, mem, ending⟩
          exact ⟨off, packet, List.mem_cons_of_mem _ mem, ending⟩
      · rw [done, if_neg (by decide), first, stream, Packet.heard, if_pos ending]
        exact ⟨rfl, .inr ⟨stopped, packet, List.mem_cons_self .., ending⟩⟩
    · obtain ⟨arrival, still⟩ := carries.receive_waiting whole
      have quietly := heard_of_silent (Connection.deeds_receive s.connection)
      have short : unread.length < Packet.size := Nat.lt_of_not_le whole
      have waits : s.receiveNext.value = (false, { s with connection := s.connection.receive.value.2 }) ∧
          heard s.receiveNext.trace = [] := by
        unfold Session.receiveNext
        rw [working, if_neg (by decide)]
        simp only [arrival, Traced.value_bind, Traced.value_pure, Traced.trace_bind, Traced.trace_pure,
          List.append_nil, quietly, and_self]
      rw [waits.1, waits.2, if_neg Bool.false_ne_true, Packet.ofStream_of_short short]
      exact ⟨rfl, .inl ⟨working, List.forall_mem_nil _, [], unread, rfl, rfl, short, still⟩⟩

/-- The bound on the looks that the receiver takes is high enough. -/
theorem hears_pump (carries : s.connection.Carries unread false) (working : s.receiver.running = true) :
    heard s.pump.trace = Packet.heard (Packet.ofStream unread) ∧
      (s.pump.value.receiver.running = true ∧ (∀ p ∈ Packet.ofStream unread, p.ending? = none) ∧
          (∃ taken rest, unread = taken ++ rest ∧ taken.length % Packet.size = 0 ∧
            rest.length < Packet.size ∧ s.pump.value.connection.Carries rest false) ∨
        s.pump.value.receiver.running = false ∧ Packet.Ends (Packet.ofStream unread)) := by
  refine hears_pumpUpTo carries working ?_
  rw [← unread_of_carries carries]
  exact Nat.lt_mul_div_succ _ (by decide)

/-- Where less than a packet is unread and no more will come the receiver ends, and handles nothing before. -/
theorem pump_of_over {e : Tcp.Endpoint} (working : s.receiver.running = true) (stream : s.connection.stream = .stream e)
    (short : e.inbox.length < Packet.size) (gone : e.finished = true ∨ e.broken = true) :
    heard s.pump.trace = [] ∧ s.pump.value.receiver.running = false := by
  have look := look_receiveNext s
  have ends : deeds s.receiveNext.trace = [] ∧ s.receiveNext.value.1 = false ∧
      s.receiveNext.value.2.receiver.running = false := by
    cases look with
    | idle stopped =>
      rw [working] at stopped
      cases stopped
    | packet _ _ _ _ reads =>
      cases reads with
      | packet f _ before enough =>
        rw [stream] at before
        cases before
        omega
    | ended _ _ _ _ _ _ _ silent value =>
      rw [value]
      exact ⟨silent, rfl, rfl⟩
    | atRest _ t _ reads =>
      cases reads with
      | atRest rest same =>
        obtain ⟨f, there, rest⟩ := rest
        rw [same, stream] at there
        cases there
        rcases gone with finished | broken
        · rw [rest.finished] at finished
          cases finished
        · rw [rest.broken] at broken
          cases broken
  obtain ⟨silent, done, stopped⟩ := ends
  unfold Session.pump
  rw [pumpUpTo_succ, Traced.trace_bind, Traced.value_bind, done, if_neg (by decide), Traced.trace_pure,
    List.append_nil]
  exact ⟨heard_of_silent silent, stopped⟩

/-- Only the receiver and what the connection carries count. -/
theorem Attends.of_eq (attends : s.Attends speech) (receiver : t.receiver = s.receiver)
    (carries : ∀ unread, s.connection.Carries unread false → t.connection.Carries unread false) :
    t.Attends speech := by
  cases attends with
  | listening taken unread split whole short working unfinished going still =>
    exact .listening taken unread split whole short (receiver ▸ working) unfinished going (carries unread still)
  | ended stopped gone => exact .ended (receiver ▸ stopped) gone

/-- As long as the receiver is at work a packet that is sent goes out. -/
theorem Attends.carries (attends : s.Attends speech) (working : s.receiver.running = true) :
    ∃ unread, s.connection.Carries unread false := by
  cases attends with
  | listening _ unread _ _ _ _ _ _ carries => exact ⟨unread, carries⟩
  | ended stopped =>
    rw [working] at stopped
    cases stopped

/-- When all is said the receiver has ended. -/
theorem Attends.stopped (attends : s.Attends speech) (gone : speech.IsOver) : s.receiver.running = false := by
  cases attends with
  | listening _ _ _ _ _ _ unfinished going =>
    rcases gone with gone | ⟨packet, mem, ending⟩
    · rw [unfinished] at gone
      cases gone
    · rw [going packet mem] at ending
      cases ending
  | ended stopped => exact stopped

/-- **The receiver goes on attending**: of each segment it handles the packets that are heard in addition. -/
theorem Attends.arrive (attends : s.Attends speech) (segment : Tcp.Segment) :
    (s.arrive segment).value.Attends (speech.come segment) ∧
      (speech.come segment).packets = speech.packets ++ heard (s.arrive segment).trace := by
  cases attends with
  | listening taken unread split whole short working unfinished going carries =>
    have come : speech.come segment = match segment with
        | .data bytes => { speech with bytes := speech.bytes ++ bytes }
        | .finish | .reset => { speech with ended := true } := by
      unfold Speech.come
      rw [unfinished]
      rfl
    rw [come]
    have leaving : ∀ e : Tcp.Endpoint, (s.connection.arrive segment).stream = .stream e → e.inbox = unread →
        e.finished = true ∨ e.broken = true →
        heard (s.arrive segment).trace = [] ∧ (s.arrive segment).value.receiver.running = false := by
      intro e stream inbox gone
      subst inbox
      exact pump_of_over (s := { s with connection := s.connection.arrive segment }) working stream short gone
    obtain ⟨e, stream, inbox, finished, _, broken, shut⟩ := carries.stream
    cases segment with
    | data bytes =>
      have more : (s.connection.arrive (.data bytes)).Carries (unread ++ bytes) false := carries.come nofun
      obtain ⟨handled, next⟩ := hears_pump (s := { s with connection := s.connection.arrive (.data bytes) }) more
        working
      have trace : heard (s.arrive (.data bytes)).trace = Packet.heard (Packet.ofStream (unread ++ bytes)) := handled
      have packets : Speech.packets { speech with bytes := speech.bytes ++ bytes } =
          speech.packets ++ heard (s.arrive (.data bytes)).trace := by
        rw [trace, Speech.packets, Speech.packets, split]
        exact Speech.packets_append whole short (split ▸ going)
      refine ⟨?_, packets⟩
      have stream_eq : Packet.ofStream (speech.bytes ++ bytes) =
          Packet.ofStream taken ++ Packet.ofStream (unread ++ bytes) := by
        rw [split, List.append_assoc, Packet.ofStream_append whole]
      have front : ∀ p ∈ Packet.ofStream taken, p.ending? = none := by
        intro p mem
        refine going p ?_
        rw [split]
        exact (Packet.ofStream_prefix taken unread).subset mem
      rcases next with ⟨on, calm, more, rest, cut, eights, few, still⟩ | ⟨off, packet, mem, ending⟩
      · refine .listening (taken ++ more) rest ?_ ?_ few on unfinished ?_ still
        · show speech.bytes ++ bytes = _
          rw [split, List.append_assoc, List.append_assoc, cut]
        · rw [List.length_append, Nat.add_mod, whole, eights]
          rfl
        · intro p mem
          have mem : p ∈ Packet.ofStream (speech.bytes ++ bytes) := mem
          rw [stream_eq, List.mem_append] at mem
          exact mem.elim (front p) (calm p)
      · refine .ended off (.inr ⟨packet, ?_, ending⟩)
        show packet ∈ Packet.ofStream (speech.bytes ++ bytes)
        rw [stream_eq]
        exact List.mem_append_right _ mem
    | finish =>
      obtain ⟨silent, stopped⟩ := leaving { e with finished := true }
        (by simp [Connection.arrive, stream, Tcp.Endpoint.arrive, broken]) inbox (.inl rfl)
      rw [silent, List.append_nil]
      exact ⟨.ended stopped (.inl rfl), rfl⟩
    | reset =>
      obtain ⟨silent, stopped⟩ := leaving e.breakDown
        (by simp [Connection.arrive, stream, Tcp.Endpoint.arrive, broken, shut]) inbox (.inr rfl)
      rw [silent, List.append_nil]
      exact ⟨.ended stopped (.inl rfl), rfl⟩
  | ended stopped gone =>
    have idle : s.arrive segment = pure { s with connection := s.connection.arrive segment } :=
      pumpUpTo_of_stopped (s := { s with connection := s.connection.arrive segment }) stopped _
    rw [idle, gone.come.2]
    exact ⟨.ended stopped gone.come.1, (List.append_nil _).symm⟩

/-- A receiver that is started on a connection that works attends to what has come before, and its bits are
queued. -/
theorem attends_start {early : Bytes} {closing : Bool} (carries : s.connection.Carries early closing)
    (unstarted : s.receiver.started = false) (fresh : s.queue = .fresh) :
    s.start.value.2.Attends ⟨early, closing⟩ ∧
      s.start.value.2.queue.items = ((Speech.mk early closing).packets.filter (·.isSync)).map Protocol.itemOf := by
  have opened : s.queue.closed = false := by rw [fresh]; rfl
  have none : s.queue.items = [] := by rw [fresh]; rfl
  rw [(start_of_carries carries unstarted).1]
  obtain ⟨follows, stops⟩ := (follows_greeted carries opened).pumpUpTo isQuiet_registers
    (s.greeted.connection.unread / Packet.size + 1)
  have rest := atRest_pump s.greeted
  rcases follows with ⟨taken, unread, split, listens⟩ | ⟨ended, final⟩
  · obtain ⟨working, _, whole, going, carried, shows, _⟩ := listens
    have unfinished : closing = false := by
      cases closing with
      | false => rfl
      | true =>
        have stopped := stops rfl (Nat.lt_mul_div_succ _ (by decide))
        rw [working] at stopped
        cases stopped
    subst unfinished
    obtain ⟨e, stream, rest⟩ := rest working
    obtain ⟨f, there, inbox, _⟩ := carried.stream
    have short : unread.length < Packet.size := by
      have there : s.greeted.pump.value.connection.stream = .stream f := there
      rw [stream] at there
      cases there
      exact inbox ▸ rest.inbox
    have same : Packet.ofStream early = Packet.ofStream taken := by
      rw [split, Packet.ofStream_append whole, Packet.ofStream_of_short short, List.append_nil]
    refine ⟨.listening taken unread split whole short working rfl (same ▸ going) carried, ?_⟩
    rw [Speech.packets, same, Packet.heard_of_not_ends going]
    have items := shows.items
    rw [none] at items
    exact items
  · refine ⟨.ended ended.stopped final, ?_⟩
    have items := ended.shows.items
    rw [none] at items
    exact items

end Session

end SerialLink
