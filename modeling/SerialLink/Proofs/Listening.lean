import SerialLink.Proofs.Queue
import SerialLink.Proofs.Transport
import SerialLink.Proofs.Turns

/-!
# Listening to a stream

A receiver hears what its peer says, however the network cuts it up.  Over a connection that works each state
of the receiver is told by the bytes that have come so far alone: it still listens, and has handled whole
packets of them (`Session.Listens`), or it has ended, and they say with which packet and why
(`Session.Ended`).  All turns keep that (`Session.Follows.turns`), so that when the peer has ended the
connection the stream as a whole tells everything (`Session.hears_stream`).
-/

namespace SerialLink

open Event

namespace Session

variable {π : Type} [Responder π] {first s : Session π} {stream unread : Bytes} {closing : Bool}
  {h : List Event} {packets : List Packet}

/-! ### What the packets leave behind -/

/-- What a session shows of the packets that its receiver has handled: their number, the time that the last
one told, and the bits that they brought. -/
structure Shows (first : Session π) (packets : List Packet) (s : Session π) : Prop where
  count : s.receiver.packetCount = UInt32.ofNat packets.length
  received : s.clock.received =
    (packets.getLast?.map fun p => p.timestamp &&& timestampMask).getD first.clock.received
  items : s.queue.items =
    first.queue.items ++ (packets.filter (·.isSync)).map Protocol.itemOf

/-- Whether a port leaves the connection alone. -/
def IsQuiet (π : Type) [Responder π] : Prop := ∀ port : π, (Responder.takeHangUp port).1 = false

theorem connection_handled (quiet : IsQuiet π) (packet : Packet) (outcome : Protocol.Outcome π) :
    (s.handled packet outcome).connection = s.connection := by
  show (if (Responder.takeHangUp outcome.port).1 then s.connection.close else s.connection) = _
  rw [quiet]
  rfl

/-- Over a connection that works the answer to a packet goes out. -/
theorem answering_of_carries (quiet : IsQuiet π) (carries : s.connection.Carries unread closing)
    (packet : Packet) : (s.answering packet).value.1 = true ∧
      (s.answering packet).value.2.connection.Carries unread closing := by
  have same := connection_handled (s := s) quiet packet (s.outcome packet).value
  rw [← same] at carries
  exact carries.answer _

theorem Shows.answering (shows : Shows first packets s) (opened : s.queue.closed = false)
    (packet : Packet) : Shows first (packets ++ [packet]) (s.answering packet).value.2 := by
  obtain ⟨count, received, items⟩ := shows
  constructor
  · show s.receiver.packetCount + 1 = _
    rw [count, List.length_append, List.length_singleton, UInt32.ofNat_add]
    rfl
  · rw [List.getLast?_concat]
    rfl
  · show (s.outcome packet).value.queue.items = _
    have queue : (s.outcome packet).value.queue =
        if packet.isSync then s.queue.push (Protocol.itemOf packet) else s.queue :=
      Protocol.queue_handle ..
    rw [queue, List.filter_append, List.map_append, ← List.append_assoc, ← items]
    cases bit : packet.isSync with
    | true => simp [BitQueue.items_push, opened, bit]
    | false => simp [bit]

omit [Responder π] in
theorem Shows.finish (shows : Shows first packets s) (reason : Failure) :
    Shows first packets (s.finish reason).value :=
  ⟨shows.count, shows.received, (BitQueue.items_close _).trans shows.items⟩

theorem closed_answering (opened : s.queue.closed = false) (packet : Packet) :
    (s.answering packet).value.2.queue.closed = false := by
  show (s.outcome packet).value.queue.closed = false
  have queue : (s.outcome packet).value.queue =
      if packet.isSync then s.queue.push (Protocol.itemOf packet) else s.queue :=
    Protocol.queue_handle ..
  rw [queue]
  split
  · exact (BitQueue.closed_push _ _).trans opened
  · exact opened

/-- A packet that was answered is the last one if the connection ends with it. -/
theorem value_takePacket_of_carries (quiet : IsQuiet π) (carries : s.connection.Carries unread closing)
    (packet : Packet) : (s.takePacket packet).value =
      match packet.ending? with
      | some reason => ((s.answering packet).value.2.finish reason).value
      | none => (s.answering packet).value.2 := by
  have fatal : isFatal (s.outcome packet).value.failure = packet.ending? := Protocol.isFatal_handle ..
  rw [value_takePacket, (answering_of_carries quiet carries packet).1, proceed, if_neg (by decide), fatal]
  cases packet.ending? <;> rfl

/-! ### The receiver on its way through a stream -/

/-- The receiver listens.  It has handled the whole packets that some bytes make up, with none of which the
connection ends, and the bytes behind them are unread. -/
structure Listens (first : Session π) (taken unread : Bytes) (closing : Bool) (h : List Event)
    (s : Session π) : Prop where
  working : s.receiver.running = true
  opened : s.queue.closed = false
  whole : taken.length % Packet.size = 0
  going : ∀ p ∈ Packet.ofStream taken, p.ending? = none
  carries : s.connection.Carries unread closing
  shows : Shows first (Packet.ofStream taken) s
  handled : heard h = Packet.ofStream taken

/-- The receiver has ended, as the stream says. -/
structure Ended (first : Session π) (stream : Bytes) (h : List Event) (s : Session π) : Prop where
  stopped : s.receiver.running = false
  error : s.receiver.error = some (Packet.verdict stream)
  closed : s.queue.closed = true
  gone : s.connection.established = false
  shows : Shows first (Packet.heard (Packet.ofStream stream)) s
  handled : heard h = Packet.heard (Packet.ofStream stream)

omit [Responder π] in
/-- The receiver ends as the stream says, if the packets that it has handled are all that can be heard and the
reason is the right one. -/
theorem ended_finish {reason : Failure} (shows : Shows first packets s) (handled : heard h = packets)
    (all : Packet.heard (Packet.ofStream stream) = packets) (cause : Packet.verdict stream = reason) :
    Ended first stream h (s.finish reason).value := by
  subst all cause
  exact ⟨rfl, rfl, BitQueue.closed_close _, rfl, shows.finish _, handled⟩

/-- Handling a packet brings a receiver that listens one packet on, or to the end. -/
theorem Listens.takePacket (quiet : IsQuiet π) {taken chunk rest : Bytes} {packet : Packet}
    (listens : Listens first taken rest closing h s) (decoded : Packet.decode? chunk = some packet) :
    ((s.takePacket packet).value.receiver.running = true ∧
        Listens first (taken ++ chunk) rest closing (h ++ (s.takePacket packet).trace)
          (s.takePacket packet).value) ∨
      ((s.takePacket packet).value.receiver.running = false ∧
        Ended first (taken ++ chunk ++ rest) (h ++ (s.takePacket packet).trace)
          (s.takePacket packet).value ∧ Packet.Ends (Packet.ofStream (taken ++ chunk ++ rest))) := by
  obtain ⟨working, opened, whole, going, carries, shows, handled⟩ := listens
  have value := value_takePacket_of_carries quiet carries packet
  have still := (answering_of_carries quiet carries packet).2
  have more := shows.answering opened packet
  have now : heard (h ++ (s.takePacket packet).trace) = Packet.ofStream taken ++ [packet] := by
    rw [heard_append, handled, heard_takePacket]
  have further : (taken ++ chunk).length % Packet.size = 0 := by
    rw [List.length_append, Packet.length_of_decode? decoded, Nat.add_mod_right]
    exact whole
  have front := Packet.ofStream_concat whole decoded
  cases ending : packet.ending? with
  | none =>
    rw [ending] at value
    rw [← front] at more now
    rw [value]
    refine .inl ⟨working, working, closed_answering opened packet, further, ?_, still, more, now⟩
    intro p mem
    rw [front] at mem
    rcases List.mem_append.mp mem with mem | mem
    · exact going p mem
    · rw [List.mem_singleton.mp mem]
      exact ending
  | some reason =>
    rw [ending] at value
    have all := Packet.ofStream_append further rest
    rw [front] at all
    have ends : Packet.Ends (Packet.ofStream taken ++ [packet]) :=
      ⟨packet, List.mem_append_right _ (List.mem_singleton.mpr rfl), by rw [ending]; rfl⟩
    have last : Packet.heard (Packet.ofStream (taken ++ chunk ++ rest)) =
        Packet.ofStream taken ++ [packet] := by
      rw [all, Packet.heard_append_of_ends ends, Packet.heard_concat going]
    have cause : Packet.verdict (taken ++ chunk ++ rest) = reason := by
      rw [Packet.verdict, all, Packet.findSome?_append_of_ends ends, List.findSome?_append,
        Packet.findSome?_of_not_ends going, List.findSome?_singleton, ending]
      rfl
    rw [value]
    refine .inr ⟨rfl, ended_finish more now last cause, ?_⟩
    obtain ⟨p, mem, ending⟩ := ends
    rw [all]
    exact ⟨p, List.mem_append_left _ mem, ending⟩

omit [Responder π] in
/-- A receiver that listens and finds the connection at its end has heard the whole stream. -/
theorem Listens.finish {taken : Bytes} {k : List Event}
    (listens : Listens first taken unread closing h s) (short : unread.length < Packet.size)
    (silent : deeds k = []) (c : Connection) :
    Ended first (taken ++ unread) (h ++ k) ({ s with connection := c }.finish
      (if unread.isEmpty then .connectionTerminated else .malformedPacket)).value := by
  obtain ⟨_, _, whole, going, _, shows, handled⟩ := listens
  have now : heard (h ++ k) = Packet.ofStream taken := by
    rw [heard_append, heard_of_silent silent, List.append_nil]
    exact handled
  have all : Packet.ofStream (taken ++ unread) = Packet.ofStream taken := by
    rw [Packet.ofStream_append whole, Packet.ofStream_of_short short, List.append_nil]
  refine ended_finish ⟨shows.count, shows.received, shows.items⟩ now ?_ ?_
  · rw [all, Packet.heard_of_not_ends going]
  · rw [Packet.verdict, all, Packet.findSome?_of_not_ends going, List.length_append]
    cases unread with
    | nil => exact if_pos whole
    | cons byte rest =>
      refine if_neg ?_
      rw [List.length_cons, Packet.size] at short
      rw [List.length_cons]
      rw [Packet.size] at whole ⊢
      omega

omit [Responder π] in
/-- What becomes of the connection is all one to a receiver that listens, as long as it works. -/
theorem Listens.connection {taken rest : Bytes} {later : Bool} {k : List Event} {c : Connection}
    (listens : Listens first taken unread closing h s) (silent : deeds k = []) (carries : c.Carries rest later) :
    Listens first taken rest later (h ++ k) { s with connection := c } := by
  obtain ⟨working, opened, whole, going, _, shows, handled⟩ := listens
  refine ⟨working, opened, whole, going, carries, ⟨shows.count, shows.received, shows.items⟩, ?_⟩
  rw [heard_append, heard_of_silent silent, List.append_nil]
  exact handled

/-- What the receiver makes of a stream so far: it listens, or it has ended for good. -/
def Follows (first : Session π) (stream : Bytes) (closing : Bool) (h : List Event) (s : Session π) : Prop :=
  (∃ taken unread, stream = taken ++ unread ∧ Listens first taken unread closing h s) ∨
    Ended first stream h s ∧ (closing = true ∨ Packet.Ends (Packet.ofStream stream))

theorem unread_of_carries {c : Connection} (carries : c.Carries unread closing) :
    c.unread = unread.length := by
  obtain ⟨_, _, e, stream, inbox, _⟩ := carries
  unfold Connection.unread
  rw [stream, ← inbox]

/-- Where a receiver that listens is after one look at the connection.  If it is to go on, the bytes of a
packet were taken out; if not, it waits for more or has ended. -/
theorem Listens.receiveNext (quiet : IsQuiet π) {taken unread : Bytes}
    (listens : Listens first taken unread closing h s) :
    Follows first (taken ++ unread) closing (h ++ s.receiveNext.trace) s.receiveNext.value.2 ∧
      (s.receiveNext.value.1 = true →
        s.receiveNext.value.2.connection.unread + Packet.size = s.connection.unread) ∧
      (s.receiveNext.value.1 = false → closing = true → s.receiveNext.value.2.receiver.running = false) := by
  have carries := listens.carries
  have quietly := Connection.deeds_receive s.connection
  have left := unread_of_carries carries
  unfold Session.receiveNext
  rw [if_neg (by rw [listens.working]; decide)]
  by_cases enough : Packet.size ≤ unread.length
  · -- The first eight of the bytes that are left are a packet.
    have cut : unread = unread.take Packet.size ++ unread.drop Packet.size :=
      (List.take_append_drop _ _).symm
    have eight : (unread.take Packet.size).length = Packet.size := by
      rw [List.length_take, Nat.min_eq_left enough]
    have whole : taken ++ unread = taken ++ unread.take Packet.size ++ unread.drop Packet.size := by
      rw [List.append_assoc, List.take_append_drop]
    rw [cut] at carries
    obtain ⟨packet, decoded, arrival, still⟩ := carries.receive_whole eight
    have reads := listens.connection quietly still
    simp only [arrival, Traced.trace_bind, Traced.value_bind, Traced.trace_pure, Traced.value_pure,
      List.append_nil, ← List.append_assoc]
    rw [whole]
    rcases reads.takePacket quiet decoded with ⟨working, next⟩ | ⟨stopped, ended, ends⟩
    · refine ⟨.inl ⟨_, _, rfl, next⟩, fun _ => ?_, fun idle => ?_⟩
      · rw [unread_of_carries next.carries, left, List.length_drop]
        omega
      · rw [working] at idle
        cases idle
    · refine ⟨.inr ⟨ended, .inr ends⟩, fun more => ?_, fun _ _ => stopped⟩
      rw [stopped] at more
      cases more
  · cases closing with
    | false =>
      obtain ⟨arrival, still⟩ := carries.receive_waiting enough
      have waits := listens.connection quietly still
      simp only [arrival, Traced.trace_bind, Traced.value_bind, Traced.trace_pure, Traced.value_pure,
        List.append_nil]
      exact ⟨.inl ⟨_, _, rfl, waits⟩, nofun, nofun⟩
    | true =>
      obtain ⟨arrival, established⟩ := carries.receive_over enough
      have silent : deeds (s.connection.receive.trace ++ ({ s with
          connection := s.connection.receive.value.2 }.finish
            (if unread.isEmpty then .connectionTerminated else .malformedPacket)).trace) = [] := by
        rw [deeds_append, quietly]
        rfl
      have ended := listens.finish (Nat.lt_of_not_le enough) silent s.connection.receive.value.2
      simp only [arrival, established, Traced.trace_bind, Traced.value_bind, Traced.trace_pure,
        Traced.value_pure, List.append_nil, if_true]
      exact ⟨.inr ⟨ended, .inl rfl⟩, nofun, fun _ _ => rfl⟩

/-- **However often the receiver reads, it makes of the stream what is to be made of it**; and if the stream
is over and it reads often enough, it ends. -/
theorem Follows.pumpUpTo (quiet : IsQuiet π) (times : Nat) (follows : Follows first stream closing h s) :
    Follows first stream closing (h ++ (s.pumpUpTo times).trace) (s.pumpUpTo times).value ∧
      (closing = true → s.connection.unread < Packet.size * times →
        (s.pumpUpTo times).value.receiver.running = false) := by
  induction times generalizing s h with
  | zero =>
    rw [Session.pumpUpTo, Traced.trace_pure, List.append_nil]
    exact ⟨follows, fun _ few => absurd few (Nat.not_lt_zero _)⟩
  | succ times ih =>
    rw [pumpUpTo_succ, Traced.trace_bind, Traced.value_bind, ← List.append_assoc]
    rcases follows with ⟨taken, unread, rfl, listens⟩ | ⟨ended, final⟩
    · obtain ⟨next, more, done⟩ := listens.receiveNext quiet
      cases on : s.receiveNext.value.1 with
      | true =>
        obtain ⟨further, stops⟩ := ih next
        refine ⟨further, fun last few => stops last ?_⟩
        have := more on
        rw [Nat.mul_succ] at few
        omega
      | false =>
        rw [if_neg (by decide), Traced.trace_pure, List.append_nil]
        exact ⟨next, fun last _ => done on last⟩
    · have stopped := ended.stopped
      simp only [receiveNext_of_stopped stopped, Traced.trace_pure, Traced.value_pure, List.append_nil,
        Bool.false_eq_true, if_false]
      exact ⟨.inr ⟨ended, final⟩, fun _ _ => stopped⟩

omit [Responder π] in
/-- The peer says that no more will come. -/
theorem Follows.finish (follows : Follows first stream closing h s) :
    Follows first stream true h { s with connection := s.connection.arrive .finish } := by
  rcases follows with ⟨taken, unread, cut, listens⟩ | ⟨ended, _⟩
  · have closing := listens.connection (k := []) rfl listens.carries.finish
    rw [List.append_nil] at closing
    exact .inl ⟨taken, unread, cut, closing⟩
  · obtain ⟨stopped, error, closed, gone, ⟨count, received, items⟩, handled⟩ := ended
    have still := (Connection.established_arrive .finish s.connection).trans gone
    exact .inr ⟨⟨stopped, error, closed, still, ⟨count, received, items⟩, handled⟩, .inl rfl⟩

omit [Responder π] in
/-- More of the stream comes. -/
theorem Follows.come (follows : Follows first stream closing h s) {bytes : Bytes}
    (last : closing = true → bytes = []) :
    Follows first (stream ++ bytes) closing h
      { s with connection := s.connection.arrive (.data bytes) } := by
  rcases follows with ⟨taken, unread, rfl, listens⟩ | ⟨ended, final⟩
  · have more := listens.connection (k := []) rfl (listens.carries.come last)
    rw [List.append_nil] at more
    exact .inl ⟨taken, unread ++ bytes, List.append_assoc _ _ _, more⟩
  · obtain ⟨stopped, error, closed, gone, ⟨count, received, items⟩, handled⟩ := ended
    have still := (Connection.established_arrive (.data bytes) s.connection).trans gone
    -- What comes after the end, or after a packet with which the connection ends, is not heard.
    have same : Packet.heard (Packet.ofStream (stream ++ bytes)) = Packet.heard (Packet.ofStream stream) ∧
        Packet.verdict (stream ++ bytes) = Packet.verdict stream ∧
        (closing = true ∨ Packet.Ends (Packet.ofStream (stream ++ bytes))) := by
      rcases final with closing | ends
      · rw [last closing, List.append_nil]
        exact ⟨rfl, rfl, .inl closing⟩
      · obtain ⟨p, mem, ending⟩ := ends
        exact ⟨Packet.heard_stream_append ⟨p, mem, ending⟩ bytes,
          Packet.verdict_append ⟨p, mem, ending⟩ bytes,
          .inr ⟨p, (Packet.ofStream_prefix stream bytes).subset mem, ending⟩⟩
    rw [← same.1] at count received items handled
    rw [← same.2.1] at error
    exact .inr ⟨⟨stopped, error, closed, still, ⟨count, received, items⟩, handled⟩, same.2.2⟩

/-! ### Whole streams -/

namespace Turn

/-- What a turn brings of the stream. -/
def bytes : Turn → Bytes
  | come (.data bytes) => bytes
  | _ => []

/-- Whether a turn brings bytes at most. -/
def isPlain : Turn → Bool
  | come (.data _) | read _ => true
  | _ => false

end Turn

theorem Follows.turns (quiet : IsQuiet π) {ts : List Turn} (plain : ∀ t ∈ ts, t.isPlain)
    (last : closing = true → ts.flatMap Turn.bytes = []) (follows : Follows first stream closing h s) :
    Follows first (stream ++ ts.flatMap Turn.bytes) closing (h ++ (s.turns ts).trace)
      (s.turns ts).value := by
  induction ts generalizing stream s h with
  | nil =>
    rw [Session.turns, Traced.trace_pure, List.append_nil, List.flatMap_nil, List.append_nil]
    exact follows
  | cons t rest ih =>
    have others : ∀ t ∈ rest, t.isPlain := fun t mem => plain t (List.mem_cons_of_mem _ mem)
    have first : closing = true → t.bytes = [] := fun closing => (List.append_eq_nil_iff.mp (last closing)).1
    have later : closing = true → rest.flatMap Turn.bytes = [] :=
      fun closing => (List.append_eq_nil_iff.mp (last closing)).2
    have plain := plain t (List.mem_cons_self ..)
    rw [Session.turns, Traced.trace_bind, Traced.value_bind, ← List.append_assoc, List.flatMap_cons,
      ← List.append_assoc]
    refine ih others later ?_
    cases t with
    | read times =>
      rw [show (Turn.read times).bytes = [] from rfl, List.append_nil]
      exact (follows.pumpUpTo quiet times).1
    | come segment =>
      cases segment with
      | data bytes =>
        rw [show (s.turn (.come (.data bytes))).trace = [] from rfl, List.append_nil]
        exact follows.come first
      | finish | reset => cases plain

/-- The receiver is started, things happen in turns, and in the end the peer ends the connection in an orderly
way. -/
def listen (ts : List Turn) (s : Session π) : Traced (Session π) := do
  let (_, s) ← s.start
  (← s.turns ts).arrive .finish

omit [Responder π] in
/-- A receiver that has told its version and read nothing yet listens. -/
theorem follows_greeted {s : Session π} {early : Bytes} (carries : s.connection.Carries early closing)
    (opened : s.queue.closed = false) : Follows s early closing [.sent (Packet.version 0)] s.greeted :=
  .inl ⟨[], early, rfl, rfl, opened, rfl, nofun, (carries.send _).2,
    ⟨rfl, rfl, (List.append_nil _).symm⟩, rfl⟩

/-- Started on a connection that works, the receiver tells its version and then reads what there is. -/
theorem start_of_carries {s : Session π} {early : Bytes} (carries : s.connection.Carries early closing)
    (unstarted : s.receiver.started = false) :
    s.start.value.2 = s.greeted.pump.value ∧
      deeds s.start.trace = .sent (Packet.version 0) :: deeds s.greeted.pump.trace := by
  have start := start_of_established carries.established unstarted
  simp only [(carries.send (Packet.version 0)).1, if_true] at start
  exact start

/-- When a receiver has read everything and nothing more will come, it has ended. -/
theorem Follows.pump (quiet : IsQuiet π) (follows : Follows first stream true h s) :
    Ended first stream (h ++ s.pump.trace) s.pump.value := by
  have enough : s.connection.unread < Packet.size * (s.connection.unread / Packet.size + 1) := by
    have := Nat.lt_mul_div_succ s.connection.unread (show 0 < Packet.size by decide)
    exact this
  obtain ⟨read, stops⟩ := follows.pumpUpTo quiet (s.connection.unread / Packet.size + 1)
  have stopped := stops rfl enough
  rcases read with ⟨_, _, _, listens⟩ | ⟨ended, _⟩
  · have working := listens.working
    rw [stopped] at working
    cases working
  · exact ended

/-- **What a receiver makes of a stream depends on the stream alone**: it handles the successive whole
packets, up to the first one with which the connection ends, and ends for the reason that this packet gives,
or else because the stream has ended, inside a packet or behind one.  It does not matter into which segments
the stream was cut, when they came, nor how often the receiver has looked in between.  What is counted, in a
word of 32 bits, the time last heard and the items of the queue are those of the packets that were handled. -/
theorem hears_stream (quiet : IsQuiet π) {s : Session π} {early : Bytes} {closing : Bool}
    (carries : s.connection.Carries early closing) (unstarted : s.receiver.started = false)
    (opened : s.queue.closed = false) {ts : List Turn} (plain : ∀ t ∈ ts, t.isPlain)
    (last : closing = true → ts.flatMap Turn.bytes = []) :
    let stream := early ++ ts.flatMap Turn.bytes
    let packets := Packet.heard (Packet.ofStream stream)
    let x := s.listen ts
    heard x.trace = packets ∧
      x.value.receiver.running = false ∧
      x.value.receiver.error = some (Packet.verdict stream) ∧
      Packet.verdict stream ∈ [.versionMismatch, .connectionTerminated, .malformedPacket] ∧
      x.value.receiver.packetCount = UInt32.ofNat packets.length ∧
      x.value.clock.received =
        (packets.getLast?.map fun p => p.timestamp &&& timestampMask).getD s.clock.received ∧
      x.value.queue.closed = true ∧
      x.value.queue.items = s.queue.items ++ (packets.filter (·.isSync)).map Protocol.itemOf ∧
      x.value.connection.established = false := by
  intro stream packets x
  obtain ⟨begun, seen⟩ := start_of_carries carries unstarted
  have greeted := ((follows_greeted carries opened).pumpUpTo quiet
    (s.greeted.connection.unread / Packet.size + 1)).1
  have turned := (greeted.turns quiet plain last).finish.pump quiet
  have value : x.value = (({ (s.greeted.pump.value.turns ts).value with
      connection := (s.greeted.pump.value.turns ts).value.connection.arrive .finish } :
        Session π).pump).value := by
    show (((s.start.value.2.turns ts).value).arrive .finish).value = _
    rw [begun]
    rfl
  have trace : heard x.trace = Packet.heard (Packet.ofStream stream) := by
    have parts : x.trace = s.start.trace ++ ((s.start.value.2.turns ts).trace ++
        ((s.start.value.2.turns ts).value.arrive .finish).trace) := rfl
    have front : heard s.start.trace = heard (.sent (Packet.version 0) :: s.greeted.pump.trace) := by
      rw [← heard_deeds, seen]
      exact heard_deeds s.greeted.pump.trace
    rw [← turned.handled, parts, heard_append, heard_append, front, begun, heard_append, heard_append,
      List.append_assoc]
    rfl
  rw [value]
  exact ⟨trace, turned.stopped, turned.error, Packet.verdict_mem stream, turned.shows.count,
    turned.shows.received, turned.closed, turned.shows.items, turned.gone⟩

/-- A session on a connection over which the first bytes of a packet have come. -/
def interrupted : Session Registers where
  connection := { stream := .stream { inbox := [101, 0, 0] }, established := true, role := .master }
  port := {}

/-- Of a stream that is cut inside its packets, and ends inside the third one, two packets are heard: one
that is passed over and one that brings a bit. -/
theorem hears_stream_interrupted :
    let x := interrupted.listen [.come (.data [0, 7, 0, 0, 0, 104, 1]), .read 1,
      .come (.data [129, 0, 9, 0]), .read 2, .come (.data [0, 0, 1, 4])]
    heard x.trace = [⟨101, 0, 0, 0, 7⟩, ⟨104, 1, 129, 0, 9⟩] ∧
      x.value.receiver.error = some .malformedPacket ∧ x.value.receiver.packetCount = 2 ∧
      x.value.clock.received = 9 ∧ x.value.queue.items = [⟨1, 9⟩] := by
  have calm : interrupted.connection.host.Calm := nofun
  have carries : interrupted.connection.Carries [101, 0, 0] false :=
    ⟨rfl, calm, _, rfl, rfl, rfl, rfl, rfl, rfl⟩
  have plain : ∀ t ∈ [Turn.come (.data [0, 7, 0, 0, 0, 104, 1]), .read 1, .come (.data [129, 0, 9, 0]),
      .read 2, .come (.data [0, 0, 1, 4])], t.isPlain := by decide
  have law := hears_stream (fun _ => rfl) carries rfl rfl plain nofun
  obtain ⟨handled, _, error, _, count, received, _, items, _⟩ := law
  exact ⟨handled, error, count, received, items⟩

end Session

end SerialLink
