import SerialLink.ManualPort
import SerialLink.Proofs.Queue
import SerialLink.Proofs.Turns

/-!
# What a receiver says

All that a receiver sends is told by the packets that it handles and by what its port answers.  To a packet
belong the questions that the port is asked, and at most one packet in return (`Protocol.Reacts`); put one
behind the other these make up the dialogue on a connection (`Protocol.Dialogue`).  A receiver that is started
tells its version and then holds such a dialogue, whatever comes and whenever it reads
(`Session.holds_dialogue`).
-/

namespace SerialLink

open Event

namespace Protocol

/-! ### Questions to a port -/

/-- A question to a port, with the answer. -/
inductive Query
  /-- Whether a bit of this side is unanswered. -/
  | request (pending : Bool)
  /-- The next bit of this side. -/
  | bit (bit : UInt8)
  | control (control : UInt8)
  | time (time : UInt32)
  deriving DecidableEq, Inhabited, Repr

variable {σ : Type} [Responder σ]

/-- Whether a port gives the answer to a question, and becomes the other port by that. -/
def Query.Takes (before : σ) : Query → σ → Prop
  | request pending, after => Responder.takeRequest before = (pending, after)
  | bit value, after => Responder.takeBit before = (value, after)
  | control value, after => Responder.control before = (value, after)
  | time value, after => ∃ clock, Responder.timestamp clock before = (value, after)

/-- A port is asked one question after the other.  In between it may be looked up whether it has hung up. -/
inductive Asked (first : σ) : List Query → σ → Prop
  | nothing : Asked first [] first
  | query {queries : List Query} {query : Query} {before after : σ} (earlier : Asked first queries before)
      (takes : query.Takes before after) : Asked first (queries ++ [query]) after
  | look {queries : List Query} {port : σ} (earlier : Asked first queries port) :
      Asked first queries (Responder.takeHangUp port).2

theorem Asked.trans {a b c : σ} {first then_ : List Query} (asked : Asked a first b)
    (more : Asked b then_ c) : Asked a (first ++ then_) c := by
  induction more with
  | nothing =>
    rw [List.append_nil]
    exact asked
  | query _ takes ih =>
    rw [← List.append_assoc]
    exact .query ih takes
  | look _ ih => exact .look ih

/-- A port that keeps a list of what it was asked for finds the questions in it. -/
theorem Asked.manualPort {first last : ManualPort} {queries : List Query} (asked : Asked first queries last) :
    last.asked = first.asked ++ queries.filterMap fun
      | .request _ => some .request
      | .bit _ => some .bit
      | _ => none := by
  induction asked with
  | nothing => exact (List.append_nil _).symm
  | look _ ih => exact ih
  | @query queries query before after _ takes ih =>
    rw [List.filterMap_append, ← List.append_assoc, ← ih]
    cases query with
    | request | bit =>
      rw [← (Prod.mk.inj takes).2]
      rfl
    | control =>
      rw [← (Prod.mk.inj takes).2]
      exact (List.append_nil _).symm
    | time =>
      obtain ⟨clock, takes⟩ := takes
      rw [← (Prod.mk.inj takes).2]
      exact (List.append_nil _).symm

/-! ### The dialogue -/

/-- What a side of a role makes of a packet: what it asks its port, and what it sends back.  Between the two
flags stands whether a right version has come, before this packet and with it. -/
inductive Reacts (role : Role) : Bool → Packet → List Query → Option Packet → Bool → Prop
  /-- The first right version is answered with the status of this side. -/
  | greeting {p : Packet} {time : UInt32} (kind : p.kind = 1) (right : (p.b2, p.b3, p.b4) = (1, 4, 0)) :
      Reacts role false p [.time time] (some ⟨108, 1, 0, 0, time &&& timestampMask⟩) true
  | status {known : Bool} {p : Packet} {time : UInt32} (kind : p.kind = 108) :
      Reacts role known p [.time time] (some ⟨108, 1, 0, 0, time &&& timestampMask⟩) known
  | echo {known : Bool} {p : Packet} {time : UInt32} (kind : p.kind = 106) :
      Reacts role known p [.time time] (some ⟨106, p.b2, p.b3, p.b4, time &&& timestampMask⟩) known
  /-- A bit that is an answer itself. -/
  | answer {known : Bool} {p : Packet} (kind : p.kind = 104 ∨ p.kind = 105) :
      Reacts role known p [.request true] none known
  /-- A bit that is answered with the next one of this side. -/
  | bit {known : Bool} {p : Packet} {bit control : UInt8} {time : UInt32}
      (kind : p.kind = 104 ∨ p.kind = 105) :
      Reacts role known p [.request false, .bit bit, .control control, .time time]
        (some ⟨if role = .master then 104 else 105, bit &&& 1, control, 0, time &&& timestampMask⟩) known
  /-- Any other packet, and a version that is wrong or not the first right one. -/
  | silence {known : Bool} {p : Packet} (kind : p.kind ∉ [104, 105, 106, 108])
      (further : p.kind = 1 → (p.b2, p.b3, p.b4) = (1, 4, 0) → known = true) :
      Reacts role known p [] none known

/-- The packets that came on a connection, the questions that the port was asked for them, and the packets that
were to be sent back; and whether a right version has come. -/
inductive Dialogue (role : Role) : List Packet → List Query → List Packet → Bool → Prop
  | start : Dialogue role [] [] [] false
  | packet {packets : List Packet} {queries asked : List Query} {replies : List Packet} {known now : Bool}
      {p : Packet} {reply : Option Packet} (earlier : Dialogue role packets queries replies known)
      (reacts : Reacts role known p asked reply now) :
      Dialogue role (packets ++ [p]) (queries ++ asked) (replies ++ reply.toList) now

/-- A packet that brings a bit is of one of two kinds. -/
theorem kind_of_isSync {p : Packet} (bit : p.isSync) : p.kind = 104 ∨ p.kind = 105 := by
  simpa [Packet.isSync, Packet.Kind.code] using bit

/-- A packet of no kind that the protocol has is of none of those that are answered. -/
theorem kind_ne_of_kind? {p : Packet} (unknown : p.kind? = none) (k : Packet.Kind) : p.kind ≠ k.code := by
  intro same
  rw [Packet.kind?, same, Packet.Kind.ofCode?_code] at unknown
  cases unknown

/-- A bit is answered with the next one of this side, unless it is an answer. -/
theorem reacts_handleSync {packet : Packet} (bit : packet.isSync) (clock : Clock) (p : Protocol)
    (queue : BitQueue) (port : σ) :
    ∃ queries, Asked port queries (p.handleSync packet clock queue port).port ∧
      Reacts p.role p.acknowledged packet queries (p.handleSync packet clock queue port).reply
        p.acknowledged := by
  have kind := kind_of_isSync bit
  unfold handleSync syncReply
  rcases request : Responder.takeRequest port with ⟨pending, port₁⟩
  have first : Asked port [.request pending] port₁ := .query .nothing request
  cases pending with
  | true => exact ⟨_, first, .answer kind⟩
  | false =>
    -- The bit, the control register and the time are asked for, and make up the answer.
    unfold bitReply
    rcases bit : Responder.takeBit port₁ with ⟨b, port₂⟩
    rcases control : Responder.control port₂ with ⟨c, port₃⟩
    rcases time : Responder.timestamp clock port₃ with ⟨t, port₄⟩
    have second : Asked port [.request false, .bit b] port₂ := .query first bit
    have third : Asked port [.request false, .bit b, .control c] port₃ := .query second control
    have asked : Asked port [.request false, .bit b, .control c, .time t] port₄ :=
      .query third ⟨clock, time⟩
    have reply : Packet.sync p.role b c t =
        ⟨if p.role = .master then 104 else 105, b &&& 1, c, 0, t &&& timestampMask⟩ := by
      cases p.role <;> rfl
    simp only [bit, control, time, reply, Bool.false_eq_true, if_false]
    exact ⟨_, asked, .bit kind⟩

/-- **What the protocol makes of a packet is what a side of its role does.** -/
theorem reacts_handle (packet : Packet) (clock : Clock) (p : Protocol) (queue : BitQueue) (port : σ) :
    let o := (p.handle packet clock queue port).value
    o.protocol.role = p.role ∧ ∃ queries, Asked port queries o.port ∧
      Reacts p.role p.acknowledged packet queries o.reply o.protocol.acknowledged := by
  cases bit : packet.isSync with
  | true =>
    rw [handle_of_isSync _ _ _ _ _ bit]
    exact ⟨rfl, reacts_handleSync bit clock p queue port⟩
  | false =>
    have told : Asked port [.time (Responder.timestamp clock port).1] (Responder.timestamp clock port).2 :=
      .query .nothing ⟨clock, rfl⟩
    unfold handle
    cases kind : packet.kind? with
    | none =>
      have other := kind_ne_of_kind? kind
      refine ⟨rfl, [], .nothing, .silence ?_ fun version => absurd version (other .version)⟩
      simpa using ⟨other .sync1, other .sync2, other .sync3, other .status⟩
    | some k =>
      have code := Packet.kind?_eq_some kind
      have same := Packet.isSync_of_kind? kind
      cases k with
      | sync1 | sync2 =>
        rw [bit] at same
        cases same
      | joypadUpdate | wantDisconnect =>
        refine ⟨rfl, [], .nothing, .silence ?_ ?_⟩
        · rw [code]
          decide
        · rw [code]
          nofun
      | sync3 => exact ⟨rfl, _, told, .echo code⟩
      | status => exact ⟨rfl, _, told, .status code⟩
      | version =>
        have plain : packet.kind ∉ [104, 105, 106, 108] := by
          rw [code]
          decide
        simp only [handleVersion, Traced.value_bind]
        by_cases right : (packet.b2, packet.b3, packet.b4) = Packet.protocolVersion
        · rw [if_neg (by simp [right])]
          obtain ⟨role, acknowledged⟩ := p
          cases acknowledged with
          | true => exact ⟨rfl, [], .nothing, .silence plain fun _ _ => rfl⟩
          | false => exact ⟨rfl, _, told, .greeting code right⟩
        · rw [if_pos (by simpa using right)]
          exact ⟨rfl, [], .nothing, .silence plain fun _ rightly => absurd rightly right⟩

omit [Responder σ] in
/-- A place for the answer is left alone when there is none. -/
theorem replyInto_of_none {o : Outcome σ} (silent : o.reply = none) (place : Packet) :
    o.replyInto place = (false, place) := by
  rw [Outcome.replyInto, silent]

end Protocol

namespace Session

open Protocol

variable {σ : Type} [Responder σ]

/-- What a receiver has said since it was started in a role: its version, and then its part of a dialogue.  Only
the last packet may not have gone out. -/
structure Speaks (role : Role) (first : Session σ) (h : List Event) (s : Session σ) : Prop where
  role_eq : s.protocol.role = role
  opened : s.receiver.running → s.queue.closed = false
  dialogue : ∃ queries replies, Dialogue role (heard h) queries replies s.protocol.acknowledged ∧
    Asked first.port queries s.port ∧ told h = Packet.version 0 :: replies
  sent : packets h = told h ∨ s.receiver.running = false ∧ packets h = (told h).dropLast
  items : s.queue.items = first.queue.items ++ ((heard h).filter (·.isSync)).map itemOf

variable {role : Role} {first s : Session σ} {h : List Event}

theorem Speaks.of_silent (speaks : Speaks role first h s) {k : List Event} (silent : deeds k = [])
    {t : Session σ} (protocol : t.protocol = s.protocol) (port : t.port = s.port)
    (running : t.receiver.running → s.receiver.running ∧ t.queue.closed = s.queue.closed)
    (items : t.queue.items = s.queue.items) : Speaks role first (h ++ k) t := by
  obtain ⟨role_eq, opened, dialogue, sent, queued⟩ := speaks
  have nothing : packets k = [] := by
    rw [← packets_deeds, silent]
    rfl
  rw [← protocol, ← port] at dialogue
  have same : heard (h ++ k) = heard h := by
    rw [heard_append, heard_of_silent silent, List.append_nil]
  have said : told (h ++ k) = told h := by
    rw [told_append, told_of_silent silent, List.append_nil]
  constructor
  · rw [protocol]
    exact role_eq
  · intro working
    obtain ⟨before, closed⟩ := running working
    exact closed.trans (opened before)
  · rw [same, said]
    exact dialogue
  · rw [said, packets_append, nothing, List.append_nil]
    refine sent.imp_right fun ⟨stopped, cut⟩ => ⟨?_, cut⟩
    cases working : t.receiver.running with
    | false => rfl
    | true =>
      rw [(running working).1] at stopped
      cases stopped
  · rw [items, same]
    exact queued

/-- The answer to a packet is what is said for it. -/
theorem told_takePacket (packet : Packet) (s : Session σ) :
    told (s.takePacket packet).trace = (s.outcome packet).value.reply.toList := by
  rw [← told_deeds, deeds_takePacket]
  cases (s.outcome packet).value.reply with
  | none => rfl
  | some reply => cases (s.answering packet).value.1 <;> rfl

/-- What is said for a packet goes out, unless it is refused. -/
theorem packets_takePacket (packet : Packet) (s : Session σ) :
    (s.answering packet).value.1 = true ∧
        packets (s.takePacket packet).trace = told (s.takePacket packet).trace ∨
      (s.answering packet).value.1 = false ∧ packets (s.takePacket packet).trace = [] ∧
        ∃ reply, told (s.takePacket packet).trace = [reply] := by
  have answered : (s.answering packet).value.1 = ((s.handled packet
      (s.outcome packet).value).connection.answer (s.outcome packet).value.reply).value.1 := rfl
  rw [← told_deeds, ← packets_deeds, deeds_takePacket]
  cases said : (s.outcome packet).value.reply with
  | none =>
    rw [said] at answered
    exact .inl ⟨answered, rfl⟩
  | some reply =>
    cases (s.answering packet).value.1 with
    | true => exact .inl ⟨rfl, rfl⟩
    | false => exact .inr ⟨rfl, rfl, reply, rfl⟩

/-- A packet that is handled belongs to the dialogue with what is said for it. -/
theorem Speaks.takePacket (working : s.receiver.running = true) (packet : Packet)
    (speaks : Speaks role first h s) :
    Speaks role first (h ++ (s.takePacket packet).trace) (s.takePacket packet).value := by
  obtain ⟨role_eq, opened, ⟨queries, replies, dialogue, asked, said⟩, sent, items⟩ := speaks
  have opened := opened working
  have before : packets h = told h := by
    refine sent.resolve_right fun ended => ?_
    rw [working] at ended
    cases ended.1
  obtain ⟨same, more, further, reacts⟩ := reacts_handle packet (s.clock.hear packet.timestamp) s.protocol
    s.queue s.port
  rw [role_eq] at reacts
  have queue : (s.outcome packet).value.queue =
      if packet.isSync then s.queue.push (itemOf packet) else s.queue := Protocol.queue_handle ..
  have answer := told_takePacket packet s
  -- What is said, asked and queued is there before the receiver goes on or ends.
  have spoken : ∀ t : Session σ, t.protocol = (s.outcome packet).value.protocol →
      t.port = (Responder.takeHangUp (s.outcome packet).value.port).2 →
      t.queue.items = (s.outcome packet).value.queue.items →
      (t.receiver.running → (s.answering packet).value.1 = true ∧
        t.queue.closed = (s.outcome packet).value.queue.closed) →
      Speaks role first (h ++ (s.takePacket packet).trace) t := by
    intro t protocol port queued running
    constructor
    · rw [protocol]
      exact same.trans role_eq
    · intro going
      rw [(running going).2, queue]
      split
      · exact (BitQueue.closed_push _ _).trans opened
      · exact opened
    · refine ⟨queries ++ more, replies ++ (s.outcome packet).value.reply.toList, ?_, ?_, ?_⟩
      · rw [heard_append, heard_takePacket, protocol]
        exact .packet dialogue reacts
      · rw [port]
        exact .look (asked.trans further)
      · rw [told_append, said, answer]
        rfl
    · rw [told_append, packets_append, before]
      rcases packets_takePacket packet s with ⟨_, gone⟩ | ⟨refused, gone, reply, told⟩
      · exact .inl (congrArg _ gone)
      · refine .inr ⟨?_, ?_⟩
        · cases going : t.receiver.running with
          | false => rfl
          | true =>
            rw [(running going).1] at refused
            cases refused
        · rw [gone, told, List.dropLast_concat, List.append_nil]
    · rw [queued, queue, heard_append, heard_takePacket, List.filter_append, List.map_append,
        ← List.append_assoc, ← items]
      cases bit : packet.isSync with
      | true => simp [BitQueue.items_push, opened, bit]
      | false => simp [bit]
  rw [value_takePacket]
  rcases proceed_cases (s.answering packet).value.2 (s.answering packet).value.1
    (s.outcome packet).value.failure with ⟨taken, _, value⟩ | ⟨reason, _, value⟩
  · rw [value]
    exact spoken _ rfl rfl rfl fun _ => ⟨taken, rfl⟩
  · rw [value]
    exact spoken _ rfl rfl (BitQueue.items_close _) nofun

theorem lasting_speaks (role : Role) (first : Session σ) : Lasting (Speaks role first) where
  connection _ _ _ _ silent speaks := speaks.of_silent silent rfl rfl (fun working => ⟨working, rfl⟩) rfl
  take _ _ packet working speaks := speaks.takePacket working packet
  finish _ _ reason _ _ speaks := by
    refine speaks.of_silent ?_ rfl rfl nofun (BitQueue.items_close _)
    unfold Session.finish
    split <;> rfl

theorem Speaks.of_deeds_eq (speaks : Speaks role first h s) {k : List Event} (same : deeds k = deeds h) :
    Speaks role first k s := by
  have heard_eq : heard k = heard h := by rw [← heard_deeds, same, heard_deeds]
  have told_eq : told k = told h := by rw [← told_deeds, same, told_deeds]
  have packets_eq : packets k = packets h := by rw [← packets_deeds, same, packets_deeds]
  obtain ⟨role_eq, opened, dialogue, sent, items⟩ := speaks
  rw [← heard_eq, ← told_eq] at dialogue
  rw [← told_eq, ← packets_eq] at sent
  rw [← heard_eq] at items
  exact ⟨role_eq, opened, dialogue, sent, items⟩

/-- A receiver that is started says its version first, whether it goes out or not. -/
theorem speaks_start (begins : Protocol.start? role = some s.protocol)
    (established : s.connection.established) (unstarted : s.receiver.started = false)
    (opened : s.queue.closed = false) : Speaks role s s.start.trace s.start.value.2 := by
  obtain ⟨value, trace⟩ := start_of_established established unstarted
  have protocol : s.protocol = ⟨role, false⟩ := by
    unfold Protocol.start? at begins
    split at begins
    · cases begins
    · exact (Option.some.inj begins).symm
  have dialogue : Dialogue role [] [] [] s.protocol.acknowledged := by
    rw [protocol]
    exact .start
  have role_eq : s.protocol.role = role := by rw [protocol]
  have items := (List.append_nil s.queue.items).symm
  rw [value]
  cases taken : (s.connection.send (Packet.version 0)).value.1 with
  | true =>
    rw [taken] at trace
    have greeted : Speaks role s [.sent (Packet.version 0)] s.greeted :=
      ⟨role_eq, fun _ => opened, ⟨[], [], dialogue, .nothing, rfl⟩, .inl rfl, items⟩
    exact ((lasting_speaks role s).pumpUpTo _ greeted).of_deeds_eq trace
  | false =>
    rw [taken] at trace
    have ended : Speaks role s [.refused (Packet.version 0)]
        (s.greeted.finish .connectionTerminated).value :=
      ⟨role_eq, nofun, ⟨[], [], dialogue, .nothing, rfl⟩, .inr ⟨rfl, rfl⟩,
        (BitQueue.items_close _).trans items⟩
    exact ended.of_deeds_eq trace

/-- The receiver is started, and things happen in turns. -/
def converse (ts : List Turn) (s : Session σ) : Traced (Session σ) := do
  let (_, s) ← s.start
  s.turns ts

/-- **What a receiver sends is its version, and then its part of the dialogue** that the packets which it
handles and the answers of its port make up, whatever the port answers, and whatever comes at what time.  Of
what it is to send at most the last packet does not go out, and then it has ended.  All bits that came are
queued, in their order.  When there is no answer to a packet, the place for it is left alone. -/
theorem holds_dialogue {role : Role} {s : Session σ} (begins : Protocol.start? role = some s.protocol)
    (established : s.connection.established) (unstarted : s.receiver.started = false)
    (opened : s.queue.closed = false) (ts : List Turn) :
    let x := s.converse ts
    (∃ queries replies, Dialogue role (heard x.trace) queries replies x.value.protocol.acknowledged ∧
        Asked s.port queries x.value.port ∧ told x.trace = ⟨1, 1, 4, 0, 0⟩ :: replies) ∧
      (packets x.trace = told x.trace ∨
        x.value.receiver.running = false ∧ packets x.trace = (told x.trace).dropLast) ∧
      x.value.queue.items = s.queue.items ++
        ((heard x.trace).filter (·.isSync)).map (fun p => ⟨p.b2, p.timestamp⟩) ∧
      ∀ (t : Session σ) (packet place : Packet), (t.outcome packet).value.reply = none →
        (t.outcome packet).value.replyInto place = (false, place) := by
  intro x
  have started := speaks_start begins established unstarted opened
  obtain ⟨_, _, dialogue, sent, items⟩ := (lasting_speaks role s).turns ts started
  exact ⟨dialogue, sent, items, fun _ _ place silent => replyInto_of_none silent place⟩

/-- A session on a connection over which packets have come: the version twice, a bit and a status. -/
def addressed : Session ManualPort where
  connection :=
    { stream := .stream { inbox := [1, 1, 4, 0, 0, 0, 0, 0] ++ [1, 1, 4, 0, 0, 0, 0, 0] ++
        [104, 0, 129, 0, 3, 0, 0, 0] ++ [108, 2, 0, 0, 0, 0, 0, 0] }
      established := true }
  protocol := ⟨.master, false⟩
  port := { bit := 3, control := 131, timestamp := 0x80000005 }

/-- The first version is answered, the bit with one of the port, and the status. -/
theorem holds_dialogue_addressed :
    let x := addressed.converse [.come (.data [109, 0, 0]), .read 2]
    ∃ queries, Dialogue .master (heard x.trace) queries
        [⟨108, 1, 0, 0, 5⟩, ⟨104, 1, 131, 0, 5⟩, ⟨108, 1, 0, 0, 5⟩] true ∧
      Asked addressed.port queries x.value.port ∧ x.value.queue.items = [⟨0, 3⟩] := by
  have begins : Protocol.start? .master = some addressed.protocol := rfl
  obtain ⟨⟨queries, replies, dialogue, asked, said⟩, _, items, _⟩ :=
    holds_dialogue begins rfl rfl rfl [.come (.data [109, 0, 0]), .read 2]
  have known : told (addressed.converse [.come (.data [109, 0, 0]), .read 2]).trace =
      [⟨1, 1, 4, 0, 0⟩, ⟨108, 1, 0, 0, 5⟩, ⟨104, 1, 131, 0, 5⟩, ⟨108, 1, 0, 0, 5⟩] := by decide
  rw [known] at said
  obtain rfl := (List.cons.inj said).2
  exact ⟨queries, dialogue, asked, items⟩

end Session

end SerialLink
