import SerialLink.Proofs.Plug

/-!
# Answers

A bit of the peer is answered unless it is itself an answer.  A port remembers only whether it has clocked
out a bit since the last one came, and takes the next one that comes for the answer.  The `Ledger` of a
history keeps the account of that: every bit that was clocked out is matched by one of the peer's that got
no answer, or is still waiting for it, or was followed by another one before anything came
(`Ledger.Balanced`).  So the bits that get no answer make up for those that were clocked out as long as none
of these overlap, and not otherwise (`Link.reply_iff`).
-/

namespace SerialLink

open Event

/-! ### The account of a history -/

/-- The account of the bits that went out and came in, as far as answers are concerned. -/
structure Ledger where
  /-- The bits that the port has clocked out. -/
  sent : Nat := 0
  /-- The bits of the peer that got no answer. -/
  silent : Nat := 0
  /-- The bits that the port has clocked out while an earlier one was still unanswered. -/
  overlapping : Nat := 0
  /-- Whether the port has clocked out a bit since the last one came. -/
  armed : Bool := false
  deriving DecidableEq, Repr

namespace Ledger

/-- The account after another event. -/
def record (l : Ledger) : Event → Ledger
  | .clockedOut _ =>
    { l with
      sent := l.sent + 1
      overlapping := l.overlapping + l.armed.toNat
      armed := true }
  | .handled packet reply =>
    if packet.isSync then { l with silent := l.silent + reply.isNone.toNat, armed := false } else l
  | _ => l

theorem record_handled (l : Ledger) (packet : Packet) (reply : Option Packet) :
    l.record (.handled packet reply) = if packet.isSync then
      { l with silent := l.silent + reply.isNone.toNat, armed := false } else l := rfl

/-- The account of a history. -/
def of (history : List Event) : Ledger := history.foldl record {}

/-- What is made of a packet, given the account of what was before: a bit of the peer is answered with a bit
unless it counts as an answer, and nothing else is answered with a bit. -/
def Allows (l : Ledger) : Event → Prop
  | .handled packet reply =>
    (packet.isSync → (reply = none ↔ l.armed)) ∧
      ∀ answer, reply = some answer → answer.isSync = packet.isSync
  | _ => True

theorem allows_handled (l : Ledger) (packet : Packet) (reply : Option Packet) :
    l.Allows (.handled packet reply) ↔ (packet.isSync → (reply = none ↔ l.armed)) ∧
      ∀ answer, reply = some answer → answer.isSync = packet.isSync := .rfl

/-- Every packet of a history is dealt with as the account says. -/
def Explains : Ledger → List Event → Prop
  | _, [] => True
  | l, event :: rest => l.Allows event ∧ (l.record event).Explains rest

/-- Every bit that was clocked out is accounted for. -/
def Balanced (l : Ledger) : Prop := l.sent = l.silent + l.overlapping + l.armed.toNat

theorem explains_append (l : Ledger) (a b : List Event) :
    l.Explains (a ++ b) ↔ l.Explains a ∧ (a.foldl record l).Explains b := by
  induction a generalizing l with
  | nil => exact (true_and _ ▸ Iff.rfl)
  | cons event rest ih => exact (and_congr_right fun _ => ih _).trans and_assoc.symm

theorem balanced_record {l : Ledger} {event : Event} (allowed : l.Allows event) (balanced : l.Balanced) :
    (l.record event).Balanced := by
  unfold Balanced at balanced ⊢
  cases event with
  | clockedOut =>
    -- A bit that goes out while another one is unanswered is entered as overlapping that one.
    show l.sent + 1 = l.silent + (l.overlapping + l.armed.toNat) + 1
    omega
  | handled packet reply =>
    rw [record_handled]
    split
    · next bit =>
      -- A bit that gets no answer takes the place of the one that waited for it.
      have answer : reply.isNone = l.armed := by
        rw [Bool.eq_iff_iff, Option.isNone_iff_eq_none]
        exact allowed.1 bit
      show l.sent = l.silent + reply.isNone.toNat + l.overlapping + 0
      rw [answer]
      omega
    · exact balanced
  | _ => exact balanced

theorem balanced_of_explains {l : Ledger} {history : List Event} (explains : l.Explains history)
    (balanced : l.Balanced) : (history.foldl record l).Balanced := by
  induction history generalizing l with
  | nil => exact balanced
  | cons event rest ih => exact ih explains.2 (balanced_record explains.1 balanced)

/-- The log does not count. -/
theorem foldl_deeds (l : Ledger) (history : List Event) :
    (deeds history).foldl record l = history.foldl record l := by
  induction history generalizing l with
  | nil => rfl
  | cons event rest ih =>
    cases event with
    | noted => exact ih l
    | _ => exact ih _

/-- As long as packets only come and go, nothing waits for an answer. -/
theorem armed_of_traffic {l : Ledger} {history : List Event}
    (traffic : ∀ event ∈ history, event.isTraffic) (rest : l.armed = false) :
    (history.foldl record l).armed = false := by
  induction history generalizing l with
  | nil => exact rest
  | cons event more ih =>
    refine ih (fun e mem => traffic e (List.mem_cons_of_mem event mem)) ?_
    have traffic := traffic event (List.mem_cons_self ..)
    cases event with
    | sent | refused => exact rest
    | handled packet reply =>
      rw [record_handled]
      split
      · rfl
      · exact rest
    | _ => cases traffic

/-- To pass over the bits that make up for those that were clocked out is right as long as none of these
overlap, and where the port has just clocked one out. -/
theorem Balanced.iff {l : Ledger} (balanced : l.Balanced) :
    (l.armed ↔ l.silent < l.sent) ↔ l.overlapping = 0 ∨ l.armed := by
  unfold Balanced at balanced
  cases h : l.armed with
  | true =>
    rw [h] at balanced
    have more : l.silent < l.sent := by
      rw [balanced, Bool.toNat_true]
      omega
    exact ⟨fun _ => .inr rfl, fun _ => ⟨fun _ => more, fun _ => rfl⟩⟩
  | false =>
    rw [h, Bool.toNat_false] at balanced
    constructor
    · intro rule
      left
      have := mt rule.mpr nofun
      omega
    · rintro (none | ⟨⟨⟩⟩)
      refine ⟨nofun, fun more => ?_⟩
      omega

end Ledger

/-! ### The account of a link -/

namespace SerialPort

/-- A port whose answers are in order: every packet so far was dealt with as the account says, the port
remembers what the account says, and what went out are the bits that were to be sent. -/
structure InOrder (h : List Event) (p : SerialPort) : Prop where
  explained : Ledger.Explains {} h
  armed : p.receiver.running → p.port.pending = (Ledger.of h).armed
  wire : (packets h).filter (·.isSync) = syncs h

/-- As long as no packet was refused. -/
def Answers (h : List Event) (p : SerialPort) : Prop := (∀ event ∈ h, event.isRefusal = false) → InOrder h p

theorem Answers.same {h : List Event} {p q : SerialPort} (answers : Answers h p)
    (pending : q.receiver.running → p.receiver.running ∧ q.port.pending = p.port.pending) :
    Answers (h ++ []) q := by
  rw [List.append_nil]
  intro noRefusal
  obtain ⟨explained, armed, wire⟩ := answers noRefusal
  refine ⟨explained, fun working => ?_, wire⟩
  obtain ⟨before, same⟩ := pending working
  exact same.trans (armed before)

/-- What one step adds to an account that is in order. -/
theorem Answers.append {g h : List Event} {p q : SerialPort} (answers : Answers g p)
    (next : InOrder g p → (∀ event ∈ h, event.isRefusal = false) → (Ledger.of g).Explains h ∧
      (q.receiver.running → q.port.pending = (h.foldl Ledger.record (Ledger.of g)).armed) ∧
      (packets h).filter (·.isSync) = syncs h) : Answers (g ++ h) q := by
  intro noRefusal
  have inOrder := answers fun event mem => noRefusal event (List.mem_append_left h mem)
  obtain ⟨explains, armed, wire⟩ :=
    next inOrder fun event mem => noRefusal event (List.mem_append_right g mem)
  refine ⟨(Ledger.explains_append _ _ _).mpr ⟨inOrder.explained, explains⟩, ?_, ?_⟩
  · rw [Ledger.of, List.foldl_append]
    exact armed
  · rw [packets_append, syncs_append, List.filter_append, inOrder.wire, wire]

/-- An answer that is not refused is sent. -/
theorem deeds_answer_of_noRefusal {reply : Option Packet} {c : Connection}
    (noRefusal : ∀ event ∈ deeds (c.answer reply).trace, event.isRefusal = false) :
    deeds (c.answer reply).trace = reply.toList.map .sent := by
  rw [Connection.deeds_answer] at noRefusal ⊢
  cases reply with
  | none => rfl
  | some packet =>
    cases sent : (c.answer (some packet)).value.1 with
    | true => rfl
    | false =>
      rw [sent] at noRefusal
      exact nomatch noRefusal (.refused packet) (List.mem_singleton.mpr rfl)

/-- What the account says of a packet is what the port does with it. -/
theorem allows_outcome {l : Ledger} (packet : Packet) (s : Session Registers)
    (pending : s.port.pending = l.armed) :
    l.Allows (.handled packet (s.outcome packet).value.reply) := by
  cases bit : packet.isSync with
  | true =>
    have reply := Session.reply_outcome packet s bit
    rw [Ledger.allows_handled, reply, bit, ← pending]
    cases s.port.pending with
    | true => exact ⟨fun _ => ⟨fun _ => rfl, fun _ => rfl⟩, nofun⟩
    | false =>
      refine ⟨fun _ => ⟨nofun, nofun⟩, ?_⟩
      rintro answer ⟨⟩
      exact Packet.isSync_sync ..
  | false =>
    have other := (Protocol.handle_of_not_isSync packet (s.clock.hear packet.timestamp) s.protocol
      s.queue s.port bit).2.1
    rw [Ledger.allows_handled, bit]
    exact ⟨nofun, other⟩

/-- A bit that has come leaves no request open. -/
theorem pending_outcome {l : Ledger} (packet : Packet) (s : Session Registers)
    (pending : s.port.pending = l.armed) :
    (s.outcome packet).value.port.pending =
      (l.record (.handled packet (s.outcome packet).value.reply)).armed := by
  rw [Ledger.record_handled]
  cases bit : packet.isSync with
  | true =>
    rw [Session.port_outcome packet s bit]
    cases request : s.port.pending with
    | true => rfl
    | false => exact (Registers.pending_takeAnswer _).trans request
  | false =>
    rw [Session.port_outcome_of_not_isSync packet s bit]
    exact pending

theorem Answers.move {g h : List Event} {p : SerialPort} {s : Session Registers}
    (answers : Answers g p) (move : Session.Move p.toSession h s) :
    Answers (g ++ h) (p.withSession s) := by
  cases move with
  | read => exact answers.same fun working => ⟨working, rfl⟩
  | finish => exact answers.same nofun
  | take packet working =>
    refine answers.append fun inOrder noRefusal => ?_
    have allowed := allows_outcome packet p.toSession (inOrder.armed working)
    have pending := pending_outcome packet p.toSession (inOrder.armed working)
    rw [deeds_answer_of_noRefusal fun event mem => noRefusal event (List.mem_cons_of_mem _ mem)]
    have kind := allowed.2
    revert allowed pending kind
    generalize (p.toSession.outcome packet).value.reply = reply
    intro allowed pending kind
    cases reply with
    | none =>
      refine ⟨⟨allowed, trivial⟩, fun _ => pending, ?_⟩
      cases bit : packet.isSync <;> simp [packets, syncs, bit]
    | some answer =>
      refine ⟨⟨allowed, trivial, trivial⟩, fun _ => pending, ?_⟩
      have same := kind answer rfl
      cases bit : packet.isSync <;> simp [packets, syncs, same, bit]

/-- Every step keeps the answers in order. -/
theorem Step.answers {g h : List Event} {p q : SerialPort} (step : Step p h q) (answers : Answers g p) :
    Answers (g ++ h) q := by
  cases step with
  | receiver move => exact answers.move move
  | offer ready due drives taken =>
    refine answers.append fun _ _ => ⟨⟨trivial, trivial, trivial⟩, fun _ => rfl, ?_⟩
    exact List.filter_cons_of_pos (Packet.isSync_sync ..)
  | fail => exact answers.append fun _ noRefusal => nomatch noRefusal _ (List.mem_singleton.mpr rfl)
  | lose error stopped => exact answers.same fun working => absurd (stopped.symm.trans working) nofun
  | shift => exact answers.append fun inOrder _ => ⟨⟨trivial, trivial⟩, inOrder.armed, rfl⟩
  | complete =>
    refine answers.append fun inOrder _ => ?_
    split
    · exact ⟨⟨trivial, trivial, trivial⟩, inOrder.armed, rfl⟩
    · exact ⟨⟨trivial, trivial⟩, inOrder.armed, rfl⟩
  | _ => exact answers.same fun working => ⟨working, rfl⟩

theorem Made.answers {h : List Event} {p : SerialPort} (made : Made h p) :
    Answers (deeds h) p.reset := by
  obtain ⟨deeds_eq, greeting, fresh, moves, sound⟩ := made
  rename_i k first q s
  have begun : Answers [first] q := by
    intro _
    rcases greeting with rfl | rfl <;> exact ⟨⟨trivial, trivial⟩, fun _ => fresh.pending, rfl⟩
  have steps : Steps q k (q.withSession s) := .of_moves moves
  have answers := steps.preserves (fun _ _ _ _ step => step.answers) begun
  have traffic : ∀ event ∈ [first] ++ k, event.isTraffic := by
    intro event mem
    rcases List.mem_append.mp mem with mem | mem
    · rw [List.mem_singleton.mp mem]
      rcases greeting with rfl | rfl <;> rfl
    · exact moves.traffic event mem
  rw [deeds_eq, ← List.singleton_append]
  intro noRefusal
  obtain ⟨explained, _, wire⟩ := answers noRefusal
  exact ⟨explained, fun _ => (Ledger.armed_of_traffic traffic rfl).symm, wire⟩

end SerialPort

namespace Link

open SerialPort

/-- **When a bit of the peer gets no answer**: if the port is not reset and all packets can be sent, a bit of
the peer gets no answer exactly if the port has clocked out a bit since the last one came, and otherwise one
bit in return.  The bits without an answer are those of which fewer have come than were clocked out, as long
as no bit was clocked out before the one before was answered; after that only where the port has just
clocked one out. -/
theorem reply_iff (l : Link) (acts : List Act) (can : l.canRun acts)
    (noReset : ∀ act ∈ acts, act.isReset = false)
    (noRefusal : ∀ event ∈ (l.run acts).trace, event.isRefusal = false) {before after : List Event}
    {packet : Packet} {reply : Option Packet}
    (happens : (l.run acts).trace = before ++ .handled packet reply :: after) (bit : packet.isSync) :
    (reply = none ↔ (Ledger.of before).armed) ∧
      (∀ answer, reply = some answer → answer.isSync) ∧
      (packets (l.run acts).trace).filter (·.isSync) = syncs (l.run acts).trace ∧
      (Ledger.of before).Balanced ∧
      ((reply = none ↔ (Ledger.of before).silent < (Ledger.of before).sent) ↔
        (Ledger.of before).overlapping = 0 ∨ (Ledger.of before).armed) := by
  have answers : Answers (deeds (l.run acts).trace) (l.run acts).value := by
    refine l.run_preserves (fun _ _ made => made.answers) (fun _ _ _ _ step => step.answers) ?_ noReset
      can
    intro g p act access _ noReset answers
    have accessed := (accessed_perform access p).2
    have kept := answers.same fun working => ⟨accessed.receiver ▸ working, pending_perform access noReset p⟩
    rwa [List.append_nil] at kept
  obtain ⟨explained, _, wire⟩ := answers fun event mem => noRefusal event (List.mem_filter.mp mem).1
  rw [packets_deeds, syncs_deeds] at wire
  rw [happens, deeds_append] at explained
  -- A packet of the history is dealt with as the account of all that was before it says.
  obtain ⟨sofar, allowed, _⟩ := (Ledger.explains_append _ _ _).mp explained
  have balanced := Ledger.balanced_of_explains sofar rfl
  rw [Ledger.foldl_deeds] at allowed balanced
  obtain ⟨silent, kind⟩ := allowed
  refine ⟨silent bit, fun answer h => (kind answer h).trans bit, wire, balanced, ?_⟩
  rw [silent bit]
  exact balanced.iff

/-- Two bits are clocked out one after the other because two of the peer were there already.  Then both
answers come: the first one is passed over for the answer that it is, but the second one is answered. -/
def overlap : List Act :=
  let bit : Bytes := [104, 1, 129, 0, 0, 0, 0, 0]
  [.arrive (.data (bit ++ bit)), .writeControl 129, .tick 514, .tick 514, .arrive (.data bit),
    .arrive (.data bit)]

/-- What has happened before the second answer comes. -/
theorem reply_iff_overlap :
    let before := (called.run overlap).trace.take 14
    (Ledger.of before).armed = false ∧ (Ledger.of before).Balanced ∧
      (Ledger.of before).overlapping = 1 := by
  have happens : (called.run overlap).trace = (called.run overlap).trace.take 14 ++
      .handled (Packet.sync .master 1 129 0) (some (Packet.sync .slave 0 129 0)) ::
        (called.run overlap).trace.drop 15 := by decide
  have law := reply_iff called overlap (by decide) (by decide) (by decide) happens (by decide)
  exact ⟨by decide, law.2.2.2.1, by decide⟩

/-- A bit of the peer is answered although fewer have got no answer than were clocked out. -/
theorem reply_of_overlap :
    ∃ before after packet answer, called.canRun overlap ∧
      (∀ event ∈ (called.run overlap).trace, event.isRefusal = false) ∧
      (called.run overlap).trace = before ++ .handled packet (some answer) :: after ∧ packet.isSync ∧
      (Ledger.of before).silent < (Ledger.of before).sent := by
  refine ⟨(called.run overlap).trace.take 14, (called.run overlap).trace.drop 15,
    Packet.sync .master 1 129 0, Packet.sync .slave 0 129 0, ?_⟩
  decide

end Link

end SerialLink
