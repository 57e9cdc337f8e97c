import SerialLink.Proofs.Byte
import SerialLink.Proofs.Intake

/-!
# The bits of the answers

Which bit answers the peer does not depend on how far the port has come with shifting: the bits of a byte go out,
highest first, and only then the data register is looked at again (`Answer.Follow`).  In a `SerialPort.Course`
the receiver asks for such bits between any two steps of the port, and the machine loads bytes.  What ties the
counter, the byte under way and the bits so far together is `Answer.Place`; every event of a course keeps it
(`SerialPort.Course.place`).  So the answers since a byte was loaded are those of that byte, and then of what the
data register held whenever a new byte was begun (`Link.answers_follow_load`).
-/

namespace SerialLink

open Event

namespace Event

/-- The bits with which packets of the peer were answered. -/
def answerBits (history : List Event) : List UInt8 :=
  history.filterMap fun
    | .handled packet (some reply) => if packet.isSync then some reply.b2 else none
    | _ => none

variable (a b history : List Event)

@[simp] theorem answerBits_append : answerBits (a ++ b) = answerBits a ++ answerBits b :=
  List.filterMap_append

@[simp] theorem answerBits_deeds : answerBits (deeds history) = answerBits history :=
  filterMap_deeds _ (fun _ => rfl) history

variable {history}

/-- Where no packet was handled no bit was answered. -/
theorem answerBits_of_heard_nil (none : heard history = []) : answerBits history = [] := by
  refine List.filterMap_eq_nil_iff.mpr fun event mem => ?_
  have silent := List.filterMap_eq_nil_iff.mp none event mem
  cases event with
  | handled => cases silent
  | _ => rfl

end Event

/-! ### Bits that follow a byte -/

/-- A bit that was taken to answer with, and what the data register held at that moment. -/
structure Answer where
  data : UInt8
  bit : UInt8
  deriving DecidableEq, Inhabited, Repr

namespace Answer

/-- The byte whose bits make up the block of a number: at first the byte that was loaded, and then what the data
register held when the first bit of the block was taken. -/
def source (byte : UInt8) (answers : List Answer) : Nat → UInt8
  | 0 => byte
  | n + 1 => (answers[8 * (n + 1)]?.map (·.data)).getD byte

/-- The bits of each block are those of its byte, the highest one first. -/
def Follow (byte : UInt8) (answers : List Answer) : Prop :=
  ∀ n j answer, j < 8 → answers[8 * n + j]? = some answer → answer.bit = Bits.nth (source byte answers n) j

/-- Where the registers stand when some bits were taken since a byte was loaded.  A block that is not the first
one is there only if a bit of it was taken. -/
structure Place (byte : UInt8) (answers : List Answer) (r : Registers) : Prop where
  follow : Follow byte answers
  block : ∃ n, answers.length = 8 * n + r.answered ∧ r.answered ≤ 8 ∧ (n ≠ 0 → r.answered ≠ 0) ∧
    r.answer = source byte answers n

variable {byte : UInt8} {answers : List Answer} {r s : Registers}

/-- The bits that are taken later do not change the byte of a block that was begun. -/
theorem source_append {n : Nat} (begun : n ≠ 0 → 8 * n < answers.length) (more : List Answer) :
    source byte (answers ++ more) n = source byte answers n := by
  cases n with
  | zero => rfl
  | succ n => rw [source, source, List.getElem?_append_left (begun (Nat.succ_ne_zero n))]

theorem place_load (r : Registers) : Place byte [] (r.loadAnswer byte) := by
  refine ⟨?_, 0, rfl, Nat.zero_le _, fun h => absurd rfl h, rfl⟩
  intro n j answer _ found
  cases found

/-- Only the byte under way and the number of its bits count. -/
theorem Place.of_eq (place : Place byte answers r) (answer : s.answer = r.answer)
    (answered : s.answered = r.answered) : Place byte answers s := by
  obtain ⟨follow, n, length, few, begun, same⟩ := place
  refine ⟨follow, n, ?_, ?_, ?_, answer.trans same⟩
  all_goals rw [answered]; assumption

/-- Blocks to which a bit is added. -/
theorem Follow.concat {n j : Nat} {answer : Answer} (follow : Follow byte answers) (low : j < 8)
    (length : answers.length = 8 * n + j)
    (bit : answer.bit = Bits.nth (source byte (answers ++ [answer]) n) j) :
    Follow byte (answers ++ [answer]) := by
  intro m i other small found
  by_cases old : 8 * m + i < answers.length
  · rw [List.getElem?_append_left old] at found
    rw [source_append (fun _ => by omega)]
    exact follow m i other small found
  · -- It is the new bit, which determines its block and its place in it.
    have last : 8 * m + i < (answers ++ [answer]).length := (List.getElem?_eq_some_iff.mp found).1
    rw [List.length_append, List.length_singleton] at last
    obtain rfl : m = n := by omega
    obtain rfl : i = j := by omega
    rw [← length, List.getElem?_concat_length] at found
    rw [← Option.some.inj found]
    exact bit

/-- **Taking a bit**: it is the next one of the byte under way, or the first one of what the data register
holds. -/
theorem Place.take (place : Place byte answers r) :
    Place byte (answers ++ [⟨r.data, r.takeAnswer.1⟩]) r.takeAnswer.2 := by
  obtain ⟨follow, n, length, few, begun, same⟩ := place
  by_cases whole : r.answered = 8
  · have taken : r.takeAnswer = (Bits.nth r.data 0, { r with answer := r.data, answered := 1 }) := by
      unfold Registers.takeAnswer
      rw [if_pos whole]
      rfl
    have next : answers.length = 8 * (n + 1) + 0 := by omega
    have data : source byte (answers ++ [⟨r.data, r.takeAnswer.1⟩]) (n + 1) = r.data := by
      rw [source, ← Nat.add_zero (8 * (n + 1)), ← next, List.getElem?_concat_length]
      rfl
    refine ⟨follow.concat (by decide) next ?_, n + 1, ?_, ?_, ?_, ?_⟩
    · rw [data, taken]
    · rw [List.length_append, List.length_singleton, next, taken]
      rfl
    · rw [taken]
      show 1 ≤ 8
      omega
    · intro _
      rw [taken]
      exact Nat.one_ne_zero
    · rw [data, taken]
  · have taken : r.takeAnswer = (Bits.nth r.answer r.answered, { r with answered := r.answered + 1 }) := by
      unfold Registers.takeAnswer
      rw [if_neg whole]
      rfl
    have still : source byte (answers ++ [⟨r.data, r.takeAnswer.1⟩]) n = r.answer := by
      rw [source_append (fun later => by have := begun later; omega), same]
    refine ⟨follow.concat (by omega) length ?_, n, ?_, ?_, ?_, ?_⟩
    · rw [still, taken]
    · rw [List.length_append, List.length_singleton, length, taken]
      rfl
    · rw [taken]
      show r.answered + 1 ≤ 8
      omega
    · intro _
      rw [taken]
      exact Nat.succ_ne_zero _
    · rw [still, taken]

end Answer

/-! ### Courses -/

/-- What happens to the answers of a port. -/
inductive AnswerMark
  /-- A byte was loaded to answer with. -/
  | loaded (byte : UInt8)
  | taken (answer : Answer)
  deriving DecidableEq, Inhabited, Repr

namespace SerialPort

/-- The byte that is loaded to answer with when the machine accesses a port, if one is. -/
def Act.loaded? (p : SerialPort) : Act → Option UInt8
  | .writeData byte => if p.isEnabled then some byte else none
  | .write address byte => if address = dataAddress ∧ p.isEnabled then some byte else none
  | .reset => some p.reset.port.data
  | .load bytes => some (p.load bytes).2.port.data
  | .loadTree tree =>
    match tree.find [Snapshot.rootName] with
    | .node _ => some (p.loadTree tree).2.port.data
    | _ => none
  | _ => none

/-- What happens to a port, as far as the answers go.  The receiver may ask for a bit between any two steps of the
port, whatever else it is about; and the machine first writes the data register and then loads the byte. -/
inductive Course (first : SerialPort) : List AnswerMark → SerialPort → Prop
  | nothing : Course first [] first
  | step {m : List AnswerMark} {h : List Event} {p q : SerialPort} (before : Course first m p)
      (step : Step p h q) : Course first (m ++ (answerBits h).map fun bit => .taken ⟨p.port.data, bit⟩) q
  | take {m : List AnswerMark} {p : SerialPort} (before : Course first m p) :
      Course first (m ++ [.taken ⟨p.port.data, p.port.takeAnswer.1⟩])
        (p.withRegisters fun r => r.takeAnswer.2)
  | access {m : List AnswerMark} {p : SerialPort} {act : Act} (before : Course first m p)
      (access : act.isAccess) :
      Course first (m ++ (act.loaded? p).toList.map .loaded) (p.perform act).value.2
  | store {m : List AnswerMark} {p : SerialPort} (before : Course first m p) (byte : UInt8) :
      Course first m (p.withRegisters fun r => { r with data := byte })

variable {p q r : SerialPort} {m k : List AnswerMark} {h : List Event}

theorem Course.trans (before : Course p m q) (after : Course q k r) : Course p (m ++ k) r := by
  induction after with
  | nothing =>
    rw [List.append_nil]
    exact before
  | step _ step ih =>
    rw [← List.append_assoc]
    exact .step ih step
  | take _ ih =>
    rw [← List.append_assoc]
    exact .take ih
  | access _ access ih =>
    rw [← List.append_assoc]
    exact .access ih access
  | store _ byte ih => exact .store ih byte

end SerialPort

/-! ### Keeping the place -/

namespace Registers

theorem low_takeAnswer (r : Registers) : r.takeAnswer.1 &&& 1 = r.takeAnswer.1 := by
  unfold takeAnswer
  rw [UInt8.and_assoc]
  rfl

end Registers

namespace Session

/-- A move leaves the byte under way as it is, or takes the next bit of it to answer with. -/
theorem Move.answer_cases {s t : Session Registers} {h : List Event} (move : Move s h t) :
    (answerBits h = [] ∧ t.port.answer = s.port.answer ∧ t.port.answered = s.port.answered) ∨
      (answerBits h = [s.port.takeAnswer.1] ∧ t.port = s.port.takeAnswer.2) := by
  cases move with
  | read | finish => exact .inl ⟨rfl, rfl, rfl⟩
  | take packet =>
    -- Sending the answer is no answer of its own.
    have sent : answerBits (deeds (s.connection.answer (s.outcome packet).value.reply).trace) = [] :=
      answerBits_of_heard_nil (Connection.heard_answer _ _)
    rw [← List.singleton_append, answerBits_append, sent, List.append_nil]
    cases bit : packet.isSync with
    | false =>
      have same : (s.outcome packet).value.port = s.port := port_outcome_of_not_isSync packet s bit
      refine .inl ⟨?_, ?_, ?_⟩
      · cases (s.outcome packet).value.reply <;> simp [answerBits, bit]
      · exact congrArg (·.answer) same
      · exact congrArg (·.answered) same
    | true =>
      have port := port_outcome packet s bit
      rw [reply_outcome packet s bit]
      cases pending : s.port.pending with
      | true =>
        rw [pending, if_pos rfl] at port
        refine .inl ⟨rfl, ?_, ?_⟩
        · exact congrArg (·.answer) port
        · exact congrArg (·.answered) port
      | false =>
        rw [pending, if_neg Bool.false_ne_true] at port
        refine .inr ⟨?_, port⟩
        rw [if_neg Bool.false_ne_true]
        simp [answerBits, bit, Packet.sync, Packet.make, Registers.low_takeAnswer]

end Session

namespace SerialPort

variable {p q : SerialPort} {m : List AnswerMark} {h : List Event} {act : Act}

theorem Step.answer_cases (step : Step p h q) :
    (answerBits h = [] ∧ q.port.answer = p.port.answer ∧ q.port.answered = p.port.answered) ∨
      (answerBits h = [p.port.takeAnswer.1] ∧ q.port = p.port.takeAnswer.2) := by
  cases step with
  | receiver move => exact move.answer_cases
  | complete =>
    refine .inl ⟨?_, rfl, rfl⟩
    cases p.interruptBased && p.hasListener <;> rfl
  | _ => exact .inl ⟨rfl, rfl, rfl⟩

/-- A byte was loaded to answer with, or if none was, the answers go on as before. -/
structure Loads (byte? : Option UInt8) (p q : SerialPort) : Prop where
  answer : q.port.answer = byte?.getD p.port.answer
  answered : q.port.answered = if byte?.isSome then 0 else p.port.answered

theorem loads_writeData (byte : UInt8) (p : SerialPort) :
    Loads (if p.isEnabled then some byte else none) p (p.writeData byte) := by
  unfold writeData
  split <;> exact ⟨rfl, rfl⟩

theorem loads_writeControl (byte : UInt8) (p : SerialPort) : Loads none p (p.writeControl byte) := by
  unfold writeControl
  dsimp only
  split <;> exact ⟨rfl, rfl⟩

theorem loads_write (address : UInt16) (byte : UInt8) (p : SerialPort) :
    Loads (if address = dataAddress ∧ p.isEnabled then some byte else none) p (p.write address byte) := by
  unfold write
  by_cases data : address = dataAddress
  · have same : (if address = dataAddress ∧ p.isEnabled then some byte else none) =
        if p.isEnabled then some byte else none := by simp [data]
    rw [if_pos data, same]
    exact loads_writeData byte p
  · rw [if_neg data, if_neg fun both => data both.1]
    split
    · exact loads_writeControl byte p
    · exact ⟨rfl, rfl⟩

theorem loads_loadTree (tree : Tree) (p : SerialPort) :
    Loads ((Act.loadTree tree).loaded? p) p (p.loadTree tree).2 := by
  simp only [Act.loaded?, loadTree]
  generalize tree.find [Snapshot.rootName] = found
  cases found <;> exact ⟨rfl, rfl⟩

/-- When the machine accesses a port, a byte is loaded to answer with, or the answers go on as before. -/
theorem loads_perform (access : act.isAccess) (p : SerialPort) :
    Loads (act.loaded? p) p (p.perform act).value.2 := by
  cases act with
  | writeData byte => exact loads_writeData byte p
  | writeControl byte => exact loads_writeControl byte p
  | write address byte => exact loads_write address byte p
  | reset | load => exact ⟨rfl, rfl⟩
  | loadTree tree => exact loads_loadTree tree p
  | _ => cases access

/-- The byte that was loaded last, and what was taken since. -/
def since (byte : UInt8) (marks : List AnswerMark) : UInt8 × List Answer :=
  marks.foldl (fun (last, answers) mark =>
    match mark with
    | .loaded byte => (byte, [])
    | .taken answer => (last, answers ++ [answer])) (byte, [])

/-- **All that happens keeps the place in the answers.** -/
theorem Course.place {byte : UInt8} (course : Course p m q) (start : Answer.Place byte [] p.port) :
    Answer.Place (since byte m).1 (since byte m).2 q.port := by
  induction course with
  | nothing => exact start
  | step _ step ih =>
    rcases step.answer_cases with ⟨none, answer, answered⟩ | ⟨one, port⟩
    · rw [none, List.map_nil, List.append_nil]
      exact ih.of_eq answer answered
    · rw [one, since, List.foldl_append, port]
      exact ih.take
  | take _ ih =>
    rw [since, List.foldl_append]
    exact ih.take
  | @access _ p act _ access ih =>
    obtain ⟨answer, answered⟩ := loads_perform access p
    rw [since, List.foldl_append]
    cases loaded : act.loaded? p with
    | none =>
      rw [loaded] at answer answered
      exact ih.of_eq answer answered
    | some byte =>
      rw [loaded] at answer answered
      exact (Answer.place_load p.port).of_eq answer answered
  | store _ _ ih => exact ih.of_eq rfl rfl

theorem since_loaded (first byte : UInt8) (before : List AnswerMark) (answers : List Answer) :
    since first (before ++ .loaded byte :: answers.map .taken) = (byte, answers) := by
  have taken : ∀ (old : List Answer), (answers.map AnswerMark.taken).foldl (fun (last, answers) mark =>
      match mark with
      | .loaded byte => (byte, [])
      | .taken answer => (last, answers ++ [answer])) (byte, old) = (byte, old ++ answers) := by
    induction answers with
    | nil =>
      intro old
      rw [List.append_nil]
      rfl
    | cons answer rest ih =>
      intro old
      rw [List.map_cons, List.foldl_cons, ih, List.append_assoc]
      rfl
  rw [since, List.foldl_append, List.foldl_cons]
  exact taken []

/-! ### Runs are courses -/

/-- What an act is to the answers. -/
def Act.marks (p : SerialPort) (act : Act) : List AnswerMark :=
  (act.loaded? p).toList.map .loaded ++
    (answerBits (p.perform act).trace).map fun bit => .taken ⟨p.port.data, bit⟩

/-- What a run is to the answers. -/
def marks : List Act → SerialPort → List AnswerMark
  | [], _ => []
  | act :: acts, p => act.marks p ++ marks acts (p.perform act).value.2

theorem Steps.course_of_silent (steps : Steps p h q) (none : answerBits h = []) : Course p [] q := by
  induction steps with
  | refl => exact .nothing
  | @step _ _ _ h _ step _ ih =>
    rw [answerBits_append, List.append_eq_nil_iff] at none
    have first : Course _ _ _ := Course.step .nothing step
    rw [none.1] at first
    exact first.trans (ih none.2)

/-- The receiver leaves the data register alone, so that all its answers are taken while it holds the same. -/
theorem course_moves {s : Session Registers} (moves : Session.Moves p.toSession h s) :
    Course p ((answerBits h).map fun bit => .taken ⟨p.port.data, bit⟩) (p.withSession s) := by
  generalize same : p.toSession = t at moves
  induction moves generalizing p with
  | refl =>
    subst same
    exact .nothing
  | @step _ t u h k move _ ih =>
    subst same
    have first : Course p ([] ++ _) (p.withSession t) := Course.step .nothing (.receiver move)
    have more := ih (p := p.withSession t) rfl
    have data : t.port.data = p.port.data := move.kept.data
    rw [data] at more
    rw [answerBits_append, List.map_append]
    exact first.trans more

theorem course_perform (possible : act.isPossible p) (sound : p.Sound) :
    Course p (act.marks p) (p.perform act).value.2 := by
  cases access : act.isAccess with
  | true =>
    have first : Course p ([] ++ _) _ := Course.access .nothing access
    rw [Act.marks, (accessed_perform access p).1]
    exact (List.append_nil _).symm ▸ first
  | false =>
    have leads := leads_perform access possible sound
    cases arrival : act.isArrival with
    | false =>
      -- Whatever else is done, no packet is handled.
      have none : answerBits (p.perform act).trace = [] :=
        answerBits_of_heard_nil (heard_perform arrival sound)
      have course := leads.steps.course_of_silent ((answerBits_deeds _).trans none)
      have unloaded : act.loaded? p = .none := by
        cases act with
        | tick | resume | timeOut | arrive | turn => rfl
        | _ => cases access
      rw [Act.marks, none, unloaded]
      exact course
    | true =>
      cases act with
      | arrive segment =>
        have came : Course p ([] ++ _) _ := Course.step .nothing (Step.connection p (p.connection.arrive segment)
          (Connection.role_arrive _ _) fun h => (Connection.established_arrive _ _).symm.trans h)
        have moves := course_moves (p := { p with connection := p.connection.arrive segment })
          (moves_arrive segment p)
        have trace : (p.perform (.arrive segment)).trace = (p.arrive segment).trace := List.append_nil _
        rw [Act.marks, trace, ← answerBits_deeds]
        exact came.trans moves
      | _ => cases arrival

theorem course_run {acts : List Act} (can : p.canRun acts) (sound : p.Sound) :
    Course p (p.marks acts) (p.run acts).value := by
  induction acts generalizing p with
  | nil => exact .nothing
  | cons act acts ih =>
    obtain ⟨possible, can⟩ := Bool.and_eq_true _ _ ▸ can
    exact (course_perform possible sound).trans (ih can (sound_perform possible sound))

end SerialPort

/-! ### Links -/

namespace Link

open SerialPort

/-- Making a link loads a byte: the port is reset. -/
theorem place_made {l : Link} (enabled : l.made.value.isEnabled) :
    Answer.Place 0 [] l.made.value.port := by
  obtain ⟨p, _, value⟩ := made_spec enabled
  have linked : p.isEnabled := by
    rw [value] at enabled
    exact isEnabled_iff.mpr (mt (accessed_reset p).unlinked.mpr (isEnabled_iff.mp enabled))
  have loaded : p.reset.port.answer = 0 := if_pos linked
  rw [value]
  exact (Answer.place_load p.port).of_eq loaded rfl

/-- **The answers follow the byte that was loaded**: of the bits that were taken since, the first eight are those
of this byte, the highest one first, and each further eight are those of what the data register held when the
first of them was taken.  It does not matter what the port and the machine do between any two of them, nor how
far the data register is shifted meanwhile.  Every run is such a course of events. -/
theorem answers_follow_load (l : Link) (enabled : l.made.value.isEnabled) :
    (∀ m q, Course l.made.value m q → ∀ (before : List AnswerMark) (byte : UInt8) (answers : List Answer),
      .loaded 0 :: m = before ++ .loaded byte :: answers.map .taken →
        (∀ j answer, j < 8 → answers[j]? = some answer → answer.bit = Bits.nth byte j) ∧
        ∀ n first, 1 ≤ n → answers[8 * n]? = some first →
          ∀ j answer, j < 8 → answers[8 * n + j]? = some answer →
            answer.bit = Bits.nth first.data j) ∧
      ∀ acts, l.canRun acts → Course l.made.value (l.made.value.marks acts) (l.run acts).value := by
  constructor
  · intro m q course before byte answers split
    have place := course.place (place_made enabled)
    have same : since 0 m = (byte, answers) := by
      rw [← since_loaded 0 byte before answers, ← split]
      rfl
    rw [same] at place
    have follow : Answer.Follow byte answers := place.follow
    constructor
    · intro j answer low found
      refine follow 0 j answer low ?_
      rw [Nat.mul_zero, Nat.zero_add]
      exact found
    · intro n first later begun j answer low found
      have data : Answer.source byte answers n = first.data := by
        cases n with
        | zero => cases later
        | succ n =>
          rw [Answer.source, begun]
          rfl
      rw [← data]
      exact follow n j answer low found
  · intro acts can
    exact course_run (Bool.and_eq_true _ _ ▸ can).2 (sound_made enabled)

/-- The peer clocks nine ones in, and the port shifts each in before the next one comes. -/
def clocking : List Act :=
  let bit : Act := .arrive (.data [104, 1, 0, 0, 0, 0, 0, 0])
  [.writeData 0xa4, .writeControl 0x80] ++ (List.replicate 8 [bit, .tick 514]).flatten ++ [bit]

/-- The peer gets the bits of `0xa4`, although the data register changes with each, and then the first one of
`0xff`, which the register holds in the end. -/
theorem answers_follow_load_called :
    called.canRun clocking ∧
      answerBits (called.made.value.run clocking).trace = [1, 0, 1, 0, 0, 1, 0, 0, 1] ∧
      ∃ answers : List Answer, answers.length = 9 ∧
        (∀ j answer, j < 8 → answers[j]? = some answer → answer.bit = Bits.nth 0xa4 j) ∧
        ∀ answer, answers[8]? = some answer → answer.bit = Bits.nth 0xff 0 := by
  have law := answers_follow_load called (by decide)
  have can : called.canRun clocking = true := by decide
  refine ⟨can, by decide, [⟨0xa4, 1⟩, ⟨0x49, 0⟩, ⟨0x93, 1⟩, ⟨0x27, 0⟩, ⟨0x4f, 0⟩, ⟨0x9f, 1⟩, ⟨0x3f, 0⟩,
    ⟨0x7f, 0⟩, ⟨0xff, 1⟩], rfl, ?_⟩
  obtain ⟨loaded, later⟩ := law.1 _ _ (law.2 clocking can) [.loaded 0] 0xa4 [⟨0xa4, 1⟩, ⟨0x49, 0⟩, ⟨0x93, 1⟩,
    ⟨0x27, 0⟩, ⟨0x4f, 0⟩, ⟨0x9f, 1⟩, ⟨0x3f, 0⟩, ⟨0x7f, 0⟩, ⟨0xff, 1⟩] (by decide)
  exact ⟨loaded, fun answer found => later 1 ⟨0xff, 1⟩ (by decide) rfl 0 answer (by decide) found⟩

end Link

end SerialLink
