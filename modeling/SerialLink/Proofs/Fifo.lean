import SerialLink.Proofs.Queue

/-!
# The queue as its callers see it

Everything that a call is told follows from the calls that came before it.  A `BitQueue.History` lists the
calls since a queue was made, each with what came back; only those since the last reset count
(`BitQueue.since`).  Of these the items pushed before the first `close` are the ones that are handed out
(`BitQueue.accepted`), in their order and once each, and behind them stands the end (`BitQueue.expected`).
That the queue does so is `BitQueue.history_expected`; `BitQueue.Follows` is what every call keeps.
-/

namespace SerialLink.BitQueue

/-! ### Calls -/

/-- What can be asked of a queue. -/
inductive Call
  | push (item : Item)
  | close
  | popWithin (timeout : UInt32) (place : Item)
  | tryPop (place : Item)
  | size
  | isClosed
  | reset
  deriving DecidableEq

/-- What comes back from a call. -/
inductive Reply
  | done
  /-- How a look has ended, and what the caller's place then holds. -/
  | found (result : Result) (place : Item)
  | count (n : Nat)
  | truth (b : Bool)
  deriving DecidableEq

/-- What a call comes to.  A look that waits for ever may not come back as long as the queue stays as it
is. -/
def make (q : BitQueue) : Call → Option (Reply × BitQueue)
  | .push item => some (.done, q.push item)
  | .close => some (.done, q.close)
  | .popWithin timeout place =>
    (q.popWithin timeout place).map fun look => (.found look.1.1 look.1.2, look.2)
  | .tryPop place => some (.found (q.tryPop place).1.1 (q.tryPop place).1.2, (q.tryPop place).2)
  | .size => some (.count q.size, q)
  | .isClosed => some (.truth q.closed, q)
  | .reset => some (.done, .fresh)

/-- The calls since a queue was made, the last one at the end, and what has become of the queue. -/
inductive History : List (Call × Reply) → BitQueue → Prop
  | new : History [] .fresh
  | call {h : List (Call × Reply)} {q r : BitQueue} {call : Call} {reply : Reply}
      (before : History h q) (made : q.make call = some (reply, r)) : History (h ++ [(call, reply)]) r

/-! ### What counts of the calls -/

/-- The calls since the last reset. -/
def since (h : List (Call × Reply)) : List (Call × Reply) :=
  h.foldl (fun seen made => if made.1 = .reset then [] else seen ++ [made]) []

/-- The item that a call has returned. -/
def returned? : Call × Reply → Option Item
  | (_, .found .item item) => some item
  | _ => none

/-- Whether the queue was closed. -/
def ended (h : List (Call × Reply)) : Bool := h.any (·.1 = .close)

/-- The items that were pushed before the first close. -/
def accepted : List (Call × Reply) → List Item
  | [] => []
  | (.close, _) :: _ => []
  | (.push item, _) :: rest => item :: accepted rest
  | _ :: rest => accepted rest

/-- The items that were returned. -/
def returned (h : List (Call × Reply)) : List Item := h.filterMap returned?

/-- What a look is told: the first item that was accepted and not returned, or else whether more may
come. -/
def told (place : Item) (h : List (Call × Reply)) : Reply :=
  match (accepted h).drop (returned h).length with
  | item :: _ => .found .item item
  | [] => .found (if ended h then .closed else .timeout) place

/-- What a call is told, if it comes back: one that waits for ever does not while the queue is open and all
that was accepted is returned. -/
def expected (h : List (Call × Reply)) : Call → Option Reply
  | .push _ | .close | .reset => some .done
  | .popWithin timeout place =>
    if timeout = 0 ∧ ended h = false ∧ returned h = accepted h then none else some (told place h)
  | .tryPop place => some (told place h)
  | .size => some (.count ((accepted h).length - (returned h).length))
  | .isClosed => some (.truth (ended h))

variable {h k : List (Call × Reply)} {q r : BitQueue} {call : Call} {reply : Reply}

theorem since_concat (made : Call × Reply) :
    since (h ++ [made]) = if made.1 = .reset then [] else since h ++ [made] := by
  rw [since, List.foldl_append]
  rfl

/-- Without a reset nothing is let go. -/
theorem since_append (kept : ∀ made ∈ k, made.1 ≠ .reset) : since (h ++ k) = since h ++ k := by
  induction k generalizing h with
  | nil => simp
  | cons made k ih =>
    have first : since (h ++ [made]) = since h ++ [made] := by
      rw [since_concat, if_neg (kept made (List.mem_cons_self ..))]
    have rest := ih (h := h ++ [made]) fun m mem => kept m (List.mem_cons_of_mem made mem)
    rw [List.append_cons, rest, first, List.append_assoc]
    rfl

theorem ended_append : ended (h ++ k) = (ended h || ended k) := List.any_append

theorem returned_append : returned (h ++ k) = returned h ++ returned k := List.filterMap_append

/-- After the first close nothing is accepted any more. -/
theorem accepted_append : accepted (h ++ k) = accepted h ++ if ended h then [] else accepted k := by
  induction h with
  | nil => rfl
  | cons made h ih =>
    obtain ⟨call, reply⟩ := made
    have rest : call ≠ .close → ended ((call, reply) :: h) = ended h := by
      intro going
      simp [ended, going]
    cases call with
    | close => simp [accepted, ended]
    | push item => rw [List.cons_append, accepted, accepted, ih, rest nofun, List.cons_append]
    | _ => rw [List.cons_append, accepted, accepted, ih, rest nofun] <;> exact nofun

/-! ### What every call keeps -/

/-- A queue holds what was accepted and is not returned, and is closed if it was closed. -/
structure Follows (h : List (Call × Reply)) (q : BitQueue) : Prop where
  ordered : q.Ordered
  closed : q.closed = ended h
  items : returned h ++ q.items = accepted h

theorem Follows.awaited (follows : Follows h q) :
    (accepted h).drop (returned h).length = q.items := by
  rw [← follows.items]
  exact List.drop_left

theorem Follows.drained_iff (follows : Follows h q) : returned h = accepted h ↔ q.items = [] := by
  rw [← follows.items]
  exact List.self_eq_append_right

theorem Follows.told_eq (follows : Follows h q) (place : Item) :
    .found (q.tryPop place).1.1 (q.tryPop place).1.2 = told place h := by
  unfold told tryPop
  rw [follows.awaited]
  cases items : q.items with
  | nil =>
    rw [pop_of_items_nil follows.ordered items, ← follows.closed]
    cases q.closed <;> rfl
  | cons item rest =>
    rw [(pop_of_items_cons follows.ordered items).1]
    rfl

/-- A call that neither pushes nor closes brings nothing in. -/
theorem Follows.calm (follows : Follows h q) (noPush : ∀ item, call ≠ .push item) (noClose : call ≠ .close)
    (ordered : r.Ordered) (closed : r.closed = q.closed)
    (taken : (returned? (call, reply)).toList ++ r.items = q.items) : Follows (h ++ [(call, reply)]) r := by
  have silent : accepted [(call, reply)] = [] := by
    cases call with
    | push item => exact absurd rfl (noPush item)
    | close => exact absurd rfl noClose
    | _ => rfl
  have once : returned [(call, reply)] = (returned? (call, reply)).toList := by
    rw [returned, List.filterMap_cons]
    cases returned? (call, reply) <;> rfl
  refine ⟨ordered, ?_, ?_⟩
  · rw [closed, follows.closed, ended_append]
    simp [ended, noClose]
  · rw [accepted_append, silent, returned_append, once, List.append_assoc, taken, follows.items]
    simp

theorem Follows.push (follows : Follows h q) (item : Item) :
    Follows (h ++ [(.push item, .done)]) (q.push item) := by
  obtain ⟨ordered, closed, fifo⟩ := follows
  have nothing : returned [(.push item, .done)] = [] := rfl
  refine ⟨ordered.push item, ?_, ?_⟩
  · rw [closed_push, closed, ended_append]
    simp [ended]
  · rw [items_push, closed, accepted_append, returned_append, nothing, List.append_nil, ← fifo]
    cases ended h <;> simp [accepted]

theorem Follows.close (follows : Follows h q) : Follows (h ++ [(.close, .done)]) q.close := by
  obtain ⟨ordered, closed, fifo⟩ := follows
  have nothing : returned [(.close, .done)] = [] := rfl
  refine ⟨ordered.close, ?_, ?_⟩
  · rw [closed_close, ended_append]
    simp [ended]
  · rw [items_close, accepted_append, returned_append, nothing, List.append_nil, fifo]
    simp [accepted]

/-- What a look finds is returned, and nothing else is taken out. -/
theorem Follows.tryPop (follows : Follows h q) (place : Item) (noPush : ∀ item, call ≠ .push item)
    (noClose : call ≠ .close) :
    Follows (h ++ [(call, .found (q.tryPop place).1.1 (q.tryPop place).1.2)]) (q.tryPop place).2 := by
  refine follows.calm noPush noClose follows.ordered.pop (closed_pop q) ?_
  unfold BitQueue.tryPop
  cases items : q.items with
  | nil =>
    rw [pop_of_items_nil follows.ordered items]
    cases q.closed <;> simp [returned?, Found.answer, items]
  | cons item rest =>
    obtain ⟨found, left, _⟩ := pop_of_items_cons follows.ordered items
    simp [returned?, Found.answer, found, left]

/-- A look waits for ever only if the queue is open and all that was accepted is returned. -/
theorem Follows.popWithin_eq (follows : Follows h q) (timeout : UInt32) (place : Item) :
    q.popWithin timeout place =
      if timeout = 0 ∧ ended h = false ∧ returned h = accepted h then none
      else some (q.tryPop place) := by
  have nothing : q.entries.isEmpty = true ↔ ended h = false ∧ returned h = accepted h := by
    rw [List.isEmpty_iff, follows.drained_iff, ← follows.closed, follows.ordered]
    cases q.closed <;> simp
  simp only [popWithin, nothing]

/-- The number of items is the number of those accepted and not returned. -/
theorem Follows.size_eq (follows : Follows h q) :
    q.size = (accepted h).length - (returned h).length := by
  have entries : q.entries.length = q.items.length + if q.closed then 1 else 0 := by
    rw [follows.ordered, List.length_append, List.length_map]
    cases q.closed <;> rfl
  have fifo : (accepted h).length = (returned h).length + q.items.length := by
    rw [← follows.items, List.length_append]
  unfold size
  split at entries <;> simp [*]

/-- A call is told what is to be expected after those before it. -/
theorem Follows.expected_eq (follows : Follows h q) (call : Call) :
    (q.make call).map (·.1) = expected h call := by
  cases call with
  | push | close | reset => rfl
  | popWithin timeout place =>
    rw [make, expected, follows.popWithin_eq, ← follows.told_eq place]
    split <;> rfl
  | tryPop place => exact congrArg some (follows.told_eq place)
  | size => exact congrArg (some ∘ Reply.count) follows.size_eq
  | isClosed => exact congrArg (some ∘ Reply.truth) follows.closed

/-- Every call but a reset leaves a queue that holds what it should. -/
theorem Follows.make (follows : Follows h q) (made : q.make call = some (reply, r))
    (kept : call ≠ .reset) : Follows (h ++ [(call, reply)]) r := by
  cases call with
  | push item =>
    cases made
    exact follows.push item
  | close =>
    cases made
    exact follows.close
  | popWithin timeout place =>
    simp only [BitQueue.make, follows.popWithin_eq] at made
    split at made
    · cases made
    · cases made
      exact follows.tryPop place nofun nofun
  | tryPop place =>
    cases made
    exact follows.tryPop place nofun nofun
  | size | isClosed =>
    cases made
    exact follows.calm nofun nofun follows.ordered rfl rfl
  | reset => exact absurd rfl kept

/-- In every history the queue holds what was accepted since the last reset and is not returned. -/
theorem History.follows (history : History h q) : Follows (since h) q := by
  induction history with
  | new => exact ⟨ordered_fresh, rfl, rfl⟩
  | @call h q r call reply before made ih =>
    rw [since_concat]
    by_cases reset : call = .reset
    · subst reset
      cases made
      exact ⟨ordered_fresh, rfl, rfl⟩
    · rw [if_neg reset]
      exact ih.make made reset

/-- When the queue was closed and all is returned, that stays so. -/
theorem Follows.drained_append (follows : Follows (h ++ k) q) (ending : ended h = true)
    (all : returned h = accepted h) :
    ended (h ++ k) = true ∧ returned (h ++ k) = accepted (h ++ k) := by
  have still : ended (h ++ k) = true := by
    rw [ended_append, ending, Bool.true_or]
  have fifo := follows.items
  rw [accepted_append, returned_append, ending, if_pos rfl, List.append_nil, ← all, List.append_assoc]
    at fifo
  -- What is returned later would have to be more than was accepted.
  have nothing : returned k = [] := (List.append_eq_nil_iff.mp (List.append_right_eq_self.mp fifo)).1
  refine ⟨still, ?_⟩
  rw [accepted_append, returned_append, ending, if_pos rfl, nothing, all]

/-- **The queue hands out what was pushed before the first close, in order and once each, and then the
end.**  Since the last reset, whatever was called: every call is told what `expected` says, no more is ever
taken out than was put in, once the queue was closed neither pushing nor closing does anything, and once the
end was found it is found by every look until a reset. -/
theorem history_expected (history : History h q) :
    let s := since h
    (∀ call, (q.make call).map (·.1) = expected s call) ∧
      returned s <+: accepted s ∧ (q.closed = true → q.entries ≠ []) ∧
      (ended s = true → q.close = q ∧ ∀ item, q.push item = q) ∧
      (ended s = true → returned s = accepted s → ∀ k r, History (h ++ k) r →
        (∀ made ∈ k, made.1 ≠ .reset) → ∀ timeout place,
          r.make (.tryPop place) = some (.found .closed place, r) ∧
          r.make (.popWithin timeout place) = some (.found .closed place, r)) := by
  intro s
  have follows : Follows s q := history.follows
  refine ⟨follows.expected_eq, ⟨q.items, follows.items⟩, ?_, ?_, ?_⟩
  · intro closed
    rw [follows.ordered, closed]
    simp
  · intro ending
    have closed : q.closed = true := follows.closed.trans ending
    constructor
    · rw [BitQueue.close, if_pos closed]
    · intro item
      rw [BitQueue.push, if_pos closed]
  · intro ending all k r later kept timeout place
    have behind : Follows (s ++ k) r := since_append (h := h) kept ▸ later.follows
    obtain ⟨ending, all⟩ := behind.drained_append ending all
    have closed : r.closed = true := behind.closed.trans ending
    have found : r.tryPop place = ((.closed, place), r) := by
      rw [BitQueue.tryPop, pop_of_items_nil behind.ordered (behind.drained_iff.mp all), closed]
      rfl
    constructor
    · rw [make, found]
    · rw [make, behind.popWithin_eq, ending, found, if_neg (by simp)]
      rfl

/-- Two items are pushed, one before the queue is closed and one behind that. -/
theorem history_expected_closed :
    let item : Item := ⟨1, 5⟩
    let late : Item := ⟨0, 6⟩
    let h : List (Call × Reply) := [(.push late, .done), (.reset, .done), (.push item, .done),
      (.close, .done), (.push late, .done), (.tryPop late, .found .item item)]
    ∃ q, History h q ∧ returned (since h) = [item] ∧ accepted (since h) = [item] ∧
      (q.make .size).map (·.1) = some (.count 0) ∧
      q.make (.popWithin 0 late) = some (.found .closed late, q) := by
  intro item late h
  have history : History h ⟨[.endMark], true⟩ :=
    .call (.call (.call (.call (.call (.call .new rfl) rfl) rfl) rfl) rfl) rfl
  obtain ⟨told, _, _, _, final⟩ := history_expected history
  refine ⟨_, history, rfl, rfl, told .size, ?_⟩
  exact (final rfl rfl [] _ (by simpa using history) nofun 0 late).2

end SerialLink.BitQueue
