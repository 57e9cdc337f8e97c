import SerialLink.BitQueue

/-!
# Order in the queue

In a queue that is `Ordered` the end mark is there exactly if the queue is closed, and stands behind the
items.  All operations keep that, and what a look at the queue finds can then be told from its items
(`pop_of_items_nil`, `pop_of_items_cons`).
-/

namespace SerialLink.BitQueue

/-- The entries are the items, and behind them the end mark if the queue is closed. -/
def Ordered (q : BitQueue) : Prop :=
  q.entries = q.items.map .item ++ if q.closed then [.endMark] else []

theorem ordered_fresh : fresh.Ordered := rfl

theorem closed_push (item : Item) (q : BitQueue) : (q.push item).closed = q.closed := by
  unfold push
  split <;> rfl

theorem closed_close (q : BitQueue) : q.close.closed = true := by
  unfold close
  split
  · assumption
  · rfl

theorem closed_pop (q : BitQueue) : q.pop.2.closed = q.closed := by
  unfold pop
  split <;> rfl

theorem Ordered.push {q : BitQueue} (h : q.Ordered) (item : Item) : (q.push item).Ordered := by
  rw [Ordered, items_push, closed_push]
  unfold BitQueue.push
  cases hc : q.closed with
  | true =>
    rw [Ordered, hc] at h
    exact h
  | false =>
    rw [Ordered, hc] at h
    simp only [Bool.false_eq_true, if_false, List.append_nil] at h ⊢
    rw [h, List.map_append]
    rfl

theorem Ordered.close {q : BitQueue} (h : q.Ordered) : q.close.Ordered := by
  rw [Ordered, items_close, closed_close]
  unfold BitQueue.close
  cases hc : q.closed with
  | true =>
    rw [Ordered, hc] at h
    exact h
  | false =>
    rw [Ordered, hc] at h
    simp only [Bool.false_eq_true, if_false, List.append_nil] at h
    simp only [Bool.false_eq_true, if_false, if_true, h]

/-- A look at a queue without items finds the end mark or nothing. -/
theorem pop_of_items_nil {q : BitQueue} (h : q.Ordered) (none : q.items = []) :
    q.pop = (if q.closed then .closed else .empty, q) := by
  rw [Ordered, none] at h
  unfold pop
  cases hc : q.closed with
  | true =>
    rw [hc] at h
    rw [h]
    rfl
  | false =>
    rw [hc] at h
    rw [h]
    rfl

/-- A look at a queue with items finds the first one. -/
theorem pop_of_items_cons {q : BitQueue} {item : Item} {rest : List Item} (h : q.Ordered)
    (some : q.items = item :: rest) :
    q.pop.1 = .item item ∧ q.pop.2.items = rest ∧ q.pop.2.Ordered := by
  rw [Ordered, some] at h
  -- The end mark is behind all items, so the first entry is the first item.
  have hp : q.pop = (.item item,
      { q with entries := rest.map .item ++ if q.closed then [.endMark] else [] }) := by
    unfold pop
    rw [h]
    rfl
  have hi : q.pop.2.items = rest := by
    have found : q.pop.1 = .item item := by rw [hp]
    rw [items_pop found] at some
    exact (List.cons.inj some).2
  refine ⟨by rw [hp], hi, ?_⟩
  rw [Ordered, hi, hp]

theorem Ordered.pop {q : BitQueue} (h : q.Ordered) : q.pop.2.Ordered := by
  cases hi : q.items with
  | nil =>
    rw [pop_of_items_nil h hi]
    exact h
  | cons => exact (pop_of_items_cons h hi).2.2

/-- If a look finds the end mark, no item is left. -/
theorem Ordered.of_pop_closed {q : BitQueue} (h : q.Ordered) (found : q.pop.1 = .closed) :
    q.items = [] ∧ q.closed = true := by
  cases items : q.items with
  | cons => cases (pop_of_items_cons h items).1.symm.trans found
  | nil =>
    rw [pop_of_items_nil h items] at found
    cases closed : q.closed with
    | true => exact ⟨rfl, rfl⟩
    | false => rw [closed] at found; cases found

/-- If a look finds nothing, an item may still come. -/
theorem Ordered.of_pop_empty {q : BitQueue} (h : q.Ordered) (found : q.pop.1 = .empty) :
    q.items = [] ∧ q.closed = false := by
  cases items : q.items with
  | cons => cases (pop_of_items_cons h items).1.symm.trans found
  | nil =>
    rw [pop_of_items_nil h items] at found
    cases closed : q.closed with
    | true => rw [closed] at found; cases found
    | false => exact ⟨rfl, rfl⟩

/-- A queue is exhausted if it is closed and without items. -/
theorem isExhausted_iff {q : BitQueue} (h : q.Ordered) :
    q.isExhausted ↔ q.closed = true ∧ q.items = [] := by
  unfold isExhausted size
  cases hc : q.closed with
  | false => simp
  | true =>
    rw [Ordered, hc] at h
    rw [h]
    simp

/-- A queue without entries is open. -/
theorem Ordered.eq_fresh {q : BitQueue} (h : q.Ordered) (empty : q.entries.isEmpty) : q = .fresh := by
  obtain ⟨entries, closed⟩ := q
  obtain rfl := List.isEmpty_iff.mp empty
  cases closed with
  | false => rfl
  | true => exact absurd h (List.append_ne_nil_of_right_ne_nil _ (List.cons_ne_nil _ _)).symm

theorem items_of_isEmpty {q : BitQueue} (h : q.entries.isEmpty) : q.items = [] := by
  rw [items, List.isEmpty_iff.mp h]
  rfl

end SerialLink.BitQueue
