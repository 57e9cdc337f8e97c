/-!
# The queue of received bits

The receiver puts the peer's bits into the queue, the serial port takes them out.  Closing the queue
puts an end mark behind the bits that are still in it: those are delivered, and from then on every
look at the queue finds the mark.  `items` shows what is still to be delivered; `items_push`, `items_close`
and `items_pop` say what the operations do to it.
-/

namespace SerialLink

/-- A received bit, in the low bit of `data`, with the time at which it was sent. -/
structure BitQueue.Item where
  data : UInt8
  timestamp : UInt32
  deriving DecidableEq, Inhabited, Repr

/-- A place in the queue. -/
inductive BitQueue.Entry
  | item (item : BitQueue.Item)
  /-- The end mark; nothing comes after it. -/
  | endMark
  deriving DecidableEq, Inhabited, Repr

/-- The queue, oldest entry first. -/
structure BitQueue where
  entries : List BitQueue.Entry := []
  closed : Bool := false
  deriving DecidableEq, Inhabited, Repr

namespace BitQueue

/-- What a look at the queue finds. -/
inductive Found
  /-- An item, which is taken out. -/
  | item (item : Item)
  /-- The end mark, which stays. -/
  | closed
  /-- Nothing yet. -/
  | empty
  deriving DecidableEq, Inhabited, Repr

/-- The queue with nothing in it. -/
def fresh : BitQueue := {}

/-- The item of an entry; the end mark is none. -/
def Entry.item? : Entry → Option Item
  | .item i => some i
  | .endMark => none

/-- The items in the queue, oldest first. -/
def items (q : BitQueue) : List Item := q.entries.filterMap Entry.item?

/-- Puts an item in, unless the queue is closed. -/
def push (item : Item) (q : BitQueue) : BitQueue :=
  if q.closed then q else { q with entries := q.entries ++ [.item item] }

/-- Closes the queue; closing it again changes nothing. -/
def close (q : BitQueue) : BitQueue :=
  if q.closed then q else ⟨q.entries ++ [.endMark], true⟩

/-- Takes the oldest item out, if there is one. -/
def pop (q : BitQueue) : Found × BitQueue :=
  match q.entries with
  | [] => (.empty, q)
  | .endMark :: _ => (.closed, q)
  | .item item :: rest => (.item item, { q with entries := rest })

/-- The number of items in the queue; the end mark is not one. -/
def size (q : BitQueue) : Nat := if q.closed then q.entries.length - 1 else q.entries.length

/-- Whether every item was taken out and none will come. -/
def isExhausted (q : BitQueue) : Bool := q.closed && q.size == 0

/-! ### Looks as their callers see them -/

/-- How a look ends for its caller. -/
inductive Result
  | item
  | closed
  /-- There was nothing, and the caller waits no longer. -/
  | timeout
  deriving DecidableEq, Inhabited, Repr

/-- How a look ends that has come upon something, and what the caller's place for an item then holds. -/
def Found.answer (place : Item) : Found → Result × Item
  | .item found => (.item, found)
  | .closed => (.closed, place)
  | .empty => (.timeout, place)

/-- A look that does not wait. -/
def tryPop (place : Item) (q : BitQueue) : (Result × Item) × BitQueue :=
  (q.pop.1.answer place, q.pop.2)

/-- A look that waits while there is nothing, so many milliseconds or, if that is zero, for ever.  It is
told how the look ends that finds the queue like this when it is over; one that waits for ever is not over
as long as there is nothing. -/
def popWithin (timeout : UInt32) (place : Item) (q : BitQueue) :
    Option ((Result × Item) × BitQueue) :=
  if timeout = 0 ∧ q.entries.isEmpty then none else some (q.tryPop place)

/-! ### What is in the queue -/

@[simp] theorem items_fresh : fresh.items = [] := rfl

/-- An open queue takes an item at its end, a closed one takes none. -/
theorem items_push (item : Item) (q : BitQueue) :
    (q.push item).items = if q.closed then q.items else q.items ++ [item] := by
  unfold push
  split
  · rfl
  · rw [items, List.filterMap_append]
    rfl

/-- Closing takes nothing away and adds nothing. -/
@[simp] theorem items_close (q : BitQueue) : q.close.items = q.items := by
  unfold close
  split
  · rfl
  · rw [items, List.filterMap_append]
    exact List.append_nil q.items

/-- An item that is found was the first one, and is gone. -/
theorem items_pop {q : BitQueue} {item : Item} (h : q.pop.1 = .item item) :
    q.items = item :: q.pop.2.items := by
  unfold pop at h ⊢
  split at h
  · nomatch h
  · nomatch h
  · next first rest hq =>
    cases h
    rw [items, hq]
    rfl

/-- Whatever else a look finds, the queue stays as it is. -/
theorem pop_eq_self {q : BitQueue} (h : ∀ item, q.pop.1 ≠ .item item) : q.pop.2 = q := by
  unfold pop at h ⊢
  split at h
  · rfl
  · rfl
  · next first rest hq => exact absurd rfl (h first)

end BitQueue

end SerialLink
