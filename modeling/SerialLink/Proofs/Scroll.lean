import Mathlib.Data.List.DropRight
import SerialLink.Proofs.Streams

/-!
# A byte string with a place in it

A scroll is a byte string that is unrolled at a place: some of its bytes were passed, and the others lie ahead
(`Scroll`).  A tape is such a byte string, whatever is done to it: its position for writing is at the end, and the one
for reading is the place (`Scroll.Shows`).  So every call is told what it would be told of the scroll, and the bytes
are those that were written since the last clear (`Tape.written`).

Since the positions never leave the bytes, the machine may do with words and with copies from block to block what a
tape does with numbers and lists: in `Tape.read?` and `Tape.write?` every sum, every difference and every access is
checked, and no check fails as long as there is room for the positions in words (`Tape.make?_eq`).  Together:
`Tape.follows_scroll`.
-/

namespace SerialLink

namespace Tape

/-! ### Calls -/

/-- What can be asked of a tape. -/
inductive Call
  | write (bytes : Bytes)
  /-- Reads over the bytes of a place. -/
  | read (place : Bytes)
  | rewind
  | clear
  deriving DecidableEq, Inhabited, Repr

/-- What comes back from a call. -/
inductive Reply
  | done
  /-- Whether the bytes were written. -/
  | took (all : Bool)
  /-- Whether all bytes came, and what the place then holds. -/
  | gave (all : Bool) (place : Bytes)
  deriving DecidableEq, Inhabited, Repr

/-- What a call comes to. -/
def make (t : Tape) : Call → Reply × Tape
  | .write bytes => (.took (Sink.write bytes t).1, (Sink.write bytes t).2)
  | .read place =>
    (.gave (Source.read place t).1 (Source.read place t).2.1, (Source.read place t).2.2)
  | .rewind => (.done, t.rewind)
  | .clear => (.done, t.clear)

/-- Whether there is room in a word for the position at which a call would end. -/
def Call.Fits (t : Tape) : Call → Prop
  | .write bytes => t.writing + bytes.length < UInt64.size
  | .read place => t.reading + place.length < UInt64.size
  | .rewind | .clear => True

instance (t : Tape) : DecidablePred (Call.Fits t)
  | .write _ | .read _ => inferInstanceAs (Decidable (_ < _))
  | .rewind | .clear => .isTrue trivial

/-- The calls since a tape was made, the last one at the end, and what has become of the tape. -/
inductive History : List Call → Tape → Prop
  | new : History [] .blank
  | call {calls : List Call} {t u : Tape} {call : Call} {reply : Reply} (before : History calls t)
      (fits : call.Fits t) (made : t.make call = (reply, u)) : History (calls ++ [call]) u

/-- The bytes that a call writes. -/
def Call.bytes : Call → Bytes
  | .write bytes => bytes
  | _ => []

/-- All bytes that were written since the last clear. -/
def written (calls : List Call) : Bytes := (calls.rtakeWhile (· ≠ .clear)).flatMap Call.bytes

theorem written_concat (calls : List Call) (call : Call) :
    written (calls ++ [call]) = if call = .clear then [] else written calls ++ call.bytes := by
  rw [written, List.rtakeWhile_concat]
  by_cases clear : call = .clear
  · simp [clear]
  · simp [clear, written]

/-! ### What a read finds -/

variable {t : Tape} {count : Nat}

/-- A read that finds enough gives the next bytes. -/
theorem read_of_enough (inside : t.reading ≤ t.size) (enough : count ≤ t.unread.length) :
    t.read count = (true, t.unread.take count, { t with reading := t.reading + count }) := by
  have all : t.reading + count ≤ t.size := by
    rw [unread, List.length_drop] at enough
    rw [size] at inside ⊢
    omega
  have taken : ((t.data.drop t.reading).take count).length = count := List.length_take_of_le enough
  rw [← bytes_read enough]
  show (decide (t.reading + count ≤ t.size), (t.read count).2.1,
    { t with reading := t.reading + ((t.data.drop t.reading).take count).length }) = _
  rw [decide_eq_true all, taken]

/-- A read that does not find enough gives all that is left, and zeros for the rest. -/
theorem read_of_short (inside : t.reading ≤ t.size) (short : t.unread.length < count) :
    t.read count = (false, t.unread ++ List.replicate (count - t.unread.length) 0,
      { t with reading := t.size }) := by
  have length : t.unread.length = t.size - t.reading := List.length_drop
  have few : ¬ t.reading + count ≤ t.size := by omega
  have taken : (t.data.drop t.reading).take count = t.unread := List.take_of_length_le (Nat.le_of_lt short)
  have stop : t.reading + t.unread.length = t.size := by omega
  show (decide _, (t.data.drop t.reading).take count ++ List.replicate (count - _) 0,
    { t with reading := t.reading + _ }) = _
  rw [decide_eq_false few, taken, stop]

/-! ### Words and blocks -/

/-- The sum of two words, if there is room for it. -/
def sum? (m n : Nat) : Option Nat := if m + n < UInt64.size then some (m + n) else none

/-- The difference of two words, if it does not fall below zero. -/
def difference? (m n : Nat) : Option Nat := if n ≤ m then some (m - n) else none

/-- Copies a number of bytes from where they begin in one block to where they go in another, if both blocks reach
as far. -/
def copy? (count : Nat) (source : Bytes) (start : Nat) (block : Bytes) (target : Nat) : Option Bytes :=
  if count = 0 then some block
  else if start + count ≤ source.length ∧ target + count ≤ block.length then
    some (block.take target ++ (source.drop start).take count ++ block.drop (target + count))
  else none

theorem copy?_eq {source block : Bytes} {start target : Nat} (there : start + count ≤ source.length)
    (room : target + count ≤ block.length) : copy? count source start block target =
      some (block.take target ++ (source.drop start).take count ++ block.drop (target + count)) := by
  rw [copy?]
  by_cases nothing : count = 0
  · rw [if_pos nothing, nothing, List.take_zero, List.append_nil, Nat.add_zero, List.take_append_drop]
  · rw [if_neg nothing, if_pos ⟨there, room⟩]

/-- Reads over the bytes of a place, if no sum is too large for a word, no difference falls below zero, and nothing
outside of the tape and of the place is touched. -/
def read? (place : Bytes) (t : Tape) : Option (Bool × Bytes × Tape) := do
  let stop ← sum? t.reading place.length
  let all := decide (stop ≤ t.size)
  let count ← if all then some place.length else difference? t.size t.reading
  let place := if all then place else List.replicate place.length 0
  let place ← copy? count t.data t.reading place 0
  let reading ← sum? t.reading count
  return (all, place, { t with reading })

/-- The bytes of a tape that is made longer with zeros, unless it reaches as far. -/
def grown (stop : Nat) (t : Tape) : Bytes :=
  if t.size < stop then t.data ++ List.replicate (stop - t.size) 0 else t.data

/-- Writes bytes, if no sum is too large for a word and nothing outside of the tape is touched. -/
def write? (bytes : Bytes) (t : Tape) : Option (Bool × Tape) := do
  let stop ← sum? t.writing bytes.length
  let data ← copy? bytes.length bytes 0 (t.grown stop) t.writing
  return (true, { t with data, writing := stop })

/-- What a call comes to, if all checks pass. -/
def make? (t : Tape) : Call → Option (Reply × Tape)
  | .write bytes => (t.write? bytes).map fun (all, u) => (.took all, u)
  | .read place => (t.read? place).map fun (all, place, u) => (.gave all place, u)
  | .rewind => some (.done, t.rewind)
  | .clear => some (.done, t.clear)

/-- If the position is inside of the bytes, no check fails in a read. -/
theorem read?_eq {place : Bytes} (inside : t.reading ≤ t.size)
    (fits : t.reading + place.length < UInt64.size) : t.read? place = some (t.read place.length) := by
  have stop : sum? t.reading place.length = some (t.reading + place.length) := if_pos fits
  have length : t.unread.length = t.size - t.reading := List.length_drop
  by_cases all : t.reading + place.length ≤ t.size
  · have copied : copy? place.length t.data t.reading place 0 = some (t.unread.take place.length) := by
      rw [copy?_eq all (Nat.le_of_eq (Nat.zero_add _)), List.take_zero, List.nil_append, Nat.zero_add,
        List.drop_length, List.append_nil]
      rfl
    rw [read_of_enough inside (by omega)]
    simp [read?, stop, all, copied]
  · -- What is left is less than was asked for, so the difference is a number and the copy fits into the place.
    have less : t.size - t.reading ≤ place.length := by omega
    have count : difference? t.size t.reading = some (t.size - t.reading) := if_pos inside
    have copied : copy? (t.size - t.reading) t.data t.reading (List.replicate place.length 0) 0 =
        some (t.unread ++ List.replicate (place.length - t.unread.length) 0) := by
      have there : t.reading + (t.size - t.reading) ≤ t.data.length := Nat.le_of_eq (Nat.add_sub_of_le inside)
      have room : 0 + (t.size - t.reading) ≤ (List.replicate place.length (0 : UInt8)).length := by
        rw [List.length_replicate]
        omega
      have rest : (t.data.drop t.reading).take (t.size - t.reading) = t.unread :=
        List.take_of_length_le (Nat.le_of_eq length)
      rw [copy?_eq there room, rest, List.take_zero, List.nil_append, Nat.zero_add, List.drop_replicate, length]
    have reading : sum? t.reading (t.size - t.reading) = some t.size := by
      rw [sum?, Nat.add_sub_of_le inside, if_pos (by omega)]
    rw [read_of_short inside (by omega)]
    simp [read?, stop, all, count, copied, reading]

theorem le_length_grown (stop : Nat) (t : Tape) : stop ≤ (t.grown stop).length := by
  unfold grown
  split
  · rw [List.length_append, List.length_replicate, size]
    omega
  · exact Nat.le_of_not_lt ‹_›

theorem take_grown {n : Nat} (inside : n ≤ t.size) (stop : Nat) : (t.grown stop).take n = t.data.take n := by
  unfold grown
  split
  · exact List.take_append_of_le_length inside
  · rfl

theorem drop_grown (stop : Nat) (t : Tape) : (t.grown stop).drop stop = t.data.drop stop := by
  by_cases longer : t.size < stop
  · have length : (t.data ++ List.replicate (stop - t.size) (0 : UInt8)).length = stop := by
      rw [List.length_append, List.length_replicate, size]
      rw [size] at longer
      omega
    rw [grown, if_pos longer, List.drop_eq_nil_of_le (Nat.le_of_eq length),
      List.drop_eq_nil_of_le (Nat.le_of_lt longer)]
  · rw [grown, if_neg longer]

/-- If the position is inside of the bytes, no check fails in a write. -/
theorem write?_eq {bytes : Bytes} (inside : t.writing ≤ t.size)
    (fits : t.writing + bytes.length < UInt64.size) : t.write? bytes = some (true, t.write bytes) := by
  have stop : sum? t.writing bytes.length = some (t.writing + bytes.length) := if_pos fits
  have copied : copy? bytes.length bytes 0 (t.grown (t.writing + bytes.length)) t.writing =
      some (t.write bytes).data := by
    rw [copy?_eq (Nat.le_of_eq (Nat.zero_add _)) (le_length_grown _ t), take_grown inside, drop_grown,
      List.drop_zero, List.take_length]
    rfl
  simp only [write?, stop, Option.bind_eq_bind, Option.bind_some, copied]
  rfl

/-- If both positions are inside of the bytes, no check fails in a call, unless there is no room for the position at
which it would end. -/
theorem make?_eq {call : Call} (reading : t.reading ≤ t.size) (writing : t.writing ≤ t.size) :
    t.make? call = if call.Fits t then some (t.make call) else none := by
  by_cases fits : call.Fits t
  · rw [if_pos fits]
    cases call with
    | write bytes =>
      rw [make?, write?_eq writing fits]
      rfl
    | read place =>
      rw [make?, read?_eq reading fits]
      rfl
    | rewind | clear => rfl
  · rw [if_neg fits]
    cases call with
    | write bytes =>
      have stop : sum? t.writing bytes.length = none := if_neg fits
      rw [make?, write?, stop]
      rfl
    | read place =>
      have stop : sum? t.reading place.length = none := if_neg fits
      rw [make?, read?, stop]
      rfl
    | rewind | clear => exact absurd trivial fits

end Tape

/-! ### Scrolls -/

/-- A byte string with a place in it: the bytes that were passed, and those that lie ahead. -/
structure Scroll where
  passed : Bytes := []
  ahead : Bytes := []
  deriving DecidableEq, Inhabited, Repr

namespace Scroll

open Tape (Call Reply)

/-- All bytes. -/
def text (s : Scroll) : Bytes := s.passed ++ s.ahead

/-- What a call comes to.  Bytes are written behind all others; those that are read are passed, and if there are not
enough ahead all of them are, and zeros stand for the others. -/
def make (s : Scroll) : Call → Reply × Scroll
  | .write bytes => (.took true, { s with ahead := s.ahead ++ bytes })
  | .read place =>
    let count := place.length
    if count ≤ s.ahead.length then
      (.gave true (s.ahead.take count), ⟨s.passed ++ s.ahead.take count, s.ahead.drop count⟩)
    else (.gave false (s.ahead ++ List.replicate (count - s.ahead.length) 0), ⟨s.text, []⟩)
  | .rewind => (.done, ⟨[], s.text⟩)
  | .clear => (.done, {})

/-- The scroll after some calls. -/
def after : List Call → Scroll → Scroll
  | [], s => s
  | call :: rest, s => after rest (s.make call).2

theorem after_append (calls more : List Call) (s : Scroll) :
    s.after (calls ++ more) = (s.after calls).after more := by
  induction calls generalizing s with
  | nil => rfl
  | cons call calls ih => exact ih (s.make call).2

/-- What is read is only passed. -/
theorem text_make_read (s : Scroll) (place : Bytes) : (s.make (.read place)).2.text = s.text := by
  by_cases enough : place.length ≤ s.ahead.length
  · rw [make, if_pos enough]
    show s.passed ++ s.ahead.take place.length ++ s.ahead.drop place.length = s.text
    rw [List.append_assoc, List.take_append_drop]
    rfl
  · rw [make, if_neg enough]
    exact List.append_nil _

/-- Only writing and clearing change the bytes. -/
theorem text_make (s : Scroll) (call : Call) :
    (s.make call).2.text = if call = .clear then [] else s.text ++ call.bytes := by
  cases call with
  | write bytes => exact (List.append_assoc _ _ _).symm
  | read place => exact (text_make_read s place).trans (List.append_nil _).symm
  | rewind => exact (List.append_nil _).symm
  | clear => rfl

/-- All bytes are those that were written since the last clear. -/
theorem text_after (calls : List Call) : (after calls {}).text = Tape.written calls := by
  induction calls using List.reverseRecOn with
  | nil => rfl
  | append_singleton calls call ih =>
    rw [after_append, Tape.written_concat, ← ih]
    exact text_make _ call

/-- What is written lies ahead. -/
theorem ahead_after_writes (pieces : List Bytes) (s : Scroll) :
    (s.after (pieces.map .write)).ahead = s.ahead ++ pieces.flatten := by
  induction pieces generalizing s with
  | nil => exact (List.append_nil _).symm
  | cons bytes pieces ih =>
    rw [List.map_cons, after, ih, List.flatten_cons, ← List.append_assoc]
    rfl

/-! ### Tapes as scrolls -/

variable {s : Scroll} {t : Tape}

/-- A tape has the bytes of a scroll; the place is where the next read begins, and the next write begins at the
end. -/
structure Shows (s : Scroll) (t : Tape) : Prop where
  holds : Tape.Holds s.text t
  reading : t.reading = s.passed.length

theorem shows_blank : Shows {} .blank := ⟨⟨rfl, rfl⟩, rfl⟩

theorem Shows.unread (shows : Shows s t) : t.unread = s.ahead := by
  rw [Tape.unread, shows.holds.data, shows.reading, text, List.drop_left]

theorem Shows.writing (shows : Shows s t) : t.writing = t.size := by
  rw [shows.holds.writing, Tape.size, shows.holds.data]

theorem Shows.inside (shows : Shows s t) : t.reading ≤ t.size := by
  rw [shows.reading, Tape.size, shows.holds.data, text, List.length_append]
  exact Nat.le_add_right _ _

/-- A read that finds enough ahead goes on from there. -/
theorem Shows.read_enough (shows : Shows s t) {place : Bytes} (enough : place.length ≤ s.ahead.length) :
    t.make (.read place) =
      (.gave true (s.ahead.take place.length), { t with reading := t.reading + place.length }) := by
  rw [← shows.unread] at enough ⊢
  have read : Source.read place t = _ := Tape.read_of_enough shows.inside enough
  rw [Tape.make, read]

/-- A read that does not find enough ahead goes to the end. -/
theorem Shows.read_short (shows : Shows s t) {place : Bytes} (short : s.ahead.length < place.length) :
    t.make (.read place) = (.gave false (s.ahead ++ List.replicate (place.length - s.ahead.length) 0),
      { t with reading := t.size }) := by
  rw [← shows.unread] at short ⊢
  have read : Source.read place t = _ := Tape.read_of_short shows.inside short
  rw [Tape.make, read]

/-- A tape that is read from another place shows the same bytes with that place in them. -/
theorem Shows.move (shows : Shows s t) {moved : Scroll} {place : Nat} (same : moved.text = s.text)
    (there : place = moved.passed.length) : Shows moved { t with reading := place } := by
  refine ⟨⟨?_, ?_⟩, there⟩
  · exact shows.holds.data.trans same.symm
  · rw [same]
    exact shows.holds.writing

/-- **Every call does the same to a tape and to the scroll that it shows**, and is told the same. -/
theorem Shows.make (shows : Shows s t) (call : Call) :
    (t.make call).1 = (s.make call).1 ∧ Shows (s.make call).2 (t.make call).2 := by
  cases call with
  | write bytes =>
    refine ⟨rfl, ?_, shows.reading⟩
    have written := shows.holds.write bytes
    rw [text, List.append_assoc] at written
    exact written
  | read place =>
    have same := text_make_read s place
    rw [Scroll.make] at same ⊢
    by_cases enough : place.length ≤ s.ahead.length
    · rw [if_pos enough] at same ⊢
      rw [shows.read_enough enough]
      refine ⟨rfl, shows.move same ?_⟩
      rw [shows.reading, List.length_append, List.length_take_of_le enough]
    · rw [if_neg enough] at same ⊢
      rw [shows.read_short (Nat.lt_of_not_le enough)]
      exact ⟨rfl, shows.move same (congrArg List.length shows.holds.data)⟩
  | rewind => exact ⟨rfl, shows.move rfl rfl⟩
  | clear => exact ⟨rfl, shows_blank⟩

end Scroll

/-! ### Histories -/

namespace Tape

variable {t u : Tape} {calls : List Call}

/-- After every history a tape shows the scroll to which the same calls lead. -/
theorem History.shows (history : History calls t) : Scroll.Shows (Scroll.after calls {}) t := by
  induction history with
  | new => exact Scroll.shows_blank
  | @call calls t u call reply before fits made ih =>
    have next := (ih.make call).2
    rw [made] at next
    rw [Scroll.after_append]
    exact next

/-- No tape is longer than a word can tell. -/
theorem History.size_lt (history : History calls t) : t.size < UInt64.size := by
  induction history with
  | new => decide
  | @call calls t u call reply before fits made ih =>
    have next := (before.call fits made).shows.writing
    cases call with
    | write bytes =>
      cases made
      rw [← next]
      exact fits
    | read place | rewind =>
      cases made
      exact ih
    | clear =>
      cases made
      show blank.size < UInt64.size
      decide

/-- **A tape is a byte string with a place in it.**  Whatever was written, read, rewound and cleared, as long as the
positions fit into words: the next write begins at the end and the next read inside of the bytes, so that a call
touches nothing outside if its size fits; the bytes are those that were written since the last clear; and every call
is told what the scroll tells to which the same calls lead.  So a read of as many bytes as lie ahead, or fewer, gives
the next ones; a longer one gives all of them and zeros behind, fails, and goes to the end, from where the bytes that
are written later are read; and a read of nothing succeeds. -/
theorem follows_scroll (history : History calls t) :
    let s := Scroll.after calls {}
    (t.writing = t.size ∧ t.reading ≤ t.size ∧ t.size < UInt64.size) ∧
      (∀ call, t.make? call = if call.Fits t then some (t.make call) else none) ∧
      (t.data = written calls ∧ t.data = s.passed ++ s.ahead ∧ t.reading = s.passed.length) ∧
      (∀ call, (t.make call).1 = (s.make call).1) ∧
      (∀ place : Bytes, place.length ≤ s.ahead.length → t.make (.read place) =
        (.gave true (s.ahead.take place.length), { t with reading := t.reading + place.length })) ∧
      (∀ place : Bytes, s.ahead.length < place.length →
        t.make (.read place) = (.gave false (s.ahead ++ List.replicate (place.length - s.ahead.length) 0),
          { t with reading := t.size }) ∧
        ∀ (pieces : List Bytes) (u : Tape), History (calls ++ .read place :: pieces.map .write) u →
          ∀ next : Bytes, next.length = pieces.flatten.length →
            (u.make (.read next)).1 = .gave true pieces.flatten) ∧
      t.make (.read []) = (.gave true [], t) := by
  intro s
  have shows : Scroll.Shows s t := history.shows
  refine ⟨⟨shows.writing, shows.inside, history.size_lt⟩, ?_, ?_, ?_, ?_, ?_, ?_⟩
  · intro call
    exact make?_eq shows.inside (Nat.le_of_eq shows.writing)
  · exact ⟨shows.holds.data.trans (Scroll.text_after calls), shows.holds.data, shows.reading⟩
  · intro call
    exact (shows.make call).1
  · intro place enough
    exact shows.read_enough enough
  · intro place short
    refine ⟨shows.read_short short, ?_⟩
    intro pieces u later next length
    -- The short read has left nothing ahead, so what is ahead then is what was written since.
    have ahead : (Scroll.after (calls ++ .read place :: pieces.map .write) {}).ahead = pieces.flatten := by
      rw [Scroll.after_append, Scroll.after, Scroll.ahead_after_writes, Scroll.make]
      rw [if_neg (Nat.not_le_of_lt short)]
      rfl
    have enough : next.length ≤ (Scroll.after (calls ++ .read place :: pieces.map .write) {}).ahead.length := by
      rw [ahead]
      exact Nat.le_of_eq length
    rw [later.shows.read_enough enough, ahead, length, List.take_length]
  · exact shows.read_enough (Nat.zero_le _)

/-- A byte is cleared away, three are written, two of them read, and then four are asked for.  The two that are written
behind that are read next; from the front there are five. -/
theorem follows_scroll_short :
    let place : Bytes := [0xff, 0xff, 0xff, 0xff]
    let calls : List Call := [.write [9], .read [0xff], .clear, .write [1, 2, 3], .read [0xff, 0xff]]
    let more : List Call := [.read place, .write [4], .write [5]]
    ∃ t u : Tape, History calls t ∧ History (calls ++ more) u ∧ (Call.read place).Fits t ∧
      t.data = [1, 2, 3] ∧ t.make? (.read place) = some (.gave false [3, 0, 0, 0], ⟨[1, 2, 3], 3, 3⟩) ∧
      t.make (.read []) = (.gave true [], t) ∧
      (u.make (.read [0xff, 0xff])).1 = .gave true [4, 5] ∧
      u.data = [1, 2, 3, 4, 5] ∧ (u.rewind.make (.read place)).1 = .gave true [1, 2, 3, 4] := by
  intro place calls more
  have history : History calls ⟨[1, 2, 3], 2, 3⟩ :=
    .call (.call (.call (.call (.call .new (by decide) rfl) (by decide) rfl) (by decide) rfl) (by decide) rfl)
      (by decide) rfl
  have later : History (calls ++ more) ⟨[1, 2, 3, 4, 5], 3, 5⟩ :=
    .call (.call (.call history (by decide) rfl) (by decide) rfl) (by decide) rfl
  have rewound : History (calls ++ more ++ [.rewind]) ⟨[1, 2, 3, 4, 5], 0, 5⟩ := .call later (by decide) rfl
  obtain ⟨_, checked, ⟨data, _, _⟩, _, _, short, nothing⟩ := follows_scroll history
  obtain ⟨read, next⟩ := short place (by decide)
  have fits : (Call.read place).Fits ⟨[1, 2, 3], 2, 3⟩ := by decide
  refine ⟨_, _, history, later, fits, data, ?_, nothing, ?_, (follows_scroll later).2.2.1.1, ?_⟩
  · rw [checked, if_pos fits, read]
    rfl
  · exact next [[4], [5]] _ later _ rfl
  · exact (follows_scroll rewound).2.2.2.1 (.read place)

end Tape

end SerialLink
