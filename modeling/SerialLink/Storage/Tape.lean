import SerialLink.Storage.Stream

/-!
# Tapes

A tape is a byte string in memory with one position for reading and one for writing.  Both start at
the front; rewinding takes the reading position back there.  A read past the end gives what is left,
followed by zeros, and leaves nothing unread.  What is read comes off the front of `unread` (`unread_read`),
and fills the place that was asked for (`length_read`).
-/

namespace SerialLink

/-- A byte string that is written and read piece by piece. -/
structure Tape where
  data : Bytes := []
  /-- Where the next read begins. -/
  reading : Nat := 0
  /-- Where the next write begins. -/
  writing : Nat := 0
  deriving DecidableEq, Inhabited, Repr

namespace Tape

/-- A tape with nothing on it. -/
def blank : Tape := {}

/-- A tape on which bytes have been written. -/
def ofBytes (data : Bytes) : Tape := ⟨data, 0, data.length⟩

/-- The number of bytes on the tape. -/
def size (t : Tape) : Nat := t.data.length

/-- The bytes of the tape, if there are any. -/
def contents? (t : Tape) : Option Bytes := if t.data.isEmpty then none else some t.data

/-- Takes everything off the tape. -/
def clear (_ : Tape) : Tape := blank

/-- Goes back to the front for reading. -/
def rewind (t : Tape) : Tape := { t with reading := 0 }

/-- Writes bytes, over what is there and on past the end. -/
def write (bytes : Bytes) (t : Tape) : Tape :=
  { t with
    data := t.data.take t.writing ++ bytes ++ t.data.drop (t.writing + bytes.length)
    writing := t.writing + bytes.length }

/-- Reads a number of bytes: whether as many were left, and the bytes, filled up with zeros. -/
def read (count : Nat) (t : Tape) : Bool × Bytes × Tape :=
  let bytes := (t.data.drop t.reading).take count
  (t.reading + count ≤ t.size, bytes ++ List.replicate (count - bytes.length) 0,
    { t with reading := t.reading + bytes.length })

/-! ### What is left to read -/

/-- The bytes that were not read yet. -/
def unread (t : Tape) : Bytes := t.data.drop t.reading

@[simp] theorem unread_ofBytes (data : Bytes) : (ofBytes data).unread = data := rfl

/-- A read fills the place that was asked for. -/
theorem length_read (count : Nat) (t : Tape) : (t.read count).2.1.length = count := by
  have h := List.length_take_le count (t.data.drop t.reading)
  rw [read, List.length_append, List.length_replicate]
  omega

/-- A read that finds enough gives the bytes at the front. -/
theorem bytes_read {count : Nat} {t : Tape} (h : count ≤ t.unread.length) :
    (t.read count).2.1 = t.unread.take count := by
  have hlen : ((t.data.drop t.reading).take count).length = count := by
    rw [List.length_take]
    exact Nat.min_eq_left h
  show (t.data.drop t.reading).take count ++ List.replicate (count - _) 0 = _
  rw [hlen, Nat.sub_self]
  exact List.append_nil _

/-- A read takes its bytes off the front. -/
theorem unread_read (count : Nat) (t : Tape) :
    (t.read count).2.2.unread = t.unread.drop count := by
  show t.data.drop (t.reading + ((t.data.drop t.reading).take count).length) = _
  rw [unread, List.drop_drop, List.length_take]
  rcases Nat.le_total count (t.data.drop t.reading).length with h | h
  · rw [Nat.min_eq_left h]
  · rw [Nat.min_eq_right h, ← List.drop_drop, ← List.drop_drop, List.drop_length,
      List.drop_eq_nil_of_le h]

instance : Source Tape where
  read place t := t.read place.length

instance : Sink Tape where
  write bytes t := (true, t.write bytes)

end Tape

end SerialLink
