import SerialLink.Storage.DiskFile
import SerialLink.Storage.Tape

/-!
# What streams have in common

Tapes and files differ in what they do when nothing at all is read or written, and in what a place holds after a
read that has failed.  What they have in common is this.  A source yields its bytes in their order: a read of one
byte or more takes them off the front, or fails if there are not enough (`Source.Yields`).  A sink gathers its
bytes: each write of one byte or more succeeds and puts them behind those that were written before
(`Sink.Gathers`).
-/

namespace SerialLink

variable {σ : Type} {s : σ} {front rest : Bytes}

/-! ### Sources -/

/-- A source whose unread bytes are known. -/
structure Source.Yields [Source σ] (unread : σ → Bytes) : Prop where
  enough : ∀ place s, place ≠ [] → place.length ≤ (unread s).length →
    ∃ t, Source.read place s = (true, (unread s).take place.length, t) ∧
      unread t = (unread s).drop place.length
  short : ∀ place s, (unread s).length < place.length → (Source.read place s).1 = false

/-- What is at the front of the unread bytes is read into a place of its length. -/
theorem Source.Yields.whole [Source σ] {unread : σ → Bytes} (yields : Source.Yields unread)
    (place : Bytes) (split : unread s = front ++ rest) (length : place.length = front.length) (some : front ≠ []) :
    ∃ t, Source.read place s = (true, front, t) ∧ unread t = rest := by
  have nonempty : place ≠ [] := by
    intro empty
    rw [empty] at length
    exact some (List.eq_nil_of_length_eq_zero length.symm)
  have enough : place.length ≤ (unread s).length := by
    rw [split, List.length_append]
    omega
  obtain ⟨t, read, left⟩ := yields.enough place s nonempty enough
  rw [split, length, List.take_left] at read
  rw [split, length, List.drop_left] at left
  exact ⟨t, read, left⟩

namespace Tape

theorem yields : Source.Yields unread := by
  constructor
  · intro place t nonempty enough
    have some : 0 < place.length := List.length_pos_iff.mpr nonempty
    have ok : t.reading + place.length ≤ t.size := by
      rw [unread, List.length_drop] at enough
      rw [size]
      omega
    refine ⟨(t.read place.length).2.2, ?_, unread_read _ t⟩
    show t.read place.length = _
    rw [← bytes_read enough]
    exact Prod.ext (decide_eq_true ok) rfl
  · intro place t short
    refine decide_eq_false ?_
    rw [unread, List.length_drop] at short
    rw [size]
    omega

end Tape

namespace DiskFile

/-- The bytes that are still to be read; a file that is not open for reading has none. -/
def unread (f : DiskFile) : Bytes :=
  match f.handle with
  | .reader rest => rest
  | _ => []

theorem yields : Source.Yields unread := by
  constructor
  · intro place f nonempty enough
    have some : 0 < place.length := List.length_pos_iff.mpr nonempty
    obtain ⟨folder, handle⟩ := f
    cases handle with
    | reader rest =>
      have enough : place.length ≤ rest.length := enough
      refine ⟨⟨folder, .reader (rest.drop place.length)⟩, ?_, rfl⟩
      show (!place.isEmpty && decide (place.length ≤ rest.length),
        Bytes.overlay (rest.take place.length) place, _) = (true, rest.take place.length, _)
      rw [Bytes.overlay, List.length_take, Nat.min_eq_left enough, List.drop_length, List.append_nil]
      simp [nonempty, enough]
    | _ => exact absurd enough (Nat.not_le_of_lt some)
  · intro place f short
    obtain ⟨folder, handle⟩ := f
    cases handle with
    | reader rest =>
      have short : ¬ place.length ≤ rest.length := Nat.not_le_of_lt short
      show (!place.isEmpty && decide (place.length ≤ rest.length)) = false
      rw [decide_eq_false short, Bool.and_false]
    | _ => rfl

/-- A file that is there is read from its beginning. -/
theorem unread_openAt {f : DiskFile} {path name content : Bytes}
    (leads : Place.ofPath? path = some (.file name))
    (there : f.close.folder.lookup? name = some content) : (f.openAt path .read).unread = content := by
  unfold openAt
  simp only [leads, there]
  rfl

end DiskFile

/-! ### Sinks -/

/-- A sink of which it is known which bytes it has taken. -/
structure Sink.Gathers [Sink σ] (Holds : Bytes → σ → Prop) : Prop where
  write : ∀ done bytes s, bytes ≠ [] → Holds done s →
    (Sink.write bytes s).1 = true ∧ Holds (done ++ bytes) (Sink.write bytes s).2

namespace Tape

/-- What was written is all that is on the tape, and the next write begins at its end. -/
structure Holds (done : Bytes) (t : Tape) : Prop where
  data : t.data = done
  writing : t.writing = done.length

/-- What is written goes behind what is there. -/
theorem Holds.write {done : Bytes} {t : Tape} (holds : Holds done t) (bytes : Bytes) :
    Holds (done ++ bytes) (t.write bytes) := by
  obtain ⟨data, writing⟩ := holds
  constructor
  · show t.data.take t.writing ++ bytes ++ t.data.drop (t.writing + bytes.length) = done ++ bytes
    rw [data, writing, List.take_length, List.drop_eq_nil_of_le (Nat.le_add_right _ _), List.append_nil]
  · show t.writing + bytes.length = (done ++ bytes).length
    rw [writing, List.length_append]

theorem gathers : Sink.Gathers Holds := by
  constructor
  intro done bytes t _ holds
  exact ⟨rfl, holds.write bytes⟩

end Tape

namespace DiskFile

/-- What was written to the file of a name: it has gone to the folder, or is held back. -/
def Holds (name done : Bytes) (f : DiskFile) : Prop :=
  ∃ held room, f.handle = .writer (.file name) held room ∧
    (f.folder.lookup? name).getD [] ++ held = done

theorem lookup?_extend (name bytes : Bytes) (folder : Folder) :
    (extend (.file name) bytes folder).lookup? name = some ((folder.lookup? name).getD [] ++ bytes) :=
  Folder.lookup?_put_self folder name _

theorem gathers (name : Bytes) : Sink.Gathers (Holds name) := by
  constructor
  rintro done bytes ⟨folder, handle⟩ some ⟨held, room, rfl, rfl⟩
  have nonempty : bytes.isEmpty = false := by simpa using some
  show (write bytes _).1 = true ∧ Holds name _ (write bytes _).2
  unfold write
  simp only [nonempty, Bool.false_eq_true, if_false]
  split
  · exact ⟨rfl, held ++ bytes, _, rfl, (List.append_assoc _ _ _).symm⟩
  · -- What fills a block goes to the folder, and the rest is held back.
    refine ⟨rfl, _, _, rfl, ?_⟩
    show ((extend (.file name) (held ++ bytes.take _) folder).lookup? name).getD [] ++ bytes.drop _ = _
    rw [lookup?_extend, Option.getD_some, List.append_assoc, List.append_assoc, List.take_append_drop,
      List.append_assoc]

variable {f : DiskFile} {path name : Bytes}

/-- A file that is opened for writing begins anew, one that is opened for adding with what is there. -/
theorem holds_openAt (leads : Place.ofPath? path = some (.file name)) {mode : Mode}
    (writes : mode ≠ .read) :
    Holds name (if mode = .append then (f.close.folder.lookup? name).getD [] else [])
      (f.openAt path mode) := by
  unfold openAt
  simp only [leads]
  cases mode with
  | read => exact absurd rfl writes
  | write =>
    refine ⟨[], 0, rfl, ?_⟩
    rw [Folder.lookup?_put_self]
    rfl
  | append =>
    refine ⟨[], 0, rfl, ?_⟩
    rw [lookup?_extend, Option.getD_some, List.append_nil, List.append_nil]
    rfl

/-- When a file is closed the folder holds all that was written to it. -/
theorem Holds.lookup?_close (holds : Holds name done f) : f.close.folder.lookup? name = some done := by
  obtain ⟨held, room, handle, rfl⟩ := holds
  unfold close flush
  rw [handle]
  exact lookup?_extend name held f.folder

end DiskFile

end SerialLink
