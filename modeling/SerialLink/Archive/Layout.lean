import SerialLink.Archive.Binary
import SerialLink.Storage.Tape

/-!
# Layouts

A `Layout` says which parts of a state are kept, in which order, and under which names.  It is followed
in four ways: to write the state as plain bytes or as a document, and to read it back from either.
Reading takes the parts one by one, so that a part that is missing or unusable keeps its value and the
others are still read.
-/

namespace SerialLink.Archive

/-- A part of a state that is kept. -/
structure Field (α : Type) where
  /-- The names that lead to the part in a document. -/
  path : List Bytes
  kind : Kind
  get : α → kind.Carrier
  set : kind.Carrier → α → α

/-- The parts of a state that are kept, in their order. -/
abbrev Layout (α : Type) := List (Field α)

variable {α β σ : Type}

namespace Field

/-- The part under one more name. -/
def under (name : Bytes) (f : Field α) : Field α := { f with path := name :: f.path }

/-- The part of a state within a larger state. -/
def within (get : β → α) (set : α → β → β) (f : Field α) : Field β :=
  { path := f.path
    kind := f.kind
    get := fun b => f.get (get b)
    set := fun v b => set (f.set v (get b)) b }

/-- Reads the part from a document: whether nothing unusable was there, and the state afterwards. -/
def readTree (t : Tree) (f : Field α) (a : α) : Bool × α :=
  match t.find f.path with
  | .missing => (true, a)
  | .astray => (false, a)
  | .node n =>
    match f.kind.ofTree? n with
    | some v => (true, f.set v a)
    | none => (false, a)

end Field

namespace Layout

/-- The layout with all parts under one more name. -/
def under (name : Bytes) (layout : Layout α) : Layout α := layout.map (·.under name)

/-- The layout of a state within a larger state. -/
def within (get : β → α) (set : α → β → β) (layout : Layout α) : Layout β :=
  layout.map (·.within get set)

/-- The bytes of a state. -/
def encode (layout : Layout α) (a : α) : Bytes := layout.flatMap fun f => f.kind.encode (f.get a)

/-- Puts the parts of a state into a sink. -/
def write [Sink σ] (layout : Layout α) (a : α) (w : Writer σ) : Writer σ :=
  layout.foldl (fun w f => w.write f.kind (f.get a)) w

/-- Takes the parts of a state from a source. -/
def read [Source σ] : Layout α → α → Reader σ → α × Reader σ
  | [], a, r => (a, r)
  | f :: layout, a, r =>
    let (v, r) := r.read f.kind (f.get a)
    read layout (f.set v a) r

/-- Reads a state from bytes, over the one that is there: whether all bytes were there, and the state
afterwards. -/
def decode (layout : Layout α) (bytes : Bytes) (a : α) : Bool × α :=
  let (a, r) := layout.read a (⟨Tape.ofBytes bytes, true⟩ : Reader Tape)
  (r.success, a)

/-- The document of a state. -/
def toTree (layout : Layout α) (a : α) : Tree :=
  layout.foldl (fun t f => Tree.put f.path (f.kind.toTree (f.get a)) t) .null

/-- Reads a state from a document, over the one that is there: whether nothing unusable was there, and
the state afterwards. -/
def ofTree : Layout α → Tree → α → Bool × α
  | [], _, a => (true, a)
  | f :: layout, t, a =>
    let (ok, a) := f.readTree t a
    let (oks, a) := ofTree layout t a
    (ok && oks, a)

end Layout

end SerialLink.Archive
