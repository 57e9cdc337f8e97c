import SerialLink.Archive.Kind

/-!
# Values one after the other

A `Writer` puts values into a sink and a `Reader` takes them out of a source.  Both remember whether
everything went well so far; once something went wrong, that stays so.  Values may stand in nodes that have
names, as in a document, but of these nothing is left among the bytes.
-/

namespace SerialLink.Archive

/-- A value together with its kind. -/
structure Value where
  kind : Kind
  carrier : kind.Carrier

/-- A sink into which values are put. -/
structure Writer (σ : Type) where
  sink : σ
  /-- Whether the sink took everything. -/
  success : Bool := true

/-- A source from which values are taken. -/
structure Reader (σ : Type) where
  source : σ
  /-- Whether the source had everything. -/
  success : Bool := true

variable {σ : Type}

/-- Puts bytes into the sink. -/
def Writer.put [Sink σ] (bytes : Bytes) (w : Writer σ) : Writer σ :=
  let (ok, sink) := Sink.write bytes w.sink
  ⟨sink, w.success && ok⟩

/-- Puts a value into the sink, part by part. -/
def Writer.write [Sink σ] (k : Kind) (v : k.Carrier) (w : Writer σ) : Writer σ :=
  (k.parts v).foldl (fun w bytes => w.put bytes) w

/-- Takes a value from the source, over the one that is there. -/
def Reader.read [Source σ] (k : Kind) (old : k.Carrier) (r : Reader σ) : k.Carrier × Reader σ :=
  let (ok, v, source) := k.decode old r.source
  (v, ⟨source, r.success && ok⟩)

/-- Puts values into the sink, and tells after each whether everything went well. -/
def Writer.writeAll [Sink σ] : List Value → Writer σ → List Bool × Writer σ
  | [], w => ([], w)
  | v :: rest, w =>
    let w := w.write v.kind v.carrier
    let (oks, w') := writeAll rest w
    (w.success :: oks, w')

/-- Takes values from the source, and tells after each whether everything went well. -/
def Reader.readAll [Source σ] : List Value → Reader σ → List (Value × Bool) × Reader σ
  | [], r => ([], r)
  | old :: rest, r =>
    let (v, r) := r.read old.kind old.carrier
    let (vs, r') := readAll rest r
    ((⟨old.kind, v⟩, r.success) :: vs, r')

/-! ### Nodes -/

/-- A node of some name begins; whether it does. -/
def Writer.beginNode (_name : Bytes) (w : Writer σ) : Bool × Writer σ := (true, w)

/-- The node that has begun last ends. -/
def Writer.endNode (w : Writer σ) : Writer σ := w

/-- A node of some name begins; whether it does. -/
def Reader.beginNode (_name : Bytes) (r : Reader σ) : Bool × Reader σ := (true, r)

/-- The node that has begun last ends. -/
def Reader.endNode (r : Reader σ) : Reader σ := r

/-- Values one after the other, some of them in nodes. -/
inductive Script
  | done
  | value (v : Value) (rest : Script)
  | node (name : Bytes) (inside rest : Script)

namespace Script

/-- The values, wherever they stand. -/
def values : Script → List Value
  | done => []
  | value v rest => v :: rest.values
  | node _ inside rest => inside.values ++ rest.values

end Script

/-- Puts values and nodes into the sink, and tells after each value whether everything went well.  What is in a
node is put there only if the node begins. -/
def Writer.follow [Sink σ] : Script → Writer σ → List Bool × Writer σ
  | .done, w => ([], w)
  | .value v rest, w =>
    let w := w.write v.kind v.carrier
    let (oks, w') := follow rest w
    (w.success :: oks, w')
  | .node name inside rest, w =>
    let (begun, w) := w.beginNode name
    if begun then
      let (front, w) := follow inside w
      let (back, w) := follow rest w.endNode
      (front ++ back, w)
    else follow rest w

/-- Takes values and nodes from the source, and tells after each value whether everything went well. -/
def Reader.follow [Source σ] : Script → Reader σ → List (Value × Bool) × Reader σ
  | .done, r => ([], r)
  | .value old rest, r =>
    let (v, r) := r.read old.kind old.carrier
    let (vs, r') := follow rest r
    ((⟨old.kind, v⟩, r.success) :: vs, r')
  | .node name inside rest, r =>
    let (begun, r) := r.beginNode name
    if begun then
      let (front, r) := follow inside r
      let (back, r) := follow rest r.endNode
      (front ++ back, r)
    else follow rest r

end SerialLink.Archive
