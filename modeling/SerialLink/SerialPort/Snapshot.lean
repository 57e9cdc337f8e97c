import SerialLink.Archive.ClockLayout
import SerialLink.SerialPort.Basic

/-!
# Saved states

Of the state of the port the registers and the clock are kept; the link is not.  A byte that was under
way when a state is loaded starts anew, and the answers to the peer start with the loaded data register.
-/

namespace SerialLink

/-- What is kept of the state of a port. -/
structure Snapshot where
  data : UInt8
  control : UInt8
  clock : Clock
  deriving DecidableEq, Inhabited, Repr

namespace Snapshot

open Archive

/-- The parts of a snapshot: the registers, and the clock under a name of its own. -/
def layout : Layout Snapshot :=
  [{ path := [Bytes.ofString "SB"]
     kind := .u8
     get := fun s => s.data
     set := fun v s => { s with data := v } },
   { path := [Bytes.ofString "SC"]
     kind := .u8
     get := fun s => s.control
     set := fun v s => { s with control := v } }] ++
  (Clock.layout.under (Bytes.ofString "clock")).within (fun s => s.clock)
    fun clock s => { s with clock }

/-- The name under which a document holds a snapshot. -/
def rootName : Bytes := Bytes.ofString "link"

/-- The layout of a document that holds a snapshot. -/
def documentLayout : Layout Snapshot := layout.under rootName

end Snapshot

namespace SerialPort

/-- What is kept of the state of the port. -/
def snapshot (p : SerialPort) : Snapshot := ⟨p.port.data, p.port.control, p.clock⟩

/-- Takes over a state that was kept.  Without a link the data register stays as it is. -/
def restore (s : Snapshot) (p : SerialPort) : SerialPort :=
  let data := if p.isEnabled then s.data else 0xff
  { p with
    clock := s.clock
    port := { p.port with data, control := s.control, answer := data, answered := 0 }
    transferredBits := 0
    cycleCount := 0 }

/-- The state of the port as bytes. -/
def save (p : SerialPort) : Bytes := Snapshot.layout.encode p.snapshot

/-- Loads a state from bytes, and tells whether there were enough. -/
def load (bytes : Bytes) (p : SerialPort) : Bool × SerialPort :=
  let (ok, s) := Snapshot.layout.decode bytes p.snapshot
  (ok, p.restore s)

/-- The state of the port as a document. -/
def toTree (p : SerialPort) : Tree := Snapshot.documentLayout.toTree p.snapshot

/-- Loads a state from a document, if the document holds one, and tells whether nothing in it was
unusable. -/
def loadTree (t : Tree) (p : SerialPort) : Bool × SerialPort :=
  let (ok, s) := Snapshot.documentLayout.ofTree t p.snapshot
  match t.find [Snapshot.rootName] with
  | .node _ => (ok, p.restore s)
  | _ => (ok, p)

end SerialPort

end SerialLink
