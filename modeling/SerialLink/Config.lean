import SerialLink.Archive.Layout
import SerialLink.Storage.Folder
import SerialLink.Traced
import SerialLink.Tree.Text

/-!
# Configuration

How a link is set up.  A configuration is kept in a document, under the name `link`.  Loading merges:
what the document does not say keeps its value.
-/

namespace SerialLink

/-- How a link is set up. -/
structure Config where
  /-- Where the peer is found or waited for, as `a.b.c.d:port`; an empty text means no link. -/
  peerAddress : Bytes := []
  /-- Whether to wait for the peer instead of calling it. -/
  bindAsServer : Bool := false
  /-- Whether a finished transfer raises the serial interrupt. -/
  interruptBased : Bool := false
  /-- How many milliseconds to wait for a bit of the peer; zero means for ever. -/
  transferTimeout : UInt32 := 0
  deriving DecidableEq, Inhabited, Repr

namespace Config

open Archive

/-- The parts of a configuration, all of which are kept. -/
def layout : Layout Config :=
  [{ path := [Bytes.ofString "peerAddress"]
     kind := .text
     get := fun c => c.peerAddress
     set := fun v c => { c with peerAddress := v } },
   { path := [Bytes.ofString "bindAsServer"]
     kind := .bool
     get := fun c => c.bindAsServer
     set := fun v c => { c with bindAsServer := v } },
   { path := [Bytes.ofString "interruptBased"]
     kind := .bool
     get := fun c => c.interruptBased
     set := fun v c => { c with interruptBased := v } },
   { path := [Bytes.ofString "transferTimeout"]
     kind := .u32
     get := fun c => c.transferTimeout
     set := fun v c => { c with transferTimeout := v } }]

/-- The layout of a document that holds a configuration. -/
def documentLayout : Layout Config := layout.under (Bytes.ofString "link")

/-- The document of a configuration. -/
def toTree (c : Config) : Tree := documentLayout.toTree c

/-- Merges a document into a configuration. -/
def merge (t : Tree) (c : Config) : Bool × Config := documentLayout.ofTree t c

/-- Loads what the file at a path holds, if it could be read, into a configuration, and tells whether
that went well. -/
def loadSource (path : Bytes) (source : Option Bytes) (c : Config) : Traced (Bool × Config) :=
  match source with
  | none => do
    Traced.note (.unreadableConfig path)
    return (false, c)
  | some source =>
    let (ok, c) := match Tree.parse? source with
      | none => (false, c)
      | some t => merge t c
    if ok then return (true, c)
    else do
      Traced.note (.invalidConfig path)
      return (false, c)

/-- Loads the file at a path into a configuration, and tells whether that went well. -/
def load (folder : Folder) (path : Bytes) (c : Config) : Traced (Bool × Config) :=
  loadSource path (folder.read? path) c

/-- Saves a configuration to the file at a path, if a file can be there. -/
def save? (path : Bytes) (c : Config) (folder : Folder) : Option Folder :=
  folder.write? path c.toTree.render

end Config

end SerialLink
