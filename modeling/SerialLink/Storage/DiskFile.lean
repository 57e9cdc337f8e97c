import SerialLink.Storage.Folder
import SerialLink.Storage.Stream

/-!
# Files of a folder, opened one at a time

A file is opened for reading, for writing from its beginning, or for writing at its end.  What is
written is held back until a block is full and then goes to the folder; closing the file hands over the
rest.  Nothing can be read from a file that was opened for writing.  Trying to also ends the holding back:
what was held back is handed over, but lost if a whole block or more was asked for.  After such a loss the
next bytes are held back without room for more.
-/

namespace SerialLink

/-- What a file is opened for. -/
inductive DiskFile.Mode
  | read
  | write
  | append
  deriving DecidableEq, Inhabited, Repr

/-- A file that is open, or none. -/
inductive DiskFile.Handle
  | none
  /-- The bytes of the file that are still to be read. -/
  | reader (rest : Bytes)
  /-- Where the file is, the bytes that are held back, and how many more there is room for. -/
  | writer (place : Place) (held : Bytes) (room : Nat)
  /-- Where the file is; the bytes that were held back are lost. -/
  | stalled (place : Place)
  deriving DecidableEq, Inhabited, Repr

/-- A folder of which one file may be open. -/
structure DiskFile where
  folder : Folder := {}
  handle : DiskFile.Handle := .none
  deriving DecidableEq, Inhabited, Repr

namespace DiskFile

/-- The size of the blocks in which written bytes go to the folder. -/
def blockSize : Nat := 4096

/-- Whether a file is open. -/
def isOpen (f : DiskFile) : Bool := f.handle != .none

/-- Adds bytes at the end of what is at a place; only files keep them. -/
def extend (place : Place) (bytes : Bytes) (folder : Folder) : Folder :=
  match place with
  | .file name => folder.put name ((folder.lookup? name).getD [] ++ bytes)
  | _ => folder

/-- Hands over what is held back. -/
def flush (f : DiskFile) : DiskFile :=
  match f.handle with
  | .writer place held _ => ⟨extend place held f.folder, .writer place [] 0⟩
  | .stalled place => { f with handle := .writer place [] 0 }
  | _ => f

/-- Loses what is held back.  A file that nothing was held back from has nothing to lose. -/
def discard (f : DiskFile) : DiskFile :=
  match f.handle with
  | .writer place held room =>
    if held.isEmpty && room == 0 then f else { f with handle := .stalled place }
  | _ => f

/-- Closes the file that is open. -/
def close (f : DiskFile) : DiskFile := { f.flush with handle := .none }

/-- Opens a file, after closing the one that was open.  A folder can be opened for reading, but has
nothing to read. -/
def openAt (path : Bytes) (mode : Mode) (f : DiskFile) : DiskFile :=
  let folder := f.close.folder
  match Place.ofPath? path, mode with
  | none, _ | some .folder, .write | some .folder, .append => ⟨folder, .none⟩
  | some (.file name), .read =>
    match folder.lookup? name with
    | some content => ⟨folder, .reader content⟩
    | none => ⟨folder, .none⟩
  | some _, .read => ⟨folder, .reader []⟩
  | some (.file name), .write => ⟨folder.put name [], .writer (.file name) [] 0⟩
  | some place, _ => ⟨extend place [] folder, .writer place [] 0⟩

/-- Hands over all but what does not fill a block, which is held back. -/
def writeBlocks (place : Place) (held : Bytes) (room : Nat) (bytes : Bytes) (folder : Folder) :
    DiskFile :=
  let keep := (bytes.length - room) % blockSize
  let done := bytes.length - keep
  ⟨extend place (held ++ bytes.take done) folder, .writer place (bytes.drop done) (blockSize - keep)⟩

/-- Writes bytes; writing none at all counts as a failure. -/
def write (bytes : Bytes) (f : DiskFile) : Bool × DiskFile :=
  if bytes.isEmpty then (false, f)
  else
    match f.handle with
    | .writer place held room =>
      if bytes.length ≤ room then
        (true, { f with handle := .writer place (held ++ bytes) (room - bytes.length) })
      else (true, writeBlocks place held room bytes f.folder)
    | .stalled place =>
      if bytes.length < blockSize then (true, { f with handle := .writer place bytes 0 })
      else (true, writeBlocks place [] 0 bytes f.folder)
    | _ => (false, f)

/-- Reads over the bytes of a place; what the file does not have stays as it is.  Reading nothing at all
counts as a failure. -/
def read (place : Bytes) (f : DiskFile) : Bool × Bytes × DiskFile :=
  match f.handle with
  | .reader rest =>
    (!place.isEmpty && place.length ≤ rest.length, Bytes.overlay (rest.take place.length) place,
      { f with handle := .reader (rest.drop place.length) })
  | .writer .. | .stalled _ =>
    (false, place,
      if place.isEmpty then f else if place.length < blockSize then f.flush else f.discard)
  | .none => (false, place, f)

instance : Source DiskFile := ⟨read⟩

instance : Sink DiskFile := ⟨write⟩

end DiskFile

end SerialLink
