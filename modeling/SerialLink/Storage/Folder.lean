import SerialLink.Storage.Place

/-!
# Folders

A folder holds files by name, and with them the files outside of it that were written.  What is written to
a special place is not kept there.
-/

namespace SerialLink

/-- The files of a folder. -/
structure Folder where
  files : List (Bytes × Bytes) := []
  deriving DecidableEq, Inhabited, Repr

namespace Folder

/-- The content of a file. -/
def lookup? (folder : Folder) (name : Bytes) : Option Bytes := folder.files.lookup name

/-- Sets the content of a file, which may be a new one. -/
def put (name content : Bytes) (folder : Folder) : Folder :=
  ⟨(name, content) :: folder.files.filter (·.1 != name)⟩

/-- What can be read as a whole at a path. -/
def read? (folder : Folder) (path : Bytes) : Option Bytes :=
  match Place.ofPath? path with
  | some (.file name) => folder.lookup? name
  | some .folder | some .void => some []
  | some .output | some .errors | none => none

/-- Writes a whole file at a path, if one can be written there. -/
def write? (folder : Folder) (path content : Bytes) : Option Folder :=
  match Place.ofPath? path with
  | some (.file name) => some (folder.put name content)
  | some .void | some .output | some .errors => some folder
  | some .folder | none => none

@[simp] theorem lookup?_put_self (folder : Folder) (name content : Bytes) :
    (folder.put name content).lookup? name = some content := by
  simp [lookup?, put]

/-- **What was written to a file is read there.** -/
theorem read?_of_write? {folder folder' : Folder} {path name content : Bytes}
    (hp : Place.ofPath? path = some (.file name)) (h : folder.write? path content = some folder') :
    folder'.read? path = some content := by
  simp only [write?, hp, Option.some.injEq] at h
  simp only [read?, hp, ← h, lookup?_put_self]

end Folder

end SerialLink
