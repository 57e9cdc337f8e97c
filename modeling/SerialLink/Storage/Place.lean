import SerialLink.Bytes

/-!
# Where paths lead

A path is the bytes up to its first zero.  It leads from the folder of the program, or from the root if it
begins with a slash, from name to name; a single point stays where it is, and two points lead outwards,
but not beyond the root.  The folder of the program is in the folder for temporary files, which is in the
root; no other folders are in it.

`Place.ofPath?` tells where a path leads: to a file, to a folder, or to one of the special places of the
system.
-/

namespace SerialLink

/-- Where a path leads. -/
inductive Place
  /-- A file, which may not be there yet: of the folder of the program, or by its whole path. -/
  | file (name : Bytes)
  | folder
  /-- A device that keeps nothing; read as a whole it is empty. -/
  | void
  /-- The output of the program. -/
  | output
  /-- Where the program tells its log and its errors. -/
  | errors
  deriving DecidableEq, Inhabited, Repr

namespace Place

/-- A folder that a path goes through. -/
inductive Spot
  /-- The folder of the program. -/
  | own
  /-- A folder by the names that lead to it from the root, the last of them first. -/
  | outer (names : List Bytes)
  deriving DecidableEq, Inhabited, Repr

/-- The names that lead from the root to where a path leads, the last of them first. -/
def names (path : String) : List Bytes := (Bytes.split 47 (Bytes.ofString path)).reverse

/-- The folder for temporary files. -/
def temporary : List Bytes := names "tmp"

/-- The folders that are there on every machine. -/
def folders : List (List Bytes) :=
  [[], temporary] ++ ["dev", "dev/shm", "etc", "home", "media", "mnt", "opt", "proc", "proc/self",
    "proc/self/fd", "root", "run", "srv", "sys", "usr", "var"].map names

/-- The folders that are known by a second name, and that name. -/
def links : List (List Bytes × List Bytes) := [(names "dev/fd", names "proc/self/fd")]

/-- The special places. -/
def special : List (List Bytes × Place) :=
  [("dev/null", .void), ("dev/zero", .void), ("dev/full", .void), ("dev/random", .void),
    ("dev/urandom", .void), ("dev/stdin", .void), ("dev/stdout", .output), ("dev/stderr", .errors),
    ("proc/self/fd/0", .void), ("proc/self/fd/1", .output), ("proc/self/fd/2", .errors)].map
    fun (path, place) => (names path, place)

/-- The folder to which a name leads from a folder, if it leads to one. -/
def Spot.enter? (name : Bytes) (here : Spot) : Option Spot :=
  if name.isEmpty || name == [46] then some here
  else if name == [46, 46] then
    match here with
    | own => some (outer temporary)
    | outer names => some (outer names.tail)
  else
    match here with
    | own => none
    | outer above =>
      let inside := (links.lookup (name :: above)).getD (name :: above)
      if folders.contains inside then some (outer inside) else none

/-- Where a name leads that is not that of a folder.  New files can be made in the folders that are open
to everybody. -/
def ofName? (name : Bytes) (here : Spot) : Option Place :=
  if 255 < name.length then none
  else
    match here with
    | .own => some (.file name)
    | .outer above =>
      special.lookup (name :: above) <|>
        if above == [] || above == temporary then
          some (.file ((name :: above).reverse.flatMap fun step => 47 :: step))
        else none

/-- Where the names of a path lead from a folder. -/
def follow? : List Bytes → Spot → Option Place
  | [], _ => some .folder
  | name :: rest, here =>
    match here.enter? name with
    | some there => follow? rest there
    | none => if rest.isEmpty then ofName? name here else none

/-- Where a path leads, if it leads anywhere: a path is not empty and has fewer than 4096 bytes. -/
def ofPath? (path : Bytes) : Option Place :=
  let path := path.untilZero
  if path.isEmpty || 4096 ≤ path.length then none
  else follow? (Bytes.split 47 path) (if path.head? == some 47 then .outer [] else .own)

end Place

end SerialLink
