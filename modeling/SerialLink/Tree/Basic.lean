import SerialLink.Bytes

/-!
# Documents of named nodes

A document is a `Tree`.  A path leads from the root through members of objects.  Looking along a path
ends at a node, or misses because a node on the way is missing or null, or goes astray because a node
on the way is something that has no members.  Putting a node at the end of a path makes objects of the
nodes on the way; it is found there afterwards (`find_put`).
-/

namespace SerialLink

/-- A document. -/
inductive Tree
  | null
  | boolean (b : Bool)
  | integer (n : Int)
  /-- A number that is written with a fraction or an exponent, as it is written. -/
  | decimal (spelling : Bytes)
  | text (content : Bytes)
  | list (items : List Tree)
  | object (members : List (Bytes × Tree))
  deriving Inhabited

namespace Tree

/-- Whether a node is null. -/
def isNull : Tree → Bool
  | null => true
  | _ => false

/-- The member of a name. -/
def member? (name : Bytes) (members : List (Bytes × Tree)) : Option Tree := members.lookup name

/-- Members in which one name has a new value.  A name that is there keeps its place, a new one comes
last. -/
def setMember (name : Bytes) (value : Tree) : List (Bytes × Tree) → List (Bytes × Tree)
  | [] => [(name, value)]
  | (other, old) :: rest =>
    if name == other then (name, value) :: rest else (other, old) :: setMember name value rest

/-- What looking along a path comes upon. -/
inductive Found
  | node (t : Tree)
  /-- A node on the way, or the last one, is missing or null. -/
  | missing
  /-- A node on the way has no members. -/
  | astray
  deriving Inhabited

/-- Looks along a path. -/
def find : List Bytes → Tree → Found
  | [], t => .node t
  | _ :: _, null => .missing
  | name :: path, object members =>
    match member? name members with
    | none => .missing
    | some null => .missing
    | some t => find path t
  | _ :: _, _ => .astray

/-- Puts a node at the end of a path. -/
def put : List Bytes → Tree → Tree → Tree
  | [], value, _ => value
  | name :: path, value, object members =>
    object (setMember name (put path value ((member? name members).getD null)) members)
  | name :: path, value, _ => object [(name, put path value null)]

theorem member?_setMember (name : Bytes) (value : Tree) (members : List (Bytes × Tree)) :
    member? name (setMember name value members) = some value := by
  induction members with
  | nil => simp [setMember, member?]
  | cons m rest ih =>
    obtain ⟨other, old⟩ := m
    by_cases h : name == other
    · simp [setMember, member?, h]
    · simp only [member?] at ih
      simp [setMember, member?, h, List.lookup_cons, ih]

theorem put_ne_null {path : List Bytes} {value : Tree} (h : value.isNull = false) (t : Tree) :
    (put path value t).isNull = false := by
  cases path with
  | nil => exact h
  | cons name path => cases t <;> rfl

theorem find_cons_object {name : Bytes} {path : List Bytes} {members : List (Bytes × Tree)}
    {t : Tree} (hm : member? name members = some t) (ht : t.isNull = false) :
    find (name :: path) (object members) = find path t := by
  rw [find, hm]
  cases t <;> simp_all [isNull]

/-- **What was put at the end of a path is found there**, if it is not null. -/
theorem find_put {value : Tree} (h : value.isNull = false) (path : List Bytes) (t : Tree) :
    find path (put path value t) = .node value := by
  induction path generalizing t with
  | nil => rfl
  | cons name path ih =>
    have fresh : find (name :: path) (object [(name, put path value null)]) = .node value := by
      rw [find_cons_object (t := put path value null) (by simp [member?]) (put_ne_null h _), ih]
    cases t with
    | object members =>
      rw [put, find_cons_object (member?_setMember ..) (put_ne_null h _), ih]
    | null | boolean | integer | decimal | text | list => exact fresh

end Tree

end SerialLink
