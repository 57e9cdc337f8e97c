import SerialLink.Tree.Basic

/-!
# Paths in documents

A path leads from node to node as long as none of them is missing or null (`Tree.at?`), and it is a mistake of the
document if a node on the way has no members (`Tree.isOpenAlong`): these two tell what looking along a path comes
upon (`Tree.find_eq`).  What is put at the end of a path is there (`Tree.at?_put`), and what is at the end of another
one stays there, if neither path leads through the end of the other (`Tree.at?_put_of_diverge`).
-/

namespace SerialLink

/-! ### Where paths lead -/

namespace Tree

variable {name : Bytes} {path : List Bytes} {t n : Tree} {members : List (Bytes × Tree)}

/-- Whether a node has members, or is null and lacks them all. -/
def isOpen : Tree → Bool
  | null | object _ => true
  | _ => false

/-- The member of a name, if a node has one that is not null. -/
def child? (name : Bytes) : Tree → Option Tree
  | object members => (member? name members).filter fun t => !t.isNull
  | _ => none

/-- The node to which a path leads, if none on the way is missing or null. -/
def at? : List Bytes → Tree → Option Tree
  | [], t => some t
  | name :: path, t => (t.child? name).bind (at? path)

/-- Whether the node to which a path leads can have members, if it leads to one. -/
def OpensAt (path : List Bytes) (t : Tree) : Prop := ∀ n, t.at? path = some n → n.isOpen = true

/-- Whether the nodes on the way can have members, as far as there are any. -/
def isOpenAlong : List Bytes → Tree → Bool
  | [], _ => true
  | name :: path, t => t.isOpen && (t.child? name).all (isOpenAlong path)

theorem eq_null_of_isNull (null : n.isNull = true) : n = .null := by
  cases n with
  | null => rfl
  | boolean | integer | decimal | text | list | object => cases null

theorem child?_of_member (member : member? name members = some n) :
    (object members).child? name = if n.isNull then none else some n := by
  rw [child?, member, Option.filter_some]
  cases n <;> rfl

/-- What looking along a path comes upon. -/
theorem find_eq (path : List Bytes) (t : Tree) : t.find path =
    match t.at? path with
    | some n => .node n
    | none => if t.isOpenAlong path then .missing else .astray := by
  induction path generalizing t with
  | nil => rfl
  | cons name path ih =>
    cases t with
    | object members =>
      cases member : member? name members with
      | none => simp [find, at?, child?, isOpenAlong, isOpen, member]
      | some n =>
        rw [at?, isOpenAlong, child?_of_member member]
        cases null : n.isNull with
        | true =>
          rw [find, member, eq_null_of_isNull null]
          rfl
        | false =>
          rw [find_cons_object member null, ih]
          rfl
    | null | boolean | integer | decimal | text | list => rfl

theorem find_of_at? (leads : t.at? path = some n) : t.find path = .node n := by
  rw [find_eq, leads]

theorem find_of_none (none : t.at? path = none) :
    t.find path = if t.isOpenAlong path then .missing else .astray := by
  rw [find_eq, none]

/-- One more name on a path needs one more node that can have members. -/
theorem isOpenAlong_concat (front : List Bytes) (name : Bytes) (t : Tree) :
    t.isOpenAlong (front ++ [name]) = true ↔ t.isOpenAlong front = true ∧ t.OpensAt front := by
  induction front generalizing t with
  | nil => simp [isOpenAlong, OpensAt, at?]
  | cons first front ih =>
    rw [List.cons_append, isOpenAlong, isOpenAlong, Bool.and_eq_true, Bool.and_eq_true, and_assoc]
    refine and_congr_right fun _ => ?_
    cases child : t.child? first with
    | none => simp [OpensAt, at?, child]
    | some n =>
      have same : t.OpensAt (first :: front) ↔ n.OpensAt front := by rw [OpensAt, at?, child]; rfl
      rw [same, Option.all_some, Option.all_some, ih]

theorem isOpenAlong_singleton (name : Bytes) (t : Tree) : t.isOpenAlong [name] = true ↔ t.OpensAt [] := by
  rw [← List.nil_append [name], isOpenAlong_concat, isOpenAlong]
  exact and_iff_right rfl

theorem isOpenAlong_pair (first name : Bytes) (t : Tree) :
    t.isOpenAlong [first, name] = true ↔ t.OpensAt [] ∧ t.OpensAt [first] := by
  rw [← isOpenAlong_singleton first]
  exact isOpenAlong_concat [first] name t

theorem isOpenAlong_triple (first second name : Bytes) (t : Tree) : t.isOpenAlong [first, second, name] = true ↔
    t.OpensAt [] ∧ t.OpensAt [first] ∧ t.OpensAt [first, second] := by
  rw [← and_assoc, ← isOpenAlong_pair first second]
  exact isOpenAlong_concat [first, second] name t

/-- Where a path leads to a node, it has not gone astray. -/
theorem isOpenAlong_of_at? (leads : t.at? path = some n) : t.isOpenAlong path = true := by
  induction path generalizing t with
  | nil => rfl
  | cons name path ih =>
    obtain ⟨child, found, further⟩ := Option.bind_eq_some_iff.mp leads
    have opens : t.isOpen = true := by
      cases t with
      | object => rfl
      | null | boolean | integer | decimal | text | list => cases found
    rw [isOpenAlong, opens, found]
    exact ih further

/-! ### Putting nodes -/

section

variable {value : Tree}

theorem member?_setMember_of_ne {other : Bytes} (unlike : name ≠ other) (value : Tree)
    (members : List (Bytes × Tree)) : member? name (setMember other value members) = member? name members := by
  induction members with
  | nil => simp [setMember, member?, List.lookup_cons, beq_false_of_ne unlike]
  | cons m members ih =>
    obtain ⟨third, old⟩ := m
    rw [member?, member?] at ih
    by_cases same : other = third
    · simp [setMember, member?, List.lookup_cons, ← same, beq_false_of_ne unlike]
    · simp [setMember, member?, List.lookup_cons, beq_false_of_ne same, ih]

theorem child?_put_of_ne {first : Bytes} (unlike : name ≠ first) (path : List Bytes) (value t : Tree) :
    (put (first :: path) value t).child? name = t.child? name := by
  cases t with
  | object members => simp only [put, child?, member?_setMember_of_ne unlike]
  | null | boolean | integer | decimal | text | list =>
    simp [put, child?, member?, List.lookup_cons, beq_false_of_ne unlike]

/-- A name on the way leads on from the node to which it has led before. -/
theorem child?_put_self (some : value.isNull = false) (name : Bytes) (path : List Bytes) (t : Tree) :
    (put (name :: path) value t).child? name = Option.some (put path value ((t.child? name).getD null)) := by
  cases t with
  | object members =>
    have old : (child? name (object members)).getD null = (member? name members).getD null := by
      cases found : member? name members with
      | none => rw [child?, found]; rfl
      | some n => rw [child?_of_member found]; cases n <;> rfl
    rw [put, child?_of_member (member?_setMember ..), put_ne_null some, old]
    rfl
  | null | boolean | integer | decimal | text | list =>
    simp [put, child?, member?, put_ne_null some]

/-- What was put at the end of a path is there, if it is not null. -/
theorem at?_put (some : value.isNull = false) (path : List Bytes) (t : Tree) :
    (put path value t).at? path = Option.some value := by
  induction path generalizing t with
  | nil => rfl
  | cons name path ih => rw [at?, child?_put_self some, Option.bind_some, ih]

/-- Whether none of two paths leads through the end of the other. -/
def Diverge (path other : List Bytes) : Prop := ¬path <+: other ∧ ¬other <+: path

instance (path other : List Bytes) : Decidable (Diverge path other) :=
  inferInstanceAs (Decidable (_ ∧ _))

/-- What is at the end of another path stays there. -/
theorem at?_put_of_diverge {other : List Bytes} (diverge : Diverge path other) (some : value.isNull = false)
    (t : Tree) : (put other value t).at? path = t.at? path := by
  induction path generalizing other t with
  | nil => exact absurd List.nil_prefix diverge.1
  | cons name path ih =>
    cases other with
    | nil => exact absurd List.nil_prefix diverge.2
    | cons first other =>
      rw [at?, at?]
      by_cases same : name = first
      · -- Both paths go through the same child, which may be new.
        subst same
        simp only [Diverge, List.cons_prefix_cons, true_and] at diverge
        rw [child?_put_self some, Option.bind_some, ih diverge]
        cases child : t.child? name with
        | some n => rfl
        | none =>
          cases path with
          | nil => exact absurd List.nil_prefix diverge.1
          | cons => rfl
      · rw [child?_put_of_ne same]

end

end Tree

end SerialLink
