import SerialLink.Tree.Text

/-!
# Documents survive being written

The text of a document is read back as that document (`Tree.parse?_render`), if no number in it has a fraction or an
exponent and no object has two members of one name (`Tree.Plain`).  Text may be anything: what is escaped is read as
the byte that it stands for (`Tree.unquote?_escape`), and all other bytes stand for themselves.  A number is read up
to the first byte that cannot belong to it (`Tree.Ends`); in a document a comma or a bracket comes next.
-/

namespace SerialLink

variable {n : Nat} {rest : Bytes}

/-! ### Numbers -/

namespace Decimal

theorem natural_ne_nil (n : Nat) : natural n ≠ [] := by
  rw [natural_eq]
  simp

theorem head?_natural_append (n : Nat) (rest : Bytes) : (natural n ++ rest).head? = (natural n).head? := by
  rw [List.head?_append, Option.or_of_isSome (by simpa using natural_ne_nil n)]

theorem isDigit_of_mem_natural {b : UInt8} (mem : b ∈ natural n) : isDigit b = true := by
  induction n using Nat.strongRecOn with
  | _ n ih =>
    rw [natural_eq, List.mem_append, List.mem_singleton] at mem
    rcases mem with front | rfl
    · by_cases low : n < 10
      · simp [low] at front
      · rw [if_neg low] at front
        exact ih (n / 10) (by omega) front
    · exact isDigit_digitChar (Nat.mod_lt n (by omega))

/-- Only the number zero begins with the digit zero. -/
theorem head?_natural (some : n ≠ 0) : (natural n).head? ≠ Option.some 48 := by
  induction n using Nat.strongRecOn with
  | _ n ih =>
    rw [natural_eq]
    by_cases low : n < 10
    · simp only [low, if_true, List.nil_append, List.head?_cons, ne_eq, Option.some.injEq]
      intro zero
      have value := digit_digitChar (Nat.mod_lt n (show 0 < 10 by omega))
      rw [zero, show digit 48 = 0 from rfl] at value
      omega
    · rw [if_neg low, head?_natural_append]
      exact ih (n / 10) (by omega) (by omega)

end Decimal

namespace Tree

variable {bound : Nat} {b : UInt8} {t : Tree}

/-- Whether no byte of a number can come next. -/
def Ends (rest : Bytes) : Prop :=
  ∀ b ∈ rest.head?, Decimal.isDigit b = false ∧ b ≠ 46 ∧ b ≠ 101 ∧ b ≠ 69

theorem digits?_append {digits : Bytes} (some : digits ≠ []) (all : ∀ b ∈ digits, Decimal.isDigit b = true)
    (ends : Ends rest) : digits? (digits ++ rest) = Option.some (digits, rest) := by
  have taken : rest.takeWhile Decimal.isDigit = [] := by
    cases rest with
    | nil => rfl
    | cons b rest => exact List.takeWhile_cons_of_neg (by simp [(ends b rfl).1])
  have left : rest.dropWhile Decimal.isDigit = rest := by
    cases rest with
    | nil => rfl
    | cons b rest => exact List.dropWhile_cons_of_neg (by simp [(ends b rfl).1])
  rw [digits?, List.takeWhile_append_of_pos all, List.dropWhile_append_of_pos all, taken, left, List.append_nil,
    if_neg (by simpa using some)]

theorem whole?_natural (n : Nat) (ends : Ends rest) :
    whole? (Decimal.natural n ++ rest) = some (Decimal.natural n, rest) := by
  have digits := digits?_append (Decimal.natural_ne_nil n) (fun _ => Decimal.isDigit_of_mem_natural) ends
  have shortest : ¬((Decimal.natural n).head? = some 48 ∧ (Decimal.natural n).length ≠ 1) := by
    rintro ⟨zero, long⟩
    by_cases none : n = 0
    · rw [none] at long
      exact long (by decide)
    · exact Decimal.head?_natural none zero
  simp [whole?, digits, shortest]

theorem fraction?_of_ends (ends : Ends rest) : fraction? rest = some ([], rest) := by
  unfold fraction?
  split
  · exact absurd rfl (ends 46 rfl).2.1
  · rfl

theorem exponent?_of_ends (ends : Ends rest) : exponent? rest = some ([], rest) := by
  cases rest with
  | nil => rfl
  | cons b rest =>
    obtain ⟨_, _, small, capital⟩ := ends b rfl
    simp [exponent?, small, capital]

/-- **A number is read as it was.** -/
theorem number?_integer (n : Int) (ends : Ends rest) :
    number? (Decimal.integer n ++ rest) = some (integer n, rest) := by
  cases n with
  | ofNat n =>
    have unsigned : (Decimal.natural n ++ rest).head? ≠ some 45 := by
      rw [Decimal.head?_natural_append]
      intro sign
      exact absurd (Decimal.isDigit_of_mem_natural (List.mem_of_mem_head? sign)) (by decide)
    simp [Decimal.integer, number?, -List.head?_append, unsigned, whole?_natural n ends, fraction?_of_ends ends, exponent?_of_ends ends,
      Decimal.value_natural]
  | negSucc n =>
    simp [Decimal.integer, number?, whole?_natural (n + 1) ends, fraction?_of_ends ends, exponent?_of_ends ends,
      Decimal.value_natural, Int.negSucc_eq]

/-! ### Texts -/

theorem hexValue?_hexDigit (n : Nat) : hexValue? (hexDigit n) = some (n % 16) := by
  have all : ∀ d < 16, hexValue? (hexDigit d) = some d := by decide
  rw [← all (n % 16) (Nat.mod_lt n (by omega)), hexDigit, hexDigit, Nat.mod_mod]

theorem character_control (n : Nat) (low : n < 32) : character n = [UInt8.ofNat n] := by
  revert n
  decide

/-- **A byte is read as it was**, be it escaped or not. -/
theorem unquote?_escape (b : UInt8) (source : Bytes) :
    unquote? (escape b ++ source) = prepend [b] (unquote? source) := by
  unfold escape
  split
  · next special =>
    rcases special with rfl | rfl <;> rfl
  split
  · next plain control =>
    have low : b.toNat < 32 := UInt8.lt_iff_toNat_lt.mp control
    have unit : codeUnit? 48 48 (hexDigit (b.toNat / 16)) (hexDigit b.toNat) = some b.toNat := by
      have zero : hexValue? 48 = some 0 := by decide
      simp only [codeUnit?, zero, hexValue?_hexDigit, Option.bind_eq_bind, Option.bind_some, Option.pure_def,
        Option.some.injEq]
      omega
    have high : isHighHalf b.toNat = false := by simp [isHighHalf]; omega
    have second : isLowHalf b.toNat = false := by simp [isLowHalf]; omega
    simp [unquote?, unit, high, second, character_control _ low]
  · next plain control =>
    obtain ⟨quote, backslash⟩ := not_or.mp plain
    show unquote? (b :: source) = _
    rw [unquote?, if_neg (not_or.mpr ⟨control, backslash⟩)]
    · exact quote
    · exact fun _ _ _ _ _ same _ => backslash same
    · exact fun _ _ same _ => backslash same

theorem quote_append (content source : Bytes) :
    quote content ++ source = 34 :: (content.flatMap escape ++ 34 :: source) := by
  simp [quote]

theorem unquote?_content (content : Bytes) (rest : Bytes) :
    unquote? (content.flatMap escape ++ 34 :: rest) = some (content, rest) := by
  induction content with
  | nil => rfl
  | cons b content ih => rw [List.flatMap_cons, List.append_assoc, unquote?_escape, ih]; rfl

/-! ### Nodes -/

/-- Whether no number of a document has a fraction or an exponent, and no object two members of one name. -/
inductive Plain : Tree → Prop
  | null : Plain null
  | boolean (b : Bool) : Plain (boolean b)
  | integer (n : Int) : Plain (integer n)
  | text (content : Bytes) : Plain (text content)
  | list {items : List Tree} (plain : ∀ t ∈ items, Plain t) : Plain (list items)
  | object {members : List (Bytes × Tree)} (distinct : (members.map Prod.fst).Nodup)
      (plain : ∀ m ∈ members, Plain m.2) : Plain (object members)

/-- Whether a node is read from its text, if enough steps are allowed and the text has an end. -/
def Reads (t : Tree) : Prop :=
  ∀ bound rest, 2 * t.render.length < bound → Ends rest → node? bound (t.render ++ rest) = some (t, rest)

theorem ends_cons (other : Decimal.isDigit b = false ∧ b ≠ 46 ∧ b ≠ 101 ∧ b ≠ 69) : Ends (b :: rest) := by
  intro c first
  rw [← Option.some.inj first]
  exact other

theorem skipBlanks_cons (other : isBlank b = false) (source : Bytes) : skipBlanks (b :: source) = b :: source :=
  List.dropWhile_cons_of_neg (by simp [other])

/-- A number begins with a digit or a minus sign, and with no other byte. -/
theorem begins_integer (n : Int) : ∃ b source, Decimal.integer n = b :: source ∧
    ∀ c, Decimal.isDigit c = false → c ≠ 45 → b ≠ c := by
  cases n with
  | ofNat n =>
    obtain ⟨b, digits, spelling⟩ := List.exists_cons_of_ne_nil (Decimal.natural_ne_nil n)
    have digit : Decimal.isDigit b = true := Decimal.isDigit_of_mem_natural (by rw [spelling]; simp)
    refine ⟨b, digits, spelling, ?_⟩
    rintro c other _ rfl
    rw [digit] at other
    cases other
  | negSucc n => exact ⟨45, _, rfl, fun c _ other => other.symm⟩

theorem isBlank_eq_false (other : ∀ c, Decimal.isDigit c = false → c ≠ 45 → b ≠ c) : isBlank b = false := by
  have space := other 32 (by decide) (by decide)
  have tab := other 9 (by decide) (by decide)
  have feed := other 10 (by decide) (by decide)
  have back := other 13 (by decide) (by decide)
  simp [isBlank, space, tab, feed, back]

/-- A node begins with a byte that is neither a blank nor the end of a list. -/
theorem Plain.begins (plain : t.Plain) : ∃ b source, t.render = b :: source ∧ isBlank b = false ∧ b ≠ 93 := by
  cases plain with
  | null => exact ⟨110, _, rfl, by decide, by decide⟩
  | boolean b => cases b <;> exact ⟨_, _, rfl, by decide, by decide⟩
  | text content => exact ⟨34, _, rfl, by decide, by decide⟩
  | list => exact ⟨91, _, rfl, by decide, by decide⟩
  | object => exact ⟨123, _, rfl, by decide, by decide⟩
  | integer n =>
    obtain ⟨b, source, spelling, other⟩ := begins_integer n
    exact ⟨b, source, spelling, isBlank_eq_false other, other 93 (by decide) (by decide)⟩

/-! #### Words and numbers -/

theorem node?_of_scalar (blank : isBlank b = false) (other : b ≠ 34 ∧ b ≠ 91 ∧ b ≠ 123) (bound : Nat)
    (source : Bytes) : node? (bound + 1) (b :: source) = scalar? (b :: source) := by
  obtain ⟨quote, bracket, brace⟩ := other
  rw [node?, skipBlanks_cons blank]
  split
  · next same => exact absurd (List.cons.inj same).1 quote
  · next same => exact absurd (List.cons.inj same).1 bracket
  · next same => exact absurd (List.cons.inj same).1 brace
  · rfl

theorem reads_null : Reads null := by
  rintro (_ | bound) rest enough _
  · cases enough
  · exact node?_of_scalar (by decide) (by decide) bound _

theorem reads_boolean (b : Bool) : Reads (boolean b) := by
  rintro (_ | bound) rest enough _
  · cases enough
  · cases b
    · exact node?_of_scalar (by decide) (by decide) bound _
    · exact node?_of_scalar (by decide) (by decide) bound _

/-- What begins like no word is read as a number. -/
theorem scalar?_of_other (other : b ≠ 110 ∧ b ≠ 116 ∧ b ≠ 102) (source : Bytes) :
    scalar? (b :: source) = number? (b :: source) := by
  obtain ⟨n, t, f⟩ := other
  have null : Bytes.ofString "null" = [110, 117, 108, 108] := by decide
  have true : Bytes.ofString "true" = [116, 114, 117, 101] := by decide
  have false : Bytes.ofString "false" = [102, 97, 108, 115, 101] := by decide
  simp [scalar?, behind?, null, true, false, n.symm, t.symm, f.symm]

theorem reads_integer (n : Int) : Reads (integer n) := by
  rintro (_ | bound) rest enough ends
  · cases enough
  · have read := number?_integer n ends
    obtain ⟨b, source, spelling, other⟩ := begins_integer n
    have opening : b ≠ 34 ∧ b ≠ 91 ∧ b ≠ 123 := by
      refine ⟨other 34 ?_ ?_, other 91 ?_ ?_, other 123 ?_ ?_⟩ <;> decide
    have word : b ≠ 110 ∧ b ≠ 116 ∧ b ≠ 102 := by
      refine ⟨other 110 ?_ ?_, other 116 ?_ ?_, other 102 ?_ ?_⟩ <;> decide
    rw [render, spelling, List.cons_append, node?_of_scalar (isBlank_eq_false other) opening, scalar?_of_other word,
      ← List.cons_append, ← spelling, read]

/-! #### Lists -/

theorem node?_list (bound : Nat) (source : Bytes) : node? (bound + 1) (91 :: source) =
    match skipBlanks source with
    | 93 :: rest => some (list [], rest)
    | rest => (items? bound rest).map fun (items, rest) => (list items, rest) := by
  rw [node?]
  rfl

theorem renderItems_cons_cons (t u : Tree) (items : List Tree) :
    renderItems (t :: u :: items) = t.render ++ 44 :: renderItems (u :: items) := by
  simp [renderItems]

/-- Items that are read one by one are read as a whole. -/
theorem items?_render {items : List Tree} (some : items ≠ []) (reads : ∀ t ∈ items, Reads t)
    (enough : 2 * (renderItems items).length + 1 < bound) :
    items? bound (renderItems items ++ 93 :: rest) = Option.some (items, rest) := by
  induction items generalizing bound with
  | nil => exact absurd rfl some
  | cons t items ih =>
    -- One step goes to the list itself; the comma behind an item counts for two, so that there are enough for the rest.
    obtain ⟨bound, rfl⟩ : ∃ less, bound = less + 1 := ⟨bound - 1, by omega⟩
    obtain ⟨first, others⟩ := List.forall_mem_cons.mp reads
    rw [items?]
    cases items with
    | nil =>
      rw [renderItems] at enough ⊢
      rw [first bound _ (by omega) (ends_cons (by decide))]
      rfl
    | cons u items =>
      rw [renderItems_cons_cons, List.length_append, List.length_cons] at enough
      rw [renderItems_cons_cons, List.append_assoc, List.cons_append,
        first bound _ (by omega) (ends_cons (by decide))]
      show (items? bound (renderItems (u :: items) ++ 93 :: rest)).map _ = _
      rw [ih nofun others (by omega)]
      rfl

theorem reads_list {items : List Tree} (plain : ∀ t ∈ items, Plain t) (reads : ∀ t ∈ items, Reads t) :
    Reads (list items) := by
  intro bound rest enough _
  rw [render, List.length_append, List.length_cons, List.length_singleton] at enough
  obtain ⟨bound, rfl⟩ : ∃ less, bound = less + 1 := ⟨bound - 1, by omega⟩
  rw [render, List.cons_append, List.cons_append, node?_list, List.append_assoc, List.singleton_append]
  cases items with
  | nil => rfl
  | cons t items =>
    -- The first item does not begin as the end of the list.
    obtain ⟨b, source, text, blank, other⟩ := (plain t (by simp)).begins
    have begins : ∃ more, renderItems (t :: items) ++ 93 :: rest = b :: more := by
      cases items with
      | nil => exact ⟨source ++ 93 :: rest, by simp [renderItems, text]⟩
      | cons u items => exact ⟨_, by rw [renderItems_cons_cons, text]; rfl⟩
    have whole : items? bound (renderItems (t :: items) ++ 93 :: rest) = some (t :: items, rest) :=
      items?_render nofun reads (by omega)
    obtain ⟨more, first⟩ := begins
    rw [first] at whole ⊢
    rw [skipBlanks_cons blank]
    simp [other, whole]

/-! #### Objects -/

theorem node?_object (bound : Nat) (source : Bytes) : node? (bound + 1) (123 :: source) =
    match skipBlanks source with
    | 125 :: rest => some (object [], rest)
    | rest => (members? bound [] rest).map fun (members, rest) => (object members, rest) := by
  rw [node?]
  rfl

theorem setMember_of_new {name : Bytes} {before : List (Bytes × Tree)} (new : name ∉ before.map Prod.fst) (t : Tree) :
    setMember name t before = before ++ [(name, t)] := by
  induction before with
  | nil => rfl
  | cons m before ih =>
    rw [List.map_cons, List.mem_cons, not_or] at new
    simp [setMember, new.1, ih new.2]

theorem renderMembers_singleton (name : Bytes) (t : Tree) :
    renderMembers [(name, t)] = quote name ++ 58 :: t.render := by
  simp [renderMembers]

theorem renderMembers_cons_cons (name : Bytes) (t : Tree) (m : Bytes × Tree) (members : List (Bytes × Tree)) :
    renderMembers ((name, t) :: m :: members) = quote name ++ 58 :: t.render ++ 44 :: renderMembers (m :: members) := by
  simp [renderMembers]

/-- The last member of an object is read. -/
theorem members?_last {name : Bytes} (reads : t.Reads) (enough : 2 * t.render.length < bound)
    (before : List (Bytes × Tree)) : members? (bound + 1) before (quote name ++ 58 :: (t.render ++ 125 :: rest)) =
      some (setMember name t before, rest) := by
  rw [quote_append, members?, skipBlanks_cons (by decide)]
  simp only [unquote?_content, skipBlanks_cons (show isBlank 58 = false by decide),
    reads bound _ enough (ends_cons (b := 125) (by decide)), skipBlanks_cons (show isBlank 125 = false by decide)]

/-- A member is read, and then the others. -/
theorem members?_next {name : Bytes} (reads : t.Reads) (enough : 2 * t.render.length < bound)
    (before : List (Bytes × Tree)) : members? (bound + 1) before (quote name ++ 58 :: (t.render ++ 44 :: rest)) =
      members? bound (setMember name t before) rest := by
  rw [quote_append, members?, skipBlanks_cons (by decide)]
  simp only [unquote?_content, skipBlanks_cons (show isBlank 58 = false by decide),
    reads bound _ enough (ends_cons (b := 44) (by decide)), skipBlanks_cons (show isBlank 44 = false by decide)]

/-- Members that are read one by one are read as a whole, if no name comes twice. -/
theorem members?_render {before members : List (Bytes × Tree)} (some : members ≠ [])
    (distinct : ((before ++ members).map Prod.fst).Nodup) (reads : ∀ m ∈ members, Reads m.2)
    (enough : 2 * (renderMembers members).length + 1 < bound) :
    members? bound before (renderMembers members ++ 125 :: rest) = Option.some (before ++ members, rest) := by
  induction members generalizing bound before with
  | nil => exact absurd rfl some
  | cons m members ih =>
    obtain ⟨name, t⟩ := m
    obtain ⟨bound, rfl⟩ : ∃ less, bound = less + 1 := ⟨bound - 1, by omega⟩
    have first : t.Reads := reads (name, t) List.mem_cons_self
    have others : ∀ m ∈ members, Reads m.2 := fun m mem => reads m (List.mem_cons_of_mem _ mem)
    -- The name is not among those that were read, so the member comes last.
    have new : setMember name t before = before ++ [(name, t)] := by
      apply setMember_of_new
      rw [List.map_append, List.nodup_append] at distinct
      exact fun mem => distinct.2.2 name mem name (by simp) rfl
    have shifted : before ++ (name, t) :: members = before ++ [(name, t)] ++ members := by simp
    cases members with
    | nil =>
      rw [renderMembers_singleton, List.length_append, List.length_cons] at enough
      rw [renderMembers_singleton, List.append_assoc, List.cons_append,
        members?_last first (by omega), new]
    | cons u members =>
      rw [renderMembers_cons_cons, List.length_append, List.length_append, List.length_cons, List.length_cons] at enough
      rw [renderMembers_cons_cons, List.append_assoc, List.append_assoc, List.cons_append, List.cons_append,
        members?_next first (by omega), new]
      rw [shifted] at distinct ⊢
      exact ih nofun distinct others (by omega)

theorem reads_object {members : List (Bytes × Tree)} (distinct : (members.map Prod.fst).Nodup)
    (reads : ∀ m ∈ members, Reads m.2) : Reads (object members) := by
  intro bound rest enough _
  rw [render, List.length_append, List.length_cons, List.length_singleton] at enough
  obtain ⟨bound, rfl⟩ : ∃ less, bound = less + 1 := ⟨bound - 1, by omega⟩
  rw [render, List.cons_append, List.cons_append, node?_object, List.append_assoc, List.singleton_append]
  cases members with
  | nil => rfl
  | cons m members =>
    have begins : ∃ more, renderMembers (m :: members) ++ 125 :: rest = 34 :: more := by
      cases members with
      | nil => exact ⟨_, by rw [renderMembers_singleton]; rfl⟩
      | cons u members => exact ⟨_, by rw [renderMembers_cons_cons]; rfl⟩
    have whole : members? bound [] (renderMembers (m :: members) ++ 125 :: rest) = some (m :: members, rest) :=
      members?_render nofun distinct reads (by omega)
    obtain ⟨more, first⟩ := begins
    rw [first] at whole ⊢
    rw [skipBlanks_cons (by decide)]
    simp [whole]

/-! #### All nodes -/

theorem reads_text (content : Bytes) : Reads (text content) := by
  intro bound rest enough _
  obtain ⟨bound, rfl⟩ : ∃ less, bound = less + 1 := ⟨bound - 1, by omega⟩
  rw [render, quote_append, node?, skipBlanks_cons (by decide)]
  simp [unquote?_content]

/-- **A node is read from its text**, whatever comes next. -/
theorem Plain.reads (plain : t.Plain) : t.Reads := by
  induction plain with
  | null => exact reads_null
  | boolean b => exact reads_boolean b
  | integer n => exact reads_integer n
  | text content => exact reads_text content
  | list plain reads => exact reads_list plain reads
  | object distinct _ reads => exact reads_object distinct reads

/-- **The text of a document is read back as that document.** -/
theorem parse?_render (plain : t.Plain) : parse? t.render = some t := by
  obtain ⟨b, source, text, blank, _⟩ := plain.begins
  have some : t.render.all isBlank = false := by rw [text, List.all_cons, blank, Bool.false_and]
  have read := plain.reads (2 * t.render.length + 1) [] (by omega) nofun
  rw [List.append_nil] at read
  rw [parse?, some, read]
  rfl

/-! ### Plain documents -/

section

variable {name : Bytes} {value : Tree} {members : List (Bytes × Tree)}

theorem mem_of_member? (found : member? name members = some t) : (name, t) ∈ members := by
  induction members with
  | nil => cases found
  | cons m members ih =>
    obtain ⟨other, old⟩ := m
    rw [member?, List.lookup_cons] at found
    by_cases same : name = other
    · simp only [same, beq_self_eq_true, Option.some.injEq] at found
      simp [same, found]
    · rw [beq_false_of_ne same] at found
      exact List.mem_cons_of_mem _ (ih found)

theorem mem_setMember {m : Bytes × Tree} (mem : m ∈ setMember name value members) :
    m = (name, value) ∨ m ∈ members := by
  induction members with
  | nil => exact .inl (List.mem_singleton.mp mem)
  | cons first members ih =>
    obtain ⟨other, old⟩ := first
    rw [setMember] at mem
    split at mem
    · rcases List.mem_cons.mp mem with new | mem
      · exact .inl new
      · exact .inr (List.mem_cons_of_mem _ mem)
    · rcases List.mem_cons.mp mem with rfl | mem
      · exact .inr List.mem_cons_self
      · exact (ih mem).imp_right (List.mem_cons_of_mem _)

theorem distinct_setMember (distinct : (members.map Prod.fst).Nodup) :
    ((setMember name value members).map Prod.fst).Nodup := by
  induction members with
  | nil => simp [setMember]
  | cons m members ih =>
    obtain ⟨other, old⟩ := m
    rw [List.map_cons, List.nodup_cons] at distinct
    obtain ⟨new, distinct⟩ := distinct
    rw [setMember]
    by_cases same : name = other
    · simp [same, new, distinct]
    · rw [beq_false_of_ne same, if_neg (by simp), List.map_cons, List.nodup_cons]
      refine ⟨fun mem => ?_, ih distinct⟩
      obtain ⟨m, mem, named⟩ := List.mem_map.mp mem
      rcases mem_setMember mem with rfl | mem
      · exact same named
      · exact new (List.mem_map.mpr ⟨m, mem, named⟩)

/-- A plain node makes a plain document wherever it is put. -/
theorem plain_put (plain : value.Plain) (path : List Bytes) (document : t.Plain) : (put path value t).Plain := by
  induction path generalizing t with
  | nil => exact plain
  | cons name path ih =>
    have fresh : (object [(name, put path value null)]).Plain := .object (by simp) (by simpa using ih .null)
    cases document with
    | object distinct all =>
      refine .object (distinct_setMember distinct) fun m mem => ?_
      rcases mem_setMember mem with rfl | mem
      · apply ih
        cases found : member? name _ with
        | none => exact .null
        | some old => exact all _ (mem_of_member? found)
      · exact all m mem
    | null | boolean | integer | text | list => exact fresh

end

end Tree

end SerialLink
