import SerialLink.Archive.Layout
import SerialLink.Proofs.Archive
import SerialLink.Proofs.Documents
import SerialLink.Proofs.Paths

/-!
# What is kept in a document, and in a stream

A node of a document stands for a value of a kind exactly if it is the node of that value
(`Archive.Kind.ofTree?_eq_some_iff`).  When a state is read from a document its parts do not get in each other's way:
each takes the value of its node, or keeps its own (`Archive.Layout.takes_ofTree`), and all goes well if it does for
each (`Archive.Layout.success_ofTree`).  A state that was written is read back, over any other one: as plain bytes
from whatever stream (`Archive.Layout.read_whole`), and as the text of its document (`Archive.Layout.ofTree_toTree`).
-/

namespace SerialLink

namespace Archive

/-! ### Nodes of a kind -/

namespace Kind

variable {k : Kind} {v : k.Carrier} {n : Tree} {β : Type}

/-- Whether a node that may be there is one of a kind. -/
def Fits (k : Kind) (node? : Option Tree) : Prop := ∀ n, node? = some n → ∃ v, n = k.toTree v

theorem fits_none : k.Fits none := nofun

theorem fits_toTree (v : k.Carrier) : k.Fits (some (k.toTree v)) :=
  fun _ same => ⟨v, (Option.some.inj same).symm⟩

/-- What becomes of an old value: a node of the kind takes its place, in the form in which it is stored, and
otherwise it stays. -/
structure Takes (k : Kind) (store : k.Carrier → β) (node? : Option Tree) (old new : β) : Prop where
  given : ∀ v, node? = some (k.toTree v) → new = store v
  kept : (∀ v, node? ≠ some (k.toTree v)) → new = old

theorem bounded_eq_some_iff {α : Type} {bound : Nat} {word : Nat → α} {toNat : α → Nat}
    (toNat_word : ∀ n < bound, toNat (word n) = n) (word_toNat : ∀ w, word (toNat w) = w)
    (toNat_lt : ∀ w, toNat w < bound) {n : Int} {w : α} : bounded bound word n = some w ↔ n = toNat w := by
  unfold bounded
  split
  · next range =>
    rw [Option.some.injEq]
    constructor
    · rintro rfl
      rw [toNat_word _ (by omega)]
      omega
    · rintro rfl
      exact word_toNat w
  · next range =>
    have low := toNat_lt w
    refine ⟨nofun, fun same => absurd ?_ range⟩
    omega

/-- **A node stands for a value exactly if it is the node of that value.** -/
theorem ofTree?_eq_some_iff : k.ofTree? n = some v ↔ n = k.toTree v := by
  cases k with
  | bool => cases n <;> simp [ofTree?, toTree]
  | text => cases n <;> simp [ofTree?, toTree]
  | u8 =>
    cases n <;> simp only [ofTree?, toTree, reduceCtorEq, Tree.integer.injEq]
    exact bounded_eq_some_iff (fun _ low => UInt8.toNat_ofNat_of_lt' low) (fun _ => UInt8.ofNat_toNat)
      UInt8.toNat_lt
  | u16 =>
    cases n <;> simp only [ofTree?, toTree, reduceCtorEq, Tree.integer.injEq]
    exact bounded_eq_some_iff (fun _ low => UInt16.toNat_ofNat_of_lt' low) (fun _ => UInt16.ofNat_toNat)
      UInt16.toNat_lt
  | u32 =>
    cases n <;> simp only [ofTree?, toTree, reduceCtorEq, Tree.integer.injEq]
    exact bounded_eq_some_iff (fun _ low => UInt32.toNat_ofNat_of_lt' low) (fun _ => UInt32.ofNat_toNat)
      UInt32.toNat_lt
  | u64 =>
    cases n <;> simp only [ofTree?, toTree, reduceCtorEq, Tree.integer.injEq]
    exact bounded_eq_some_iff (fun _ low => UInt64.toNat_ofNat_of_lt' low) (fun _ => UInt64.ofNat_toNat)
      UInt64.toNat_lt
  | i32 =>
    cases n <;> simp only [ofTree?, toTree, reduceCtorEq, Tree.integer.injEq]
    next n =>
    split
    · next range =>
      rw [Option.some.injEq]
      constructor
      · rintro rfl
        exact (Int32.toInt_ofInt_of_le range.1 (Int.lt_add_one_of_le range.2)).symm
      · rintro rfl
        exact Int32.ofInt_toInt v
    · next range =>
      refine ⟨nofun, ?_⟩
      rintro rfl
      exact absurd ⟨v.minValue_le_toInt, v.toInt_le⟩ range

theorem ofTree?_eq_none_iff : k.ofTree? n = none ↔ ∀ v, n ≠ k.toTree v := by
  rw [Option.eq_none_iff_forall_ne_some]
  exact forall_congr' fun v => not_congr ofTree?_eq_some_iff

theorem isNull_toTree (k : Kind) (v : k.Carrier) : (k.toTree v).isNull = false := by
  cases k <;> rfl

theorem plain_toTree (k : Kind) (v : k.Carrier) : (k.toTree v).Plain := by
  cases k with
  | bool => exact .boolean v
  | text => exact .text v
  | u8 | u16 | i32 | u32 | u64 => exact .integer _

end Kind

/-! ### Parts -/

variable {α β : Type}

namespace Field

variable {P : α → Prop} {f : Field α} {t : Tree}

/-- What is kept when a part is set is kept when it is read from a document, whatever is in it. -/
theorem readTree_keeps (set : ∀ v a, P a → P (f.set v a)) (t : Tree) {a : α} (start : P a) :
    P (f.readTree t a).2 := by
  unfold readTree
  split
  · exact start
  · exact start
  split
  · exact set _ a start
  · exact start

/-- Whether a part is not touched when another one is set. -/
def Apart (f g : Field α) : Prop := ∀ v a, f.get (g.set v a) = f.get a

/-- A part to which no node belongs stays as it is, whether it is only missing or out of reach. -/
theorem readTree_of_none (leads : t.at? f.path = none) (a : α) : f.readTree t a = (t.isOpenAlong f.path, a) := by
  rw [readTree, Tree.find_of_none leads]
  cases t.isOpenAlong f.path <;> rfl

/-- A part whose node is of its kind is set. -/
theorem readTree_of_value {n : Tree} {v : f.kind.Carrier} (leads : t.at? f.path = some n)
    (read : f.kind.ofTree? n = some v) (a : α) : f.readTree t a = (true, f.set v a) := by
  simp only [readTree, Tree.find_of_at? leads, read]

theorem readTree_of_other {n : Tree} (leads : t.at? f.path = some n) (read : f.kind.ofTree? n = none) (a : α) :
    f.readTree t a = (false, a) := by
  simp only [readTree, Tree.find_of_at? leads, read]

/-- A part is read well if the nodes on the way can have members, and the one at the end is of its kind. -/
theorem success_readTree (t : Tree) (f : Field α) (a : α) :
    (f.readTree t a).1 = true ↔ t.isOpenAlong f.path = true ∧ f.kind.Fits (t.at? f.path) := by
  cases leads : t.at? f.path with
  | none =>
    rw [readTree_of_none leads]
    exact ⟨fun opens => ⟨opens, Kind.fits_none⟩, And.left⟩
  | some n =>
    rw [Tree.isOpenAlong_of_at? leads]
    cases read : f.kind.ofTree? n with
    | none =>
      rw [readTree_of_other leads read]
      refine ⟨nofun, fun ⟨_, fits⟩ => ?_⟩
      obtain ⟨v, same⟩ := fits n rfl
      exact absurd same (Kind.ofTree?_eq_none_iff.mp read v)
    | some v =>
      rw [readTree_of_value leads read]
      obtain rfl := Kind.ofTree?_eq_some_iff.mp read
      exact ⟨fun _ => ⟨rfl, Kind.fits_toTree v⟩, fun _ => rfl⟩

/-- A part takes the value of its node, or keeps its own. -/
theorem takes_readTree {store : f.kind.Carrier → f.kind.Carrier} (stores : ∀ v a, f.get (f.set v a) = store v)
    (t : Tree) (a : α) : f.kind.Takes store (t.at? f.path) (f.get a) (f.get (f.readTree t a).2) := by
  cases leads : t.at? f.path with
  | none =>
    rw [readTree_of_none leads]
    exact ⟨nofun, fun _ => rfl⟩
  | some n =>
    cases read : f.kind.ofTree? n with
    | none =>
      rw [readTree_of_other leads read]
      have other := Kind.ofTree?_eq_none_iff.mp read
      exact ⟨fun v same => absurd (Option.some.inj same) (other v), fun _ => rfl⟩
    | some v =>
      rw [readTree_of_value leads read]
      obtain rfl := Kind.ofTree?_eq_some_iff.mp read
      refine ⟨fun w same => ?_, fun other => absurd rfl (other v)⟩
      have again : f.kind.ofTree? (f.kind.toTree v) = some w := Kind.ofTree?_eq_some_iff.mpr (Option.some.inj same)
      rw [stores, Option.some.inj (read.symm.trans again)]

end Field

/-! ### Layouts -/

namespace Layout

variable {σ : Type} {P : α → Prop} {layout : Layout α}

/-- What every part of a layout keeps is kept when a state is read from a source, whatever comes from it. -/
theorem read_keeps [Source σ] (set : ∀ f ∈ layout, ∀ v a, P a → P (f.set v a)) {a : α} (r : Reader σ)
    (start : P a) : P (layout.read a r).1 := by
  induction layout generalizing a r with
  | nil => exact start
  | cons f rest ih =>
    obtain ⟨first, more⟩ := List.forall_mem_cons.mp set
    exact ih more _ (first _ a start)

/-- What every part of a layout keeps is kept when a state is read from a document, whatever is in it. -/
theorem ofTree_keeps (set : ∀ f ∈ layout, ∀ v a, P a → P (f.set v a)) (tree : Tree) {a : α}
    (start : P a) : P (layout.ofTree tree a).2 := by
  induction layout generalizing a with
  | nil => exact start
  | cons f rest ih =>
    obtain ⟨first, more⟩ := List.forall_mem_cons.mp set
    exact ih more (f.readTree_keeps first tree start)

/-- All goes well exactly if each part is read well, whatever was there before. -/
theorem success_ofTree (layout : Layout α) (t : Tree) (a : α) : (layout.ofTree t a).1 = true ↔
    ∀ f ∈ layout, t.isOpenAlong f.path = true ∧ f.kind.Fits (t.at? f.path) := by
  induction layout generalizing a with
  | nil => exact ⟨fun _ => nofun, fun _ => rfl⟩
  | cons f rest ih =>
    show ((f.readTree t a).1 && (Layout.ofTree rest t (f.readTree t a).2).1) = true ↔ _
    rw [Bool.and_eq_true, Field.success_readTree, ih, List.forall_mem_cons]

/-- **Each part takes the value of its node or keeps its own**, whatever becomes of the others. -/
theorem takes_ofTree (apart : layout.Pairwise fun f g => f.Apart g ∧ g.Apart f) {f : Field α} (mem : f ∈ layout)
    {store : f.kind.Carrier → f.kind.Carrier} (stores : ∀ v a, f.get (f.set v a) = store v) (t : Tree) (a : α) :
    f.kind.Takes store (t.at? f.path) (f.get a) (f.get (layout.ofTree t a).2) := by
  induction layout generalizing a with
  | nil => cases mem
  | cons g rest ih =>
    obtain ⟨first, others⟩ := List.pairwise_cons.mp apart
    rcases List.mem_cons.mp mem with rfl | later
    · -- The parts behind it leave it alone.
      have stays : f.get (Layout.ofTree rest t (f.readTree t a).2).2 = f.get (f.readTree t a).2 :=
        ofTree_keeps (P := fun b => f.get b = f.get (f.readTree t a).2)
          (fun g mem v b same => ((first g mem).1 v b).trans same) t rfl
      show f.kind.Takes store _ _ (f.get (Layout.ofTree rest t (f.readTree t a).2).2)
      rw [stays]
      exact f.takes_readTree stores t a
    · have stays : f.get (g.readTree t a).2 = f.get a :=
        g.readTree_keeps (P := fun b => f.get b = f.get a)
          (fun v b same => ((first f later).2 v b).trans same) t rfl
      rw [← stays]
      exact ih others later (g.readTree t a).2

/-! #### From one state to another -/

/-- A state in which every part is set to that of another one. -/
def copy (layout : Layout α) (a b : α) : α := layout.foldl (fun b f => f.set (f.get a) b) b

/-- A state is put into a sink part by part. -/
theorem write_whole [Sink σ] {Holds : Bytes → σ → Prop} {done : Bytes} {s : σ}
    (gathers : Sink.Gathers Holds) (layout : Layout α) (a : α) (holds : Holds done s) :
    (layout.write a ⟨s, true⟩).success = true ∧
      Holds (done ++ layout.encode a) (layout.write a ⟨s, true⟩).sink := by
  induction layout generalizing done s with
  | nil =>
    rw [encode, List.flatMap_nil, List.append_nil]
    exact ⟨rfl, holds⟩
  | cons f layout ih =>
    obtain ⟨success, more⟩ := foldl_put gathers (Kind.parts_ne_nil f.kind (f.get a)) holds
    have next : Writer.write f.kind (f.get a) (⟨s, true⟩ : Writer σ) =
        ⟨(Writer.write f.kind (f.get a) (⟨s, true⟩ : Writer σ)).sink, true⟩ :=
      congrArg (Writer.mk _) success
    rw [encode, List.flatMap_cons, ← List.append_assoc, write, List.foldl_cons, next]
    exact ih more

/-- **A state that was put into a stream is taken out again**, over whatever was there, and no byte behind it is
touched. -/
theorem read_whole [Source σ] {unread : σ → Bytes} {rest : Bytes} {s : σ} (yields : Source.Yields unread)
    (layout : Layout α) (a b : α) (short : ∀ f ∈ layout, Value.IsShort ⟨f.kind, f.get a⟩)
    (there : unread s = layout.encode a ++ rest) :
    ∃ t, layout.read b ⟨s, true⟩ = (layout.copy a b, ⟨t, true⟩) ∧ unread t = rest := by
  induction layout generalizing b s with
  | nil => exact ⟨s, rfl, there⟩
  | cons f layout ih =>
    obtain ⟨here, later⟩ := List.forall_mem_cons.mp short
    rw [encode, List.flatMap_cons, List.append_assoc] at there
    obtain ⟨t, read, left⟩ := Kind.decode_whole yields here (f.get b) there
    have next : Reader.read f.kind (f.get b) (⟨s, true⟩ : Reader σ) = (f.get a, ⟨t, true⟩) := by
      rw [Reader.read, read]
      rfl
    rw [Layout.read, next]
    exact ih (f.set (f.get a) b) later left

theorem at?_foldl_put {path : List Bytes} (diverge : ∀ f ∈ layout, Tree.Diverge path f.path) (a : α) (t : Tree) :
    (layout.foldl (fun t f => Tree.put f.path (f.kind.toTree (f.get a)) t) t).at? path = t.at? path := by
  induction layout generalizing t with
  | nil => rfl
  | cons f layout ih =>
    obtain ⟨here, later⟩ := List.forall_mem_cons.mp diverge
    rw [List.foldl_cons, ih later, Tree.at?_put_of_diverge here (f.kind.isNull_toTree _)]

/-- **In the document of a state every part has its node**, if no path leads through another one. -/
theorem at?_toTree (diverge : layout.Pairwise fun f g => Tree.Diverge f.path g.path) (a : α) {f : Field α}
    (mem : f ∈ layout) : (layout.toTree a).at? f.path = some (f.kind.toTree (f.get a)) := by
  -- The induction is over the parts, and the later ones are put into the document of the earlier ones.
  rw [toTree]
  generalize Tree.null = t
  induction layout generalizing t with
  | nil => cases mem
  | cons g layout ih =>
    obtain ⟨first, others⟩ := List.pairwise_cons.mp diverge
    rw [List.foldl_cons]
    rcases List.mem_cons.mp mem with rfl | later
    · rw [at?_foldl_put first, Tree.at?_put (f.kind.isNull_toTree _)]
    · exact ih others later _

theorem plain_toTree (layout : Layout α) (a : α) : (layout.toTree a).Plain := by
  refine List.foldlRecOn layout _ .null fun t plain f _ => ?_
  exact Tree.plain_put (f.kind.plain_toTree _) f.path plain

/-- A document with a node for every part is read well, and sets every part. -/
theorem ofTree_of_nodes {t : Tree} {a : α} (nodes : ∀ f ∈ layout, t.at? f.path = some (f.kind.toTree (f.get a)))
    (b : α) : layout.ofTree t b = (true, layout.copy a b) := by
  induction layout generalizing b with
  | nil => rfl
  | cons f layout ih =>
    obtain ⟨here, later⟩ := List.forall_mem_cons.mp nodes
    have read : f.readTree t b = (true, f.set (f.get a) b) :=
      f.readTree_of_value here (Kind.ofTree?_eq_some_iff.mpr rfl) b
    have rest := ih later (f.set (f.get a) b)
    simp only [ofTree, read, rest, Bool.and_self]
    rfl

/-- **A state that was written as a text is read from it again**, over whatever was there. -/
theorem ofTree_toTree (diverge : layout.Pairwise fun f g => Tree.Diverge f.path g.path) (a b : α) :
    Tree.parse? (layout.toTree a).render = some (layout.toTree a) ∧
      layout.ofTree (layout.toTree a) b = (true, layout.copy a b) :=
  ⟨Tree.parse?_render (plain_toTree layout a), ofTree_of_nodes (fun _ => at?_toTree diverge a) b⟩

end Layout

end Archive

end SerialLink
