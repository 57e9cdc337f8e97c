import SerialLink.Config
import SerialLink.Proofs.Layouts
import SerialLink.Proofs.Plug
import SerialLink.SerialPort.Snapshot

/-!
# What loading a document changes

A document is merged into what is there, one part after the other.  A part whose node is of its kind takes the
value of the node, and every other part stays as it is, whatever is wrong with the rest of the document.  All went
well exactly if every node on the way to a part is missing, null or an object, and every part that is there is of
its kind.  So it is with a configuration (`Config.Merges`) and with the state of a port (`SerialPort.Merges`), of
which the clock is put in range, and the data register is only loaded with a link.
-/

namespace SerialLink

open Archive

/-- The path that is made up of names. -/
def Archive.path (names : List String) : List Bytes := names.map Bytes.ofString

/-! ### Configurations -/

namespace Config

/-- What becomes of a configuration into which a document is merged. -/
structure Merges (t : Tree) (c : Config) (x : Bool × Config) : Prop where
  success : x.1 = true ↔ t.OpensAt (path []) ∧ t.OpensAt (path ["link"]) ∧
    Kind.Fits .text (t.at? (path ["link", "peerAddress"])) ∧
    Kind.Fits .bool (t.at? (path ["link", "bindAsServer"])) ∧
    Kind.Fits .bool (t.at? (path ["link", "interruptBased"])) ∧
    Kind.Fits .u32 (t.at? (path ["link", "transferTimeout"]))
  peerAddress : Kind.Takes .text id (t.at? (path ["link", "peerAddress"])) c.peerAddress x.2.peerAddress
  bindAsServer : Kind.Takes .bool id (t.at? (path ["link", "bindAsServer"])) c.bindAsServer x.2.bindAsServer
  interruptBased :
    Kind.Takes .bool id (t.at? (path ["link", "interruptBased"])) c.interruptBased x.2.interruptBased
  transferTimeout :
    Kind.Takes .u32 id (t.at? (path ["link", "transferTimeout"])) c.transferTimeout x.2.transferTimeout

theorem apart : documentLayout.Pairwise fun f g => f.Apart g ∧ g.Apart f := by
  simp [documentLayout, layout, Layout.under, Field.under, Field.Apart]

/-- A document is merged part by part. -/
theorem merges (t : Tree) (c : Config) : Merges t c (c.merge t) where
  success := by
    have opens (name : Bytes) : t.isOpenAlong [Bytes.ofString "link", name] = true ↔
        t.OpensAt (path []) ∧ t.OpensAt (path ["link"]) :=
      Tree.isOpenAlong_pair _ name t
    rw [merge, Layout.success_ofTree]
    simp only [documentLayout, layout, Layout.under, Field.under, List.map_cons, List.map_nil, List.forall_mem_cons,
      List.not_mem_nil, false_implies, implies_true, and_true, opens]
    constructor
    · intro ⟨⟨⟨root, link⟩, peerAddress⟩, ⟨_, bindAsServer⟩, ⟨_, interruptBased⟩, ⟨_, transferTimeout⟩⟩
      exact ⟨root, link, peerAddress, bindAsServer, interruptBased, transferTimeout⟩
    · intro ⟨root, link, peerAddress, bindAsServer, interruptBased, transferTimeout⟩
      exact ⟨⟨⟨root, link⟩, peerAddress⟩, ⟨⟨root, link⟩, bindAsServer⟩, ⟨⟨root, link⟩, interruptBased⟩,
        ⟨root, link⟩, transferTimeout⟩
  peerAddress := Layout.takes_ofTree apart (List.mem_of_getElem? (i := 0) rfl) (fun _ _ => rfl) t c
  bindAsServer := Layout.takes_ofTree apart (List.mem_of_getElem? (i := 1) rfl) (fun _ _ => rfl) t c
  interruptBased := Layout.takes_ofTree apart (List.mem_of_getElem? (i := 2) rfl) (fun _ _ => rfl) t c
  transferTimeout := Layout.takes_ofTree apart (List.mem_of_getElem? (i := 3) rfl) (fun _ _ => rfl) t c

/-- What a file holds is merged. -/
theorem value_load {folder : Folder} {file source : Bytes} {t : Tree} (holds : folder.read? file = some source)
    (parses : Tree.parse? source = some t) (c : Config) : (load folder file c).value = c.merge t := by
  rw [load, holds, loadSource]
  simp only [parses]
  split
  · next ok => exact Prod.ext ok.symm rfl
  · next bad => exact Prod.ext (Bool.eq_false_iff.mpr bad).symm rfl

end Config

/-! ### Ports -/

namespace Snapshot

theorem apart : documentLayout.Pairwise fun f g => f.Apart g ∧ g.Apart f := by
  simp [documentLayout, layout, Clock.layout, Layout.under, Layout.within, Field.under, Field.within, Field.Apart]

/-- What the peer has told is not kept. -/
theorem received_ofTree (t : Tree) (s : Snapshot) :
    (documentLayout.ofTree t s).2.clock.received = s.clock.received := by
  refine Layout.ofTree_keeps (P := fun r : Snapshot => r.clock.received = s.clock.received) ?_ t rfl
  simp [documentLayout, layout, Clock.layout, Layout.under, Layout.within, Field.under, Field.within]

end Snapshot

namespace SerialPort

/-- What becomes of a port when a state is loaded from a document that holds one. -/
structure Restores (t : Tree) (p q : SerialPort) : Prop where
  data : p.isEnabled = true → Kind.Takes .u8 id (t.at? (path ["link", "SB"])) p.port.data q.port.data
  unlinked : p.isEnabled = false → q.port.data = 0xff
  control : Kind.Takes .u8 id (t.at? (path ["link", "SC"])) p.port.control q.port.control
  timestamp : Kind.Takes .u32 (· &&& timestampMask) (t.at? (path ["link", "clock", "timestamp"]))
    p.clock.timestamp q.clock.timestamp
  cycles : Kind.Takes .u32 (· &&& Clock.cycleMask) (t.at? (path ["link", "clock", "timestampCycles"]))
    p.clock.cycles q.clock.cycles
  others : q = { p with
    clock := { p.clock with timestamp := q.clock.timestamp, cycles := q.clock.cycles }
    port := { p.port with data := q.port.data, control := q.port.control, answer := q.port.data, answered := 0 }
    transferredBits := 0
    cycleCount := 0 }

/-- What becomes of a port into which a document is loaded. -/
structure Merges (t : Tree) (p : SerialPort) (x : Bool × SerialPort) : Prop where
  success : x.1 = true ↔ t.OpensAt (path []) ∧ t.OpensAt (path ["link"]) ∧ t.OpensAt (path ["link", "clock"]) ∧
    Kind.Fits .u8 (t.at? (path ["link", "SB"])) ∧
    Kind.Fits .u8 (t.at? (path ["link", "SC"])) ∧
    Kind.Fits .u32 (t.at? (path ["link", "clock", "timestamp"])) ∧
    Kind.Fits .u32 (t.at? (path ["link", "clock", "timestampCycles"]))
  absent : t.at? (path ["link"]) = none → x.2 = p
  present : t.at? (path ["link"]) ≠ none → Restores t p x.2

/-- The parts are read in any case, and taken over if the document holds a state. -/
theorem loadTree_eq (t : Tree) (p : SerialPort) :
    let read := Snapshot.documentLayout.ofTree t p.snapshot
    p.loadTree t = (read.1, if (t.at? (path ["link"])).isSome then p.restore read.2 else p) := by
  intro read
  show p.loadTree t = (read.1, if (t.at? [Snapshot.rootName]).isSome then p.restore read.2 else p)
  -- A port does not mind whether a document that holds no state is only empty or has no members at all.
  cases node : t.at? [Snapshot.rootName] with
  | some n => simp [loadTree, Tree.find_of_at? node, read]
  | none =>
    cases along : t.isOpenAlong [Snapshot.rootName] with
    | true => simp [loadTree, Tree.find_of_none node, along, read]
    | false => simp [loadTree, Tree.find_of_none node, along, read]

theorem restores (t : Tree) (p : SerialPort) :
    Restores t p (p.restore (Snapshot.documentLayout.ofTree t p.snapshot).2) where
  data enabled := by
    have register : ∀ s : Snapshot, (p.restore s).port.data = s.data := fun s => if_pos enabled
    rw [register]
    exact Layout.takes_ofTree Snapshot.apart (List.mem_of_getElem? (i := 0) rfl) (fun _ _ => rfl) t p.snapshot
  unlinked off := by simp [restore, off]
  control := Layout.takes_ofTree Snapshot.apart (List.mem_of_getElem? (i := 1) rfl) (fun _ _ => rfl) t p.snapshot
  timestamp :=
    Layout.takes_ofTree Snapshot.apart (List.mem_of_getElem? (i := 2) rfl) (fun _ _ => rfl) t p.snapshot
  cycles := Layout.takes_ofTree Snapshot.apart (List.mem_of_getElem? (i := 3) rfl) (fun _ _ => rfl) t p.snapshot
  others := by
    have received := Snapshot.received_ofTree t p.snapshot
    generalize (Snapshot.documentLayout.ofTree t p.snapshot).2 = s at received
    obtain ⟨data, control, timestamp, cycles, told⟩ := s
    obtain rfl : told = p.clock.received := received
    rfl

/-- A document is loaded part by part, if it holds a state. -/
theorem merges (t : Tree) (p : SerialPort) : Merges t p (p.loadTree t) := by
  rw [loadTree_eq]
  constructor
  · have one (name : Bytes) : t.isOpenAlong [Snapshot.rootName, name] = true ↔
        t.OpensAt (path []) ∧ t.OpensAt (path ["link"]) :=
      Tree.isOpenAlong_pair _ name t
    have two (name : Bytes) : t.isOpenAlong [Snapshot.rootName, Bytes.ofString "clock", name] = true ↔
        t.OpensAt (path []) ∧ t.OpensAt (path ["link"]) ∧ t.OpensAt (path ["link", "clock"]) :=
      Tree.isOpenAlong_triple _ _ name t
    rw [Layout.success_ofTree]
    simp only [Snapshot.documentLayout, Snapshot.layout, Clock.layout, Layout.under, Layout.within, Field.under,
      Field.within, List.map_cons, List.map_nil, List.cons_append, List.nil_append, List.forall_mem_cons,
      List.not_mem_nil, false_implies, implies_true, and_true, one, two]
    constructor
    · intro ⟨⟨_, data⟩, ⟨_, control⟩, ⟨⟨root, link, clock⟩, timestamp⟩, ⟨_, cycles⟩⟩
      exact ⟨root, link, clock, data, control, timestamp, cycles⟩
    · intro ⟨root, link, clock, data, control, timestamp, cycles⟩
      exact ⟨⟨⟨root, link⟩, data⟩, ⟨⟨root, link⟩, control⟩, ⟨⟨root, link, clock⟩, timestamp⟩,
        ⟨root, link, clock⟩, cycles⟩
  · intro absent
    simp [absent]
  · intro present
    rw [if_pos (Option.isSome_iff_ne_none.mpr present)]
    exact restores t p

end SerialPort

/-! ### Both -/

/-- **A document is loaded part by part.**  Into any configuration, from a tree or from the file that holds its text,
and into any port: a part takes the value of its node or keeps its own, no matter what becomes of the parts in front
of it, and it is told if anything is of the wrong kind.  The bits of the clock that do not count are lost.  A port
takes over its state only from a document that holds one; a byte under way begins anew then, and the next answers
are the bits of the data register, which is all ones without a link. -/
theorem loads_part_by_part (t : Tree) :
    (∀ c : Config, Config.Merges t c (c.merge t)) ∧
    (∀ (folder : Folder) (file source : Bytes) (c : Config), folder.read? file = some source →
      Tree.parse? source = some t → Config.Merges t c (Config.load folder file c).value) ∧
    ∀ p : SerialPort, SerialPort.Merges t p (p.loadTree t) := by
  refine ⟨Config.merges t, ?_, SerialPort.merges t⟩
  intro folder file source c holds parses
  rw [Config.value_load holds parses]
  exact Config.merges t c

/-- A document with parts of a configuration, the first of the wrong kind, and parts of the state of a port. -/
def mixed : Tree :=
  Tree.put (path ["link", "peerAddress"]) (.integer 7) <| Tree.put (path ["link", "bindAsServer"]) (.boolean true) <|
    Tree.put (path ["link", "SB"]) (.integer 5) <|
      Tree.put (path ["link", "clock", "timestamp"]) (.integer 4294967295) .null

/-- The part behind the bad one is loaded, and the port does not mind the parts of the configuration. -/
theorem loads_part_by_part_mixed :
    let folder := ({} : Folder).put [115] mixed.render
    let x := (Config.load folder [115] { peerAddress := [49] }).value
    let y := Link.called.made.value.loadTree mixed
    (folder.read? [115] = some mixed.render ∧ Tree.parse? mixed.render = some mixed) ∧
      x.1 = false ∧ x.2.peerAddress = [49] ∧ x.2.bindAsServer = true ∧
      y.1 = true ∧ y.2.port.data = 5 ∧ y.2.port.answer = 5 ∧ y.2.clock.timestamp = 2147483647 := by
  intro folder x y
  have holds : folder.read? [115] = some mixed.render := by
    have leads : Place.ofPath? [115] = some (.file [115]) := by decide
    simp only [Folder.read?, leads, folder, Folder.lookup?_put_self]
  have parses : Tree.parse? mixed.render = some mixed := by
    apply Tree.parse?_render
    apply Tree.plain_put (.integer 7)
    apply Tree.plain_put (.boolean true)
    apply Tree.plain_put (.integer 5)
    exact Tree.plain_put (.integer 4294967295) _ .null
  obtain ⟨_, config, port⟩ := loads_part_by_part mixed
  have merged := config folder [115] mixed.render { peerAddress := [49] } holds parses
  have loaded := port Link.called.made.value
  have restored := loaded.present (Option.some_ne_none _)
  have data : y.2.port.data = 5 := (restored.data (by decide)).given 5 rfl
  refine ⟨⟨holds, parses⟩, ?_, merged.peerAddress.kept ?_, merged.bindAsServer.given true rfl, ?_, data, ?_,
    restored.timestamp.given 4294967295 rfl⟩
  · refine Bool.eq_false_iff.mpr fun ok => ?_
    obtain ⟨_, _, text, _⟩ := merged.success.mp ok
    obtain ⟨v, same⟩ := text _ rfl
    cases same
  · intro v same
    cases same
  · have opens {n : Tree} (members : n.isOpen = true) : ∀ m, some n = some m → m.isOpen = true := by
      intro m same
      rw [← Option.some.inj same, members]
    exact loaded.success.mpr ⟨opens rfl, opens rfl, opens rfl, Kind.fits_toTree 5, Kind.fits_none,
      Kind.fits_toTree 4294967295, Kind.fits_none⟩
  · exact (congrArg (·.port.answer) restored.others).trans data

/-- A document with a data register alone. -/
def onlyData : Tree := .object [(Bytes.ofString "link", .object [(Bytes.ofString "SB", .integer 5)])]

/-- Without a link the data register does not take the value of its node. -/
theorem keeps_data_without_link : ¬∀ (t : Tree) (p : SerialPort), t.at? (path ["link"]) ≠ none →
    Kind.Takes .u8 id (t.at? (path ["link", "SB"])) p.port.data (p.loadTree t).2.port.data := by
  intro all
  have taken := (all onlyData .new (Option.some_ne_none _)).given 5 rfl
  exact absurd taken (by decide)

end SerialLink
