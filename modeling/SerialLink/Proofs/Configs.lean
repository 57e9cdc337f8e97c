import SerialLink.Config
import SerialLink.Proofs.Layouts

/-!
# Saved configurations

A configuration is saved as the text of its document, or put into a stream as plain bytes.  Either way it is there
again when it is loaded over any other one, whatever bytes its address is made of: the text of a document is read
back as that document, and a stream gives what was put into it.  Together: `Config.survives_files_and_streams`.
-/

namespace SerialLink.Config

open Archive

/-- No part is in the way of another one. -/
theorem diverge : documentLayout.Pairwise fun f g => Tree.Diverge f.path g.path := by decide

/-- All parts are kept. -/
theorem copy_layout (c d : Config) : layout.copy c d = c := rfl

theorem copy_documentLayout (c d : Config) : documentLayout.copy c d = c := rfl

/-- The document of a configuration is merged as that configuration. -/
theorem merge_toTree (c d : Config) : d.merge c.toTree = (true, c) := by
  rw [merge, toTree, (Layout.ofTree_toTree diverge c d).2, copy_documentLayout]

/-- **What was saved to a file is loaded from it**, and nothing is told about it. -/
theorem load_save {folder : Folder} {path name : Bytes} (leads : Place.ofPath? path = some (.file name)) (c : Config) :
    ∃ saved, c.save? path folder = some saved ∧ ∀ old, load saved path old = pure (true, c) := by
  refine ⟨folder.put name c.toTree.render, by simp only [save?, Folder.write?, leads], fun old => ?_⟩
  have written : folder.write? path c.toTree.render = some (folder.put name c.toTree.render) := by
    simp only [Folder.write?, leads]
  have parses : Tree.parse? c.toTree.render = some c.toTree := (Layout.ofTree_toTree diverge c old).1
  rw [load, Folder.read?_of_write? leads written, loadSource]
  simp only [parses, merge_toTree, if_true]

theorem isShort {c : Config} (short : c.peerAddress.length < UInt32.size) :
    ∀ f ∈ layout, Value.IsShort ⟨f.kind, f.get c⟩ := by
  simp [layout, Value.IsShort, short]

/-- **A configuration survives being saved.**  Saved to any file, it is loaded from there over any other one, and
all goes well.  If the length of its address fits into a word, its bytes are read back as well: as they are, and
through a tape or a file, where what comes behind them stays unread. -/
theorem survives_files_and_streams (c : Config) :
    (∀ (folder : Folder) (path name : Bytes), Place.ofPath? path = some (.file name) →
      ∃ saved, c.save? path folder = some saved ∧ ∀ old, load saved path old = pure (true, c)) ∧
    (c.peerAddress.length < UInt32.size →
      (∀ old, layout.decode (layout.encode c) old = (true, c)) ∧
      (∀ t : Tape, t.writing = t.size →
        (layout.write c ⟨t, true⟩).success = true ∧
          (layout.write c ⟨t, true⟩).sink.data = t.data ++ layout.encode c) ∧
      (∀ (t : Tape) (rest : Bytes) (old : Config), t.unread = layout.encode c ++ rest →
        ∃ u, layout.read old ⟨t, true⟩ = (c, ⟨u, true⟩) ∧ u.unread = rest) ∧
      ∀ (f : DiskFile) (path name : Bytes), Place.ofPath? path = some (.file name) →
        let written := layout.write c ⟨f.openAt path .write, true⟩
        written.success = true ∧
          written.sink.close.folder.lookup? name = some (layout.encode c) ∧
          ∀ old, ∃ g, layout.read old ⟨written.sink.close.openAt path .read, true⟩ = (c, ⟨g, true⟩) ∧
            g.unread = []) := by
  refine ⟨fun folder path name leads => load_save leads c, fun short => ⟨?_, ?_, ?_, ?_⟩⟩
  · intro old
    have there : (Tape.ofBytes (layout.encode c)).unread = layout.encode c ++ [] := (List.append_nil _).symm
    obtain ⟨t, read, _⟩ := Layout.read_whole Tape.yields layout c old (isShort short) there
    rw [Layout.decode, read, copy_layout]
  · intro t atEnd
    obtain ⟨success, holds⟩ := Layout.write_whole Tape.gathers layout c (⟨rfl, atEnd⟩ : Tape.Holds t.data t)
    exact ⟨success, holds.data⟩
  · intro t rest old there
    exact Layout.read_whole Tape.yields layout c old (isShort short) there
  · intro f path name leads written
    obtain ⟨success, holds⟩ := Layout.write_whole (DiskFile.gathers name) layout c
      (DiskFile.holds_openAt (f := f) leads (show DiskFile.Mode.write ≠ .read by decide))
    have there : written.sink.close.folder.lookup? name = some (layout.encode c) := holds.lookup?_close
    refine ⟨success, there, fun old => ?_⟩
    have unread := DiskFile.unread_openAt leads there
    exact Layout.read_whole DiskFile.yields layout c old (isShort short) (unread.trans (List.append_nil _).symm)

/-- An address that is none: a quote, a backslash, a zero, a line feed and a letter of two bytes. -/
def awkward : Config :=
  { peerAddress := [34, 92, 0, 10, 195, 188]
    bindAsServer := true
    transferTimeout := 4294967295 }

/-- Even so the configuration is loaded over a new one, from a file and from its bytes. -/
theorem survives_files_and_streams_awkward :
    (Place.ofPath? [98] = some (.file [98]) ∧ awkward.peerAddress.length < UInt32.size) ∧
      (∃ saved, awkward.save? [98] {} = some saved ∧ load saved [98] {} = pure (true, awkward)) ∧
      layout.decode (layout.encode awkward) {} = (true, awkward) := by
  have leads : Place.ofPath? [98] = some (.file [98]) := by decide
  have short : awkward.peerAddress.length < UInt32.size := by decide
  obtain ⟨files, streams⟩ := survives_files_and_streams awkward
  obtain ⟨saved, ok, loaded⟩ := files {} [98] [98] leads
  exact ⟨⟨leads, short⟩, ⟨saved, ok, loaded {}⟩, (streams short).1 {}⟩

end SerialLink.Config
