import SerialLink.Archive.Binary
import SerialLink.Proofs.Streams

/-!
# Values that are kept as bytes

Whatever the stream, what was written is what is read.  A value that is wholly there is read back as it was, and
its bytes and no others are taken out of the source (`Archive.Kind.decode_whole`).  A value that is cut is
noticed, wherever the cut is: in the length of a text, between the halves of a long word, or behind them
(`Archive.Kind.decode_cut`).  From these two follows what becomes of all values of a list, in nodes or not
(`Archive.read_what_was_written`).
-/

namespace SerialLink

/-! ### Words -/

namespace Bytes

theorem toUInt16_ofUInt16 (w : UInt16) : toUInt16 (ofUInt16 w) = w := by
  apply UInt16.toNat_inj.1
  have hw : w.toNat < wordCount 2 := w.toNat_lt
  rw [toUInt16, ofUInt16, toNat_littleEndian, Nat.mod_eq_of_lt hw, UInt16.ofNat_toNat]

@[simp] theorem length_ofUInt16 (w : UInt16) : (ofUInt16 w).length = 2 := length_littleEndian 2 _

@[simp] theorem length_ofUInt32 (w : UInt32) : (ofUInt32 w).length = 4 := length_littleEndian 4 _

end Bytes

namespace Archive

/-- A long word is made up of its halves. -/
theorem join_halves (w : UInt64) :
    ((w >>> 32).toUInt32.toUInt64 <<< 32) ||| w.toUInt32.toUInt64 = w := by
  apply UInt64.toNat_inj.1
  have range := w.toNat_lt
  have high : (w >>> 32).toUInt32.toUInt64.toNat = w.toNat / 4294967296 := by
    rw [UInt32.toNat_toUInt64, UInt64.toNat_toUInt32, UInt64.toNat_shiftRight]
    show w.toNat >>> 32 % _ = _
    rw [Nat.shiftRight_eq_div_pow]
    omega
  have low : w.toUInt32.toUInt64.toNat = w.toNat % 4294967296 := by
    rw [UInt32.toNat_toUInt64, UInt64.toNat_toUInt32]
  have shifted : ((w >>> 32).toUInt32.toUInt64 <<< 32).toNat = 2 ^ 32 * (w.toNat / 4294967296) := by
    rw [UInt64.toNat_shiftLeft, high]
    show (w.toNat / 4294967296) <<< 32 % _ = _
    rw [Nat.shiftLeft_eq]
    omega
  -- The high half leaves the low one free, so that `or` is a sum.
  rw [UInt64.toNat_or, shifted, low, ← Nat.two_pow_add_eq_or_of_lt (by omega)]
  omega

/-! ### Values -/

/-- Whether the length of a value fits into a word: it does unless the value is a very long text. -/
def Value.IsShort : Value → Prop
  | ⟨.text, b⟩ => b.length < UInt32.size
  | _ => True

/-- All bytes of a value. -/
def Value.bytes (v : Value) : Bytes := v.kind.encode v.carrier

/-- The bytes of all values. -/
def bytesOf (values : List Value) : Bytes := values.flatMap Value.bytes

namespace Kind

variable {σ : Type} [Source σ] {unread : σ → Bytes} {s : σ} {rest : Bytes}

theorem length_resize (length : Nat) (b : Bytes) : (resize length b).length = length := by
  rw [resize, List.length_append, List.length_take, List.length_replicate]
  omega

/-- The length of a text as it is read. -/
theorem toNat_size {b : Bytes} (short : b.length < UInt32.size) :
    (UInt32.ofNat b.length).toNat = b.length :=
  UInt32.toNat_ofNat_of_lt' short

theorem size_ne_zero {b : Bytes} (some : b ≠ []) (short : b.length < UInt32.size) :
    UInt32.ofNat b.length ≠ 0 := by
  intro zero
  have length := toNat_size short
  rw [zero] at length
  exact some (List.eq_nil_of_length_eq_zero length.symm)

theorem encode_text_nil : encode text [] = Bytes.ofUInt32 0 := rfl

theorem encode_text {b : Bytes} (some : b ≠ []) (short : b.length < UInt32.size) :
    encode text b = Bytes.ofUInt32 (UInt32.ofNat b.length) ++ b := by
  show (Bytes.ofUInt32 (UInt32.ofNat b.length) :: if UInt32.ofNat b.length = 0 then [] else [b]).flatten = _
  rw [if_neg (size_ne_zero some short)]
  simp

theorem encode_u16 (w : UInt16) : encode u16 w = Bytes.ofUInt16 w := by
  show [Bytes.ofUInt16 w].flatten = _
  simp

theorem encode_i32 (w : Int32) : encode i32 w = Bytes.ofUInt32 w.toUInt32 := by
  show [Bytes.ofUInt32 w.toUInt32].flatten = _
  simp

theorem encode_u32 (w : UInt32) : encode u32 w = Bytes.ofUInt32 w := by
  show [Bytes.ofUInt32 w].flatten = _
  simp

theorem encode_u64 (w : UInt64) :
    encode u64 w = Bytes.ofUInt32 w.toUInt32 ++ Bytes.ofUInt32 (w >>> 32).toUInt32 := by
  show [Bytes.ofUInt32 w.toUInt32, Bytes.ofUInt32 (w >>> 32).toUInt32].flatten = _
  simp

/-- A word of four bytes is read over zeros. -/
theorem readZeroed_word (yields : Source.Yields unread) {w : UInt32}
    (split : unread s = Bytes.ofUInt32 w ++ rest) :
    ∃ t, readZeroed 4 s = (true, Bytes.ofUInt32 w, t) ∧ unread t = rest := by
  refine yields.whole (List.replicate 4 0) split ?_ (List.ne_nil_of_length_pos ?_)
  · rw [List.length_replicate, Bytes.length_ofUInt32]
  · rw [Bytes.length_ofUInt32]
    omega

theorem readZeroed_short (yields : Source.Yields unread) (count : Nat) (short : (unread s).length < count) :
    (readZeroed count s).1 = false := by
  refine yields.short _ s ?_
  rw [List.length_replicate]
  exact short

/-- **A value that is wholly there is read as it was**, over whatever was there, and no byte behind it is
touched. -/
theorem decode_whole (yields : Source.Yields unread) {k : Kind} {v : k.Carrier} (short : Value.IsShort ⟨k, v⟩)
    (old : k.Carrier) (split : unread s = k.encode v ++ rest) :
    ∃ t, k.decode old s = (true, v, t) ∧ unread t = rest := by
  cases k with
  | bool =>
    obtain ⟨t, read, left⟩ := yields.whole (List.replicate 1 0) split rfl nofun
    refine ⟨t, ?_, left⟩
    rw [decode, readZeroed, read]
    cases v <;> rfl
  | u8 =>
    obtain ⟨t, read, left⟩ := yields.whole [old] split rfl nofun
    refine ⟨t, ?_, left⟩
    rw [decode, read]
    rfl
  | u16 =>
    rw [encode_u16] at split
    obtain ⟨t, read, left⟩ := yields.whole (List.replicate 2 0) split (by simp)
      (List.ne_nil_of_length_pos (by simp))
    refine ⟨t, ?_, left⟩
    simp only [decode, readZeroed, read, Bytes.toUInt16_ofUInt16]
  | i32 =>
    rw [encode_i32] at split
    obtain ⟨t, read, left⟩ := readZeroed_word yields split
    refine ⟨t, ?_, left⟩
    simp only [decode, read, Bytes.toUInt32_ofUInt32]
    rfl
  | u32 =>
    rw [encode_u32] at split
    obtain ⟨t, read, left⟩ := readZeroed_word yields split
    refine ⟨t, ?_, left⟩
    simp only [decode, read, Bytes.toUInt32_ofUInt32]
  | u64 =>
    rw [encode_u64, List.append_assoc] at split
    obtain ⟨t, low, more⟩ := readZeroed_word yields split
    obtain ⟨u, high, left⟩ := readZeroed_word yields more
    refine ⟨u, ?_, left⟩
    simp only [decode, low, high, Bytes.toUInt32_ofUInt32, Bool.and_self, join_halves]
  | text =>
    have short : v.length < UInt32.size := short
    by_cases none : v = []
    · subst none
      rw [encode_text_nil] at split
      obtain ⟨t, read, left⟩ := readZeroed_word yields split
      refine ⟨t, ?_, left⟩
      have empty : resize (UInt32.toNat 0) old = [] := List.eq_nil_of_length_eq_zero (length_resize 0 old)
      simp only [decode, read, Bytes.toUInt32_ofUInt32, if_true, empty]
    · rw [encode_text none short, List.append_assoc] at split
      obtain ⟨t, read, more⟩ := readZeroed_word yields split
      have length := toNat_size short
      obtain ⟨u, content, left⟩ := yields.whole (resize (UInt32.ofNat v.length).toNat old) more
        (by rw [length_resize, length]) none
      refine ⟨u, ?_, left⟩
      simp only [decode, read, Bytes.toUInt32_ofUInt32, if_neg (size_ne_zero none short), content,
        Bool.and_self]

/-- **A value that is cut is noticed**, wherever it is cut. -/
theorem decode_cut (yields : Source.Yields unread) {k : Kind} {v : k.Carrier} (short : Value.IsShort ⟨k, v⟩)
    (old : k.Carrier) {n : Nat} (cut : n < (k.encode v).length) (split : unread s = (k.encode v).take n) :
    (k.decode old s).1 = false := by
  have few : (unread s).length = n := by
    rw [split, List.length_take]
    omega
  cases k with
  | bool => exact readZeroed_short yields 1 (few ▸ cut)
  | u8 => exact yields.short [old] s (few ▸ cut)
  | u16 =>
    rw [encode_u16, Bytes.length_ofUInt16] at cut
    exact readZeroed_short yields 2 (by omega)
  | i32 =>
    rw [encode_i32, Bytes.length_ofUInt32] at cut
    exact readZeroed_short yields 4 (by omega)
  | u32 =>
    rw [encode_u32, Bytes.length_ofUInt32] at cut
    exact readZeroed_short yields 4 (by omega)
  | u64 =>
    rw [encode_u64] at cut split
    rw [List.length_append, Bytes.length_ofUInt32, Bytes.length_ofUInt32] at cut
    by_cases early : n < 4
    · show ((readZeroed 4 s).1 && _) = false
      rw [readZeroed_short yields 4 (by omega), Bool.false_and]
    · -- The low half is there, and the high one is not.
      rw [List.take_append, Bytes.length_ofUInt32,
        List.take_of_length_le (by rw [Bytes.length_ofUInt32]; omega)] at split
      obtain ⟨t, low, more⟩ := readZeroed_word yields split
      have left : (unread t).length < 4 := by
        rw [more, List.length_take, Bytes.length_ofUInt32]
        omega
      have high := readZeroed_short yields 4 left
      simp only [decode, low, high, Bool.true_and]
  | text =>
    have short : v.length < UInt32.size := short
    by_cases none : v = []
    · subst none
      rw [encode_text_nil, Bytes.length_ofUInt32] at cut
      have size := readZeroed_short (s := s) yields 4 (by omega)
      simp only [decode]
      split <;> simp only [size, Bool.false_and]
    · rw [encode_text none short] at cut split
      rw [List.length_append, Bytes.length_ofUInt32] at cut
      by_cases early : n < 4
      · -- The length is not whole, and whatever was read for it does not count.
        have size := readZeroed_short (s := s) yields 4 (by omega)
        simp only [decode]
        split <;> simp only [size, Bool.false_and]
      · rw [List.take_append, Bytes.length_ofUInt32,
          List.take_of_length_le (by rw [Bytes.length_ofUInt32]; omega)] at split
        obtain ⟨t, read, more⟩ := readZeroed_word yields split
        have length := toNat_size short
        have left : (unread t).length < (resize (UInt32.ofNat v.length).toNat old).length := by
          rw [length_resize, length, more, List.length_take]
          omega
        have content := yields.short _ t left
        simp only [decode, read, Bytes.toUInt32_ofUInt32, if_neg (size_ne_zero none short), content,
          Bool.and_false]

end Kind

/-! ### Lists of values -/

section

variable {σ : Type} [Source σ] {unread : σ → Bytes} {rest : Bytes} {olds values : List Value}

/-- What comes of reading values when the source ends after so many bytes: those in front of the cut are there as
they were, and everything went well so far; from the cut on nothing counts as well. -/
structure CutAt (n : Nat) (values : List Value) (results : List (Value × Bool)) : Prop where
  length : results.length = values.length
  split : ∃ k, k < values.length ∧ (bytesOf (values.take k)).length ≤ n ∧
    n < (bytesOf (values.take (k + 1))).length ∧
    results.take k = (values.take k).map (·, true) ∧ ∀ result ∈ results.drop k, result.2 = false

theorem readAll_cons (old : Value) (olds : List Value) (r : Reader σ) :
    Reader.readAll (old :: olds) r =
      ((⟨old.kind, (r.read old.kind old.carrier).1⟩, (r.read old.kind old.carrier).2.success) ::
        (Reader.readAll olds (r.read old.kind old.carrier).2).1,
        (Reader.readAll olds (r.read old.kind old.carrier).2).2) := rfl

theorem bytesOf_cons (v : Value) (values : List Value) :
    bytesOf (v :: values) = v.bytes ++ bytesOf values := List.flatMap_cons

/-- One more value in front of the cut. -/
theorem CutAt.cons {v : Value} {n : Nat} {results : List (Value × Bool)}
    (cut : CutAt (n - v.bytes.length) values results) (whole : v.bytes.length ≤ n) :
    CutAt n (v :: values) ((v, true) :: results) := by
  obtain ⟨length, k, few, before, behind, whole', broken⟩ := cut
  refine ⟨congrArg (· + 1) length, k + 1, Nat.succ_lt_succ few, ?_, ?_, ?_, broken⟩
  · rw [List.take_succ_cons, bytesOf_cons, List.length_append]
    omega
  · rw [List.take_succ_cons, bytesOf_cons, List.length_append]
    omega
  · rw [List.take_succ_cons, List.take_succ_cons, List.map_cons, whole']

/-- What is read after a failure never counts as well again. -/
theorem readAll_failed (olds : List Value) {r : Reader σ} (failed : r.success = false) :
    (Reader.readAll olds r).1.length = olds.length ∧
      (∀ result ∈ (Reader.readAll olds r).1, result.2 = false) ∧
      (Reader.readAll olds r).2.success = false := by
  induction olds generalizing r with
  | nil => exact ⟨rfl, nofun, failed⟩
  | cons old olds ih =>
    have next : (r.read old.kind old.carrier).2.success = false := by
      show (r.success && _) = false
      rw [failed, Bool.false_and]
    obtain ⟨length, broken, still⟩ := ih next
    refine ⟨congrArg (· + 1) length, ?_, still⟩
    intro result mem
    rcases List.mem_cons.mp mem with rfl | mem
    · exact next
    · exact broken result mem

/-- Values that are all there are read one after the other. -/
theorem readAll_whole (yields : Source.Yields unread) (short : ∀ v ∈ values, v.IsShort)
    (same : olds.map (·.kind) = values.map (·.kind)) {s : σ} (there : unread s = bytesOf values ++ rest) :
    (Reader.readAll olds ⟨s, true⟩).1 = values.map (·, true) ∧
      (Reader.readAll olds ⟨s, true⟩).2.success = true ∧
      unread (Reader.readAll olds ⟨s, true⟩).2.source = rest := by
  induction values generalizing olds s with
  | nil =>
    obtain rfl : olds = [] := List.map_eq_nil_iff.mp same
    exact ⟨rfl, rfl, there⟩
  | cons v values ih =>
    cases olds with
    | nil => cases same
    | cons old olds =>
      obtain ⟨kind, others⟩ := List.cons.inj same
      obtain ⟨here, later⟩ := List.forall_mem_cons.mp short
      obtain ⟨k, carrier⟩ := v
      obtain ⟨k', place⟩ := old
      obtain rfl : k' = k := kind
      rw [bytesOf_cons, List.append_assoc] at there
      obtain ⟨t, read, left⟩ := Kind.decode_whole yields here place there
      have next : Reader.read k' place (⟨s, true⟩ : Reader σ) = (carrier, ⟨t, true⟩) := by
        rw [Reader.read, read]
        rfl
      obtain ⟨results, success, behind⟩ := ih later others left
      rw [readAll_cons, next, List.map_cons, results]
      exact ⟨rfl, success, behind⟩

/-- **Values that are cut somewhere are read up to the cut**, and it is noticed. -/
theorem readAll_cut (yields : Source.Yields unread) (short : ∀ v ∈ values, v.IsShort)
    (same : olds.map (·.kind) = values.map (·.kind)) {n : Nat} (cut : n < (bytesOf values).length) {s : σ}
    (there : unread s = (bytesOf values).take n) :
    CutAt n values (Reader.readAll olds ⟨s, true⟩).1 ∧
      (Reader.readAll olds ⟨s, true⟩).2.success = false := by
  induction values generalizing olds s n with
  | nil => exact absurd cut (Nat.not_lt_zero n)
  | cons v values ih =>
    cases olds with
    | nil => cases same
    | cons old olds =>
      obtain ⟨kind, others⟩ := List.cons.inj same
      obtain ⟨here, later⟩ := List.forall_mem_cons.mp short
      obtain ⟨k, carrier⟩ := v
      obtain ⟨k', place⟩ := old
      obtain rfl : k' = k := kind
      rw [bytesOf_cons] at cut there
      rw [List.length_append] at cut
      rw [List.take_append] at there
      by_cases whole : (Value.bytes ⟨k', carrier⟩).length ≤ n
      · rw [List.take_of_length_le whole] at there
        obtain ⟨t, read, left⟩ := Kind.decode_whole yields here place there
        have next : Reader.read k' place (⟨s, true⟩ : Reader σ) = (carrier, ⟨t, true⟩) := by
          rw [Reader.read, read]
          rfl
        obtain ⟨split, success⟩ := ih later others (by omega) left
        rw [readAll_cons, next]
        exact ⟨split.cons whole, success⟩
      · -- The cut is in this value, or in front of its first byte.
        have before : n < (Value.bytes ⟨k', carrier⟩).length := Nat.lt_of_not_le whole
        have none : n - (Value.bytes ⟨k', carrier⟩).length = 0 := by omega
        rw [none, List.take_zero, List.append_nil] at there
        have failed : (Reader.read k' place (⟨s, true⟩ : Reader σ)).2.success = false := by
          show (true && (k'.decode place s).1) = false
          rw [Kind.decode_cut yields here place before there, Bool.and_false]
        obtain ⟨length, broken, still⟩ := readAll_failed olds failed
        refine ⟨⟨?_, 0, Nat.zero_lt_succ _, Nat.zero_le _, ?_, rfl, ?_⟩, still⟩
        · have kinds := congrArg List.length others
          rw [List.length_map, List.length_map] at kinds
          rw [readAll_cons, List.length_cons, List.length_cons, length, kinds]
        · rw [List.take_succ_cons, List.take_zero, bytesOf_cons, List.length_append]
          omega
        · intro result mem
          rcases List.mem_cons.mp mem with rfl | mem
          · exact failed
          · exact broken result mem

end

section

variable {σ : Type} [Sink σ] {Holds : Bytes → σ → Prop} {done : Bytes}

/-- No part of a value is empty. -/
theorem Kind.parts_ne_nil (k : Kind) (v : k.Carrier) : ∀ part ∈ k.parts v, part ≠ [] := by
  have word : ∀ w, Bytes.ofUInt32 w ≠ [] := fun w => List.ne_nil_of_length_pos (by simp)
  have half : ∀ w, Bytes.ofUInt16 w ≠ [] := fun w => List.ne_nil_of_length_pos (by simp)
  cases k with
  | bool | u8 => simp [parts]
  | u16 => simp [parts, half]
  | i32 | u32 | u64 => simp [parts, word]
  | text =>
    intro part mem
    rcases List.mem_cons.mp mem with rfl | mem
    · exact word _
    · split at mem
      · cases mem
      · next some =>
        rw [List.mem_singleton.mp mem]
        intro empty
        rw [empty] at some
        exact some rfl

/-- The parts of a value are put into the sink one after the other. -/
theorem foldl_put (gathers : Sink.Gathers Holds) {parts : List Bytes} (some : ∀ part ∈ parts, part ≠ [])
    {s : σ} (holds : Holds done s) :
    (parts.foldl (fun w bytes => w.put bytes) (⟨s, true⟩ : Writer σ)).success = true ∧
      Holds (done ++ parts.flatten)
        (parts.foldl (fun w bytes => w.put bytes) (⟨s, true⟩ : Writer σ)).sink := by
  induction parts generalizing done s with
  | nil =>
    rw [List.flatten_nil, List.append_nil]
    exact ⟨rfl, holds⟩
  | cons part parts ih =>
    obtain ⟨first, others⟩ := List.forall_mem_cons.mp some
    obtain ⟨taken, more⟩ := gathers.write done part s first holds
    have next : Writer.put part (⟨s, true⟩ : Writer σ) = ⟨(Sink.write part s).2, true⟩ := by
      show Writer.mk (Sink.write part s).2 (true && (Sink.write part s).1) = _
      rw [taken]
      rfl
    rw [List.foldl_cons, next, List.flatten_cons, ← List.append_assoc]
    exact ih others more

/-- All values go into the sink. -/
theorem writeAll_whole (values : List Value) (gathers : Sink.Gathers Holds) {s : σ} (holds : Holds done s) :
    (Writer.writeAll values ⟨s, true⟩).1 = values.map (fun _ => true) ∧
      (Writer.writeAll values ⟨s, true⟩).2.success = true ∧
      Holds (done ++ bytesOf values) (Writer.writeAll values ⟨s, true⟩).2.sink := by
  induction values generalizing done s with
  | nil =>
    refine ⟨rfl, rfl, ?_⟩
    rw [show bytesOf [] = [] from rfl, List.append_nil]
    exact holds
  | cons v values ih =>
    obtain ⟨success, more⟩ := foldl_put gathers (v.kind.parts_ne_nil v.carrier) holds
    have next : Writer.write v.kind v.carrier (⟨s, true⟩ : Writer σ) =
        ⟨(Writer.write v.kind v.carrier (⟨s, true⟩ : Writer σ)).sink, true⟩ :=
      congrArg (Writer.mk _) success
    obtain ⟨results, still, all⟩ := ih (s := (Writer.write v.kind v.carrier ⟨s, true⟩).sink) more
    rw [← next] at results still all
    rw [bytesOf_cons, ← List.append_assoc]
    refine ⟨?_, still, all⟩
    show (Writer.write v.kind v.carrier ⟨s, true⟩).success :: _ = true :: _
    rw [results]
    exact congrArg (· :: _) success

end

/-! ### Nodes -/

theorem writeAll_append {σ : Type} [Sink σ] (a b : List Value) (w : Writer σ) :
    Writer.writeAll (a ++ b) w = ((Writer.writeAll a w).1 ++ (Writer.writeAll b (Writer.writeAll a w).2).1,
      (Writer.writeAll b (Writer.writeAll a w).2).2) := by
  induction a generalizing w with
  | nil => rfl
  | cons v a ih =>
    rw [List.cons_append, Writer.writeAll, ih]
    rfl

theorem readAll_append {σ : Type} [Source σ] (a b : List Value) (r : Reader σ) :
    Reader.readAll (a ++ b) r = ((Reader.readAll a r).1 ++ (Reader.readAll b (Reader.readAll a r).2).1,
      (Reader.readAll b (Reader.readAll a r).2).2) := by
  induction a generalizing r with
  | nil => rfl
  | cons v a ih =>
    rw [List.cons_append, readAll_cons, ih]
    rfl

/-- As bytes it is all one in which nodes values stand. -/
theorem writer_follow_eq {σ : Type} [Sink σ] (script : Script) (w : Writer σ) :
    w.follow script = Writer.writeAll script.values w := by
  induction script generalizing w with
  | done => rfl
  | value v rest ih =>
    rw [Writer.follow, ih]
    rfl
  | node name inside rest inner outer =>
    rw [Script.values, writeAll_append, ← inner, ← outer]
    rfl

theorem reader_follow_eq {σ : Type} [Source σ] (script : Script) (r : Reader σ) :
    r.follow script = Reader.readAll script.values r := by
  induction script generalizing r with
  | done => rfl
  | value v rest ih =>
    rw [Script.values, readAll_cons, ← ih]
    rfl
  | node name inside rest inner outer =>
    rw [Script.values, readAll_append, ← inner, ← outer]
    rfl

/-! ### Streams of both kinds -/

/-- The bytes of all values of a script. -/
def Script.bytes (script : Script) : Bytes := bytesOf script.values

variable {σ : Type}

/-- All values were read as they were, and nothing is left to read. -/
structure Restored (unread : σ → Bytes) (values : List Value) (x : List (Value × Bool) × Reader σ) : Prop where
  results : x.1 = values.map (·, true)
  success : x.2.success = true
  left : unread x.2.source = []

/-- The values in front of a cut were read as they were, and the cut was noticed for good. -/
structure Noticed (n : Nat) (values : List Value) (x : List (Value × Bool) × Reader σ) : Prop
    extends CutAt n values x.1 where
  success : x.2.success = false

section

variable [Source σ] {unread : σ → Bytes} {olds script : Script} {s : σ}

theorem restored_follow (yields : Source.Yields unread) (short : ∀ v ∈ script.values, v.IsShort)
    (same : olds.values.map (·.kind) = script.values.map (·.kind)) (there : unread s = script.bytes) :
    Restored unread script.values (Reader.follow olds ⟨s, true⟩) := by
  have all : unread s = bytesOf script.values ++ [] := there.trans (List.append_nil _).symm
  obtain ⟨results, success, left⟩ := readAll_whole yields short same all
  rw [reader_follow_eq]
  exact ⟨results, success, left⟩

theorem noticed_follow (yields : Source.Yields unread) (short : ∀ v ∈ script.values, v.IsShort)
    (same : olds.values.map (·.kind) = script.values.map (·.kind)) {n : Nat} (cut : n < script.bytes.length)
    (there : unread s = script.bytes.take n) : Noticed n script.values (Reader.follow olds ⟨s, true⟩) := by
  obtain ⟨split, success⟩ := readAll_cut yields short same cut there
  rw [reader_follow_eq]
  exact ⟨split, success⟩

end

/-- **What was written is what is read.**  Values of any kinds, in nodes or not, give the same bytes on a tape and
in a file, and all goes well.  From exactly these bytes, on a tape or in a file, the same kinds of values are read
as they were, over whatever was there and in whatever nodes, and no byte is left.  If the bytes end earlier, the
values in front of the end are still read as they were; from there on nothing counts as read any more, whatever
is in the rest of a length or of a word. -/
theorem read_what_was_written (script : Script) (short : ∀ v ∈ script.values, v.IsShort) :
    (∀ t : Tape, t.writing = t.size →
      let x := Writer.follow script ⟨t, true⟩
      x.1 = script.values.map (fun _ => true) ∧ x.2.success = true ∧
        x.2.sink.data = t.data ++ script.bytes) ∧
    (∀ (f : DiskFile) path name mode, Place.ofPath? path = some (.file name) → mode ≠ .read →
      let x := Writer.follow script ⟨f.openAt path mode, true⟩
      x.1 = script.values.map (fun _ => true) ∧ x.2.success = true ∧
        x.2.sink.close.folder.lookup? name = some
          ((if mode = .append then (f.close.folder.lookup? name).getD [] else []) ++ script.bytes)) ∧
    ∀ olds : Script, olds.values.map (·.kind) = script.values.map (·.kind) →
      (∀ t : Tape, t.unread = script.bytes →
        Restored Tape.unread script.values (Reader.follow olds ⟨t, true⟩)) ∧
      (∀ (f : DiskFile) path name, Place.ofPath? path = some (.file name) →
        f.close.folder.lookup? name = some script.bytes →
          Restored DiskFile.unread script.values (Reader.follow olds ⟨f.openAt path .read, true⟩)) ∧
      ∀ n < script.bytes.length,
        (∀ t : Tape, t.unread = script.bytes.take n →
          Noticed n script.values (Reader.follow olds ⟨t, true⟩)) ∧
        ∀ (f : DiskFile) path name, Place.ofPath? path = some (.file name) →
          f.close.folder.lookup? name = some (script.bytes.take n) →
            Noticed n script.values (Reader.follow olds ⟨f.openAt path .read, true⟩) := by
  refine ⟨?_, ?_, ?_⟩
  · intro t atEnd
    obtain ⟨results, success, holds⟩ := writeAll_whole script.values Tape.gathers
      (⟨rfl, atEnd⟩ : Tape.Holds t.data t)
    rw [writer_follow_eq]
    exact ⟨results, success, holds.data⟩
  · intro f path name mode leads writes
    obtain ⟨results, success, holds⟩ := writeAll_whole script.values (DiskFile.gathers name)
      (DiskFile.holds_openAt (f := f) leads writes)
    rw [writer_follow_eq]
    exact ⟨results, success, holds.lookup?_close⟩
  · intro olds same
    refine ⟨?_, ?_, ?_⟩
    · intro t there
      exact restored_follow Tape.yields short same there
    · intro f path name leads there
      exact restored_follow DiskFile.yields short same (DiskFile.unread_openAt leads there)
    · intro n cut
      constructor
      · intro t there
        exact noticed_follow Tape.yields short same cut there
      · intro f path name leads there
        exact noticed_follow DiskFile.yields short same cut (DiskFile.unread_openAt leads there)

/-- A truth value, and in a node a text, a long word and a text without bytes. -/
def sample : Script :=
  .value ⟨.bool, true⟩ <| .node [97] (.value ⟨.text, [7, 9]⟩ <| .value ⟨.u64, 0x100000002⟩ <|
    .value ⟨.text, []⟩ .done) .done

/-- The same kinds of values without a node, with other values in their places. -/
def places : Script :=
  .value ⟨.bool, false⟩ <| .value ⟨.text, [1, 2, 3]⟩ <| .value ⟨.u64, 5⟩ <| .value ⟨.text, [4]⟩ .done

/-- The bytes of the sample are found in a file.  If they end inside the length of the first text, only the truth
value is read, and if they end between the halves of the long word, the text as well. -/
theorem read_what_was_written_sample :
    let file : DiskFile := { folder := ⟨[([98], sample.bytes)]⟩ }
    let broken : DiskFile := { folder := ⟨[([98], sample.bytes.take 3)]⟩ }
    sample.bytes = [1, 2, 0, 0, 0, 7, 9, 2, 0, 0, 0, 1, 0, 0, 0, 0, 0, 0, 0] ∧
      (Writer.follow sample ⟨Tape.blank, true⟩).2.sink.data = sample.bytes ∧
      (Reader.follow places ⟨file.openAt [98] .read, true⟩).1 = sample.values.map (·, true) ∧
      (Reader.follow places ⟨broken.openAt [98] .read, true⟩).2.success = false ∧
      (Reader.follow places ⟨Tape.ofBytes (sample.bytes.take 11), true⟩).2.success = false := by
  have short : ∀ v ∈ sample.values, v.IsShort := by
    intro v mem
    simp only [sample, Script.values, List.append_nil, List.mem_cons, List.not_mem_nil, or_false] at mem
    rcases mem with rfl | rfl | rfl | rfl
    · exact trivial
    · show 2 < UInt32.size
      decide
    · exact trivial
    · show 0 < UInt32.size
      decide
  have leads : Place.ofPath? [98] = some (.file [98]) := by decide
  obtain ⟨tape, _, reading⟩ := read_what_was_written sample short
  obtain ⟨_, whole, cut⟩ := reading places rfl
  refine ⟨by decide, (tape Tape.blank rfl).2.2, ?_, ?_, ?_⟩
  · exact (whole _ [98] [98] leads (by decide)).results
  · exact ((cut 3 (by decide)).2 _ [98] [98] leads (by decide)).success
  · exact ((cut 11 (by decide)).1 _ rfl).success

end Archive

end SerialLink
