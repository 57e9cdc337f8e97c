import SerialLink.Address

/-!
# What an address looks like

An address is read in one way only, and it is read exactly if it is written as addresses are
(`Address.Written`): a number is spelled in decimal digits (`Address.Spells`), and zeros in front count as
digits.  The reading of a host goes through its pieces one after the other, whatever they are
(`Address.Scan.upTo_eq`), so that it is over after one group more than there are points.  Together:
`Address.reads_what_is_written`.
-/

namespace SerialLink

/-! ### Pieces -/

namespace Bytes

variable {separator : UInt8} {piece rest : Bytes}

/-- In front of the first separator there is none, and behind it the rest of the text begins. -/
theorem takeWhile_cases (separator : UInt8) (text : Bytes) :
    separator ∉ text.takeWhile (· != separator) ∧
      (text = text.takeWhile (· != separator) ∨
        text = text.takeWhile (· != separator) ++
          separator :: text.drop ((text.takeWhile (· != separator)).length + 1)) := by
  induction text with
  | nil => exact ⟨nofun, .inl rfl⟩
  | cons b rest ih =>
    by_cases same : b = separator
    · subst same
      simp
    · have front : (b :: rest).takeWhile (· != separator) = b :: rest.takeWhile (· != separator) :=
        List.takeWhile_cons_of_pos (bne_iff_ne.mpr same)
      obtain ⟨clean, parts⟩ := ih
      rw [front]
      refine ⟨fun mem => ?_, parts.imp (congrArg (b :: ·)) (congrArg (b :: ·))⟩
      rcases List.mem_cons.mp mem with here | later
      · exact same here.symm
      · exact clean later

theorem takeWhile_append_cons (clean : separator ∉ piece) :
    (piece ++ separator :: rest).takeWhile (· != separator) = piece := by
  have all : ∀ b ∈ piece, (b != separator) = true :=
    fun b mem => bne_iff_ne.mpr fun same => clean (same ▸ mem)
  rw [List.takeWhile_append_of_pos all, List.takeWhile_cons_of_neg (by simp), List.append_nil]

/-- There is one piece more than there are separators. -/
theorem length_splitOn (separator : UInt8) (text : Bytes) :
    (text.splitOn separator).length = text.count separator + 1 := by
  induction text with
  | nil => rfl
  | cons b rest ih =>
    rw [List.splitOn_cons_eq_if_modifyHead, List.count_cons]
    split <;> simp [ih]

end Bytes

namespace Address

/-! ### Numbers -/

/-- How a number is spelled in decimal digits: the last one stands for itself, and the ones before it for a tenth
of the rest. -/
inductive Spells : Bytes → Nat → Prop
  | one (digit : Nat) (low : digit < 10) : Spells [UInt8.ofNat (48 + digit)] digit
  | more {text : Bytes} {n : Nat} (front : Spells text n) (digit : Nat) (low : digit < 10) :
      Spells (text ++ [UInt8.ofNat (48 + digit)]) (10 * n + digit)

/-- The bytes of the digits are those from 48 on. -/
theorem isDigit_iff (b : UInt8) : Decimal.isDigit b = true ↔ ∃ d < 10, b = UInt8.ofNat (48 + d) := by
  rw [Decimal.isDigit, Bool.and_eq_true, decide_eq_true_iff, decide_eq_true_iff, UInt8.le_iff_toNat_le,
    UInt8.le_iff_toNat_le]
  show 48 ≤ b.toNat ∧ b.toNat ≤ 57 ↔ _
  constructor
  · rintro ⟨low, high⟩
    refine ⟨b.toNat - 48, by omega, ?_⟩
    rw [Nat.add_sub_of_le low, UInt8.ofNat_toNat]
  · rintro ⟨d, low, rfl⟩
    rw [UInt8.toNat_ofNat']
    omega

theorem digit_ofNat {d : Nat} (low : d < 10) : Decimal.digit (UInt8.ofNat (48 + d)) = d := by
  rw [Decimal.digit, UInt8.toNat_ofNat']
  omega

theorem spells_iff {text : Bytes} {n : Nat} :
    Spells text n ↔ text ≠ [] ∧ (∀ b ∈ text, Decimal.isDigit b = true) ∧ Decimal.value text = n := by
  constructor
  · intro spells
    induction spells with
    | one d low =>
      refine ⟨nofun, ?_, ?_⟩
      · intro b mem
        rw [List.mem_singleton.mp mem]
        exact (isDigit_iff _).mpr ⟨d, low, rfl⟩
      · show 10 * 0 + Decimal.digit _ = d
        rw [digit_ofNat low, Nat.mul_zero, Nat.zero_add]
    | @more text n _ d low ih =>
      obtain ⟨_, digits, value⟩ := ih
      refine ⟨by simp, ?_, ?_⟩
      · intro b mem
        rcases List.mem_append.mp mem with front | last
        · exact digits b front
        · rw [List.mem_singleton.mp last]
          exact (isDigit_iff _).mpr ⟨d, low, rfl⟩
      · rw [Decimal.value_append_singleton, value, digit_ofNat low]
  · rintro ⟨nonempty, digits, rfl⟩
    -- By the number of digits: without its last one a longer text spells a number as well.
    generalize length : text.length = k
    induction k generalizing text with
    | zero => exact absurd (List.eq_nil_of_length_eq_zero length) nonempty
    | succ k ih =>
      obtain ⟨front, last, rfl⟩ : ∃ front last, text = front ++ [last] :=
        ⟨text.dropLast, text.getLast nonempty, (List.dropLast_concat_getLast nonempty).symm⟩
      obtain ⟨d, low, rfl⟩ := (isDigit_iff last).mp (digits last (by simp))
      rw [Decimal.value_append_singleton, digit_ofNat low]
      by_cases empty : front = []
      · subst empty
        exact (Nat.zero_add d).symm ▸ .one d low
      · rw [List.length_append] at length
        exact .more (ih empty (fun b mem => digits b (by simp [mem])) (Nat.succ.inj length)) d low

theorem number?_eq_some_iff {width n : Nat} {digits : Bytes} :
    number? width digits = some n ↔ digits.length ≤ width ∧ Spells digits n := by
  rw [spells_iff, number?]
  split
  · next all =>
    simp only [Bool.and_eq_true, Bool.not_eq_true', List.isEmpty_eq_false_iff, decide_eq_true_iff,
      List.all_eq_true] at all
    obtain ⟨⟨nonempty, few⟩, digits⟩ := all
    rw [Option.some.injEq]
    exact ⟨fun value => ⟨few, nonempty, digits, value⟩, fun ⟨_, _, _, value⟩ => value⟩
  · next other =>
    refine ⟨nofun, fun ⟨few, nonempty, digits, _⟩ => absurd ?_ other⟩
    simp only [Bool.and_eq_true, Bool.not_eq_true', List.isEmpty_eq_false_iff, decide_eq_true_iff,
      List.all_eq_true]
    exact ⟨⟨nonempty, few⟩, digits⟩

/-! ### The form of an address -/

/-- How a group of a host is written: in one to three digits, and it stands for at most 255. -/
structure Group (text : Bytes) : Prop where
  few : text.length ≤ 3
  low : ∃ n ≤ 255, Spells text n

/-- How a host is written: as four groups with points between them. -/
inductive Quad : Bytes → Prop
  | of {a b c d : Bytes} (first : Group a) (second : Group b) (third : Group c) (fourth : Group d) :
      Quad (a ++ 46 :: (b ++ 46 :: (c ++ 46 :: d)))

/-- How an address is written: as its host, a colon, and its port, in one to five digits, which is not zero. -/
structure Written (text : Bytes) (address : Address) : Prop where
  host : Quad address.host
  port : ∃ digits, digits.length ≤ 5 ∧ Spells digits address.port.toNat ∧ text = address.host ++ 58 :: digits
  used : address.port ≠ 0

theorem isGroup_iff {text : Bytes} : isGroup text = true ↔ Group text := by
  unfold isGroup
  constructor
  · intro group
    split at group
    · next n number =>
      obtain ⟨few, spells⟩ := number?_eq_some_iff.mp number
      exact ⟨few, n, of_decide_eq_true group, spells⟩
    · cases group
  · rintro ⟨few, n, low, spells⟩
    rw [number?_eq_some_iff.mpr ⟨few, spells⟩]
    exact decide_eq_true low

theorem port?_eq_some_iff {text : Bytes} {port : UInt16} :
    port? text = some port ↔ text.length ≤ 5 ∧ Spells text port.toNat ∧ port ≠ 0 := by
  have zero : port ≠ 0 ↔ 0 < port.toNat := by
    rw [ne_eq, ← UInt16.toNat_inj, Nat.pos_iff_ne_zero]
    rfl
  unfold port?
  rw [zero]
  constructor
  · intro found
    split at found
    · next n number =>
      obtain ⟨few, spells⟩ := number?_eq_some_iff.mp number
      split at found
      · next range =>
        obtain rfl := Option.some.inj found
        rw [UInt16.toNat_ofNat', Nat.mod_eq_of_lt (by omega)]
        exact ⟨few, spells, range.1⟩
      · cases found
    · cases found
  · rintro ⟨few, spells, used⟩
    have bound := port.toNat_lt
    rw [number?_eq_some_iff.mpr ⟨few, spells⟩]
    dsimp only
    rw [if_pos ⟨used, Nat.le_of_lt_succ bound⟩, UInt16.ofNat_toNat]

/-- What spells a number is nothing but digits. -/
theorem Spells.clean {text : Bytes} {n : Nat} (spells : Spells text n) {b : UInt8}
    (other : Decimal.isDigit b = false) : b ∉ text := by
  intro mem
  have digit := (spells_iff.mp spells).2.1 b mem
  rw [other] at digit
  cases digit

theorem Group.clean {text : Bytes} (group : Group text) {b : UInt8} (other : Decimal.isDigit b = false) :
    b ∉ text := by
  obtain ⟨_, _, _, spells⟩ := group
  exact spells.clean other

/-! ### Reading a host -/

namespace Scan

variable {host : Bytes}

/-- What is over stays as it is. -/
theorem upTo_of_isOver {s : Scan} (done : s.isOver host = true) (bound : Nat) :
    upTo host bound s = s := by
  cases bound with
  | zero => rfl
  | succ bound => rw [upTo, if_pos done]

/-- **The reading of a host goes through its pieces.**  If there are not too many, and each is a group, it comes to
its end, and else to one that is no group. -/
theorem upTo_eq {bound position : Nat} (groups : Nat) (inside : position ≤ host.length)
    (enough : ((host.drop position).splitOn 46).length ≤ bound) :
    upTo host bound (.reached groups position) =
      if ((host.drop position).splitOn 46).all isGroup then
        .reached (groups + ((host.drop position).splitOn 46).length) (host.length + 1)
      else .refused := by
  induction bound generalizing groups position with
  | zero =>
    have nonempty := List.length_pos_iff.mpr (List.splitOn_ne_nil 46 (host.drop position))
    omega
  | succ bound ih =>
    have going : isOver host (.reached groups position) = false := decide_eq_false (by omega)
    rw [upTo, if_neg (by rw [going]; decide), next]
    obtain ⟨clean, parts⟩ := Bytes.takeWhile_cases 46 (host.drop position)
    have length := List.length_drop (i := position) (l := host)
    generalize (host.drop position).takeWhile (· != 46) = piece at clean parts ⊢
    rcases parts with last | more
    · -- No point is left, so that this is the last piece.
      have single : (host.drop position).splitOn 46 = [piece] := by
        rw [last]
        exact List.splitOn_eq_singleton clean
      rw [last] at length
      rw [single, List.all_cons, List.all_nil, Bool.and_true]
      split
      · have behind : position + piece.length + 1 = host.length + 1 := by omega
        have done : isOver host (.reached (groups + 1) (host.length + 1)) = true :=
          decide_eq_true (Nat.lt_succ_self _)
        rw [behind, upTo_of_isOver done]
        rfl
      · exact upTo_of_isOver rfl bound
    · rw [List.drop_drop, ← Nat.add_assoc] at more
      have split : (host.drop position).splitOn 46 =
          piece :: (host.drop (position + piece.length + 1)).splitOn 46 := by
        rw [more]
        exact List.splitOn_append_cons_self_of_not_mem clean _
      rw [more, List.length_append, List.length_cons] at length
      rw [split, List.length_cons] at enough
      rw [split, List.all_cons, List.length_cons]
      cases group : isGroup piece with
      | true =>
        rw [if_pos rfl, ih (groups + 1) (by omega) (Nat.le_of_succ_le_succ enough), Bool.true_and,
          Nat.add_assoc groups, Nat.add_comm 1]
      | false => exact upTo_of_isOver rfl bound

theorem isOver_upTo {bound : Nat} (enough : host.count 46 < bound) :
    (upTo host bound start).isOver host = true := by
  have pieces : ((host.drop 0).splitOn 46).length ≤ bound := by
    rw [List.drop_zero, Bytes.length_splitOn]
    exact enough
  rw [start, upTo_eq 0 (Nat.zero_le _) pieces]
  split
  · exact decide_eq_true (Nat.lt_succ_self _)
  · rfl

end Scan

theorem isHost_iff_splitOn {host : Bytes} :
    isHost host = true ↔ (host.splitOn 46).length = 4 ∧ ∀ piece ∈ host.splitOn 46, Group piece := by
  have pieces : ((host.drop 0).splitOn 46).length ≤ host.length + 1 := by
    rw [List.drop_zero, Bytes.length_splitOn]
    exact Nat.succ_le_succ List.count_le_length
  rw [isHost, Scan.start, Scan.upTo_eq 0 (Nat.zero_le _) pieces, List.drop_zero, Nat.zero_add]
  simp only [← isGroup_iff, ← List.all_eq_true]
  cases (host.splitOn 46).all isGroup <;> simp

/-- The pieces of a host are its groups. -/
theorem Quad.splitOn_eq {a b c d : Bytes} (first : Group a) (second : Group b) (third : Group c)
    (fourth : Group d) : (a ++ 46 :: (b ++ 46 :: (c ++ 46 :: d))).splitOn 46 = [a, b, c, d] := by
  have point : Decimal.isDigit 46 = false := by decide
  rw [List.splitOn_append_cons_self_of_not_mem (first.clean point),
    List.splitOn_append_cons_self_of_not_mem (second.clean point),
    List.splitOn_append_cons_self_of_not_mem (third.clean point),
    List.splitOn_eq_singleton (fourth.clean point)]

theorem isHost_iff {host : Bytes} : isHost host = true ↔ Quad host := by
  rw [isHost_iff_splitOn]
  constructor
  · rintro ⟨four, groups⟩
    have whole : [46].intercalate (host.splitOn 46) = host := List.intercalate_splitOn 46
    generalize host.splitOn 46 = pieces at four groups whole
    obtain ⟨a, b, c, d, rfl⟩ : ∃ a b c d, pieces = [a, b, c, d] := by
      match pieces, four with
      | [a, b, c, d], _ => exact ⟨a, b, c, d, rfl⟩
    have quad : Quad (a ++ 46 :: (b ++ 46 :: (c ++ 46 :: d))) :=
      .of (groups a (by simp)) (groups b (by simp)) (groups c (by simp)) (groups d (by simp))
    have joined : [46].intercalate [a, b, c, d] = a ++ 46 :: (b ++ 46 :: (c ++ 46 :: d)) := by
      simp [List.intercalate]
    rw [← whole, joined]
    exact quad
  · rintro ⟨first, second, third, fourth⟩
    rw [Quad.splitOn_eq first second third fourth]
    exact ⟨rfl, by simp [first, second, third, fourth]⟩

/-! ### Reading an address -/

theorem Quad.points {host : Bytes} (quad : Quad host) : host.count 46 = 3 := by
  have pieces := (isHost_iff_splitOn.mp (isHost_iff.mpr quad)).1
  rw [Bytes.length_splitOn] at pieces
  exact Nat.succ.inj pieces

theorem Quad.clean {host : Bytes} (quad : Quad host) : 58 ∉ host := by
  obtain ⟨first, second, third, fourth⟩ := quad
  have colon : Decimal.isDigit 58 = false := by decide
  simp [first.clean colon, second.clean colon, third.clean colon, fourth.clean colon]

theorem parse?_eq_some_iff {text : Bytes} {address : Address} :
    parse? text = some address ↔ Written text address := by
  unfold parse?
  constructor
  · intro parsed
    split at parsed
    · next counts =>
      obtain ⟨_, colon⟩ := counts
      obtain ⟨clean, parts⟩ := Bytes.takeWhile_cases 58 text
      dsimp only at parsed
      generalize text.takeWhile (· != 58) = host at clean parts parsed
      rcases parts with rfl | whole
      · rw [List.count_eq_zero_of_not_mem clean] at colon
        cases colon
      · split at parsed
        · next quad =>
          obtain ⟨port, read, rfl⟩ := Option.map_eq_some_iff.mp parsed
          obtain ⟨few, spelled, used⟩ := port?_eq_some_iff.mp read
          exact ⟨isHost_iff.mp quad, ⟨_, few, spelled, whole⟩, used⟩
        · cases parsed
    · cases parsed
  · rintro ⟨quad, ⟨digits, few, spelled, rfl⟩, used⟩
    have counts : (address.host ++ 58 :: digits).count 46 = 3 ∧ (address.host ++ 58 :: digits).count 58 = 1 := by
      rw [List.count_append, List.count_append, List.count_cons, List.count_cons, quad.points,
        List.count_eq_zero_of_not_mem quad.clean,
        List.count_eq_zero_of_not_mem (spelled.clean (b := 46) (by decide)),
        List.count_eq_zero_of_not_mem (spelled.clean (b := 58) (by decide))]
      decide
    have port : (address.host ++ 58 :: digits).drop (address.host.length + 1) = digits := by
      rw [List.drop_append, List.drop_eq_nil_of_le (Nat.le_succ _), Nat.add_sub_cancel_left]
      rfl
    rw [if_pos counts, Bytes.takeWhile_append_cons quad.clean]
    dsimp only
    rw [port, if_pos (isHost_iff.mpr quad), port?_eq_some_iff.mpr ⟨few, spelled, used⟩]
    rfl

/-- **What is read is what is written.**  A text is read as an address exactly if the address is written so; a text
that is no address leaves the place as it was; and the reading of a host is over after one group more than there
are points, whatever stands there. -/
theorem reads_what_is_written (place : Address) (text : Bytes) :
    (∀ address, readInto place text = (true, address) ↔ Written text address) ∧
      ((∀ address, ¬ Written text address) → readInto place text = (false, place)) ∧
      ∀ host bound, host.count 46 < bound → (Scan.upTo host bound .start).isOver host = true := by
  refine ⟨fun address => ?_, fun unwritten => ?_, fun host bound enough => Scan.isOver_upTo enough⟩
  · rw [← parse?_eq_some_iff, readInto]
    cases parse? text <;> simp
  · have refused : parse? text = none :=
      Option.eq_none_iff_forall_ne_some.mpr fun address parsed => unwritten address (parse?_eq_some_iff.mp parsed)
    rw [readInto, refused]

/-- Zeros in front count as digits of a group and of the port, and are kept in the host. -/
theorem reads_what_is_written_leading :
    Written (Bytes.ofString "001.22.255.0:00080") ⟨Bytes.ofString "001.22.255.0", 80⟩ ∧
      readInto ⟨Bytes.ofString "7.7.7.7", 7⟩ (Bytes.ofString "1.2.3.4:0") =
        (false, ⟨Bytes.ofString "7.7.7.7", 7⟩) ∧
      (Scan.upTo (Bytes.ofString "1..2.256") 4 .start).isOver (Bytes.ofString "1..2.256") = true := by
  refine ⟨?_, ?_, ?_⟩
  · exact ((reads_what_is_written ⟨Bytes.ofString "7.7.7.7", 7⟩ _).1 _).mp (by decide +kernel)
  · refine (reads_what_is_written _ _).2.1 fun address written => ?_
    have read := ((reads_what_is_written ⟨[], 0⟩ _).1 address).mpr written
    have refused : (readInto ⟨[], 0⟩ (Bytes.ofString "1.2.3.4:0")).1 = false := by decide +kernel
    rw [read] at refused
    cases refused
  · exact (reads_what_is_written ⟨[], 0⟩ []).2.2 _ 4 (by decide +kernel)

end Address

end SerialLink
