import Mathlib.Data.List.TakeWhile
import SerialLink.Proofs.Addresses
import SerialLink.Proofs.CommandLine

/-!
# Numbers on the command line

A number that is spelled in decimal digits is read as a word of 64 bits, the highest one if there is no room for
it, and of that word the low 32 bits are taken (`Tool.toNat_numberOf`).  So a number that fits into 32 bits counts as
it is, but of the greater ones those come out as zero that are below `2 ^ 64` and whole multiples of `2 ^ 32`
(`Tool.numberOf_eq_zero_iff`).  Zero means for ever, of a time to wait and of a count of bytes: such a number turns
a bounded request into one without bounds, and no other does.  Together: `Tool.bounds_unless_multiple`.
-/

namespace SerialLink.Tool

open Options
open Address (Spells)

/-! ### Reading a number -/

variable {text : Bytes} {n : Nat}

/-- A digit is neither a blank nor a sign. -/
theorem digit_plain : ∀ d < 10, isSpace (UInt8.ofNat (48 + d)) = false ∧
    UInt8.ofNat (48 + d) ≠ 45 ∧ UInt8.ofNat (48 + d) ≠ 43 := by
  decide

/-- The digits of a number come with nothing in front of them, and are all of it. -/
theorem leadingNumber_of_spells (spells : Spells text n) :
    leadingNumber text = UInt64.ofNat (min n 18446744073709551615) := by
  obtain ⟨nonempty, digits, rfl⟩ := Address.spells_iff.mp spells
  obtain ⟨first, rest, rfl⟩ := List.exists_cons_of_ne_nil nonempty
  obtain ⟨space, minus, plus⟩ : isSpace first = false ∧ first ≠ 45 ∧ first ≠ 43 := by
    obtain ⟨d, low, rfl⟩ := (Address.isDigit_iff first).mp (digits first (List.mem_cons_self ..))
    exact digit_plain d low
  have blanks : (first :: rest).dropWhile isSpace = first :: rest :=
    List.dropWhile_cons_of_neg (Bool.eq_false_iff.mp space)
  have signs : (first :: rest).head? ≠ some 45 ∧ (first :: rest).head? ≠ some 43 :=
    ⟨fun same => minus (Option.some.inj same), fun same => plus (Option.some.inj same)⟩
  have all : (first :: rest).takeWhile Decimal.isDigit = first :: rest := List.takeWhile_eq_self_iff.mpr digits
  unfold leadingNumber
  simp only [blanks, beq_eq_false_iff_ne.mpr signs.1, beq_eq_false_iff_ne.mpr signs.2, Bool.or_self,
    Bool.false_eq_true, if_false, all]
  have size : UInt64.size = 18446744073709551616 := rfl
  split
  · next large => rw [Nat.min_eq_right (by omega), size]
  · next small => rw [Nat.min_eq_left (by omega)]

/-- Of a number the low 32 bits are taken, behind the highest word of 64 bits those of that. -/
theorem toNat_numberOf (spells : Spells text n) :
    (numberOf text).toNat = min n 18446744073709551615 % 4294967296 := by
  rw [numberOf, leadingNumber_of_spells spells, UInt64.toNat_toUInt32, UInt64.toNat_ofNat']
  omega

/-- A number counts as it is if it fits into 32 bits. -/
theorem toNat_numberOf_of_lt (spells : Spells text n) (small : n < 4294967296) : (numberOf text).toNat = n := by
  rw [toNat_numberOf spells]
  omega

/-- Whether a number is left with no bits at all, though it may be a great one. -/
def Vanishes (n : Nat) : Prop := n < 18446744073709551616 ∧ n % 4294967296 = 0

theorem numberOf_eq_zero_iff (spells : Spells text n) : numberOf text = 0 ↔ Vanishes n := by
  rw [← UInt32.toNat_inj, toNat_numberOf spells, Vanishes]
  show _ = 0 ↔ _
  omega

/-! ### What zero means -/

/-- A look at the queue waits for ever exactly if the time to wait is zero. -/
theorem waits_for_ever_iff (timeout : UInt32) (place : BitQueue.Item) :
    BitQueue.fresh.popWithin timeout place = none ↔ timeout = 0 := by
  unfold BitQueue.popWithin
  by_cases endless : timeout = 0
  · rw [if_pos ⟨endless, rfl⟩, eq_self, true_iff]
    exact endless
  · rw [if_neg fun both => endless both.1]
    exact iff_of_false nofun endless

/-- Bytes are received without end exactly if their count is zero; else there are as many as the count says. -/
theorem job_of_receiving {o : Options} (receiving : o.sendText = []) :
    (o.job = .receive none ↔ o.count = 0) ∧
      (o.count ≠ 0 → o.job = .receive (some (o.count.toNat - 1))) := by
  unfold Options.job
  rw [receiving]
  by_cases endless : o.count = 0
  · simp [endless]
  · simp [endless]

variable {clauses : List Clause}

/-- The configuration under the options waits as long as they say. -/
theorem transferTimeout_of_lastValue? {value : Bytes} (given : lastValue? .timeout clauses = some value)
    {folder : Folder} {config : Config}
    (configured : (configure? (said clauses) (folder.read? (said clauses).configPath)).value = some config) :
    config.transferTimeout = numberOf value := by
  rw [value_configure?] at configured
  obtain ⟨base, _, rfl⟩ := Option.map_eq_some_iff.mp configured
  rw [(overrides clauses base).transferTimeout, given]
  rfl

/-- **A number bounds what it is to bound, unless it is a multiple of `2 ^ 32` that fits into 64 bits**: the last
time to wait that a command line gives is the one of the link, and waiting is without end exactly if that number
vanishes; and so it is with the count of bytes to receive.  A number below `2 ^ 32` counts as it is. -/
theorem bounds_unless_multiple (clauses : List Clause) (text : Bytes) (n : Nat) (spells : Spells text n)
    (positive : 1 ≤ n) : let o := said clauses
    parse (wordsOf clauses) = .ok o ∧
      (lastValue? .timeout clauses = some text → ∀ (folder : Folder) (config : Config),
        (configure? o (folder.read? o.configPath)).value = some config →
          (n < 4294967296 → config.transferTimeout.toNat = n) ∧
            (config.transferTimeout = 0 ↔ Vanishes n) ∧
            ∀ place, BitQueue.fresh.popWithin config.transferTimeout place = none ↔ Vanishes n) ∧
      (lastValue? .count clauses = some text →
        (n < 4294967296 → o.count.toNat = n) ∧ (o.count = 0 ↔ Vanishes n) ∧
          (o.sendText = [] → (o.job = .receive none ↔ Vanishes n) ∧
            (n < 4294967296 → o.job = .receive (some (n - 1))))) := by
  intro o
  have fits := toNat_numberOf_of_lt spells
  have vanishes := numberOf_eq_zero_iff spells
  refine ⟨parse_wordsOf clauses, fun given folder config configured => ?_, fun given => ?_⟩
  · rw [transferTimeout_of_lastValue? given configured]
    exact ⟨fits, vanishes, fun place => (waits_for_ever_iff _ place).trans vanishes⟩
  · have count : o.count = numberOf text := by
      show ((lastValue? .count clauses).map numberOf).getD 0 = _
      rw [given]
      rfl
    refine ⟨fun small => count ▸ fits small, count ▸ vanishes, fun receiving => ?_⟩
    obtain ⟨endless, bounded⟩ := job_of_receiving receiving
    rw [count] at endless bounded
    refine ⟨endless.trans vanishes, fun small => ?_⟩
    have some : numberOf text ≠ 0 := fun zero => by
      have none := fits small
      rw [zero] at none
      exact absurd none.symm (Nat.one_le_iff_ne_zero.mp positive)
    rw [bounded some, fits small]

/-- The greatest number that fits into 32 bits. -/
def greatest : Bytes := Bytes.ofString "4294967295"

/-- The first number that does not. -/
def beyond : Bytes := Bytes.ofString "4294967296"

/-- The first number for which there is no room in 64 bits. -/
def roomless : Bytes := Bytes.ofString "18446744073709551616"

theorem spells_greatest : Spells greatest 4294967295 :=
  Address.spells_iff.mpr ⟨by decide +kernel, by decide +kernel, by decide +kernel⟩

theorem spells_beyond : Spells beyond 4294967296 :=
  Address.spells_iff.mpr ⟨by decide +kernel, by decide +kernel, by decide +kernel⟩

theorem spells_roomless : Spells roomless 18446744073709551616 :=
  Address.spells_iff.mpr ⟨by decide +kernel, by decide +kernel, by decide +kernel⟩

/-- Great numbers for both settings. -/
def generous : List Clause :=
  [.setting .count beyond, .setting .timeout roomless, .setting .count greatest]

/-- As many bytes as fit are received, and the number for which there is no room still bounds the waiting. -/
theorem bounds_unless_multiple_generous :
    (said generous).job = .receive (some 4294967294) ∧
      ((said generous).override {}).transferTimeout ≠ 0 := by
  have count := (bounds_unless_multiple generous greatest _ spells_greatest (by decide)).2.2 rfl
  have time := (bounds_unless_multiple generous roomless _ spells_roomless (by decide)).2.1 rfl
  have used : (configure? (said generous) (({} : Folder).read? (said generous).configPath)).value =
      some ((said generous).override {}) := by
    rw [value_configure?]
    rfl
  refine ⟨(count.2.2 rfl).2 (by decide), fun endless => ?_⟩
  exact absurd ((time {} _ used).2.1.mp endless).1 (by decide)

/-- The first number that does not fit asks for bytes without end, and to wait for ever. -/
theorem unbounded_beyond :
    ¬(∀ (clauses : List Clause) (o : Options) (text : Bytes) (n : Nat) (config : Config),
      parse (wordsOf clauses) = .ok o → Spells text n → 1 ≤ n → lastValue? .timeout clauses = some text →
        0 < (o.override config).transferTimeout) ∧
    ¬∀ (clauses : List Clause) (o : Options) (text : Bytes) (n : Nat),
      parse (wordsOf clauses) = .ok o → Spells text n → 1 ≤ n → lastValue? .count clauses = some text →
        0 < o.count := by
  have vanishes : numberOf beyond = 0 := (numberOf_eq_zero_iff spells_beyond).mpr ⟨by decide, by decide⟩
  refine ⟨fun all => ?_, fun all => ?_⟩
  · have bounded := all [.setting .timeout beyond] _ beyond _ {} (parse_wordsOf _) spells_beyond (by decide) rfl
    rw [(overrides _ {}).transferTimeout] at bounded
    exact absurd (vanishes ▸ bounded : (0 : UInt32) < 0) (by decide)
  · have bounded := all [.setting .count beyond] _ beyond _ (parse_wordsOf _) spells_beyond (by decide) rfl
    exact absurd (vanishes ▸ bounded : (0 : UInt32) < 0) (by decide)

end SerialLink.Tool
