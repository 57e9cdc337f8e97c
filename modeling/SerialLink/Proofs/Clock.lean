import SerialLink.Clock

/-!
# Time on the ring

The clock of a link counts cycles: steps and the cycles since the last one together grow by the cycles that
pass, the steps modulo the ring (`Clock.timestamp_advance`, `Clock.cycles_advance`).  How far a side is ahead
of its peer grows by the steps that it makes (`Clock.toNat_distance_advance`).  The three numbers of a clock
stay in their ranges whatever is done with it (`Clock.InRange`).
-/

namespace SerialLink.Clock

/-! ### Words as numbers -/

theorem toNat_mask (t : UInt32) : (t &&& timestampMask).toNat = t.toNat % 2147483648 := by
  rw [UInt32.toNat_and]
  exact Nat.and_two_pow_sub_one_eq_mod t.toNat 31

theorem toNat_cycleMask (t : UInt32) : (t &&& cycleMask).toNat = t.toNat % 2097152 := by
  rw [UInt32.toNat_and]
  exact Nat.and_two_pow_sub_one_eq_mod t.toNat 21

/-- How far one time is ahead of another one, as a number. -/
theorem toNat_distance (here there : UInt32) :
    (distance here there).toNat = (here.toNat + 2147483648 - there.toNat % 2147483648) % 2147483648 := by
  have low := here.toNat_lt
  have high := there.toNat_lt
  rw [distance, toNat_mask, UInt32.toNat_sub]
  omega

/-- A time that is told counts as far as it is one on the ring. -/
theorem isAhead_mask (here there : UInt32) :
    isAhead here (there &&& timestampMask) = isAhead here there := by
  have same : distance here (there &&& timestampMask) = distance here there := by
    rw [← UInt32.toNat_inj, toNat_distance, toNat_distance, toNat_mask, Nat.mod_mod]
  rw [isAhead, isAhead, same]

/-- So does the own time. -/
theorem isAhead_mask_left (here there : UInt32) :
    isAhead (here &&& timestampMask) there = isAhead here there := by
  have same : distance (here &&& timestampMask) there = distance here there := by
    rw [← UInt32.toNat_inj, toNat_distance, toNat_distance, toNat_mask]
    omega
  rw [isAhead, isAhead, same]

theorem isAhead_self (here : UInt32) : isAhead here here = false := by
  rw [isAhead, distance, UInt32.sub_self]
  rfl

theorem isAhead_iff (here there : UInt32) :
    isAhead here there = true ↔
      0 < (distance here there).toNat ∧ (distance here there).toNat < 1073741824 := by
  rw [isAhead, Bool.and_eq_true, bne_iff_ne, decide_eq_true_iff, UInt32.lt_iff_toNat_lt, ne_eq,
    ← UInt32.toNat_inj, Nat.pos_iff_ne_zero]
  rfl

/-! ### Cycles that pass -/

/-- The steps that a clock makes while cycles pass. -/
def steps (cycles : Nat) (c : Clock) : Nat := (c.cycles.toNat + cycles) / 2097152

variable (cycles : UInt32) (c : Clock)

theorem toNat_total :
    (c.cycles.toUInt64 + cycles.toUInt64).toNat = c.cycles.toNat + cycles.toNat := by
  have low := c.cycles.toNat_lt
  have high := cycles.toNat_lt
  rw [UInt64.toNat_add, UInt32.toNat_toUInt64, UInt32.toNat_toUInt64]
  omega

theorem toNat_steps : ((c.cycles.toUInt64 + cycles.toUInt64) >>> stepShift).toUInt32.toNat =
    c.steps cycles.toNat := by
  have low := c.cycles.toNat_lt
  have high := cycles.toNat_lt
  rw [UInt64.toNat_toUInt32, UInt64.toNat_shiftRight, toNat_total, Nat.shiftRight_eq_div_pow, steps]
  show (c.cycles.toNat + cycles.toNat) / 2097152 % 4294967296 = _
  omega

/-- The cycles since the last step are those that make no whole one. -/
theorem cycles_advance :
    (c.advance cycles).cycles.toNat = (c.cycles.toNat + cycles.toNat) % 2097152 := by
  show ((c.cycles.toUInt64 + cycles.toUInt64) &&& cycleMask.toUInt64).toUInt32.toNat = _
  rw [UInt64.toNat_toUInt32, UInt64.toNat_and, toNat_total]
  have low : (c.cycles.toNat + cycles.toNat) &&& cycleMask.toUInt64.toNat =
      (c.cycles.toNat + cycles.toNat) % 2097152 := Nat.and_two_pow_sub_one_eq_mod _ 21
  rw [low]
  omega

/-- The time goes on by the steps that are made. -/
theorem timestamp_advance : (c.advance cycles).timestamp.toNat % 2147483648 =
    (c.timestamp.toNat + c.steps cycles.toNat) % 2147483648 := by
  have made := toNat_steps cycles c
  unfold advance
  dsimp only
  split
  · next none =>
    rw [none] at made
    rw [← made]
    rfl
  · rw [toNat_mask, UInt32.toNat_add, made]
    omega

/-- A side gets ahead by the steps that it makes. -/
theorem toNat_distance_advance (there : UInt32) :
    (distance (c.advance cycles).timestamp there).toNat =
      ((distance c.timestamp there).toNat + c.steps cycles.toNat) % 2147483648 := by
  have time := timestamp_advance cycles c
  rw [toNat_distance, toNat_distance]
  omega

/-- How many steps a side is ahead of its peer, on the ring. -/
def lead (c : Clock) : Nat := (distance c.timestamp c.received).toNat

theorem lead_advance : (c.advance cycles).lead = (c.lead + c.steps cycles.toNat) % 2147483648 :=
  toNat_distance_advance cycles c c.received

/-! ### Ranges -/

/-- The numbers of a clock are in their ranges. -/
structure InRange (c : Clock) : Prop where
  timestamp : c.timestamp.toNat < 2147483648
  cycles : c.cycles.toNat < 2097152
  received : c.received.toNat < 2147483648

theorem inRange_start : start.InRange := by
  constructor <;> decide

variable {c}

theorem timestamp_advance_lt (low : c.timestamp.toNat < 2147483648) :
    (c.advance cycles).timestamp.toNat < 2147483648 := by
  unfold Clock.advance
  dsimp only
  split
  · exact low
  · rw [toNat_mask]
    exact Nat.mod_lt _ (by decide)

theorem InRange.advance (range : c.InRange) : (c.advance cycles).InRange := by
  refine ⟨timestamp_advance_lt cycles range.timestamp, ?_, range.received⟩
  rw [cycles_advance]
  exact Nat.mod_lt _ (by decide)

/-- No cycles make no step. -/
theorem InRange.timestamp_advance_zero (range : c.InRange) : (c.advance 0).timestamp = c.timestamp := by
  have none : c.steps 0 = 0 := Nat.div_eq_of_lt range.cycles
  have time := Clock.timestamp_advance 0 c
  have before := range.timestamp
  have after := (range.advance 0).timestamp
  rw [← UInt32.toNat_inj]
  rw [show (0 : UInt32).toNat = 0 from rfl, none] at time
  omega

theorem InRange.hear (range : c.InRange) (timestamp : UInt32) : (c.hear timestamp).InRange := by
  refine ⟨range.timestamp, range.cycles, ?_⟩
  show (timestamp &&& timestampMask).toNat < _
  rw [toNat_mask]
  exact Nat.mod_lt _ (by decide)

end SerialLink.Clock
