import SerialLink.Proofs.Clock

/-!
# All cycles that pass

The time of a clock and its cycles since the last step are one number, which goes round after `2 ^ 52` cycles
(`Clock.elapsed`).  Any number of cycles passes at once in `Clock.pass`, and one number after the other is their sum
(`Clock.pass_pass`), so that it does not matter in which portions cycles come (`Clock.advanceAll_eq`).  The words of
the clock have room for whatever comes up on the way: with every sum and every narrowing checked a clock does the
same (`Clock.advance?_eq`).  Together: `Clock.counts_every_cycle`.
-/

namespace SerialLink.Clock

variable {c : Clock}

/-! ### Many cycles at once -/

/-- Lets any number of cycles pass at once. -/
def pass (cycles : Nat) (c : Clock) : Clock :=
  { c with
    timestamp := UInt32.ofNat ((c.timestamp.toNat + c.steps cycles) % 2147483648)
    cycles := UInt32.ofNat ((c.cycles.toNat + cycles) % 2097152) }

theorem toNat_timestamp_pass (cycles : Nat) (c : Clock) :
    (c.pass cycles).timestamp.toNat = (c.timestamp.toNat + c.steps cycles) % 2147483648 :=
  UInt32.toNat_ofNat_of_lt' (Nat.lt_trans (Nat.mod_lt _ (by decide)) (by decide))

theorem toNat_cycles_pass (cycles : Nat) (c : Clock) :
    (c.pass cycles).cycles.toNat = (c.cycles.toNat + cycles) % 2097152 :=
  UInt32.toNat_ofNat_of_lt' (Nat.lt_trans (Nat.mod_lt _ (by decide)) (by decide))

theorem InRange.pass (range : c.InRange) (cycles : Nat) : (c.pass cycles).InRange := by
  refine ⟨?_, ?_, range.received⟩
  · rw [toNat_timestamp_pass]
    exact Nat.mod_lt _ (by decide)
  · rw [toNat_cycles_pass]
    exact Nat.mod_lt _ (by decide)

/-- The steps of all cycles are those of the first ones and those of the others from there. -/
theorem pass_pass (m n : Nat) (c : Clock) : (c.pass m).pass n = c.pass (m + n) := by
  have time : ((c.pass m).timestamp.toNat + (c.pass m).steps n) % 2147483648 =
      (c.timestamp.toNat + c.steps (m + n)) % 2147483648 := by
    unfold steps
    rw [toNat_timestamp_pass, toNat_cycles_pass, steps]
    omega
  have cycles : ((c.pass m).cycles.toNat + n) % 2097152 = (c.cycles.toNat + (m + n)) % 2097152 := by
    rw [toNat_cycles_pass]
    omega
  rw [pass, time, cycles]
  rfl

/-- What a clock does when cycles pass. -/
theorem advance_eq (low : c.timestamp.toNat < 2147483648) (cycles : UInt32) :
    c.advance cycles = c.pass cycles.toNat := by
  have time : (c.advance cycles).timestamp = (c.pass cycles.toNat).timestamp := by
    rw [← UInt32.toNat_inj, toNat_timestamp_pass, ← timestamp_advance,
      Nat.mod_eq_of_lt (timestamp_advance_lt cycles low)]
  have rest : (c.advance cycles).cycles = (c.pass cycles.toNat).cycles := by
    rw [← UInt32.toNat_inj, toNat_cycles_pass, cycles_advance]
  show Clock.mk (c.advance cycles).timestamp (c.advance cycles).cycles c.received = _
  rw [time, rest]
  rfl

/-! ### The time as one number -/

/-- All cycles that a clock has counted, as far as it counts. -/
def elapsed (c : Clock) : Nat := 2097152 * c.timestamp.toNat + c.cycles.toNat

theorem elapsed_pass (cycles : Nat) (c : Clock) :
    (c.pass cycles).elapsed = (c.elapsed + cycles) % 4503599627370496 := by
  rw [elapsed, elapsed, toNat_timestamp_pass, toNat_cycles_pass, steps]
  omega

/-- A clock tells numbers of cycles apart as far as it counts, and no further. -/
theorem pass_inj (m n : Nat) (c : Clock) :
    c.pass m = c.pass n ↔ m % 4503599627370496 = n % 4503599627370496 := by
  constructor
  · intro same
    have number := congrArg elapsed same
    rw [elapsed_pass, elapsed_pass] at number
    omega
  · intro same
    have time : (c.timestamp.toNat + c.steps m) % 2147483648 = (c.timestamp.toNat + c.steps n) % 2147483648 := by
      rw [steps, steps]
      omega
    have cycles : (c.cycles.toNat + m) % 2097152 = (c.cycles.toNat + n) % 2097152 := by
      omega
    rw [pass, pass, time, cycles]

/-! ### Portions -/

/-- Lets cycles pass in portions, one after the other. -/
def advanceAll : List UInt32 → Clock → Clock
  | [], c => c
  | cycles :: rest, c => advanceAll rest (c.advance cycles)

/-- The cycles of all portions. -/
def sum : List UInt32 → Nat
  | [] => 0
  | cycles :: rest => cycles.toNat + sum rest

/-- **It does not matter in which portions cycles come.** -/
theorem advanceAll_eq (low : c.timestamp.toNat < 2147483648) (rest : c.cycles.toNat < 2097152)
    (portions : List UInt32) : c.advanceAll portions = c.pass (sum portions) := by
  induction portions generalizing c with
  | nil =>
    have steps : c.steps 0 = 0 := Nat.div_eq_of_lt rest
    show c = c.pass 0
    rw [pass, steps, Nat.add_zero, Nat.add_zero, Nat.mod_eq_of_lt low, Nat.mod_eq_of_lt rest, UInt32.ofNat_toNat,
      UInt32.ofNat_toNat]
  | cons cycles portions ih =>
    have low' : (c.pass cycles.toNat).timestamp.toNat < 2147483648 := by
      rw [toNat_timestamp_pass]
      exact Nat.mod_lt _ (by decide)
    have rest' : (c.pass cycles.toNat).cycles.toNat < 2097152 := by
      rw [toNat_cycles_pass]
      exact Nat.mod_lt _ (by decide)
    rw [advanceAll, advance_eq low, ih low' rest', pass_pass]
    rfl

/-! ### Room in the words -/

/-- The word of 32 bits for a number, if it has room for it. -/
def word32? (n : Nat) : Option UInt32 := if n < UInt32.size then some (UInt32.ofNat n) else none

/-- The word of 64 bits for a number, if it has room for it. -/
def word64? (n : Nat) : Option UInt64 := if n < UInt64.size then some (UInt64.ofNat n) else none

theorem word32?_narrow {w : UInt64} (low : w.toNat < 4294967296) : word32? w.toNat = some w.toUInt32 :=
  if_pos low

/-- Lets cycles pass, if the words have room for the sums that come up, and for what is made narrower. -/
def advance? (cycles : UInt32) (c : Clock) : Option Clock := do
  let total ← word64? (c.cycles.toNat + cycles.toNat)
  let steps ← word32? (total >>> stepShift).toNat
  let rest ← word32? (total &&& cycleMask.toUInt64).toNat
  let time ← word32? (c.timestamp.toNat + steps.toNat)
  return { c with
    timestamp := if steps = 0 then c.timestamp else time &&& timestampMask
    cycles := rest }

/-- Lets cycles pass in portions, if the words have room for all that comes up. -/
def advanceAll? : List UInt32 → Clock → Option Clock
  | [], c => some c
  | cycles :: rest, c => (c.advance? cycles).bind (advanceAll? rest)

/-- There is room for the steps that the highest number of cycles makes, so there is for all else. -/
theorem advance?_eq (low : c.timestamp.toNat < 2147483648) (cycles : UInt32) :
    c.advance? cycles = some (c.advance cycles) := by
  have first := c.cycles.toNat_lt
  have second := cycles.toNat_lt
  have number := toNat_total cycles c
  have made := toNat_steps cycles c
  have fewSteps : c.steps cycles.toNat < 4096 := Nat.div_lt_of_lt_mul (by omega)
  have total : word64? (c.cycles.toNat + cycles.toNat) = some (c.cycles.toUInt64 + cycles.toUInt64) := by
    rw [← number, word64?, if_pos (UInt64.toNat_lt _), UInt64.ofNat_toNat]
  have steps : word32? ((c.cycles.toUInt64 + cycles.toUInt64) >>> stepShift).toNat =
      some ((c.cycles.toUInt64 + cycles.toUInt64) >>> stepShift).toUInt32 := by
    refine word32?_narrow ?_
    rw [UInt64.toNat_shiftRight, number, Nat.shiftRight_eq_div_pow]
    show (c.cycles.toNat + cycles.toNat) / 2097152 < 4294967296
    omega
  have rest : word32? ((c.cycles.toUInt64 + cycles.toUInt64) &&& cycleMask.toUInt64).toNat =
      some ((c.cycles.toUInt64 + cycles.toUInt64) &&& cycleMask.toUInt64).toUInt32 := by
    refine word32?_narrow ?_
    rw [UInt64.toNat_and]
    exact Nat.lt_of_le_of_lt Nat.and_le_right (by decide)
  have time : word32? (c.timestamp.toNat +
      ((c.cycles.toUInt64 + cycles.toUInt64) >>> stepShift).toUInt32.toNat) =
      some (c.timestamp + ((c.cycles.toUInt64 + cycles.toUInt64) >>> stepShift).toUInt32) := by
    have room : c.timestamp.toNat + c.steps cycles.toNat < 4294967296 := by omega
    rw [made, word32?, if_pos room, ← made, UInt32.ofNat_add, UInt32.ofNat_toNat, UInt32.ofNat_toNat]
  simp only [advance?, total, steps, rest, time, Option.bind_eq_bind, Option.bind_some]
  rfl

theorem advanceAll?_eq (low : c.timestamp.toNat < 2147483648) (portions : List UInt32) :
    c.advanceAll? portions = some (c.advanceAll portions) := by
  induction portions generalizing c with
  | nil => rfl
  | cons cycles portions ih =>
    rw [advanceAll?, advance?_eq low, Option.bind_some, ih (timestamp_advance_lt cycles low)]
    rfl

/-! ### All portions -/

/-- **A clock counts every cycle.**  In whatever portions cycles pass, what it has counted grows by their sum, modulo
the `2 ^ 52` cycles of the ring; its numbers stay in their ranges, what the peer told stays as it is, and nothing
that comes up on the way is too large for its word.  So two lists of portions leave the same clock exactly if their
sums are the same on the ring. -/
theorem counts_every_cycle (low : c.timestamp.toNat < 2147483648) (rest : c.cycles.toNat < 2097152) :
    (∀ portions : List UInt32,
      (c.advanceAll portions).elapsed = (c.elapsed + sum portions) % 4503599627370496 ∧
      (c.advanceAll portions).timestamp.toNat < 2147483648 ∧
      (c.advanceAll portions).cycles.toNat < 2097152 ∧
      (c.advanceAll portions).received = c.received ∧
      c.advanceAll? portions = some (c.advanceAll portions)) ∧
    ∀ portions others : List UInt32, c.advanceAll portions = c.advanceAll others ↔
      sum portions % 4503599627370496 = sum others % 4503599627370496 := by
  constructor
  · intro portions
    rw [advanceAll?_eq low, advanceAll_eq low rest, toNat_timestamp_pass, toNat_cycles_pass]
    exact ⟨elapsed_pass _ c, Nat.mod_lt _ (by decide), Nat.mod_lt _ (by decide), rfl, rfl⟩
  · intro portions others
    rw [advanceAll_eq low rest, advanceAll_eq low rest, pass_inj]

/-- A clock at the end of the ring, on which as many cycles pass as go in one portion, and then two more: it has gone
round, and is where it would be if the portions had come the other way round. -/
theorem counts_every_cycle_round :
    let c : Clock := ⟨0x7fffffff, 0x1fffff, 9⟩
    (c.timestamp.toNat < 2147483648 ∧ c.cycles.toNat < 2097152) ∧
      c.elapsed = 4503599627370495 ∧
      (c.advanceAll [0xffffffff, 2]).elapsed = 4294967296 ∧
      c.advanceAll [0xffffffff, 2] = ⟨2048, 0, 9⟩ ∧
      c.advanceAll? [0xffffffff, 2] = some ⟨2048, 0, 9⟩ ∧
      c.advanceAll [2, 0xffffffff] = ⟨2048, 0, 9⟩ := by
  intro c
  have low : c.timestamp.toNat < 2147483648 := by decide
  have rest : c.cycles.toNat < 2097152 := by decide
  obtain ⟨counts, same⟩ := counts_every_cycle low rest
  obtain ⟨elapsed, _, _, _, room⟩ := counts [0xffffffff, 2]
  have value : c.advanceAll [0xffffffff, 2] = ⟨2048, 0, 9⟩ := by decide
  refine ⟨⟨low, rest⟩, by decide, ?_, value, ?_, ?_⟩
  · rw [elapsed]
    decide
  · rw [room, value]
  · rw [← value, same]
    decide

end SerialLink.Clock
