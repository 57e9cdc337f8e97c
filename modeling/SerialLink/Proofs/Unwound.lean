import SerialLink.Proofs.Batches

/-!
# Time that does not go round

A clock goes round, but the time that it shows does not: it is the number of all cycles of this side, and the number
of steps that the peer has told last (`Tally`).  Whatever happens to the clock, it goes on showing that time
(`Clock.Shows.after`).  Of two times that are less than half the ring apart, the clock tells which is ahead as their
numbers do (`Clock.isAhead_iff_lt`); so a bit is exchanged exactly when it would be if no clock went round.  Together:
`Clock.ahead_as_counted`.
-/

namespace SerialLink

/-- Whether a word stands for a number on the ring. -/
def OnRing (word : UInt32) (n : Nat) : Prop := word.toNat % 2147483648 = n % 2147483648

instance (word : UInt32) (n : Nat) : Decidable (OnRing word n) := inferInstanceAs (Decidable (_ = _))

/-- Time that is counted without end. -/
structure Tally where
  /-- All cycles of this side. -/
  cycles : Nat
  /-- The steps that the peer has told last. -/
  heard : Nat
  deriving DecidableEq, Inhabited, Repr

/-- What happens to the time of a side. -/
inductive Moment
  | pass (cycles : UInt32)
  /-- The peer tells a number of steps by a word. -/
  | hear (steps : Nat) (word : UInt32)
  deriving DecidableEq, Inhabited, Repr

/-- Whether what the peer tells is what it means. -/
def Moment.IsTrue : Moment → Prop
  | pass _ => True
  | hear steps word => OnRing word steps

instance : DecidablePred Moment.IsTrue
  | .pass _ => .isTrue trivial
  | .hear steps word => inferInstanceAs (Decidable (OnRing word steps))

namespace Tally

/-- The steps that this side has made. -/
def steps (t : Tally) : Nat := t.cycles / 2097152

/-- Whether the two sides are less than half the ring apart. -/
def Near (t : Tally) : Prop := t.steps < t.heard + 1073741824 ∧ t.heard < t.steps + 1073741824

instance (t : Tally) : Decidable t.Near := inferInstanceAs (Decidable (_ ∧ _))

/-- What a moment adds to the time. -/
def meet : Moment → Tally → Tally
  | .pass cycles, t => { t with cycles := t.cycles + cycles.toNat }
  | .hear steps _, t => { t with heard := steps }

/-- The time after some moments. -/
def after : List Moment → Tally → Tally
  | [], t => t
  | moment :: rest, t => after rest (t.meet moment)

end Tally

namespace Clock

variable {c : Clock} {t : Tally} {a b a' b' : UInt32}

/-! ### Which of two times is ahead -/

/-- **Times are compared as their numbers are**, if these are less than half the ring apart. -/
theorem isAhead_iff_lt {here there : Nat} (ha : OnRing a here) (hb : OnRing b there)
    (ahead : here < there + 1073741824) (behind : there < here + 1073741824) :
    isAhead a b = true ↔ there < here := by
  unfold OnRing at ha hb
  rw [isAhead_iff, toNat_distance]
  omega

theorem isAhead_congr (ha : OnRing a a'.toNat) (hb : OnRing b b'.toNat) : isAhead a b = isAhead a' b' := by
  unfold OnRing at ha hb
  rw [Bool.eq_iff_iff, isAhead_iff, isAhead_iff, toNat_distance, toNat_distance]
  omega

/-- A time by which both go on changes nothing, also where the words overflow. -/
theorem isAhead_add (a b n : UInt32) : isAhead (a + n) (b + n) = isAhead a b := by
  have same : distance (a + n) (b + n) = distance a b := by
    rw [← UInt32.toNat_inj, toNat_distance, toNat_distance, UInt32.toNat_add, UInt32.toNat_add]
    omega
  rw [isAhead, isAhead, same]

/-- Neither of two times is ahead of the other one if they are opposite on the ring. -/
theorem isAhead_of_opposite (opposite : OnRing a (b.toNat + 1073741824)) : isAhead a b = false := by
  unfold OnRing at opposite
  rw [← Bool.not_eq_true, isAhead_iff, toNat_distance]
  omega

/-- Of two other times exactly one is ahead. -/
theorem isAhead_swap (differ : ¬ OnRing a b.toNat) (beside : ¬ OnRing a (b.toNat + 1073741824)) :
    isAhead a b = !isAhead b a := by
  unfold OnRing at differ beside
  rw [Bool.eq_iff_iff, Bool.not_eq_true', ← Bool.not_eq_true, isAhead_iff, isAhead_iff, toNat_distance,
    toNat_distance]
  omega

theorem not_isAhead_both (a b : UInt32) : ¬ (isAhead a b = true ∧ isAhead b a = true) := by
  rw [isAhead_iff, isAhead_iff, toNat_distance, toNat_distance]
  omega

/-! ### Clocks that show the time -/

/-- What a moment does to a clock. -/
def meet : Moment → Clock → Clock
  | .pass cycles, c => c.advance cycles
  | .hear _ word, c => c.hear word

/-- A clock after some moments. -/
def after : List Moment → Clock → Clock
  | [], c => c
  | moment :: rest, c => after rest (c.meet moment)

/-- A clock shows a time: what it has counted is that on the ring. -/
structure Shows (c : Clock) (t : Tally) : Prop where
  timestamp : c.timestamp.toNat < 2147483648
  rest : c.cycles.toNat < 2097152
  elapsed : c.elapsed = t.cycles % 4503599627370496
  heard : OnRing c.received t.heard

theorem shows_start : start.Shows ⟨0, 0⟩ := by
  constructor <;> decide

/-- The time of a clock stands for all steps of its side. -/
theorem Shows.onRing (shows : c.Shows t) : OnRing c.timestamp t.steps := by
  obtain ⟨low, rest, elapsed, -⟩ := shows
  rw [Clock.elapsed] at elapsed
  rw [OnRing, Tally.steps]
  omega

/-- Whatever happens, a clock goes on showing the time. -/
theorem Shows.meet (shows : c.Shows t) {moment : Moment} (isTrue : moment.IsTrue) :
    (c.meet moment).Shows (t.meet moment) := by
  cases moment with
  | pass cycles =>
    have value : c.meet (.pass cycles) = c.pass cycles.toNat := advance_eq shows.timestamp cycles
    rw [value]
    refine ⟨?_, ?_, ?_, shows.heard⟩
    · rw [toNat_timestamp_pass]
      exact Nat.mod_lt _ (by decide)
    · rw [toNat_cycles_pass]
      exact Nat.mod_lt _ (by decide)
    · rw [elapsed_pass, shows.elapsed, Nat.mod_add_mod]
      rfl
  | hear steps word =>
    refine ⟨shows.timestamp, shows.rest, shows.elapsed, ?_⟩
    show (word &&& timestampMask).toNat % _ = _
    rw [toNat_mask, Nat.mod_mod]
    exact isTrue

theorem Shows.after (shows : c.Shows t) {moments : List Moment} (allTrue : ∀ moment ∈ moments, moment.IsTrue) :
    (c.after moments).Shows (t.after moments) := by
  induction moments generalizing c t with
  | nil => exact shows
  | cons moment rest ih =>
    obtain ⟨now, later⟩ := List.forall_mem_cons.mp allTrue
    exact ih (shows.meet now) later

/-- As long as the two sides are near each other, a side is ready exactly if it has made no more steps than the peer
has told. -/
theorem Shows.isReady_iff (shows : c.Shows t) (near : t.Near) : c.isReady = true ↔ t.steps ≤ t.heard := by
  rw [isReady, Bool.not_eq_true', ← Bool.not_eq_true, isAhead_iff_lt shows.onRing shows.heard near.1 near.2,
    Nat.not_lt]

/-! ### Ports whose time does not go round -/

/-- **A side waits for its peer as if no time went round.**  Of two numbers that are less than half the ring apart, any
words that stand for them on the ring tell which is greater.  Only what the words are on the ring counts, and not
what both are moved by; never are two times ahead of each other, and if they differ one of them is ahead, unless
they are opposite on the ring, where neither is.  So whatever happens to two sides from times that their clocks
show: the words that one tells stand for all its steps, and the other is ready exactly if it has made no more of
them, as long as they are less than half the ring apart.  Then also a tick exchanges a bit exactly if one is due
when its cycles have passed, and this side has made no more steps than the peer has told. -/
theorem ahead_as_counted :
    (∀ (here there : Nat) (a b : UInt32), OnRing a here → OnRing b there → here < there + 1073741824 →
      there < here + 1073741824 → (isAhead a b = true ↔ there < here)) ∧
    (∀ a b a' b' : UInt32, OnRing a a'.toNat → OnRing b b'.toNat → isAhead a b = isAhead a' b') ∧
    (∀ a b n : UInt32, isAhead (a + n) (b + n) = isAhead a b) ∧
    (∀ a b : UInt32, ¬ (isAhead a b = true ∧ isAhead b a = true)) ∧
    (∀ a b : UInt32, ¬ OnRing a b.toNat →
      (OnRing a (b.toNat + 1073741824) → isAhead a b = false ∧ isAhead b a = false) ∧
      (¬ OnRing a (b.toNat + 1073741824) → isAhead a b = !isAhead b a)) ∧
    (∀ (c : Clock) (t : Tally) (moments : List Moment), c.Shows t → (∀ moment ∈ moments, moment.IsTrue) →
      (Moment.hear (t.after moments).steps (c.after moments).timestamp).IsTrue ∧
      ((t.after moments).Near →
        ((c.after moments).isReady = true ↔ (t.after moments).steps ≤ (t.after moments).heard))) ∧
    ∀ (p : SerialPort) (t : Tally) (cycles : UInt32), p.Ready → p.clock.Shows t → (t.meet (.pass cycles)).Near →
      (SerialPort.Exchanged (p.tick cycles) ↔ p.port.isTransferring = true ∧
        p.cyclesToTransmit.toNat ≤ cycles.toNat ∧ (t.meet (.pass cycles)).steps ≤ t.heard) := by
  refine ⟨fun _ _ _ _ => isAhead_iff_lt, fun _ _ _ _ => isAhead_congr, isAhead_add, not_isAhead_both, ?_, ?_, ?_⟩
  · intro a b differ
    refine ⟨fun opposite => ⟨isAhead_of_opposite opposite, isAhead_of_opposite ?_⟩, isAhead_swap differ⟩
    unfold OnRing at opposite ⊢
    omega
  · intro c t moments shows allTrue
    have later := shows.after allTrue
    exact ⟨later.onRing, later.isReady_iff⟩
  · intro p t cycles ready shows near
    have later : (p.clock.meet (.pass cycles)).Shows (t.meet (.pass cycles)) := shows.meet trivial
    have level : Clock.isAhead (p.clock.advance cycles).timestamp p.clock.received = false ↔
        (t.meet (.pass cycles)).steps ≤ t.heard := by
      rw [← Bool.not_eq_true']
      exact later.isReady_iff near
    rw [ready.exchanged_iff, level]

/-- A side goes round and is two steps ahead of its peer, until the peer goes round as well and tells so by a word whose
highest bit is set.  Words that are opposite on the ring are not ahead of each other.  A port on which both sides
have gone round exchanges a bit that is due, but not with so many cycles that they put it thousands of steps
ahead. -/
theorem ahead_as_counted_round :
    let t : Tally := ⟨2097152 * 2147483647, 2147483647⟩
    let c : Clock := ⟨0x7fffffff, 0, 0x7fffffff⟩
    let ahead : List Moment := [.pass 0x400000]
    let level : List Moment := [.pass 0x400000, .hear 2147483649 0x80000001]
    let p := (SerialPort.new.live SerialPort.driving).value
    let round : Tally := ⟨4503599627370496, 2147483648⟩
    (c.Shows t ∧ (t.after ahead).Near ∧ (t.after level).Near ∧ ∀ moment ∈ level, moment.IsTrue) ∧
      c.after ahead = ⟨1, 0, 0x7fffffff⟩ ∧ (c.after ahead).isReady = false ∧ (c.after level).isReady = true ∧
      isAhead 0x80000001 0x7fffffff = true ∧ isAhead 0xc0000000 0 = false ∧ isAhead 0 0xc0000000 = false ∧
      (p.Ready ∧ p.clock.Shows round ∧ (round.meet (.pass 514)).Near ∧
        (round.meet (.pass 0xffffffff)).Near) ∧
      SerialPort.Exchanged (p.tick 514) ∧ ¬ SerialPort.Exchanged (p.tick 0xffffffff) := by
  intro t c ahead level p round
  have shows : c.Shows t := by constructor <;> decide
  have nearAhead : (t.after ahead).Near := by decide
  have nearLevel : (t.after level).Near := by decide
  have trueAhead : ∀ moment ∈ ahead, moment.IsTrue := by decide
  have trueLevel : ∀ moment ∈ level, moment.IsTrue := by decide
  have can : SerialPort.new.canLive SerialPort.driving = true := by decide
  have ready : p.Ready :=
    ⟨SerialPort.sound_live can, .inl (by decide), by decide, (SerialPort.inRange_live can).session.clock⟩
  have begun : p.clock.Shows round := by constructor <;> decide
  have nearTick : (round.meet (.pass 514)).Near := by decide
  have nearLong : (round.meet (.pass 0xffffffff)).Near := by decide
  obtain ⟨compares, _, _, _, opposite, runs, ticks⟩ := ahead_as_counted
  obtain ⟨neither, nor⟩ := (opposite 0xc0000000 0 (by decide)).1 (by decide)
  refine ⟨⟨shows, nearAhead, nearLevel, trueLevel⟩, by decide, ?_, ?_, ?_, neither, nor,
    ⟨ready, begun, nearTick, nearLong⟩, ?_, ?_⟩
  · rw [← Bool.not_eq_true, (runs c t ahead shows trueAhead).2 nearAhead]
    decide
  · rw [(runs c t level shows trueLevel).2 nearLevel]
    decide
  · rw [compares 2147483649 2147483647 _ _ (by decide) (by decide) (by decide) (by decide)]
    decide
  · rw [ticks p round 514 ready begun nearTick]
    decide
  · rw [ticks p round 0xffffffff ready begun nearLong]
    decide

end Clock

end SerialLink
