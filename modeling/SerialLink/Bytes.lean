/-!
# Byte strings

Everything that travels over a connection, lies in a file or stands in a log is a `Bytes`.  Words are
laid out least significant byte first: `littleEndian width n` holds `n` modulo `wordCount width`, which
is 256 to that power (`toNat_littleEndian`), in exactly `width` bytes (`length_littleEndian`).
-/

namespace SerialLink

/-- A byte string. -/
abbrev Bytes := List UInt8

namespace Bytes

/-! ### Text -/

/-- The UTF-8 bytes of a string. -/
def ofString (s : String) : Bytes := s.toUTF8.data.toList

/-- The bytes before the first zero, which is where a terminated text ends. -/
def untilZero (b : Bytes) : Bytes := b.takeWhile (· != 0)

/-- The pieces of a byte string between the occurrences of a separator; one more piece than there
are separators. -/
def split (separator : UInt8) : Bytes → List Bytes
  | [] => [[]]
  | b :: rest =>
    match split separator rest with
    | [] => [[b]]
    | piece :: pieces =>
      if b = separator then [] :: piece :: pieces else (b :: piece) :: pieces

/-- Whether a text ends in the given one. -/
def endsWith (ending text : Bytes) : Bool := ending.isSuffixOf text

/-! ### Words -/

/-- The number of words with so many bytes. -/
def wordCount : Nat → Nat
  | 0 => 1
  | width + 1 => 256 * wordCount width

/-- The `width` low bytes of `n`, least significant first. -/
def littleEndian : Nat → Nat → Bytes
  | 0, _ => []
  | width + 1, n => UInt8.ofNat n :: littleEndian width (n / 256)

/-- The number whose bytes, least significant first, are given. -/
def toNat : Bytes → Nat
  | [] => 0
  | b :: rest => b.toNat + 256 * toNat rest

@[simp] theorem length_littleEndian (width n : Nat) : (littleEndian width n).length = width := by
  induction width generalizing n with
  | zero => rfl
  | succ width ih => simp [littleEndian, ih]

theorem toNat_littleEndian (width n : Nat) : toNat (littleEndian width n) = n % wordCount width := by
  induction width generalizing n with
  | zero => simp [littleEndian, toNat, wordCount, Nat.mod_one]
  | succ width ih =>
    have hlow : (UInt8.ofNat n).toNat = n % 256 := UInt8.toNat_ofNat'
    rw [littleEndian, toNat, ih, hlow, wordCount, Nat.mod_mul]

theorem littleEndian_toNat (b : Bytes) : littleEndian b.length (toNat b) = b := by
  induction b with
  | nil => rfl
  | cons b rest ih =>
    have hb : b.toNat < 256 := b.toNat_lt
    have hdiv : (b.toNat + 256 * toNat rest) / 256 = toNat rest := by omega
    have hlow : UInt8.ofNat (b.toNat + 256 * toNat rest) = b := by
      apply UInt8.toNat_inj.1
      rw [UInt8.toNat_ofNat']
      omega
    simp only [List.length_cons, littleEndian, toNat, hdiv, hlow, ih]

/-- The two bytes of a 16-bit word. -/
def ofUInt16 (w : UInt16) : Bytes := littleEndian 2 w.toNat

/-- The four bytes of a 32-bit word. -/
def ofUInt32 (w : UInt32) : Bytes := littleEndian 4 w.toNat

/-- The 16-bit word with the given bytes. -/
def toUInt16 (b : Bytes) : UInt16 := UInt16.ofNat (toNat b)

/-- The 32-bit word with the given bytes. -/
def toUInt32 (b : Bytes) : UInt32 := UInt32.ofNat (toNat b)

theorem toUInt32_ofUInt32 (w : UInt32) : toUInt32 (ofUInt32 w) = w := by
  apply UInt32.toNat_inj.1
  have hw : w.toNat < wordCount 4 := w.toNat_lt
  rw [toUInt32, ofUInt32, toNat_littleEndian, Nat.mod_eq_of_lt hw, UInt32.ofNat_toNat]

theorem ofUInt32_toUInt32 {b : Bytes} (hb : b.length = 4) : ofUInt32 (toUInt32 b) = b := by
  have hlt : toNat b < wordCount 4 := by
    have h := toNat_littleEndian b.length (toNat b)
    rw [littleEndian_toNat, hb] at h
    exact h ▸ Nat.mod_lt _ (by decide)
  rw [ofUInt32, toUInt32, UInt32.toNat_ofNat_of_lt' hlt, ← hb, littleEndian_toNat]

/-- A mask is laid over the bytes of a word one by one. -/
theorem littleEndian_and (width m n : Nat) :
    littleEndian width (m &&& n) = List.zipWith (· &&& ·) (littleEndian width m) (littleEndian width n) := by
  induction width generalizing m n with
  | zero => rfl
  | succ width ih =>
    have rest : (m &&& n) / 256 = m / 256 &&& n / 256 := by
      have split : ∀ k : Nat, k / 256 = k >>> 8 := fun k => (Nat.shiftRight_eq_div_pow k 8).symm
      rw [split, split, split, Nat.shiftRight_and_distrib]
    rw [littleEndian, littleEndian, littleEndian, List.zipWith_cons_cons, rest, ih, UInt8.ofNat_and]

theorem ofUInt32_and (v w : UInt32) :
    ofUInt32 (v &&& w) = List.zipWith (· &&& ·) (ofUInt32 v) (ofUInt32 w) := by
  rw [ofUInt32, UInt32.toNat_and]
  exact littleEndian_and 4 v.toNat w.toNat

end Bytes

/-! ### Byte order -/

/-- The 16-bit word with the two bytes of `w` in the opposite order. -/
def swapBytes16 (w : UInt16) : UInt16 := Bytes.toUInt16 (Bytes.ofUInt16 w).reverse

/-- The 32-bit word with the four bytes of `w` in the opposite order. -/
def swapBytes32 (w : UInt32) : UInt32 := Bytes.toUInt32 (Bytes.ofUInt32 w).reverse

/-- Swapping the bytes twice changes nothing. -/
theorem swapBytes32_swapBytes32 (w : UInt32) : swapBytes32 (swapBytes32 w) = w := by
  rw [swapBytes32, swapBytes32, Bytes.ofUInt32_toUInt32 (by simp [Bytes.ofUInt32]), List.reverse_reverse,
    Bytes.toUInt32_ofUInt32]

end SerialLink
