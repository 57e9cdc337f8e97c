import SerialLink.Bytes

/-!
# Numbers as text

Decimal and hexadecimal spellings, as they stand in addresses, in documents and in the log.  A
spelling of digits alone denotes `value`; writing a number and reading it gives it back
(`value_natural`).
-/

namespace SerialLink.Decimal

/-- Whether a byte is one of the ten decimal digits. -/
def isDigit (b : UInt8) : Bool := 48 ≤ b && b ≤ 57

/-- The number that a byte stands for as a decimal digit. -/
def digit (b : UInt8) : Nat := b.toNat - 48

/-- The number that a string of decimal digits denotes; the empty string denotes zero. -/
def value (digits : Bytes) : Nat := digits.foldl (fun n b => 10 * n + digit b) 0

/-- The bytes of ASCII characters. -/
def ofChars (cs : List Char) : Bytes := cs.map fun c => UInt8.ofNat c.toNat

/-- The shortest decimal spelling of a natural number. -/
def natural (n : Nat) : Bytes := ofChars (Nat.toDigits 10 n)

/-- The shortest decimal spelling of an integer, with a minus sign in front of a negative one. -/
def integer : Int → Bytes
  | .ofNat n => natural n
  | .negSucc n => 45 :: natural (n + 1)

/-- Lower-case hexadecimal with at least two digits. -/
def hex (n : Nat) : Bytes :=
  let digits := ofChars (Nat.toDigits 16 n)
  if digits.length < 2 then 48 :: digits else digits

/-! ### Reading back -/

theorem digit_digitChar {d : Nat} (hd : d < 10) : digit (UInt8.ofNat d.digitChar.toNat) = d := by
  match d, hd with
  | 0, _ | 1, _ | 2, _ | 3, _ | 4, _ | 5, _ | 6, _ | 7, _ | 8, _ | 9, _ => rfl

theorem isDigit_digitChar {d : Nat} (hd : d < 10) : isDigit (UInt8.ofNat d.digitChar.toNat) := by
  match d, hd with
  | 0, _ | 1, _ | 2, _ | 3, _ | 4, _ | 5, _ | 6, _ | 7, _ | 8, _ | 9, _ => rfl

theorem value_append_singleton (digits : Bytes) (b : UInt8) :
    value (digits ++ [b]) = 10 * value digits + digit b := by
  simp [value, List.foldl_append]

/-- A number is the last digit of its spelling plus ten times what the other digits denote. -/
theorem natural_eq (n : Nat) :
    natural n = (if n < 10 then [] else natural (n / 10)) ++
      [UInt8.ofNat (n % 10).digitChar.toNat] := by
  by_cases h : n < 10
  · simp only [natural, h, if_true, Nat.mod_eq_of_lt h, Nat.toDigits_of_lt_base h]
    rfl
  · simp only [natural, h, if_false]
    rw [Nat.toDigits_eq_if (by omega)]
    simp [h, ofChars]

/-- Reading the spelling of a number gives the number. -/
theorem value_natural (n : Nat) : value (natural n) = n := by
  induction n using Nat.strongRecOn with
  | _ n ih =>
    rw [natural_eq, value_append_singleton, digit_digitChar (Nat.mod_lt _ (by omega))]
    split
    · simp [value]
      omega
    · rw [ih _ (by omega)]
      omega

end SerialLink.Decimal
