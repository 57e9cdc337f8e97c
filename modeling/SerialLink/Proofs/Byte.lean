import SerialLink.SerialPort.Registers

/-!
# Bytes, bit by bit

Shifting a bit into the data register doubles the number in it and adds the bit
(`Registers.toNat_shiftIn`).  So after some bits have been shifted in, the register holds the lower end of
what it held before, followed by these bits (`Bits.Holds`): the bits that go out at its upper end are still
those of the old byte (`Bits.Holds.outgoing`), and eight bits make up the whole new one
(`Bits.Holds.eq_byte`).
-/

namespace SerialLink

namespace Registers

theorem toNat_and_one (b : UInt8) : (b &&& 1).toNat = b.toNat % 2 := by
  rw [UInt8.toNat_and]
  exact Nat.and_one_is_mod _

theorem toNat_shiftIn (bit : UInt8) (r : Registers) :
    (r.shiftIn bit).data.toNat = (2 * r.data.toNat + bit.toNat % 2) % 256 := by
  have double : (r.data <<< 1).toNat = 2 ^ 1 * (r.data.toNat % 128) := by
    rw [UInt8.toNat_shiftLeft]
    show r.data.toNat <<< 1 % 256 = _
    rw [Nat.shiftLeft_eq]
    omega
  -- The shift leaves the lowest bit free, so that `or` is a sum.
  have low : bit.toNat % 2 < 2 ^ 1 := Nat.mod_lt _ (by decide)
  show (r.data <<< 1 ||| bit &&& 1).toNat = _
  rw [UInt8.toNat_or, double, toNat_and_one, ← Nat.two_pow_add_eq_or_of_lt low]
  omega

/-- The bit that was shifted in stands at the low end. -/
theorem low_shiftIn (bit : UInt8) (r : Registers) : (r.shiftIn bit).data &&& 1 = bit &&& 1 := by
  apply UInt8.toNat_inj.1
  rw [toNat_and_one, toNat_and_one, toNat_shiftIn]
  omega

end Registers

namespace Bits

/-- How many numbers there are of so many bits. -/
def span : Nat → Nat
  | 0 => 1
  | n + 1 => 2 * span n

/-- The number that bits stand for, the highest one first. -/
def value (bits : List UInt8) : Nat := bits.foldl (fun n bit => 2 * n + bit.toNat % 2) 0

/-- The bit at a place of a byte, counted from the highest one. -/
def nth (byte : UInt8) (place : Nat) : UInt8 := (byte >>> UInt8.ofNat (7 - place)) &&& 1

/-- The byte that eight bits make up, the highest one first. -/
def byte (bits : List UInt8) : UInt8 := UInt8.ofNat (value bits)

theorem value_concat (bits : List UInt8) (bit : UInt8) :
    value (bits ++ [bit]) = 2 * value bits + bit.toNat % 2 := by
  rw [value, List.foldl_append]
  rfl

theorem value_lt (bits : List UInt8) : value bits < span bits.length := by
  -- The number grows at the end of the list, so the induction goes from there.
  rw [← List.reverse_reverse bits]
  generalize bits.reverse = rev
  induction rev with
  | nil => exact Nat.one_pos
  | cons bit rest ih =>
    rw [List.reverse_cons, value_concat, List.length_append, List.length_singleton, span]
    omega

/-- What is left of `x` after some bits were shifted in behind it. -/
def Holds (x : UInt8) (bits : List UInt8) (data : UInt8) : Prop :=
  data.toNat = (span bits.length * x.toNat + value bits) % 256

theorem holds_nil (x : UInt8) : Holds x [] x := by
  have := x.toNat_lt
  show x.toNat = (1 * x.toNat + 0) % 256
  omega

theorem Holds.shiftIn {x : UInt8} {bits : List UInt8} {r : Registers} (h : Holds x bits r.data)
    (bit : UInt8) : Holds x (bits ++ [bit &&& 1]) (r.shiftIn bit).data := by
  unfold Holds at h ⊢
  rw [Registers.toNat_shiftIn, h, value_concat, Registers.toNat_and_one, List.length_append,
    List.length_singleton, span, Nat.mul_assoc]
  omega

/-- The bits that go out are those of the old byte, the highest one first. -/
theorem Holds.outgoing {x : UInt8} {bits : List UInt8} {r : Registers} (h : Holds x bits r.data)
    (few : bits.length < 8) : r.outgoing = (x >>> UInt8.ofNat (7 - bits.length)) &&& 1 := by
  have hx := x.toNat_lt
  have hv := value_lt bits
  have low : (UInt8.ofNat (7 - bits.length)).toNat % 8 = 7 - bits.length := by
    rw [UInt8.toNat_ofNat']
    omega
  have high : (r.data >>> 7).toNat = r.data.toNat / 128 := by
    rw [UInt8.toNat_shiftRight]
    exact Nat.shiftRight_eq_div_pow _ 7
  apply UInt8.toNat_inj.1
  rw [Registers.outgoing, Registers.toNat_and_one, Registers.toNat_and_one, high, h,
    UInt8.toNat_shiftRight, low, Nat.shiftRight_eq_div_pow]
  -- For each number of bits it is a fact about numbers with constant divisors.
  generalize value bits = v at hv
  generalize bits.length = n at hv few
  obtain rfl | rfl | rfl | rfl | rfl | rfl | rfl | rfl : n = 0 ∨ n = 1 ∨ n = 2 ∨ n = 3 ∨ n = 4 ∨
      n = 5 ∨ n = 6 ∨ n = 7 := by omega
  all_goals
    simp only [span, Nat.reducePow, Nat.reduceSub] at hv ⊢
    omega

/-- The bytes that bits make up, eight by eight.  Fewer than eight at the end make up none. -/
def bytes : List UInt8 → List UInt8
  | a :: b :: c :: d :: e :: f :: g :: h :: rest => byte [a, b, c, d, e, f, g, h] :: bytes rest
  | _ => []

/-- The bits of bytes, the highest one of each first. -/
def ofBytes (bytes : List UInt8) : List UInt8 := bytes.flatMap fun byte => (List.range 8).map (nth byte)

theorem bytes_of_short {bits : List UInt8} (short : bits.length < 8) : bytes bits = [] := by
  unfold bytes
  split
  · simp only [List.length_cons] at short
    omega
  · rfl

/-- Eight bits in front are the first byte. -/
theorem bytes_append {eight : List UInt8} (whole : eight.length = 8) (rest : List UInt8) :
    bytes (eight ++ rest) = byte eight :: bytes rest := by
  match eight, whole with
  | [_, _, _, _, _, _, _, _], _ => rfl

theorem length_bytes (bits : List UInt8) : (bytes bits).length = bits.length / 8 := by
  induction bits using bytes.induct with
  | case1 a b c d e f g h rest ih =>
    rw [bytes, List.length_cons, ih]
    simp only [List.length_cons]
    omega
  | case2 bits few =>
    have short : bits.length < 8 := by
      match bits, few with
      | [], _ | [_], _ | [_, _], _ | [_, _, _], _ | [_, _, _, _], _ | [_, _, _, _, _], _
      | [_, _, _, _, _, _], _ | [_, _, _, _, _, _, _], _ => simp
      | _ :: _ :: _ :: _ :: _ :: _ :: _ :: _ :: _, few => exact absurd rfl (few _ _ _ _ _ _ _ _ _)
    rw [bytes_of_short short]
    show 0 = _
    omega

/-- Eight bits behind those of whole bytes are one more byte. -/
theorem bytes_concat {eight : List UInt8} (last : eight.length = 8) (bits : List UInt8)
    (whole : bits.length % 8 = 0) : bytes (bits ++ eight) = bytes bits ++ [byte eight] := by
  by_cases short : bits.length < 8
  · obtain rfl := List.eq_nil_of_length_eq_zero (show bits.length = 0 by omega)
    have one := bytes_append last []
    rw [List.append_nil] at one
    exact one
  · have first : (bits.take 8).length = 8 := by
      rw [List.length_take]
      omega
    have fewer : (bits.drop 8).length % 8 = 0 := by
      rw [List.length_drop]
      omega
    rw [← List.take_append_drop 8 bits, List.append_assoc, bytes_append first, bytes_append first,
      bytes_concat last (bits.drop 8) fewer, List.cons_append]
termination_by bits.length

theorem length_ofBytes (bytes : List UInt8) : (ofBytes bytes).length = 8 * bytes.length := by
  induction bytes with
  | nil => rfl
  | cons byte rest ih =>
    rw [ofBytes, List.flatMap_cons, List.length_append, List.length_cons, Nat.mul_succ, ← ih, Nat.add_comm]
    rfl

/-- The bits of a byte stand behind those of the bytes before it. -/
theorem getElem?_ofBytes (front : List UInt8) (byte : UInt8) (rest : List UInt8) {place : Nat} (inside : place < 8) :
    (ofBytes (front ++ byte :: rest))[8 * front.length + place]? = some (nth byte place) := by
  have split : ofBytes (front ++ byte :: rest) = ofBytes front ++ ((List.range 8).map (nth byte) ++ ofBytes rest) :=
    List.flatMap_append
  have here : place < ((List.range 8).map (nth byte)).length := inside
  rw [split, ← length_ofBytes, List.getElem?_append_right (Nat.le_add_right _ _), Nat.add_sub_cancel_left,
    List.getElem?_append_left here, List.getElem?_map, List.getElem?_range inside]
  rfl

/-- Eight bits leave nothing of the old byte. -/
theorem Holds.eq_byte {x data : UInt8} {bits : List UInt8} (h : Holds x bits data)
    (eight : bits.length = 8) : data = byte bits := by
  apply UInt8.toNat_inj.1
  rw [h, byte, UInt8.toNat_ofNat', eight]
  show (256 * x.toNat + value bits) % 256 = _
  omega

end Bits

end SerialLink
