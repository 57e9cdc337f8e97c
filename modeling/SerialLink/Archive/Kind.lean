import SerialLink.Storage.Stream
import SerialLink.Tree.Basic

/-!
# The kinds of values that are kept

Each kind of value has a form as plain bytes and a form as a node of a document.  Words are written
least significant byte first; a text is its length as a 32-bit word and then its bytes.  In a document
a word is an integer, and only an integer in the range of the word is one.
-/

namespace SerialLink.Archive

/-- The kinds of values that are kept. -/
inductive Kind
  | bool
  | u8
  | u16
  | i32
  | u32
  | u64
  | text
  deriving DecidableEq, Inhabited, Repr

namespace Kind

/-- The values of a kind. -/
@[reducible] def Carrier : Kind → Type
  | bool => Bool
  | u8 => UInt8
  | u16 => UInt16
  | i32 => Int32
  | u32 => UInt32
  | u64 => UInt64
  | text => Bytes

/-! ### As bytes -/

/-- The bytes of a value, as they are put into a sink one after the other: a long word comes half by half,
the low one first, and a text after its length, if there is anything of it. -/
def parts : (k : Kind) → k.Carrier → List Bytes
  | bool, b => [[b.toUInt8]]
  | u8, w => [[w]]
  | u16, w => [Bytes.ofUInt16 w]
  | i32, w => [Bytes.ofUInt32 w.toUInt32]
  | u32, w => [Bytes.ofUInt32 w]
  | u64, w => [Bytes.ofUInt32 w.toUInt32, Bytes.ofUInt32 (w >>> 32).toUInt32]
  | text, b =>
    let size := UInt32.ofNat b.length
    Bytes.ofUInt32 size :: if size = 0 then [] else [b]

/-- All bytes of a value. -/
def encode (k : Kind) (v : k.Carrier) : Bytes := (k.parts v).flatten

section

variable {σ : Type} [Source σ]

/-- Reads a number of bytes over zeros. -/
def readZeroed (count : Nat) (s : σ) : Bool × Bytes × σ :=
  Source.read (List.replicate count 0) s

/-- A text whose length is changed: it is cut, or filled up with zeros. -/
def resize (length : Nat) (b : Bytes) : Bytes :=
  b.take length ++ List.replicate (length - b.length) 0

/-- Reads a value over the one that is there: whether all of its bytes came, the value that is there
afterwards, and the source behind it.  A text first takes the length that was read. -/
def decode : (k : Kind) → k.Carrier → σ → Bool × k.Carrier × σ
  | bool, _, s =>
    let (ok, bytes, s) := readZeroed 1 s
    (ok, bytes.toNat != 0, s)
  | u8, old, s =>
    let (ok, bytes, s) := Source.read [old] s
    (ok, bytes.headD old, s)
  | u16, _, s =>
    let (ok, bytes, s) := readZeroed 2 s
    (ok, bytes.toUInt16, s)
  | i32, _, s =>
    let (ok, bytes, s) := readZeroed 4 s
    (ok, bytes.toUInt32.toInt32, s)
  | u32, _, s =>
    let (ok, bytes, s) := readZeroed 4 s
    (ok, bytes.toUInt32, s)
  | u64, _, s =>
    let (okLow, low, s) := readZeroed 4 s
    let (okHigh, high, s) := readZeroed 4 s
    (okLow && okHigh, (high.toUInt32.toUInt64 <<< 32) ||| low.toUInt32.toUInt64, s)
  | text, old, s =>
    let (ok, bytes, s) := readZeroed 4 s
    let size := bytes.toUInt32
    let place := resize size.toNat old
    if size = 0 then (ok, place, s)
    else
      let (complete, content, s) := Source.read place s
      (ok && complete, content, s)

end

/-! ### As nodes of a document -/

/-- The node of a value. -/
def toTree : (k : Kind) → k.Carrier → Tree
  | bool, b => .boolean b
  | u8, w => .integer w.toNat
  | u16, w => .integer w.toNat
  | i32, w => .integer w.toInt
  | u32, w => .integer w.toNat
  | u64, w => .integer w.toNat
  | text, b => .text b

/-- The word of a natural number below a bound. -/
def bounded {α : Type} (bound : Nat) (word : Nat → α) (n : Int) : Option α :=
  if 0 ≤ n ∧ n < bound then some (word n.toNat) else none

/-- The value of a node, if it is one of the kind. -/
def ofTree? : (k : Kind) → Tree → Option k.Carrier
  | bool, .boolean b => some b
  | u8, .integer n => bounded UInt8.size UInt8.ofNat n
  | u16, .integer n => bounded UInt16.size UInt16.ofNat n
  | i32, .integer n => 
    if Int32.minValue.toInt ≤ n ∧ n ≤ Int32.maxValue.toInt then some (Int32.ofInt n) else none
  | u32, .integer n => bounded UInt32.size UInt32.ofNat n
  | u64, .integer n => bounded UInt64.size UInt64.ofNat n
  | text, .text b => some b
  | _, _ => none

end Kind

end SerialLink.Archive
