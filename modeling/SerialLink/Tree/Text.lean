import SerialLink.Decimal
import SerialLink.Tree.Basic

/-!
# Documents as text

The text of a document is JSON without blanks.  Reading takes any JSON: blanks between the parts, every
escape, and of members with one name the last.  A text of blanks alone is the null document.
-/

namespace SerialLink.Tree

/-! ### Writing -/

/-- A lower-case hexadecimal digit. -/
def hexDigit (n : Nat) : UInt8 := UInt8.ofNat (Nat.digitChar (n % 16)).toNat

/-- How a byte is written inside quotes: quotes, backslashes and control characters are escaped. -/
def escape (b : UInt8) : Bytes :=
  if b = 34 ∨ b = 92 then [92, b]
  else if b < 32 then
    [92, 117, 48, 48, hexDigit (b.toNat / 16), hexDigit b.toNat]
  else [b]

/-- A text in quotes. -/
def quote (content : Bytes) : Bytes := 34 :: content.flatMap escape ++ [34]

mutual

/-- The text of a document. -/
def render : Tree → Bytes
  | null => Bytes.ofString "null"
  | boolean true => Bytes.ofString "true"
  | boolean false => Bytes.ofString "false"
  | integer n => Decimal.integer n
  | decimal spelling => spelling
  | text content => quote content
  | list items => 91 :: renderItems items ++ [93]
  | object members => 123 :: renderMembers members ++ [125]

/-- The text of the items of a list, with commas between them. -/
def renderItems : List Tree → Bytes
  | [] => []
  | [t] => render t
  | t :: rest => render t ++ 44 :: renderItems rest

/-- The text of the members of an object, with commas between them. -/
def renderMembers : List (Bytes × Tree) → Bytes
  | [] => []
  | [(name, t)] => quote name ++ 58 :: render t
  | (name, t) :: rest => quote name ++ 58 :: render t ++ 44 :: renderMembers rest

end

/-! ### Reading -/

/-- Whether a byte is a blank. -/
def isBlank (b : UInt8) : Bool := b == 32 || b == 9 || b == 10 || b == 13

/-- The text behind its leading blanks. -/
def skipBlanks (source : Bytes) : Bytes := source.dropWhile isBlank

/-- What a hexadecimal digit stands for. -/
def hexValue? (b : UInt8) : Option Nat :=
  if 48 ≤ b ∧ b ≤ 57 then some (b.toNat - 48)
  else if 97 ≤ b ∧ b ≤ 102 then some (b.toNat - 87)
  else if 65 ≤ b ∧ b ≤ 70 then some (b.toNat - 55)
  else none

/-- What four hexadecimal digits stand for. -/
def codeUnit? (a b c d : UInt8) : Option Nat := do
  let a ← hexValue? a
  let b ← hexValue? b
  let c ← hexValue? c
  let d ← hexValue? d
  return 4096 * a + 256 * b + 16 * c + d

/-- The byte that an escape of one letter stands for. -/
def shortEscape? : UInt8 → Option UInt8
  | 34 => some 34
  | 92 => some 92
  | 47 => some 47
  | 98 => some 8
  | 102 => some 12
  | 110 => some 10
  | 114 => some 13
  | 116 => some 9
  | _ => none

/-- The first half of a character that needs two code units. -/
def isHighHalf (unit : Nat) : Bool := 0xd800 ≤ unit && unit < 0xdc00

/-- The second half of a character that needs two code units. -/
def isLowHalf (unit : Nat) : Bool := 0xdc00 ≤ unit && unit < 0xe000

/-- The character of two halves. -/
def joinHalves (high low : Nat) : Nat := 0x10000 + 1024 * (high - 0xd800) + (low - 0xdc00)

/-- The bytes of a character. -/
def character (code : Nat) : Bytes := String.utf8EncodeChar (Char.ofNat code)

/-- Puts bytes in front of a text that was read. -/
def prepend (front : Bytes) (rest : Option (Bytes × Bytes)) : Option (Bytes × Bytes) :=
  rest.map fun (content, source) => (front ++ content, source)

/-- Reads what stands in quotes, from behind the first quote: the content, and the text behind the
second quote. -/
def unquote? : Bytes → Option (Bytes × Bytes)
  | [] => none
  | 34 :: source => some ([], source)
  | 92 :: 117 :: a :: b :: c :: d :: source =>
    match codeUnit? a b c d with
    | none => none
    | some unit =>
      if isHighHalf unit then
        match source with
        | 92 :: 117 :: e :: f :: g :: h :: source =>
          match codeUnit? e f g h with
          | none => none
          | some next =>
            if isLowHalf next then prepend (character (joinHalves unit next)) (unquote? source)
            else none
        | _ => none
      else if isLowHalf unit then none
      else prepend (character unit) (unquote? source)
  | 92 :: b :: source =>
    match shortEscape? b with
    | some byte => prepend [byte] (unquote? source)
    | none => none
  | b :: source => if b < 32 ∨ b = 92 then none else prepend [b] (unquote? source)

/-- The digits in front of a text, at least one, and what is behind them. -/
def digits? (source : Bytes) : Option (Bytes × Bytes) :=
  let digits := source.takeWhile Decimal.isDigit
  if digits.isEmpty then none else some (digits, source.dropWhile Decimal.isDigit)

/-- The whole part of a number: no digit may follow a leading zero. -/
def whole? (source : Bytes) : Option (Bytes × Bytes) := do
  let (digits, rest) ← digits? source
  if digits.head? = some 48 ∧ digits.length ≠ 1 then none else return (digits, rest)

/-- The fraction of a number, which may be absent. -/
def fraction? : Bytes → Option (Bytes × Bytes)
  | 46 :: source => do
    let (digits, rest) ← digits? source
    return (46 :: digits, rest)
  | source => some ([], source)

/-- A sign, which may be absent. -/
def sign : Bytes → Bytes × Bytes
  | 43 :: source => ([43], source)
  | 45 :: source => ([45], source)
  | source => ([], source)

/-- The exponent of a number, which may be absent. -/
def exponent? : Bytes → Option (Bytes × Bytes)
  | [] => some ([], [])
  | b :: source =>
    if b = 101 ∨ b = 69 then do
      let (digits, rest) ← digits? (sign source).2
      return (b :: (sign source).1 ++ digits, rest)
    else some ([], b :: source)

/-- Reads a number. -/
def number? (source : Bytes) : Option (Tree × Bytes) := do
  let negative := source.head? = some 45
  let (digits, rest) ← whole? (if negative then source.drop 1 else source)
  let (fraction, rest) ← fraction? rest
  let (exponent, rest) ← exponent? rest
  if fraction.isEmpty && exponent.isEmpty then
    let n : Int := Decimal.value digits
    return (integer (if negative then -n else n), rest)
  else
    return (decimal ((if negative then [45] else []) ++ digits ++ fraction ++ exponent), rest)

/-- What is behind a given text. -/
def behind? (front source : Bytes) : Option Bytes :=
  if front.isPrefixOf source then some (source.drop front.length) else none

/-- Reads a word or a number. -/
def scalar? (source : Bytes) : Option (Tree × Bytes) :=
  match behind? (Bytes.ofString "null") source with
  | some rest => some (null, rest)
  | none =>
    match behind? (Bytes.ofString "true") source with
    | some rest => some (boolean true, rest)
    | none =>
      match behind? (Bytes.ofString "false") source with
      | some rest => some (boolean false, rest)
      | none => number? source

mutual

/-- Reads a node, and gives the text behind it.  The first argument bounds the number of
steps; a text of `n` bytes takes no more than `2 * n + 1`. -/
def node? : Nat → Bytes → Option (Tree × Bytes)
  | 0, _ => none
  | bound + 1, source =>
    match skipBlanks source with
    | 34 :: rest => (unquote? rest).map fun (content, rest) => (text content, rest)
    | 91 :: rest =>
      match skipBlanks rest with
      | 93 :: rest => some (list [], rest)
      | rest => (items? bound rest).map fun (items, rest) => (list items, rest)
    | 123 :: rest =>
      match skipBlanks rest with
      | 125 :: rest => some (object [], rest)
      | rest => (members? bound [] rest).map fun (members, rest) => (object members, rest)
    | rest => scalar? rest

/-- Reads the items of a list, up to the closing bracket. -/
def items? : Nat → Bytes → Option (List Tree × Bytes)
  | 0, _ => none
  | bound + 1, source =>
    match node? bound source with
    | none => none
    | some (item, rest) =>
      match skipBlanks rest with
      | 93 :: rest => some ([item], rest)
      | 44 :: rest => (items? bound rest).map fun (items, rest) => (item :: items, rest)
      | _ => none

/-- Reads the members of an object behind some that were read, up to the closing brace. -/
def members? : Nat → List (Bytes × Tree) → Bytes → Option (List (Bytes × Tree) × Bytes)
  | 0, _, _ => none
  | bound + 1, before, source =>
    match skipBlanks source with
    | 34 :: rest =>
      match unquote? rest with
      | none => none
      | some (name, rest) =>
        match skipBlanks rest with
        | 58 :: rest =>
          match node? bound rest with
          | none => none
          | some (value, rest) =>
            match skipBlanks rest with
            | 125 :: rest => some (setMember name value before, rest)
            | 44 :: rest => members? bound (setMember name value before) rest
            | _ => none
        | _ => none
    | _ => none

end

/-- The document that a text stands for. -/
def parse? (source : Bytes) : Option Tree :=
  if source.all isBlank then some null
  else
    match node? (2 * source.length + 1) source with
    | some (t, rest) => if rest.all isBlank then some t else none
    | none => none

end SerialLink.Tree
