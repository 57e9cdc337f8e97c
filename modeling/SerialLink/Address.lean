import SerialLink.Decimal

/-!
# Addresses

An address is four decimal groups with points between them, a colon, and a port.  Groups have one to
three digits and stand for at most 255; the port has one to five digits and stands for a number from 1
to 65535.  The host is kept as it was written.
-/

namespace SerialLink

/-- Where a peer is found. -/
structure Address where
  host : Bytes
  port : UInt16
  deriving DecidableEq, Inhabited, Repr

namespace Address

/-- The number that a string of one to `width` digits stands for, if it is one. -/
def number? (width : Nat) (digits : Bytes) : Option Nat :=
  if !digits.isEmpty && digits.length ≤ width && digits.all Decimal.isDigit then
    some (Decimal.value digits)
  else none

/-- Whether a text is one of the four groups of a host. -/
def isGroup (text : Bytes) : Bool :=
  match number? 3 text with
  | some n => n ≤ 255
  | none => false

/-- The port that a text stands for. -/
def port? (text : Bytes) : Option UInt16 :=
  match number? 5 text with
  | some n => if 0 < n ∧ n ≤ 65535 then some (UInt16.ofNat n) else none
  | none => none

/-! ### Reading a host -/

/-- How far a host was read, group by group. -/
inductive Scan
  /-- So many groups were found, and the next one begins at a position. -/
  | reached (groups start : Nat)
  /-- What was found is no group. -/
  | refused
  deriving DecidableEq, Inhabited, Repr

namespace Scan

/-- Where the reading of a host begins. -/
def start : Scan := reached 0 0

/-- Whether nothing is left to be read: the end of the host lies behind, or no group was found. -/
def isOver (host : Bytes) : Scan → Bool
  | reached _ position => host.length < position
  | refused => true

/-- Reads the group at the position, which ends with the next point or with the host; the one after it begins
behind that. -/
def next (host : Bytes) : Scan → Scan
  | reached groups position =>
    let group := (host.drop position).takeWhile (· != 46)
    if isGroup group then reached (groups + 1) (position + group.length + 1) else refused
  | refused => refused

/-- Goes on reading until it is over, but reads at most so many groups. -/
def upTo (host : Bytes) : Nat → Scan → Scan
  | 0, s => s
  | bound + 1, s => if s.isOver host then s else upTo host bound (s.next host)

end Scan

/-- Whether a text is four groups with points between them.  Each group takes the reading on by a position at
least. -/
def isHost (text : Bytes) : Bool :=
  match Scan.upTo text (text.length + 1) .start with
  | .reached groups _ => groups == 4
  | .refused => false

/-! ### Reading an address -/

/-- The address that a text stands for: there are three points in it and one colon, which parts the host from
the port. -/
def parse? (text : Bytes) : Option Address :=
  if text.count 46 = 3 ∧ text.count 58 = 1 then
    let host := text.takeWhile (· != 58)
    let port := text.drop (host.length + 1)
    if isHost host then (port? port).map fun number => ⟨host, number⟩ else none
  else none

/-- Reads an address into a place that holds one: whether the text is one, and what the place holds
afterwards. -/
def readInto (place : Address) (text : Bytes) : Bool × Address :=
  match parse? text with
  | some address => (true, address)
  | none => (false, place)

/-- Whether the operating system takes a host: it wants four groups as well, but none with a
superfluous zero in front. -/
def isPlainHost (text : Bytes) : Bool :=
  isHost text && (Bytes.split 46 text).all fun group => group.length == 1 || group.head? != some 48

end Address

end SerialLink
