import SerialLink.Bytes
import SerialLink.Role

/-!
# Packets of the link protocol

A packet is a kind, three data bytes and a timestamp of 31 bits, eight bytes on the wire.  A packet
that was put together by hand may hold a timestamp of 32 bits; the wire form keeps the lower 31
(`decode?_encode`).  `decode?` accepts exactly the byte strings of length eight
(`isSome_decode?`).
-/

namespace SerialLink

/-- Timestamps live on a ring of `2 ^ 31` steps; this mask reduces a word to the ring. -/
def timestampMask : UInt32 := 0x7fffffff

/-- A packet.  The kind is kept as a byte, so that packets of unknown kinds survive decoding. -/
structure Packet where
  kind : UInt8
  b2 : UInt8
  b3 : UInt8
  b4 : UInt8
  timestamp : UInt32
  deriving DecidableEq, Inhabited, Repr

namespace Packet

/-! ### Kinds -/

/-- The kinds of packet that the protocol has. -/
inductive Kind
  | version
  | joypadUpdate
  | sync1
  | sync2
  | sync3
  | status
  | wantDisconnect
  deriving DecidableEq, Inhabited, Repr

namespace Kind

/-- The byte that stands for a kind. -/
def code : Kind → UInt8
  | version => 1
  | joypadUpdate => 101
  | sync1 => 104
  | sync2 => 105
  | sync3 => 106
  | status => 108
  | wantDisconnect => 109

/-- The name of a kind. -/
def name : Kind → String
  | version => "Version"
  | joypadUpdate => "JoypadUpdate"
  | sync1 => "Sync1"
  | sync2 => "Sync2"
  | sync3 => "Sync3"
  | status => "Status"
  | wantDisconnect => "WantDisconnect"

/-- All kinds. -/
def all : List Kind := [version, joypadUpdate, sync1, sync2, sync3, status, wantDisconnect]

/-- The kind that a byte stands for, if there is one. -/
def ofCode? (code : UInt8) : Option Kind := all.find? (·.code == code)

theorem ofCode?_code (k : Kind) : ofCode? k.code = some k := by cases k <;> rfl

/-- The name that belongs to a byte. -/
def nameOfCode (code : UInt8) : String :=
  match ofCode? code with
  | some k => k.name
  | none => "Unknown"

/-- The kind of the packets with which a side sends its bits. -/
def ofRole : Role → Kind
  | .master => sync1
  | _ => sync2

end Kind

/-- The kind of a packet, if the protocol has it. -/
def kind? (p : Packet) : Option Kind := Kind.ofCode? p.kind

/-- Whether a packet brings a bit. -/
def isSync (p : Packet) : Bool := p.kind == Kind.sync1.code || p.kind == Kind.sync2.code

/-! ### Making packets -/

/-- The packet in which every field is zero. -/
def empty : Packet := ⟨0, 0, 0, 0, 0⟩

/-- A packet with its timestamp reduced to the ring. -/
def make (kind : UInt8) (b2 b3 b4 : UInt8) (timestamp : UInt32) : Packet :=
  ⟨kind, b2, b3, b4, timestamp &&& timestampMask⟩

/-- The version of the protocol: major, minor and patch number. -/
def protocolVersion : UInt8 × UInt8 × UInt8 := (1, 4, 0)

/-- Announces the version of the protocol. -/
def version (timestamp : UInt32) : Packet :=
  make Kind.version.code protocolVersion.1 protocolVersion.2.1 protocolVersion.2.2 timestamp

/-- The flag of a side that runs. -/
def running : UInt8 := 1

/-- The flag of a side that pauses. -/
def paused : UInt8 := 2

/-- The flag of a side that can reconnect. -/
def supportsReconnect : UInt8 := 4

/-- Whether a flag is among the given ones. -/
def hasFlag (flags flag : UInt8) : Bool := flags &&& flag != 0

/-- Tells the flags of a side, one in each data byte. -/
def status (flags : UInt8) (timestamp : UInt32) : Packet :=
  make Kind.status.code (hasFlag flags running).toUInt8 (hasFlag flags paused).toUInt8
    (hasFlag flags supportsReconnect).toUInt8 timestamp

/-- Brings a bit, together with the serial control register of the side that sends it. -/
def sync (role : Role) (bit control : UInt8) (timestamp : UInt32) : Packet :=
  make (Kind.ofRole role).code (bit &&& 1) control 0 timestamp

/-! ### The wire -/

/-- The number of bytes of a packet on the wire. -/
def size : Nat := 8

/-- The wire form of a packet. -/
def encode (p : Packet) : Bytes :=
  [p.kind, p.b2, p.b3, p.b4] ++ Bytes.ofUInt32 (p.timestamp &&& timestampMask)

/-- The packet with the given wire form. -/
def decode? : Bytes → Option Packet
  | [kind, b2, b3, b4, t0, t1, t2, t3] =>
    some (make kind b2 b3 b4 (Bytes.toUInt32 [t0, t1, t2, t3]))
  | _ => none

/-- Reads a packet into a place that holds one: what the place holds afterwards, and whether a packet
was there to be read. -/
def readInto (place : Packet) (wire : Option Bytes) : Bool × Packet :=
  match wire.bind decode? with
  | some p => (true, p)
  | none => (false, place)

@[simp] theorem length_encode (p : Packet) : p.encode.length = size := by
  simp [encode, Bytes.ofUInt32, size]

theorem mask_mask (t : UInt32) : t &&& timestampMask &&& timestampMask = t &&& timestampMask := by
  rw [UInt32.and_assoc, UInt32.and_self]

theorem isSome_decode? (wire : Bytes) : (decode? wire).isSome = (wire.length == size) := by
  unfold decode?
  split
  · rfl
  · rename_i h
    match wire, h with
    | [], _ | [_], _ | [_, _], _ | [_, _, _], _ | [_, _, _, _], _ | [_, _, _, _, _], _
    | [_, _, _, _, _, _], _ | [_, _, _, _, _, _, _], _ => rfl
    | [_, _, _, _, _, _, _, _], h => exact absurd rfl (h _ _ _ _ _ _ _ _)
    | _ :: _ :: _ :: _ :: _ :: _ :: _ :: _ :: _ :: _, _ => simp [size]

end Packet

end SerialLink
