import SerialLink.Notice
import SerialLink.Packet

/-!
# What happens on the way

A link does things that its owner sees while they happen: it logs, it sends packets, it raises the
serial interrupt.  It also marks what passes through it unseen, packet by packet and bit by bit, so that
one can speak of all that has happened on a link.  A `Traced` computation gives its value together with
the list of these events, in their order; running one computation after the other puts their traces one
after the other (`trace_bind`).
-/

namespace SerialLink

/-- Something that happens: it is seen from outside, or it marks what passes through a link. -/
inductive Event
  /-- A line in the log. -/
  | noted (notice : Notice)
  /-- A packet that the connection took. -/
  | sent (packet : Packet)
  /-- A packet that the connection did not take. -/
  | refused (packet : Packet)
  /-- A packet of the peer that was handled, and what is to be sent back. -/
  | handled (packet : Packet) (reply : Option Packet)
  /-- A packet with which the port has clocked out a bit. -/
  | clockedOut (packet : Packet)
  /-- A bit that the port has clocked in, as it now stands at the low end of the data register. -/
  | clockedIn (bit : UInt8)
  /-- The serial interrupt. -/
  | interrupted
  /-- A byte of output. -/
  | printed (byte : UInt8)
  /-- Bytes that were written where the log is shown. -/
  | dumped (bytes : Bytes)
  deriving DecidableEq, Inhabited, Repr

/-- A value and what happened until it was there. -/
structure Traced (α : Type) where
  value : α
  trace : List Event

namespace Traced

instance : Monad Traced where
  pure a := ⟨a, []⟩
  bind x f :=
    let y := f x.value
    ⟨y.value, x.trace ++ y.trace⟩

variable {α β : Type}

@[simp] theorem value_pure (a : α) : (pure a : Traced α).value = a := rfl

@[simp] theorem trace_pure (a : α) : (pure a : Traced α).trace = [] := rfl

@[simp] theorem value_bind (x : Traced α) (f : α → Traced β) :
    (x >>= f).value = (f x.value).value := rfl

@[simp] theorem trace_bind (x : Traced α) (f : α → Traced β) :
    (x >>= f).trace = x.trace ++ (f x.value).trace := rfl

@[simp] theorem value_map (f : α → β) (x : Traced α) : (f <$> x).value = f x.value := rfl

@[simp] theorem trace_map (f : α → β) (x : Traced α) : (f <$> x).trace = x.trace := by
  show x.trace ++ [] = x.trace
  rw [List.append_nil]

instance : LawfulMonad Traced := by
  refine LawfulMonad.mk' Traced ?_ ?_ ?_
  · intro α x
    show (⟨x.value, x.trace ++ []⟩ : Traced α) = x
    rw [List.append_nil]
  · intro α β a f
    rfl
  · intro α β γ x f g
    show (⟨(g (f x.value).value).value, (x.trace ++ (f x.value).trace) ++ (g (f x.value).value).trace⟩ :
      Traced γ) = ⟨(g (f x.value).value).value, x.trace ++ ((f x.value).trace ++ _)⟩
    rw [List.append_assoc]

/-- Lets an event happen. -/
def emit (event : Event) : Traced Unit := ⟨(), [event]⟩

/-- Writes to the log. -/
def note (notice : Notice) : Traced Unit := emit (.noted notice)

@[simp] theorem trace_emit (event : Event) : (emit event).trace = [event] := rfl

@[simp] theorem trace_note (notice : Notice) : (note notice).trace = [.noted notice] := rfl

end Traced

/-- The packets that were sent in a trace, in their order. -/
def Event.packets (trace : List Event) : List Packet :=
  trace.filterMap fun
    | .sent packet => some packet
    | _ => none

/-- What was logged in a trace, in its order. -/
def Event.notices (trace : List Event) : List Notice :=
  trace.filterMap fun
    | .noted notice => some notice
    | _ => none

/-- The bytes that were output in a trace, in their order. -/
def Event.output (trace : List Event) : Bytes :=
  trace.filterMap fun
    | .printed byte => some byte
    | _ => none

/-- The number of interrupts in a trace. -/
def Event.interrupts (trace : List Event) : Nat := trace.count .interrupted

end SerialLink
