import SerialLink.Notice

/-!
# The log

Listeners register with the log and get every message that is printed while they are registered, in
the order of their registrations.  A listener that registered several times gets a message as often;
removing it ends all its registrations.
-/

namespace SerialLink

/-- A message as a listener gets it.  The rank may be one that no severity has. -/
structure Message where
  rank : Int
  text : Bytes
  deriving DecidableEq, Inhabited

/-- The message that a notice makes. -/
def Notice.message (notice : Notice) : Message := ⟨notice.severity.rank, notice.text⟩

/-- The registered listeners, in the order in which they registered. -/
structure Log where
  listeners : List Nat := []
  deriving DecidableEq, Inhabited

namespace Log

/-- Registers a listener once more. -/
def add (log : Log) (listener : Nat) : Log := ⟨log.listeners ++ [listener]⟩

/-- Ends all registrations of a listener. -/
def remove (log : Log) (listener : Nat) : Log := ⟨log.listeners.filter (· != listener)⟩

/-- Who gets a message, in the order of delivery. -/
def deliver (log : Log) (message : Message) : List (Nat × Message) :=
  log.listeners.map fun listener => (listener, message)

/-- A check reports its condition only where it does not hold. -/
def check (log : Log) (holds : Bool) (condition : Bytes) : List (Nat × Message) :=
  if holds then [] else log.deliver (Notice.assertionFailed condition).message

theorem deliver_remove (log : Log) (listener : Nat) (message : Message) :
    (log.remove listener).deliver message =
      (log.deliver message).filter (fun delivery => delivery.1 != listener) := by
  simp [deliver, remove, List.filter_map, Function.comp_def]

end Log

end SerialLink
