/-!
# Severity of log messages
-/

namespace SerialLink

/-- How serious a message is. -/
inductive Severity
  | debug
  | info
  | warning
  | error
  deriving DecidableEq, Inhabited, Repr

namespace Severity

/-- The name of a severity. -/
def name : Severity → String
  | debug => "debug"
  | info => "info"
  | warning => "warning"
  | error => "error"

/-- The rank of a severity, by which messages are filtered. -/
def rank : Severity → Nat
  | debug => 0
  | info => 1
  | warning => 2
  | error => 3

/-- The severity of a rank, if there is one. -/
def ofRank? : Int → Option Severity
  | 0 => some debug
  | 1 => some info
  | 2 => some warning
  | 3 => some error
  | _ => none

theorem ofRank?_rank (s : Severity) : ofRank? s.rank = some s := by cases s <;> rfl

/-- The name that belongs to a rank, or `unknown` where no severity has it. -/
def nameOfRank (rank : Int) : String :=
  match ofRank? rank with
  | some s => s.name
  | none => "unknown"

end Severity

end SerialLink
