/-!
# The two roles on a link

The side that accepted the connection is the master, the side that initiated it is the slave.
-/

namespace SerialLink

/-- What a side of the link is. -/
inductive Role
  /-- Not linked. -/
  | disabled
  /-- The side that accepted the connection. -/
  | master
  /-- The side that initiated the connection. -/
  | slave
  deriving DecidableEq, Inhabited, Repr

namespace Role

/-- The name of a role, as the log and the tool spell it. -/
def name : Role → String
  | disabled => "disabled"
  | master => "master"
  | slave => "slave"

/-- The number that stands for a role. -/
def code : Role → Nat
  | disabled => 0
  | master => 1
  | slave => 2

/-- The role that a number stands for; numbers that stand for none mean an unlinked side. -/
def ofCode : Int → Role
  | 1 => master
  | 2 => slave
  | _ => disabled

theorem ofCode_code (r : Role) : ofCode r.code = r := by cases r <;> rfl

end Role

end SerialLink
