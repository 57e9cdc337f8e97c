import SerialLink.Peer
import SerialLink.Tool.Process

/-!
# Runs of the tool

A `Partner` is a peer that follows a plan: it answers the bits of the tool, or clocks its own bits into
it, or says nothing.  `run` lets the tool work against a partner until it ends, and reports what it
printed, logged and sent, and what it left in its folder.
-/

namespace SerialLink.Tool

/-- What a partner does. -/
inductive Partner.Manner
  /-- Answers every bit of the tool with one of its own, and ends the connection when it has none left.
  If it stalls it does not wait for a bit that the tool holds back. -/
  | answers (stalls : Bool)
  /-- Sends its bits whenever the tool waits for one, and then may end the connection. -/
  | drives (closes : Bool)
  /-- Says nothing. -/
  | silent
  deriving DecidableEq, Inhabited, Repr

/-- A peer that follows a plan. -/
structure Partner where
  manner : Partner.Manner := .silent
  /-- The role of the partner. -/
  role : Role := .master
  /-- The bits that it still has. -/
  bits : List Bool := []
  /-- The time that it tells. -/
  timestamp : UInt32 := 0
  deriving DecidableEq, Inhabited, Repr

namespace Partner

/-- The partner sends its next bit, if it has one. -/
def nextBit? (p : Partner) : Option (Peer.Act × Partner) :=
  match p.bits with
  | [] => none
  | bit :: rest =>
    some (.send (Packet.sync p.role bit.toUInt8 0x81 p.timestamp).encode, { p with bits := rest })

/-- What the partner does when the tool has sent it a bit. -/
def onBit (p : Partner) : Option (Peer.Act × Partner) :=
  match p.manner with
  | .answers _ => p.nextBit? <|> some (.finish, p)
  | _ => none

/-- What the partner does when the tool waits for a bit. -/
def onWait (p : Partner) : Option (Peer.Act × Partner) :=
  match p.manner with
  | .drives closes => p.nextBit? <|> (if closes then some (.finish, p) else none)
  | _ => none

/-- What the partner does when the tool holds its bit back. -/
def onHeldBack (p : Partner) : Option (Peer.Act × Partner) :=
  match p.manner with
  | .answers true => if p.bits.isEmpty then some (.finish, p) else none
  | .drives _ => p.nextBit?
  | _ => none

end Partner

/-- What has become of a run. -/
structure Report where
  success : Bool
  output : Bytes
  errors : Bytes
  sent : List Packet
  folder : Folder

/-- The line that the tool shows of what it logs: of every notice, or of those that are no mere details. -/
def shown (verbose : Bool) (notice : Notice) : Bytes :=
  if verbose || notice.severity != .debug then
    Bytes.ofString "[" ++ Bytes.ofString notice.severity.name ++ Bytes.ofString "] " ++ notice.text
  else []

/-- What the tool shows where its log goes. -/
def console (verbose : Bool) (trace : List Event) : Bytes :=
  trace.flatMap fun
    | .noted notice => shown verbose notice
    | .dumped bytes => bytes
    | _ => []

/-- The tool and its partner meet: the partner reacts to each bit that the tool has sent. -/
def react : List Packet → Partner → Process → Traced (Partner × Process)
  | [], partner, p => return (partner, p)
  | _ :: rest, partner, p =>
    match partner.onBit with
    | some (act, partner) => do react rest partner (← p.arrive act.segment)
    | none => react rest partner p

/-- How a run goes on after a tick. -/
inductive Turn
  | further (partner : Partner) (p : Process)
  | over (success : Bool) (p : Process)
  /-- The tool waits for ever. -/
  | stuck (p : Process)

/-- One turn: the tool goes on by a tick, and the partner reacts. -/
def turn (partner : Partner) (p : Process) : Traced Turn :=
  let stepped := p.step
  let synced := (Event.packets stepped.trace).filter (·.isSync)
  do
    let (standing, p) ← stepped
    let (reacted, p) ← react synced partner p
    match standing with
    | .over success => return .over success p
    | .running => return .further reacted p
    | .heldBack =>
      match reacted.onHeldBack with
      | some (act, partner) => return .further partner (← p.arrive act.segment)
      | none => return .further reacted p
    | .blocked =>
      if partner.onBit.isSome && !synced.isEmpty then return .further reacted p
      else
        match reacted.onWait with
        | some (act, partner) => return .further partner (← p.arrive act.segment)
        | none =>
          if p.port.transferTimeout = 0 then return .stuck p
          else
            match ← p.timeOut with
            | (.over success, p) => return .over success p
            | (_, p) => return .further reacted p

/-- So many turns: how the run stands, behind the traces of the turns, the last of them first. -/
def turns : Nat → Turn → List (List Event) → Turn × List (List Event)
  | 0, now, traces => (now, traces)
  | n + 1, .further partner p, traces =>
    let next := turn partner p
    turns n next.value (next.trace :: traces)
  | _, now, traces => (now, traces)

/-- Lets the tool work against a partner, for so many turns at most.  A run that does not end leaves
nothing behind but its trace. -/
def work (bound : Nat) (o : Options) (folder : Folder) (host : Tcp.Host) (partner : Partner) :
    Traced (Bool × Folder) := do
  match ← start? o folder host with
  | none => return (false, folder)
  | some p =>
    let (last, traces) := turns bound (.further partner p) []
    let last ← (⟨last, traces.reverse.flatten⟩ : Traced Turn)
    match last with
    | .over success p => finish o success p folder
    | _ => return (false, folder)

/-- Runs a command line, each word of which ends at its first zero. -/
def run (bound : Nat) (program : Bytes) (words : List Bytes) (folder : Folder) (host : Tcp.Host)
    (partner : Partner) : Report :=
  match Options.parse (words.map Bytes.untilZero) with
  | .error refusal =>
    { success := false
      output := Options.usage program
      errors := refusal.complaint
      sent := []
      folder }
  | .ok o =>
    let worked := work bound o folder host partner
    { success := worked.value.1
      output := Event.output worked.trace
      errors := console o.verbose worked.trace
      sent := Event.packets worked.trace
      folder := worked.value.2 }

end SerialLink.Tool
