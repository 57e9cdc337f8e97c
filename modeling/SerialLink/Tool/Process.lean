import SerialLink.SerialPort.Plug
import SerialLink.SerialPort.Snapshot
import SerialLink.SerialPort.Transfer
import SerialLink.Tool.Options

/-!
# The tool at work

The tool plugs a link into a serial port and plays the machine: it sends a text, byte by byte, driving
the clock, or it prints the bytes that the peer clocks out to it.  A `Process` is the tool between two
ticks of the port; `step` goes on by one tick, or tells that the port waits for the peer, or that the
work is over.
-/

namespace SerialLink.Tool

/-- What is left to do. -/
inductive Job
  /-- Send a byte, and then others. -/
  | send (byte : UInt8) (rest : Bytes)
  /-- Receive a byte, and then so many others, or without end. -/
  | receive (others : Option Nat)
  deriving DecidableEq, Inhabited, Repr

/-- The tool between two ticks. -/
structure Process where
  port : SerialPort
  job : Job
  /-- Whether to go from one bit to the next in one tick. -/
  stepwise : Bool
  /-- How many interrupts there were. -/
  interrupts : UInt32 := 0

/-- How it stands with the tool after a tick. -/
inductive Standing
  /-- There is more to do. -/
  | running
  /-- A bit is due, but the port is ahead of its peer and lets cycles pass. -/
  | heldBack
  /-- The port waits for a bit of the peer. -/
  | blocked
  /-- The work is over, done or not. -/
  | over (success : Bool)
  deriving DecidableEq, Inhabited, Repr

namespace Process

/-- The cycles of one instruction of the machine that the tool plays. -/
def instructionCycles : UInt32 := 16

/-- The cycles of the next tick. -/
def nextCycles (p : Process) : UInt32 :=
  if p.stepwise then
    if p.port.cyclesToTransmit = 0 then 1 else p.port.cyclesToTransmit
  else instructionCycles

/-- Writes the registers for the next byte. -/
def beginByte (p : Process) : Process :=
  let (data, control) : UInt8 × UInt8 := match p.job with
    | .send byte _ => (byte, Registers.transferBit ||| Registers.internalClockBit)
    | .receive _ => (0, Registers.transferBit)
  { p with port := (p.port.writeData data).writeControl control }

/-- Goes on after a finished byte. -/
def finishByte (p : Process) : Traced (Standing × Process) := do
  match p.job with
  | .send byte rest =>
    Traced.note (.exchanged byte p.port.readData)
    match rest with
    | [] => return (.over true, p)
    | next :: rest => return (.running, beginByte { p with job := .send next rest })
  | .receive others =>
    Traced.emit (.printed p.port.readData)
    match others with
    | some 0 => return (.over true, p)
    | some (n + 1) => return (.running, beginByte { p with job := .receive (some n) })
    | none => return (.running, beginByte p)

/-- Whether losing the link counts as success: it is the only end of receiving without end. -/
def isEndless : Job → Bool
  | .send .. => false
  | .receive others => others.isNone

/-- Whether a bit is due that cannot be exchanged yet. -/
def isHeldBack (p : SerialPort) : Bool := p.cyclesToTransmit == 0 && !p.clock.isReady

/-- Goes on after a tick of the port. -/
def afterTick (progress : SerialPort.Progress) (p : Process) : Traced (Standing × Process) :=
  match progress with
  | .completed => p.finishByte
  | .blocked => return (.blocked, p)
  | .idle =>
    if !p.port.isEnabled then return (.over (isEndless p.job), p)
    else return (if isHeldBack p.port then .heldBack else .running, p)

/-- The trace with every interrupt counted and noted, and the number reached. -/
def countInterrupts : List Event → UInt32 → List Event × UInt32
  | [], n => ([], n)
  | .interrupted :: rest, n =>
    let (rest, last) := countInterrupts rest (n + 1)
    (.interrupted :: .noted (.interrupt (n + 1)) :: rest, last)
  | event :: rest, n =>
    let (rest, last) := countInterrupts rest n
    (event :: rest, last)

/-- Takes over what the port has done, with its interrupts counted. -/
def absorb (t : Traced (SerialPort.Progress × SerialPort)) (p : Process) :
    Traced (SerialPort.Progress × Process) :=
  let (trace, interrupts) := countInterrupts t.trace p.interrupts
  ⟨(t.value.1, { p with port := t.value.2, interrupts }), trace⟩

/-- Goes on by one tick.  A port that is blocked looks for the peer's bit again. -/
def step (p : Process) : Traced (Standing × Process) := do
  let (progress, p) ← p.absorb <|
    if p.port.phase = .exchanging then p.port.resume else p.port.tick p.nextCycles
  p.afterTick progress

/-- Something comes from the peer. -/
def arrive (segment : Tcp.Segment) (p : Process) : Traced Process := do
  return { p with port := ← p.port.arrive segment }

/-- The port gives up waiting. -/
def timeOut (p : Process) : Traced (Standing × Process) := do
  let port ← p.port.timeOut
  afterTick .idle { p with port }

end Process

/-! ### Beginning and ending -/

/-- What there is to do under the options. -/
def Options.job (o : Options) : Job :=
  match o.sendText with
  | byte :: rest => .send byte rest
  | [] => .receive (if o.count = 0 then none else some (o.count.toNat - 1))

/-- The configuration under the options, given what the file holds that they name, if it could be read.
Without it there is nothing to do. -/
def configure? (o : Options) (source : Option Bytes) : Traced (Option Config) := do
  if o.configPath.isEmpty then return some (o.override {})
  else
    let (ok, config) ← Config.loadSource o.configPath source {}
    return if ok then some (o.override config) else none

/-- Makes the link, and begins the first byte.  Without a link there is no process. -/
def establish? (o : Options) (config : Config) (host : Tcp.Host) : Traced (Option Process) := do
  let port ← SerialPort.new.plug config true host
  if !port.isEnabled then
    Traced.note (.noPeer port.error)
    return none
  else
    Traced.note (.established port.role)
    return some <| Process.beginByte { port, job := o.job, stepwise := config.interruptBased }

/-- Begins: the configuration is loaded, the link is made, and the first byte is begun. -/
def start? (o : Options) (folder : Folder) (host : Tcp.Host) : Traced (Option Process) := do
  match ← configure? o (folder.read? o.configPath) with
  | some config => establish? o config host
  | none => return none

/-- Whether a state at a path is saved as a document. -/
def isDocumentPath (path : Bytes) : Bool :=
  Bytes.endsWith (Bytes.ofString ".yml") path || Bytes.endsWith (Bytes.ofString ".yaml") path

/-- The state of the port as it is saved, if the options say that it is. -/
def savedState? (o : Options) (port : SerialPort) : Option Bytes :=
  if o.saveStatePath.isEmpty then none
  else some (if isDocumentPath o.saveStatePath then port.toTree.render else port.save)

/-- What is said about the file of a saved state.  That there is none is said only of a document. -/
def reportState (path : Bytes) (written : Bool) : Traced Unit := do
  if written then Traced.note (.stateSaved path)
  else if isDocumentPath path then Traced.note (.stateNotSaved path)

/-- What is said of work that is over. -/
def reportWork (success : Bool) (port : SerialPort) : Traced Unit := do
  if !success then Traced.note (.transferAborted port.error)

/-- Ends: the link is given up.  `written` is whether the state of the port was written, if the options
say that it is.  Tells whether everything went well. -/
def conclude (o : Options) (success : Bool) (written : Option Bool) (port : SerialPort) :
    Traced Bool := do
  if let some written := written then reportState o.saveStatePath written
  let _ ← port.unplug
  return success && written.getD true

/-- Writes a whole file, which may be where the tool shows what it does: whether that went well, and the
folder afterwards. -/
def writeFile (path content : Bytes) (folder : Folder) : Traced (Bool × Folder) := do
  match Place.ofPath? path with
  | some .output => content.forM fun byte => Traced.emit (.printed byte)
  | some .errors => Traced.emit (.dumped content)
  | _ => pure ()
  match folder.write? path content with
  | some folder => return (true, folder)
  | none => return (false, folder)

/-- Ends, with the state of the port saved in a folder: whether everything went well, and the folder
afterwards. -/
def finish (o : Options) (success : Bool) (p : Process) (folder : Folder) :
    Traced (Bool × Folder) := do
  reportWork success p.port
  match savedState? o p.port with
  | none => return (← conclude o success none p.port, folder)
  | some content =>
    let (written, folder) ← writeFile o.saveStatePath content folder
    return (← conclude o success (some written) p.port, folder)

end SerialLink.Tool
