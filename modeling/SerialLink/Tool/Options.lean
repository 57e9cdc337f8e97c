import SerialLink.Config

/-!
# Options of the command line

A command line is a list of words.  A switch is one word; a setting is a word and the value behind it,
whatever that looks like.  Of several values of one setting the last counts.  A word that is neither, or
a setting without a value, is refused, and so is asking for help.  Options override what a configuration
says, but they never switch anything off.
-/

namespace SerialLink.Tool

/-- Options that are there or not. -/
inductive Switch
  | bind
  | interrupt
  | verbose
  deriving DecidableEq, Inhabited, Repr

/-- Options that have a value. -/
inductive Setting
  | config
  | address
  | timeout
  | send
  | count
  | saveState
  deriving DecidableEq, Inhabited, Repr

/-- The word of a switch. -/
def Switch.word : Switch → Bytes
  | bind => Bytes.ofString "--bind"
  | interrupt => Bytes.ofString "--interrupt"
  | verbose => Bytes.ofString "--verbose"

/-- The word of a setting. -/
def Setting.word : Setting → Bytes
  | config => Bytes.ofString "--config"
  | address => Bytes.ofString "--address"
  | timeout => Bytes.ofString "--timeout"
  | send => Bytes.ofString "--send"
  | count => Bytes.ofString "--count"
  | saveState => Bytes.ofString "--save-state"

/-- The switch of a word. -/
def Switch.ofWord? (word : Bytes) : Option Switch :=
  [bind, interrupt, verbose].find? (·.word == word)

/-- The setting of a word. -/
def Setting.ofWord? (word : Bytes) : Option Setting :=
  [config, address, timeout, send, count, saveState].find? (·.word == word)

/-- Whether a word asks for help. -/
def isHelp (word : Bytes) : Bool :=
  word == Bytes.ofString "--help" || word == Bytes.ofString "-h"

/-- What a command line says. -/
structure Options where
  configPath : Bytes := []
  address : Bytes := []
  sendText : Bytes := []
  saveStatePath : Bytes := []
  bind : Bool := false
  interrupt : Bool := false
  timeout : Option UInt32 := none
  count : UInt32 := 0
  verbose : Bool := false
  deriving DecidableEq, Inhabited, Repr

/-! ### Numbers -/

/-- Whether a byte may stand in front of a number. -/
def isSpace (b : UInt8) : Bool := b == 32 || (9 ≤ b && b ≤ 13)

/-- The number at the front of a text, as a word of 64 bits: blanks and a sign may come first, and what
follows the digits does not matter.  A number for which there is no room counts as the highest word; a
negative one is counted backwards from `2 ^ 64`. -/
def leadingNumber (text : Bytes) : UInt64 :=
  let text := text.dropWhile isSpace
  let negative := text.head? == some 45
  let digits := if negative || text.head? == some 43 then text.drop 1 else text
  let n := Decimal.value (digits.takeWhile Decimal.isDigit)
  if UInt64.size ≤ n then UInt64.ofNat (UInt64.size - 1)
  else if negative then -UInt64.ofNat n
  else UInt64.ofNat n

namespace Options

/-- Turns a switch on. -/
def switchOn (s : Switch) (o : Options) : Options :=
  match s with
  | .bind => { o with bind := true }
  | .interrupt => { o with interrupt := true }
  | .verbose => { o with verbose := true }

/-- Gives a setting its value.  Of a number the low 32 bits are taken. -/
def set (s : Setting) (value : Bytes) (o : Options) : Options :=
  match s with
  | .config => { o with configPath := value }
  | .address => { o with address := value }
  | .timeout => { o with timeout := some (leadingNumber value).toUInt32 }
  | .send => { o with sendText := value }
  | .count => { o with count := (leadingNumber value).toUInt32 }
  | .saveState => { o with saveStatePath := value }

/-- Why a command line is refused. -/
inductive Refusal
  | help
  | unknown (word : Bytes)
  deriving DecidableEq, Inhabited, Repr

/-- Reads a command line behind options that were read. -/
def parseFrom : List Bytes → Options → Except Refusal Options
  | [], o => .ok o
  | [word], o =>
    if isHelp word then .error .help
    else
      match Switch.ofWord? word with
      | some s => .ok (o.switchOn s)
      | none => .error (.unknown word)
  | word :: value :: rest, o =>
    if isHelp word then .error .help
    else
      match Setting.ofWord? word with
      | some s => parseFrom rest (o.set s value)
      | none =>
        match Switch.ofWord? word with
        | some s => parseFrom (value :: rest) (o.switchOn s)
        | none => .error (.unknown word)

/-- Reads a command line. -/
def parse (words : List Bytes) : Except Refusal Options := parseFrom words {}

/-- What a configuration becomes under the options. -/
def override (o : Options) (c : Config) : Config :=
  { peerAddress := if o.address.isEmpty then c.peerAddress else o.address
    bindAsServer := c.bindAsServer || o.bind
    interruptBased := c.interruptBased || o.interrupt
    transferTimeout := o.timeout.getD c.transferTimeout }

/-- How the tool is used. -/
def usage (program : Bytes) : Bytes :=
  Bytes.ofString "Usage: " ++ program.untilZero ++ Bytes.ofString (" [options]\n" ++
    "\nOptions:\n" ++
    "  --config <file>       Load link configuration from a YAML file\n" ++
    "  --address <a.b.c.d:p> Peer address\n" ++
    "  --bind                Listen for the peer instead of connecting\n" ++
    "  --interrupt           Advance the CPU loop from bit boundary to bit boundary\n" ++
    "  --timeout <ms>        Give up on a silent peer after this delay\n" ++
    "  --send <text>         Drive the clock and send the text\n" ++
    "  --count <n>           Stop after receiving n bytes\n" ++
    "  --save-state <file>   Write the link state on exit (.yml for YAML)\n" ++
    "  --verbose             Show debug messages\n" ++
    "  --help                Show this help\n")

/-- What is said about a refused command line, besides how the tool is used. -/
def Refusal.complaint : Refusal → Bytes
  | help => []
  | unknown word => Bytes.ofString "Unknown option: " ++ word.untilZero ++ [10]

end Options

end SerialLink.Tool
