import LimitBook.Format.Config
import LimitBook.Replay

/-! The command line: replay a log into the books of a configuration, then print every book. -/

namespace LimitBook.Program

/-- What the command line asks for. -/
structure Options where
  /-- The file that holds the configuration. -/
  config : String
  /-- The file that holds the log, instead of the standard input. -/
  input : Option String
  /-- How many ladder rows to show, instead of what the configuration says. -/
  depth : Option Nat
  /-- Go on after refused lines, whatever the configuration says. -/
  skipErrors : Bool
  /-- Write diagnostics as JSON. -/
  logJson : Bool
  deriving DecidableEq, Repr

/-- Options as far as they have been given. -/
structure Given where
  config : Option String
  input : Option String
  depth : Option Nat
  skipErrors : Bool
  logJson : Bool
  deriving DecidableEq, Repr

/-- The number that a text spells in decimal, at most this large. -/
def readNumber? (limit : Nat) (digits : List Char) : Option Nat :=
  -- The number is read exactly before it is compared, however many digits there are.
  if digits.isEmpty || !digits.all Char.isDigit then none
  else
    let n := Json.digitsValue digits
    if n ≤ limit then some n else none

/-- A number of ladder rows: a plus may lead, and it lies between one and the largest number. -/
def readDepth? (text : String) : Option Nat := do
  let digits := match text.toList with
    | '+' :: digits => digits
    | digits => digits
  let n ← readNumber? maxDepthLevels digits
  if n = 0 then none else some n

/-- A file name is not empty. -/
def readFile? (text : String) : Option String := if text.isEmpty then none else some text

/-- An option takes the next argument as its value unless that looks like an option; a lone dash does not. -/
def isValue (argument : String) : Bool := argument == "-" || argument.toList.head? != some '-'

/-- An option that takes a value is given; each at most once. -/
def setValue? (given : Given) (name value : String) : Option Given :=
  -- An option that was given before is refused like one that does not exist.
  if name = "--config" ∧ given.config.isNone then
    (readFile? value).map fun file => { given with config := some file }
  else if name = "--input" ∧ given.input.isNone then
    (readFile? value).map fun file => { given with input := some file }
  else if name = "--depth" ∧ given.depth.isNone then
    (readDepth? value).map fun ticks => { given with depth := some ticks }
  else none

/-- A switch is given; each at most once. -/
def setSwitch? (given : Given) (name : String) : Option Given :=
  if name = "--skip-errors" ∧ !given.skipErrors then some { given with skipErrors := true }
  else if name = "--log-json" ∧ !given.logJson then some { given with logJson := true }
  else none

/-- An argument's name and the value written behind an equals sign, if there is one. -/
def splitValue (argument : String) : String × Option String :=
  let cs := argument.toList
  -- The first equals sign counts, and the value may hold more of them.
  match cs.dropWhile (· != '=') with
  | _ :: value => (String.ofList (cs.takeWhile (· != '=')), some (String.ofList value))
  | [] => (argument, none)

/-- Arguments are taken in one after another; after two dashes nothing may come. -/
def readArguments? (given : Given) : List String → Option Given
  | [] => some given
  | argument :: arguments =>
    if argument = "--" then if arguments.isEmpty then some given else none
    else
      -- A value stands behind an equals sign or in the next argument; a switch takes none.
      match splitValue argument with
      | (name, some value) => do readArguments? (← setValue? given name value) arguments
      | (name, none) =>
        match setSwitch? given name, arguments with
        | some given, arguments => readArguments? given arguments
        | none, value :: arguments =>
          if isValue value then do readArguments? (← setValue? given name value) arguments else none
        | none, [] => none

/-- The options of a command line; the configuration must be named. -/
def Options.parse? (arguments : List String) : Option Options := do
  let given ← readArguments? ⟨none, none, none, false, false⟩ arguments
  return ⟨← given.config, given.input, given.depth, given.skipErrors, given.logJson⟩

/-- What is found under the name of a log. -/
inductive Log where
  /-- Nothing that can be opened. -/
  | missing
  /-- A directory, which opens like a file but cannot be read. -/
  | directory
  | file (bytes : List UInt8)
  deriving DecidableEq, Repr

/-- Why nothing is printed. -/
inductive Failure where
  /-- The arguments make no sense. -/
  | usage
  /-- A file cannot be read. -/
  | unreadableFile
  /-- The configuration or the log is refused. -/
  | refused (error : BookError)
  deriving DecidableEq, Repr

/-- The exit status of a failure. -/
def Failure.exitStatus : Failure → UInt32
  | usage => 2
  | unreadableFile => 1
  | refused _ => 1

/-- The bytes of a log. A log that opens counts as begun, so that failing to read it is a refusal. -/
def Log.contents : Log → Except Failure (List UInt8)
  | missing => .error .unreadableFile
  | directory => .error (.refused (.unreadableLog .directory))
  | file bytes => .ok bytes

/-- The totals of a book in one line. -/
def totalsLine (book : Book) : String :=
  let stats := book.stats
  "fills=" ++ stats.fillCount.repr ++ " executed=" ++ stats.executedQuantity.repr
    ++ " volume=" ++ stats.volume.repr ++ " last=" ++ stats.lastTradePrice.elim "-" Price.label
    ++ " digest=" ++ Digest.hex book.digest ++ "\n"

/-- A book as it is printed: a heading, its ladder, its totals, and a blank line. -/
def bookText (ticks : Nat) (book : Book) : String :=
  book.key.label ++ " next_sequence=" ++ decimal book.nextSequence ++ "\n" ++ (book.ladder ticks).render
    ++ totalsLine book ++ "\n"

/-- What a replay has done in one line. -/
def summaryLine (summary : Summary) : String :=
  "lines=" ++ summary.linesRead.repr ++ " applied=" ++ summary.eventsApplied.repr
    ++ " rejected=" ++ summary.eventsRejected.repr ++ " fills=" ++ summary.fills.repr ++ "\n"

/-- Bytes as text. -/
def textOf? (bytes : List UInt8) : Option String := String.fromUTF8? ⟨bytes.toArray⟩

/-- The settings that a configuration file holds, and the registry of fresh books that they describe. -/
def prepare (file : Option (List UInt8)) : Except Failure (TrackerConfig × Registry) := do
  let some text := file >>= textOf? | throw .unreadableFile
  let config ← (TrackerConfig.parse text).mapError .refused
  return (config, ← (Registry.ofConfig config).mapError .refused)

/-- What is printed once a log has been replayed; nothing is printed of a replay that was stopped. -/
def replayed (options : Options) (config : TrackerConfig) (registry : Registry) (log : Log) :
    Except Failure String := do
  let bytes ← log.contents
  -- The switch overrides a configuration that halts, and nothing overrides one that skips.
  let policy := if options.skipErrors then .skip else config.errorPolicy
  let (result, registry) := registry.replay policy bytes
  let summary ← result.mapError .refused
  let ticks := options.depth.getD config.depthLevels.toNat
  return String.join (registry.books.map (bookText ticks)) ++ summaryLine summary

/-- What is printed for a configuration and a log; the configuration is judged before the log is opened. -/
def run (options : Options) (config : Option (List UInt8)) (log : Log) : Except Failure String := do
  let (config, registry) ← prepare config
  replayed options config registry log

end LimitBook.Program
