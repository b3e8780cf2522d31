import LimitBook.Program

/-! The program itself: it reads the named files and the standard input, and prints. -/

namespace LimitBook.Program

/-- The bytes of a file, if it can be read. -/
def readFileBytes? (name : String) : IO (Option (List UInt8)) := do
  try
    let bytes ← IO.FS.readBinFile name
    return some bytes.toList
  catch _ => return none

/-- The bytes of the standard input up to its end. -/
partial def readInput (stream : IO.FS.Stream) (taken : ByteArray) : IO ByteArray := do
  -- An empty read says that the input is at its end.
  let more ← stream.read 65536
  if more.isEmpty then return taken else readInput stream (taken ++ more)

/-- What is found under the name of a log. -/
def openLog (name : String) : IO Log := do
  match ← (IO.FS.Handle.mk name .read).toBaseIO with
  | .error _ => return .missing
  | .ok handle =>
    -- What opens and then cannot be read is a directory.
    match ← handle.readBinToEnd.toBaseIO with
    | .error _ => return .directory
    | .ok bytes => return .file bytes.toList

/-- The log that the options name: a file, or else the standard input. -/
def readLog (options : Options) : IO Log := do
  match options.input with
  | some name => openLog name
  | none => return .file (← readInput (← IO.getStdin) ByteArray.empty).toList

/-- Why there is nothing to print, as the error stream says it. -/
def Failure.text : Failure → String
  | usage => "usage: --config FILE [--input FILE] [--depth N] [--skip-errors] [--log-json]"
  | unreadableFile => "Error: a file cannot be read"
  | refused error => "Error: " ++ error.message

/-- Says why there is nothing to print; the exit status tells the kinds of failure apart. -/
def giveUp (failure : Failure) : IO UInt32 := do
  IO.eprintln failure.text
  return failure.exitStatus

/-- Prints what the replay shows, or says why there is nothing to show. -/
def execute (arguments : List String) : IO UInt32 := do
  match Options.parse? arguments with
  | none => giveUp .usage
  | some options =>
    match prepare (← readFileBytes? options.config) with
    | .error failure => giveUp failure
    | .ok (config, registry) =>
      -- Only now is the log opened, which may mean waiting for the standard input.
      match replayed options config registry (← readLog options) with
      | .error failure => giveUp failure
      | .ok text =>
        IO.print text
        return 0

end LimitBook.Program

/-- The program runs on its command-line arguments. -/
def main (arguments : List String) : IO UInt32 := LimitBook.Program.execute arguments
