import LimitBook.Announcement
import LimitBook.Registry
import LimitBook.Text

/-! Replaying a log, one announcement a line, into the books of a registry. -/

namespace LimitBook

/-- What a replay has done: lines that held something, events taken in, lines refused, trades made. -/
structure Summary where
  linesRead : Nat
  eventsApplied : Nat
  eventsRejected : Nat
  fills : Nat
  deriving DecidableEq, Repr

/-- Nothing has been replayed yet. -/
def Summary.empty : Summary := ⟨0, 0, 0, 0⟩

namespace Replay

/-- The byte that ends a line. -/
def lineFeed : UInt8 := 0x0A

/-- The lines of a log; a line feed at the very end starts no further line. -/
def splitLines : List UInt8 → List (List UInt8)
  | [] => []
  | byte :: bytes =>
    if byte = lineFeed then [] :: splitLines bytes
    else
      -- The byte belongs to the first line of what follows, or starts the last line.
      match splitLines bytes with
      | [] => [[byte]]
      | line :: lines => (byte :: line) :: lines

/-- The text of a line without blanks at its ends, carriage returns among them, if the line is text. -/
def lineText? (line : List UInt8) : Option String :=
  (String.fromUTF8? ⟨line.toArray⟩).map fun text => String.ofList (Text.trim text.toList)

/-- A line is an announcement that the registry takes in. -/
def applyLine (registry : Registry) (line : String) : Except BookError (Report × Registry) := do
  registry.apply (← Announcement.decodeLine line)

/--
Lines are replayed in order. What earlier lines did stays done when a later one stops the replay: one that is
not text always does, one that is refused does unless refusals are skipped.
-/
def replayLines (policy : ErrorPolicy) :
    List (List UInt8) → Summary → Registry → Except BookError Summary × Registry
  | [], summary, registry => (.ok summary, registry)
  | line :: lines, summary, registry =>
    match lineText? line with
    -- A line that is not text says that the source is damaged, which no policy passes over.
    | none => (.error (.unreadableLog .notText), registry)
    | some text =>
      -- Blank lines are not counted.
      if text.isEmpty then replayLines policy lines summary registry
      else
        let summary := { summary with linesRead := summary.linesRead + 1 }
        match applyLine registry text with
        | .ok (report, registry) =>
          let summary := { summary with
            eventsApplied := summary.eventsApplied + 1
            fills := summary.fills + report.fills.length }
          replayLines policy lines summary registry
        | .error error =>
          match policy with
          | .halt => (.error error, registry)
          | .skip =>
            replayLines policy lines { summary with eventsRejected := summary.eventsRejected + 1 } registry

end Replay

/-- A whole log is replayed; the registry is left as far as the replay got. -/
def Registry.replay (registry : Registry) (policy : ErrorPolicy) (log : List UInt8) :
    Except BookError Summary × Registry :=
  Replay.replayLines policy (Replay.splitLines log) .empty registry

end LimitBook
