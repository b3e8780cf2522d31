import LimitBook.Proofs.Registry.InPlace
import LimitBook.Replay

/-!
The two ways of replaying a log. Passing over refused lines and stopping at the first of them differ in nothing but
that: refused lines leave no trace, so the accepted ones alone have the same effect, and whoever stops has done what
the lines before the first refused one do.
-/

namespace LimitBook.Replay

/-- A line can be read as text. -/
def IsText (line : List UInt8) : Prop := ByteArray.IsValidUTF8 ⟨line.toArray⟩

/-- What a replay finds a line to be. -/
inductive Verdict where
  | unreadable
  | blank
  | accepted (report : Report) (next : Registry)
  | refused (error : BookError)

/-- A line is judged by the registry as it is when the line's turn comes. -/
def judge (registry : Registry) (line : List UInt8) : Verdict :=
  match lineText? line with
  | none => .unreadable
  | some text =>
    if text.isEmpty then .blank
    else
      match applyLine registry text with
      | .ok (report, next) => .accepted report next
      | .error error => .refused error

/-- The lines that are accepted when refused ones are passed over. -/
def accepted (registry : Registry) : List (List UInt8) → List (List UInt8)
  | [] => []
  | line :: lines =>
    match judge registry line with
    -- Nothing behind damage is replayed.
    | .unreadable => []
    | .blank => accepted registry lines
    | .accepted _ next => line :: accepted next lines
    | .refused _ => accepted registry lines

/-- One more line was accepted. -/
def tookIn (summary : Summary) (report : Report) : Summary :=
  ⟨summary.linesRead + 1, summary.eventsApplied + 1, summary.eventsRejected, summary.fills + report.fills.length⟩

/-- One more line was refused. -/
def passedOver (summary : Summary) : Summary :=
  ⟨summary.linesRead + 1, summary.eventsApplied, summary.eventsRejected + 1, summary.fills⟩

variable {policy : ErrorPolicy} {registry last left : Registry} {summary total : Summary} {line : List UInt8}
  {lines before after : List (List UInt8)} {error : BookError}

/-- A replay goes on from a line as it is judged. -/
theorem replayLines_cons (policy : ErrorPolicy) (line : List UInt8) (lines : List (List UInt8)) (summary : Summary)
    (registry : Registry) :
    replayLines policy (line :: lines) summary registry =
      match judge registry line with
      | .unreadable => (.error (.unreadableLog .notText), registry)
      | .blank => replayLines policy lines summary registry
      | .accepted report next => replayLines policy lines (tookIn summary report) next
      | .refused error =>
        match policy with
        | .halt => (.error error, registry)
        | .skip => replayLines .skip lines (passedOver summary) registry := by
  -- The line is told apart as the judgment does it: no text, blank, accepted or refused.
  simp only [replayLines, judge]
  cases lineText? line with
  | none => rfl
  | some text =>
    simp only
    by_cases blank : text.isEmpty = true
    · rw [if_pos blank, if_pos blank]
    · rw [if_neg blank, if_neg blank]
      cases applyLine registry text with
      | ok pair => rfl
      | error error => cases policy <;> rfl

/-- A replay of one part of a log goes on to the other unless it stops. -/
theorem replayLines_append (policy : ErrorPolicy) (before after : List (List UInt8)) (summary : Summary)
    (registry : Registry) :
    replayLines policy (before ++ after) summary registry =
      match replayLines policy before summary registry with
      | (.ok total, next) => replayLines policy after total next
      | (.error error, left) => (.error error, left) := by
  -- The summary and the registry vary along the lines before.
  induction before generalizing summary registry with
  | nil => rfl
  | cons line lines ih =>
    -- The first line is judged by itself, so it stops both or sends both on with the same lines behind it.
    rw [List.cons_append, replayLines_cons, replayLines_cons]
    cases judge registry line with
    | unreadable => rfl
    | blank => exact ih summary registry
    | accepted report next => exact ih _ next
    | refused error =>
      cases policy with
      | halt => rfl
      | skip => exact ih _ registry

/-- A line is refused after others of which none was, and they have left the registry so. -/
def RefusedAfter (lines : List (List UInt8)) (summary : Summary) (registry : Registry) (error : BookError)
    (left : Registry) : Prop :=
  ∃ before line after counted, lines = before ++ line :: after ∧
    replayLines .skip before summary registry = (.ok counted, left) ∧
    counted.eventsRejected = summary.eventsRejected ∧ judge left line = .refused error

/-- A line that is passed without a refusal may stand in front. -/
theorem RefusedAfter.cons {summary' : Summary} {registry' : Registry}
    (refused : RefusedAfter lines summary' registry' error left)
    (passes : ∀ others, replayLines .skip (line :: others) summary registry =
      replayLines .skip others summary' registry')
    (same : summary'.eventsRejected = summary.eventsRejected) :
    RefusedAfter (line :: lines) summary registry error left := by
  obtain ⟨before, other, after, counted, rfl, passed, unrefused, verdict⟩ := refused
  -- The same line is refused, with one more line before it.
  exact ⟨line :: before, other, after, counted, rfl, (passes before).trans passed, unrefused.trans same, verdict⟩

/-- What is refused before a line is refused first in all lines as well. -/
theorem RefusedAfter.append (refused : RefusedAfter before summary registry error left) :
    RefusedAfter (before ++ after) summary registry error left := by
  -- What stops the replay is not changed by lines behind it.
  obtain ⟨earlier, line, later, counted, rfl, passed, unrefused, verdict⟩ := refused
  exact ⟨earlier, line, later ++ after, counted, by simp, passed, unrefused, verdict⟩

end LimitBook.Replay
