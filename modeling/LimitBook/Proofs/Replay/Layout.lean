import LimitBook.Proofs.Replay

/-!
Replays line by line. A log in two parts is replayed part by part, and of a text only the lines that hold something
matter, without the blanks at their ends: how these lines are laid out changes neither the counts nor any book.
-/

namespace LimitBook

namespace Text

variable {cs pad : List Char}

/-- Blanks at the start of a line are not part of what it holds. -/
theorem trimStart_append (blanks : ∀ c ∈ pad, isBlank c = true) : trimStart (pad ++ cs) = trimStart cs :=
  List.dropWhile_append_of_pos blanks

/-- Blanks at the end of a line are not part of what it holds. -/
theorem trimEnd_append (blanks : ∀ c ∈ pad, isBlank c = true) : trimEnd (cs ++ pad) = trimEnd cs := by
  -- The blanks at the end stand in front when the text is turned around.
  unfold trimEnd
  rw [List.reverse_append, trimStart_append fun c member => blanks c (List.mem_reverse.mp member)]

/-- A line of blanks holds nothing. -/
theorem trimStart_of_blanks (blanks : ∀ c ∈ pad, isBlank c = true) : trimStart pad = [] := by
  -- Nothing is left behind the blanks.
  rw [← List.append_nil pad, trimStart_append blanks]
  rfl

/-- Blanks at either end of a line are not part of what it holds. -/
theorem trim_padded {left right : List Char} (before : ∀ c ∈ left, isBlank c = true)
    (after : ∀ c ∈ right, isBlank c = true) : trim (left ++ cs ++ right) = trim cs := by
  unfold trim
  rw [List.append_assoc, trimStart_append before]
  -- Either something is left of the line and the blanks stand behind it, or all of it is blank.
  have parts : trimStart (cs ++ right) = if (trimStart cs).isEmpty then trimStart right else trimStart cs ++ right :=
    List.dropWhile_append
  rw [parts]
  split
  · next nothing => rw [trimStart_of_blanks after, List.isEmpty_iff.mp nothing]
  · exact trimEnd_append after

/-- A line is what is left of it with blanks at either end. -/
theorem exists_padding (cs : List Char) : ∃ left right, (∀ c ∈ left, isBlank c = true) ∧
    (∀ c ∈ right, isBlank c = true) ∧ left ++ trim cs ++ right = cs := by
  refine ⟨cs.takeWhile isBlank, ((trimStart cs).reverse.takeWhile isBlank).reverse, ?_, ?_, ?_⟩
  · exact List.all_eq_true.mp List.all_takeWhile
  · intro c member
    exact List.all_eq_true.mp List.all_takeWhile c (List.mem_reverse.mp member)
  · -- The end of the line is the start of the line turned round.
    have ends : trim cs ++ ((trimStart cs).reverse.takeWhile isBlank).reverse = trimStart cs := by
      unfold trim trimEnd trimStart
      rw [← List.reverse_append, List.takeWhile_append_dropWhile, List.reverse_reverse]
    rw [List.append_assoc, ends]
    exact List.takeWhile_append_dropWhile

/-- A line that has been trimmed is trimmed no further. -/
theorem trim_trim (cs : List Char) : trim (trim cs) = trim cs := by
  -- What is left of a text has no blanks at its ends, so that trimming it again takes off nothing.
  obtain ⟨left, right, before, after, whole⟩ := exists_padding cs
  conv_rhs => rw [← whole, trim_padded before after]

/-- A line of blanks holds nothing. -/
theorem trim_of_blanks (blanks : ∀ c ∈ pad, isBlank c = true) : trim pad = [] := by
  -- With nothing but blanks in it, a text is used up before the trimming reaches its end.
  unfold trim
  rw [trimStart_of_blanks blanks]
  rfl

end Text

/-- The counts of two replays together. -/
def Summary.plus (summary more : Summary) : Summary :=
  ⟨summary.linesRead + more.linesRead, summary.eventsApplied + more.eventsApplied,
    summary.eventsRejected + more.eventsRejected, summary.fills + more.fills⟩

namespace Replay

/-- What two replays one after another come to: the error that stops one of them, or the counts of both together. -/
def together (first : Except BookError Summary × Registry)
    (second : Registry → Except BookError Summary × Registry) : Except BookError Summary × Registry :=
  match first with
  | (.error error, left) => (.error error, left)
  | (.ok counted, next) =>
    match second next with
    | (.error error, left) => (.error error, left)
    | (.ok more, last) => (.ok (counted.plus more), last)

/-- The bytes of a text. -/
def bytesOf (text : List Char) : List UInt8 := (String.ofList text).toUTF8.data.toList

/-- What a text holds: its lines without the blanks at their ends, as far as anything is left of them. -/
def bare (text : List Char) : List (List Char) := ((text.splitOn '\n').map Text.trim).filter (!·.isEmpty)

/-- Blanks within a line. -/
def Gap (cs : List Char) : Prop := ∀ c ∈ cs, Text.isBlank c = true ∧ c ≠ '\n'

/-- Whether characters are a gap is settled by looking at each of them. -/
instance (cs : List Char) : Decidable (Gap cs) :=
  List.decidableBAll (fun c => Text.isBlank c = true ∧ c ≠ '\n') cs

/-- A line starts behind this text. -/
def StartsLine (before : List Char) : Prop := before = [] ∨ ∃ front, before = front ++ ['\n']

/-- A line ends before this text. -/
def EndsLine (after : List Char) : Prop := after = [] ∨ ∃ rest, after = '\n' :: rest

/-- A text whose line feeds all follow a carriage return. -/
def withReturns (text : List Char) : List Char := text.flatMap fun c => if c = '\n' then ['\r', '\n'] else [c]

/-- Texts that differ in their layout only. -/
inductive Relaid : List Char → List Char → Prop
  | refl (text : List Char) : Relaid text text
  | symm {text other : List Char} (relaid : Relaid text other) : Relaid other text
  | trans {text middle other : List Char} (first : Relaid text middle) (second : Relaid middle other) :
    Relaid text other
  /-- A line of blanks is put in. -/
  | gap {before gap : List Char} (starts : StartsLine before) (isGap : Gap gap) (after : List Char) :
    Relaid (before ++ after) (before ++ (gap ++ '\n' :: after))
  /-- A line is padded at both ends. -/
  | padding {before left line right after : List Char} (starts : StartsLine before) (isLeft : Gap left)
    (isLine : '\n' ∉ line) (isRight : Gap right) (ends : EndsLine after) :
    Relaid (before ++ (line ++ after)) (before ++ (left ++ line ++ right ++ after))
  /-- The last line is ended. -/
  | ended (text : List Char) : Relaid text (text ++ ['\n'])
  /-- Every line feed is put behind a carriage return. -/
  | returns (text : List Char) : Relaid text (withReturns text)

variable {policy : ErrorPolicy} {registry : Registry} {summary : Summary} {text other line pad gap : List Char}

section Parts

/-- A replay that starts with some counts adds its own to them. -/
theorem replayLines_plus (policy : ErrorPolicy) (lines : List (List UInt8)) (counted summary : Summary)
    (registry : Registry) :
    replayLines policy lines (counted.plus summary) registry =
      together (.ok counted, registry) (replayLines policy lines summary) := by
  induction lines generalizing summary registry with
  | nil => rfl
  | cons line lines ih =>
    unfold together at ih ⊢
    simp only [replayLines_cons] at ih ⊢
    -- The counts of the first line may be added before or after those that were there.
    cases judge registry line with
    | unreadable => rfl
    | blank => exact ih summary registry
    -- A line that is taken in counts the same on top of any counts.
    | accepted report next =>
      have counts : tookIn (counted.plus summary) report = counted.plus (tookIn summary report) := by
        simp only [tookIn, Summary.plus, Nat.add_assoc]
      simp only [counts, ih]
    | refused error =>
      cases policy with
      | halt => rfl
      | skip =>
        have counts : passedOver (counted.plus summary) = counted.plus (passedOver summary) := by
          simp only [passedOver, Summary.plus, Nat.add_assoc]
        simp only [counts, ih]

/-- An empty line is blank. -/
theorem judge_nil (registry : Registry) : judge registry [] = .blank := by
  -- No bytes are the empty text, which is a blank line.
  have read : lineText? [] = some "" := by decide +kernel
  unfold judge
  rw [read]
  rfl

/-- The pieces between the line feeds of a log are its lines, and perhaps an empty piece behind the last of them. -/
theorem splitOn_eq (log : List UInt8) :
    log.splitOn lineFeed = splitLines log ∨ log.splitOn lineFeed = splitLines log ++ [[]] := by
  -- The empty log is one empty piece and no line.
  induction log with
  | nil => exact .inr rfl
  | cons byte bytes ih =>
    rw [List.splitOn_cons_eq_if_modifyHead]
    unfold splitLines
    by_cases feed : byte = lineFeed
    · rw [if_pos (beq_iff_eq.mpr feed), if_pos feed]
      exact ih.imp (congrArg _) (congrArg _)
    · rw [if_neg (mt beq_iff_eq.mp feed), if_neg feed]
      -- The byte joins the first piece, which is the first line unless there is none yet.
      rcases ih with same | further
      · rw [same]
        cases rest : splitLines bytes with
        | nil => exact absurd (same.trans rest) (List.splitOn_ne_nil _ _)
        | cons line lines => exact .inl rfl
      · rw [further]
        cases splitLines bytes with
        | nil => exact .inl rfl
        | cons line lines => exact .inr rfl

/-- A log is replayed piece by piece. -/
theorem replay_splitOn (registry : Registry) (policy : ErrorPolicy) (log : List UInt8) :
    registry.replay policy log = replayLines policy (log.splitOn lineFeed) .empty registry := by
  unfold Registry.replay
  rcases splitOn_eq log with same | further
  · rw [same]
  · rw [further, replayLines_append]
    -- The empty piece at the end is passed over.
    cases replayLines policy (splitLines log) .empty registry with
    | mk outcome next =>
      cases outcome with
      | error error => rfl
      | ok total =>
        simp only [replayLines_cons, judge_nil]
        rfl

/-- A log in two parts is replayed part by part. -/
theorem replay_parts (registry : Registry) (policy : ErrorPolicy) (log more : List UInt8) :
    registry.replay policy (log ++ lineFeed :: more) =
      together (registry.replay policy log) fun next => next.replay policy more := by
  -- The lines of the whole are the lines of both parts, and the first part is replayed first.
  simp only [replay_splitOn]
  rw [List.splitOn_append_cons_self, replayLines_append]
  unfold together
  cases replayLines policy (log.splitOn lineFeed) .empty registry with
  | mk outcome next =>
    cases outcome with
    | error error => rfl
    | ok total => exact replayLines_plus policy (more.splitOn lineFeed) total .empty next

end Parts

section Bytes

/-- The bytes of a text are those of its characters one after another. -/
theorem bytesOf_cons (c : Char) (text : List Char) : bytesOf (c :: text) = String.utf8EncodeChar c ++ bytesOf text := by
  -- The bytes of a text are the bytes of its characters, one after another.
  have whole : ∀ text, bytesOf text = text.flatMap String.utf8EncodeChar := by
    intro text
    unfold bytesOf
    rw [String.toUTF8_eq_toByteArray, String.toByteArray_ofList]
    exact List.toList_data_toByteArray
  rw [whole, whole, List.flatMap_cons]

/-- Only a line feed has the byte of a line feed in it. -/
theorem lineFeed_notMem_utf8EncodeChar {c : Char} (other : c ≠ '\n') : lineFeed ∉ String.utf8EncodeChar c := by
  -- The code of another character is another number.
  have apart : c.val.toNat ≠ 10 := fun same => other (Char.ext (UInt32.toNat_inj.mp same))
  have code : ∀ {n : Nat}, n < 256 → n ≠ 10 → lineFeed ≠ UInt8.ofNat n := by
    intro n small differs same
    have number := congrArg UInt8.toNat same
    rw [UInt8.toNat_ofNat_of_lt' small] at number
    exact differs number.symm
  -- Of several bytes each is larger, and a single byte is the number of its character.
  unfold String.utf8EncodeChar
  simp only
  split
  · simpa using code (by omega) apart
  · split
    · simp only [List.mem_cons, List.not_mem_nil, or_false, not_or]
      exact ⟨code (by omega) (by omega), code (by omega) (by omega)⟩
    · split
      · simp only [List.mem_cons, List.not_mem_nil, or_false, not_or]
        exact ⟨code (by omega) (by omega), code (by omega) (by omega), code (by omega) (by omega)⟩
      · simp only [List.mem_cons, List.not_mem_nil, or_false, not_or]
        exact ⟨code (by omega) (by omega), code (by omega) (by omega), code (by omega) (by omega),
          code (by omega) (by omega)⟩

/-- What is no line feed belongs to the first piece of what follows. -/
theorem splitOn_append {α : Type} [BEq α] [LawfulBEq α] {a : α} {front : List α} (whole : a ∉ front) (back : List α) :
    (front ++ back).splitOn a = (back.splitOn a).modifyHead (front ++ ·) := by
  -- In front of the first separator nothing is split off.
  induction front with
  | nil =>
    rw [List.nil_append]
    cases back.splitOn a <;> rfl
  | cons b front ih =>
    simp only [List.mem_cons, not_or] at whole
    rw [List.cons_append, List.splitOn_cons_eq_if_modifyHead, if_neg (by simpa using Ne.symm whole.1), ih whole.2]
    cases back.splitOn a <;> rfl

/-- The pieces of a text as bytes are the pieces of its bytes. -/
theorem splitOn_bytesOf (text : List Char) :
    (bytesOf text).splitOn lineFeed = (text.splitOn '\n').map bytesOf := by
  -- A line feed is one byte, and no other character has this byte among its own.
  induction text with
  | nil => rfl
  | cons c text ih =>
    rw [bytesOf_cons, List.splitOn_cons_eq_if_modifyHead]
    -- A line feed ends the piece, and any other character joins it.
    by_cases feed : c = '\n'
    · subst feed
      have byte : String.utf8EncodeChar '\n' = [lineFeed] := by decide
      rw [if_pos (beq_self_eq_true _), byte, List.singleton_append, List.splitOn_cons_eq_if_modifyHead,
        if_pos (beq_self_eq_true _), ih]
      rfl
    · rw [if_neg (mt beq_iff_eq.mp feed), splitOn_append (lineFeed_notMem_utf8EncodeChar feed), ih]
      cases text.splitOn '\n' with
      | nil => rfl
      | cons piece pieces => simp only [List.map_cons, List.modifyHead_cons, bytesOf_cons]

/-- The bytes of a text are read as the text, without the blanks at its ends. -/
theorem lineText?_bytesOf (text : List Char) : lineText? (bytesOf text) = some (String.ofList (Text.trim text)) := by
  -- The bytes were written for a text, and so they are read as this text again.
  have same : (⟨(bytesOf text).toArray⟩ : ByteArray) = (String.ofList text).toByteArray := rfl
  unfold lineText? String.fromUTF8?
  rw [same, dif_pos (String.ofList text).isValidUTF8]
  show some (String.ofList (Text.trim (String.ofList text).toList)) = _
  rw [String.toList_ofList]

/-- A line is judged by what is left of it without the blanks at its ends. -/
theorem judge_trim (registry : Registry) (text : List Char) :
    judge registry (bytesOf (Text.trim text)) = judge registry (bytesOf text) := by
  -- The text of a line is trimmed before it is judged.
  unfold judge
  rw [lineText?_bytesOf, lineText?_bytesOf, Text.trim_trim]

/-- A line of which nothing is left is blank. -/
theorem judge_of_trim_eq_nil (registry : Registry) (nothing : Text.trim text = []) :
    judge registry (bytesOf text) = .blank := by
  -- A line that is trimmed to nothing is judged as the empty line.
  rw [← judge_trim, nothing]
  exact judge_nil registry

/-- Lines are replayed like what is left of them. -/
theorem replayLines_trim (policy : ErrorPolicy) (lines : List (List Char)) (summary : Summary) (registry : Registry) :
    replayLines policy (lines.map bytesOf) summary registry =
      replayLines policy (((lines.map Text.trim).filter (!·.isEmpty)).map bytesOf) summary registry := by
  induction lines generalizing summary registry with
  | nil => rfl
  | cons line lines ih =>
    rw [List.map_cons, List.map_cons, replayLines_cons]
    by_cases nothing : Text.trim line = []
    · rw [nothing, judge_of_trim_eq_nil registry nothing]
      exact ih summary registry
    · -- Something is left of the line, and it is judged like the line.
      rw [List.filter_cons_of_pos (by simpa using nothing), List.map_cons, replayLines_cons, judge_trim]
      cases policy <;> simp only [ih]

/-- A text is replayed like what it holds. -/
theorem replay_bytesOf (registry : Registry) (policy : ErrorPolicy) (text : List Char) :
    registry.replay policy (bytesOf text) = replayLines policy ((bare text).map bytesOf) .empty registry := by
  -- The lines are split, trimmed, and left out if nothing remains.
  rw [replay_splitOn, splitOn_bytesOf, replayLines_trim]
  rfl

end Bytes

section Layout

/-- Two parts of a text hold what each of them holds. -/
theorem bare_parts (front back : List Char) : bare (front ++ '\n' :: back) = bare front ++ bare back := by
  -- The line feed between them is where the lines of the whole are split.
  unfold bare
  rw [List.splitOn_append_cons_self, List.map_append, List.filter_append]

/-- Nothing is held by nothing. -/
theorem bare_nil : bare [] = [] := rfl

/-- What a single line holds depends on what is left of it without the blanks at its ends. -/
theorem bare_line (whole : '\n' ∉ line) : bare line = [Text.trim line].filter (!·.isEmpty) := by
  -- A text without a line feed is one line.
  unfold bare
  rw [List.splitOn_eq_singleton whole]
  rfl

/-- A line that is padded holds what it held. -/
theorem bare_padded {left right : List Char} (isLeft : Gap left) (whole : '\n' ∉ line) (isRight : Gap right) :
    bare (left ++ line ++ right) = bare line := by
  -- The gaps hold no line feed either, so that the padded text is still one line.
  have still : '\n' ∉ left ++ line ++ right := by
    simp only [List.mem_append, not_or]
    exact ⟨⟨fun member => (isLeft _ member).2 rfl, whole⟩, fun member => (isRight _ member).2 rfl⟩
  rw [bare_line still, bare_line whole, Text.trim_padded (fun c member => (isLeft c member).1)
    fun c member => (isRight c member).1]

/-- A gap holds nothing. -/
theorem bare_gap (isGap : Gap gap) : bare gap = [] := by
  -- A gap is one line, which is trimmed to nothing.
  rw [bare_line fun member => (isGap _ member).2 rfl, Text.trim_of_blanks fun c member => (isGap c member).1]
  rfl

/-- In front of a line's start the text holds what it holds. -/
theorem bare_of_startsLine {before : List Char} (starts : StartsLine before) (after : List Char) :
    bare (before ++ after) = bare before ++ bare after := by
  -- The text before is empty, or its last line is ended.
  rcases starts with rfl | ⟨front, rfl⟩
  · rfl
  · rw [List.append_assoc, List.singleton_append, bare_parts, bare_parts, bare_nil, List.append_nil]

/-- Behind a line's end the text holds what it holds. -/
theorem bare_of_endsLine {after : List Char} (ends : EndsLine after) (before : List Char) :
    bare (before ++ after) = bare before ++ bare after := by
  -- The text behind is empty, or ends the last line first.
  rcases ends with rfl | ⟨rest, rfl⟩
  · rw [List.append_nil, bare_nil, List.append_nil]
  · have behind : bare ('\n' :: rest) = bare rest := bare_parts [] rest
    rw [bare_parts, behind]

/-- A carriage return in front of each line feed is a blank at the end of a line. -/
theorem bare_withReturns (whole : '\n' ∉ line) (text : List Char) :
    bare (line ++ withReturns text) = bare (line ++ text) := by
  -- The induction is on the text; the part of its first line that has been passed varies along it.
  induction text generalizing line with
  | nil => rfl
  | cons c text ih =>
    have unfolded : withReturns (c :: text) = (if c = '\n' then ['\r', '\n'] else [c]) ++ withReturns text := rfl
    rw [unfolded]
    split
    · next feed =>
      -- The line ends here, and the next one starts with nothing passed.
      have nothing : Gap [] := by decide
      have passed : bare (line ++ ['\r']) = bare line := bare_padded nothing whole (by decide)
      have others : bare (withReturns text) = bare text := ih List.not_mem_nil
      have split : line ++ (['\r', '\n'] ++ withReturns text) = (line ++ ['\r']) ++ '\n' :: withReturns text := by
        simp
      rw [split, feed, bare_parts, bare_parts, passed, others]
    · next other =>
      have longer : '\n' ∉ line ++ [c] := by simpa using ⟨whole, Ne.symm other⟩
      have further := ih longer
      rwa [List.append_assoc, List.append_assoc] at further

/-- Texts that differ in their layout hold the same. -/
theorem Relaid.bare_eq (relaid : Relaid text other) : bare text = bare other := by
  -- Every change keeps the lines that are left when gaps, padding and blank lines are taken away.
  induction relaid with
  | refl text => rfl
  | symm _ ih => exact ih.symm
  | trans _ _ first second => exact first.trans second
  | gap starts isGap after =>
    rw [bare_of_startsLine starts, bare_of_startsLine starts, bare_parts, bare_gap isGap, List.nil_append]
  | padding starts isLeft isLine isRight ends =>
    rw [bare_of_startsLine starts, bare_of_startsLine starts, bare_of_endsLine ends, bare_of_endsLine ends,
      bare_padded isLeft isLine isRight]
  | ended text => rw [bare_parts, bare_nil, List.append_nil]
  | returns text => exact (bare_withReturns List.not_mem_nil text).symm

end Layout

/--
A log is replayed part by part, and how a text is laid out does not matter.

Replaying two parts with a line feed between them is replaying one and then the other: the first error ends both, and
else the counts add up. Texts that differ in gaps between their lines, in blanks at the ends of lines, in the end of
the last line or in the kind of line ends have the same outcome and leave the same registry.
-/
theorem replay_by_parts (registry : Registry) (policy : ErrorPolicy) :
    (∀ log more, registry.replay policy (log ++ lineFeed :: more) =
      together (registry.replay policy log) fun next => next.replay policy more) ∧
    ∀ text other, Relaid text other →
      registry.replay policy (bytesOf text) = registry.replay policy (bytesOf other) := by
  -- The parts are replayed one after another, and a text is replayed by its bare lines.
  refine ⟨replay_parts registry policy, fun text other relaid => ?_⟩
  rw [replay_bytesOf, replay_bytesOf, relaid.bare_eq]

/-- A registry of a single fresh book. -/
def lone : Registry := ⟨#[Book.fresh ⟨⟨1⟩, ⟨7⟩⟩], (∅ : Std.ExtTreeMap MarketId BookHandle).insert ⟨7⟩ ⟨0⟩⟩

/-- The announcement of a sale. -/
def sale : List Char :=
  ("\x7b\"type\":\"add\",\"market\":7,\"sequence\":0,\"timestamp\":1,\"user_id\":1,\"id\":1,\"side\":\"sell\"," ++
    "\"size\":5,\"price\":10\x7d").toList

/-- The announcement of a purchase that trades with the sale. -/
def purchase : List Char :=
  ("\x7b\"type\":\"add\",\"market\":7,\"sequence\":1,\"timestamp\":2,\"user_id\":2,\"id\":2,\"side\":\"buy\"," ++
    "\"size\":2,\"price\":11\x7d").toList

/-- Both announcements, in as little room as they need. -/
def narrow : List Char := [] ++ (sale ++ '\n' :: purchase)

/-- Both announcements behind a gap, the first of them padded, with a carriage return before every line feed. -/
def spread : List Char :=
  withReturns (['\t'] ++ '\n' :: ([' '] ++ sale ++ [' '] ++ '\n' :: purchase) ++ ['\n'])

/-- Both announcements are replayed alike however they are laid out, and one after the other. -/
theorem replay_by_parts_of_two :
    (lone.replay .halt (bytesOf sale)).1.toOption = some ⟨1, 1, 0, 0⟩ ∧ Relaid narrow spread ∧
      lone.replay .halt (bytesOf narrow) = lone.replay .halt (bytesOf spread) ∧
      lone.replay .halt (bytesOf sale ++ lineFeed :: bytesOf purchase) =
        together (lone.replay .halt (bytesOf sale)) fun next => next.replay .halt (bytesOf purchase) := by
  have blank : Gap [' '] := by decide
  have tab : Gap ['\t'] := by decide
  have whole : '\n' ∉ sale := by decide +kernel
  -- The sale is padded, a gap put in front of it, the last line ended, and then all line ends are changed.
  have padded : Relaid narrow ([] ++ ([' '] ++ sale ++ [' '] ++ '\n' :: purchase)) :=
    .padding (.inl rfl) blank whole blank (.inr ⟨purchase, rfl⟩)
  have moved : Relaid ([] ++ ([' '] ++ sale ++ [' '] ++ '\n' :: purchase))
      ([] ++ (['\t'] ++ '\n' :: ([' '] ++ sale ++ [' '] ++ '\n' :: purchase))) := .gap (.inl rfl) tab _
  have relaid : Relaid narrow spread := padded.trans (moved.trans ((Relaid.ended _).trans (.returns _)))
  obtain ⟨parts, alike⟩ := replay_by_parts lone .halt
  exact ⟨by decide +kernel, relaid, alike narrow spread relaid, parts _ _⟩

end Replay

end LimitBook
