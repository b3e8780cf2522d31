import LimitBook.Proofs.Json.Lexer
import Mathlib.Data.List.Chain
import Mathlib.Data.List.TakeWhile

/-!
The layout of texts. Tokens are laid out one after another, each in any spelling that it has, with blanks wherever two
of them meet. A text is cut into the tokens that are laid out in it, and every text that can be cut has such a layout.
-/

namespace LimitBook.Json

section Parts

variable {cs left : List Char}

/-- What is taken for digits are digits, up to where they end. -/
theorem digits_part (cs : List Char) (rest : List Char) (ends : EndsDigits rest) :
    (cs.takeWhile Char.isDigit ++ rest).takeWhile Char.isDigit = cs.takeWhile Char.isDigit ∧
      (cs.takeWhile Char.isDigit ++ rest).dropWhile Char.isDigit = rest :=
  ends.span fun _ member => List.mem_takeWhile_imp member

/-- Digits start with neither a minus nor a plus. -/
theorem head?_digits_ne {digits : List Char} (notEmpty : digits.isEmpty = false) (areDigits : ∀ c ∈ digits, c.isDigit)
    (rest : List Char) : (digits ++ rest).head? ≠ some '-' ∧ (digits ++ rest).head? ≠ some '+' := by
  -- A digit comes first, and a digit is no sign.
  obtain ⟨c, cs, rfl⟩ := List.exists_cons_of_ne_nil (List.isEmpty_eq_false_iff.mp notEmpty)
  have isDigit := areDigits c List.mem_cons_self
  constructor <;> rintro isSign <;> obtain rfl := Option.some.inj isSign <;> exact absurd isDigit (by decide)

/-- A minus, if there is one, is taken off whatever does not start with one. -/
theorem takeMinus_part (cs : List Char) :
    ∃ part, cs = part ++ (takeMinus cs).2 ∧
      ∀ rest, rest.head? ≠ some '-' → takeMinus (part ++ rest) = ((takeMinus cs).1, rest) := by
  -- The part is the sign if there is one, and is empty otherwise.
  unfold takeMinus
  split
  · exact ⟨['-'], rfl, fun rest _ => rfl⟩
  · refine ⟨[], rfl, fun rest unsigned => ?_⟩
    rw [List.nil_append]
    split
    · exact absurd rfl unsigned
    · rfl

/-- A sign, if there is one, is taken off whatever does not start with one. -/
theorem takeSign_part (cs : List Char) :
    ∃ part, cs = part ++ (takeSign cs).2 ∧
      ∀ rest, rest.head? ≠ some '-' → rest.head? ≠ some '+' → takeSign (part ++ rest) = ((takeSign cs).1, rest) := by
  -- The part is the sign if there is one, and is empty otherwise.
  unfold takeSign
  split
  · exact ⟨['-'], rfl, fun rest _ _ => rfl⟩
  · exact ⟨['+'], rfl, fun rest _ _ => rfl⟩
  · refine ⟨[], rfl, fun rest notMinus notPlus => ?_⟩
    rw [List.nil_append]
    split
    · exact absurd rfl notMinus
    · exact absurd rfl notPlus
    · rfl

/-- A fraction is taken off any text that it stands in front of, unless that goes on with it. -/
theorem takeFraction?_part {fraction : Option (List Char)} (taken : takeFraction? cs = some (fraction, left)) :
    ∃ part, cs = part ++ left ∧
      ∀ rest, EndsFraction rest → EndsDigits (part ++ rest) ∧ takeFraction? (part ++ rest) = some (fraction, rest) := by
  unfold takeFraction? at taken
  split at taken
  · next tail =>
    -- The part is the point with all digits behind it.
    simp only [Option.ite_none_left_eq_some, Option.some.injEq, Prod.mk.injEq] at taken
    obtain ⟨notEmpty, rfl, rfl⟩ := taken
    refine ⟨'.' :: tail.takeWhile Char.isDigit, by simp, fun rest ends => ⟨?_, ?_⟩⟩
    · exact fun c first => Option.some.inj first ▸ by decide
    · obtain ⟨digits, behind⟩ := digits_part tail rest ends.endsDigits
      simp only [List.cons_append, takeFraction?, digits, behind, if_neg notEmpty]
  · obtain ⟨rfl, rfl⟩ := Prod.mk.inj (Option.some.inj taken)
    exact ⟨[], rfl, fun rest ends => ⟨ends.endsDigits, ends.takeFraction?⟩⟩

/-- An exponent is taken off any text that it stands in front of, unless that goes on with it. -/
theorem takeExponent?_part {exponent : Option Int} (taken : takeExponent? cs = some (exponent, left)) :
    ∃ part, cs = part ++ left ∧
      ∀ rest, EndsNumber rest → EndsFraction (part ++ rest) ∧ takeExponent? (part ++ rest) = some (exponent, rest) := by
  unfold takeExponent? at taken
  split at taken
  · obtain ⟨rfl, rfl⟩ := Prod.mk.inj (Option.some.inj taken)
    exact ⟨[], rfl, fun rest ends => ⟨ends.endsFraction, ends.takeExponent?⟩⟩
  · next mark tail =>
    split at taken
    · next isMark =>
      simp only [Option.ite_none_left_eq_some, Option.some.injEq, Prod.mk.injEq, Bool.not_eq_true] at taken
      obtain ⟨notEmpty, rfl, rfl⟩ := taken
      obtain ⟨sign, parts, signed⟩ := takeSign_part tail
      -- The part is the mark with its sign and all digits behind it.
      have whole := List.takeWhile_append_dropWhile (p := Char.isDigit) (l := (takeSign tail).2)
      refine ⟨mark :: (sign ++ (takeSign tail).2.takeWhile Char.isDigit), ?_, fun rest ends => ⟨?_, ?_⟩⟩
      · rw [List.cons_append, List.append_assoc, whole, ← parts]
      · rintro c first
        obtain rfl : mark = c := Option.some.inj first
        rcases isMark with rfl | rfl <;> decide
      · obtain ⟨digits, behind⟩ := digits_part (takeSign tail).2 rest ends.endsFraction.endsDigits
        -- No digit is taken for a sign.
        obtain ⟨notMinus, notPlus⟩ := head?_digits_ne notEmpty (fun _ member => List.mem_takeWhile_imp member) rest
        have sign_taken := signed _ notMinus notPlus
        simp only [List.cons_append, List.append_assoc, takeExponent?, if_pos isMark, sign_taken, digits, behind,
          notEmpty, Bool.false_eq_true, if_false]
    · next notMark =>
      obtain ⟨rfl, rfl⟩ := Prod.mk.inj (Option.some.inj taken)
      exact ⟨[], rfl, fun rest ends => ⟨ends.endsFraction, ends.takeExponent?⟩⟩

/-- A number is taken off any text that it stands in front of, unless that goes on with it. -/
theorem takeNumber?_part {token : Token} (taken : takeNumber? cs = some (token, left)) :
    ∃ part, cs = part ++ left ∧ ∀ rest, EndsNumber rest → takeNumber? (part ++ rest) = some (token, rest) := by
  unfold takeNumber? at taken
  simp only at taken
  split at taken
  · next isWhole =>
    simp only [Option.bind_eq_bind, Option.bind_eq_some_iff, Option.pure_def, Option.some.injEq,
      Prod.mk.injEq] at taken
    obtain ⟨⟨fraction, behind⟩, isFraction, ⟨exponent, last⟩, isExponent, rfl, rfl⟩ := taken
    obtain ⟨minus, parts, minus_taken⟩ := takeMinus_part cs
    obtain ⟨fractionPart, fractionParts, fraction_taken⟩ := takeFraction?_part isFraction
    obtain ⟨exponentPart, exponentParts, exponent_taken⟩ := takeExponent?_part isExponent
    have whole := List.takeWhile_append_dropWhile (p := Char.isDigit) (l := (takeMinus cs).2)
    -- The parts of the number stand one behind the other, and none of them goes on with the one before.
    refine ⟨minus ++ (takeMinus cs).2.takeWhile Char.isDigit ++ fractionPart ++ exponentPart, ?_, fun rest ends => ?_⟩
    · simp only at fractionParts exponentParts
      rw [List.append_assoc, List.append_assoc, List.append_assoc, ← exponentParts, ← fractionParts, whole, ← parts]
    · obtain ⟨endsFraction, exponent_taken⟩ := exponent_taken rest ends
      obtain ⟨endsDigits, fraction_taken⟩ := fraction_taken _ endsFraction
      obtain ⟨digits, behind⟩ := digits_part (takeMinus cs).2 _ endsDigits
      have notEmpty : ((takeMinus cs).2.takeWhile Char.isDigit).isEmpty = false := by
        simp only [areWhole, Bool.and_eq_true, Bool.not_eq_true'] at isWhole
        exact isWhole.1
      have notMinus := (head?_digits_ne notEmpty (fun _ member => List.mem_takeWhile_imp member)
        (fractionPart ++ (exponentPart ++ rest))).1
      have minus_taken := minus_taken _ notMinus
      simp only [List.append_assoc, takeNumber?, minus_taken, digits, behind, isWhole, if_true, fraction_taken,
        exponent_taken, Option.bind_eq_bind, Option.bind_some, Option.pure_def]
  · -- Without whole digits there is no number.
    simp at taken

/-- What stands in front of a closing quote is taken off any text. -/
theorem pieces?_part {pieces : List Piece} (taken : pieces? cs = some (pieces, left)) :
    ∃ part, cs = part ++ left ∧ ∀ rest, pieces? (part ++ rest) = some (pieces, rest) := by
  fun_induction pieces? cs generalizing pieces left with
  -- The string ends here, with the quote.
  | case1 => simp at taken
  | case2 tail =>
    obtain ⟨rfl, rfl⟩ := Prod.mk.inj (Option.some.inj taken)
    exact ⟨['"'], rfl, fun rest => rfl⟩
  -- Four digits follow, and they are taken with the rest behind them.
  | case3 a b c d tail ih =>
    simp only [Option.bind_eq_bind, Option.bind_eq_some_iff, Option.pure_def, Option.some.injEq,
      Prod.mk.injEq] at taken
    obtain ⟨n, isNumber, ⟨pieces, left⟩, inner, rfl, rfl⟩ := taken
    obtain ⟨part, rfl, part_taken⟩ := ih inner
    refine ⟨'\\' :: 'u' :: a :: b :: c :: d :: part, rfl, fun rest => ?_⟩
    simp only [List.cons_append]
    rw [pieces?, isNumber, part_taken]
    rfl
  -- One letter follows the backslash, and it is taken with the rest behind it.
  | case4 e tail notUnit ih =>
    simp only [Option.bind_eq_bind, Option.bind_eq_some_iff, Option.pure_def, Option.some.injEq,
      Prod.mk.injEq] at taken
    obtain ⟨c, isEscape, ⟨pieces, left⟩, inner, rfl, rfl⟩ := taken
    obtain ⟨part, rfl, part_taken⟩ := ih inner
    refine ⟨'\\' :: e :: part, rfl, fun rest => ?_⟩
    simp only [List.cons_append]
    rw [pieces?_shortEscape isEscape, part_taken]
    rfl
  | case5 => simp at taken
  | case6 c tail notQuote notUnit notEscape plain ih =>
    simp only [Option.map_eq_some_iff, Prod.mk.injEq] at taken
    obtain ⟨⟨pieces, left⟩, inner, rfl, rfl⟩ := taken
    obtain ⟨part, rfl, part_taken⟩ := ih inner
    refine ⟨c :: part, rfl, fun rest => ?_⟩
    -- A quote would have ended the string, and a backslash would have been an escape.
    rw [List.cons_append, pieces?, if_neg plain, part_taken]
    · rfl
    · exact notQuote
    · exact fun _ _ _ _ _ isBackslash _ => plain (.inr isBackslash)
    · exact fun _ _ isBackslash _ => plain (.inr isBackslash)

/-- A number starts with a digit or a minus. -/
theorem exists_cons_of_takeNumber? {token : Token} (taken : takeNumber? cs = some (token, left)) :
    ∃ c tail, cs = c :: tail ∧ (c.isDigit = true ∨ c = '-') := by
  unfold takeNumber? at taken
  simp only at taken
  split at taken
  · next isWhole =>
    cases cs with
    | nil => simp [takeMinus, areWhole] at isWhole
    | cons c tail =>
      refine ⟨c, tail, rfl, ?_⟩
      by_contra neither
      obtain ⟨notDigit, notMinus⟩ := not_or.mp neither
      -- Without a minus in front the digits would have to start here.
      have unsigned : takeMinus (c :: tail) = (false, c :: tail) := by simp [takeMinus, notMinus]
      simp [unsigned, areWhole, notDigit] at isWhole
  · simp at taken

/-- A token is taken off any text that it stands in front of, unless that goes on with a number. -/
theorem takeToken?_part {token : Token} (taken : takeToken? cs = some (token, left)) :
    ∃ part, cs = part ++ left ∧ ∀ rest, EndsNumber rest → takeToken? (part ++ rest) = some (token, rest) := by
  unfold takeToken? at taken
  split at taken
  -- A string is taken up to its closing quote.
  case h_10 tail =>
    simp only [Option.map_eq_some_iff, Prod.mk.injEq] at taken
    obtain ⟨⟨pieces, left⟩, inner, rfl, rfl⟩ := taken
    obtain ⟨part, rfl, part_taken⟩ := pieces?_part inner
    refine ⟨'"' :: part, rfl, fun rest _ => ?_⟩
    rw [List.cons_append, takeToken?, part_taken]
    rfl
  -- A number is taken as far as it goes.
  case h_11 =>
    obtain ⟨part, rfl, part_taken⟩ := takeNumber?_part taken
    refine ⟨part, rfl, fun rest ends => ?_⟩
    have number_taken := part_taken rest ends
    obtain ⟨c, cs, starts, first⟩ := exists_cons_of_takeNumber? number_taken
    rw [starts] at number_taken ⊢
    rw [takeToken?_of_digit first, number_taken]
  -- Every other token is spelled out.
  all_goals
    obtain ⟨rfl, rfl⟩ := Prod.mk.inj (Option.some.inj taken)
    first
      | exact ⟨[_], rfl, fun rest _ => rfl⟩
      | exact ⟨[_, _, _, _], rfl, fun rest _ => rfl⟩
      | exact ⟨[_, _, _, _, _], rfl, fun rest _ => rfl⟩

end Parts

section Layouts

/-- Nothing but what may stand between tokens. -/
def IsBlank (cs : List Char) : Prop := ∀ c ∈ cs, isSpace c = true

/-- A spelling of a token: read by itself it is the token, with nothing left over. -/
def Spells (lexeme : List Char) (token : Token) : Prop := takeToken? lexeme = some (token, [])

/-- Tokens are laid out in a text: one spelling after another, with blanks before each of them and at the end. -/
inductive Laid : List Token → List Char → Prop
  | nil {blank : List Char} (isBlank : IsBlank blank) : Laid [] blank
  | cons {blank lexeme rest : List Char} {token : Token} {tokens : List Token} (isBlank : IsBlank blank)
      (spells : Spells lexeme token) (laid : Laid tokens rest) : Laid (token :: tokens) (blank ++ (lexeme ++ rest))

/-- Of any two tokens next to each other one is a mark, so that they are not taken for one token. -/
def Apart (tokens : List Token) : Prop := tokens.IsChain fun first second => first.IsMark ∨ second.IsMark

variable {blank lexeme cs rest : List Char} {token : Token} {tokens : List Token}

/-- Blanks are skipped. -/
theorem tokens_blank (isBlank : IsBlank blank) (rest : List Char) : Json.tokens (blank ++ rest) = Json.tokens rest := by
  -- Blanks are skipped one by one.
  induction blank with
  | nil => rfl
  | cons c cs ih =>
    obtain ⟨space, isBlank⟩ := List.forall_mem_cons.mp isBlank
    rw [List.cons_append, Json.tokens, if_pos space, ih isBlank]

/-- Blanks do not go on with a number. -/
theorem endsNumber_blank (isBlank : IsBlank blank) (ends : EndsNumber rest) : EndsNumber (blank ++ rest) := by
  -- What comes next is a blank, unless there is none; and no blank goes on with a number.
  cases blank with
  | nil => exact ends
  | cons c cs =>
    have space := isBlank c List.mem_cons_self
    simp only [isSpace, Bool.or_eq_true, beq_iff_eq] at space
    rintro c first
    obtain rfl := Option.some.inj first
    rcases space with ((rfl | rfl) | rfl) | rfl <;> decide

/-- No token starts with a space. -/
theorem Spells.exists_cons (spells : Spells lexeme token) : ∃ c cs, lexeme = c :: cs ∧ isSpace c = false := by
  -- Only a number is spelled in several ways, and its first character is a digit or a sign.
  unfold Spells takeToken? at spells
  split at spells
  case h_11 =>
    obtain ⟨c, cs, starts, first⟩ := exists_cons_of_takeNumber? spells
    exact ⟨c, cs, starts, isSpace_of_digit first⟩
  all_goals exact ⟨_, _, rfl, rfl⟩

/-- No number is taken for a mark. -/
theorem notMark_of_takeNumber? (taken : takeNumber? cs = some (token, rest)) : ¬token.IsMark := by
  -- The token is made from the parts of a number, and is a number or none at all.
  unfold takeNumber? at taken
  simp only at taken
  split at taken
  · -- The whole part starts with a digit.
    simp only [Option.bind_eq_bind, Option.bind_eq_some_iff, Option.pure_def, Option.some.injEq,
      Prod.mk.injEq] at taken
    obtain ⟨_, -, _, -, rfl, -⟩ := taken
    unfold numberToken
    simp only
    split
    · simp [Token.IsMark]
    · split <;> simp [Token.IsMark]
  · simp at taken

/-- A mark has one spelling. -/
theorem Spells.eq_chars (spells : Spells lexeme token) (isMark : token.IsMark) : lexeme = token.chars := by
  unfold Spells takeToken? at spells
  split at spells
  case h_10 =>
    obtain ⟨_, _, isString⟩ := Option.map_eq_some_iff.mp spells
    obtain ⟨rfl, -⟩ := Prod.mk.inj isString
    simp [Token.IsMark] at isMark
  case h_11 => exact absurd isMark (notMark_of_takeNumber? spells)
  -- Every other token is spelled as it is written.
  all_goals
    obtain ⟨rfl, rfl⟩ := Prod.mk.inj (Option.some.inj spells)
    rfl

/-- A spelling is cut off a text that does not go on with a number, and the spelling of a mark off any text. -/
theorem Spells.tokens_append (spells : Spells lexeme token) (ends : token.IsMark ∨ EndsNumber rest) :
    Json.tokens (lexeme ++ rest) = token :: Json.tokens rest := by
  -- A mark is spelled in one way whatever follows, and any other token ends where the rest begins.
  rcases ends with isMark | ends
  · rw [spells.eq_chars isMark, tokens_mark isMark]
  · obtain ⟨part, whole, part_taken⟩ := takeToken?_part spells
    rw [List.append_nil] at whole
    have taken := part_taken rest ends
    obtain ⟨c, cs, starts, solid⟩ := spells.exists_cons
    rw [← whole, starts] at taken
    rw [starts]
    exact tokens_cons solid taken

/-- What is laid out behind a token does not go on with a number, if a mark comes first or nothing at all. -/
theorem Laid.endsNumber (laid : Laid tokens cs) (marked : ∀ first ∈ tokens.head?, first.IsMark) : EndsNumber cs := by
  -- With blanks ahead of it or not, a mark is nothing that a number goes on with.
  cases laid with
  | nil isBlank =>
    rw [← List.append_nil cs]
    exact endsNumber_blank isBlank endsNumber_nil
  | @cons blank lexeme rest first _ isBlank spells _ =>
    have isMark := marked first rfl
    rw [spells.eq_chars isMark]
    exact endsNumber_blank isBlank (endsNumber_mark isMark rest)

/-- A text is cut into the tokens that are laid out in it. -/
theorem Laid.tokens_eq (laid : Laid tokens cs) (apart : Apart tokens) : Json.tokens cs = tokens := by
  induction laid with
  | @nil blank isBlank =>
    have skipped := tokens_blank isBlank []
    rwa [List.append_nil, Json.tokens] at skipped
  | @cons blank lexeme rest token tokens isBlank spells laid ih =>
    -- Either the token is a mark, or a mark follows it.
    have ends : token.IsMark ∨ EndsNumber rest := by
      by_cases isMark : token.IsMark
      · exact .inl isMark
      · refine .inr (laid.endsNumber fun first isFirst => ?_)
        cases tokens with
        | nil => simp at isFirst
        | cons next tokens =>
          obtain rfl := Option.some.inj isFirst
          exact (List.isChain_cons_cons.mp apart).1.resolve_left isMark
    rw [tokens_blank isBlank, spells.tokens_append ends, ih (List.IsChain.tail apart)]

/-- A token is laid out without blanks in front of it. -/
theorem Laid.unspaced (spells : Spells lexeme token) (laid : Laid tokens rest) :
    Laid (token :: tokens) (lexeme ++ rest) := .cons (List.forall_mem_nil _) spells laid

/-- Tokens that are read back are laid out by writing them one after another. -/
theorem laid_chars (readable : ∀ token ∈ tokens, token.IsReadable) : Laid tokens (tokens.flatMap Token.chars) := by
  -- Every token is laid behind the one before it without a blank between.
  induction tokens with
  | nil => exact .nil (List.forall_mem_nil _)
  | cons token tokens ih =>
    obtain ⟨first, others⟩ := List.forall_mem_cons.mp readable
    exact .unspaced (takeToken?_chars first) (ih others)

/-- A space more in front does not change what is laid out. -/
theorem Laid.space {c : Char} (space : isSpace c = true) (laid : Laid tokens cs) : Laid tokens (c :: cs) := by
  -- One more blank may stand ahead of the first token, or at the end.
  cases laid with
  | nil isBlank => exact .nil (List.forall_mem_cons.mpr ⟨space, isBlank⟩)
  | @cons blank _ _ _ _ isBlank spells laid =>
    have isBlank' : IsBlank (c :: blank) := List.forall_mem_cons.mpr ⟨space, isBlank⟩
    exact .cons isBlank' spells laid

/-- The tokens that a text is cut into are laid out in it, if it is cut to the end. -/
theorem laid_tokens (clean : .bad ∉ Json.tokens cs) : Laid (Json.tokens cs) cs := by
  -- The reading takes a blank, takes a token that is spelled by the part that it takes, or fails.
  fun_induction Json.tokens cs with
  | case1 => exact .nil (List.forall_mem_nil _)
  | case2 c cs space ih => exact (ih clean).space space
  -- The part that was taken is a token on its own, whatever stands behind it.
  | case3 c cs _ token rest taken ih =>
    obtain ⟨part, whole, part_taken⟩ := takeToken?_part taken
    have spells : Spells part token := by
      have alone := part_taken [] endsNumber_nil
      rwa [List.append_nil] at alone
    rw [whole]
    exact .unspaced spells (ih fun isBad => clean (List.mem_cons_of_mem _ isBad))
  | case4 => exact absurd List.mem_cons_self clean

end Layouts

end LimitBook.Json
