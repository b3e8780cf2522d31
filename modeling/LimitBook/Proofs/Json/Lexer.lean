import LimitBook.Json.Lexer
import LimitBook.Json.Value

/-!
Taking tokens off a text. What is written of a token is taken for this token, whatever follows it, as long as nothing
follows that would lengthen a number.
-/

namespace LimitBook.Json

section Numbers

/-- Rounding a number at most doubles it. -/
theorem round53_le (n : Nat) : round53 n ≤ 2 * n := by
  simp only [round53]
  split
  · omega
  · next long =>
    -- The unit is a power of two that is not above the number, and rounding adds one unit at most.
    have notZero : n ≠ 0 := by
      intro isZero
      simp [isZero] at long
    have unit_le : Nat.pow 2 (n.log2 + 1 - 53) ≤ n :=
      calc Nat.pow 2 (n.log2 + 1 - 53) ≤ Nat.pow 2 n.log2 := Nat.pow_le_pow_right (by decide) (by omega)
        _ ≤ n := Nat.log2_self_le notZero
    generalize Nat.pow 2 (n.log2 + 1 - 53) = unit at unit_le ⊢
    have whole : n / unit * unit ≤ n := Nat.div_mul_le_self n unit
    split
    · rw [Nat.add_mul, Nat.one_mul]
      omega
    · omega

/-- The leading digits that are kept make a word, and no more digits are dropped than there are. -/
theorem wholeDigits_bounds {digits : List Char} {start : Nat} (small : start < UInt64.size) :
    (wholeDigits digits start).1 < UInt64.size ∧ (wholeDigits digits start).2 ≤ digits.length := by
  induction digits generalizing start with
  | nil => exact ⟨small, Nat.le_refl _⟩
  | cons digit digits ih =>
    simp only [wholeDigits]
    split
    · next fits =>
      -- The digit is taken in, and one digit less is left.
      have bounds := ih fits
      rw [List.length_cons]
      omega
    · -- The word is full, and from here on digits are dropped.
      exact ⟨small, Nat.le_refl _⟩

/-- Integers of up to a hundred digits are far below the largest binary fraction. -/
theorem isTooLarge_eq_false {digits : List Char} (few : digits.length ≤ 100) : isTooLarge digits [] 0 = false := by
  have bounds : (wholeDigits digits 0).1 < UInt64.size ∧ (wholeDigits digits 0).2 ≤ digits.length :=
    wholeDigits_bounds (by decide)
  simp only [isTooLarge, fractionDigits]
  generalize wholeDigits digits 0 = kept at bounds ⊢
  obtain ⟨significand, dropped⟩ := kept
  obtain ⟨small, short⟩ := bounds
  -- A word times a hundredth power of ten, each of them rounded, is what there can be at most.
  have power : Nat.pow 10 dropped ≤ Nat.pow 10 100 := Nat.pow_le_pow_right (by decide) (Nat.le_trans short few)
  have below : round53 significand * round53 (Nat.pow 10 dropped) < binary64Limit :=
    calc round53 significand * round53 (Nat.pow 10 dropped)
      _ ≤ 2 * UInt64.size * (2 * Nat.pow 10 100) :=
        Nat.mul_le_mul (Nat.le_trans (round53_le _) (by omega))
          (Nat.le_trans (round53_le _) (Nat.mul_le_mul_left 2 power))
      _ < binary64Limit := by decide +kernel
  -- So few dropped digits are a power that is looked up, and the product decides.
  have scale : (dropped : Int) - (0 : Nat) + 0 = dropped := by omega
  have within : ¬(308 : Int) < dropped := by omega
  simp only [scale, Int.toNat_natCast, within, Nat.not_le_of_lt below, decide_false, Bool.or_self, Bool.and_false]

/-- The digits of a number spell it. -/
theorem digitsValue_toDigits (n : Nat) : digitsValue (Nat.toDigits 10 n) = n := by
  -- The value is folded digit by digit, as the standard library does it.
  rw [digitsValue]
  exact Nat.ofDigitChars_eq_foldl.symm.trans Nat.ofDigitChars_ten_toDigits

/-- The digits of a positive number do not start with a zero. -/
theorem head?_toDigits_ne {n : Nat} (positive : 0 < n) : (Nat.toDigits 10 n).head? ≠ some '0' := by
  -- The first digit is that of the number without its last one, down to a single digit.
  induction n using Nat.strongRecOn with
  | ind n ih =>
    by_cases single : n < 10
    · rw [Nat.toDigits_of_lt_base single, List.head?_cons, ne_eq, Option.some.injEq, Nat.digitChar_eq_zero]
      omega
    · obtain ⟨digit, digits, same⟩ := List.exists_cons_of_ne_nil (Nat.toDigits_ne_nil (n := n / 10) (b := 10))
      have first := ih (n / 10) (by omega) (by omega)
      rw [same] at first
      rw [Nat.toDigits_of_base_le (by decide) (by omega), same]
      exact first

/-- The digits of a number may stand before a point. -/
theorem areWhole_toDigits (n : Nat) : areWhole (Nat.toDigits 10 n) = true := by
  have some_digit : (Nat.toDigits 10 n).isEmpty = false := List.isEmpty_eq_false_iff.mpr Nat.toDigits_ne_nil
  rw [areWhole, some_digit]
  by_cases isZero : n = 0
  · subst isZero
    decide
  · -- A positive number does not start with a zero.
    have first := head?_toDigits_ne (Nat.pos_of_ne_zero isZero)
    simp [first]

/-- What stands behind digits is not one more of them. -/
def EndsDigits (rest : List Char) : Prop := ∀ c ∈ rest.head?, c.isDigit = false

/-- What stands behind a number without an exponent goes on neither with its digits nor with a fraction. -/
def EndsFraction (rest : List Char) : Prop := ∀ c ∈ rest.head?, c.isDigit = false ∧ c ≠ '.'

/-- What stands behind a number does not go on with it. -/
def EndsNumber (rest : List Char) : Prop := ∀ c ∈ rest.head?, c.isDigit = false ∧ c ≠ '.' ∧ c ≠ 'e' ∧ c ≠ 'E'

variable {rest : List Char}

/-- Nothing goes on with a number. -/
theorem endsNumber_nil : EndsNumber [] := nofun

/-- What does not go on with a fraction does not go on with its digits. -/
theorem EndsFraction.endsDigits (ends : EndsFraction rest) : EndsDigits rest := fun c first => (ends c first).1

/-- What does not go on with a number does not go on with its fraction. -/
theorem EndsNumber.endsFraction (ends : EndsNumber rest) : EndsFraction rest := fun c first =>
  ⟨(ends c first).1, (ends c first).2.1⟩

/-- Digits are taken up to their end. -/
theorem EndsDigits.span (ends : EndsDigits rest) {digits : List Char} (areDigits : ∀ c ∈ digits, c.isDigit) :
    (digits ++ rest).takeWhile Char.isDigit = digits ∧ (digits ++ rest).dropWhile Char.isDigit = rest := by
  -- All of the given characters are taken, and the rest does not start with another digit.
  rw [List.takeWhile_append_of_pos areDigits, List.dropWhile_append_of_pos areDigits]
  cases rest with
  | nil => simp
  | cons c cs => simp [ends c rfl]

/-- Where no fraction follows none is taken. -/
theorem EndsFraction.takeFraction? (ends : EndsFraction rest) : takeFraction? rest = some (none, rest) := by
  -- The rest does not start with a point, and so there is no fraction.
  cases rest with
  | nil => rfl
  | cons c cs =>
    obtain ⟨-, notPoint⟩ := ends c rfl
    simp [Json.takeFraction?, notPoint]

/-- A number that ends has no exponent. -/
theorem EndsNumber.takeExponent? (ends : EndsNumber rest) : takeExponent? rest = some (none, rest) := by
  -- The rest does not start with the letter of an exponent in either form.
  cases rest with
  | nil => rfl
  | cons c cs =>
    obtain ⟨-, -, notSmall, notCapital⟩ := ends c rfl
    simp [Json.takeExponent?, notSmall, notCapital]

/-- The minus of a negative integer is taken, and no digit is taken for one. -/
theorem takeMinus_intChars (negative : Bool) (magnitude : Nat) :
    takeMinus (intChars negative magnitude ++ rest) = (negative, Nat.toDigits 10 magnitude ++ rest) := by
  cases negative with
  | true => rfl
  | false =>
    obtain ⟨digit, digits, same⟩ := List.exists_cons_of_ne_nil (Nat.toDigits_ne_nil (n := magnitude) (b := 10))
    -- The first character is a digit, so there is no minus to be taken.
    have isDigit : digit.isDigit = true :=
      Nat.isDigit_of_mem_toDigits (b := 10) (n := magnitude) (by decide) (by decide) (by simp [same])
    have notMinus : digit ≠ '-' := by
      intro isMinus
      simp [isMinus] at isDigit
    simp [intChars, same, takeMinus, notMinus]

/-- A written integer is taken off a text that does not go on with it. -/
theorem takeNumber?_intChars (ends : EndsNumber rest) (negative : Bool) {magnitude : Nat}
    (short : magnitude < Nat.pow 10 100) :
    takeNumber? (intChars negative magnitude ++ rest) = some (.int negative magnitude, rest) := by
  have areDigits : ∀ c ∈ Nat.toDigits 10 magnitude, c.isDigit := fun c isDigit =>
    Nat.isDigit_of_mem_toDigits (by decide) (by decide) isDigit
  have few : (Nat.toDigits 10 magnitude).length ≤ 100 := (Nat.length_toDigits_le_iff (by decide) (by decide)).mpr short
  obtain ⟨taken, left⟩ := ends.endsFraction.endsDigits.span areDigits
  -- The digits are all there is of the number.
  simp only [takeNumber?, takeMinus_intChars, taken, left, areWhole_toDigits, if_true,
    ends.endsFraction.takeFraction?, Option.bind_eq_bind, Option.bind_some, ends.takeExponent?, Option.pure_def,
    Option.some.injEq, Prod.mk.injEq, and_true]
  -- Without a point and an exponent they spell an integer, which is not too large for a number.
  simp [numberToken, isTooLarge_eq_false few, digitsValue_toDigits]

end Numbers

section Strings

/-- The four digits of a control character's number give the number back. -/
theorem hexValue4?_hexDigit : ∀ n < 0x20, hexValue4? '0' '0' (hexDigit (n / 16)) (hexDigit (n % 16)) = some n := by
  decide

/-- An escape of one letter is read as its character. -/
theorem pieces?_shortEscape {letter c : Char} {rest : List Char} (short : shortEscape? letter = some c) :
    pieces? ('\\' :: letter :: rest) = (pieces? rest).map fun (pieces, rest) => (.char c :: pieces, rest) := by
  -- The letter of a code unit is none of those that stand for a character of their own.
  have notUnit : letter ≠ 'u' := by
    intro isUnit
    simp [isUnit, shortEscape?] at short
  rw [pieces?, short]
  · cases pieces? rest <;> rfl
  · exact fun _ _ _ _ _ isUnit _ => notUnit isUnit

/-- A written character is read as one piece, which stands for the character. -/
theorem pieces?_escapeChar (c : Char) (rest : List Char) :
    ∃ piece, (∀ pieces, joinPieces? (piece :: pieces) = (joinPieces? pieces).map (c :: ·)) ∧
      pieces? (escapeChar c ++ rest) = (pieces? rest).map fun (pieces, rest) => (piece :: pieces, rest) := by
  unfold escapeChar
  split
  case h_8 _ notQuote notBackslash _ _ _ _ _ =>
    split
    · next isControl =>
      -- The number of a control character is far below those of the units that come in pairs.
      have notTrailing : isTrailing c.toNat = false := by
        simp [isTrailing]
        omega
      have notLeading : isLeading c.toNat = false := by
        simp [isLeading]
        omega
      refine ⟨.unit c.toNat, fun pieces => ?_, ?_⟩
      · rw [joinPieces?.eq_def]
        simp [notTrailing, notLeading]
      · show pieces? ('\\' :: 'u' :: '0' :: '0' :: hexDigit (c.toNat / 16) :: hexDigit (c.toNat % 16) :: rest) = _
        rw [pieces?, hexValue4?_hexDigit c.toNat isControl]
        cases pieces? rest <;> rfl
    · next notControl =>
      -- Any other character stands for itself.
      refine ⟨.char c, fun _ => rfl, ?_⟩
      -- It is neither a quote nor a backslash, so none of the other readings applies.
      show pieces? (c :: rest) = _
      rw [pieces?, if_neg (not_or.mpr ⟨notControl, notBackslash⟩)]
      · exact notQuote
      · exact fun _ _ _ _ _ isBackslash _ => notBackslash isBackslash
      · exact fun _ _ isBackslash _ => notBackslash isBackslash
  -- The others have an escape of one letter.
  all_goals
    exact ⟨.char _, fun _ => rfl, pieces?_shortEscape rfl⟩

/-- The characters of a written string are read back up to its closing quote. -/
theorem pieces?_stringChars (cs rest : List Char) :
    ∃ pieces, pieces? (cs.flatMap escapeChar ++ '"' :: rest) = some (pieces, rest) ∧
      joinPieces? pieces = some cs := by
  induction cs with
  | nil => exact ⟨[], rfl, rfl⟩
  | cons c cs ih =>
    obtain ⟨pieces, read, joined⟩ := ih
    obtain ⟨piece, stands, readFirst⟩ := pieces?_escapeChar c (cs.flatMap escapeChar ++ '"' :: rest)
    -- The first piece stands for the first character, whatever pieces are behind it.
    refine ⟨piece :: pieces, ?_, ?_⟩
    · rw [List.flatMap_cons, List.append_assoc, readFirst, read]
      rfl
    · rw [stands, joined]
      rfl

end Strings

section Tokens

/-- A token that is read back as it is written. -/
def Token.IsReadable : Token → Prop
  | .int _ magnitude => magnitude < Nat.pow 10 100
  | .str content => content.isSome
  | .decimal .. => False
  | .tooLarge => False
  | .bad => False
  | _ => True

variable {rest : List Char} {token : Token}

/-- A token that a text starts with is cut off. -/
theorem tokens_cons {c : Char} {cs : List Char} (solid : isSpace c = false)
    (taken : takeToken? (c :: cs) = some (token, rest)) : tokens (c :: cs) = token :: tokens rest := by
  -- The text starts with no blank, so that the token is taken right here.
  rw [tokens, if_neg (by simp [solid])]
  split
  · next read =>
    obtain ⟨rfl, rfl⟩ := Prod.mk.inj (Option.some.inj (read.symm.trans taken))
    rfl
  · next read => simp [read] at taken

/-- An integer starts with a digit or a minus. -/
theorem intChars_eq_cons (negative : Bool) (magnitude : Nat) :
    ∃ c cs, intChars negative magnitude = c :: cs ∧ (c.isDigit = true ∨ c = '-') := by
  -- A sign comes first if there is one, and every number has at least one digit.
  cases negative with
  | true => exact ⟨'-', _, rfl, .inr rfl⟩
  | false =>
    obtain ⟨digit, digits, same⟩ := List.exists_cons_of_ne_nil (Nat.toDigits_ne_nil (n := magnitude) (b := 10))
    exact ⟨digit, digits, same, .inl (Nat.isDigit_of_mem_toDigits (by decide) (by decide)
      (same ▸ List.mem_cons_self))⟩

/-- A text that starts with a digit or a minus starts with a number, if it starts with any token. -/
theorem takeToken?_of_digit {c : Char} {cs : List Char} (first : c.isDigit = true ∨ c = '-') :
    takeToken? (c :: cs) = takeNumber? (c :: cs) := by
  rw [takeToken?]
  -- No other token starts like that.
  all_goals
    intro rest same
    obtain ⟨rfl, -⟩ := List.cons.inj same
    exact absurd first (by decide)

/-- Neither a digit nor a minus is a space. -/
theorem isSpace_of_digit {c : Char} (first : c.isDigit = true ∨ c = '-') : isSpace c = false := by
  -- Each of the four blanks is neither a digit nor a sign.
  rw [Bool.eq_false_iff]
  intro space
  simp only [isSpace, Bool.or_eq_true, beq_iff_eq] at space
  rcases space with ((rfl | rfl) | rfl) | rfl <;> exact absurd first (by decide)

/-- A mark that holds the parts of containers together. -/
def Token.IsMark (token : Token) : Prop :=
  token ∈ [openArray, closeArray, openObject, closeObject, comma, colon]

/-- Whether a token is a mark is settled by looking. -/
instance (token : Token) : Decidable token.IsMark := inferInstanceAs (Decidable (_ ∈ _))

/-- No mark goes on with a number. -/
theorem endsNumber_mark {mark : Token} (isMark : mark.IsMark) (rest : List Char) :
    EndsNumber (mark.chars ++ rest) := by
  -- No mark starts like the rest of a number.
  simp only [Token.IsMark, List.mem_cons, List.not_mem_nil, or_false] at isMark
  rcases isMark with rfl | rfl | rfl | rfl | rfl | rfl <;> exact fun c first => Option.some.inj first ▸ by decide

/-- A mark is cut off, whatever follows. -/
theorem tokens_mark {mark : Token} (isMark : mark.IsMark) (rest : List Char) :
    tokens (mark.chars ++ rest) = mark :: tokens rest := by
  -- Every mark is one character, which is no blank.
  simp only [Token.IsMark, List.mem_cons, List.not_mem_nil, or_false] at isMark
  rcases isMark with rfl | rfl | rfl | rfl | rfl | rfl <;> exact tokens_cons rfl rfl

/-- A written token is read back, with nothing left over. -/
theorem takeToken?_chars (readable : token.IsReadable) : takeToken? token.chars = some (token, []) := by
  -- A number is read back digit by digit and a string piece by piece; every other token has one spelling.
  cases token with
  | int negative magnitude =>
    obtain ⟨c, cs, same, first⟩ := intChars_eq_cons negative magnitude
    have taken := takeNumber?_intChars endsNumber_nil negative readable
    rw [List.append_nil] at taken
    show takeToken? (intChars negative magnitude) = _
    rw [same] at taken ⊢
    exact (takeToken?_of_digit first).trans taken
  | str content =>
    obtain ⟨content, rfl⟩ := Option.isSome_iff_exists.mp readable
    obtain ⟨pieces, read, joined⟩ := pieces?_stringChars content.toList []
    show (pieces? (content.toList.flatMap escapeChar ++ ['"'])).map _ = _
    simp only [read, Option.map_some, joined, String.ofList_toList]
  | decimal significand exponent => exact readable.elim
  | tooLarge => exact readable.elim
  | bad => exact readable.elim
  | bool value => cases value <;> rfl
  | _ => rfl

end Tokens

end LimitBook.Json
