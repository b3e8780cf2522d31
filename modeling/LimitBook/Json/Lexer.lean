import LimitBook.Json.Number
import LimitBook.Json.Token

/-!
Cutting a JSON text into tokens. Each step takes the longest token off the front of the text, and the text ends
where no token starts. Main statement: every token takes up some text (`length_takeToken?`).
-/

namespace LimitBook.Json

/-- What may stand between tokens. -/
def isSpace (c : Char) : Bool := c == ' ' || c == '\t' || c == '\n' || c == '\r'

/-- The value of a hexadecimal digit. -/
def hexValue? (c : Char) : Option Nat :=
  if '0' ≤ c ∧ c ≤ '9' then some (c.toNat - '0'.toNat)
  else if 'a' ≤ c ∧ c ≤ 'f' then some (c.toNat - 'a'.toNat + 10)
  else if 'A' ≤ c ∧ c ≤ 'F' then some (c.toNat - 'A'.toNat + 10)
  else none

/-- The number that four hexadecimal digits spell. -/
def hexValue4? (a b c d : Char) : Option Nat := do
  return (((← hexValue? a) * 16 + (← hexValue? b)) * 16 + (← hexValue? c)) * 16 + (← hexValue? d)

/-- The character of a short escape. -/
def shortEscape? : Char → Option Char
  | '"' => some '"'
  | '\\' => some '\\'
  | '/' => some '/'
  | 'b' => some '\x08'
  | 'f' => some '\x0c'
  | 'n' => some '\x0a'
  | 'r' => some '\x0d'
  | 't' => some '\x09'
  | _ => none

/-- What a string is made of: characters, and 16-bit units given by number. -/
inductive Piece where
  | char (c : Char)
  | unit (n : Nat)
  deriving DecidableEq, Repr

/-- The pieces up to the closing quote, and what follows it. -/
def pieces? : List Char → Option (List Piece × List Char)
  | [] => none
  | '"' :: rest => some ([], rest)
  | '\\' :: 'u' :: a :: b :: c :: d :: rest => do
    let n ← hexValue4? a b c d
    let (pieces, rest) ← pieces? rest
    return (.unit n :: pieces, rest)
  | '\\' :: e :: rest => do
    let c ← shortEscape? e
    let (pieces, rest) ← pieces? rest
    return (.char c :: pieces, rest)
  | c :: rest =>
    -- Control characters must be escaped, and a lone backslash escapes nothing.
    if c.toNat < 0x20 ∨ c = '\\' then none
    else (pieces? rest).map fun (pieces, rest) => (.char c :: pieces, rest)

/-- The unit announces a character outside the basic plane. -/
def isLeading (n : Nat) : Bool := 0xD800 ≤ n && n ≤ 0xDBFF

/-- The unit completes a character outside the basic plane. -/
def isTrailing (n : Nat) : Bool := 0xDC00 ≤ n && n ≤ 0xDFFF

/-- The character of a leading and a trailing unit. -/
def pairedChar (leading trailing : Nat) : Char :=
  Char.ofNat (0x10000 + (leading - 0xD800) * 0x400 + (trailing - 0xDC00))

/-- The characters of a string, if each leading unit is followed by its trailing one and no other is. -/
def joinPieces? : List Piece → Option (List Char)
  | [] => some []
  | .char c :: pieces => (joinPieces? pieces).map (c :: ·)
  | .unit n :: pieces =>
    -- A unit of the basic plane is a character by itself.
    if isTrailing n then none
    else if isLeading n then
      match pieces with
      | .unit m :: pieces => if isTrailing m then (joinPieces? pieces).map (pairedChar n m :: ·) else none
      | _ => none
    else (joinPieces? pieces).map (Char.ofNat n :: ·)

/-- An integer from its sign and its size. -/
def signed (negative : Bool) (magnitude : Nat) : Int := if negative then -magnitude else magnitude

/-- A leading minus, and the rest. -/
def takeMinus : List Char → Bool × List Char
  | '-' :: rest => (true, rest)
  | cs => (false, cs)

/-- A leading sign of an exponent, and the rest. -/
def takeSign : List Char → Bool × List Char
  | '-' :: rest => (true, rest)
  | '+' :: rest => (false, rest)
  | cs => (false, cs)

/-- The digits after a point, if there is one; a point needs a digit. -/
def takeFraction? : List Char → Option (Option (List Char) × List Char)
  | '.' :: rest =>
    let digits := rest.takeWhile Char.isDigit
    if digits.isEmpty then none else some (some digits, rest.dropWhile Char.isDigit)
  | cs => some (none, cs)

/-- The exponent, if there is one; it needs a digit. -/
def takeExponent? : List Char → Option (Option Int × List Char)
  | [] => some (none, [])
  | c :: cs =>
    if c = 'e' ∨ c = 'E' then
      let (negative, rest) := takeSign cs
      let digits := rest.takeWhile Char.isDigit
      if digits.isEmpty then none
      else some (some (signed negative (digitsValue digits)), rest.dropWhile Char.isDigit)
    else some (none, c :: cs)

/-- The token of a number literal that is written out in parts. -/
def numberToken (negative : Bool) (whole : List Char) (fraction : Option (List Char)) (exponent : Option Int) :
    Token :=
  -- Digits behind the point are counted into the significand and taken off the exponent again.
  let behind := fraction.getD []
  let power := exponent.getD 0
  if isTooLarge whole behind power then .tooLarge
  else if fraction.isNone ∧ exponent.isNone then .int negative (digitsValue whole)
  else .decimal (signed negative (digitsValue (whole ++ behind))) (power - behind.length)

/-- Digits that may stand before the point: at least one, and no zero before others. -/
def areWhole (digits : List Char) : Bool := !digits.isEmpty && (digits.head? != some '0' || digits.length == 1)

/-- The longest number at the start of a text. -/
def takeNumber? (cs : List Char) : Option (Token × List Char) :=
  -- A number that breaks off behind its point or its exponent mark is no number at all.
  let (negative, cs) := takeMinus cs
  let whole := cs.takeWhile Char.isDigit
  if areWhole whole then do
    let (fraction, cs) ← takeFraction? (cs.dropWhile Char.isDigit)
    let (exponent, cs) ← takeExponent? cs
    return (numberToken negative whole fraction exponent, cs)
  else none

/-- The token that a text without leading space starts with, and what follows it. -/
def takeToken? : List Char → Option (Token × List Char)
  | '[' :: rest => some (.openArray, rest)
  | ']' :: rest => some (.closeArray, rest)
  | '{' :: rest => some (.openObject, rest)
  | '}' :: rest => some (.closeObject, rest)
  | ',' :: rest => some (.comma, rest)
  | ':' :: rest => some (.colon, rest)
  | 'n' :: 'u' :: 'l' :: 'l' :: rest => some (.null, rest)
  | 't' :: 'r' :: 'u' :: 'e' :: rest => some (.bool true, rest)
  | 'f' :: 'a' :: 'l' :: 's' :: 'e' :: rest => some (.bool false, rest)
  | '"' :: rest =>
    (pieces? rest).map fun (pieces, rest) => (.str ((joinPieces? pieces).map String.ofList), rest)
  | cs => takeNumber? cs

/-- A closed string leaves less text than it started with. -/
theorem length_pieces? {cs rest : List Char} {pieces : List Piece} (read : pieces? cs = some (pieces, rest)) :
    rest.length < cs.length := by
  -- Every case takes off at least one character before it goes on.
  fun_induction pieces? cs generalizing pieces rest with
  | case1 => simp at read
  | case2 => simp_all
  | case3 a b c d tail ih =>
    simp only [Option.bind_eq_bind, Option.bind_eq_some_iff, Option.pure_def, Option.some.injEq,
      Prod.mk.injEq] at read
    obtain ⟨_, _, ⟨_, inner⟩, more, _, rfl⟩ := read
    have := ih more
    simp only [List.length_cons] at this ⊢
    omega
  | case4 e tail _ ih =>
    simp only [Option.bind_eq_bind, Option.bind_eq_some_iff, Option.pure_def, Option.some.injEq,
      Prod.mk.injEq] at read
    obtain ⟨_, _, ⟨_, inner⟩, more, _, rfl⟩ := read
    have := ih more
    simp only [List.length_cons] at this ⊢
    omega
  | case5 => simp_all
  | case6 c tail _ _ _ _ ih =>
    simp only [Option.map_eq_some_iff, Prod.mk.injEq] at read
    obtain ⟨⟨_, inner⟩, more, _, rfl⟩ := read
    have := ih more
    simp only [List.length_cons]
    omega

/-- Taking off a minus adds no text. -/
theorem length_takeMinus (cs : List Char) : (takeMinus cs).2.length ≤ cs.length := by
  -- Either one character is gone or none is.
  unfold takeMinus
  split <;> simp

/-- Taking off a sign adds no text. -/
theorem length_takeSign (cs : List Char) : (takeSign cs).2.length ≤ cs.length := by
  -- Either one character is gone or none is.
  unfold takeSign
  split <;> simp

/-- Taking off a fraction adds no text. -/
theorem length_takeFraction? {cs rest : List Char} {digits : Option (List Char)}
    (read : takeFraction? cs = some (digits, rest)) : rest.length ≤ cs.length := by
  -- What is left behind the digits is a part of what followed the point.
  unfold takeFraction? at read
  split at read
  · next tail =>
    have := (List.dropWhile_sublist Char.isDigit (l := tail)).length_le
    simp only at read
    split at read <;> simp_all
    omega
  · simp_all

/-- Taking off an exponent adds no text. -/
theorem length_takeExponent? {cs rest : List Char} {exponent : Option Int}
    (read : takeExponent? cs = some (exponent, rest)) : rest.length ≤ cs.length := by
  -- What is left behind the digits is a part of what followed the sign.
  unfold takeExponent? at read
  split at read
  · simp_all
  · next c tail =>
    have signed := length_takeSign tail
    have digits := (List.dropWhile_sublist Char.isDigit (l := (takeSign tail).2)).length_le
    simp only at read
    split at read
    · split at read
      · simp at read
      · simp only [Option.some.injEq, Prod.mk.injEq] at read
        rw [← read.2, List.length_cons]
        omega
    · simp_all

/-- A number takes up at least one digit. -/
theorem length_takeNumber? {cs rest : List Char} {token : Token} (read : takeNumber? cs = some (token, rest)) :
    rest.length < cs.length := by
  -- No part adds text, and the digits before the point take up some.
  unfold takeNumber? at read
  simp only at read
  split at read
  · next whole =>
    simp only [Option.bind_eq_bind, Option.bind_eq_some_iff, Option.pure_def, Option.some.injEq,
      Prod.mk.injEq] at read
    obtain ⟨⟨fraction, behind⟩, isFraction, ⟨exponent, last⟩, isExponent, _, rfl⟩ := read
    have minus := length_takeMinus cs
    have fractionLength := length_takeFraction? isFraction
    have exponentLength := length_takeExponent? isExponent
    have parts := congrArg List.length
      (List.takeWhile_append_dropWhile (p := Char.isDigit) (l := (takeMinus cs).2))
    have some_digit : 0 < ((takeMinus cs).2.takeWhile Char.isDigit).length := by
      rw [List.length_pos_iff]
      intro none_there
      simp [areWhole, none_there] at whole
    rw [List.length_append] at parts
    simp only at fractionLength exponentLength ⊢
    omega
  · simp at read

/-- Every token takes up some text. -/
theorem length_takeToken? {cs rest : List Char} {token : Token} (read : takeToken? cs = some (token, rest)) :
    rest.length < cs.length := by
  -- Strings and numbers have lemmas of their own, and every other token is spelled out.
  unfold takeToken? at read
  split at read
  case h_10 tail =>
    simp only [Option.map_eq_some_iff, Prod.mk.injEq] at read
    obtain ⟨⟨_, inner⟩, more, _, rfl⟩ := read
    have := length_pieces? more
    simp only [List.length_cons]
    omega
  case h_11 => exact length_takeNumber? read
  all_goals
    simp only [Option.some.injEq, Prod.mk.injEq] at read
    rw [← read.2]
    simp only [List.length_cons]
    omega

/-- The tokens of a text, up to and with the first place where none starts. -/
def tokens : List Char → List Token
  | [] => []
  | c :: cs =>
    -- Nothing can be said about the text behind a place where no token starts.
    if isSpace c then tokens cs
    else
      match _read : takeToken? (c :: cs) with
      | some (token, rest) => token :: tokens rest
      | none => [.bad]
termination_by cs => cs.length
decreasing_by
  · simp
  · exact length_takeToken? _read

end LimitBook.Json
