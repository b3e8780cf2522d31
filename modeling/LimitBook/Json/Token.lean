/-! The smallest meaningful parts of a JSON text, and how each is written. -/

namespace LimitBook.Json

/-- The smallest meaningful parts of a JSON text. -/
inductive Token where
  | openArray
  | closeArray
  | openObject
  | closeObject
  | comma
  | colon
  | null
  | bool (value : Bool)
  /-- An integer literal with its sign and its digits' value. -/
  | int (negative : Bool) (magnitude : Nat)
  /-- A literal with a point or an exponent: a significand times a power of ten. -/
  | decimal (significand exponent : Int)
  /-- A literal that exceeds every finite binary fraction. -/
  | tooLarge
  /-- A string; one whose escapes do not spell characters has no content. -/
  | str (content : Option String)
  /-- Something that starts no token. -/
  | bad
  deriving DecidableEq, Repr

/-- A hexadecimal digit in lower case. -/
def hexDigit (n : Nat) : Char := Nat.digitChar n

/-- A character inside a string: quotes, backslashes and control characters are escaped. -/
def escapeChar (c : Char) : List Char :=
  match c with
  -- These have short escapes, and other controls are written by their numbers.
  | '"' => ['\\', '"']
  | '\\' => ['\\', '\\']
  | '\x08' => ['\\', 'b']
  | '\x09' => ['\\', 't']
  | '\x0a' => ['\\', 'n']
  | '\x0c' => ['\\', 'f']
  | '\x0d' => ['\\', 'r']
  | c =>
    if c.toNat < 0x20 then ['\\', 'u', '0', '0', hexDigit (c.toNat / 16), hexDigit (c.toNat % 16)] else [c]

/-- A string between its quotes. -/
def stringChars (s : String) : List Char := '"' :: s.toList.flatMap escapeChar ++ ['"']

/-- An integer in decimal. -/
def intChars (negative : Bool) (magnitude : Nat) : List Char :=
  if negative then '-' :: Nat.toDigits 10 magnitude else Nat.toDigits 10 magnitude

/-- A token as it is written; what stands for no value is written as nothing. -/
def Token.chars : Token → List Char
  | openArray => ['[']
  | closeArray => [']']
  | openObject => ['{']
  | closeObject => ['}']
  | comma => [',']
  | colon => [':']
  | null => ['n', 'u', 'l', 'l']
  | bool true => ['t', 'r', 'u', 'e']
  | bool false => ['f', 'a', 'l', 's', 'e']
  | int negative magnitude => intChars negative magnitude
  | decimal significand exponent =>
    intChars (significand < 0) significand.natAbs ++ 'e' :: intChars (exponent < 0) exponent.natAbs
  | str (some content) => stringChars content
  -- These cannot come from a value.
  | str none => []
  | tooLarge => []
  | bad => []

end LimitBook.Json
