import LimitBook.Json.Draft

/-! Codecs: how a kind of thing is written as JSON, and how it is read back or refused. -/

namespace LimitBook.Json

/-- Where a draft comes from: straight from a text, or from a value that was read before. -/
inductive Source where
  | text
  | tree
  deriving DecidableEq, Repr

/-- A way to write things of a type as JSON values, and to read them off drafts. -/
structure Codec (α : Type) where
  write : α → Value
  read : Source → Draft → Except ReadError α

namespace Codec

/-- The same JSON for another type. -/
def map {α β : Type} (codec : Codec α) (wrap : α → β) (unwrap : β → α) : Codec β where
  write b := codec.write (unwrap b)
  read source draft := (codec.read source draft).map wrap

/-- The compact text of a thing. -/
def print {α : Type} (codec : Codec α) (a : α) : String := (codec.write a).text

/-- The thing that a text holds, if it holds that and nothing else. -/
def parse {α : Type} (codec : Codec α) (text : String) : Except ReadError α := do
  let (root, clean) := Draft.ofText text
  let a ← codec.read .text root
  -- What follows a readable value is looked at last.
  if clean then return a else throw .notJson

/-- The thing that a value holds. -/
def ofValue {α : Type} (codec : Codec α) (value : Value) : Except ReadError α :=
  codec.read .tree (.ofValue value)

/-- Integers within bounds that 64 bits can hold. -/
def integer {α : Type} (expected : String) (low high : Int) (ofInt : Int → α) (toInt : α → Int) :
    Codec α where
  write a := .int (toInt a)
  read _ draft :=
    match draft with
    | .int negative magnitude =>
      -- An integer beyond 64 bits has been rounded to a fraction before anybody asks for it.
      match integer64? negative magnitude with
      | some n =>
        if low ≤ n ∧ n ≤ high then .ok (ofInt n) else .error (.invalidValue (.int n) expected)
      | none => .error (.invalidType .fraction expected)
    | draft => .error (draft.mismatch expected)

/-- Unsigned words. -/
def word : Codec UInt64 := integer "u64" 0 0xFFFFFFFFFFFFFFFF (fun n => UInt64.ofNat n.toNat) (·.toNat)

/-- Unsigned words that say how many there are of something. -/
def capacity : Codec UInt64 := integer "usize" 0 0xFFFFFFFFFFFFFFFF (fun n => UInt64.ofNat n.toNat) (·.toNat)

/-- Numbers of events that fit a word. -/
def count : Codec Nat := integer "u64" 0 0xFFFFFFFFFFFFFFFF Int.toNat Int.ofNat

/-- Numbers of things held that fit a word. -/
def size : Codec Nat := integer "usize" 0 0xFFFFFFFFFFFFFFFF Int.toNat Int.ofNat

/-- Signed words. -/
def signedWord : Codec Int64 := integer "i64" (-0x8000000000000000) 0x7FFFFFFFFFFFFFFF Int64.ofInt Int64.toInt

/--
Integers within bounds beyond 64 bits. Straight from a text they are written out in digits and anything else
breaks the text; a value holds no integer beyond 64 bits.
-/
def wideInteger {α : Type} (expected : String) (low high : Int) (ofInt : Int → α) (toInt : α → Int) :
    Codec α where
  write a := .int (toInt a)
  read
    | .tree, draft => (integer expected low high ofInt toInt).read .tree draft
    | .text, .int negative magnitude =>
      let n := signed negative magnitude
      -- Unsigned integers take no minus at all.
      if low ≤ n ∧ n ≤ high ∧ (negative → low < 0) then .ok (ofInt n) else .error .notJson
    | .text, _ => .error .notJson

/-- Totals that fit two unsigned words. -/
def wideTotal : Codec Nat := wideInteger "u128" 0 0xFFFFFFFFFFFFFFFFFFFFFFFFFFFFFFFF Int.toNat Int.ofNat

/-- Truth values. -/
def bool : Codec Bool where
  write b := .bool b
  read
    | _, .bool b => .ok b
    | _, draft => .error (draft.mismatch "a boolean")

/-- Texts. -/
def string : Codec String where
  write s := .str s
  read
    | _, .str s => .ok s
    | _, draft => .error (draft.mismatch "a string")

/-- Things that may be absent, which is written as null. -/
def option {α : Type} (codec : Codec α) : Codec (Option α) where
  write
    | some a => codec.write a
    | none => .null
  read
    | _, .null => .ok none
    | source, draft => (codec.read source draft).map some

/-- Lists of things. -/
def list {α : Type} (codec : Codec α) : Codec (List α) where
  write as := .arr (as.map codec.write)
  read source draft :=
    match draft with
    | .arr items closed => do
      -- A bad item is named even if the array breaks off behind it.
      let as ← items.mapM (codec.read source)
      if closed then return as else throw .notJson
    | draft => .error (draft.mismatch "a sequence")

/-- The alternative of a name. -/
def alternative {α : Type} (alternatives : List (String × α)) (name : String) : Except ReadError α :=
  match alternatives.lookup name with
  | some a => .ok a
  | none => .error (.unknownVariant name (alternatives.map Prod.fst))

/--
A choice of names. A name may also stand as the only key of an object with nothing as its value, which reading a
value takes a little more loosely than reading a text. A text breaks where something else than a string stands
in the place of that key.
-/
def choice {α : Type} (alternatives : List (String × α)) (name : α → String) : Codec α where
  write a := .str (name a)
  read
    | _, .str name => alternative alternatives name
    -- A text is read as far as the first key and its value, and must then be at its end.
    | .text, .obj ((.str name, value) :: others) closed => do
      let a ← alternative alternatives name
      match value with
      | .null => if others.isEmpty ∧ closed then return a else throw .notJson
      | value => throw (value.mismatch "unit")
    | .text, _ => .error .notJson
    -- A value is counted before it is read, and an empty object is as good as nothing.
    | .tree, .obj [(.str name, value)] _ => do
      let a ← alternative alternatives name
      match value with
      | .null => return a
      | .obj [] _ => return a
      | value => throw (value.mismatch "unit")
    | .tree, .obj _ _ => .error (.invalidValue .map "map with a single key")
    | .tree, draft => .error (draft.mismatch "string or map")

end Codec

end LimitBook.Json
