import LimitBook.Json.Codec

/-!
Which values the codecs accept. What is read off a value determines the value, and a value of any other kind, or out
of range, is refused.
-/

namespace LimitBook.Json

section Steps

variable {ε α β : Type}

/-- Two steps succeed if the first does and then the second. -/
theorem bind_eq_ok {first : Except ε α} {second : α → Except ε β} {b : β} :
    first >>= second = .ok b ↔ ∃ a, first = .ok a ∧ second a = .ok b := by
  cases first <;> simp [Bind.bind, Except.bind]

/-- What is refused does not succeed. -/
@[simp] theorem throw_ne_ok {error : ε} {a : α} : (throw error : Except ε α) ≠ .ok a := nofun

end Steps

/-- An integer that a value can hold: one of a signed or an unsigned word. -/
def IsHeld (n : Int) : Prop := -0x8000000000000000 ≤ n ∧ n ≤ 0xFFFFFFFFFFFFFFFF

/-- Whether a value can hold an integer is settled by comparing. -/
instance (n : Int) : Decidable (IsHeld n) := inferInstanceAs (Decidable (_ ∧ _))

/-- An integer is found again if a value can hold it, and is taken for a fraction otherwise. -/
theorem integer64?_eq (n : Int) : integer64? (n < 0) n.natAbs = if IsHeld n then some n else none := by
  unfold integer64?
  -- Negative numbers are told by their distance to zero, which may be one larger than for the others.
  by_cases negative : n < 0
  · have fits : (0 < n.natAbs ∧ n.natAbs ≤ 0x8000000000000000) ↔ IsHeld n := by
      unfold IsHeld
      omega
    have back : -(n.natAbs : Int) = n := by omega
    simp only [negative, decide_true, if_true, fits, back]
  · have fits : n.natAbs < UInt64.size ↔ IsHeld n := by
      unfold UInt64.size IsHeld
      omega
    have back : (n.natAbs : Int) = n := by omega
    simp only [negative, decide_false, Bool.false_eq_true, if_false, fits, back]

namespace Codec

variable {α β : Type} {codec : Codec α} {value : Value} {a : α}

/-- Reading for another type is reading and wrapping up. -/
theorem map_ofValue {wrap : α → β} {unwrap : β → α} {b : β} :
    (codec.map wrap unwrap).ofValue value = .ok b ↔ ∃ a, codec.ofValue value = .ok a ∧ wrap a = b := by
  -- Reading stops or goes on as before, and what is read is wrapped.
  show (codec.ofValue value).map wrap = .ok b ↔ _
  cases codec.ofValue value <;> simp [Except.map]

/-- An optional thing is absent if the value is null, and is read as itself otherwise. -/
theorem option_ofValue {a : Option α} :
    codec.option.ofValue value = .ok a ↔
      value = .null ∧ a = none ∨ value ≠ .null ∧ ∃ b, codec.ofValue value = .ok b ∧ a = some b := by
  by_cases isNull : value = .null
  · subst isNull
    show Except.ok none = Except.ok a ↔ _
    simp [eq_comm]
  · -- Any other value goes on to the codec.
    have goesOn : codec.option.ofValue value = (codec.ofValue value).map some := by
      cases value <;> first | rfl | exact absurd rfl isNull
    rw [goesOn]
    cases codec.ofValue value <;> simp [Except.map, isNull, eq_comm]

/-- Integers are read off integers that a value can hold, within the bounds. -/
theorem integer_ofValue {expected : String} {low high : Int} {ofInt : Int → α} {toInt : α → Int} :
    (integer expected low high ofInt toInt).ofValue value = .ok a ↔
      ∃ n, value = .int n ∧ IsHeld n ∧ low ≤ n ∧ n ≤ high ∧ ofInt n = a := by
  cases value with
  | int n =>
    simp only [ofValue, integer, Draft.ofValue, integer64?_eq, Value.int.injEq]
    by_cases held : IsHeld n
    · by_cases within : low ≤ n ∧ n ≤ high
      · simp [held, within]
      · -- Out of bounds the integer is an invalid value.
        simp only [if_pos held, if_neg within, reduceCtorEq, false_iff]
        rintro ⟨_, rfl, -, lower, upper, -⟩
        exact within ⟨lower, upper⟩
    · simp [held]
  -- Any other value is not an integer.
  | _ => simp [ofValue, integer, Draft.ofValue]

/-- Wide integers are read like all others: no value can hold more than a word. -/
theorem wideInteger_ofValue {expected : String} {low high : Int} {ofInt : Int → α} {toInt : α → Int} :
    (wideInteger expected low high ofInt toInt).ofValue value = .ok a ↔
      ∃ n, value = .int n ∧ IsHeld n ∧ low ≤ n ∧ n ≤ high ∧ ofInt n = a :=
  show (integer expected low high ofInt toInt).ofValue value = .ok a ↔ _ from integer_ofValue

/-- Words are read off the integers that they are. -/
theorem word_ofValue {n : UInt64} : word.ofValue value = .ok n ↔ value = .int n.toNat := by
  -- The bounds that are asked for are those of the words.
  have bound : n.toNat < 18446744073709551616 := n.toNat_lt
  unfold word
  rw [integer_ofValue]
  constructor
  · rintro ⟨m, rfl, -, lower, upper, rfl⟩
    have small : m.toNat < UInt64.size := by unfold UInt64.size; omega
    rw [UInt64.toNat_ofNat_of_lt' small, Int.toNat_of_nonneg lower]
  · rintro rfl
    refine ⟨n.toNat, rfl, ⟨by omega, by omega⟩, by omega, by omega, ?_⟩
    simp

/-- Numbers that stand for something else are read off the integers that they are. -/
theorem map_word_ofValue {wrap : UInt64 → β} {unwrap : β → UInt64} (wrapped : ∀ b, wrap (unwrap b) = b)
    (unwrapped : ∀ n, unwrap (wrap n) = n) {b : β} :
    (word.map wrap unwrap).ofValue value = .ok b ↔ value = .int (unwrap b).toNat := by
  -- Wrapping and unwrapping lead back, so that one and the same word is meant.
  simp only [map_ofValue, word_ofValue]
  constructor
  · rintro ⟨n, isWord, rfl⟩
    rw [unwrapped, isWord]
  · intro isWord
    exact ⟨unwrap b, isWord, wrapped b⟩

/-- Signed words are read off the integers that they are. -/
theorem signedWord_ofValue {n : Int64} : signedWord.ofValue value = .ok n ↔ value = .int n.toInt := by
  -- The bounds that are asked for are those of the signed words.
  have lowest := n.le_toInt
  have highest := n.toInt_lt
  unfold signedWord
  rw [integer_ofValue]
  constructor
  · rintro ⟨m, rfl, -, lower, upper, rfl⟩
    rw [Int64.toInt_ofInt_of_le (by omega) (by omega)]
  · rintro rfl
    refine ⟨n.toInt, rfl, ⟨by omega, by omega⟩, by omega, by omega, ?_⟩
    simp

/-- Texts are read off strings. -/
theorem string_ofValue {text : String} : string.ofValue value = .ok text ↔ value = .str text := by
  cases value <;> simp [ofValue, string, Draft.ofValue]

/-- Truth values are read off truth values. -/
theorem bool_ofValue {b : Bool} : bool.ofValue value = .ok b ↔ value = .bool b := by
  cases value <;> simp [ofValue, bool, Draft.ofValue]

end Codec

end LimitBook.Json
