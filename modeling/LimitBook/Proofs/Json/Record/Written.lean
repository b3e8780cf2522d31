import LimitBook.Proofs.Json.Draft
import LimitBook.Proofs.Json.Record

/-!
Records that were written and kept by a text. Each field is read off what the record itself has written for it, so a
record is found again if each of its fields is.
-/

namespace LimitBook.Json

/-- Members as a text keeps them. -/
def keptMembers (members : List (String × Value)) : List (String × Value) :=
  members.map fun (key, value) => (key, value.kept)

/-- Keeping members keeps their keys. -/
@[simp] theorem map_fst_keptMembers (members : List (String × Value)) :
    (keptMembers members).map Prod.fst = members.map Prod.fst := by
  simp [keptMembers, Function.comp_def]

/-- A scalar that is written in tokens that are read back. -/
structure Value.IsPlain (value : Value) : Prop where
  scalar : value.IsScalar
  readable : ∀ token ∈ value.tokens, token.IsReadable

section Plain

/-- An integer of two words is plain. -/
theorem isPlain_int {n : Int} (short : n.natAbs < 0x100000000000000000000000000000000) : (Value.int n).IsPlain :=
  ⟨trivial, List.forall_mem_singleton.mpr (Nat.lt_trans short (by decide : _ < Nat.pow 10 100))⟩

/-- A string is plain, whatever it holds. -/
theorem isPlain_str (content : String) : (Value.str content).IsPlain := ⟨trivial, List.forall_mem_singleton.mpr rfl⟩

/-- A truth value is plain. -/
theorem isPlain_bool (truth : Bool) : (Value.bool truth).IsPlain := ⟨trivial, List.forall_mem_singleton.mpr trivial⟩

/-- What may be absent is plain if it is plain when present. -/
theorem isPlain_option {α : Type} {codec : Codec α} (plain : ∀ a, (codec.write a).IsPlain) (a? : Option α) :
    (codec.option.write a?).IsPlain := by
  -- Nothing is written as the null value, and everything else as the codec writes it.
  cases a? with
  | none => exact ⟨trivial, List.forall_mem_singleton.mpr trivial⟩
  | some a => exact plain a

/-- A word is plain. -/
theorem isPlain_word (n : UInt64) : (Value.int n.toNat).IsPlain := by
  -- A word is within the bounds of plain numbers.
  have bound := n.toNat_lt
  exact isPlain_int (by omega)

end Plain

section Held

/-- An integer that a word holds is kept as it is. -/
theorem kept_int {n : Int} (held : IsHeld n) : (Value.int n).kept = .int n := if_pos held

/-- Every word is held. -/
theorem isHeld_word (n : UInt64) : IsHeld n.toNat := by
  -- A word is not negative, and below the upper bound.
  have bound := n.toNat_lt
  exact ⟨by omega, by omega⟩

/-- Every signed word is held. -/
theorem isHeld_signedWord (n : Int64) : IsHeld n.toInt := by
  -- A signed word is held whatever its sign.
  have lower := n.le_toInt
  have upper := n.toInt_lt
  exact ⟨by omega, by omega⟩

variable {β : Type}

/-- Words are kept, and read off as they are. -/
theorem Codec.word_ofValue_kept (n : UInt64) : word.ofValue (word.write n).kept = .ok n :=
  word_ofValue.mpr (kept_int (isHeld_word n))

/-- Signed words are kept, and read off as they are. -/
theorem Codec.signedWord_ofValue_kept (n : Int64) : signedWord.ofValue (signedWord.write n).kept = .ok n :=
  signedWord_ofValue.mpr (kept_int (isHeld_signedWord n))

/-- Words that stand for something else are kept, and read off as what they stand for. -/
theorem Codec.map_word_ofValue_kept {wrap : UInt64 → β} {unwrap : β → UInt64} (wrapped : ∀ b, wrap (unwrap b) = b)
    (unwrapped : ∀ n, unwrap (wrap n) = n) (b : β) :
    (word.map wrap unwrap).ofValue ((word.map wrap unwrap).write b).kept = .ok b :=
  (map_word_ofValue wrapped unwrapped).mpr (kept_int (isHeld_word (unwrap b)))

end Held

section Readable

/-- Items that are written in tokens that are read back are so with commas between them. -/
theorem readable_itemsTokens {items : List Value} (readable : ∀ item ∈ items, ∀ token ∈ item.tokens, token.IsReadable) :
    ∀ token ∈ Value.itemsTokens items, token.IsReadable := by
  match items with
  | [] => exact nofun
  | [item] => exact readable item List.mem_cons_self
  | item :: next :: items =>
    -- An item is followed by a comma, and then the next one comes.
    obtain ⟨first, others⟩ := List.forall_mem_cons.mp readable
    simp only [Value.itemsTokens, List.forall_mem_append, List.forall_mem_cons]
    exact ⟨first, trivial, readable_itemsTokens others⟩

/-- Members whose values are written in tokens that are read back are so with their keys. -/
theorem readable_membersTokens {members : List (String × Value)}
    (readable : ∀ member ∈ members, ∀ token ∈ member.2.tokens, token.IsReadable) :
    ∀ token ∈ Value.membersTokens members, token.IsReadable := by
  -- The keys and the marks between the values are read back in any case.
  match members with
  | [] => exact nofun
  | [(key, value)] =>
    simp only [Value.membersTokens, List.forall_mem_cons]
    exact ⟨rfl, trivial, readable _ List.mem_cons_self⟩
  | (key, value) :: next :: members =>
    -- A member is its key, a colon, its value and a comma, and then the next one comes.
    obtain ⟨first, others⟩ := List.forall_mem_cons.mp readable
    simp only [Value.membersTokens, List.cons_append, List.forall_mem_cons, List.forall_mem_append]
    exact ⟨rfl, trivial, first, trivial, readable_membersTokens others⟩

/-- An array is written in tokens that are read back if its items are. -/
theorem Value.readable_arr {items : List Value} (readable : ∀ item ∈ items, ∀ token ∈ item.tokens, token.IsReadable) :
    ∀ token ∈ (arr items).tokens, token.IsReadable := by
  -- The brackets and commas are readable, and the items are so by assumption.
  simp only [tokens, List.cons_append, List.forall_mem_cons, List.forall_mem_append]
  exact ⟨trivial, readable_itemsTokens readable, trivial, List.forall_mem_nil _⟩

/-- An object is written in tokens that are read back if its values are. -/
theorem Value.readable_obj {members : List (String × Value)}
    (readable : ∀ member ∈ members, ∀ token ∈ member.2.tokens, token.IsReadable) :
    ∀ token ∈ (obj members).tokens, token.IsReadable := by
  -- The brackets, colons, commas and keys are readable, and the values are so by assumption.
  simp only [tokens, List.cons_append, List.forall_mem_cons, List.forall_mem_append]
  exact ⟨trivial, readable_membersTokens readable, trivial, List.forall_mem_nil _⟩

end Readable

/-- The text of an object of plain members is read as the object with its members as they are kept. -/
theorem Value.parse?_text_plain {members : List (String × Value)} (plain : ∀ member ∈ members, member.2.IsPlain) :
    Value.parse? (Value.obj members).text = some (.obj (keptMembers members)) :=
  -- What is plain is a scalar and is readable.
  Value.parse?_text_obj (fun member isMember => (plain member isMember).scalar)
    (Value.readable_obj fun member isMember => (plain member isMember).readable)

namespace FieldFormat

variable {α : Type}

/-- What a field has written and a text has kept: nothing if the field is left out. -/
def written (field : FieldFormat α) (a : α) : List Value :=
  if field.isLeftOut a then [] else [(field.codec.write a).kept]

end FieldFormat

namespace Fields

variable {αs : List Type} {fields : Fields αs} {row row' : Row αs}

/-- Every field of a row is read off what another row has written for it. -/
def ReadsBack {αs : List Type} : Fields αs → Row αs → Row αs → Prop
  | nil, _, _ => True
  | cons field fields, (a, row), (a', row') => field.Reads (field.written a) a' ∧ fields.ReadsBack row row'

/-- All that a row writes has a property. -/
def Writes {αs : List Type} (P : Value → Prop) : Fields αs → Row αs → Prop
  | nil, _ => True
  | cons field fields, (a, row) => P (field.codec.write a) ∧ fields.Writes P row

/-- What all fields write is what all members hold. -/
theorem forall_mem_write {P : Value → Prop} (writes : fields.Writes P row) :
    ∀ member ∈ fields.write row, P member.2 := by
  induction fields with
  | nil => exact nofun
  | cons field fields ih =>
    obtain ⟨a, row⟩ := row
    simp only [write]
    split
    · -- A field that is left out has written nothing.
      exact ih writes.2
    · exact List.forall_mem_cons.mpr ⟨writes.1, ih writes.2⟩

/-- Only names of fields are written. -/
theorem map_fst_write_sublist (fields : Fields αs) (row : Row αs) :
    ((fields.write row).map Prod.fst).Sublist fields.names := by
  induction fields with
  | nil => exact .refl _
  | cons field fields ih =>
    obtain ⟨a, row⟩ := row
    -- The name of the first field comes first, and its aliases are not written at all.
    have others := (ih row).trans (List.sublist_append_right field.aliases _)
    simp only [write]
    split
    · exact others.cons _
    · exact others.cons_cons _

/-- Under the names of the first field stands what this field has written, and the other fields are not named so. -/
theorem given_write_cons {α : Type} {field : FieldFormat α} (distinct : (cons field fields).names.Nodup) (a : α)
    (row : Row αs) :
    given (keptMembers ((cons field fields).write (a, row))) field.names = field.written a ∧
      ∀ other, fields.Reads (keptMembers ((cons field fields).write (a, row))) other ↔
        fields.Reads (keptMembers (fields.write row)) other := by
  obtain ⟨-, -, apart⟩ := List.nodup_append.mp distinct
  have first : field.name ∈ field.names := List.mem_cons_self
  have notLater : field.name ∉ fields.names := fun later => apart _ first _ later rfl
  -- The other fields are written under names of their own.
  have nothing : given (keptMembers (fields.write row)) field.names = [] := by
    refine given_eq_nil fun member isMember named => ?_
    have key : member.1 ∈ (keptMembers (fields.write row)).map Prod.fst := List.mem_map_of_mem isMember
    rw [map_fst_keptMembers] at key
    exact apart _ named _ ((map_fst_write_sublist fields row).subset key) rfl
  simp only [write, FieldFormat.written]
  split
  · -- The field was left out, and only the other fields have written.
    exact ⟨nothing, fun other => Iff.rfl⟩
  · simp only [keptMembers, List.map_cons]
    -- The member of the field stands in front, and no other field goes by its name.
    rw [given_cons_of_mem first]
    exact ⟨congrArg _ nothing, fun other => reads_cons_of_notMem notLater⟩

/-- A row is read off what another one has written if each field is read off what this field has written. -/
theorem reads_write (distinct : fields.names.Nodup) :
    fields.Reads (keptMembers (fields.write row)) row' ↔ fields.ReadsBack row row' := by
  induction fields with
  | nil => rfl
  | cons field fields ih =>
    obtain ⟨a, row⟩ := row
    obtain ⟨a', row'⟩ := row'
    -- The first field reads what it has written, and the others what they have written.
    obtain ⟨own, others⟩ := given_write_cons distinct a row
    rw [Reads, ReadsBack, own, others, ih (List.nodup_append.mp distinct).2.1]

end Fields

end LimitBook.Json
