import LimitBook.Proofs.Json.Record.Written

/-!
Round trips: what a codec writes of a thing is read back off the text as this thing. A record, a list or an optional
thing is read back if its parts are, so that a codec need not be looked at any closer than its fields.
-/

namespace LimitBook.Json

namespace Codec

/-- A thing is written in tokens that are read back, and what is written of it is read off a text as the thing. -/
structure Restores {α : Type} (codec : Codec α) (a : α) : Prop where
  readable : ∀ token ∈ (codec.write a).tokens, token.IsReadable
  reads : codec.read .text (.ofValue (codec.write a)) = .ok a

/-- The text of a thing within bounds is read back as the thing, and is the text of no other. -/
structure Faithful {α : Type} (codec : Codec α) (Fits : α → Prop) : Prop where
  parse_print : ∀ a, Fits a → codec.parse (codec.print a) = .ok a
  print_injective : ∀ a b, Fits a → Fits b → codec.print a = codec.print b → a = b

variable {α β : Type} {codec : Codec α} {a : α}

/-- What is read back off its draft is read back off its text. -/
theorem Restores.parse_print (restores : codec.Restores a) : codec.parse (codec.print a) = .ok a := by
  -- The text is read as the draft of the value that was written, and this draft as what was written.
  unfold parse print
  rw [Draft.ofText_text restores.readable]
  simp only [restores.reads, Bind.bind, Except.bind]
  rfl

/-- A codec that restores everything within bounds is faithful there. -/
theorem faithful {Fits : α → Prop} (restores : ∀ a, Fits a → codec.Restores a) : codec.Faithful Fits where
  parse_print a fits := (restores a fits).parse_print
  print_injective a b fits fits' same := by
    -- The one text is read back as both things.
    have first := (restores a fits).parse_print
    rw [same, (restores b fits').parse_print] at first
    exact (Except.ok.inj first).symm

section Scalars

/-- The same JSON for another type is read back if wrapping up undoes unwrapping. -/
theorem Restores.map {wrap : α → β} {unwrap : β → α} {b : β} (restores : codec.Restores (unwrap b))
    (back : wrap (unwrap b) = b) : (codec.map wrap unwrap).Restores b where
  -- Wrapping what was read leads back to what was unwrapped.
  readable := restores.readable
  reads := by
    show (codec.read .text (.ofValue (codec.write (unwrap b)))).map wrap = .ok b
    rw [restores.reads]
    exact congrArg _ back

variable {expected : String} {low high : Int} {ofInt : Int → α} {toInt : α → Int}

/-- An integer within bounds is read back. -/
theorem integer_restores (held : IsHeld (toInt a)) (lower : low ≤ toInt a) (upper : toInt a ≤ high)
    (back : ofInt (toInt a) = a) : (integer expected low high ofInt toInt).Restores a where
  -- A number within these bounds is written as it is, and one that is held is read as it was written.
  readable := by
    refine (isPlain_int ?_).readable
    unfold IsHeld at held
    omega
  reads := by
    have read : (integer expected low high ofInt toInt).ofValue (.int (toInt a)) = .ok a :=
      integer_ofValue.mpr ⟨toInt a, rfl, held, lower, upper, back⟩
    exact read

/-- An integer of two words within bounds is read back. -/
theorem wideInteger_restores (short : (toInt a).natAbs < 0x100000000000000000000000000000000) (lower : low ≤ toInt a)
    (upper : toInt a ≤ high) (back : ofInt (toInt a) = a) :
    (wideInteger expected low high ofInt toInt).Restores a where
  readable := (isPlain_int short).readable
  reads := by
    -- The sign and the size of an integer give the integer back.
    have signed_eq : signed (toInt a < 0) (toInt a).natAbs = toInt a := by
      simp only [signed, decide_eq_true_eq]
      omega
    have within : low ≤ toInt a ∧ toInt a ≤ high ∧ (decide (toInt a < 0) = true → low < 0) :=
      ⟨lower, upper, fun negative => Int.lt_of_le_of_lt lower (of_decide_eq_true negative)⟩
    show (if low ≤ signed (toInt a < 0) (toInt a).natAbs ∧ signed (toInt a < 0) (toInt a).natAbs ≤ high ∧
      (decide (toInt a < 0) = true → low < 0) then _ else _) = _
    rw [signed_eq, if_pos within, back]

/-- Every word is read back, whatever it is expected to be. -/
theorem integer_word_restores (expected : String) (n : UInt64) :
    (integer expected 0 0xFFFFFFFFFFFFFFFF (fun n => UInt64.ofNat n.toNat) (·.toNat)).Restores n := by
  -- A word is held, not negative, and told by its number.
  have held := isHeld_word n
  exact integer_restores held (Int.natCast_nonneg _) held.2 (by simp)

/-- Every word is read back. -/
theorem word_restores (n : UInt64) : word.Restores n := integer_word_restores _ n

/-- Every word that says how many there are is read back. -/
theorem capacity_restores (n : UInt64) : capacity.Restores n := integer_word_restores _ n

/-- Every signed word is read back. -/
theorem signedWord_restores (n : Int64) : signedWord.Restores n := by
  -- The bounds that are asked for are those of the signed words.
  have lower := n.le_toInt
  have upper := n.toInt_lt
  exact integer_restores (isHeld_signedWord n) (by omega) (by omega) (by simp)

/-- A number is read back if a word holds it, whatever it is expected to be. -/
theorem integer_nat_restores (expected : String) {n : Nat} (fits : n < UInt64.size) :
    (integer expected 0 0xFFFFFFFFFFFFFFFF Int.toNat Int.ofNat).Restores n := by
  -- Whatever fits a word is held.
  have held : IsHeld n := by
    unfold UInt64.size at fits
    exact ⟨by omega, by omega⟩
  exact integer_restores held (Int.natCast_nonneg n) held.2 (Int.toNat_natCast n)

/-- A number of events is read back if a word holds it. -/
theorem count_restores {n : Nat} (fits : n < UInt64.size) : count.Restores n := integer_nat_restores _ fits

/-- A number of things held is read back if a word holds it. -/
theorem size_restores {n : Nat} (fits : n < UInt64.size) : size.Restores n := integer_nat_restores _ fits

/-- A total is read back if two words hold it. -/
theorem wideTotal_restores {n : Nat} (fits : n < UInt64.size * UInt64.size) : wideTotal.Restores n := by
  -- The bound of two words is that of the wide integers.
  have upper : (n : Int) ≤ 0xFFFFFFFFFFFFFFFFFFFFFFFFFFFFFFFF := by
    unfold UInt64.size at fits
    omega
  exact wideInteger_restores fits (Int.natCast_nonneg n) upper (Int.toNat_natCast n)

/-- Every truth value is read back. -/
theorem bool_restores (truth : Bool) : bool.Restores truth := ⟨(isPlain_bool truth).readable, rfl⟩

/-- Every text is read back. -/
theorem string_restores (text : String) : string.Restores text := ⟨(isPlain_str text).readable, rfl⟩

/-- A choice is read back if its name leads to it. -/
theorem choice_restores {alternatives : List (String × α)} {name : α → String}
    (known : alternatives.lookup (name a) = some a) : (choice alternatives name).Restores a where
  -- The name is one of the alternatives, and so it leads back to what it names.
  readable := (isPlain_str _).readable
  reads := by
    show alternative alternatives (name a) = .ok a
    unfold alternative
    rw [known]

end Scalars

section Containers

/-- What may be absent is read back if it is read back when present, and is not written as absent then. -/
theorem option_restores {a? : Option α} (restores : ∀ a ∈ a?, codec.Restores a) (present : ∀ a, codec.write a ≠ .null) :
    codec.option.Restores a? := by
  cases a? with
  | none => exact ⟨List.forall_mem_singleton.mpr trivial, rfl⟩
  -- What is there is written by the codec itself.
  | some a =>
    have inner := restores a rfl
    refine ⟨inner.readable, ?_⟩
    -- The draft of anything but null goes on to the codec.
    have goesOn : codec.option.read .text (.ofValue (codec.write a)) =
        (codec.read .text (.ofValue (codec.write a))).map some := by
      have notNull := present a
      generalize codec.write a = value at notNull ⊢
      cases value <;> first | rfl | exact absurd rfl notNull
    show codec.option.read .text (.ofValue (codec.write a)) = _
    rw [goesOn, inner.reads]
    rfl

/-- A list is read back if all its items are. -/
theorem list_restores {as : List α} (restores : ∀ a ∈ as, codec.Restores a) : codec.list.Restores as where
  readable := by
    refine Value.readable_arr fun item member => ?_
    obtain ⟨a, isItem, rfl⟩ := List.mem_map.mp member
    exact (restores a isItem).readable
  reads := by
    -- The items are read one after another, each on its own.
    have items : (Draft.ofItems (as.map codec.write)).mapM (codec.read .text) = Except.ok as := by
      induction as with
      | nil => rfl
      | cons a as ih =>
        obtain ⟨first, others⟩ := List.forall_mem_cons.mp restores
        rw [List.map_cons, Draft.ofItems, List.mapM_cons, first.reads, ih others]
        rfl
    show ((Draft.ofItems (as.map codec.write)).mapM (codec.read .text) >>= fun as => _) = _
    rw [items]
    rfl

end Containers

end Codec

section Records

namespace FieldFormat

/-- A field is read back: off what it has written, or off nothing if it was left out. -/
def Restores {α : Type} (field : FieldFormat α) (a : α) : Prop :=
  if field.isLeftOut a then field.absent = some a else field.codec.Restores a

end FieldFormat

namespace Fields

/-- Every field of a row is read back. -/
def Restores {αs : List Type} : Fields αs → Row αs → Prop
  | nil, _ => True
  | cons field fields, (a, row) => field.Restores a ∧ fields.Restores row

/-- The slots that a written row fills: those of the fields that were not left out. -/
def filled {αs : List Type} : Fields αs → Row αs → Slots αs
  | nil, _ => ()
  | cons field fields, (a, row) => (if field.isLeftOut a then none else some a, fields.filled row)

variable {α : Type} {αs : List Type} {field : FieldFormat α} {fields : Fields αs} {row : Row αs}
  {members : List (String × Value)}

/-- Members that do not name the first field leave its slot alone and go to the other fields. -/
theorem readMembers_cons_of_unnamed (source : Source) (unnamed : ∀ member ∈ members, member.1 ∉ field.names)
    (slot : Option α) (slots : Slots αs) :
    (cons field fields).readMembers source (Draft.ofMembers members) (slot, slots) =
      (fields.readMembers source (Draft.ofMembers members) slots).map fun slots => (slot, slots) := by
  -- The slots of the other fields vary along the members; the first field is given none of them.
  induction members generalizing slots with
  | nil => rfl
  | cons member members ih =>
    obtain ⟨key, value⟩ := member
    obtain ⟨first, others⟩ := List.forall_mem_cons.mp unnamed
    have notNamed : field.isNamed key = false := by simpa using mt FieldFormat.isNamed_iff.mp first
    simp only [Draft.ofMembers, readMembers, assign?, notNamed, Bool.false_eq_true, if_false]
    cases fields.assign? source key (.ofValue value) slots with
    | none => simp only [Option.map_none, isWhole_ofValue, if_true, ih others]
    | some outcome =>
      cases outcome with
      | error error => rfl
      | ok next => simp only [Option.map_some, Except.map, ih others]

/-- What a row has written fills the slots of its fields. -/
theorem readMembers_write (distinct : fields.names.Nodup) (restores : fields.Restores row) :
    fields.readMembers .text (Draft.ofMembers (fields.write row)) (Slots.empty αs) = .ok (fields.filled row) := by
  induction fields with
  | nil => rfl
  | cons field fields ih =>
    obtain ⟨a, row⟩ := row
    obtain ⟨own, others⟩ := restores
    obtain ⟨-, distinct', apart⟩ := List.nodup_append.mp distinct
    -- The other fields are written under names of their own.
    have unnamed : ∀ member ∈ fields.write row, member.1 ∉ field.names := fun member isMember named =>
      apart _ named _ ((map_fst_write_sublist fields row).subset (List.mem_map_of_mem isMember)) rfl
    have read := ih distinct' others
    unfold FieldFormat.Restores at own
    simp only [write, filled, Slots.empty]
    split
    · rw [readMembers_cons_of_unnamed .text unnamed, read]
      rfl
    · next kept =>
      -- The member of the first field stands in front and goes into its slot, which is still free.
      rw [if_neg kept] at own
      have named : field.isNamed field.name = true := FieldFormat.isNamed_iff.mpr List.mem_cons_self
      simp only [Draft.ofMembers, readMembers, assign?, named, if_true, own.reads, Except.map]
      rw [readMembers_cons_of_unnamed .text unnamed, read]
      rfl

/-- The slots that a row fills hold the row. -/
theorem fill_filled (restores : fields.Restores row) : fields.fill (fields.filled row) = .ok row := by
  induction fields with
  | nil => rfl
  | cons field fields ih =>
    obtain ⟨a, row⟩ := row
    obtain ⟨own, others⟩ := restores
    refine fill_cons.mpr ⟨?_, ih others⟩
    -- A field that was left out is what it is when it is absent.
    unfold FieldFormat.Restores at own
    split at own
    · next leftOut => rwa [if_pos leftOut]
    · next kept => rw [if_neg kept, Option.some_or]

/-- Everything that a row has written is spelled in tokens that are read back. -/
theorem readable_write (restores : fields.Restores row) :
    ∀ member ∈ fields.write row, ∀ token ∈ member.2.tokens, token.IsReadable := by
  -- A field writes nothing when it is skipped, and what it writes otherwise is readable by assumption.
  induction fields with
  | nil => exact nofun
  | cons field fields ih =>
    obtain ⟨a, row⟩ := row
    obtain ⟨own, others⟩ := restores
    unfold FieldFormat.Restores at own
    simp only [write]
    split
    · -- The field writes its value, which has to be readable then.
      exact ih others
    · next kept =>
      rw [if_neg kept] at own
      exact List.forall_mem_cons.mpr ⟨own.readable, ih others⟩

end Fields

/-- A record is read back if all its fields are. -/
theorem Codec.record_restores {α : Type} {αs : List Type} {name : String} {fields : Fields αs} {toRow : α → Row αs}
    {ofRow : Row αs → α} {a : α} (distinct : fields.names.Nodup) (back : ofRow (toRow a) = a)
    (restores : fields.Restores (toRow a)) : (Codec.record name fields toRow ofRow).Restores a where
  -- The members that are written fill every slot, and the slots give the row that was written.
  readable := Value.readable_obj (Fields.readable_write restores)
  reads := by
    show (fields.ofMembers .text (Draft.ofMembers (fields.write (toRow a))) true).map ofRow = .ok a
    unfold Fields.ofMembers
    rw [Fields.readMembers_write distinct restores]
    show (fields.fill (fields.filled (toRow a))).map ofRow = .ok a
    rw [Fields.fill_filled restores]
    exact congrArg _ back

end Records

end LimitBook.Json
