import LimitBook.Proofs.Json.Codec
import LimitBook.Proofs.Json.Grammar

/-!
Reading written values. The tokens of a value make up the draft of this value, so its text holds exactly the value. As a
value of its own it is found again but for integers that no word holds.
-/

namespace LimitBook.Json

section Derivations

variable {tokens more : List Token}

/-- Items and further items behind a comma are items. -/
theorem Derives.items_append {items others : List Draft} (parts : Derives (.items items) tokens)
    (further : Derives (.items others) more) : Derives (.items (items ++ others)) (tokens ++ .comma :: more) := by
  -- The induction is on the later items, to which the earlier ones are put in front.
  generalize isItems : Phrase.items others = phrase at further
  induction further generalizing others with
  | item first =>
    obtain rfl := Phrase.items.inj isItems
    exact .nextItem parts first
  | @nextItem items' _ _ _ _ next ih =>
    obtain rfl := Phrase.items.inj isItems
    simpa using Derives.nextItem (ih rfl) next
  | _ => simp at isItems

/-- Members and further members behind a comma are members. -/
theorem Derives.members_append {members others : List (Draft × Draft)} (parts : Derives (.members members) tokens)
    (further : Derives (.members others) more) : Derives (.members (members ++ others)) (tokens ++ .comma :: more) := by
  -- The induction is on the later members, to which the earlier ones are put in front.
  generalize isMembers : Phrase.members others = phrase at further
  induction further generalizing others with
  | member named first =>
    obtain rfl := Phrase.members.inj isMembers
    exact .nextMember parts named first
  | nextMember _ named next ih _ =>
    obtain rfl := Phrase.members.inj isMembers
    simpa using Derives.nextMember (ih rfl) named next
  | _ => simp at isMembers

mutual

/-- The tokens of a value make up its draft. -/
theorem derives_value (value : Value) : Derives (.value (Draft.ofValue value)) value.tokens := by
  -- Containers with something in them are told by their parts, and everything else by one or two tokens.
  match value with
  | .arr [] => exact .emptyArray
  | .arr (item :: items) => exact .array (derives_items (item :: items) nofun)
  | .obj [] => exact .emptyObject
  | .obj (member :: members) => exact .object (derives_members (member :: members) nofun)
  | .null => exact .scalar rfl
  | .bool _ => exact .scalar rfl
  | .int _ => exact .scalar rfl
  | .decimal _ _ => exact .scalar rfl
  | .str _ => exact .scalar rfl

/-- The tokens of items make up their drafts. -/
theorem derives_items (items : List Value) (notEmpty : items ≠ []) :
    Derives (.items (Draft.ofItems items)) (Value.itemsTokens items) := by
  -- The first item is put in front of those behind it.
  match items with
  | [] => exact absurd rfl notEmpty
  | [item] => exact .item (derives_value item)
  | item :: next :: items =>
    exact (Derives.item (derives_value item)).items_append (derives_items (next :: items) nofun)

/-- The tokens of members make up their drafts. -/
theorem derives_members (members : List (String × Value)) (notEmpty : members ≠ []) :
    Derives (.members (Draft.ofMembers members)) (Value.membersTokens members) := by
  -- The first member is put in front of those behind it.
  match members with
  | [] => exact absurd rfl notEmpty
  | [(key, value)] => exact .member rfl (derives_value value)
  | (key, value) :: next :: members =>
    have first : Derives (.members [(.str key, Draft.ofValue value)]) (.str key :: .colon :: value.tokens) :=
      .member rfl (derives_value value)
    exact first.members_append (derives_members (next :: members) nofun)

end

end Derivations

/-- What is written of a value is a text of it. -/
theorem Draft.isText_text {value : Value} (readable : ∀ token ∈ value.tokens, token.IsReadable) :
    (Draft.ofValue value).IsText value.text := by
  -- The tokens of the value are laid out without blanks.
  refine ⟨value.tokens, derives_value value, ?_⟩
  rw [Value.text, String.toList_ofList]
  exact laid_chars readable

/-- A text whose tokens make up a value is a text of it. -/
theorem Draft.isText_of_derives {root : Draft} {text : String} (derives : Derives (.value root) (tokens text.toList)) :
    root.IsText text :=
  -- Whatever makes up a value holds no bad token, so that it is laid out in the text.
  ⟨tokens text.toList, derives, laid_tokens derives.bad_notMem⟩

/-- A text that is cut into the tokens of a value is a text of it. -/
theorem Draft.isText_of_cut (value : Value) {text : String} (cut : tokens text.toList = value.tokens) :
    (Draft.ofValue value).IsText text :=
  isText_of_derives (cut ▸ derives_value value)

/-- The text of a value holds the value whole and nothing else. -/
theorem Draft.ofText_text {value : Value} (readable : ∀ token ∈ value.tokens, token.IsReadable) :
    Draft.ofText value.text = (Draft.ofValue value, true) :=
  Draft.ofText_eq_iff.mpr (Draft.isText_text readable)

namespace Value

/-- A value as a text is kept: integers that no word holds are taken for fractions. -/
def kept : Value → Value
  | int n => if IsHeld n then int n else decimal n 0
  | value => value

/-- A value without parts. -/
def IsScalar : Value → Prop
  | arr _ => False
  | obj _ => False
  | _ => True

/-- A scalar is kept as it is found in a text. -/
theorem IsScalar.toValue?_ofValue {value : Value} (scalar : value.IsScalar) (limit : Nat) :
    (Draft.ofValue value).toValue? limit = some value.kept := by
  cases value with
  | arr items => exact scalar.elim
  | obj members => exact scalar.elim
  | int n =>
    -- The sign and the size of an integer give the integer back, and then its size decides whether a word holds it.
    have signed_eq : signed (n < 0) n.natAbs = n := by
      simp only [signed, decide_eq_true_eq]
      omega
    simp only [Draft.ofValue, Draft.toValue?, integer64?_eq, signed_eq, kept]
    by_cases held : IsHeld n <;> simp [held]
  | _ => rfl

/-- The members of a flat object are kept one by one. -/
theorem membersToValues?_ofMembers {members : List (String × Value)} (scalars : ∀ member ∈ members, member.2.IsScalar)
    (limit : Nat) :
    Draft.membersToValues? limit (Draft.ofMembers members) =
      some (members.map fun (key, value) => (key, value.kept)) := by
  induction members with
  | nil => rfl
  | cons member members ih =>
    -- A scalar opens no further level, so the limit on levels is not touched.
    obtain ⟨first, others⟩ := List.forall_mem_cons.mp scalars
    simp only [Draft.ofMembers, Draft.membersToValues?, first.toValue?_ofValue limit, ih others, Option.bind_eq_bind,
      Option.bind_some, Option.pure_def, List.map_cons]

/-- The text of a flat object is read as the object with its members as they are kept. -/
theorem parse?_text_obj {members : List (String × Value)} (scalars : ∀ member ∈ members, member.2.IsScalar)
    (readable : ∀ token ∈ (obj members).tokens, token.IsReadable) :
    parse? (obj members).text = some (.obj (members.map fun (key, value) => (key, value.kept))) := by
  -- The text is read as the draft of the object, and each member is kept as its value.
  simp only [parse?, Draft.ofText_text readable, Draft.ofValue, Draft.toValue?, depthLimit,
    membersToValues?_ofMembers scalars]
  rfl

end Value

end LimitBook.Json
