import LimitBook.Json.Draft
import LimitBook.Proofs.Json.Layout

/-!
The grammar of texts. It says which tokens make up which value, without looking at how a text is read, and reading finds
a whole value exactly where the grammar has one. What a value needs so that it is kept is said by its parts: everything
in it stands for something, and it does not nest too deep.
-/

namespace LimitBook.Json

/-- What tokens make up: a value, or the parts of a container, of which there is at least one. -/
inductive Phrase where
  | value (value : Draft)
  | items (items : List Draft)
  | members (members : List (Draft × Draft))

/-- The tokens make up the phrase. -/
inductive Derives : Phrase → List Token → Prop
  /-- Anything but a container is a single token. -/
  | scalar {token : Token} {value : Draft} (stands : Progress.scalar? token = some value) :
      Derives (.value value) [token]
  | emptyArray : Derives (.value (.arr [] true)) [.openArray, .closeArray]
  | array {items : List Draft} {tokens : List Token} (parts : Derives (.items items) tokens) :
      Derives (.value (.arr items true)) (.openArray :: tokens ++ [.closeArray])
  | emptyObject : Derives (.value (.obj [] true)) [.openObject, .closeObject]
  | object {members : List (Draft × Draft)} {tokens : List Token} (parts : Derives (.members members) tokens) :
      Derives (.value (.obj members true)) (.openObject :: tokens ++ [.closeObject])
  | item {value : Draft} {tokens : List Token} (first : Derives (.value value) tokens) : Derives (.items [value]) tokens
  /-- A comma stands between an item and those before it. -/
  | nextItem {items : List Draft} {value : Draft} {tokens more : List Token} (parts : Derives (.items items) tokens)
      (next : Derives (.value value) more) : Derives (.items (items ++ [value])) (tokens ++ .comma :: more)
  /-- A member is a string, a colon and a value. -/
  | member {content : Option String} {key value : Draft} {tokens : List Token}
      (named : Progress.scalar? (.str content) = some key) (first : Derives (.value value) tokens) :
      Derives (.members [(key, value)]) (.str content :: .colon :: tokens)
  | nextMember {members : List (Draft × Draft)} {content : Option String} {key value : Draft} {tokens more : List Token}
      (parts : Derives (.members members) tokens) (named : Progress.scalar? (.str content) = some key)
      (next : Derives (.value value) more) :
      Derives (.members (members ++ [(key, value)])) (tokens ++ .comma :: .str content :: .colon :: more)

section Tokens

variable {phrase : Phrase} {tokens more : List Token} {mark : Token}

/-- Tokens stay apart if a mark comes between them. -/
theorem Apart.append (apart : Apart tokens) (isMark : mark.IsMark) (apart' : Apart more) :
    Apart (tokens ++ mark :: more) := by
  -- Where the two parts meet the mark stands, on one side or on the other.
  refine List.isChain_append.mpr ⟨apart, ?_, fun _ _ first isFirst => ?_⟩
  · exact List.isChain_cons.mpr ⟨fun _ _ => .inl isMark, apart'⟩
  · obtain rfl := Option.some.inj isFirst
    exact .inr isMark

/-- No two tokens of a phrase are next to each other without a mark. -/
theorem Derives.apart (derives : Derives phrase tokens) : Apart tokens := by
  -- A mark stands between any two parts of a phrase.
  have alone : ∀ token, Apart [token] := List.isChain_singleton
  have none_there : Apart [] := List.isChain_nil
  have colon (content : Option String) {tokens : List Token} (apart : Apart tokens) :
      Apart (.str content :: .colon :: tokens) := (alone (.str content)).append (by decide) apart
  -- Each rule puts its parts together with marks between them.
  induction derives with
  | scalar => exact alone _
  | emptyArray => exact (alone .openArray).append (by decide) none_there
  | array _ ih => exact (none_there.append (by decide) ih).append (by decide) none_there
  | emptyObject => exact (alone .openObject).append (by decide) none_there
  | object _ ih => exact (none_there.append (by decide) ih).append (by decide) none_there
  | item _ ih => exact ih
  | nextItem _ _ ih ih' => exact ih.append (by decide) ih'
  | member _ _ ih => exact colon _ ih
  | nextMember _ _ _ ih ih' => exact ih.append (by decide) (colon _ ih')

/-- Nothing in a phrase starts no token. -/
theorem Derives.bad_notMem (derives : Derives phrase tokens) : Token.bad ∉ tokens := by
  -- No token of a derivation stands for what could not be read, as only scalars are free to choose.
  induction derives with
  | @scalar token _ stands =>
    rw [List.mem_singleton]
    rintro rfl
    simp [Progress.scalar?] at stands
  | _ => simp_all

/-- A phrase starts with a token that ends no container. -/
theorem Derives.exists_cons (derives : Derives phrase tokens) :
    ∃ first rest, tokens = first :: rest ∧ first ≠ .closeArray ∧ first ≠ .closeObject := by
  -- A phrase starts with a scalar or with an opening bracket, and this goes on through its first part.
  induction derives with
  | @scalar token _ stands =>
    refine ⟨token, [], rfl, ?_, ?_⟩ <;> rintro rfl <;> simp [Progress.scalar?] at stands
  | emptyArray => exact ⟨_, _, rfl, nofun, nofun⟩
  | array => exact ⟨_, _, rfl, nofun, nofun⟩
  | emptyObject => exact ⟨_, _, rfl, nofun, nofun⟩
  | object => exact ⟨_, _, rfl, nofun, nofun⟩
  | item _ ih => exact ih
  | nextItem _ _ ih =>
    obtain ⟨first, rest, rfl, opens⟩ := ih
    exact ⟨first, _, rfl, opens⟩
  | member => exact ⟨_, _, rfl, nofun, nofun⟩
  | nextMember _ _ _ ih =>
    obtain ⟨first, rest, rfl, opens⟩ := ih
    exact ⟨first, _, rfl, opens⟩

end Tokens

namespace Progress

section Complete

variable {phrase : Phrase} {tokens : List Token} {stack : List Frame}

/-- Where a value is due its first token starts it. -/
theorem step_value (stack : List Frame) (token : Token) :
    step (.reading stack .value) token = startValue stack token := by
  rcases stack with _ | ⟨_ | _ | _, stack⟩ <;> rfl

/-- Anything but a container is complete with its token. -/
theorem startValue_scalar {token : Token} {value : Draft} (stands : scalar? token = some value) (stack : List Frame) :
    startValue stack token = place value stack := by
  -- The brackets that open something are no scalars.
  unfold startValue
  split
  · simp [scalar?] at stands
  · simp [scalar?] at stands
  · rw [stands]

/-- Where a key is due the next token is taken for it. -/
theorem step_key (members : List (Draft × Draft)) (stack : List Frame) (token : Token) :
    step (.reading (.obj members :: stack) .key) token = startKey members stack token := by
  cases token <;> rfl

/-- The first item of an array is due like any other. -/
theorem step_firstItem (items : List Draft) (stack : List Frame) {token : Token} (opens : token ≠ .closeArray) :
    step (.reading (.arr items :: stack) .first) token = step (.reading (.arr items :: stack) .value) token := by
  cases token <;> first | rfl | exact absurd rfl opens

/-- The first member of an object is due like any other. -/
theorem step_firstMember (members : List (Draft × Draft)) (stack : List Frame) {token : Token}
    (opens : token ≠ .closeObject) :
    step (.reading (.obj members :: stack) .first) token = step (.reading (.obj members :: stack) .key) token := by
  cases token <;> first | rfl | exact absurd rfl opens

/-- Where the phrase is due its tokens put it into its place. -/
def Takes : Phrase → List Token → Prop
  | .value value, tokens => ∀ stack, tokens.foldl step (.reading stack .value) = place value stack
  | .items items, tokens => ∀ before stack, tokens.foldl step (.reading (.arr before :: stack) .value) =
      .reading (.arr (items.reverse ++ before) :: stack) .next
  | .members members, tokens => ∀ before stack, tokens.foldl step (.reading (.obj before :: stack) .key) =
      .reading (.obj (members.reverse ++ before) :: stack) .next

/-- The key of a member and its colon make its value due. -/
theorem step_member {content : Option String} {key : Draft} (named : scalar? (.str content) = some key)
    (members : List (Draft × Draft)) (stack : List Frame) :
    step (step (.reading (.obj members :: stack) .key) (.str content)) .colon =
      .reading (.member members key :: stack) .value := by
  cases content <;> obtain rfl := Option.some.inj named <;> rfl

end Complete

end Progress

/-- The tokens of a phrase put it into the place where it is due. -/
theorem Derives.takes {phrase : Phrase} {tokens : List Token} (derives : Derives phrase tokens) :
    Progress.Takes phrase tokens := by
  induction derives with
  | @scalar token value stands =>
    -- A scalar is placed as soon as it is read.
    intro stack
    rw [List.foldl_cons, Progress.step_value, List.foldl_nil, Progress.startValue_scalar stands]
  | emptyArray =>
    intro stack
    rw [List.foldl_cons, Progress.step_value]
    rfl
  -- The first item tells that the array is not empty.
  | array parts ih =>
    intro stack
    obtain ⟨first, rest, rfl, opens, -⟩ := parts.exists_cons
    have collected := ih [] stack
    rw [List.foldl_cons, ← Progress.step_firstItem [] stack opens, ← List.foldl_cons] at collected
    rw [List.cons_append, List.foldl_cons, Progress.step_value, Progress.startValue, List.foldl_append, collected]
    simp [Progress.step]
  | emptyObject =>
    intro stack
    rw [List.foldl_cons, Progress.step_value]
    rfl
  -- The first member tells that the object is not empty.
  | object parts ih =>
    intro stack
    obtain ⟨first, rest, rfl, -, opens⟩ := parts.exists_cons
    have collected := ih [] stack
    rw [List.foldl_cons, ← Progress.step_firstMember [] stack opens, ← List.foldl_cons] at collected
    rw [List.cons_append, List.foldl_cons, Progress.step_value, Progress.startValue, List.foldl_append, collected]
    simp [Progress.step]
  | item _ ih => exact fun before stack => ih (.arr before :: stack)
  | @nextItem items value _ _ _ _ ih ih' =>
    -- After the comma an item is due, which comes to lie on those before it.
    intro before stack
    rw [List.foldl_append, ih before stack, List.foldl_cons, List.reverse_append]
    exact ih' (.arr (items.reverse ++ before) :: stack)
  | @member content key value _ named _ ih =>
    intro before stack
    rw [List.foldl_cons, List.foldl_cons, Progress.step_member named]
    exact ih (.member before key :: stack)
  | @nextMember members content key value _ _ _ named _ ih ih' =>
    -- After the comma a key is due, and its member comes to lie on those before it.
    intro before stack
    rw [List.foldl_append, ih before stack, List.foldl_cons, List.foldl_cons, List.foldl_cons, List.reverse_append]
    have keyed := Progress.step_member named (members.reverse ++ before) stack
    show _ = Progress.place value (.member (members.reverse ++ before) key :: stack)
    rw [← ih', ← keyed]
    rfl

namespace Progress

/-- Tokens have been read, and now a value is due inside the containers that they have opened. -/
inductive Due : List Frame → List Token → Prop
  | root : Due [] []
  | firstItem {stack : List Frame} {outer : List Token} (due : Due stack outer) :
      Due (.arr [] :: stack) (outer ++ [.openArray])
  | nextItem {stack : List Frame} {outer inner : List Token} {items : List Draft} (due : Due stack outer)
      (parts : Derives (.items items.reverse) inner) :
      Due (.arr items :: stack) (outer ++ .openArray :: (inner ++ [.comma]))
  | firstMember {stack : List Frame} {outer : List Token} {content : Option String} {key : Draft}
      (due : Due stack outer) (named : scalar? (.str content) = some key) :
      Due (.member [] key :: stack) (outer ++ [.openObject, .str content, .colon])
  | nextMember {stack : List Frame} {outer inner : List Token} {members : List (Draft × Draft)}
      {content : Option String} {key : Draft} (due : Due stack outer) (parts : Derives (.members members.reverse) inner)
      (named : scalar? (.str content) = some key) :
      Due (.member members key :: stack) (outer ++ .openObject :: (inner ++ [.comma, .str content, .colon]))

/-- Tokens have been read, and this is how far they lead; of what is not read cleanly nothing is said. -/
inductive Follows : Progress → List Token → Prop
  | value {stack : List Frame} {tokens : List Token} (due : Due stack tokens) : Follows (.reading stack .value) tokens
  | openArray {stack : List Frame} {outer : List Token} (due : Due stack outer) :
      Follows (.reading (.arr [] :: stack) .first) (outer ++ [.openArray])
  | items {stack : List Frame} {outer inner : List Token} {items : List Draft} (due : Due stack outer)
      (parts : Derives (.items items.reverse) inner) :
      Follows (.reading (.arr items :: stack) .next) (outer ++ .openArray :: inner)
  | openObject {stack : List Frame} {outer : List Token} (due : Due stack outer) :
      Follows (.reading (.obj [] :: stack) .first) (outer ++ [.openObject])
  | members {stack : List Frame} {outer inner : List Token} {members : List (Draft × Draft)} (due : Due stack outer)
      (parts : Derives (.members members.reverse) inner) :
      Follows (.reading (.obj members :: stack) .next) (outer ++ .openObject :: inner)
  | key {stack : List Frame} {outer inner : List Token} {members : List (Draft × Draft)} (due : Due stack outer)
      (parts : Derives (.members members.reverse) inner) :
      Follows (.reading (.obj members :: stack) .key) (outer ++ .openObject :: (inner ++ [.comma]))
  | colon {stack : List Frame} {tokens : List Token} {members : List (Draft × Draft)} {key : Draft}
      (due : Due (.member members key :: stack) (tokens ++ [.colon])) :
      Follows (.reading (.member members key :: stack) .colon) tokens
  | done {root : Draft} {tokens : List Token} (derives : Derives (.value root) tokens) :
      Follows (.done root true) tokens
  | unclean (root : Draft) (tokens : List Token) : Follows (.done root false) tokens

variable {stack : List Frame} {outer inner tokens : List Token} {value root : Draft} {progress : Progress}

/-- A value that is due takes its place. -/
theorem Due.place (due : Due stack outer) (derives : Derives (.value value) inner) :
    Follows (place value stack) (outer ++ inner) := by
  -- The value completes the phrase that its frame waits for.
  cases due with
  | root => exact .done derives
  | firstItem due =>
    rw [List.append_assoc]
    exact .items due (.item derives)
  | @nextItem _ _ _ items due parts =>
    have longer := Derives.nextItem parts derives
    -- Items are kept in reverse, so that the last one of the phrase stands first.
    rw [← List.reverse_cons] at longer
    simpa [Progress.place] using Follows.items due longer
  | firstMember due named =>
    rw [List.append_assoc]
    exact .members due (.member named derives)
  | @nextMember _ _ _ members _ key due parts named =>
    have longer := Derives.nextMember parts named derives
    rw [← List.reverse_cons] at longer
    simpa [Progress.place] using Follows.members due longer

/-- Where a value is due the next token starts one, or the text breaks. -/
theorem Due.startValue (due : Due stack outer) (token : Token) :
    Follows (startValue stack token) (outer ++ [token]) := by
  -- The first token of a value opens a container or is a scalar.
  unfold Progress.startValue
  split
  · exact .openArray due
  · exact .openObject due
  · split
    · next stands => exact due.place (.scalar stands)
    · exact .unclean _ _

/-- Where the key of a first member is due the next token is one, or the text breaks. -/
theorem Due.firstKey (due : Due stack outer) (token : Token) :
    Follows (startKey [] stack token) (outer ++ [.openObject, token]) := by
  -- A key has to be a string, whether this can be read or not.
  cases token with
  | str content =>
    have keyed {key : Draft} (named : scalar? (.str content) = some key) :
        Follows (.reading (.member [] key :: stack) .colon) (outer ++ [.openObject, .str content]) :=
      .colon (by simpa using Due.firstMember due named)
    cases content <;> exact keyed rfl
  | _ => exact .unclean _ _

/-- Where the key of a further member is due the next token is one, or the text breaks. -/
theorem Due.nextKey {members : List (Draft × Draft)} (due : Due stack outer)
    (parts : Derives (.members members.reverse) inner) (token : Token) :
    Follows (startKey members stack token) (outer ++ .openObject :: (inner ++ [.comma, token])) := by
  -- As for the first key, only a string will do; the members before are part of what was read.
  cases token with
  | str content =>
    have keyed {key : Draft} (named : scalar? (.str content) = some key) :
        Follows (.reading (.member members key :: stack) .colon)
          (outer ++ .openObject :: (inner ++ [.comma, .str content])) :=
      .colon (by simpa using Due.nextMember due parts named)
    cases content <;> exact keyed rfl
  | _ => exact .unclean _ _

/-- One more token is followed one step further. -/
theorem Follows.step (follows : Follows progress tokens) (token : Token) :
    Follows (step progress token) (tokens ++ [token]) := by
  -- What may come next depends on where the reading stands, and anything else leads to a stop.
  cases follows with
  | value due =>
    rw [step_value]
    exact due.startValue token
  -- Behind an opening bracket the array is closed at once, or its first item starts.
  | @openArray stack outer due =>
    by_cases closes : token = .closeArray
    · subst closes
      rw [List.append_assoc]
      exact due.place .emptyArray
    · rw [step_firstItem [] stack closes, step_value]
      exact (Due.firstItem due).startValue token
  | items due parts =>
    cases token with
    | closeArray =>
      rw [List.append_assoc]
      exact due.place (.array parts)
    | comma =>
      rw [List.append_assoc]
      exact .value (.nextItem due parts)
    | _ => exact .unclean _ _
  -- Behind an opening brace the object is closed at once, or its first key starts.
  | @openObject stack outer due =>
    by_cases closes : token = .closeObject
    · subst closes
      rw [List.append_assoc]
      exact due.place .emptyObject
    · rw [step_firstMember [] stack closes, List.append_assoc]
      exact due.firstKey token
  | members due parts =>
    cases token with
    | closeObject =>
      rw [List.append_assoc]
      exact due.place (.object parts)
    | comma =>
      rw [List.append_assoc]
      exact .key due parts
    | _ => exact .unclean _ _
  | key due parts =>
    rw [step_key]
    simpa using due.nextKey parts token
  | colon due =>
    cases token with
    | colon => exact .value due
    | _ => exact .unclean _ _
  -- Nothing may come any more.
  | done => exact .unclean _ _
  | unclean => exact .unclean _ _

/-- All tokens of a text are followed to the end. -/
theorem Follows.foldl (follows : Follows progress tokens) (more : List Token) :
    Follows (more.foldl Progress.step progress) (tokens ++ more) := by
  -- What was read varies along the tokens.
  induction more generalizing progress tokens with
  | nil => simpa using follows
  | cons token more ih => simpa using ih (follows.step token)

end Progress

/-- Reading finds a whole value exactly where the grammar has one. -/
theorem Draft.ofTokens_eq_iff {root : Draft} {tokens : List Token} :
    Draft.ofTokens tokens = (root, true) ↔ Derives (.value root) tokens := by
  unfold Draft.ofTokens
  constructor
  · intro read
    have follows := (Progress.Follows.value .root).foldl tokens
    rw [List.nil_append] at follows
    generalize tokens.foldl Progress.step (.reading [] .value) = progress at follows read
    -- Whatever is still being read breaks off.
    cases progress with
    | reading stack phase => exact absurd (congrArg Prod.snd read) nofun
    | done root' clean =>
      obtain ⟨rfl, rfl⟩ := Prod.mk.inj read
      cases follows with
      | done derives => exact derives
  · intro derives
    -- The derivation says which way the tokens take.
    rw [derives.takes []]
    rfl

/-- The text is laid out in tokens that make up the value. -/
def Draft.IsText (root : Draft) (text : String) : Prop :=
  ∃ tokens, Derives (.value root) tokens ∧ Laid tokens text.toList

/-- Reading a text finds the value of which it is a text, and finds whole values in no other texts. -/
theorem Draft.ofText_eq_iff {root : Draft} {text : String} : Draft.ofText text = (root, true) ↔ root.IsText text := by
  unfold Draft.ofText
  rw [Draft.ofTokens_eq_iff]
  -- A derivation gives the tokens of the text, as the text gives a derivation of its tokens.
  constructor
  · intro derives
    exact ⟨_, derives, laid_tokens derives.bad_notMem⟩
  · rintro ⟨tokens, derives, laid⟩
    rwa [laid.tokens_eq derives.apart]

end LimitBook.Json
