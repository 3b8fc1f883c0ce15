import SqlComposer.Placeholder.Basic

/-!
# Bound text clauses

A text clause binds values to the names in its text. A name stands after a colon that touches no
word character, no colon and no backslash before it, and is not followed by a colon. A backslash
before a colon keeps the colon from naming anything and is taken off when the clause is written.

Text clauses belong to the SQL toolkit that runs the queries, which is no part of the library:
`bind` is the behaviour that is assumed of the toolkit.
-/

namespace SqlComposer.Placeholder

/-- Whether a colon after a character names nothing. -/
def blocksName (c : Char) : Bool :=
  Text.isWord c || c == ':' || c == '\\'

/-- The longest word at the start of a text with what follows it, unless that is a colon. -/
def wordBeforeNoColon? (t : Text) : Option (Text × Text) :=
  let word := t.takeWhile Text.isWord
  match t.dropWhile Text.isWord with
  | ':' :: _ => none
  | rest => some (word, rest)

/-- The names in a text that follows a blocking character or does not. -/
def namesFrom (blocked : Bool) : Text → List Text
  | [] => []
  | c :: rest =>
    let later := namesFrom (blocksName c) rest
    if c = ':' ∧ blocked = false then
      match wordBeforeNoColon? rest with
      | some (word, _) => if word.isEmpty then later else word :: later
      | none => later
    else later

/-- The names in a text, in order. -/
def boundNames (t : Text) : List Text :=
  namesFrom false t

/-- A text without the backslashes that kept a colon from naming anything. -/
def unescape : Text → Text
  | [] => []
  | '\\' :: ':' :: rest =>
    match wordBeforeNoColon? rest with
    | some _ => ':' :: unescape rest
    | none => '\\' :: ':' :: unescape rest
  | c :: rest => c :: unescape rest

/-- A text with the values of the names in it, in the order of the names; a name without a value is
bound to none. -/
structure TextClause (α : Type) where
  text : Text
  parameters : List (Text × Option α)

/-- Names in rising order, each once. -/
def sortedNames (names : List Text) : List Text :=
  names.eraseDups.mergeSort Text.notAfter

/-- Binds values to the names of a text, or gives the first name that the text does not hold. -/
def bind {α : Type} (t : Text) (values : List (Text × α)) : Except Text (TextClause α) :=
  let names := boundNames t
  match values.find? fun (name, _) => !names.contains name with
  | some (name, _) => .error name
  | none => .ok ⟨unescape t, (sortedNames names).map fun name => (name, values.lookup name)⟩

end SqlComposer.Placeholder
