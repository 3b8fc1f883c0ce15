import SqlComposer.Text.Numeral
import SqlComposer.Text.Word

/-!
# Placeholders

A parameter is written as a placeholder: `$N`, which counts from one, or `:pK`, which counts from
zero. A text is cut into positional placeholders and other characters; a placeholder stands alone,
that is, no word character touches it and no second dollar sign comes before it.

A positional placeholder that numbers a parameter can be written as a named one. Placeholders of
other numbers, and dollar signs that begin none, stay as they are.
-/

namespace SqlComposer.Placeholder

/-- The two styles of placeholders. -/
inductive Style
  | positional
  | named
  deriving DecidableEq, Repr

/-- The positional placeholder of a number. -/
def positional (number : Int) : Text :=
  '$' :: Text.ofInt number

/-- The name of the parameter at a position that counts from zero. -/
def name (index : Int) : Text :=
  'p' :: Text.ofInt index

/-- The named placeholder of a position that counts from zero. -/
def named (index : Int) : Text :=
  ':' :: name index

/-- The placeholder of the parameter with a number, unless its numeral is too long. -/
def mark (style : Style) (number : Int) : Except NumeralError Text :=
  match style with
  | .positional => (['$'] ++ ·) <$> writeNumeral number
  | .named => ([':', 'p'] ++ ·) <$> writeNumeral (number - 1)

/-- A part of a text: a positional placeholder, by its digits, or another character. -/
inductive Piece
  | number (digits : Text)
  | other (c : Char)
  deriving DecidableEq, Repr

/-- The text of a part. -/
def Piece.text : Piece → Text
  | .number digits => '$' :: digits
  | .other c => [c]

/-- Whether a dollar sign after a character begins no placeholder. -/
def blocks (c : Char) : Bool :=
  Text.isWord c || c == '$'

/-- The digits of the placeholder that begins with a dollar sign before a text, with what follows
them. -/
def afterDollar? (t : Text) : Option (Text × Text) :=
  let digits := t.takeWhile Text.isDecimal
  let rest := t.dropWhile Text.isDecimal
  if digits.isEmpty || Text.startsWord rest then none else some (digits, rest)

/-- What follows a dollar sign and its digits is no longer than what follows the dollar sign. -/
theorem afterDollar?_length {t digits rest : Text} (h : afterDollar? t = some (digits, rest)) :
    rest.length ≤ t.length := by
  simp only [afterDollar?] at h
  split at h
  · cases h
  · cases h
    exact (List.dropWhile_suffix _).length_le

/-- The parts of a text that follows a blocking character or does not. -/
def piecesFrom (blocked : Bool) : Text → List Piece
  | [] => []
  | c :: rest =>
    if c = '$' ∧ blocked = false then
      match _h : afterDollar? rest with
      | some (digits, after) => .number digits :: piecesFrom true after
      | none => .other c :: piecesFrom true rest
    else .other c :: piecesFrom (blocks c) rest
termination_by t => t.length
decreasing_by
  · have := afterDollar?_length _h
    simp only [List.length_cons]
    omega
  · simp
  · simp

/-- The parts of a text. -/
def pieces (t : Text) : List Piece :=
  piecesFrom false t

/-! ## From positional to named placeholders -/

/-- The named form of a part of a text with so many parameters. -/
def Piece.rename (count : Nat) : Piece → Except NumeralError Text
  | .other c => .ok [c]
  | .number digits => do
    let number ← readNumeral digits
    if 1 ≤ number ∧ number ≤ count then return named (number - 1)
    else return '$' :: digits

/-- The named forms of parts, one after the other. -/
def renameAll (count : Nat) : List Piece → Except NumeralError Text
  | [] => .ok []
  | piece :: pieces => do
    let front ← piece.rename count
    let rest ← renameAll count pieces
    return front ++ rest

/-- A text with named placeholders for so many parameters. -/
def rename (count : Nat) (t : Text) : Except NumeralError Text :=
  renameAll count (pieces t)

/-- The names of parameters, each with its value. -/
def bindings {α : Type} (parameters : List α) : List (Text × α) :=
  parameters.zipIdx.map fun (value, index) => (name index, value)

end SqlComposer.Placeholder
