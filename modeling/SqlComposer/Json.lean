import SqlComposer.Value.Display

/-!
# JSON

A JSON document and its text, in ASCII only. Values that have no JSON form are replaced by a text;
which one, and which keys a member may have, is for the caller to say.
-/

namespace SqlComposer

/-- A JSON document. A number is kept as its numeral. -/
inductive Json
  | null
  | bool (b : Bool)
  | number (numeral : Text)
  | string (t : Text)
  | array (items : List Json)
  | object (members : List (Text × Json))

/-- What keeps a value from being written as JSON. -/
inductive JsonError
  /-- A key of this kind names no member. -/
  | key (typeName : Text)
  /-- The text that replaces a value would show too long a numeral. -/
  | numeral (e : NumeralError)

/-- What keeps a value from being written as JSON, in words. -/
def JsonError.message : JsonError → Text
  | .key typeName => "keys must be str, int, float, bool or None, not ".toList ++ typeName
  | .numeral e => e.message

namespace Json

/-- A UTF-16 unit by its code. -/
def escapedUnit (n : Nat) : Text :=
  '\\' :: 'u' :: Text.ofHex 4 n

/-- A character inside a JSON string. -/
def escaped (c : Char) : Text :=
  let n := c.toNat
  if c = '"' ∨ c = '\\' then ['\\', c]
  else if c = '\n' then ['\\', 'n']
  else if c = '\r' then ['\\', 'r']
  else if c = '\t' then ['\\', 't']
  else if n = 8 then ['\\', 'b']
  else if n = 12 then ['\\', 'f']
  else if 0x20 ≤ n ∧ n < 0x7F then [c]
  else if n < 0x10000 then escapedUnit n
  else
    escapedUnit (0xD800 + (n - 0x10000) / 0x400) ++ escapedUnit (0xDC00 + (n - 0x10000) % 0x400)

/-- A JSON string. -/
def stringText (t : Text) : Text :=
  '"' :: t.flatMap escaped ++ ['"']

/-- The numeral of a floating point number, with names for those that are none. -/
def realText (numeral : Text) : Text :=
  if numeral == "nan".toList then "NaN".toList
  else if numeral == "inf".toList then "Infinity".toList
  else if numeral == "-inf".toList then "-Infinity".toList
  else numeral

/-- A truth value. -/
def boolText (b : Bool) : Text :=
  if b then "true".toList else "false".toList

mutual

/-- A document on a single line. -/
def line : Json → Text
  | .null => "null".toList
  | .bool b => boolText b
  | .number numeral => numeral
  | .string t => stringText t
  | .array items => '[' :: Text.commaList (lineItems items) ++ [']']
  | .object members => '\x7b' :: Text.commaList (lineMembers members) ++ ['\x7d']

/-- Each item on a single line. -/
def lineItems : List Json → List Text
  | [] => []
  | item :: items => line item :: lineItems items

/-- Each member on a single line. -/
def lineMembers : List (Text × Json) → List Text
  | [] => []
  | (key, value) :: members => (stringText key ++ ':' :: ' ' :: line value) :: lineMembers members

end

/-- A line break and the blanks of a level. -/
def newLine (level : Nat) : Text :=
  '\n' :: List.replicate (2 * level) ' '

/-- Parts on lines of their own between brackets of a level. -/
def block (opening closing : Char) (level : Nat) : List Text → Text
  | [] => [opening, closing]
  | parts =>
    opening :: newLine (level + 1) ++ (',' :: newLine (level + 1)).intercalate parts ++
      newLine level ++ [closing]

mutual

/-- A document with an item or a member a line, from a level on. -/
def indented (level : Nat) : Json → Text
  | .null => "null".toList
  | .bool b => boolText b
  | .number numeral => numeral
  | .string t => stringText t
  | .array items => block '[' ']' level (indentedItems (level + 1) items)
  | .object members => block '\x7b' '\x7d' level (indentedMembers (level + 1) members)

/-- Each item from a level on. -/
def indentedItems (level : Nat) : List Json → List Text
  | [] => []
  | item :: items => indented level item :: indentedItems level items

/-- Each member from a level on. -/
def indentedMembers (level : Nat) : List (Text × Json) → List Text
  | [] => []
  | (key, value) :: members =>
    (stringText key ++ ':' :: ' ' :: indented level value) :: indentedMembers level members

end

/-- How values without a JSON form are written, and how the kind of a bad key is named. -/
structure Style where
  replacement : Value → Except NumeralError Text
  keyTypeName : Value → Text

/-- Values are shown plainly. -/
def Style.plain : Style :=
  ⟨Value.display, Value.shortTypeName⟩

/-- Values are shown in their quoted form. -/
def Style.quoted : Style :=
  ⟨Value.quoted, Value.typeName⟩

/-- The name of the member for a key. -/
def memberName (style : Style) : Value → Except JsonError Text
  | .text t | .raw t => .ok t
  | .null => .ok "null".toList
  | .bool b => .ok (boolText b)
  | .int n => .ok (Text.ofInt n)
  | .real numeral _ => .ok (realText numeral)
  | key => .error (.key (style.keyTypeName key))

mutual

/-- The document of a value. -/
def ofValue (style : Style) : Value → Except JsonError Json
  | .null => .ok .null
  | .bool b => .ok (.bool b)
  | .int n => .ok (.number (Text.ofInt n))
  | .real numeral _ => .ok (.number (realText numeral))
  | .text t | .raw t => .ok (.string t)
  | .list items | .tuple items => .array <$> ofItems style items
  | .map entries => .object <$> ofEntries style entries
  | v => .string <$> (style.replacement v).mapError .numeral

/-- The documents of values. -/
def ofItems (style : Style) : List Value → Except JsonError (List Json)
  | [] => .ok []
  | item :: items => do
    let item ← ofValue style item
    let items ← ofItems style items
    return item :: items

/-- The members of entries. -/
def ofEntries (style : Style) : List (Value × Value) → Except JsonError (List (Text × Json))
  | [] => .ok []
  | (key, value) :: entries => do
    let name ← memberName style key
    let value ← ofValue style value
    let members ← ofEntries style entries
    return (name, value) :: members

end

end Json

end SqlComposer
