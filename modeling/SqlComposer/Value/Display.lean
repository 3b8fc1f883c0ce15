import SqlComposer.Value.Basic
import SqlComposer.Text.Numeral
import SqlComposer.Text.Quoted
import SqlComposer.Clauses

/-!
# How values are shown

A value is shown plainly, or inside another value and in messages in its quoted form, which tells
text from numbers and names the kinds that have no notation of their own. An integer with too long a
numeral is not shown, nor is any value that would be shown with it.
-/

namespace SqlComposer

namespace Value

/-- Parts between an opening and a closing text. -/
def enclosed (opening : Text) (parts : List Text) (closing : Text) : Text :=
  opening ++ Text.commaList parts ++ closing

/-- Parts of a tuple: a single part is followed by a comma. -/
def tupleParts : List Text → Text
  | [part] => '(' :: part ++ [',', ')']
  | parts => enclosed ['('] parts [')']

/-- A name with what it stands for. -/
def binding (name shown : Text) : Text :=
  name ++ '=' :: shown

/-- A truth value. -/
def shownBool (b : Bool) : Text :=
  if b then "True".toList else "False".toList

/-- An optional text in quotes. -/
def quotedOption : Option Text → Text
  | none => "None".toList
  | some t => Text.quoted t

/-- A day by its three numbers. -/
def quotedDate (day : Text) : Text :=
  let number := fun part : Text =>
    match part.dropWhile (· == '0') with
    | [] => ['0']
    | digits => digits
  enclosed "datetime.date(".toList ((day.splitOn '-').map number) [')']

/-- Clauses by their buckets. -/
def quotedClauses (c : Clauses) : Text :=
  let bucket := fun entries : List Text => tupleParts (entries.map Text.quoted)
  enclosed "Clauses(".toList
    [binding "select".toList (bucket c.select),
      binding "from_".toList (quotedOption c.source),
      binding "joins".toList (bucket c.joins),
      binding "where".toList (bucket c.conditions),
      binding "group_by".toList (bucket c.groupBy),
      binding "order_by".toList (bucket c.orderBy),
      binding "limit".toList (quotedOption c.limit),
      binding "offset".toList (quotedOption c.offset)] [')']

mutual

/-- A value in its quoted form, unless a number in it has too long a numeral. -/
def quoted : Value → Except NumeralError Text
  | .null => .ok "None".toList
  | .bool b => .ok (shownBool b)
  | .int n => writeNumeral n
  | .real numeral _ => .ok numeral
  | .text t | .raw t => .ok (Text.quoted t)
  | .octets b => .ok (Text.quotedOctets b)
  | .decimal numeral _ => .ok ("Decimal(".toList ++ Text.quoted numeral ++ [')'])
  | .date day => .ok (quotedDate day)
  | .list items => do
    let parts ← quotedItems items
    return enclosed ['['] parts [']']
  | .tuple items => do
    let parts ← quotedItems items
    return tupleParts parts
  | .map entries => do
    let parts ← quotedEntries entries
    return enclosed ['\x7b'] parts ['\x7d']
  | .record attributes => do
    let parts ← quotedAttributes attributes
    return enclosed "namespace(".toList parts [')']
  | .query q => do
    let parameters ← quotedEntries q.parameters
    let counter ← writeNumeral q.counter
    return enclosed "QueryState(".toList
      [binding "clauses".toList (quotedClauses q.clauses),
        binding "params".toList
          (enclosed "mappingproxy(\x7b".toList parameters "\x7d)".toList),
        binding "param_counter".toList counter] [')']
  | .clauses c => .ok (quotedClauses c)

/-- Each item in its quoted form. -/
def quotedItems : List Value → Except NumeralError (List Text)
  | [] => .ok []
  | item :: items => do
    let part ← quoted item
    let parts ← quotedItems items
    return part :: parts

/-- Each key with its value, in their quoted forms. -/
def quotedEntries : List (Value × Value) → Except NumeralError (List Text)
  | [] => .ok []
  | (key, value) :: entries => do
    let key ← quoted key
    let value ← quoted value
    let parts ← quotedEntries entries
    return (key ++ ':' :: ' ' :: value) :: parts

/-- Each attribute with its value in its quoted form. -/
def quotedAttributes : List (Text × Value) → Except NumeralError (List Text)
  | [] => .ok []
  | (name, value) :: attributes => do
    let value ← quoted value
    let parts ← quotedAttributes attributes
    return binding name value :: parts

end

/-- A value shown plainly: text as it is, a query by its text, all else in its quoted form. -/
def display : Value → Except NumeralError Text
  | .text t | .raw t => .ok t
  | .decimal numeral _ => .ok numeral
  | .date day => .ok day
  | .query q => .ok q.clauses.render
  | v => quoted v

/-- Values in their quoted forms, in brackets. -/
def quotedList (items : List Value) : Except NumeralError Text :=
  quoted (.list items)

end Value

end SqlComposer
