import SqlComposer.Clauses

/-!
# Values

What a template can embed and a parameter can hold. A query is itself a value, so that it can stand
inside another query, and the clauses of a query are one because templates may look them up. A
floating point or decimal number that is undefined equals only itself; it has a mark by which it is
told from others.
-/

namespace SqlComposer

/-- A query over a type of values: its clauses, and the parameters that its placeholders number. -/
structure QueryOf (ν : Type) where
  /-- The clauses. -/
  clauses : Clauses
  /-- The parameters by their keys, in the order in which they were added. -/
  parameters : List (ν × ν)
  /-- The highest number in use. -/
  counter : Int

/-- The values that templates embed. -/
inductive Value
  /-- The absent value. -/
  | null
  | bool (b : Bool)
  | int (n : Int)
  /-- A floating point number, by its shortest numeral. -/
  | real (numeral : Text) (mark : Nat)
  | text (t : Text)
  /-- Text that is written into a query as it is. -/
  | raw (t : Text)
  | octets (b : List UInt8)
  /-- A decimal number, by its numeral. -/
  | decimal (numeral : Text) (mark : Nat)
  /-- A day, written as year, month and day with hyphens. -/
  | date (day : Text)
  | list (items : List Value)
  | tuple (items : List Value)
  /-- Keys and their values in order. -/
  | map (entries : List (Value × Value))
  /-- An object with attributes. -/
  | record (attributes : List (Text × Value))
  | query (q : QueryOf Value)
  | clauses (c : Clauses)

/-- A query. -/
abbrev Query := QueryOf Value

/-- Keys and their values in order. -/
abbrev Entries := List (Value × Value)

namespace Value

/-- The name of the kind of a value as messages about types show it. -/
def typeName : Value → Text
  | .null => "NoneType".toList
  | .bool _ => "bool".toList
  | .int _ => "int".toList
  | .real .. => "float".toList
  | .text _ => "str".toList
  | .raw _ => "Raw".toList
  | .octets _ => "bytes".toList
  | .decimal .. => "decimal.Decimal".toList
  | .date _ => "datetime.date".toList
  | .list _ => "list".toList
  | .tuple _ => "tuple".toList
  | .map _ => "dict".toList
  | .record _ => "types.SimpleNamespace".toList
  | .query _ => "QueryState".toList
  | .clauses _ => "Clauses".toList

/-- The last part of the name of a kind. -/
def shortTypeName (v : Value) : Text :=
  (v.typeName.splitOn '.').getLastD []

/-- The text of a value that is text. -/
def text? : Value → Option Text
  | .text t | .raw t => some t
  | _ => none

end Value

end SqlComposer
