import SqlComposer.Value.Key

/-!
# Equality of values

Numbers are equal by what they denote, whatever their kinds, and text by its characters. What is
made of other values is equal part by part; the order of the entries of a mapping and of the
attributes of an object does not count.
-/

namespace SqlComposer

namespace Value

/-- The mark of a value that can be an undefined number. -/
def mark? : Value → Option Nat
  | .real _ mark | .decimal _ mark => some mark
  | _ => none

/-- Whether two values are equal as numbers. An undefined number equals itself alone. -/
def sameNumber (a b : Value) : Bool :=
  match a.magnitude?, b.magnitude? with
  | some .undefined, some .undefined => a.mark? == b.mark?
  | some m, some n => m.same n
  | _, _ => false

mutual

/-- Whether two values are equal. -/
def same : Value → Value → Bool
  | .null, .null => true
  | .text a, .text b | .text a, .raw b | .raw a, .text b | .raw a, .raw b => a == b
  | .octets a, .octets b => a == b
  | .date a, .date b => a == b
  | .clauses a, .clauses b => a == b
  | .list as, .list bs | .tuple as, .tuple bs => sameItems as bs
  | .map as, .map bs => as.length == bs.length && sameEntries as bs
  | .record as, .record bs => as.length == bs.length && sameAttributes as bs
  | .query ⟨c, as, m⟩, .query ⟨d, bs, n⟩ =>
    c == d && m == n && as.length == bs.length && sameEntries as bs
  | a, b => sameNumber a b

/-- Whether two lists of values are equal item by item. -/
def sameItems : List Value → List Value → Bool
  | [], [] => true
  | a :: as, b :: bs => same a b && sameItems as bs
  | _, _ => false

/-- Whether each entry of a mapping equals one of another mapping. -/
def sameEntries : List (Value × Value) → List (Value × Value) → Bool
  | [], _ => true
  | (key, value) :: as, bs =>
    (bs.any fun b => same key b.1 && same value b.2) && sameEntries as bs

/-- Whether each attribute of an object equals one of another object. -/
def sameAttributes : List (Text × Value) → List (Text × Value) → Bool
  | [], _ => true
  | (name, value) :: as, bs =>
    (bs.any fun b => name == b.1 && same value b.2) && sameAttributes as bs

end

end Value

end SqlComposer
