import SqlComposer.Sorting.Basic
import SqlComposer.Value.Equality

/-!
# Sorting values

Numbers are in order whatever their kinds; texts, octet strings, days and tuples among themselves.
A decimal number cannot be compared with what is no number at all. Other pairs have no order. A sort
reports the first pair of these that it compares.
-/

namespace SqlComposer

/-- Why two values cannot be compared. -/
inductive Incomparable
  /-- Their kinds have no order. -/
  | kinds (left right : Text)
  /-- One is a decimal number, and one is no number at all. -/
  | undefinedDecimal

/-- Why two values cannot be compared, in words. -/
def Incomparable.message : Incomparable → Text
  | .kinds left right =>
    "'<' not supported between instances of '".toList ++ left ++ "' and '".toList ++ right ++
      ['\'']
  | .undefinedDecimal => "[<class 'decimal.InvalidOperation'>]".toList

namespace Value

/-- Whether a value is a decimal number. -/
def isDecimal : Value → Bool
  | .decimal .. => true
  | _ => false

mutual

/-- Whether a value comes before another one, if they have an order. -/
def before : Value → Value → Except Incomparable Bool
  | .text a, .text b | .text a, .raw b | .raw a, .text b | .raw a, .raw b => .ok (a < b)
  | .octets a, .octets b => .ok (a.map UInt8.toNat < b.map UInt8.toNat)
  | .date a, .date b => .ok (a < b)
  | .tuple as, .tuple bs => itemsBefore as bs
  | a, b =>
    match a.magnitude?, b.magnitude? with
    | some m, some n =>
      if (a.isDecimal || b.isDecimal) && (m == .undefined || n == .undefined) then
        .error .undefinedDecimal
      else .ok (m.below n)
    | _, _ => .error (.kinds a.typeName b.typeName)

/-- Whether a list comes before another one by its first different item, or by being shorter. -/
def itemsBefore : List Value → List Value → Except Incomparable Bool
  | a :: as, b :: bs => if same a b then itemsBefore as bs else before a b
  | [], _ :: _ => .ok true
  | _, [] => .ok false

end

/-- Values in rising order. -/
def sorted (vs : List Value) : Except Incomparable (List Value) :=
  Sorting.sort before vs

end Value

end SqlComposer
