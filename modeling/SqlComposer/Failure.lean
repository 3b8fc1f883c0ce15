import SqlComposer.Template.Basic
import SqlComposer.Text.Numeral
import SqlComposer.Value.Order
import SqlComposer.Value.Display

/-!
# Failures

What can go wrong while a query is composed. The library reports two kinds of failure as its own:
templates that cannot be read, and parameter objects that are ambiguous. The others come from values
of a kind that does not fit.
-/

namespace SqlComposer

/-- How the path of a replacement field can be wrong. -/
inductive PathFault
  /-- An attribute or an item has no name. -/
  | emptyName
  /-- Text follows a closing bracket. -/
  | textAfterItem
  /-- An opening bracket is not closed. -/
  | unclosedItem
  /-- An index does not fit into 63 bits. -/
  | indexTooLarge
  deriving DecidableEq, Repr

/-- What can go wrong while a query is composed. -/
inductive Failure
  /-- A template cannot be read. -/
  | template (e : TemplateError)
  /-- The path of a replacement field is wrong. -/
  | path (fault : PathFault)
  /-- A parameter object with these keys does not hold exactly one. -/
  | parameterObject (keys : List Value)
  /-- A numeral is too long. -/
  | numeral (e : NumeralError)
  /-- A part of the text at a position is of another kind. -/
  | notText (position : Nat) (typeName : Text)
  /-- A value of this kind holds no items. -/
  | notIterable (typeName : Text)
  /-- The keys of the parameters, in rising order, are not the numbers up to the counter. -/
  | sparse (counter : Int) (keys : List Value)
  /-- The keys of the parameters have no order. -/
  | incomparable (e : Incomparable)
  /-- There is no parameter of this number. -/
  | noParameter (number : Int)
  /-- A named argument has the name of a parameter that the call of a function has a value for. -/
  | repeated (function argument : Text)
  /-- These settings cannot be read. -/
  | settings (fields : List Text)

/-- A fault of a path in words. -/
def PathFault.message : PathFault → Text
  | .emptyName => "Empty attribute in format string".toList
  | .textAfterItem => "Only '.' or '[' may follow ']' in format field specifier".toList
  | .unclosedItem => "Missing ']' in format string".toList
  | .indexTooLarge => "Too many decimal digits in format string".toList

/-- A text, or in words why a numeral in it is not written. -/
def NumeralError.orMessage : Except NumeralError Text → Text
  | .ok t => t
  | .error e => e.message

namespace Failure

/-- Whether the library reports a failure as its own. -/
def isOwn : Failure → Bool
  | .template _ | .parameterObject _ => true
  | _ => false

/-- A failure in words. Where these would show a numeral that is too long, they tell of that. -/
def message : Failure → Text
  | .template e => e.message
  | .path fault => fault.message
  | .parameterObject keys => NumeralError.orMessage do
    let shown ← Value.quotedList keys
    return "Parameter objects must hold exactly one key, got ".toList ++ Text.ofNat keys.length ++
      ": ".toList ++ shown
  | .numeral e => e.message
  | .notText position typeName =>
    "sequence item ".toList ++ Text.ofNat position ++ ": expected str instance, ".toList ++
      typeName ++ " found".toList
  | .notIterable typeName => '\'' :: typeName ++ "' object is not iterable".toList
  | .sparse counter keys => NumeralError.orMessage do
    let last ← writeNumeral counter
    let shown ← Value.quotedList keys
    return "params must be keyed 1..".toList ++ last ++ ", got ".toList ++ shown
  | .incomparable e => e.message
  | .noParameter number => Text.ofInt number
  | .repeated function argument => Text.repeatedArgument function argument
  | .settings fields => Text.commaList fields

end Failure

end SqlComposer
