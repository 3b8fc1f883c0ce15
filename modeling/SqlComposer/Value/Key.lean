import SqlComposer.Value.Basic
import SqlComposer.Number.Binary64

/-!
# Keys

A key is found by what it denotes: a number by any value that is that number, whatever its kind,
and a text by a text of the same characters.
-/

namespace SqlComposer

namespace Value

/-- The number that a value is; truth counts as one and falsehood as zero. -/
def magnitude? : Value → Option Magnitude
  | .bool b => some (.finite (if b then 1 else 0))
  | .int n => some (.finite n)
  | .real numeral _ => some (.ofBinary64 numeral)
  | .decimal numeral _ => some (.ofDecimal numeral)
  | _ => none

/-- Whether a value is an integer, whatever its kind. -/
def isNumber (n : Int) : Value → Bool
  | .int m => m == n
  | .bool b => (if b then 1 else 0) == n
  | .real numeral _ => Magnitude.ofBinary64 numeral == .finite n
  | .decimal numeral _ => Magnitude.ofDecimal numeral == .finite n
  | _ => false

/-- Whether a value is a text. -/
def isText (t : Text) (v : Value) : Bool :=
  v.text? == some t

end Value

namespace Entries

/-- The keys in order. -/
def keys (entries : Entries) : List Value :=
  entries.map Prod.fst

/-- The value under a number. -/
def atNumber? (n : Int) (entries : Entries) : Option Value :=
  (entries.find? fun entry => entry.1.isNumber n).map Prod.snd

/-- The value under a text. -/
def atText? (t : Text) (entries : Entries) : Option Value :=
  (entries.find? fun entry => entry.1.isText t).map Prod.snd

/-- Puts a value under a number. A key that is the number stays as it is, in its place; a new one is
added at the end. -/
def put (n : Int) (value : Value) : Entries → Entries
  | [] => [(.int n, value)]
  | (key, old) :: entries =>
    if key.isNumber n then (key, value) :: entries else (key, old) :: put n value entries

/-- The numbers from one up to a counter. -/
def numbersUpTo (counter : Int) : List Int :=
  (List.range counter.toNat).map fun (i : Nat) => (i : Int) + 1

/-- Whether a key is one of the numbers from one up to a counter. -/
def isNumberUpTo (counter : Int) : Value → Bool
  | .int n => 1 ≤ n && n ≤ counter
  | key => (numbersUpTo counter).any fun n => key.isNumber n

/-- Whether the keys are exactly the numbers from one up to a counter. -/
def isDense (counter : Int) (entries : Entries) : Bool :=
  counter.toNat ≤ entries.length &&
    entries.keys.all (isNumberUpTo counter) &&
    (numbersUpTo counter).all fun n => entries.keys.any fun key => key.isNumber n

end Entries

end SqlComposer
