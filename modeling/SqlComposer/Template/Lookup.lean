import SqlComposer.Failure
import SqlComposer.Value.Key
import SqlComposer.Text.Numeral

/-!
# Looking up fields

The name of a replacement field begins with the number of a positional argument or the name of a
named one, and goes on with steps: an attribute after a dot, an item between brackets. A part that
consists of decimal digits is a number.

The attributes of numbers, days, records, queries and clauses that are values themselves, and the
items of lists, tuples, texts, octets and mappings are known. What else a value has, every lookup is
told by its arguments.
-/

namespace SqlComposer

/-- A step from a value to a part of it. -/
inductive Step
  | attribute (name : Text)
  | item (index : Nat)
  | entry (key : Text)
  deriving DecidableEq, Repr

/-- The arguments of a format template. -/
structure Arguments where
  positional : List Value := []
  named : List (Text × Value) := []
  /-- What a step leads to in a value that has no known part there. Values of every kind have such
  parts: a number has its functions, a text its kind. A part that is none of the values, such as a
  function, stands as a record. -/
  further : Value → Step → Option Value := fun _ _ => none

/-- Whether there are no arguments at all. -/
def Arguments.isEmpty (args : Arguments) : Bool :=
  args.positional.isEmpty && args.named.isEmpty

/-- The first named argument that has the name of one of some parameters. -/
def Arguments.repeated? (args : Arguments) (parameters : List Text) : Option Text :=
  (args.named.map Prod.fst).find? fun name => parameters.contains name

namespace Value

/-- An optional text as a value. -/
def ofText? : Option Text → Value
  | some t => .text t
  | none => .null

/-- Texts as a tuple. -/
def ofTexts (ts : List Text) : Value :=
  .tuple (ts.map .text)

end Value

/-- The attributes of clauses. -/
def Clauses.attributes (c : Clauses) : List (Text × Value) :=
  [("select".toList, .ofTexts c.select), ("from_".toList, .ofText? c.source),
    ("joins".toList, .ofTexts c.joins), ("where".toList, .ofTexts c.conditions),
    ("group_by".toList, .ofTexts c.groupBy), ("order_by".toList, .ofTexts c.orderBy),
    ("limit".toList, .ofText? c.limit), ("offset".toList, .ofText? c.offset)]

namespace Entries

/-- The values of so many numbers from one number on, or the first number without a value. -/
def valuesFrom (entries : Entries) (number : Int) : Nat → Except Int (List Value)
  | 0 => .ok []
  | count + 1 =>
    match entries.atNumber? number with
    | some value => (value :: ·) <$> valuesFrom entries (number + 1) count
    | none => .error number

/-- The values of the numbers from one up to a counter. -/
def values (entries : Entries) (counter : Int) : Except Int (List Value) :=
  entries.valuesFrom 1 counter.toNat

end Entries

namespace Step

/-- The attributes of a query. -/
def queryAttribute? (q : Query) (name : Text) : Option Value :=
  if name == "query".toList then some (.text q.clauses.render)
  else if name == "parameters".toList then
    (Entries.values q.parameters q.counter).toOption.map .list
  else if name == "params".toList then some (.map q.parameters)
  else if name == "param_counter".toList then some (.int q.counter)
  else if name == "clauses".toList then some (.clauses q.clauses)
  else none

/-- The attributes of a number with a real and an imaginary part. -/
def complexAttributes (real imaginary : Value) : List (Text × Value) :=
  [("real".toList, real), ("imag".toList, imaginary)]

/-- The attributes of an integer, which is a fraction and a complex number. -/
def integerAttributes (n : Int) : List (Text × Value) :=
  ("numerator".toList, .int n) :: ("denominator".toList, .int 1) ::
    complexAttributes (.int n) (.int 0)

/-- The attributes of a day: its three numbers. -/
def dayAttributes (day : Text) : List (Text × Value) :=
  List.zipWith (fun name part => (name, .int (Text.numeralValue part)))
    ["year".toList, "month".toList, "day".toList] (day.splitOn '-')

/-- The known attribute of a value. -/
def attribute? (name : Text) : Value → Option Value
  | .bool b => (integerAttributes b.toInt).lookup name
  | .int n => (integerAttributes n).lookup name
  | .real numeral mark =>
    (complexAttributes (.real numeral mark) (.real "0.0".toList 0)).lookup name
  | .decimal numeral mark =>
    (complexAttributes (.decimal numeral mark) (.decimal ['0'] 0)).lookup name
  | .date day => (dayAttributes day).lookup name
  | .record attributes => attributes.lookup name
  | .query q => queryAttribute? q name
  | .clauses c => c.attributes.lookup name
  | _ => none

/-- The known item of a value at a position, or under a number. -/
def item? (index : Nat) : Value → Option Value
  | .list items | .tuple items => items[index]?
  | .text t | .raw t => t[index]?.map fun c => .text [c]
  | .octets b => b[index]?.map fun n => .int n.toNat
  | .map entries => Entries.atNumber? index entries
  | _ => none

/-- The known item of a value under a text. -/
def entry? (key : Text) : Value → Option Value
  | .map entries => Entries.atText? key entries
  | _ => none

/-- The known part of a value that a step leads to. -/
def known? (v : Value) : Step → Option Value
  | .attribute name => attribute? name v
  | .item index => item? index v
  | .entry key => entry? key v

end Step

namespace Arguments

/-- The part of a value that a step leads to. -/
def take? (args : Arguments) (v : Value) (step : Step) : Option Value :=
  (step.known? v).or (args.further v step)

/-- The part of a value that steps lead to. -/
def follow? (args : Arguments) (v : Value) : List Step → Option Value
  | [] => some v
  | step :: steps => (args.take? v step).bind fun w => args.follow? w steps

end Arguments

namespace FieldPath

/-- The largest index. -/
def indexLimit : Nat := 9223372036854775807

/-- Goes on reading an index. A character that is no decimal digit makes the part a name. -/
def indexFrom (value : Nat) : Text → Except PathFault (Option Nat)
  | [] => .ok (some value)
  | c :: rest =>
    match Text.digitValue? c with
    | none => .ok none
    | some digit =>
      if indexLimit < 10 * value + digit then .error .indexTooLarge
      else indexFrom (10 * value + digit) rest

/-- Reads a part of a path as an index, if it is one. -/
def index? : Text → Except PathFault (Option Nat)
  | [] => .ok none
  | c :: rest => indexFrom 0 (c :: rest)

/-- Whether a character begins a step. -/
def beginsStep (c : Char) : Bool :=
  c == '.' || c == '['

/-- The step to the item between brackets. -/
def itemStep (name : Text) : Except PathFault Step := do
  match ← index? name with
  | some index => return .item index
  | none => if name.isEmpty then throw .emptyName else return .entry name

/-- The steps of a path, up to the first fault. -/
def steps : Text → List Step × Option PathFault
  | [] => ([], none)
  | c :: rest =>
    if c = '.' then
      let name := rest.takeWhile (!beginsStep ·)
      if name.isEmpty then ([], some .emptyName)
      else
        let later := steps (rest.dropWhile (!beginsStep ·))
        (.attribute name :: later.1, later.2)
    else if c = '[' then
      match _h : rest.dropWhile (· != ']') with
      | [] => ([], some .unclosedItem)
      | _ :: after =>
        match itemStep (rest.takeWhile (· != ']')) with
        | .error fault => ([], some fault)
        | .ok step =>
          let later := steps after
          (step :: later.1, later.2)
    else ([], some .textAfterItem)
termination_by t => t.length
decreasing_by
  · have := (List.dropWhile_suffix (l := rest) (!beginsStep ·)).length_le
    simp only [List.length_cons]
    omega
  · have := (List.dropWhile_suffix (l := rest) (· != ']')).length_le
    rw [_h] at this
    simp only [List.length_cons] at this ⊢
    omega

/-- The argument with which the path of a field starts. -/
def start (args : Arguments) (first : Text) : Except PathFault (Option Value) := do
  match ← index? first with
  | some index => return args.positional[index]?
  | none => return args.named.lookup first

/-- The value that the name of a field leads to. A step without a value is found before a fault
that stands further on. -/
def lookup (args : Arguments) (name : Text) : Except Failure Value :=
  let (steps, fault) := steps (name.dropWhile (!beginsStep ·))
  match start args (name.takeWhile (!beginsStep ·)) with
  | .error fault => .error (.path fault)
  | .ok first =>
    match first.bind fun v => args.follow? v steps, fault with
    | none, _ => .error (.template (.noValue name))
    | some _, some fault => .error (.path fault)
    | some v, none => .ok v

end FieldPath

end SqlComposer
