import SqlComposer.Template.Format
import SqlComposer.Template.Lookup
import SqlComposer.Text.Quoted

/-!
# Reading templates

A template is read from a format template and its arguments, or taken from a value that carries
segments and values of its own. Fields are numbered automatically or by hand, but not both.
-/

namespace SqlComposer

/-- How the fields of a format template are numbered. -/
inductive Numbering
  | automatic
  | manual
  deriving DecidableEq, Repr

/-- What a template is read from. -/
inductive TemplateSource
  | template (t : Template)
  | value (v : Value)

namespace Numbering

/-- The numbering that the name of a field asks for, if any. -/
def ofName? : Text → Option Numbering
  | [] => some .automatic
  | c :: _ =>
    if FieldPath.beginsStep c then some .automatic
    else if Text.isDigitLike c then some .manual
    else none

end Numbering

/-- The numbering so far, and the number of the next automatic field. -/
structure FieldState where
  numbering : Option Numbering
  next : Nat

namespace Template

/-- The value of a field, and the state after it. -/
def fieldValue (args : Arguments) (s : FieldState) (f : Format.Field) :
    Except Failure (Value × FieldState) :=
  if f.isDecorated then .error (.template (.decorated f.name))
  else
    let asked := Numbering.ofName? f.name
    if s.numbering.isSome ∧ asked.isSome ∧ asked ≠ s.numbering then
      .error (.template .mixedNumbering)
    else
      let isAutomatic := asked = some .automatic
      let name := if isAutomatic then Text.ofNat s.next ++ f.name else f.name
      let after : FieldState :=
        ⟨asked.or s.numbering, if isAutomatic then s.next + 1 else s.next⟩
      (·, after) <$> FieldPath.lookup args name

/-- The segment up to the first field of some parts, and the gaps from there on. -/
def fill (args : Arguments) (s : FieldState) : List Format.Part → Except Failure (Text × List Gap)
  | [] => .ok ([], [])
  | .char c :: parts => (fun (segment, gaps) => (c :: segment, gaps)) <$> fill args s parts
  | .field f :: parts => do
    let (value, s) ← fieldValue args s f
    let (segment, gaps) ← fill args s parts
    return ([], ⟨value, .text segment⟩ :: gaps)

/-- The template that a format template and its arguments make. -/
def ofFormat (format : Text) (args : Arguments) : Except Failure Template :=
  match Format.parts format with
  | .error fault => .error (.template (.malformed (Text.quoted format) fault.message))
  | .ok parts => (fun (segment, gaps) => ⟨.text segment, gaps⟩) <$> fill args ⟨none, 0⟩ parts

/-- The items of a value that holds some. -/
def items : Value → Except Failure (List Value)
  | .list items | .tuple items => .ok items
  | .text t | .raw t => .ok (t.map fun c => .text [c])
  | .octets b => .ok (b.map fun n => .int n.toNat)
  | .map entries => .ok (Entries.keys entries)
  | v => .error (.notIterable v.typeName)

/-- The segments and the values that a template string carries. -/
def stringParts? : Value → Option (Value × Value)
  | .record attributes => do
    let segments ← attributes.lookup "strings".toList
    let values ← attributes.lookup "values".toList
    return (segments, values)
  | _ => none

/-- The template that a value and further arguments make. -/
def ofValue (v : Value) (args : Arguments) : Except Failure Template :=
  match v.text? with
  | some format => ofFormat format args
  | none =>
    match stringParts? v with
    | none => .error (.template (.notTemplate v.shortTypeName))
    | some (segments, values) =>
      if args.isEmpty then do
        let segments ← items segments
        let values ← items values
        (ofParts segments values).mapError .template
      else .error (.template .valuesTwiceForString)

/-- The template that a source and further arguments make. -/
def ofSource (source : TemplateSource) (args : Arguments) : Except Failure Template :=
  match source with
  | .template t => if args.isEmpty then .ok t else .error (.template .valuesTwice)
  | .value v => ofValue v args

end Template

end SqlComposer
