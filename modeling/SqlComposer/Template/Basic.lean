import SqlComposer.Value.Basic

/-!
# Templates

A template is text with gaps for values: a first segment, and for each gap its value and the segment
after it. So there is always one more segment than there are values.
-/

namespace SqlComposer

/-- A value in a template and the segment after it. -/
structure Gap where
  value : Value
  after : Value

/-- Text segments with values between them. Segments are values that are expected to be text. -/
structure Template where
  first : Value
  gaps : List Gap

/-- How a template can be wrong. -/
inductive TemplateError
  /-- There are not one more segments than values. -/
  | segmentCount (values segments : Nat)
  /-- A format template is malformed. -/
  | malformed (format reason : Text)
  /-- A replacement field has a conversion or a format specification. -/
  | decorated (field : Text)
  /-- Automatic and manual numbering stand side by side. -/
  | mixedNumbering
  /-- A replacement field finds no value. -/
  | noValue (field : Text)
  /-- A template with values is given more values. -/
  | valuesTwice
  /-- A template string is given more values. -/
  | valuesTwiceForString
  /-- A value of this kind is no template. -/
  | notTemplate (typeName : Text)
  deriving DecidableEq, Repr

namespace Template

/-- The segments in order. -/
def segments (t : Template) : List Value :=
  t.first :: t.gaps.map Gap.after

/-- The values in order. -/
def values (t : Template) : List Value :=
  t.gaps.map Gap.value

/-- A template of a single segment. -/
def ofText (t : Text) : Template :=
  ⟨.text t, []⟩

/-- The template of these segments with these values between them. -/
def ofParts (segments values : List Value) : Except TemplateError Template :=
  match segments with
  | first :: rest =>
    if rest.length = values.length then .ok ⟨first, values.zipWith Gap.mk rest⟩
    else .error (.segmentCount values.length segments.length)
  | [] => .error (.segmentCount values.length 0)

end Template

/-- A template error in words. -/
def TemplateError.message : TemplateError → Text
  | .segmentCount values segments =>
    "A template with ".toList ++ Text.ofNat values ++ " values needs ".toList ++
      Text.ofNat (values + 1) ++ " segments, got ".toList ++ Text.ofNat segments
  | .malformed format reason =>
    "Malformed template ".toList ++ format ++ ": ".toList ++ reason
  | .decorated field =>
    "Replacement field \x7b".toList ++ field ++
      "\x7d must not carry a conversion or format spec".toList
  | .mixedNumbering => "Cannot mix automatic and manual replacement field numbering".toList
  | .noValue field => "No value for replacement field \x7b".toList ++ field ++ ['\x7d']
  | .valuesTwice => "SQLTemplate already carries its values".toList
  | .valuesTwiceForString => "Template strings already carry their values".toList
  | .notTemplate typeName => "Expected a str or template, got ".toList ++ typeName

end SqlComposer
