import SqlComposer.Logged
import SqlComposer.Placeholder.Basic
import SqlComposer.Value.Key

/-!
# Interpolation

The values of a template are filled in one after the other. The absent value is written as `NULL`,
values of some kinds, usually raw text and queries, are written as they are, and any other value
becomes the next parameter, for which a placeholder stands in the text. A mapping is a parameter
object: its only value is the parameter.
-/

namespace SqlComposer

/-- Whether a value is raw text or, where queries are asked for, a query. -/
def Value.isInline (queries : Bool) : Value → Bool
  | .raw _ => true
  | .query _ => queries
  | _ => false

/-- How values are filled in. -/
structure FillMode where
  /-- Whether a parameter object without exactly one key is refused. -/
  strict : Bool
  /-- Whether queries are among the values that are written as they are. -/
  inlineQueries : Bool := false
  /-- How placeholders are written. -/
  style : Placeholder.Style := .positional
  /-- Which values are written as they are. -/
  inlines : Value → Bool := Value.isInline inlineQueries

/-- A text with its parameters. -/
structure Interpolation where
  text : Text
  parameters : Entries
  counter : Int

/-- Parts of a text, and the parameters so far. -/
structure Filling where
  parts : List Value
  parameters : Entries
  counter : Int

namespace FillMode

/-- The text of a value that is written as it is, unless it shows too long a numeral. -/
def inlineText? (mode : FillMode) : Value → Option (Except NumeralError Text)
  | .null => some (.ok "NULL".toList)
  | value => if mode.inlines value then some value.display else none

/-- The report that all but the first of some keys are dropped, with the keys as they are shown. -/
def reportDropped (keys : List Value) : Logged Unit := do
  let shown ← .ofExcept ((keys.mapM Value.display).mapError .numeral)
  .report [.truncated shown.head? shown.tail]

/-- Refuses a parameter object with some keys. The message shows them. -/
def refuse (keys : List Value) : Failure :=
  match Value.quotedList keys with
  | .ok _ => .parameterObject keys
  | .error e => .numeral e

/-- The parameter that a value stands for. A parameter object that does not hold exactly one key is
refused, or gives its first value while the other keys are reported as dropped. -/
def parameter (mode : FillMode) : Value → Logged Value
  | .map [(_, value)] => .result value
  | .map entries =>
    if mode.strict then .ofExcept (.error (refuse (Entries.keys entries)))
    else do
      reportDropped (Entries.keys entries)
      return (entries.head?.map Prod.snd).getD .null
  | value => .result value

/-- The placeholder of the parameter with a number. -/
def placeholder (mode : FillMode) (number : Int) : Except Failure Text :=
  (Placeholder.mark mode.style number).mapError .numeral

/-- The part of the text for a value, and the parameters with it. -/
def fillValue (mode : FillMode) (parameters : Entries) (counter : Int) (value : Value) :
    Logged (Text × Entries × Int) :=
  match mode.inlineText? value with
  | some shown => do
    let t ← .ofExcept (shown.mapError .numeral)
    return (t, parameters, counter)
  | none => do
    let parameter ← mode.parameter value
    let placeholder ← .ofExcept (mode.placeholder (counter + 1))
    return (placeholder, parameters.put (counter + 1) parameter, counter + 1)

/-- The parts of the text for gaps, and the parameters with them. -/
def fillGaps (mode : FillMode) (parameters : Entries) (counter : Int) :
    List Gap → Logged Filling
  | [] => .result ⟨[], parameters, counter⟩
  | gap :: gaps => do
    let (part, parameters, counter) ← mode.fillValue parameters counter gap.value
    let filling ← mode.fillGaps parameters counter gaps
    return { filling with parts := .text part :: gap.after :: filling.parts }

end FillMode

/-- The text of parts from a position on. A part that is no text has no place in it. -/
def joinParts (position : Nat) : List Value → Except Failure Text
  | [] => .ok []
  | part :: parts =>
    match part.text? with
    | some t => (t ++ ·) <$> joinParts (position + 1) parts
    | none => .error (.notText position part.typeName)

/-- Fills in the values of a template after parameters that are numbered up to a counter. -/
def interpolate (mode : FillMode) (template : Template) (parameters : Entries) (counter : Int) :
    Logged Interpolation := do
  let filling ← mode.fillGaps parameters counter template.gaps
  .report [.interpolated template.gaps.length (filling.counter - counter).toNat]
  let text ← .ofExcept (joinParts 0 (template.first :: filling.parts))
  return ⟨text, filling.parameters, filling.counter⟩

end SqlComposer
