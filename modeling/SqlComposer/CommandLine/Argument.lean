import SqlComposer.CommandLine.Flag
import SqlComposer.Text.Numeral

/-!
# Arguments of the command line

Every argument is classified on its own: it is a value, the separator, a flag with or without a text
attached to it, or looks like a flag that is not known. A long flag can be cut short as long as it
stays unambiguous. After the separator there are only values.
-/

namespace SqlComposer.CommandLine

/-- What is attached to a flag. -/
inductive Attachment
  | nothing
  /-- A text behind a short spelling, directly or after an equals sign. -/
  | toShort (t : Text)
  /-- A text behind a long spelling and an equals sign. -/
  | toLong (t : Text)
  deriving DecidableEq, Repr

/-- Whether a spelling is a long one. -/
def isLong : Text → Bool
  | '-' :: '-' :: _ => true
  | _ => false

/-- What stands behind a spelling. -/
def Attachment.behind (spelling : Text) : Option Text → Attachment
  | none => .nothing
  | some t => if isLong spelling then .toLong t else .toShort t

/-- What an argument is. -/
inductive Argument
  | value (t : Text)
  | separator
  /-- A flag, and what is attached to it. -/
  | flag (f : Flag) (attached : Attachment)
  /-- Something that looks like a flag. -/
  | unknown (t : Text)
  deriving DecidableEq, Repr

/-- An argument that several flags could be meant by. -/
structure Ambiguous where
  argument : Text
  candidates : List Text
  deriving DecidableEq, Repr

/-- The separator between flags and values. -/
def separatorText : Text :=
  ['-', '-']

/-- A text up to the first equals sign, and what follows the sign. -/
def splitAssigned (t : Text) : Text × Option Text :=
  match t.dropWhile (· != '=') with
  | [] => (t, none)
  | _ :: value => (t.takeWhile (· != '='), some value)

/-- Whether a text consists of digits, and holds one. -/
def isDigits (t : Text) : Bool :=
  !t.isEmpty && t.all Text.isDecimal

/-- Whether a text is a negative number with or without decimal places. A line feed may follow. -/
def isNegativeNumber (t : Text) : Bool :=
  match t with
  | '-' :: number =>
    let number := if number.getLast? = some '\n' then number.dropLast else number
    isDigits number ||
      match number.dropWhile Text.isDecimal with
      | '.' :: places => isDigits places
      | _ => false
  | _ => false

/-- A flag that an argument could mean, in one of its spellings, and what is attached to it. -/
structure Candidate where
  spelling : Text
  flag : Flag
  attached : Attachment
  deriving DecidableEq, Repr

/-- What an argument with a dash could mean: a flag by the start of a long spelling, or by a short
spelling with a text behind it. -/
def candidates (t : Text) : List Candidate :=
  if isLong t then
    let (start, attached) := splitAssigned t
    (spellings.filter fun (spelling, _) => start.isPrefixOf spelling).map
      fun (spelling, f) => ⟨spelling, f, .behind spelling attached⟩
  else
    (spellings.filter fun (spelling, _) => spelling == t.take 2).map
      fun (spelling, f) => ⟨spelling, f, .toShort (t.drop 2)⟩

/-- What an argument with a dash is that spells no flag in full. -/
def classifyCandidates (t : Text) : Except Ambiguous Argument :=
  match candidates t with
  | [c] => .ok (.flag c.flag c.attached)
  | [] => .ok (if isNegativeNumber t || t.contains ' ' then .value t else .unknown t)
  | several => .error ⟨t, several.map Candidate.spelling⟩

/-- What an argument before the separator is. -/
def classify (t : Text) : Except Ambiguous Argument :=
  match t with
  | '-' :: _ :: _ =>
    match flag? t with
    | some f => .ok (.flag f .nothing)
    | none =>
      let (spelling, attached) := splitAssigned t
      match flag? spelling with
      | some f => .ok (.flag f (.behind spelling attached))
      | none => classifyCandidates t
  | t => .ok (.value t)

/-- What the arguments are. -/
def classifyAll : List Text → Except Ambiguous (List Argument)
  | [] => .ok []
  | t :: rest =>
    if t == separatorText then .ok (.separator :: rest.map .value)
    else do
      let first ← classify t
      let rest ← classifyAll rest
      return first :: rest

end SqlComposer.CommandLine
