import SqlComposer.Text.Basic

/-!
# Log levels

Events have one of five levels. A logger lets the events pass whose level is not below its
threshold; the threshold zero stands for that of the surrounding application.
-/

namespace SqlComposer

/-- The levels of events. -/
inductive Level
  | debug
  | info
  | warning
  | error
  | critical
  deriving DecidableEq, Repr

namespace Level

/-- The number of a level. -/
def number : Level → Nat
  | .debug => 10
  | .info => 20
  | .warning => 30
  | .error => 40
  | .critical => 50

/-- The name of a level. -/
def name : Level → Text
  | .debug => "debug".toList
  | .info => "info".toList
  | .warning => "warning".toList
  | .error => "error".toList
  | .critical => "critical".toList

/-- Every level. -/
def all : List Level :=
  [.debug, .info, .warning, .error, .critical]

/-- The second names of levels. -/
def secondNames : List (Text × Level) :=
  [("warn".toList, .warning), ("exception".toList, .error), ("fatal".toList, .critical)]

/-- The level of a name. -/
def ofName? (t : Text) : Option Level :=
  (all.find? fun level => level.name == t).or (secondNames.lookup t)

end Level

/-- The capital letter of a character, as far as it can be an ASCII letter. -/
def Text.capital (c : Char) : Char :=
  if c = '\u0131' then 'I' else if c = '\u017F' then 'S' else c.toUpper

/-- The thresholds that have a name. -/
def thresholdNames : List (Text × Nat) :=
  [("CRITICAL".toList, 50), ("FATAL".toList, 50), ("ERROR".toList, 40), ("WARNING".toList, 30),
    ("WARN".toList, 30), ("INFO".toList, 20), ("DEBUG".toList, 10), ("NOTSET".toList, 0)]

/-- What the name of a threshold stands for. -/
inductive Threshold
  | number (n : Nat)
  /-- A format that shares the name space of the thresholds, and is none. -/
  | format (t : Text)
  deriving DecidableEq, Repr

namespace Threshold

/-- The threshold of a name in any letter case; an unknown name stands for that of `INFO`. -/
def ofName (t : Text) : Threshold :=
  let name := t.map Text.capital
  match thresholdNames.lookup name with
  | some n => .number n
  | none =>
    if name == "BASIC_FORMAT".toList then .format "%(levelname)s:%(name)s:%(message)s".toList
    else .number 20

/-- The threshold in effect: zero stands for that of the surrounding application. -/
def effective (n : Nat) : Nat :=
  if n = 0 then Level.warning.number else n

/-- Whether an event of a level passes a threshold. -/
def passes (n : Nat) (level : Level) : Bool :=
  effective n ≤ level.number

end Threshold

end SqlComposer
