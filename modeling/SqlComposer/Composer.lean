import SqlComposer.Query
import SqlComposer.Settings

/-!
# Composing queries under ambient settings

The settings are read from the environment and the file of variables when they are first asked for,
and then kept until they are cleared. An attempt that fails is not kept.

Queries are started and extended from anything that makes a template. Whether parameter objects are
checked strictly is an ambient setting, which is read only after the template has been. Starting and
extending are functions with parameters of their own, whose names no argument of a template can
have.
-/

namespace SqlComposer

/-- An environment and a file of variables, and the settings that were read from them. -/
structure Ambient where
  environment : Environment
  file : Option Text := none
  settings : Option Settings := none

namespace Ambient

/-- Sets a variable, or removes it. What was read stays. -/
def setVariable (name : Text) (value : Option Text) (a : Ambient) : Ambient :=
  { a with
    environment :=
      match value with
      | some value => a.environment.assign name value
      | none => a.environment.unassign name }

/-- Forgets what was read. -/
def clear (a : Ambient) : Ambient :=
  { a with settings := none }

/-- The settings, read if need be. -/
def current (a : Ambient) : Except Failure Settings × Ambient :=
  match a.settings with
  | some settings => (.ok settings, a)
  | none =>
    match Settings.load a.environment a.file with
    | .ok settings => (.ok settings, { a with settings := some settings })
    | .error fields => (.error (.settings fields), a)

end Ambient

/-! ## Arguments -/

/-- The functions that make a query of a template. -/
inductive Maker
  /-- Starts a query from a statement. -/
  | statement
  /-- Extends a query by a fragment. -/
  | fragment
  deriving DecidableEq, Repr

namespace Maker

/-- The name of a function in messages. -/
def name : Maker → Text
  | .statement => "sql".toList
  | .fragment => "QueryState.sql".toList

/-- The parameters of a function that every call of it gives a value: the template, and the query
that is extended. -/
def parameters : Maker → List Text
  | .statement => ["template".toList]
  | .fragment => ["self".toList, "template".toList]

/-- The template that a source and arguments make for a function. The arguments are for the fields
of the template, but none can have the name of a parameter. -/
def template (maker : Maker) (source : TemplateSource) (args : Arguments) :
    Except Failure Template :=
  match args.repeated? maker.parameters with
  | some argument => .error (.repeated maker.name argument)
  | none => Template.ofSource source args

end Maker

/-! ## Queries -/

namespace Ambient

/-- A computation that asks whether parameter objects are checked strictly. -/
def strictly {α : Type} (a : Ambient) (f : Bool → Logged α) : Logged α × Ambient :=
  let (settings, a) := a.current
  (do
    let settings ← .ofExcept settings
    f settings.strictParameterObjects, a)

/-- A computation on a template, if there is one. -/
def onTemplate {α : Type} (a : Ambient) (template : Except Failure Template)
    (f : FillMode → Template → Logged α) : Logged α × Ambient :=
  match template with
  | .error e => (.ofExcept (.error e), a)
  | .ok template => a.strictly fun strict => f (Query.fillMode strict) template

/-- The query of a complete statement. -/
def start (a : Ambient) (source : TemplateSource) (args : Arguments) : Logged Query × Ambient :=
  a.onTemplate (Maker.statement.template source args) Query.start

/-- The query with a further fragment. -/
def extend (a : Ambient) (q : Query) (source : TemplateSource) (args : Arguments) :
    Logged Query × Ambient :=
  a.onTemplate (Maker.fragment.template source args) fun mode template => q.extend mode template

end Ambient

end SqlComposer
