import SqlComposer.Interpolation
import SqlComposer.Fragment
import SqlComposer.Placeholder.Bound
import SqlComposer.Template.Read

/-!
# Queries

A query starts from a statement and is extended by fragments; each extension is a new query. Its
parameters are numbered from one on without gaps, and its text refers to them by number.
-/

namespace SqlComposer

namespace Query

/-- The query without clauses and parameters. -/
def empty : Query :=
  ⟨.empty, [], 0⟩

/-- A query of these clauses and parameters, if the parameters are numbered from one up to the
counter. -/
def ofParts (clauses : Clauses) (parameters : Entries) (counter : Int) : Except Failure Query :=
  if parameters.isDense counter then .ok ⟨clauses, parameters, counter⟩
  else
    match Value.sorted parameters.keys with
    | .ok keys => .error (.sparse counter keys)
    | .error e => .error (.incomparable e)

/-- How the values of a template are filled into a query. -/
def fillMode (strict : Bool) : FillMode :=
  { strict, inlineQueries := true }

/-- The query that a template starts. -/
def start (mode : FillMode) (template : Template) : Logged Query := do
  let filled ← interpolate mode template [] 0
  .report (Statement.events .empty filled.text)
  .ofExcept (ofParts (Statement.read .empty filled.text) filled.parameters filled.counter)

/-- The query with a further fragment. -/
def extend (mode : FillMode) (q : Query) (template : Template) : Logged Query := do
  let filled ← interpolate mode template q.parameters q.counter
  .report (Fragment.events q.clauses filled.text)
  .ofExcept (ofParts (Fragment.add q.clauses filled.text) filled.parameters filled.counter)

/-- The query of a statement without values. -/
def parse (statement : Text) : Query :=
  ⟨Statement.read .empty statement, [], 0⟩

/-- What is reported when a statement without values is read. -/
def parseEvents (statement : Text) : List Event :=
  Statement.events .empty statement

/-- The text of a query. -/
def text (q : Query) : Text :=
  q.clauses.render

/-- The values of the parameters in the order of their numbers. -/
def values (q : Query) : Except Failure (List Value) :=
  (Entries.values q.parameters q.counter).mapError .noParameter

/-- The text with named placeholders, and the names with their values. -/
def named (q : Query) : Except Failure (Text × List (Text × Value)) := do
  let values ← q.values
  let text ← (Placeholder.rename values.length q.text).mapError .numeral
  return (text, Placeholder.bindings values)

/-- What keeps a query from being a bound text clause. -/
inductive BindError
  | failure (e : Failure)
  /-- The text does not hold this name of a parameter. -/
  | unbound (name : Text)

/-- What keeps a query from being a bound text clause, in words. -/
def BindError.message : BindError → Text
  | .failure e => e.message
  | .unbound name =>
    "This text() construct doesn't define a bound parameter named ".toList ++ Text.quoted name

/-- The text clause of a query with its parameters bound by name. -/
def textClause (q : Query) : Except BindError (Placeholder.TextClause Value) :=
  match q.named with
  | .error e => .error (.failure e)
  | .ok (text, values) => (Placeholder.bind text values).mapError .unbound

end Query

end SqlComposer
