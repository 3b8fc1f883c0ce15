import SqlComposer.CommandLine.Options
import SqlComposer.Json
import SqlComposer.FileTree
import SqlComposer.Query
import SqlComposer.Settings

/-!
# Building a query on the command line

The base statement comes from a file or from the command line itself. Each clause flag adds the
fragment of its keyword and its value; the value is taken as it is. The query is printed with its
parameters, if it has some.
-/

namespace SqlComposer.CommandLine

/-- What a program leaves behind. -/
structure Output where
  exit : Nat
  stdout : Text
  stderr : Text
  deriving DecidableEq, Repr

/-- What ends the program without an output. -/
inductive Abort
  | file (e : FileError)
  | failure (e : Failure)
  | json (e : JsonError)

/-- What ends the program without an output, in words. -/
def Abort.message : Abort → Text
  | .file e => e.message
  | .failure e => e.message
  | .json e => e.message

/-- The events of a run of the program, and what it ends with. -/
structure Run where
  events : List Event
  outcome : Except Abort Output

/-- The fragment of a keyword and a value. -/
def fragment (keyword value : Text) : Text :=
  keyword ++ ' ' :: value

/-- The query with the fragments of further clauses. -/
def addClauses (settings : Except Failure Settings) (q : Query) :
    List (Text × Text) → Logged Query
  | [] => .result q
  | (keyword, value) :: clauses => do
    let settings' ← .ofExcept settings
    let mode := Query.fillMode settings'.strictParameterObjects
    let q ← Query.extend mode q (Template.ofText (fragment keyword value))
    addClauses settings q clauses

/-- The query of a base statement and clauses. The settings are only needed if there is a clause. -/
def buildQuery (settings : Except Failure Settings) (base : Text) (clauses : List (Text × Text)) :
    Logged Query := do
  .report (Query.parseEvents base)
  let q ← addClauses settings (Query.parse base) clauses
  .report [.queryBuilt clauses.length]
  return q

/-- What is printed for a query. -/
def printed (q : Query) : Except Abort Text := do
  let values ← q.values.mapError .failure
  let text := q.text ++ ['\n']
  if values.isEmpty then return text
  else
    let json ← (Json.ofValue .plain (.list values)).mapError .json
    return text ++ "\nParameters:\n".toList ++ Json.indented 0 json ++ ['\n']

/-- The run that ends with a query that was built or could not be. A failure that the library
reports as its own is printed; any other ends the program. -/
def finish (built : Logged Query) : Run :=
  match built.outcome with
  | .ok q =>
    ⟨built.events, do
      let text ← printed q
      return ⟨0, text, []⟩⟩
  | .error e =>
    if e.isOwn then
      ⟨built.events ++ [.buildFailed e.message],
        .ok ⟨1, [], "Error: ".toList ++ e.message ++ ['\n']⟩⟩
    else ⟨built.events, .error (.failure e)⟩

/-- The run that ends because a file cannot be read. -/
def unreadable (file : Text) (e : FileError) : Run :=
  match e with
  | .notPath => ⟨[], .error (.file e)⟩
  | e =>
    ⟨[.unreadableFile file e.message],
      .ok ⟨1, [], "Error reading file: ".toList ++ e.message ++ ['\n']⟩⟩

/-- The output of the options when they ask for nothing. -/
def helpOutput : Output :=
  ⟨0, help, []⟩

/-- What a stop leaves behind. -/
def Stop.output : Stop → Output
  | .help => helpOutput
  | .misuse e => ⟨2, [], e.report⟩

/-- The text of an option that counts: an empty one does not. -/
def nonempty? : Option FlagValue → Option Text
  | some (.text (c :: t)) => some (c :: t)
  | _ => none

/-- The clauses of options as they are written. -/
def Options.writtenClauses (o : Options) : List (Text × Text) :=
  o.clauses.map fun (keyword, value) => (keyword, value.written)

/-- The file that has to be read for options. -/
def Options.wantedFile (o : Options) : Option Text :=
  nonempty? o.file

/-- The run of options, given what reading a file yields and how the query is built. -/
def runOptions (read : Path → Except FileError Text)
    (build : Text → List (Text × Text) → Logged Query) (o : Options) : Run :=
  match o.wantedFile, nonempty? o.query with
  | some file, _ =>
    match read (.ofText file) with
    | .ok base => finish (build base o.writtenClauses)
    | .error e => unreadable file e
  | none, some base => finish (build base o.writtenClauses)
  | none, none => ⟨[], .ok helpOutput⟩

/-- The run of a command line. -/
def run (read : Path → Except FileError Text) (build : Text → List (Text × Text) → Logged Query)
    (arguments : List Text) : Run :=
  match Options.ofArguments arguments with
  | .ok o => runOptions read build o
  | .error stop => ⟨[], .ok stop.output⟩

end SqlComposer.CommandLine
