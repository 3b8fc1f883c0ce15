import SqlComposer.Settings.EnvFile
import SqlComposer.Path

/-!
# Settings

The settings come from the environment, then from a file of variables, then from the defaults. Their
names are compared without regard to letter case. The file is `.env` in the root directory of
the application, unless the environment names another one.
-/

namespace SqlComposer

/-- What the surrounding application can set. -/
structure Settings where
  /-- The name of the level from which on events are logged. -/
  logLevel : Text := "INFO".toList
  /-- Whether events are also written to a file. -/
  logToFile : Bool := false
  /-- The directory of log files. -/
  logDirectory : Text := "logs".toList
  /-- Whether a parameter object without exactly one key is refused. -/
  strictParameterObjects : Bool := true
  deriving DecidableEq, Repr

namespace Settings

/-- The words for true. -/
def trueWords : List Text :=
  ["1".toList, "on".toList, "t".toList, "true".toList, "y".toList, "yes".toList]

/-- The words for false. -/
def falseWords : List Text :=
  ["0".toList, "off".toList, "f".toList, "false".toList, "n".toList, "no".toList]

/-- The truth value of a word in any letter case. -/
def truthValue? (word : Text) : Option Bool :=
  let word := word.map Char.toLower
  if trueWords.contains word then some true
  else if falseWords.contains word then some false
  else none

/-- The name of the variable for the log level, in lower case. The application shares it. -/
def logLevelName : Text :=
  "log_level".toList

/-- The name of the library's own variable for a field, in lower case. -/
def ownName (field : Text) : Text :=
  "literal_sql_".toList ++ field

/-- The name of the field for logging to a file. -/
def logToFileField : Text :=
  "log_to_file".toList

/-- The name of the field for the directory of log files. -/
def logDirectoryField : Text :=
  "log_file_dir".toList

/-- The name of the field for parameter objects. -/
def strictField : Text :=
  "strict_param_objects".toList

/-- The value of a variable, from the environment or else from a file. -/
def lookup? (environment : Environment) (file : Variables (Option Text)) (name : Text) :
    Option Text :=
  (environment.ignoringCase? name).or (file.ignoringCase? name).join

/-- A truth value or its default; a word for neither truth value is the field's fault. -/
def flag (field : Text) (default : Bool) : Option Text → Except Text Bool
  | none => .ok default
  | some word =>
    match truthValue? word with
    | some b => .ok b
    | none => .error field

/-- The fields of outcomes that are faults. -/
def faults (outcomes : List (Except Text Bool)) : List Text :=
  outcomes.filterMap fun
    | .ok _ => none
    | .error field => some field

/-- The settings of an environment and a file, or the fields that cannot be read. -/
def load (environment : Environment) (file : Option Text) : Except (List Text) Settings :=
  let fileVariables := EnvFile.assignments environment (file.getD [])
  let value? := lookup? environment fileVariables
  let defaults : Settings := {}
  let logToFile := flag logToFileField defaults.logToFile (value? (ownName logToFileField))
  let strict := flag strictField defaults.strictParameterObjects (value? (ownName strictField))
  match logToFile, strict with
  | .ok logToFile, .ok strictParameterObjects =>
    .ok {
      logLevel := (value? logLevelName).getD defaults.logLevel
      logToFile
      logDirectory := (value? (ownName logDirectoryField)).getD defaults.logDirectory
      strictParameterObjects }
  | _, _ => .error (faults [logToFile, strict])

/-! ## Where the file of variables is found -/

/-- The variable that names the file of variables. -/
def fileVariable : Text :=
  "LITERAL_SQL_ENV_FILE".toList

/-- The path of the file of variables when nothing else is said. -/
def defaultFile : Path :=
  .ofText ".env".toList

/-- The path of the file of variables. A relative path is one inside the root directory. -/
def filePath (home? : Option Text → Option Text) (root : Path) (environment : Environment) :
    Except HomeUnknown Path :=
  match environment.lookup fileVariable with
  | none | some [] => .ok (root.inside defaultFile)
  | some t => root.inside <$> (Path.ofText t).expandHome home?

end Settings

end SqlComposer
