import Std.Time.Format
import SqlComposer.CommandLine.Build
import SqlComposer.Log.Setup
import SqlComposer.Composer
import SqlComposer.Settings

/-!
# The program

The outermost layer of the command line: it takes the settings from the environment of the process,
reads the file that is asked for, and writes the output and the log.
-/

namespace SqlComposer.Process

/-- The variables that are looked up. -/
def variableNames : List String :=
  ["LOG_LEVEL", "LITERAL_SQL_LOG_TO_FILE", "LITERAL_SQL_LOG_FILE_DIR",
    "LITERAL_SQL_STRICT_PARAM_OBJECTS", "LITERAL_SQL_ENV_FILE"]

/-- The environment of the process. -/
def environment : IO Environment := do
  let mut found : Environment := []
  for name in variableNames do
    if let some value ← IO.getEnv name then
      found := found.assign name.toList value.toList
  return found

/-- The fault behind an error of the file system. -/
def faultOf : IO.Error → FileFault
  | .permissionDenied .. => .denied
  | .inappropriateType _ code _ => if code = 21 then .directory else .notDirectory
  | .invalidArgument .. | .resourceExhausted .. => .nameTooLong
  | _ => .missing

/-- The text of the file at a path. -/
def readFile (path : Path) : IO (Except FileError Text) := do
  if path.text.contains '\x00' then return .error .notPath
  match ← (IO.FS.readBinFile (String.ofList path.text)).toBaseIO with
  | .ok octets => return FileTree.decode octets.toList
  | .error e => return .error (.refused (faultOf e) path)

/-- The text of the file of variables, if there is one. -/
def variableFile (env : Environment) : IO (Option Text) := do
  let home ← IO.getEnv "HOME"
  let homeOf := fun owner : Option Text => if owner.isNone then home.map String.toList else none
  match Settings.filePath homeOf (.ofText []) env with
  | .error _ => return none
  | .ok path => return (← readFile path).toOption

/-- The day, as eight digits. -/
def today : IO Text := do
  let date ← Std.Time.PlainDate.now
  return (date.format "uuuuMMdd").toList

/-- Writes records to the standard error stream and to the file of the day. -/
def writeLog (setup : LogSetup) (records : List Record) : IO Unit := do
  let lines := ((setup.written records).toOption.getD []).map fun json => String.ofList json.line
  let stderr ← IO.getStderr
  lines.forM stderr.putStrLn
  if let some file := setup.file then
    let directory : Path := ⟨file.root, file.parts.dropLast⟩
    IO.FS.createDirAll (String.ofList directory.text)
    IO.FS.withFile (String.ofList file.text) .append fun handle => lines.forM handle.putStrLn

/-- Runs the command line under settings, and gives the exit code. -/
def run (settings : Settings) (setup : LogSetup) (arguments : List Text) : IO UInt32 := do
  let wanted := (CommandLine.Options.ofArguments arguments).toOption.bind (·.wantedFile)
  let content ← (wanted.mapM fun file => readFile (.ofText file) : IO _)
  let read := fun path => content.getD (.error (.refused .missing path))
  let result := CommandLine.run read (CommandLine.buildQuery (.ok settings)) arguments
  writeLog setup (result.events.map Event.record)
  match result.outcome with
  | .ok output =>
    IO.print (String.ofList output.stdout)
    IO.eprint (String.ofList output.stderr)
    return .ofNat output.exit
  | .error abort =>
    IO.eprintln (String.ofList abort.message)
    return 1

/-- Runs the command line under the settings of the process, and gives the exit code. -/
def start (arguments : List Text) : IO UInt32 := do
  let environment ← environment
  let ambient : Ambient := { environment, file := ← variableFile environment }
  match ambient.current.1 with
  | .error e =>
    IO.eprintln (String.ofList e.message)
    return 1
  | .ok settings =>
    match LogSetup.ofSettings (← today) settings with
    | .error e =>
      IO.eprintln (String.ofList e.message)
      return 1
    | .ok setup => run settings setup arguments

end SqlComposer.Process

/-- The program. -/
def main (arguments : List String) : IO UInt32 :=
  SqlComposer.Process.start (arguments.map String.toList)
