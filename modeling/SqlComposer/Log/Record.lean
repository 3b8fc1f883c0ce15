import SqlComposer.Logged
import SqlComposer.Log.Level
import SqlComposer.Log.Redaction
import SqlComposer.Json
import SqlComposer.Value.Key

/-!
# Log records

An event is logged as a record: the name of its logger, its level, its own name, and its fields. No
field may have the name of an argument of the call that reports it. A record is redacted and written
as a JSON object; what asks for a trace of the program is left out.
-/

namespace SqlComposer

/-- What is logged about an event. -/
structure Record where
  logger : Text
  level : Level
  event : Text
  fields : Entries

/-- What keeps a record from being written. -/
inductive RecordError
  | redaction (e : RedactionError)
  | json (e : JsonError)
  /-- A field has the name of an argument of a call. -/
  | repeated (call argument : Text)
  /-- The record that a field refers to has no logger. -/
  | nameless (typeName : Text)

/-- What keeps a record from being written, in words. -/
def RecordError.message : RecordError → Text
  | .redaction e => e.message
  | .json e => e.message
  | .repeated call argument => Text.repeatedArgument call argument
  | .nameless typeName => '\'' :: typeName ++ "' object has no attribute 'name'".toList

namespace Event

/-- The parts of the library that report events. -/
inductive Reporter
  | statement
  | fragment
  | interpolation
  | commandLine
  deriving DecidableEq, Repr

/-- The name of a reporter's logger. -/
def Reporter.logger : Reporter → Text
  | .statement => "literal_sql.core.parser".toList
  | .fragment => "literal_sql.core.classifier".toList
  | .interpolation => "literal_sql.core.interpolation".toList
  | .commandLine => "literal_sql.cli.build".toList

/-- Who reports an event. -/
def reporter : Event → Reporter
  | .lineDropped .. | .statementRead .. => .statement
  | .fragmentRouted .. => .fragment
  | .interpolated .. | .truncated .. => .interpolation
  | .queryBuilt .. | .unreadableFile .. | .buildFailed .. => .commandLine

/-- The level of an event. -/
def level : Event → Level
  | .truncated .. => .warning
  | .unreadableFile .. | .buildFailed .. => .error
  | _ => .debug

/-- The name of an event. -/
def name : Event → Text
  | .lineDropped .. => "parser.line_dropped".toList
  | .statementRead .. => "parser.statement_parsed".toList
  | .fragmentRouted .. => "classifier.fragment_routed".toList
  | .interpolated .. => "interpolation.completed".toList
  | .truncated .. => "interpolation.param_object_truncated".toList
  | .queryBuilt .. => "cli.query_built".toList
  | .unreadableFile .. => "cli.file_read_failed".toList
  | .buildFailed .. => "cli.build_failed".toList

/-- A field of a record. -/
def field (name : String) (value : Value) : Value × Value :=
  (.text name.toList, value)

/-- The number of something. -/
def count (n : Nat) : Value :=
  .int n

/-- The fields of an event. -/
def fields : Event → Entries
  | .lineDropped current line => [field "section" (.text current.name), field "line" (.text line)]
  | .statementRead lines selected conditions =>
    [field "lines" (count lines), field "select_fields" (count selected),
      field "where_conditions" (count conditions)]
  | .fragmentRouted keyword =>
    [field "rule" (.text ((keyword.map Keyword.name).getD "implicit_where".toList))]
  | .interpolated values parameters =>
    [field "values" (count values), field "params_added" (count parameters)]
  | .truncated kept dropped =>
    [field "kept_key" ((kept.map .text).getD .null),
      field "dropped_keys" (.list (dropped.map .text))]
  | .queryBuilt clauses => [field "clauses" (count clauses)]
  | .unreadableFile path error => [field "path" (.text path), field "error" (.text error)]
  | .buildFailed error => [field "error" (.text error)]

/-- The record of an event. -/
def record (e : Event) : Record :=
  ⟨e.reporter.logger, e.level, e.name, e.fields⟩

end Event

namespace Record

/-- The calls that report a record, with their arguments; the outermost call comes first. -/
def calls (r : Record) : List (Text × List Text) :=
  [("BoundLogger.".toList ++ r.level.name, ["self".toList, "event".toList]),
    ("BoundLogger._proxy_to_logger".toList, ["method_name".toList])]

/-- The first name among the fields that is one of some names. -/
def nameAmong? (r : Record) (names : List Text) : Option Text :=
  r.fields.findSome? fun (key, _) => names.find? key.isText

/-- Whether a record can be reported: no field repeats an argument. -/
def reported (r : Record) : Except RecordError Unit :=
  r.calls.forM fun (call, arguments) =>
    match r.nameAmong? arguments with
    | some argument => throw (.repeated call argument)
    | none => pure ()

/-- The name that a value has as an attribute. -/
def nameOf? : Value → Option Value
  | .record attributes => attributes.lookup "name".toList
  | _ => none

/-- The name of the logger: that of the record that a field refers to, if there is one. -/
def loggerName (r : Record) : Except RecordError Value :=
  match r.fields.atText? "_record".toList with
  | none | some .null => .ok (.text r.logger)
  | some other =>
    match nameOf? other with
    | some name => .ok name
    | none => .error (.nameless other.typeName)

/-- The fields that a record sets itself, and the time, which is not kept. -/
def ownFields : List Text :=
  ["event".toList, "level".toList, "logger".toList, "timestamp".toList]

/-- The fields that ask for a trace of the program. -/
def traceFields : List Text :=
  ["stack_info".toList, "exc_info".toList]

/-- Entries without those of some names. -/
def without (names : List Text) (entries : Entries) : Entries :=
  entries.filter fun (key, _) => !names.any fun name => key.isText name

/-- The entries of a record. What the event brings under the name of an own field is replaced. -/
def entries (r : Record) : Except RecordError Entries := do
  let logger ← r.loggerName
  return without ownFields r.fields ++
    [Event.field "event" (.text r.event), Event.field "level" (.text r.level.name),
      Event.field "logger" logger]

/-- The JSON object of a record. Fields that ask for a trace are redacted with the others before
they are left out. -/
def json (r : Record) : Except RecordError Json := do
  let entries ← (Redaction.redact (← r.entries)).mapError .redaction
  let members ← (Json.ofEntries .quoted (without traceFields entries)).mapError .json
  return .object members

end Record

end SqlComposer
