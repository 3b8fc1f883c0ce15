import SqlComposer.Log.Record
import SqlComposer.Path
import SqlComposer.Settings

/-!
# Where records are written

The settings say from which level on records are written, and whether they also go to a file of the
day beside the standard error stream. Only the records of the library's own loggers are written;
those of other loggers follow the threshold of the surrounding application, and must be fit to be
written all the same.
-/

namespace SqlComposer

/-- The name of a threshold stands for something else. -/
structure UnknownThreshold where
  text : Text
  deriving DecidableEq, Repr

/-- An unknown threshold in words. -/
def UnknownThreshold.message (e : UnknownThreshold) : Text :=
  "Unknown level: ".toList ++ Text.quoted e.text

/-- Where records are written, and from which level on. -/
structure LogSetup where
  threshold : Nat
  /-- The file of the day, if there is one. -/
  file : Option Path
  deriving DecidableEq, Repr

/-- The logger above all loggers of the library. -/
def rootLogger : Text :=
  "literal_sql".toList

/-- Whether a record comes from one of the library's own loggers. -/
def Record.isOwn (r : Record) : Bool :=
  r.logger == rootLogger || (rootLogger ++ ['.']).isPrefixOf r.logger

namespace LogSetup

/-- The file of a day in a directory. -/
def dayFile (directory day : Text) : Path :=
  ((Path.ofText directory).inside
    (.ofText ("literal-sql-".toList ++ day ++ ".log".toList))).direct

/-- The setup for settings on a day. -/
def ofSettings (day : Text) (s : Settings) : Except UnknownThreshold LogSetup :=
  match Threshold.ofName s.logLevel with
  | .format t => .error ⟨t⟩
  | .number threshold =>
    .ok ⟨threshold, if s.logToFile then some (dayFile s.logDirectory day) else none⟩

/-- The threshold for a record. -/
def thresholdFor (setup : LogSetup) (r : Record) : Nat :=
  if r.isOwn then setup.threshold else 0

/-- The JSON object that is written for a record, if one is. -/
def writtenFor (setup : LogSetup) (r : Record) : Except RecordError (Option Json) := do
  r.reported
  if Threshold.passes (setup.thresholdFor r) r.level then
    let json ← r.json
    return if r.isOwn then some json else none
  else return none

/-- The records that are written, each as a JSON object. -/
def written (setup : LogSetup) : List Record → Except RecordError (List Json)
  | [] => .ok []
  | r :: rs => do
    let first ← setup.writtenFor r
    let rest ← written setup rs
    return first.toList ++ rest

end LogSetup

end SqlComposer
