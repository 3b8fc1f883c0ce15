import SqlComposer.Keyword
import SqlComposer.Clauses
import SqlComposer.Logged

/-!
# Statements

A statement is read line by line. A line that a clause keyword opens goes to that clause; any other
line continues the clause opened last. `LIMIT` and `OFFSET` take a single line each and leave the
open clause as it is.
-/

namespace SqlComposer.Statement

/-- The keywords that open a line, in the order in which they are tried. -/
def keywords : List Keyword :=
  [.select, .source, .join, .condition, .groupBy, .orderBy, .limit, .offset]

/-- The keyword that opens a line, with its operand. -/
def keyword? (line : Text) : Option (Keyword × Text) :=
  Keyword.first? keywords line

/-- A text without a comma at its start and the blanks after that comma. -/
def dropLeadingComma : Text → Text
  | ',' :: rest => Text.trimStart rest
  | line => line

/-- A text without a comma at its end and the blanks after that comma. -/
def dropTrailingComma (line : Text) : Text :=
  let body := Text.trimEnd line
  if body.getLast? = some ',' then body.dropLast else line

/-- A line of a field list without the comma at either end; a lone comma is no field. -/
def fieldOf (line : Text) : Text :=
  if Text.trim line = [','] then [] else dropTrailingComma (dropLeadingComma line)

/-- The fields that a line of a field list holds: one, or none. -/
def fieldsOf (line : Text) : List Text :=
  [fieldOf line].filter (!·.isEmpty)

/-- The section that is open after a line opened by a keyword. -/
def sectionOf (current : Section) : Keyword → Section
  | .select => .select
  | .source => .source
  | .join => .joins
  | .condition => .conditions
  | .groupBy => .groupBy
  | .orderBy => .orderBy
  | _ => current

/-- The section that is open after a line. -/
def sectionAfter (current : Section) (line : Text) : Section :=
  match keyword? line with
  | some (k, _) => sectionOf current k
  | none => current

/-- The clauses after a line opened by a keyword. -/
def openWith (c : Clauses) (line : Text) (k : Keyword) (operand : Text) : Clauses :=
  match k with
  | .select => { c with select := fieldsOf operand }
  | .source => { c with source := some operand }
  | .join => { c with joins := c.joins ++ [line] }
  | .condition => { c with conditions := c.conditions ++ [operand] }
  | .groupBy => { c with groupBy := c.groupBy ++ [operand] }
  | .orderBy => { c with orderBy := c.orderBy ++ [operand] }
  | .limit => { c with limit := some operand }
  | .offset => { c with offset := some operand }
  | .conjunction | .disjunction => c

/-- The clauses after a line that continues a section. -/
def continueWith (c : Clauses) (line : Text) : Section → Clauses
  | .select => { c with select := c.select ++ fieldsOf line }
  | .conditions => { c with conditions := c.conditions ++ [line] }
  | .groupBy => { c with groupBy := c.groupBy ++ [line] }
  | .orderBy => { c with orderBy := c.orderBy ++ [line] }
  | .none | .source | .joins => c

/-- The clauses after a line that follows lines which left a section open. -/
def applyLine (current : Section) (c : Clauses) (line : Text) : Clauses :=
  match keyword? line with
  | some (k, operand) => openWith c line k operand
  | none => continueWith c line current

/-- Reads lines from an open section on. -/
def readLines (current : Section) (c : Clauses) : List Text → Clauses
  | [] => c
  | line :: rest => readLines (sectionAfter current line) (applyLine current c line) rest

/-- The lines of a statement: trimmed, and without the blank ones. -/
def linesOf (statement : Text) : List Text :=
  (statement.lines.map Text.trim).filter (!·.isEmpty)

/-- The clauses after a statement. -/
def read (c : Clauses) (statement : Text) : Clauses :=
  readLines .none c (linesOf statement)

/-- Whether a section takes further lines. -/
def takesLines : Section → Bool
  | .select | .conditions | .groupBy | .orderBy => true
  | .none | .source | .joins => false

/-- Whether a line has no keyword and no clause to continue. -/
def isDropped (current : Section) (line : Text) : Bool :=
  (keyword? line).isNone && !takesLines current

/-- What is reported about a line. -/
def lineEvents (current : Section) (line : Text) : List Event :=
  if isDropped current line then [.lineDropped current line] else []

/-- What is reported about lines from an open section on. -/
def linesEvents (current : Section) : List Text → List Event
  | [] => []
  | line :: rest => lineEvents current line ++ linesEvents (sectionAfter current line) rest

/-- What is reported when a statement is read. -/
def events (c : Clauses) (statement : Text) : List Event :=
  let lines := linesOf statement
  let result := readLines .none c lines
  linesEvents .none lines ++
    [.statementRead lines.length result.select.length result.conditions.length]

end SqlComposer.Statement
