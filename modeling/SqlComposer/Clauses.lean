import SqlComposer.Text.Basic

/-!
# Clauses

A query is kept as one bucket of text per clause. The text of a bucket is what follows the keyword;
a join keeps its own keyword, and a condition after the first its connective.

In the text of a query the clauses are written in a fixed order, one block each, with the lines of a
block indented. Expressions that hold an unresolved named placeholder are left out.
-/

namespace SqlComposer

/-- The clauses of a query. -/
structure Clauses where
  /-- The selected fields; without one everything is selected. -/
  select : List Text := []
  /-- The table expression. -/
  source : Option Text := none
  /-- The joins, each with its keyword. -/
  joins : List Text := []
  /-- The conditions; those after the first carry their connective. -/
  conditions : List Text := []
  /-- The grouping expressions. -/
  groupBy : List Text := []
  /-- The ordering expressions. -/
  orderBy : List Text := []
  /-- The limit, kept as text. -/
  limit : Option Text := none
  /-- The offset, kept as text. -/
  offset : Option Text := none
  deriving DecidableEq, Repr

/-- No clause at all. -/
def Clauses.empty : Clauses := {}

/-- The clause that a line without a keyword continues. -/
inductive Section
  | none
  | select
  | source
  | joins
  | conditions
  | groupBy
  | orderBy
  deriving DecidableEq, Repr

/-- Every section. -/
def Section.all : List Section :=
  [.none, .select, .source, .joins, .conditions, .groupBy, .orderBy]

/-- The name under which a section is reported. -/
def Section.name : Section → Text
  | .none => "none".toList
  | .select => "select".toList
  | .source => "from".toList
  | .joins => "joins".toList
  | .conditions => "where".toList
  | .groupBy => "group_by".toList
  | .orderBy => "order_by".toList

/-- The section of a name. -/
def Section.ofName? (name : Text) : Option Section :=
  Section.all.find? fun s => s.name == name

/-! ## The text of a query -/

namespace Clauses

/-- What a named placeholder leaves in the text when it never receives a value. -/
def unresolved : Text :=
  ":undefined".toList

/-- Whether a text holds no unresolved placeholder. -/
def isResolved (t : Text) : Bool :=
  !unresolved.occursIn t

/-- The grouping and ordering expressions that are worth writing. -/
def usable (expressions : List Text) : List Text :=
  expressions.filter fun e => !e.isEmpty && e != [','] && isResolved e

/-- The block that lists the selected fields. -/
def selectBlock : List Text → Text
  | [] => "SELECT *".toList
  | fields => "SELECT\n  ".toList ++ ",\n  ".toList.intercalate fields

/-- A block of a keyword and its expressions, if there are any. -/
def listBlock (keyword separator : Text) : List Text → List Text
  | [] => []
  | expressions => [keyword ++ separator.intercalate expressions]

/-- A block of a keyword and its operand, if the operand is to be written. -/
def operandBlock (keyword : Text) (keep : Text → Bool) : Option Text → List Text
  | none => []
  | some operand => if keep operand then [keyword ++ operand] else []

/-- The blocks of a query in the order in which they are written. -/
def blocks (c : Clauses) : List Text :=
  selectBlock c.select ::
    operandBlock "FROM ".toList (!·.isEmpty) c.source ++
    listBlock [] ['\n'] c.joins ++
    listBlock "WHERE ".toList "\n  ".toList c.conditions ++
    listBlock "GROUP BY ".toList ", ".toList (usable c.groupBy) ++
    listBlock "ORDER BY ".toList ", ".toList (usable c.orderBy) ++
    operandBlock "LIMIT ".toList isResolved c.limit ++
    operandBlock "OFFSET ".toList isResolved c.offset

/-- The text of a query. -/
def render (c : Clauses) : Text :=
  ['\n'].intercalate c.blocks

end Clauses

end SqlComposer
