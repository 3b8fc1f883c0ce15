import SqlComposer.CommandLine.Argument
import SqlComposer.Text.Quoted

/-!
# Usage and misuse of the command line

The texts that are printed when help is asked for, and when the arguments cannot be understood.
-/

namespace SqlComposer.CommandLine

/-- How arguments can be misused. -/
inductive Misuse
  | ambiguous (e : Ambiguous)
  /-- A flag lacks its value. -/
  | missingValue (f : Flag)
  /-- A text is attached to a flag that takes none. -/
  | ignoredValue (f : Flag) (attached : Text)
  /-- Arguments are left over. -/
  | unrecognized (arguments : List Text)
  deriving DecidableEq, Repr

/-- A misuse in words. -/
def Misuse.message : Misuse → Text
  | .ambiguous e =>
    "ambiguous option: ".toList ++ e.argument ++ " could match ".toList ++
      Text.commaList e.candidates
  | .missingValue f => "argument ".toList ++ f.name ++ ": expected one argument".toList
  | .ignoredValue f attached =>
    "argument ".toList ++ f.name ++ ": ignored explicit argument ".toList ++ Text.quoted attached
  | .unrecognized arguments =>
    "unrecognized arguments: ".toList ++ [' '].intercalate arguments

/-- The name of the program. -/
def programName : Text :=
  "literal-sql".toList

/-- Lines that each end in a line feed. -/
def linesText (lines : List String) : Text :=
  lines.flatMap fun line => line.toList ++ ['\n']

/-- How the program is called. -/
def usage : Text :=
  linesText
    ["usage: literal-sql [-h] [-f FILE] [-q QUERY] [--where CONDITION]",
      "                   [--and CONDITION] [--or CONDITION] [--join TEXT]",
      "                   [--left-join TEXT] [--right-join TEXT] [--inner-join TEXT]",
      "                   [--group-by EXPR] [--order-by EXPR] [--limit NUMBER]",
      "                   [--offset NUMBER]"]

/-- What the program does and what its flags mean. -/
def help : Text :=
  usage ++ linesText
    ["",
      "literal-sql CLI - build a SQL query clause by clause",
      "",
      "options:",
      "  -h, --help            show this help message and exit",
      "  -f FILE, --file FILE  Read base SQL query from FILE",
      "  -q QUERY, --query QUERY",
      "                        Specify SQL query directly",
      "  --where CONDITION     Add a WHERE clause",
      "  --and CONDITION       Add an AND condition to the WHERE clause",
      "  --or CONDITION        Add an OR condition to the WHERE clause",
      "  --join TEXT           Add a JOIN clause",
      "  --left-join TEXT      Add a LEFT JOIN clause",
      "  --right-join TEXT     Add a RIGHT JOIN clause",
      "  --inner-join TEXT     Add an INNER JOIN clause",
      "  --group-by EXPR       Add a GROUP BY clause",
      "  --order-by EXPR       Add an ORDER BY clause",
      "  --limit NUMBER        Add a LIMIT clause",
      "  --offset NUMBER       Add an OFFSET clause",
      "",
      "Examples:",
      "  # Read query from a file and add conditions",
      "  literal-sql --file query.sql --where \"active = true\" " ++
        "--and \"created_at > '2023-01-01'\"",
      "",
      "  # Build a query from a literal statement",
      "  literal-sql --query \"SELECT * FROM users\" --where \"id > 100\" " ++
        "--order-by \"created_at DESC\" --limit 10",
      "        "]

/-- What is printed about a misuse. -/
def Misuse.report (e : Misuse) : Text :=
  usage ++ programName ++ ": error: ".toList ++ e.message ++ ['\n']

end SqlComposer.CommandLine
