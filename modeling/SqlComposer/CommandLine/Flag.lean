import SqlComposer.Text.Basic

/-!
# Flags of the command line

A flag has one or more spellings and says what it is for. Each clause flag stands for a keyword; its
value is what follows the keyword.
-/

namespace SqlComposer.CommandLine

/-- What a flag is for. -/
inductive Purpose
  | help
  | file
  | query
  | clause (keyword : Text)
  deriving DecidableEq, Repr

/-- A flag with its spellings. -/
structure Flag where
  spellings : List Text
  purpose : Purpose
  deriving DecidableEq, Repr

namespace Flag

/-- Whether a flag takes a value. -/
def takesValue (f : Flag) : Bool :=
  f.purpose ≠ .help

/-- The name of a flag: all its spellings. -/
def name (f : Flag) : Text :=
  ['/'].intercalate f.spellings

/-- A clause flag. -/
def clause (spelling keyword : String) : Flag :=
  ⟨[spelling.toList], .clause keyword.toList⟩

end Flag

/-- The flags of the command line. -/
def flags : List Flag :=
  [⟨["-h".toList, "--help".toList], .help⟩,
    ⟨["-f".toList, "--file".toList], .file⟩,
    ⟨["-q".toList, "--query".toList], .query⟩,
    .clause "--where" "WHERE",
    .clause "--and" "AND",
    .clause "--or" "OR",
    .clause "--join" "JOIN",
    .clause "--left-join" "LEFT JOIN",
    .clause "--right-join" "RIGHT JOIN",
    .clause "--inner-join" "INNER JOIN",
    .clause "--group-by" "GROUP BY",
    .clause "--order-by" "ORDER BY",
    .clause "--limit" "LIMIT",
    .clause "--offset" "OFFSET"]

/-- Each spelling with its flag. -/
def spellings : List (Text × Flag) :=
  flags.flatMap fun f => f.spellings.map fun spelling => (spelling, f)

/-- The flag of a spelling. -/
def flag? (spelling : Text) : Option Flag :=
  spellings.lookup spelling

end SqlComposer.CommandLine
