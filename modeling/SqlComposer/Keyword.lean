import SqlComposer.Text.Word
import SqlComposer.Text.Quoted

/-!
# Clause keywords

A keyword opens a line of a statement or a fragment. Each keyword has one or more spellings, which
are phrases; letter case is ignored, and the spelling ends on a word boundary, so that `ORDER BY`
is not taken for `OR`.
-/

namespace SqlComposer

/-- The keywords that open a clause, and the two connectives of conditions. -/
inductive Keyword
  /-- `SELECT` -/
  | select
  /-- `FROM` -/
  | source
  /-- `JOIN` in all its forms -/
  | join
  /-- `WHERE` -/
  | condition
  /-- `GROUP BY` -/
  | groupBy
  /-- `ORDER BY` -/
  | orderBy
  /-- `LIMIT` -/
  | limit
  /-- `OFFSET` -/
  | offset
  /-- `AND` -/
  | conjunction
  /-- `OR` -/
  | disjunction
  deriving DecidableEq, Repr

/-- A keyword that does not stand at the start of a text. -/
structure KeywordMissing where
  keyword : Keyword
  text : Text
  deriving DecidableEq, Repr

namespace Keyword

/-- The spellings of the `JOIN` keyword. -/
def joinSpellings : List (List Text) :=
  let join := "join".toList
  let outer := "outer".toList
  let sides := ["left".toList, "right".toList, "full".toList]
  [join] :: sides.flatMap (fun side => [[side, outer, join], [side, join]]) ++
    [["inner".toList, join], ["cross".toList, join]]

/-- The spellings of a keyword, in lower case. -/
def spellings : Keyword → List (List Text)
  | .select => [["select".toList]]
  | .source => [["from".toList]]
  | .join => joinSpellings
  | .condition => [["where".toList]]
  | .groupBy => [["group".toList, "by".toList]]
  | .orderBy => [["order".toList, "by".toList]]
  | .limit => [["limit".toList]]
  | .offset => [["offset".toList]]
  | .conjunction => [["and".toList]]
  | .disjunction => [["or".toList]]

/-- What follows the keyword at the start of a text. -/
def after? (k : Keyword) (t : Text) : Option Text :=
  k.spellings.findSome? fun phrase => Text.afterPhrase? phrase t

/-- Whether the keyword stands at the start of a text. -/
def opens (k : Keyword) (t : Text) : Bool :=
  (k.after? t).isSome

/-- What a keyword applies to: the text after it without surrounding blanks. -/
def operand (k : Keyword) (t : Text) : Except KeywordMissing Text :=
  match k.after? t with
  | some rest => .ok (Text.trim rest)
  | none => .error ⟨k, t⟩

/-- The first of some keywords that opens a text, with its operand. -/
def first? (ks : List Keyword) (t : Text) : Option (Keyword × Text) :=
  ks.findSome? fun k => (k.after? t).map fun rest => (k, Text.trim rest)

/-- The name under which a fragment's keyword is reported. -/
def name : Keyword → Text
  | .select => "select".toList
  | .source => "from".toList
  | .join => "join".toList
  | .condition => "where".toList
  | .groupBy => "group_by".toList
  | .orderBy => "order_by".toList
  | .limit => "limit".toList
  | .offset => "offset".toList
  | .conjunction => "and".toList
  | .disjunction => "or".toList

/-- The pattern that an error message shows for a keyword. -/
def pattern : Keyword → Text
  | .select => "select\\b".toList
  | .source => "from\\b".toList
  | .join =>
    "(?:(?:left|right|full)(?:\\s+outer)?\\s+|inner\\s+|cross\\s+)?join\\b".toList
  | .condition => "where\\b".toList
  | .groupBy => "group\\s+by\\b".toList
  | .orderBy => "order\\s+by\\b".toList
  | .limit => "limit\\b".toList
  | .offset => "offset\\b".toList
  | .conjunction => "and\\b".toList
  | .disjunction => "or\\b".toList

end Keyword

/-- A missing keyword in words. -/
def KeywordMissing.message (e : KeywordMissing) : Text :=
  Text.quoted e.text ++ " does not start with ".toList ++ Text.quoted e.keyword.pattern

end SqlComposer
