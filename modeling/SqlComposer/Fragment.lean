import SqlComposer.Statement

/-!
# Fragments

A fragment is a short piece of a query, such as `WHERE x = 1` or `LIMIT 10`. Its keyword says which
clause it goes to; a fragment that `SELECT` opens is read as a statement, and one without a keyword
is a further condition.
-/

namespace SqlComposer.Fragment

/-- The keywords that route a fragment, in the order in which they are tried. -/
def keywords : List Keyword :=
  [.select, .source, .join, .condition, .groupBy, .orderBy, .conjunction, .disjunction, .limit,
    .offset]

/-- The keyword that opens a fragment, with its operand. -/
def keyword? (fragment : Text) : Option (Keyword × Text) :=
  Keyword.first? keywords fragment

/-- A further condition, after a connective unless it is the first one. -/
def addCondition (c : Clauses) (connective condition : Text) : Clauses :=
  let entry := if c.conditions.isEmpty then condition else connective ++ ' ' :: condition
  { c with conditions := c.conditions ++ [entry] }

/-- The clauses after a trimmed fragment opened by a keyword. -/
def route (c : Clauses) (fragment : Text) (k : Keyword) (operand : Text) : Clauses :=
  match k with
  | .select => Statement.read c fragment
  | .source => { c with source := some operand }
  | .join => { c with joins := c.joins ++ [fragment] }
  | .condition => { c with conditions := c.conditions ++ [operand] }
  | .groupBy => { c with groupBy := c.groupBy ++ [operand] }
  | .orderBy => { c with orderBy := c.orderBy ++ [operand] }
  | .limit => { c with limit := some operand }
  | .offset => { c with offset := some operand }
  | .conjunction => addCondition c "AND".toList operand
  | .disjunction => addCondition c "OR".toList operand

/-- The clauses after a fragment. A blank fragment changes nothing. -/
def add (c : Clauses) (fragment : Text) : Clauses :=
  let body := Text.trim fragment
  if body.isEmpty then c
  else
    match keyword? body with
    | some (k, operand) => route c body k operand
    | none => addCondition c "AND".toList body

/-- What is reported when a fragment is added. -/
def events (c : Clauses) (fragment : Text) : List Event :=
  let body := Text.trim fragment
  if body.isEmpty then []
  else
    match keyword? body with
    | some (.select, _) => .fragmentRouted (some .select) :: Statement.events c body
    | some (k, _) => [.fragmentRouted (some k)]
    | none => [.fragmentRouted none]

end SqlComposer.Fragment
