import SqlComposer.Sorting.Search

/-!
# Runs

A run is a sorted stretch of a list. The longest monotone stretch at the front is one, put into
rising order; a run that is too short is made longer by inserting the values that follow.
-/

namespace SqlComposer.Sorting

variable {ε α : Type}

/-- The rest of a rising run after an item, and what follows the run. -/
def risingRun (before : Comparison ε α) (last : α) : List α → Except ε (List α × List α)
  | [] => .ok ([], [])
  | x :: xs => do
    if ← before x last then return ([], x :: xs)
    let (run, rest) ← risingRun before x xs
    return (x :: run, rest)

/-- The rest of a falling run after an item, and what follows the run. -/
def fallingRun (before : Comparison ε α) (last : α) : List α → Except ε (List α × List α)
  | [] => .ok ([], [])
  | x :: xs => do
    if !(← before x last) then return ([], x :: xs)
    let (run, rest) ← fallingRun before x xs
    return (x :: run, rest)

/-- The longest monotone run at the front in rising order, and what follows it. -/
def frontRun (before : Comparison ε α) : List α → Except ε (List α × List α)
  | x :: y :: rest => do
    if ← before y x then
      let (run, rest) ← fallingRun before y rest
      return ((x :: y :: run).reverse, rest)
    else
      let (run, rest) ← risingRun before y rest
      return (x :: y :: run, rest)
  | short => .ok (short, [])

/-- Inserts values one after the other into a run, each behind its equals. -/
def insertAll (before : Comparison ε α) (run : List α) : List α → Except ε (List α)
  | [] => .ok run
  | x :: xs => do
    let place ← bisect .forward (before x) run 0 run.length
    insertAll before (run.take place ++ x :: run.drop place) xs

/-- The least length of the runs of a list of some length: this length divided by the power of two
that makes it smaller than 64, rounded up. -/
def leastLength (total : Nat) : Nat :=
  let halvings := total.log2 - 5
  (total + (1 <<< halvings - 1)) >>> halvings

/-- The run at the front, of the least length if enough values follow, and the rest. -/
def takeRun (before : Comparison ε α) (least : Nat) (xs : List α) :
    Except ε (List α × List α) := do
  let (run, rest) ← frontRun before xs
  let missing := least - run.length
  let run ← insertAll before run (rest.take missing)
  return (run, rest.drop missing)

end SqlComposer.Sorting
