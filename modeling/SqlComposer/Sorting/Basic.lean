import SqlComposer.Sorting.Merge
import SqlComposer.Sorting.Run

/-!
# Sorting

A list is cut into runs from front to back, and neighbouring runs are merged. Each border between
two runs has a depth in a nearly balanced tree of merges; once a border less deep is found, the
deeper ones before it are merged away.
-/

namespace SqlComposer.Sorting

variable {ε α : Type}

/-- A run that waits to be merged with its neighbour, and the depth of the border between them. -/
structure Waiting (α : Type) where
  run : List α
  depth : Nat

/-- The state of a sort: the last run, the runs that wait before it, the last of them first, and the
patience of the next merge. -/
structure Progress (α : Type) where
  last : List α
  waiting : List (Waiting α)
  patience : Nat

/-- The depth of the border between two neighbouring runs in a list of some length: the first binary
place in which their middles differ as fractions of the list. -/
def borderDepth (total start first second : Nat) : Nat :=
  let middle := 2 * start + first
  let nextMiddle := middle + first + second
  let differs := fun place => (middle <<< place) / total != (nextMiddle <<< place) / total
  ((List.range (total.log2 + 2)).find? differs).getD 0

/-- The state after the last run is merged with those that wait for it behind deeper borders. -/
def mergeDeeper (before : Comparison ε α) (depth : Nat) (last : List α) (patience : Nat) :
    List (Waiting α) → Except ε (Progress α)
  | [] => .ok ⟨last, [], patience⟩
  | w :: waiting =>
    if depth < w.depth then do
      let (merged, patience) ← merge before patience w.run last
      mergeDeeper before depth merged patience waiting
    else .ok ⟨last, w :: waiting, patience⟩

/-- The merge of all runs. The last waits as long as a shorter run waits before its neighbour. -/
def mergeAll (before : Comparison ε α) (last : List α) (patience : Nat) :
    List (List α) → Except ε (List α)
  | [] => .ok last
  | [run] => Prod.fst <$> merge before patience run last
  | run :: earlier :: waiting => do
    if earlier.length < last.length then
      let (merged, patience) ← merge before patience earlier run
      mergeAll before last patience (merged :: waiting)
    else
      let (merged, patience) ← merge before patience run last
      mergeAll before merged patience (earlier :: waiting)
termination_by runs => runs.length

/-- The state after another run. -/
def Progress.add (before : Comparison ε α) (total : Nat) (p : Progress α) (run : List α) :
    Except ε (Progress α) := do
  let start := p.waiting.foldl (fun n w => n + w.run.length) 0
  let depth := borderDepth total start p.last.length run.length
  let p ← mergeDeeper before depth p.last p.patience p.waiting
  return ⟨run, ⟨p.last, depth⟩ :: p.waiting, p.patience⟩

/-- Sorts what is left of a list of some length, in at most so many runs. -/
def sortRuns (before : Comparison ε α) (total : Nat) :
    Nat → Progress α → List α → Except ε (List α)
  | 0, p, _ | _, p, [] => mergeAll before p.last p.patience (p.waiting.map Waiting.run)
  | n + 1, p, x :: xs => do
    let (run, rest) ← takeRun before (leastLength total) (x :: xs)
    let p ← p.add before total run
    sortRuns before total n p rest

/-- A list in rising order. Each run takes at least one value. -/
def sort (before : Comparison ε α) (xs : List α) : Except ε (List α) := do
  let (run, rest) ← takeRun before (leastLength xs.length) xs
  sortRuns before xs.length xs.length ⟨run, [], longStretch⟩ rest

end SqlComposer.Sorting
