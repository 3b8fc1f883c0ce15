import SqlComposer.Sorting.Search

/-!
# Merging runs

Two neighbouring runs are merged from the end at which the shorter one is used up. Values are taken
one at a time until many in a row come from the same run; from then on whole stretches are searched
for, as long as they are long. How many it takes is the patience, which adapts from merge to merge.

With a total order the result is the one stable merge. Otherwise the pairs that are compared decide
the result, or the pair at which the comparison fails.
-/

namespace SqlComposer.Sorting

variable {ε α : Type}

/-- How values are taken: one at a time, after so many in a row from the first and from the second
run, or by stretches. -/
inductive Pace
  | single (firsts seconds : Nat)
  | stretches
  deriving DecidableEq, Repr

/-- The length from which on a stretch is long. -/
def longStretch : Nat :=
  7

/-- The patience when stretches are searched for again. -/
def lessPatience (patience : Nat) : Nat :=
  if patience > 1 then patience - 1 else patience

/-- Whether the value of the second run is taken before that of the first one. Of equals, that of
the first run goes to the front. -/
def secondFirst (d : Direction) (before : Comparison ε α) (x y : α) : Except ε Bool :=
  match d with
  | .forward => before y x
  | .backward => (!·) <$> before y x

/-- Whether the place of what is left of two runs is known. -/
def isOver (d : Direction) (first second : List α) : Bool :=
  match d, first, second with
  | .forward, _ :: _ :: _, _ :: _ => false
  | .backward, _ :: _, _ :: _ :: _ => false
  | _, _, _ => true

/-- What is left of two runs when the merge is over. -/
def leftOver (d : Direction) (first second : List α) : List α :=
  match d with
  | .forward => second ++ first
  | .backward => first ++ second

/-- The merge of two runs, with the patience that it leaves. Two patiences are given: the one that
counts if the merge is over, and the one that counts if it goes on. -/
def mergeFrom (d : Direction) (before : Comparison ε α) (pace : Pace) (patience next : Nat)
    (first second : List α) : Except ε (List α × Nat) :=
  if isOver d first second then .ok (leftOver d first second, patience)
  else
    match pace, first, second with
    | .single firsts seconds, x :: xs, y :: ys => do
      if ← secondFirst d before x y then
        let pace := if seconds + 1 < next then .single 0 (seconds + 1) else .stretches
        let (merged, patience) ← mergeFrom d before pace next next (x :: xs) ys
        return (y :: merged, patience)
      else
        let pace := if firsts + 1 < next then .single (firsts + 1) 0 else .stretches
        let (merged, patience) ← mergeFrom d before pace next next xs (y :: ys)
        return (x :: merged, patience)
    | .stretches, first, y :: ys => do
      let firsts ← countBefore d (secondFirst d before · y) first
      let front := first.take firsts
      if isOver d (first.drop firsts) (y :: ys) then
        return (front ++ leftOver d (first.drop firsts) (y :: ys), next)
      let front := front ++ [y]
      if isOver d (first.drop firsts) ys then
        return (front ++ leftOver d (first.drop firsts) ys, next)
      match _h : first.drop firsts with
      | [] => return (front ++ ys, next)
      | x :: xs =>
        let seconds ← countBefore d (fun y => (!·) <$> secondFirst d before x y) ys
        let front := front ++ ys.take seconds
        if isOver d (x :: xs) (ys.drop seconds) then
          return (front ++ leftOver d (x :: xs) (ys.drop seconds), next)
        let (merged, patience) ←
          if longStretch ≤ firsts ∨ longStretch ≤ seconds then
            mergeFrom d before .stretches next (lessPatience next) xs (ys.drop seconds)
          else mergeFrom d before (.single 0 0) next (next + 1) xs (ys.drop seconds)
        return (front ++ x :: merged, patience)
    | _, first, second => .ok (leftOver d first second, patience)
termination_by first.length + second.length
decreasing_by
  · simp only [List.length_cons]
    omega
  · simp only [List.length_cons]
    omega
  all_goals
    have := congrArg List.length _h
    simp only [List.length_drop, List.length_cons] at this ⊢
    omega

/-- The merge of two runs of which the second one begins before the end of the first one begins, and
the first one ends behind the end of the second one. -/
def mergeOverlapping (before : Comparison ε α) (patience : Nat) (first second : List α) :
    Except ε (List α × Nat) := do
  if first.length ≤ second.length then
    match second with
    | [] => return (first, patience)
    | y :: ys =>
      let (merged, patience) ←
        mergeFrom .forward before (.single 0 0) patience patience first ys
      return (y :: merged, patience)
  else
    match first.reverse with
    | [] => return (second, patience)
    | x :: xs =>
      let (merged, patience) ←
        mergeFrom .backward before (.single 0 0) patience patience xs second.reverse
      return ((x :: merged).reverse, patience)

/-- The merge of two neighbouring runs, with the patience that it leaves. What comes before all of
the second run or after all of the first one stays in place. -/
def merge (before : Comparison ε α) (patience : Nat) (first second : List α) :
    Except ε (List α × Nat) := do
  match second with
  | [] => return (first, patience)
  | y :: _ =>
    let start ← countBefore .forward (before y) first
    match (first.drop start).getLast? with
    | none => return (first ++ second, patience)
    | some x =>
      let behind ← countBefore .backward (before · x) second.reverse
      let stop := second.length - behind
      if stop = 0 then return (first ++ second, patience)
      let (merged, patience) ←
        mergeOverlapping before patience (first.drop start) (second.take stop)
      return (first.take start ++ merged ++ second.drop stop, patience)

end SqlComposer.Sorting
