import SqlComposer.Text.Basic

/-!
# Searching sorted lists

The first value that passes a test is found by halving a range, after leaps from the end that the
search starts at. The test is expected to hold from some value on; where it does not, the values
that are tested decide what is found.
-/

namespace SqlComposer.Sorting

/-- Whether one value comes before another, if the two can be compared. -/
abbrev Comparison (ε α : Type) :=
  α → α → Except ε Bool

/-- The end of a list that work starts at. A list that is worked on from the back is given in
reverse. -/
inductive Direction
  | forward
  | backward
  deriving DecidableEq, Repr

/-- The place in the middle of a range. Of two such places it is the one that is nearer to the back
of the list, from whichever end the list is given. -/
def Direction.middle (low high : Nat) : Direction → Nat
  | .forward => low + (high - low) / 2
  | .backward => low + (high - low - 1) / 2

/-- The middle of a range is below its upper end. -/
theorem Direction.middle_lt {low high : Nat} (d : Direction) (h : low < high) :
    d.middle low high < high := by
  cases d <;> simp only [Direction.middle] <;> omega

/-- The middle of a range is not below its lower end. -/
theorem Direction.le_middle (low high : Nat) (d : Direction) : low ≤ d.middle low high := by
  cases d <;> simp only [Direction.middle] <;> omega

/-- The first place of a range whose value passes a test, or the end of the range. -/
def bisect {ε α : Type} (d : Direction) (test : α → Except ε Bool) (xs : List α)
    (low high : Nat) : Except ε Nat :=
  if low < high then
    match xs[d.middle low high]? with
    | none => .ok low
    | some x =>
      match test x with
      | .error e => .error e
      | .ok true => bisect d test xs low (d.middle low high)
      | .ok false => bisect d test xs (d.middle low high + 1) high
  else .ok low
termination_by high - low
decreasing_by
  · have := d.middle_lt ‹low < high›
    omega
  · have := Direction.le_middle low high d
    omega

/-- A range that the first value that passes a test is in, or the end of which it is, given the last
place whose value is known not to pass and the place that is tried next. -/
def leap {ε α : Type} (test : α → Except ε Bool) (xs : List α) (last next : Nat) :
    Except ε (Nat × Nat) :=
  match h : xs[next]? with
  | none => .ok (last + 1, xs.length)
  | some x =>
    match test x with
    | .error e => .error e
    | .ok true => .ok (last + 1, next)
    | .ok false => leap test xs next (2 * next + 1)
termination_by xs.length - next
decreasing_by
  have := (List.getElem?_eq_some_iff.mp h).1
  omega

/-- How many values at the front do not pass a test. -/
def countBefore {ε α : Type} (d : Direction) (test : α → Except ε Bool) (xs : List α) :
    Except ε Nat := do
  match xs with
  | [] => return 0
  | x :: _ =>
    if ← test x then return 0
    let (low, high) ← leap test xs 0 1
    bisect d test xs low high

end SqlComposer.Sorting
