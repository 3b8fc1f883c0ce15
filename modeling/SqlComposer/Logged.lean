import SqlComposer.Failure
import SqlComposer.Keyword

/-!
# Computations that report events

What the library reports while it works is data. A computation yields the events that it reports, in
order, and then a result or a failure. A failure keeps the events reported before it.
-/

namespace SqlComposer

/-- An event worth reporting. No event holds the value of a parameter. -/
inductive Event
  /-- A line of a statement belongs to no clause that takes further lines. -/
  | lineDropped (current : Section) (line : Text)
  /-- A statement is read; how many lines it has, and how many fields and conditions there are. -/
  | statementRead (lines fields conditions : Nat)
  /-- A fragment goes to the bucket of a keyword, or to the conditions if it has none. -/
  | fragmentRouted (keyword : Option Keyword)
  /-- The values of a template are filled in. -/
  | interpolated (values parameters : Nat)
  /-- All but the first key of a parameter object are dropped. -/
  | truncated (kept : Option Text) (dropped : List Text)
  /-- The command line has built its query from so many clauses. -/
  | queryBuilt (clauses : Nat)
  /-- The command line cannot read its file. -/
  | unreadableFile (path error : Text)
  /-- The command line cannot build its query. -/
  | buildFailed (error : Text)
  deriving DecidableEq, Repr

/-- The events that a computation reports, and its outcome. -/
structure Logged (α : Type) where
  events : List Event
  outcome : Except Failure α

namespace Logged

variable {α β : Type}

/-- A result without events. -/
def result (a : α) : Logged α :=
  ⟨[], .ok a⟩

/-- One computation, and on success the next one. -/
def andThen (x : Logged α) (f : α → Logged β) : Logged β :=
  match x.outcome with
  | .error e => ⟨x.events, .error e⟩
  | .ok a =>
    let y := f a
    ⟨x.events ++ y.events, y.outcome⟩

instance : Monad Logged where
  pure := result
  bind := andThen

/-- Reports events. -/
def report (events : List Event) : Logged Unit :=
  ⟨events, .ok ()⟩

/-- An outcome without events. -/
def ofExcept (x : Except Failure α) : Logged α :=
  ⟨[], x⟩

end Logged

end SqlComposer
