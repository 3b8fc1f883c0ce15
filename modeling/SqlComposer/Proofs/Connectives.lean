import SqlComposer.Proofs.Reachable

/-!
# Connectives of conditions

The conditions after the first are meant to carry their connective. A fragment that `AND`, `OR` or
no keyword opens puts the connective there itself; the operand of `WHERE` and the further lines of a
statement are kept as they stand. So the conditions of a query without a connective are exactly
those that were added as they stand behind an earlier condition, and open with no connective.
-/

namespace SqlComposer

/-- Whether a text opens with one of the two connectives. -/
def Keyword.isConnected (t : Text) : Bool :=
  Keyword.conjunction.opens t || Keyword.disjunction.opens t

/-- The conditions after the first that open with no connective. -/
def Clauses.unconnected (c : Clauses) : List Text :=
  c.conditions.tail.filter fun condition => !Keyword.isConnected condition

/-! ## Statements -/

namespace Statement

/-- The conditions that a line adds to those before it. -/
def lineConditions (current : Section) (line : Text) : List Text :=
  match keyword? line with
  | some (.condition, operand) => [operand]
  | some _ => []
  | none => if current = .conditions then [line] else []

/-- The conditions that lines add from an open section on. -/
def linesConditions (current : Section) : List Text → List Text
  | [] => []
  | line :: rest => lineConditions current line ++ linesConditions (sectionAfter current line) rest

/-- The conditions of a statement, as they stand in it. -/
def conditions (statement : Text) : List Text :=
  linesConditions .none (linesOf statement)

/-- A line adds its conditions at the end. -/
theorem conditions_applyLine (current : Section) (c : Clauses) (line : Text) :
    (applyLine current c line).conditions = c.conditions ++ lineConditions current line := by
  unfold applyLine lineConditions
  cases keyword? line with
  | some entry =>
    obtain ⟨k, operand⟩ := entry
    cases k <;> simp [openWith]
  | none => cases current <;> simp [continueWith]

/-- Lines add their conditions one after the other. -/
theorem conditions_readLines (current : Section) (c : Clauses) (lines : List Text) :
    (readLines current c lines).conditions = c.conditions ++ linesConditions current lines := by
  induction lines generalizing current c with
  | nil => simp [readLines, linesConditions]
  | cons line rest ih =>
    rw [readLines, ih, conditions_applyLine, linesConditions, List.append_assoc]

/-- A statement adds its conditions at the end. -/
theorem conditions_read (c : Clauses) (statement : Text) :
    (read c statement).conditions = c.conditions ++ conditions statement :=
  conditions_readLines .none c (linesOf statement)

end Statement

/-! ## Fragments -/

namespace Fragment

/-- Whether a fragment puts a connective before its condition: `AND`, `OR` or no keyword opens
it. -/
def connects (fragment : Text) : Bool :=
  let body := Text.trim fragment
  !body.isEmpty &&
    match keyword? body with
    | some (.conjunction, _) | some (.disjunction, _) | none => true
    | some _ => false

/-- The conditions that a fragment adds as they stand: those of a statement that `SELECT` opens, or
the operand of `WHERE`. -/
def written (fragment : Text) : List Text :=
  let body := Text.trim fragment
  if body.isEmpty then []
  else
    match keyword? body with
    | some (.select, _) => Statement.conditions body
    | some (.condition, operand) => [operand]
    | _ => []

/-- A text behind a connective and a blank opens with that connective. -/
theorem isConnected_of_connective {connective : Text} (condition : Text)
    (h : connective = "AND".toList ∨ connective = "OR".toList) :
    Keyword.isConnected (connective ++ ' ' :: condition) = true := by
  obtain rfl | rfl := h
  · exact Bool.or_eq_true_iff.mpr (.inl rfl)
  · exact Bool.or_eq_true_iff.mpr (.inr rfl)

/-- A fragment that connects adds one condition, behind its connective unless it is the first. -/
theorem conditions_add_of_connects {c : Clauses} {fragment : Text} (h : connects fragment = true) :
    written fragment = [] ∧
      ∃ connective condition, (connective = "AND".toList ∨ connective = "OR".toList) ∧
        (add c fragment).conditions = c.conditions ++
          [if c.conditions.isEmpty then condition else connective ++ ' ' :: condition] := by
  simp only [connects, Bool.and_eq_true, Bool.not_eq_true'] at h
  obtain ⟨hbody, hkeyword⟩ := h
  simp only [written, add, hbody, Bool.false_eq_true, if_false]
  cases hk : keyword? (Text.trim fragment) with
  | none => exact ⟨rfl, _, _, .inl rfl, rfl⟩
  | some entry =>
    obtain ⟨k, operand⟩ := entry
    rw [hk] at hkeyword
    cases k with
    | conjunction => exact ⟨rfl, _, _, .inl rfl, rfl⟩
    | disjunction => exact ⟨rfl, _, _, .inr rfl, rfl⟩
    | _ => cases hkeyword

/-- Any other fragment adds its conditions as they stand. -/
theorem conditions_add_of_not_connects {c : Clauses} {fragment : Text}
    (h : connects fragment = false) :
    (add c fragment).conditions = c.conditions ++ written fragment := by
  simp only [written, add]
  cases hbody : (Text.trim fragment).isEmpty with
  | true => simp
  | false =>
    simp only [connects, hbody, Bool.not_false, Bool.true_and] at h
    cases hk : keyword? (Text.trim fragment) with
    | none =>
      rw [hk] at h
      cases h
    | some entry =>
      obtain ⟨k, operand⟩ := entry
      rw [hk] at h
      cases k with
      | select => exact Statement.conditions_read c (Text.trim fragment)
      | conjunction | disjunction => cases h
      | _ => simp [route]

end Fragment

/-! ## Pieces of queries -/

/-- A piece that a query is composed of, as text with its values filled in. -/
inductive Piece
  /-- The statement that starts a query. -/
  | statement (text : Text)
  /-- A fragment that extends one. -/
  | fragment (text : Text)

namespace Piece

/-- The clauses after a piece. -/
def add (c : Clauses) : Piece → Clauses
  | .statement text => Statement.read c text
  | .fragment text => Fragment.add c text

/-- The clauses that some pieces make, the latest one first. -/
def clauses : List Piece → Clauses
  | [] => .empty
  | piece :: earlier => piece.add (clauses earlier)

/-- Whether a piece puts a connective before its condition. -/
def connects : Piece → Bool
  | .statement _ => false
  | .fragment text => Fragment.connects text

/-- The conditions that a piece adds as they stand. -/
def written : Piece → List Text
  | .statement text => Statement.conditions text
  | .fragment text => Fragment.written text

/-- Whether a piece adds a condition. -/
def addsCondition (piece : Piece) : Bool :=
  piece.connects || !piece.written.isEmpty

/-- The conditions without a connective that some pieces, the latest one first, have added as they
stand behind earlier conditions. -/
def unconnected : List Piece → List Text
  | [] => []
  | piece :: earlier =>
    let behind := if earlier.any addsCondition then piece.written else piece.written.tail
    unconnected earlier ++ behind.filter fun condition => !Keyword.isConnected condition

/-- A piece that connects adds a condition, but none without a connective behind another one. -/
theorem unconnected_add_of_connects {c : Clauses} {piece : Piece} (h : piece.connects = true) :
    (piece.add c).conditions.isEmpty = false ∧ piece.written = [] ∧
      (piece.add c).unconnected = c.unconnected := by
  cases piece with
  | statement text => cases h
  | fragment text =>
    obtain ⟨hwritten, connective, condition, hconnective, hadd⟩ :=
      Fragment.conditions_add_of_connects (c := c) h
    simp only [add, written, Clauses.unconnected, hwritten, hadd]
    cases hconditions : c.conditions with
    | nil => simp
    | cons first rest => simp [Fragment.isConnected_of_connective condition hconnective]

/-- Any other piece adds its conditions as they stand. -/
theorem conditions_add_of_not_connects {c : Clauses} {piece : Piece} (h : piece.connects = false) :
    (piece.add c).conditions = c.conditions ++ piece.written := by
  cases piece with
  | statement text => exact Statement.conditions_read c text
  | fragment text => exact Fragment.conditions_add_of_not_connects h

/-- There are conditions after a piece if there were some before, or it adds one. -/
theorem isEmpty_conditions_add (c : Clauses) (piece : Piece) :
    (piece.add c).conditions.isEmpty = (c.conditions.isEmpty && !piece.addsCondition) := by
  unfold addsCondition
  cases h : piece.connects with
  | true => simp [(unconnected_add_of_connects (c := c) h).1]
  | false =>
    rw [conditions_add_of_not_connects h]
    cases c.conditions <;> cases piece.written <;> rfl

/-- A piece adds the conditions without a connective among those that it adds as they stand; the
first one of all needs no connective. -/
theorem unconnected_add (c : Clauses) (piece : Piece) :
    (piece.add c).unconnected = c.unconnected ++
      (if c.conditions.isEmpty then piece.written.tail else piece.written).filter
        fun condition => !Keyword.isConnected condition := by
  cases h : piece.connects with
  | true =>
    obtain ⟨-, hwritten, hadd⟩ := unconnected_add_of_connects (c := c) h
    simp [hwritten, hadd]
  | false =>
    rw [Clauses.unconnected, conditions_add_of_not_connects h, Clauses.unconnected]
    cases c.conditions <;> simp

/-- There are conditions after some pieces if one of them adds a condition. -/
theorem isEmpty_conditions_clauses (pieces : List Piece) :
    (clauses pieces).conditions.isEmpty =
      !pieces.any addsCondition := by
  induction pieces with
  | nil => rfl
  | cons piece earlier ih =>
    rw [clauses, isEmpty_conditions_add, ih, List.any_cons, Bool.not_or, Bool.and_comm]

/-- The conditions without a connective after some pieces are those that the pieces have added as
they stand behind earlier conditions. -/
theorem unconnected_clauses (pieces : List Piece) :
    (clauses pieces).unconnected = unconnected pieces := by
  induction pieces with
  | nil => rfl
  | cons piece earlier ih =>
    rw [clauses, unconnected_add, ih, isEmpty_conditions_clauses, unconnected]
    cases earlier.any addsCondition <;> rfl

end Piece

/-! ## Composed queries -/

namespace Query

/-- The queries that calls compose of pieces, the latest one first, starting from a statement or
from the empty query. -/
inductive Composed : List Piece → Query → Prop
  | empty : Composed [] .empty
  | started {a : Ambient} {call : Call} {template : Template} {q : Query}
      (htemplate : call.template (none : Option Query) = .ok template)
      (hok : (call.run a none).1.outcome = .ok q) :
      Composed [.statement (template.textAfter Placeholder.positional 0)] q
  | extended {pieces : List Piece} {a : Ambient} {call : Call} {template : Template}
      {receiver q : Query} (hreceiver : Composed pieces receiver)
      (htemplate : call.template (some receiver) = .ok template)
      (hok : (call.run a (some receiver)).1.outcome = .ok q) :
      Composed (.fragment (template.textAfter Placeholder.positional receiver.counter) :: pieces) q

/-- The clauses of a composed query are those that its pieces make, one after the other. -/
theorem Composed.clauses_eq {pieces : List Piece} {q : Query} (h : Composed pieces q) :
    q.clauses = Piece.clauses pieces := by
  induction h with
  | empty => rfl
  | started htemplate hok =>
    obtain ⟨template, -, htemplate', -, -, -, hclauses, -, -⟩ := eq_of_call hok
    cases htemplate.symm.trans htemplate'
    exact hclauses
  | extended _ htemplate hok ih =>
    obtain ⟨template, -, htemplate', -, -, -, hclauses, -, -⟩ := eq_of_call hok
    cases htemplate.symm.trans htemplate'
    rw [hclauses, Piece.clauses, ← ih]
    rfl

/-- The conditions of a composed query that stand behind another one without a connective are those
that a `WHERE` or a statement among its pieces has added so. Hence all conditions after the first
open with a connective exactly when there is no such piece. -/
theorem Composed.isConnected_iff {pieces : List Piece} {q : Query} (h : Composed pieces q) :
    q.clauses.unconnected = Piece.unconnected pieces ∧
      ((∀ condition ∈ q.clauses.conditions.tail, Keyword.isConnected condition = true) ↔
        Piece.unconnected pieces = []) := by
  have heq : q.clauses.unconnected = Piece.unconnected pieces := by
    rw [h.clauses_eq, Piece.unconnected_clauses]
  refine ⟨heq, ?_⟩
  rw [← heq, Clauses.unconnected, List.filter_eq_nil_iff]
  simp

/-- A statement with two conditions and a fragment that `OR` opens leave no condition without a
connective. -/
theorem Composed.isConnected_of_connectives :
    let statement := "SELECT *\nFROM t\nWHERE a = 1\n  AND b = 2".toList
    let fragment := "or c = 3".toList
    ∃ q, Composed [.fragment fragment, .statement statement] q ∧
      q.clauses.conditions = ["a = 1".toList, "AND b = 2".toList, "OR c = 3".toList] ∧
      ∀ condition ∈ q.clauses.conditions.tail, Keyword.isConnected condition = true := by
  intro statement fragment
  let settings : Ambient := ⟨[], none, some {}⟩
  let call (t : Text) : Call := ⟨.template (.ofText t), {}⟩
  have hread (t : Text) (on : Option Query) : (call t).template on = .ok (.ofText t) := by
    cases on <;> rfl
  have hstatement : ((call statement).run settings none).1.outcome =
      .ok ⟨Piece.clauses [.statement statement], [], 0⟩ := rfl
  have hfragment : ((call fragment).run settings
      (some ⟨Piece.clauses [.statement statement], [], 0⟩)).1.outcome =
        .ok ⟨Piece.clauses [.fragment fragment, .statement statement], [], 0⟩ := rfl
  have hcomposed := Composed.extended (.started (hread _ _) hstatement) (hread _ _) hfragment
  exact ⟨_, hcomposed, by decide +kernel, hcomposed.isConnected_iff.2.mpr (by decide +kernel)⟩

/-- A second `WHERE` puts its condition behind the first one without a connective, also in the text
of the query. -/
theorem Composed.not_isConnected_of_second_where :
    ∃ q, Composed [.fragment "WHERE b = 2".toList, .fragment "WHERE a = 1".toList,
        .statement "SELECT * FROM t".toList] q ∧
      q.clauses.conditions = ["a = 1".toList, "b = 2".toList] ∧
      q.text = "SELECT\n  * FROM t\nWHERE a = 1\n  b = 2".toList ∧
      ¬ ∀ condition ∈ q.clauses.conditions.tail, Keyword.isConnected condition = true := by
  let settings : Ambient := ⟨[], none, some {}⟩
  let call (t : Text) : Call := ⟨.value (.text t), {}⟩
  let read (t : Text) : Prop :=
    ∀ on : Option Query, (call t).template on = .ok (.ofText t)
  let statement := "SELECT * FROM t".toList
  let first := "WHERE a = 1".toList
  let second := "WHERE b = 2".toList
  have hstatement : ((call statement).run settings none).1.outcome =
      .ok ⟨Piece.clauses [.statement statement], [], 0⟩ := by with_unfolding_all rfl
  have hfirst : ((call first).run settings
      (some ⟨Piece.clauses [.statement statement], [], 0⟩)).1.outcome =
        .ok ⟨Piece.clauses [.fragment first, .statement statement], [], 0⟩ := by
    with_unfolding_all rfl
  have hsecond : ((call second).run settings
      (some ⟨Piece.clauses [.fragment first, .statement statement], [], 0⟩)).1.outcome =
        .ok ⟨Piece.clauses [.fragment second, .fragment first, .statement statement], [], 0⟩ := by
    with_unfolding_all rfl
  have hread : read statement ∧ read first ∧ read second := by
    refine ⟨?_, ?_, ?_⟩ <;> rintro (_ | _) <;> with_unfolding_all rfl
  have hcomposed := Composed.extended
    (.extended (.started (hread.1 _) hstatement) (hread.2.1 _) hfirst) (hread.2.2 _) hsecond
  exact ⟨_, hcomposed, by decide +kernel, by decide +kernel, by decide +kernel⟩

end Query

end SqlComposer
