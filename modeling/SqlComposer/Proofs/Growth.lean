import Mathlib.Logic.Relation
import SqlComposer.Proofs.Lines
import SqlComposer.Proofs.Reachable

/-!
# What extensions keep

A fragment takes back no condition, no join and no grouping or ordering expression: these lists only
grow at their ends, also when the fragment is a whole statement that replaces the fields, the table
expression, the limit and the offset. So the block of the conditions of a query stands at the start
of the block of every query that is derived from it.
-/

namespace SqlComposer

namespace Clauses

/-- The lists of some clauses stand at the start of the lists of others. -/
structure GrowsTo (c c' : Clauses) : Prop where
  /-- No join is taken back. -/
  joins : c.joins <+: c'.joins
  /-- No condition is taken back. -/
  conditions : c.conditions <+: c'.conditions
  /-- No grouping expression is taken back. -/
  groupBy : c.groupBy <+: c'.groupBy
  /-- No ordering expression is taken back. -/
  orderBy : c.orderBy <+: c'.orderBy

/-- Clauses grow to themselves. -/
theorem GrowsTo.refl (c : Clauses) : c.GrowsTo c :=
  ⟨List.prefix_rfl, List.prefix_rfl, List.prefix_rfl, List.prefix_rfl⟩

/-- Clauses that grow to others grow to what these grow to. -/
theorem GrowsTo.trans {c c' c'' : Clauses} (h : c.GrowsTo c') (h' : c'.GrowsTo c'') :
    c.GrowsTo c'' :=
  ⟨h.joins.trans h'.joins, h.conditions.trans h'.conditions, h.groupBy.trans h'.groupBy,
    h.orderBy.trans h'.orderBy⟩

end Clauses

namespace Statement

/-- A line that a keyword opens takes nothing back. -/
theorem growsTo_openWith (c : Clauses) (line : Text) (k : Keyword) (operand : Text) :
    c.GrowsTo (openWith c line k operand) := by
  cases k <;> constructor <;> simp [openWith]

/-- A line that continues a section takes nothing back. -/
theorem growsTo_continueWith (c : Clauses) (line : Text) (current : Section) :
    c.GrowsTo (continueWith c line current) := by
  cases current <;> constructor <;> simp [continueWith]

/-- A line takes nothing back. -/
theorem growsTo_applyLine (current : Section) (c : Clauses) (line : Text) :
    c.GrowsTo (applyLine current c line) := by
  unfold applyLine
  cases keyword? line with
  | none => exact growsTo_continueWith c line current
  | some entry => exact growsTo_openWith c line entry.1 entry.2

/-- Lines take nothing back. -/
theorem growsTo_readLines (current : Section) (c : Clauses) (lines : List Text) :
    c.GrowsTo (readLines current c lines) := by
  induction lines generalizing current c with
  | nil => exact .refl c
  | cons line rest ih =>
    have hline := growsTo_applyLine current c line
    exact hline.trans (ih (sectionAfter current line) (applyLine current c line))

/-- A statement takes nothing back. -/
theorem growsTo_read (c : Clauses) (statement : Text) : c.GrowsTo (read c statement) :=
  growsTo_readLines .none c (linesOf statement)

end Statement

namespace Fragment

/-- A condition takes nothing back. -/
theorem growsTo_addCondition (c : Clauses) (connective condition : Text) :
    c.GrowsTo (addCondition c connective condition) := by
  constructor <;> simp [addCondition]

/-- A fragment that a keyword opens takes nothing back. -/
theorem growsTo_route (c : Clauses) (fragment : Text) (k : Keyword) (operand : Text) :
    c.GrowsTo (route c fragment k operand) := by
  cases k with
  | select => exact Statement.growsTo_read c fragment
  | conjunction => exact growsTo_addCondition c "AND".toList operand
  | disjunction => exact growsTo_addCondition c "OR".toList operand
  | _ => constructor <;> simp [route]

/-- A fragment takes nothing back. -/
theorem growsTo_add (c : Clauses) (fragment : Text) : c.GrowsTo (add c fragment) := by
  unfold add
  dsimp only
  split
  · exact .refl c
  · cases keyword? (Text.trim fragment) with
    | none => exact growsTo_addCondition c "AND".toList (Text.trim fragment)
    | some entry => exact growsTo_route c (Text.trim fragment) entry.1 entry.2

end Fragment

/-! ## The block of conditions -/

namespace Clauses

/-- The block of some conditions. -/
def conditionBlock (conditions : List Text) : Text :=
  "WHERE ".toList ++ "\n  ".toList.intercalate conditions

/-- The block of some conditions stands at the start of that of more conditions. -/
theorem conditionBlock_prefix {conditions conditions' : List Text} (hne : conditions ≠ [])
    (h : conditions <+: conditions') :
    conditionBlock conditions <+: conditionBlock conditions' := by
  obtain ⟨later, rfl⟩ := h
  refine (List.prefix_append_right_inj "WHERE ".toList).mpr ?_
  rw [Text.intercalate_append _ hne]
  exact List.prefix_append _ _

/-- The text of clauses with conditions holds the block of the conditions, on lines of its own. -/
theorem exists_render_eq {c : Clauses} (hne : c.conditions ≠ []) :
    ∃ before after, c.render = before ++ '\n' :: conditionBlock c.conditions ++ after ∧
      ∀ next ∈ after.head?, next = '\n' := by
  let front := selectBlock c.select :: (operandBlock "FROM ".toList (!·.isEmpty) c.source ++
    listBlock [] ['\n'] c.joins)
  let back := listBlock "GROUP BY ".toList ", ".toList (usable c.groupBy) ++
    (listBlock "ORDER BY ".toList ", ".toList (usable c.orderBy) ++
      (operandBlock "LIMIT ".toList isResolved c.limit ++
        operandBlock "OFFSET ".toList isResolved c.offset))
  have hblock : listBlock "WHERE ".toList "\n  ".toList c.conditions =
      [conditionBlock c.conditions] := by
    obtain ⟨first, later, hconditions⟩ := List.exists_cons_of_ne_nil hne
    rw [hconditions]
    rfl
  have hblocks : c.blocks = (front ++ [conditionBlock c.conditions]) ++ back := by
    simp only [blocks, hblock, front, back, List.cons_append, List.append_assoc]
  have hfront : front ≠ [] := List.cons_ne_nil _ _
  refine ⟨['\n'].intercalate front, back.flatMap (['\n'] ++ ·), ?_, ?_⟩
  · rw [render, hblocks, Text.intercalate_append _ (by simp),
      Text.intercalate_append _ hfront]
    simp only [List.flatMap_cons, List.flatMap_nil, List.append_nil, List.singleton_append]
  · cases back with
    | nil => simp
    | cons block back => simp

end Clauses

/-! ## Derived queries -/

namespace Query

/-- A successful call makes one query of another one. -/
def ExtendsTo (q r : Query) : Prop :=
  ∃ (a : Ambient) (call : Call), (call.run a (some q)).1.outcome = .ok r

/-- A call takes nothing back. -/
theorem ExtendsTo.growsTo {q r : Query} (h : q.ExtendsTo r) : q.clauses.GrowsTo r.clauses := by
  obtain ⟨a, call, hok⟩ := h
  obtain ⟨template, -, -, -, -, -, hclauses, -, -⟩ := eq_of_call hok
  rw [hclauses]
  exact Fragment.growsTo_add q.clauses (template.textAfter Placeholder.positional q.counter)

/-- Calls take nothing back, however many there are. -/
theorem growsTo_of_extensions {q r : Query} (h : Relation.ReflTransGen ExtendsTo q r) :
    q.clauses.GrowsTo r.clauses := by
  induction h with
  | refl => exact .refl q.clauses
  | tail _ hcall ih => exact ih.trans hcall.growsTo

/-- The conditions, joins, grouping and ordering expressions of any query stand at the start of
those of every query that calls derive from it, and if the query has conditions, the text of the
derived one holds a block of conditions that begins with the whole block of the query. -/
theorem conditions_prefix_of_extensions {q r : Query} (h : Relation.ReflTransGen ExtendsTo q r) :
    q.clauses.conditions <+: r.clauses.conditions ∧ q.clauses.joins <+: r.clauses.joins ∧
      q.clauses.groupBy <+: r.clauses.groupBy ∧ q.clauses.orderBy <+: r.clauses.orderBy ∧
      (q.clauses.conditions ≠ [] →
        ∃ before block after, r.text = before ++ '\n' :: block ++ after ∧
          block = Clauses.conditionBlock r.clauses.conditions ∧
          (∀ next ∈ after.head?, next = '\n') ∧
          Clauses.conditionBlock q.clauses.conditions <+: block) := by
  have hgrows := growsTo_of_extensions h
  refine ⟨hgrows.conditions, hgrows.joins, hgrows.groupBy, hgrows.orderBy, fun hne => ?_⟩
  have hne' : r.clauses.conditions ≠ [] := by
    intro hnil
    have hprefix := hgrows.conditions
    rw [hnil, List.prefix_nil] at hprefix
    exact hne hprefix
  obtain ⟨before, after, hrender, hafter⟩ := Clauses.exists_render_eq hne'
  exact ⟨before, _, after, hrender, rfl, hafter,
    Clauses.conditionBlock_prefix hne hgrows.conditions⟩

/-- A statement with another table expression and limit, and a fragment that `OR` opens, leave the
condition of a query where it is. -/
theorem conditions_prefix_of_extensions_statement :
    let q : Query :=
      ⟨{ select := [['*']], source := some ['t'], conditions := ["tenant = 7".toList],
         limit := some ['5'] }, [], 0⟩
    ∃ r, Relation.ReflTransGen ExtendsTo q r ∧
      r.text = "SELECT\n  id\nFROM u\nWHERE tenant = 7\n  OR b = 2\nLIMIT 9".toList ∧
      ["tenant = 7".toList] <+: r.clauses.conditions ∧
      ∃ before block after, r.text = before ++ '\n' :: block ++ after ∧
        "WHERE tenant = 7".toList <+: block := by
  intro q
  let settings : Ambient := ⟨[], none, some {}⟩
  let call (t : Text) : Call := ⟨.template (.ofText t), {}⟩
  let statement := "SELECT id\nFROM u\nLIMIT 9".toList
  let fragment := "or b = 2".toList
  let middle : Query :=
    ⟨{ select := ["id".toList], source := some ['u'], conditions := ["tenant = 7".toList],
       limit := some ['9'] }, [], 0⟩
  let last : Query :=
    ⟨{ middle.clauses with conditions := ["tenant = 7".toList, "OR b = 2".toList] }, [], 0⟩
  have hstatement : q.ExtendsTo middle := ⟨settings, call statement, by with_unfolding_all rfl⟩
  have hfragment : middle.ExtendsTo last := ⟨settings, call fragment, by with_unfolding_all rfl⟩
  have hextensions : Relation.ReflTransGen ExtendsTo q last := .tail (.single hstatement) hfragment
  obtain ⟨hconditions, -, -, -, hblock⟩ := conditions_prefix_of_extensions hextensions
  obtain ⟨before, block, after, htext, -, -, hprefix⟩ := hblock (List.cons_ne_nil _ _)
  exact ⟨last, hextensions, by decide +kernel, hconditions, before, block, after, htext, hprefix⟩

end Query

end SqlComposer
