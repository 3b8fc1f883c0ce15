import SqlComposer.Clauses
import SqlComposer.Proofs.Fields

/-!
# Reading rendered clauses

Canonical clauses are those whose entries stand on lines of their own and cannot be taken for
anything else: no field or further condition begins like a keyword, and every join does. Reading the
text of canonical clauses yields these clauses again, block by block, so no two of them have the
same text.
-/

namespace SqlComposer

/-! ## Canonical clauses -/

/-- Grouping or ordering expressions that are written as they are: at most one. -/
@[mk_iff]
structure Clauses.IsSingle (expressions : List Text) : Prop where
  /-- There is at most one expression. -/
  length_le : expressions.length ≤ 1
  /-- It is neither empty nor a lone comma, and holds no unresolved placeholder. -/
  usable : ∀ e ∈ expressions, e ≠ [] ∧ e ≠ [','] ∧ Clauses.isResolved e = true

/-- All texts that the clauses hold. -/
def Clauses.entries (c : Clauses) : List Text :=
  c.select ++ c.source.toList ++ c.joins ++ c.conditions ++ c.groupBy ++ c.orderBy ++
    c.limit.toList ++ c.offset.toList

/-- The texts that the clauses hold apart from the fields. -/
def Clauses.laterEntries (c : Clauses) : List Text :=
  c.source.toList ++ c.joins ++ c.conditions ++ c.groupBy ++ c.orderBy ++ c.limit.toList ++
    c.offset.toList

/-- Clauses whose text can be told apart into the clauses again. -/
@[mk_iff]
structure Clauses.Canonical (c : Clauses) : Prop where
  /-- Every entry stands on a single line, without blanks at either end. -/
  lines : ∀ entry ∈ c.entries, Text.IsLine entry
  /-- There is a field. -/
  select_ne : c.select ≠ []
  /-- Every field stands in the list as it is. -/
  fields : ∀ field ∈ c.select, Clauses.IsField field
  /-- A table expression is not empty. -/
  source : ∀ table ∈ c.source, table ≠ []
  /-- Every join begins with its keyword. -/
  joins : ∀ join ∈ c.joins, Keyword.join.opens join = true
  /-- No condition is empty. -/
  conditions : ∀ condition ∈ c.conditions, condition ≠ []
  /-- No keyword that opens a line opens a condition after the first. -/
  later : ∀ condition ∈ c.conditions.tail, ∀ k ∈ Statement.keywords, k.opens condition = false
  /-- There is at most one grouping expression, and it is usable. -/
  groupBy : Clauses.IsSingle c.groupBy
  /-- There is at most one ordering expression, and it is usable. -/
  orderBy : Clauses.IsSingle c.orderBy
  /-- The limit holds no unresolved placeholder. -/
  limit : ∀ operand ∈ c.limit, Clauses.isResolved operand = true
  /-- The offset holds no unresolved placeholder. -/
  offset : ∀ operand ∈ c.offset, Clauses.isResolved operand = true

instance (expressions : List Text) : Decidable (Clauses.IsSingle expressions) :=
  decidable_of_iff _ (Clauses.isSingle_iff expressions).symm

instance (c : Clauses) : Decidable c.Canonical :=
  decidable_of_iff _ (Clauses.canonical_iff c).symm

/-! ## Lines that lead from clauses to clauses -/

namespace Statement

/-- Lines lead from some clauses to others, whatever section is open before them and whatever lines
follow. -/
def Reads (lines : List Text) (c c' : Clauses) : Prop :=
  ∀ current, ∃ after, ∀ rest, readLines current c (lines ++ rest) = readLines after c' rest

/-- No lines leave the clauses as they are. -/
theorem Reads.nil (c : Clauses) : Reads [] c c :=
  fun current => ⟨current, fun _ => rfl⟩

/-- Lines after lines lead on from where these have led. -/
theorem Reads.append {lines lines' : List Text} {c c' c'' : Clauses} (h : Reads lines c c')
    (h' : Reads lines' c' c'') : Reads (lines ++ lines') c c'' := by
  intro current
  obtain ⟨middle, hmiddle⟩ := h current
  obtain ⟨after, hafter⟩ := h' middle
  refine ⟨after, fun rest => ?_⟩
  rw [List.append_assoc, hmiddle, hafter]

/-- Lines that lead to some clauses are read as these clauses. -/
theorem Reads.readLines_eq {lines : List Text} {c c' : Clauses} (h : Reads lines c c')
    (current : Section) : readLines current c lines = c' := by
  obtain ⟨after, hafter⟩ := h current
  simpa [readLines] using hafter []

/-- A line that a keyword opens leads to the clauses with its operand. -/
theorem Reads.line {line operand : Text} {k : Keyword} (h : keyword? line = some (k, operand))
    (c : Clauses) : Reads [line] c (openWith c line k operand) := by
  refine fun current => ⟨sectionOf current k, fun rest => ?_⟩
  simp only [List.cons_append, List.nil_append, readLines, sectionAfter, applyLine, h]

/-! ## Operands -/

/-- A spelling of a keyword, with a blank at its end, before an operand. -/
structure Introduces (front : Text) (k : Keyword) : Prop where
  /-- The spelling stands on a single line. -/
  no_feed : '\n' ∉ front
  /-- The spelling does not begin with a blank. -/
  first : ∃ c rest, front = c :: rest ∧ Text.isBlank c = false
  /-- Without an operand the keyword stands alone. -/
  alone : keyword? (Text.trim front) = some (k, [])
  /-- An operand follows the blank. -/
  before : ∀ operand, keyword? (front ++ operand) = some (k, Text.trim operand)

/-- The keyword of the table expression introduces it. -/
theorem introduces_source : Introduces "FROM ".toList .source :=
  ⟨by decide, ⟨_, _, rfl, by decide⟩, rfl, fun _ => rfl⟩

/-- The keyword of the conditions introduces them. -/
theorem introduces_condition : Introduces "WHERE ".toList .condition :=
  ⟨by decide, ⟨_, _, rfl, by decide⟩, rfl, fun _ => rfl⟩

/-- The keyword of the grouping expressions introduces them. -/
theorem introduces_groupBy : Introduces "GROUP BY ".toList .groupBy :=
  ⟨by decide, ⟨_, _, rfl, by decide⟩, rfl, fun _ => rfl⟩

/-- The keyword of the ordering expressions introduces them. -/
theorem introduces_orderBy : Introduces "ORDER BY ".toList .orderBy :=
  ⟨by decide, ⟨_, _, rfl, by decide⟩, rfl, fun _ => rfl⟩

/-- The keyword of the limit introduces it. -/
theorem introduces_limit : Introduces "LIMIT ".toList .limit :=
  ⟨by decide, ⟨_, _, rfl, by decide⟩, rfl, fun _ => rfl⟩

/-- The keyword of the offset introduces it. -/
theorem introduces_offset : Introduces "OFFSET ".toList .offset :=
  ⟨by decide, ⟨_, _, rfl, by decide⟩, rfl, fun _ => rfl⟩

/-- A keyword and its operand are one line, which is read as just that. -/
theorem Introduces.exists_line {front operand : Text} {k : Keyword} (h : Introduces front k)
    (hoperand : operand.IsLine) :
    ∃ line, linesOf (front ++ operand) = [line] ∧ keyword? line = some (k, operand) := by
  have hfeed : '\n' ∉ front ++ operand := by
    simpa using ⟨h.no_feed, hoperand.1⟩
  have hkeyword : keyword? (Text.trim (front ++ operand)) = some (k, operand) := by
    obtain ⟨c, rest, hfront, hblank⟩ := h.first
    by_cases hnil : operand = []
    · rw [hnil, List.append_nil]
      exact h.alone
    · have hlast := (Text.trim_eq_self_iff.mp hoperand.2).2
      rw [Text.trim_append (by simp [hfront]) hnil (by simpa [hfront] using hblank) hlast,
        h.before, hoperand.2]
  refine ⟨_, ?_, hkeyword⟩
  rw [linesOf_of_not_mem hfeed]
  have hne : Text.trim (front ++ operand) ≠ [] := by
    intro hnil
    rw [hnil] at hkeyword
    cases hkeyword
  simp [hne]

/-- An operand that is kept leads to the clauses with this operand. -/
theorem reads_operandBlock {front : Text} {k : Keyword} {keep : Text → Bool}
    {operand : Option Text} {c c' : Clauses} (h : Introduces front k)
    (hkeep : ∀ x ∈ operand, keep x = true) (hlines : ∀ x ∈ operand, Text.IsLine x)
    (hnone : operand = none → c = c')
    (hsome : ∀ x, operand = some x → ∀ line, openWith c line k x = c') :
    Reads ((Clauses.operandBlock front keep operand).flatMap linesOf) c c' := by
  cases operand with
  | none =>
    rw [hnone rfl]
    exact Reads.nil c'
  | some x =>
    obtain ⟨line, hline, hkeyword⟩ := h.exists_line (hlines x rfl)
    rw [Clauses.operandBlock, if_pos (hkeep x rfl), List.flatMap_singleton, hline,
      ← hsome x rfl line]
    exact Reads.line hkeyword c

/-- A single expression leads to the clauses with this expression. -/
theorem reads_single {front : Text} {k : Keyword} {expressions : List Text} {c c' : Clauses}
    (h : Introduces front k) (hsingle : Clauses.IsSingle expressions)
    (hlines : ∀ e ∈ expressions, Text.IsLine e) (hnil : expressions = [] → c = c')
    (hsome : ∀ e, expressions = [e] → ∀ line, openWith c line k e = c') :
    Reads ((Clauses.listBlock front ", ".toList (Clauses.usable expressions)).flatMap linesOf)
      c c' := by
  match expressions, hsingle with
  | [], _ =>
    rw [hnil rfl]
    exact Reads.nil c'
  | [e], hsingle =>
    obtain ⟨hne, hcomma, hresolved⟩ := hsingle.usable e (List.mem_singleton_self e)
    obtain ⟨line, hline, hkeyword⟩ := h.exists_line (hlines e (List.mem_singleton_self e))
    have husable : Clauses.usable [e] = [e] := by
      simp [Clauses.usable, hne, hcomma, hresolved]
    rw [husable, Clauses.listBlock, List.intercalate_singleton, List.flatMap_singleton, hline,
      ← hsome e rfl line]
    · exact Reads.line hkeyword c
    · simp
  | _ :: _ :: _, hsingle =>
    have := hsingle.length_le
    simp at this

/-! ## Fields -/

/-- The keyword stands on a line before the fields. -/
theorem selectBlock_of_ne_nil {fields : List Text} (hne : fields ≠ []) :
    Clauses.selectBlock fields =
      "SELECT".toList ++ '\n' :: ' ' :: ' ' :: ",\n  ".toList.intercalate fields := by
  cases fields with
  | nil => exact absurd rfl hne
  | cons field fields => rfl

/-- A block of fields opens the list of fields, which its other lines go on with. -/
theorem linesOf_selectBlock {fields : List Text} (hne : fields ≠ [])
    (hfields : ∀ field ∈ fields, BeginsLine field)
    (hlast : ∀ field ∈ fields.getLast?, Text.trim field = field) :
    linesOf (Clauses.selectBlock fields) = "SELECT".toList :: commaLines fields := by
  rw [selectBlock_of_ne_nil hne, linesOf_append, linesOf_indentation,
    linesOf_fields hfields hlast]
  rfl

/-- A list of fields is read as these fields. -/
theorem reads_select {fields : List Text} (hne : fields ≠ [])
    (hfields : ∀ field ∈ fields, BeginsLine field ∧ field.head? ≠ some ',')
    (hlast : ∀ field ∈ fields.getLast?, Text.trim field = field ∧ field.getLast? ≠ some ',')
    (hkeyword : ∀ field ∈ fields, keyword? field = none) (c : Clauses) :
    Reads (linesOf (Clauses.selectBlock fields)) c { c with select := fields } := by
  rw [linesOf_selectBlock hne (fun field hfield => (hfields field hfield).1)
    fun field hfield => (hlast field hfield).1]
  refine fun current => ⟨.select, fun rest => ?_⟩
  have hread := readLines_select (fun _ => keyword?_of_mem_commaLines hkeyword)
    { c with select := [] } rest
  rwa [flatMap_fieldsOf_commaLines hfields hlast] at hread

/-! ## Joins and conditions -/

/-- Lines that begin like joins are read as joins, one after the other. -/
theorem reads_join_lines {joins : List Text}
    (hjoins : ∀ join ∈ joins, Keyword.join.opens join = true) (c : Clauses) :
    Reads joins c { c with joins := c.joins ++ joins } := by
  induction joins generalizing c with
  | nil =>
    rw [List.append_nil]
    exact Reads.nil c
  | cons join joins ih =>
    rw [List.forall_mem_cons] at hjoins
    obtain ⟨operand, hkeyword⟩ := keyword?_of_opens (by decide) hjoins.1
    have hrest := ih hjoins.2 { c with joins := c.joins ++ [join] }
    rw [List.append_assoc] at hrest
    exact (Reads.line hkeyword c).append hrest

/-- The block of joins is read as these joins. -/
theorem reads_joins {joins : List Text} (hlines : ∀ join ∈ joins, Text.IsLine join)
    (hjoins : ∀ join ∈ joins, Keyword.join.opens join = true) (c : Clauses) :
    Reads ((Clauses.listBlock [] ['\n'] joins).flatMap linesOf) c
      { c with joins := c.joins ++ joins } := by
  have hne : ∀ join ∈ joins, join ≠ [] := by
    rintro join hjoin rfl
    cases hjoins [] hjoin
  have hblock : (Clauses.listBlock [] ['\n'] joins).flatMap linesOf = joins := by
    cases joins with
    | nil => rfl
    | cons join joins =>
      rw [Clauses.listBlock, List.flatMap_singleton, List.nil_append, linesOf_intercalate,
        flatMap_linesOf hlines hne]
      simp
  rw [hblock]
  exact reads_join_lines hjoins c

/-- Lines that no keyword opens are read as further conditions, one after the other. -/
theorem readLines_conditions {conditions : List Text}
    (hlater : ∀ condition ∈ conditions, ∀ k ∈ keywords, k.opens condition = false)
    (c : Clauses) (rest : List Text) :
    readLines .conditions c (conditions ++ rest) =
      readLines .conditions { c with conditions := c.conditions ++ conditions } rest := by
  induction conditions generalizing c with
  | nil =>
    rw [List.append_nil]
    rfl
  | cons condition conditions ih =>
    rw [List.forall_mem_cons] at hlater
    have hkeyword : keyword? condition = none := keyword?_eq_none_iff.mpr hlater.1
    have hrest := ih hlater.2 { c with conditions := c.conditions ++ [condition] }
    rw [List.append_assoc] at hrest
    rw [List.cons_append, readLines, sectionAfter, applyLine, hkeyword]
    exact hrest

/-- The block of conditions is read as these conditions. -/
theorem reads_conditions {conditions : List Text}
    (hlines : ∀ condition ∈ conditions, Text.IsLine condition)
    (hne : ∀ condition ∈ conditions.tail, condition ≠ [])
    (hlater : ∀ condition ∈ conditions.tail, ∀ k ∈ keywords, k.opens condition = false)
    (c : Clauses) :
    Reads ((Clauses.listBlock "WHERE ".toList "\n  ".toList conditions).flatMap linesOf) c
      { c with conditions := c.conditions ++ conditions } := by
  cases conditions with
  | nil =>
    rw [List.append_nil]
    exact Reads.nil c
  | cons first later =>
    rw [List.forall_mem_cons] at hlines
    obtain ⟨line, hline, hkeyword⟩ := introduces_condition.exists_line hlines.1
    have hblock : (Clauses.listBlock "WHERE ".toList "\n  ".toList (first :: later)).flatMap
        linesOf = line :: later := by
      rw [Clauses.listBlock, List.flatMap_singleton, linesOf_indented, hline,
        flatMap_linesOf hlines.2 hne]
      · rfl
      · simp
    rw [hblock]
    refine fun current => ⟨.conditions, fun rest => ?_⟩
    rw [List.cons_append, readLines, sectionAfter, applyLine, hkeyword]
    have hrest := readLines_conditions hlater { c with conditions := c.conditions ++ [first] } rest
    rw [List.append_assoc] at hrest
    exact hrest

end Statement

/-! ## Whole texts -/

namespace Clauses

/-- Clauses whose blocks behind the fields can be told apart into the clauses again. -/
structure IsSeparable (c : Clauses) : Prop where
  /-- Every entry stands on a single line, without blanks at either end. -/
  lines : ∀ entry ∈ c.laterEntries, Text.IsLine entry
  /-- A table expression is not empty. -/
  source : ∀ table ∈ c.source, table ≠ []
  /-- Every join begins with its keyword. -/
  joins : ∀ join ∈ c.joins, Keyword.join.opens join = true
  /-- No condition after the first is empty, or opened by a keyword. -/
  later : ∀ condition ∈ c.conditions.tail,
    condition ≠ [] ∧ ∀ k ∈ Statement.keywords, k.opens condition = false
  /-- There is at most one grouping expression, and it is usable. -/
  groupBy : IsSingle c.groupBy
  /-- There is at most one ordering expression, and it is usable. -/
  orderBy : IsSingle c.orderBy
  /-- The limit holds no unresolved placeholder. -/
  limit : ∀ operand ∈ c.limit, isResolved operand = true
  /-- The offset holds no unresolved placeholder. -/
  offset : ∀ operand ∈ c.offset, isResolved operand = true

/-- Clauses with others behind the fields: lists grow, operands are replaced. -/
def followedBy (d c : Clauses) : Clauses :=
  { select := d.select, source := c.source.or d.source, joins := d.joins ++ c.joins
    conditions := d.conditions ++ c.conditions, groupBy := d.groupBy ++ c.groupBy
    orderBy := d.orderBy ++ c.orderBy, limit := c.limit.or d.limit, offset := c.offset.or d.offset }

/-- The blocks behind the fields lead to the clauses that they are made of. -/
theorem IsSeparable.reads {c : Clauses} (hc : c.IsSeparable) (d : Clauses) :
    Statement.Reads (c.blocks.tail.flatMap Statement.linesOf) d (d.followedBy c) := by
  obtain ⟨select, source, joins, conditions, groupBy, orderBy, limit, offset⟩ := c
  have hlines := hc.lines
  simp only [laterEntries, List.forall_mem_append, Option.mem_toList] at hlines
  obtain ⟨⟨⟨⟨⟨⟨hsourceLines, hjoinLines⟩, hconditionLines⟩, hgroupLines⟩, horderLines⟩,
    hlimitLines⟩, hoffsetLines⟩ := hlines
  -- each block adds its own entries to those of the blocks before it
  have hsource : Statement.Reads
      ((operandBlock "FROM ".toList (!·.isEmpty) source).flatMap Statement.linesOf) d
      (d.followedBy { source }) :=
    Statement.reads_operandBlock Statement.introduces_source
      (by simpa using hc.source) hsourceLines (by rintro rfl; simp [followedBy])
      (by rintro x rfl _; simp [followedBy, Statement.openWith])
  have hjoins : Statement.Reads
      ((listBlock [] ['\n'] joins).flatMap Statement.linesOf) (d.followedBy { source })
      (d.followedBy { source, joins }) := by
    have hread := Statement.reads_joins hjoinLines hc.joins (d.followedBy { source })
    simp only [followedBy, List.append_nil] at hread ⊢
    exact hread
  have hconditions : Statement.Reads
      ((listBlock "WHERE ".toList "\n  ".toList conditions).flatMap Statement.linesOf)
      (d.followedBy { source, joins }) (d.followedBy { source, joins, conditions }) := by
    have hread := Statement.reads_conditions hconditionLines
      (fun condition hcondition => (hc.later condition hcondition).1)
      (fun condition hcondition => (hc.later condition hcondition).2)
      (d.followedBy { source, joins })
    simp only [followedBy, List.append_nil] at hread ⊢
    exact hread
  have hgroupBy : Statement.Reads _ (d.followedBy { source, joins, conditions })
      (d.followedBy { source, joins, conditions, groupBy }) :=
    Statement.reads_single Statement.introduces_groupBy hc.groupBy hgroupLines
      (by rintro rfl; rfl) (by rintro x rfl _; simp [followedBy, Statement.openWith])
  have horderBy : Statement.Reads _ (d.followedBy { source, joins, conditions, groupBy })
      (d.followedBy { source, joins, conditions, groupBy, orderBy }) :=
    Statement.reads_single Statement.introduces_orderBy hc.orderBy horderLines
      (by rintro rfl; rfl) (by rintro x rfl _; simp [followedBy, Statement.openWith])
  have hlimit : Statement.Reads _ (d.followedBy { source, joins, conditions, groupBy, orderBy })
      (d.followedBy { source, joins, conditions, groupBy, orderBy, limit }) :=
    Statement.reads_operandBlock Statement.introduces_limit hc.limit hlimitLines
      (by rintro rfl; rfl) (by rintro x rfl _; rfl)
  have hoffset : Statement.Reads _
      (d.followedBy { source, joins, conditions, groupBy, orderBy, limit })
      (d.followedBy { source, joins, conditions, groupBy, orderBy, limit, offset }) :=
    Statement.reads_operandBlock Statement.introduces_offset hc.offset hoffsetLines
      (by rintro rfl; rfl) (by rintro x rfl _; rfl)
  have hread := (((((hsource.append hjoins).append hconditions).append hgroupBy).append
    horderBy).append hlimit).append hoffset
  simp only [blocks, List.tail_cons, List.cons_append, List.flatMap_append]
  exact hread

/-- The lines of a text are those of the block of fields and of the blocks behind it. -/
theorem linesOf_render (c : Clauses) :
    Statement.linesOf c.render =
      Statement.linesOf (selectBlock c.select) ++ c.blocks.tail.flatMap Statement.linesOf := by
  rw [render, Statement.linesOf_intercalate]
  rfl

/-- If the block of fields is read as some fields, the text is read as these fields and the clauses
behind them. -/
theorem IsSeparable.read_render_eq {c : Clauses} {fields : List Text} (hc : c.IsSeparable)
    (hfields : Statement.Reads (Statement.linesOf (selectBlock c.select)) .empty
      { select := fields }) : Statement.read .empty c.render = { c with select := fields } := by
  rw [Statement.read, linesOf_render, (hfields.append (hc.reads _)).readLines_eq .none]
  simp [followedBy]

/-- The blocks of canonical clauses can be told apart. -/
theorem Canonical.isSeparable {c : Clauses} (hc : c.Canonical) : c.IsSeparable where
  lines := by
    intro entry hentry
    apply hc.lines
    simp only [laterEntries, entries, List.mem_append] at hentry ⊢
    tauto
  source := hc.source
  joins := hc.joins
  later := fun condition hcondition =>
    ⟨hc.conditions condition (List.mem_of_mem_tail hcondition), hc.later condition hcondition⟩
  groupBy := hc.groupBy
  orderBy := hc.orderBy
  limit := hc.limit
  offset := hc.offset

/-- Reading the text of canonical clauses yields these clauses. -/
theorem Canonical.read_render_eq {c : Clauses} (hc : c.Canonical) :
    Statement.read .empty c.render = c := by
  have hline : ∀ field ∈ c.select, Text.IsLine field := by
    intro field hfield
    apply hc.lines
    simp [entries, hfield]
  have hselect := Statement.reads_select hc.select_ne
    (fun field hfield => ⟨.of_isLine (hline field hfield) (hc.fields field hfield).ne_nil,
      (hc.fields field hfield).first⟩)
    (fun field hfield => ⟨(hline field (List.mem_of_getLast? hfield)).2,
      (hc.fields field (List.mem_of_getLast? hfield)).last⟩)
    (fun field hfield => Statement.keyword?_eq_none_iff.mpr (hc.fields field hfield).no_keyword)
    .empty
  exact hc.isSeparable.read_render_eq hselect

end Clauses

/-- Reading undoes rendering on canonical clauses, so canonical clauses of the same text are the
same. -/
theorem Clauses.Canonical.read_render {c : Clauses} (hc : c.Canonical) :
    Statement.read .empty c.render = c ∧
      ∀ d : Clauses, d.Canonical → d.render = c.render → d = c := by
  refine ⟨hc.read_render_eq, fun d hd hrender => ?_⟩
  rw [← hd.read_render_eq, hrender, hc.read_render_eq]

/-- Clauses with every bucket in use, a keyword inside a field and an empty limit are canonical and
read back. -/
theorem Clauses.Canonical.read_render_every_clause :
    let c : Clauses :=
      { select := ["selected".toList, "max(a, b) from".toList], source := some "t AS x".toList
        joins := ["JOIN u".toList, "left  outer join v ON v.k = u.k".toList]
        conditions := ["select = $1".toList, "AND b = $2".toList, "c".toList]
        groupBy := ["b, c".toList], orderBy := ["LIMIT".toList], limit := some []
        offset := some "$3".toList }
    c.Canonical ∧ Statement.read .empty c.render = c ∧
      ∀ d : Clauses, d.Canonical → d.render = c.render → d = c := by
  intro c
  have hc : c.Canonical := by decide +kernel
  exact ⟨hc, hc.read_render⟩

end SqlComposer
