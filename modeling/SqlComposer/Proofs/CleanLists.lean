import SqlComposer.Proofs.Fields
import SqlComposer.Proofs.LineTexts

/-!
# Clean lists

The lists of a statement are meant to hold neither empty entries nor lone commas, and fields are
meant to have no blanks at their ends. A line of a field list loses one comma at either end, so a
comma that stands before the last one, or a blank, is left at the end of the field. Grouping and
ordering expressions are kept as they stand. So the lists are clean except for such lines.
-/

namespace SqlComposer

/-- No list holds an empty entry or a lone comma, and no field has blanks at its ends. -/
structure Clauses.IsClean (c : Clauses) : Prop where
  /-- Every field is more than a comma, and trimmed. -/
  select : ∀ field ∈ c.select, field ≠ [] ∧ field ≠ [','] ∧ Text.trim field = field
  /-- Every grouping expression is more than a comma. -/
  groupBy : ∀ expression ∈ c.groupBy, expression ≠ [] ∧ expression ≠ [',']
  /-- Every ordering expression is more than a comma. -/
  orderBy : ∀ expression ∈ c.orderBy, expression ≠ [] ∧ expression ≠ [',']

namespace Statement

/-- A line whose field is a lone comma, or ends with a blank, once the comma at its end is taken
off. -/
def LeavesSeparator (line : Text) : Prop :=
  ∃ body, dropLeadingComma line = body ++ [','] ∧
    (body = [','] ∨ ∃ c ∈ body.getLast?, Text.isBlank c = true)

/-- The field of a trimmed line is clean unless the line leaves a separator in it. -/
theorem forall_fieldsOf_iff {line : Text} (h : Text.trim line = line) :
    (∀ field ∈ fieldsOf line, field ≠ [] ∧ field ≠ [','] ∧ Text.trim field = field) ↔
      ¬ LeavesSeparator line := by
  have htrim : Text.trim (fieldOf line) = fieldOf line ↔
      ∀ c ∈ (fieldOf line).getLast?, Text.isBlank c = false := by
    rw [Text.trim_eq_self_iff]
    exact and_iff_right (head?_fieldOf h)
  have hclean : (∀ field ∈ fieldsOf line, field ≠ [] ∧ field ≠ [','] ∧ Text.trim field = field) ↔
      fieldOf line ≠ [','] ∧ ∀ c ∈ (fieldOf line).getLast?, Text.isBlank c = false := by
    constructor
    · intro hfields
      by_cases hne : fieldOf line = []
      · simp [hne]
      · obtain ⟨-, hcomma, htrimmed⟩ := hfields _ (mem_fieldsOf.mpr ⟨rfl, hne⟩)
        exact ⟨hcomma, htrim.mp htrimmed⟩
    · rintro ⟨hcomma, hlast⟩ field hfield
      obtain ⟨rfl, hne⟩ := mem_fieldsOf.mp hfield
      exact ⟨hne, hcomma, htrim.mpr hlast⟩
  rw [hclean]
  -- what stands before the comma at the end is the field; without a comma there the line is
  rcases dropLeadingComma_eq h with hcomma | ⟨hnone, hlast⟩
  · have hleaves : LeavesSeparator line ↔
        fieldOf line = [','] ∨ ∃ c ∈ (fieldOf line).getLast?, Text.isBlank c = true := by
      constructor
      · rintro ⟨body, hbody, hends⟩
        rw [hcomma] at hbody
        rwa [List.append_cancel_right hbody]
      · intro hends
        exact ⟨fieldOf line, hcomma, hends⟩
    simp [hleaves]
  · have hleaves : ¬ LeavesSeparator line := by
      rintro ⟨body, hbody, -⟩
      rw [← hnone, hbody] at hlast
      simp at hlast
    have hends := (Text.trim_eq_self_iff.mp (trim_dropLeadingComma h)).2
    rw [hnone] at hends
    refine iff_of_true ⟨?_, hends⟩ hleaves
    intro hcomma
    rw [hcomma] at hlast
    exact hlast rfl

end Statement

namespace Query

/-- The lists of a statement are clean exactly when no line of its field list leaves a separator in
its field, and neither a grouping nor an ordering expression, as it stands in the statement, is
empty or a lone comma. In any case no field is empty, or begins with a blank. -/
theorem isClean_parse_iff (statement : Text) :
    ((parse statement).clauses.IsClean ↔
      (∀ line ∈ Statement.fieldLines statement, ¬ Statement.LeavesSeparator line) ∧
        ∀ k ∈ [Keyword.groupBy, .orderBy], ∀ t ∈ Statement.texts k statement, t ≠ [] ∧ t ≠ [',']) ∧
    ∀ field ∈ (parse statement).clauses.select,
      field ≠ [] ∧ ∀ c ∈ field.head?, Text.isBlank c = false := by
  obtain ⟨hselect, -, hgroupBy, horderBy⟩ := lists_parse statement
  constructor
  · have hfields : (∀ field ∈ (parse statement).clauses.select,
          field ≠ [] ∧ field ≠ [','] ∧ Text.trim field = field) ↔
        ∀ line ∈ Statement.fieldLines statement, ¬ Statement.LeavesSeparator line := by
      rw [hselect, List.forall_mem_flatMap]
      refine forall₂_congr fun line hline => ?_
      exact Statement.forall_fieldsOf_iff (Statement.trim_of_mem_fieldLines hline)
    rw [← hfields, List.forall_mem_cons, List.forall_mem_singleton, ← hgroupBy, ← horderBy]
    constructor
    · rintro ⟨hclean, hgroups, horders⟩
      exact ⟨hclean, hgroups, horders⟩
    · rintro ⟨hclean, hgroups, horders⟩
      exact ⟨hclean, hgroups, horders⟩
  · rw [hselect, List.forall_mem_flatMap]
    intro line hline field hfield
    obtain ⟨rfl, hne⟩ := Statement.mem_fieldsOf.mp hfield
    exact ⟨hne, Statement.head?_fieldOf (Statement.trim_of_mem_fieldLines hline)⟩

/-- A blank before the comma behind a field, three commas in a row, a bare `GROUP BY` and a comma on
a line of its own all leave their mark in the lists. -/
theorem not_isClean_parse_of_commas :
    let statement := "SELECT\n  a ,\n  ,,,\nFROM t\nGROUP BY\n  x\n  ,\n  y".toList
    (parse statement).clauses =
        { select := ["a ".toList, [',']], source := some ['t']
          groupBy := [[], ['x'], [','], ['y']] } ∧
      ¬ (parse statement).clauses.IsClean := by
  intro statement
  have hclauses : (parse statement).clauses =
      { select := ["a ".toList, [',']], source := some ['t']
        groupBy := [[], ['x'], [','], ['y']] } := by decide +kernel
  refine ⟨hclauses, fun hclean => ?_⟩
  rw [hclauses] at hclean
  exact (hclean.groupBy [] (by simp)).1 rfl

end Query

end SqlComposer
