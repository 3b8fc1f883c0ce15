import SqlComposer.Proofs.Keywords
import SqlComposer.Proofs.Lines
import SqlComposer.Query

/-!
# Texts of keywords

The texts that a statement holds for a keyword are the operands of the keyword and the lines that
continue its section. Conditions, grouping and ordering expressions are these texts as they stand,
one after the other; the fields are those of the texts of the last `SELECT`.
-/

namespace SqlComposer

/-- The list that the operands and further lines of a keyword are added to as they stand. -/
def Clauses.listOf (c : Clauses) : Keyword → List Text
  | .condition => c.conditions
  | .groupBy => c.groupBy
  | .orderBy => c.orderBy
  | _ => []

/-- The operand of a keyword is trimmed. -/
theorem Keyword.trim_of_first? {ks : List Keyword} {k : Keyword} {t operand : Text}
    (h : first? ks t = some (k, operand)) : Text.trim operand = operand := by
  obtain ⟨-, rest, -, rfl⟩ := exists_after?_of_first? h
  exact Text.trim_trim rest

namespace Statement

/-! ## Lists -/

/-- The text that a line holds for a keyword: the operand of the keyword, or the whole line if it
continues the section that the keyword opens. -/
def lineTexts (k : Keyword) (current : Section) (line : Text) : List Text :=
  match keyword? line with
  | some (k', operand) => if k' = k then [operand] else []
  | none => if current = sectionOf .none k then [line] else []

/-- The texts that lines hold for a keyword from an open section on. -/
def linesTexts (k : Keyword) (current : Section) : List Text → List Text
  | [] => []
  | line :: rest => lineTexts k current line ++ linesTexts k (sectionAfter current line) rest

/-- The texts that a statement holds for a keyword. -/
def texts (k : Keyword) (statement : Text) : List Text :=
  linesTexts k .none (linesOf statement)

/-- The lines of the field list after further lines: those of the last `SELECT` and what continues
it. -/
def fieldLinesFrom (current : Section) (earlier : List Text) : List Text → List Text
  | [] => earlier
  | line :: rest =>
    let kept := if (keyword? line).any (·.1 == .select) then [] else earlier
    fieldLinesFrom (sectionAfter current line) (kept ++ lineTexts .select current line) rest

/-- The lines of the field list of a statement. -/
def fieldLines (statement : Text) : List Text :=
  fieldLinesFrom .none [] (linesOf statement)

/-- A line adds its texts to the list of a keyword, at the end. -/
theorem listOf_applyLine {k : Keyword} (hk : k ∈ [.condition, .groupBy, .orderBy])
    (current : Section) (c : Clauses) (line : Text) :
    (applyLine current c line).listOf k = c.listOf k ++ lineTexts k current line := by
  unfold applyLine lineTexts
  simp only [List.mem_cons, List.not_mem_nil, or_false] at hk
  cases keyword? line with
  | some entry =>
    obtain ⟨k', operand⟩ := entry
    rcases hk with rfl | rfl | rfl <;> cases k' <;> simp [openWith, Clauses.listOf]
  | none =>
    rcases hk with rfl | rfl | rfl <;> cases current <;>
      simp [continueWith, Clauses.listOf, sectionOf]

/-- Lines add their texts one after the other. -/
theorem listOf_readLines {k : Keyword} (hk : k ∈ [.condition, .groupBy, .orderBy])
    (current : Section) (c : Clauses) (lines : List Text) :
    (readLines current c lines).listOf k = c.listOf k ++ linesTexts k current lines := by
  induction lines generalizing current c with
  | nil => simp [readLines, linesTexts]
  | cons line rest ih =>
    rw [readLines, ih, listOf_applyLine hk, linesTexts, List.append_assoc]

/-- A line adds its field at the end, or begins a new list of fields. -/
theorem select_applyLine (current : Section) (c : Clauses) (line : Text) :
    (applyLine current c line).select =
      (if (keyword? line).any (·.1 == .select) then [] else c.select) ++
        (lineTexts .select current line).flatMap fieldsOf := by
  unfold applyLine lineTexts
  cases keyword? line with
  | some entry =>
    obtain ⟨k, operand⟩ := entry
    cases k <;> simp [openWith]
  | none => cases current <;> simp [continueWith, sectionOf]

/-- The fields are those of the lines of the field list. -/
theorem select_readLines {current : Section} {c : Clauses} {earlier : List Text}
    (h : c.select = earlier.flatMap fieldsOf) (lines : List Text) :
    (readLines current c lines).select =
      (fieldLinesFrom current earlier lines).flatMap fieldsOf := by
  induction lines generalizing current c earlier with
  | nil => exact h
  | cons line rest ih =>
    rw [readLines, fieldLinesFrom]
    apply ih
    rw [select_applyLine, List.flatMap_append]
    split
    · rfl
    · rw [h]

/-! ## Trimmed texts -/

/-- The texts of a trimmed line are trimmed. -/
theorem trim_of_mem_lineTexts {k : Keyword} {current : Section} {line t : Text}
    (hline : Text.trim line = line) (h : t ∈ lineTexts k current line) : Text.trim t = t := by
  unfold lineTexts at h
  split at h
  · next k' operand hkeyword =>
    obtain ⟨-, hmem⟩ := List.mem_ite_nil_right.mp h
    rw [List.mem_singleton] at hmem
    rw [hmem]
    exact Keyword.trim_of_first? hkeyword
  · obtain ⟨-, hmem⟩ := List.mem_ite_nil_right.mp h
    rw [List.mem_singleton] at hmem
    rwa [hmem]

/-- The lines of a field list are trimmed. -/
theorem trim_of_mem_fieldLinesFrom {current : Section} {earlier lines : List Text}
    (hearlier : ∀ t ∈ earlier, Text.trim t = t) (hlines : ∀ line ∈ lines, Text.trim line = line) :
    ∀ t ∈ fieldLinesFrom current earlier lines, Text.trim t = t := by
  induction lines generalizing current earlier with
  | nil => exact hearlier
  | cons line rest ih =>
    rw [List.forall_mem_cons] at hlines
    refine ih (List.forall_mem_append.mpr ⟨?_, fun t => trim_of_mem_lineTexts hlines.1⟩) hlines.2
    split
    · nofun
    · exact hearlier

/-- The lines of a statement are trimmed. -/
theorem trim_of_mem_linesOf {statement line : Text} (h : line ∈ linesOf statement) :
    Text.trim line = line := by
  obtain ⟨hmem, -⟩ := List.mem_filter.mp h
  obtain ⟨piece, -, rfl⟩ := List.mem_map.mp hmem
  exact Text.trim_trim piece

/-- The field lines of a statement are trimmed. -/
theorem trim_of_mem_fieldLines {statement t : Text} (h : t ∈ fieldLines statement) :
    Text.trim t = t :=
  trim_of_mem_fieldLinesFrom (by simp) (fun _ => trim_of_mem_linesOf) t h

end Statement

/-- What a statement without values is read as. -/
theorem Query.lists_parse (statement : Text) :
    (parse statement).clauses.select =
        (Statement.fieldLines statement).flatMap Statement.fieldsOf ∧
      (parse statement).clauses.conditions = Statement.texts .condition statement ∧
      (parse statement).clauses.groupBy = Statement.texts .groupBy statement ∧
      (parse statement).clauses.orderBy = Statement.texts .orderBy statement := by
  have hlist (k : Keyword) (hk : k ∈ [.condition, .groupBy, .orderBy]) :=
    Statement.listOf_readLines hk .none .empty (Statement.linesOf statement)
  exact ⟨Statement.select_readLines rfl (Statement.linesOf statement),
    hlist .condition (by decide), hlist .groupBy (by decide), hlist .orderBy (by decide)⟩

end SqlComposer
