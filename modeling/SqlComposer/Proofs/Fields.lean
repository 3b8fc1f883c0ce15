import Mathlib.Tactic.MkIffOfInductiveProp
import SqlComposer.Proofs.Lines
import SqlComposer.Proofs.Separators

/-!
# Fields

A line of a field list holds the field that is left without one comma at either end. Lines that no
keyword opens add their fields one after the other. A written list of fields has a line for each
field, with a comma behind all but the last one.
-/

namespace SqlComposer

namespace Statement

/-! ## Fields of trimmed lines -/

/-- A text that begins with another character keeps it. -/
theorem dropLeadingComma_of_ne {t : Text} (h : t.head? ≠ some ',') : dropLeadingComma t = t := by
  unfold dropLeadingComma
  split
  · exact absurd rfl h
  · rfl

/-- Without a comma at its start, a line is the end of the line. -/
theorem dropLeadingComma_suffix (t : Text) : dropLeadingComma t <:+ t := by
  unfold dropLeadingComma
  split
  · exact (List.dropWhile_suffix Text.isBlank).trans (List.suffix_cons ',' _)
  · exact List.suffix_rfl

/-- Only a text that begins with a comma loses something at its start. -/
theorem dropLeadingComma_eq_self_iff {t : Text} :
    dropLeadingComma t = t ↔ t.head? ≠ some ',' := by
  refine ⟨fun h hhead => ?_, dropLeadingComma_of_ne⟩
  obtain ⟨rest, rfl⟩ := List.head?_eq_some_iff.mp hhead
  have hle := (List.dropWhile_suffix (l := rest) Text.isBlank).length_le
  have hlength := congrArg List.length h
  rw [dropLeadingComma, Text.trimStart, List.length_cons] at hlength
  omega

/-- A trimmed line is trimmed without the comma at its start, too. -/
theorem trim_dropLeadingComma {line : Text} (h : Text.trim line = line) :
    Text.trim (dropLeadingComma line) = dropLeadingComma line := by
  unfold dropLeadingComma
  split
  · next rest =>
    have hstart := Text.trimStart_trimStart rest
    have hlast : ∀ c ∈ (Text.trimStart rest).getLast?, Text.isBlank c = false := by
      intro c hc
      obtain ⟨blanks, hblanks⟩ : Text.trimStart rest <:+ ',' :: rest :=
        (List.dropWhile_suffix Text.isBlank).trans (List.suffix_cons ',' rest)
      apply (Text.trim_eq_self_iff.mp h).2
      rw [← hblanks, List.getLast?_append, Option.mem_def.mp hc]
      rfl
    exact Text.trim_eq_self_iff.mpr ⟨Text.trimStart_eq_self_iff.mp hstart, hlast⟩
  · exact h

/-- The field of a trimmed line lacks the comma at its end, if there is one. -/
theorem fieldOf_eq {line : Text} (h : Text.trim line = line) :
    fieldOf line =
      if (dropLeadingComma line).getLast? = some ',' then (dropLeadingComma line).dropLast
      else dropLeadingComma line := by
  have htrim : Text.trimEnd (dropLeadingComma line) = dropLeadingComma line :=
    Text.trimEnd_eq_self_iff.mpr (Text.trim_eq_self_iff.mp (trim_dropLeadingComma h)).2
  unfold fieldOf
  split
  · next hcomma =>
    obtain rfl : line = [','] := h.symm.trans hcomma
    rfl
  · rw [dropTrailingComma, htrim]

/-- A trimmed line is its field and a comma, or its field that ends with none, once the comma at its
start is taken off. -/
theorem dropLeadingComma_eq {line : Text} (h : Text.trim line = line) :
    dropLeadingComma line = fieldOf line ++ [','] ∨
      dropLeadingComma line = fieldOf line ∧ (fieldOf line).getLast? ≠ some ',' := by
  rw [fieldOf_eq h]
  split
  · next hcomma => exact .inl (List.dropLast_append_getLast? _ hcomma).symm
  · next hcomma => exact .inr ⟨rfl, hcomma⟩

/-- The field of a line with a comma at its end is what stands before that comma. -/
theorem fieldOf_of_comma {line field : Text} (h : Text.trim line = line)
    (hline : dropLeadingComma line = field ++ [',']) : fieldOf line = field := by
  rw [fieldOf_eq h, hline, List.getLast?_concat, if_pos rfl, List.dropLast_concat]

/-- The field of a line without a comma at its end is all that the line holds. -/
theorem fieldOf_of_ne {line field : Text} (h : Text.trim line = line)
    (hline : dropLeadingComma line = field) (hlast : field.getLast? ≠ some ',') :
    fieldOf line = field := by
  rw [fieldOf_eq h, hline, if_neg hlast]

/-- A trimmed line is no shorter than its field. -/
theorem length_fieldOf_le {line : Text} (h : Text.trim line = line) :
    (fieldOf line).length ≤ line.length := by
  have hle := (dropLeadingComma_suffix line).length_le
  rcases dropLeadingComma_eq h with hcomma | ⟨hnone, -⟩
  · rw [hcomma, List.length_append] at hle
    omega
  · rwa [hnone] at hle

/-- A trimmed line that is its own field has no comma at either end. -/
theorem ends_of_fieldOf_eq {line : Text} (h : Text.trim line = line)
    (hfield : fieldOf line = line) : line.head? ≠ some ',' ∧ line.getLast? ≠ some ',' := by
  have hdrop := dropLeadingComma_eq h
  rw [hfield] at hdrop
  rcases hdrop with hcomma | ⟨hnone, hlast⟩
  · have hle := (dropLeadingComma_suffix line).length_le
    rw [hcomma, List.length_append, List.length_singleton] at hle
    omega
  · exact ⟨dropLeadingComma_eq_self_iff.mp hnone, hlast⟩

/-- A text that is the field of a line with a comma behind it does not begin with one. -/
theorem head?_of_fieldOf_comma {field : Text} (hne : field ≠ [])
    (h : Text.trim (field ++ [',']) = field ++ [',']) (hfield : fieldOf (field ++ [',']) = field) :
    field.head? ≠ some ',' := by
  have hdrop := dropLeadingComma_eq h
  rw [hfield] at hdrop
  rcases hdrop with hcomma | ⟨hnone, hlast⟩
  · have hhead := dropLeadingComma_eq_self_iff.mp hcomma
    rwa [List.head?_append_of_ne_nil _ hne] at hhead
  · -- what is left of the line still ends with its comma
    obtain ⟨front, hfront⟩ := dropLeadingComma_suffix (field ++ [','])
    rw [hnone] at hfront
    have hends := congrArg List.getLast? hfront
    rw [List.getLast?_append_of_ne_nil _ hne, List.getLast?_concat] at hends
    exact absurd hends hlast

/-- The field of a trimmed line does not begin with a blank. -/
theorem head?_fieldOf {line : Text} (h : Text.trim line = line) :
    ∀ c ∈ (fieldOf line).head?, Text.isBlank c = false := by
  intro c hc
  apply (Text.trim_eq_self_iff.mp (trim_dropLeadingComma h)).1
  rcases dropLeadingComma_eq h with hcomma | ⟨hnone, -⟩
  · rw [hcomma, List.head?_append, Option.mem_def.mp hc]
    rfl
  · rwa [hnone]

/-- The fields of a line are its one field, unless this is empty. -/
theorem mem_fieldsOf {line field : Text} :
    field ∈ fieldsOf line ↔ field = fieldOf line ∧ field ≠ [] := by
  simp [fieldsOf]

/-- A line has at most the field that is left of it. -/
theorem fieldsOf_eq_singleton_iff {line field : Text} :
    fieldsOf line = [field] ↔ fieldOf line = field ∧ field ≠ [] := by
  by_cases hnil : fieldOf line = []
  · simp [fieldsOf, hnil, eq_comm]
  · have hkept : fieldsOf line = [fieldOf line] := by simp [fieldsOf, hnil]
    rw [hkept, List.singleton_inj]
    exact ⟨fun h => ⟨h, h ▸ hnil⟩, And.left⟩

/-! ## Lists of fields -/

/-- Lines that no keyword opens add their fields to an open list. -/
theorem readLines_select {lines : List Text} (h : ∀ line ∈ lines, keyword? line = none)
    (c : Clauses) (rest : List Text) :
    readLines .select c (lines ++ rest) =
      readLines .select { c with select := c.select ++ lines.flatMap fieldsOf } rest := by
  induction lines generalizing c with
  | nil => simp
  | cons line lines ih =>
    rw [List.forall_mem_cons] at h
    have hrest := ih h.2 { c with select := c.select ++ fieldsOf line }
    rw [List.cons_append, readLines, sectionAfter, applyLine, h.1, List.flatMap_cons,
      ← List.append_assoc]
    exact hrest

/-- The lines of a written list of fields. -/
def commaLines : List Text → List Text
  | [] => []
  | [field] => [field]
  | field :: next :: fields => (field ++ [',']) :: commaLines (next :: fields)

/-- There are as many lines as fields. -/
theorem length_commaLines (fields : List Text) : (commaLines fields).length = fields.length := by
  fun_induction commaLines fields with
  | case1 => rfl
  | case2 field => rfl
  | case3 field next fields ih => exact congrArg (· + 1) ih

/-- A text on a single line that a blank does not begin. -/
def BeginsLine (t : Text) : Prop :=
  '\n' ∉ t ∧ ∃ c rest, t = c :: rest ∧ Text.isBlank c = false

/-- A line begins with something. -/
theorem BeginsLine.ne_nil {t : Text} (h : BeginsLine t) : t ≠ [] := by
  obtain ⟨-, c, rest, rfl, -⟩ := h
  simp

/-- A line begins with no blank. -/
theorem BeginsLine.head? {t : Text} (h : BeginsLine t) : ∀ c ∈ t.head?, Text.isBlank c = false := by
  obtain ⟨-, c, rest, rfl, hblank⟩ := h
  simpa using hblank

/-- A line that is not empty begins one. -/
theorem BeginsLine.of_isLine {t : Text} (h : t.IsLine) (hne : t ≠ []) : BeginsLine t := by
  obtain ⟨c, rest, rfl⟩ := List.exists_cons_of_ne_nil hne
  exact ⟨h.1, c, rest, rfl, (Text.trim_eq_self_iff.mp h.2).1 c rfl⟩

/-- With a comma behind it such a text has nothing to trim. -/
theorem BeginsLine.isLine_comma {t : Text} (h : BeginsLine t) : Text.IsLine (t ++ [',']) :=
  ⟨by simpa using h.1, Text.trim_append_comma h.ne_nil h.head?⟩

/-- A written list of fields has a line for each of them. -/
theorem linesOf_fields {fields : List Text} (hfields : ∀ field ∈ fields, BeginsLine field)
    (hlast : ∀ field ∈ fields.getLast?, Text.trim field = field) :
    linesOf (",\n  ".toList.intercalate fields) = commaLines fields := by
  induction fields with
  | nil => rfl
  | cons field fields ih =>
    rw [List.forall_mem_cons] at hfields
    cases fields with
    | nil =>
      rw [List.intercalate_singleton]
      exact linesOf_of_isLine ⟨hfields.1.1, hlast field rfl⟩ hfields.1.ne_nil
    | cons next fields =>
      have hsplit := linesOf_indented_cons [] [','] field next fields
      rw [List.nil_append, List.nil_append,
        linesOf_of_isLine hfields.1.isLine_comma (by simp)] at hsplit
      rw [commaLines, ← ih hfields.2 (by simpa using hlast)]
      exact hsplit

/-- The lines of a written list hold its fields, if none begins and the last one does not end with
a comma. -/
theorem flatMap_fieldsOf_commaLines {fields : List Text}
    (hfields : ∀ field ∈ fields, BeginsLine field ∧ field.head? ≠ some ',')
    (hlast : ∀ field ∈ fields.getLast?, Text.trim field = field ∧ field.getLast? ≠ some ',') :
    (commaLines fields).flatMap fieldsOf = fields := by
  induction fields with
  | nil => rfl
  | cons field fields ih =>
    rw [List.forall_mem_cons] at hfields
    obtain ⟨⟨hfield, hhead⟩, hrest⟩ := hfields
    cases fields with
    | nil =>
      obtain ⟨htrim, hcomma⟩ := hlast field rfl
      rw [commaLines, List.flatMap_singleton, fieldsOf_eq_singleton_iff]
      exact ⟨fieldOf_of_ne htrim (dropLeadingComma_of_ne hhead) hcomma, hfield.ne_nil⟩
    | cons next fields =>
      have hfirst : fieldsOf (field ++ [',']) = [field] := by
        rw [fieldsOf_eq_singleton_iff]
        refine ⟨fieldOf_of_comma hfield.isLine_comma.2 (dropLeadingComma_of_ne ?_), hfield.ne_nil⟩
        rwa [List.head?_append_of_ne_nil _ hfield.ne_nil]
      rw [commaLines, List.flatMap_cons, hfirst, ih hrest (by simpa using hlast)]
      rfl

/-- No keyword opens a line of a written list when none opens a field. -/
theorem keyword?_of_mem_commaLines {fields : List Text} {line : Text}
    (hfields : ∀ field ∈ fields, keyword? field = none) (h : line ∈ commaLines fields) :
    keyword? line = none := by
  induction fields with
  | nil => cases h
  | cons field fields ih =>
    rw [List.forall_mem_cons] at hfields
    cases fields with
    | nil =>
      obtain rfl : line = field := by simpa [commaLines] using h
      exact hfields.1
    | cons next fields =>
      rcases List.mem_cons.mp h with rfl | hmem
      · exact keyword?_append_separators Text.IsSeparator.comma.separates hfields.1
      · exact ih hfields.2 hmem

end Statement

/-! ## Fields as they stand -/

/-- A field that stands in a list of fields as it is. -/
@[mk_iff]
structure Clauses.IsField (field : Text) : Prop where
  /-- A field is not empty. -/
  ne_nil : field ≠ []
  /-- It does not begin with a comma. -/
  first : field.head? ≠ some ','
  /-- It does not end with a comma. -/
  last : field.getLast? ≠ some ','
  /-- No keyword opens it. -/
  no_keyword : ∀ k ∈ Statement.keywords, k.opens field = false

instance (field : Text) : Decidable (Clauses.IsField field) :=
  decidable_of_iff _ (Clauses.isField_iff field).symm

end SqlComposer
