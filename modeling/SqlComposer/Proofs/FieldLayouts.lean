import SqlComposer.Proofs.Cuts
import SqlComposer.Proofs.Fields

/-!
# Layouts of field lists

The fields of a list stand on lines of their own, each with or without a comma on either side, and
with blanks around the commas. Blank lines and lines of a comma alone stand in between. Such a
layout is read as the fields it is made of, except that blanks before the comma behind a field stay
with the field.
-/

namespace SqlComposer.Statement

/-- Blanks within a line. -/
structure Gap where
  /-- The blanks. -/
  text : Text
  /-- Nothing else stands in the gap. -/
  blank : ∀ c ∈ text, Text.isBlank c = true
  /-- The line does not end in the gap. -/
  no_feed : '\n' ∉ text

/-- A field on a line of its own. -/
structure FieldRow where
  /-- What stands before the field or its first comma. -/
  indentation : Gap
  /-- What stands behind a comma before the field, if there is this comma. -/
  leading : Option Gap
  /-- The field. -/
  field : Text
  /-- What stands before a comma behind the field, if there is this comma. -/
  trailing : Option Gap
  /-- What stands behind the field or its last comma. -/
  ending : Gap
  /-- The field stands on a single line, without blanks at either end. -/
  isLine : field.IsLine
  /-- The field can be told from commas and keywords. -/
  isField : Clauses.IsField field

/-- A line without a field. -/
structure Filler where
  /-- The line. -/
  text : Text
  /-- It is a single line. -/
  no_feed : '\n' ∉ text
  /-- It holds a comma at most. -/
  only : Text.trim text ∈ [[], [',']]

/-- A line of a field list. -/
inductive FieldLine
  /-- A line of a field. -/
  | row (r : FieldRow)
  /-- A line between fields. -/
  | filler (f : Filler)

/-- A field list, from the line that opens it on. -/
structure FieldLayout where
  /-- The line that opens the list. -/
  opener : Text
  /-- It is a single line. -/
  no_feed : '\n' ∉ opener
  /-- Only the keyword stands on it. -/
  bare : Keyword.select.operand (Text.trim opener) = .ok []
  /-- The lines behind it. -/
  lines : List FieldLine

/-! ## Rows -/

namespace FieldRow

/-- The comma before the field, with the blanks behind it. -/
def front (r : FieldRow) : Text :=
  (r.leading.map fun gap => ',' :: gap.text).getD []

/-- The blanks before the comma behind the field. -/
def kept (r : FieldRow) : Text :=
  (r.trailing.map Gap.text).getD []

/-- The comma behind the field. -/
def comma (r : FieldRow) : Text :=
  (r.trailing.map fun _ => [',']).getD []

/-- What the row is read as. -/
def entry (r : FieldRow) : Text :=
  r.field ++ r.kept

/-- The row without the blanks at its ends. -/
def core (r : FieldRow) : Text :=
  r.front ++ (r.entry ++ r.comma)

/-- The row as it is written. -/
def text (r : FieldRow) : Text :=
  r.indentation.text ++ r.core ++ r.ending.text

/-- The row without its commas. -/
def withoutCommas (r : FieldRow) : FieldRow :=
  { r with leading := none, trailing := none }

/-- Without its commas, a row is its field. -/
theorem entry_withoutCommas (r : FieldRow) : r.withoutCommas.entry = r.field :=
  List.append_nil r.field

/-- A row is read as its field exactly when no blanks stand before the comma behind it. -/
theorem entry_eq_field_iff (r : FieldRow) :
    r.entry = r.field ↔ ∀ gap ∈ r.trailing, gap.text = [] := by
  rw [entry, List.append_right_eq_self, kept]
  cases r.trailing <;> simp

/-- What is kept of a row, and the comma behind it, begins with the field. -/
theorem exists_entry (r : FieldRow) :
    ∃ c rest, r.entry ++ r.comma = c :: rest ∧ Text.isBlank c = false ∧ c ≠ ',' := by
  obtain ⟨c, rest, hfield⟩ := List.exists_cons_of_ne_nil r.isField.ne_nil
  have hblank := (Text.trim_eq_self_iff.mp r.isLine.2).1
  have hcomma := r.isField.first
  rw [hfield] at hblank hcomma
  refine ⟨c, rest ++ r.kept ++ r.comma, ?_, hblank c rfl, by simpa using hcomma⟩
  simp [entry, hfield]

/-- The last character of a row is that of its field, or its last comma. -/
theorem getLast?_core (r : FieldRow) :
    ∀ c ∈ (r.entry ++ r.comma).getLast?, Text.isBlank c = false := by
  cases htrailing : r.trailing with
  | none =>
    simpa [entry, kept, comma, htrailing] using (Text.trim_eq_self_iff.mp r.isLine.2).2
  | some gap =>
    intro c hc
    obtain rfl : ',' = c := by simpa [comma, htrailing] using hc
    rfl

/-- A row begins with its field, or with a comma and the blanks behind it. -/
theorem core_cases (r : FieldRow) :
    r.core = r.entry ++ r.comma ∨
      ∃ gap : Gap, r.core = ',' :: (gap.text ++ (r.entry ++ r.comma)) := by
  rw [core, front]
  cases r.leading with
  | none => exact .inl rfl
  | some gap => exact .inr ⟨gap, rfl⟩

/-- The core of a row begins with a character that is no blank. -/
theorem exists_core (r : FieldRow) : ∃ c rest, r.core = c :: rest ∧ Text.isBlank c = false := by
  rcases r.core_cases with hcore | ⟨gap, hcore⟩
  · obtain ⟨c, rest, hentry, hblank, -⟩ := r.exists_entry
    exact ⟨c, rest, hcore.trans hentry, hblank⟩
  · exact ⟨',', _, hcore, rfl⟩

/-- Nothing is trimmed off the row but the blanks at its ends. -/
theorem trim_core (r : FieldRow) : Text.trim r.core = r.core := by
  obtain ⟨c, rest, hcore, hblank⟩ := r.exists_core
  obtain ⟨d, later, hentry, -, -⟩ := r.exists_entry
  rw [Text.trim_eq_self_iff]
  constructor
  · rw [hcore]
    simpa using hblank
  · rw [core, List.getLast?_append_of_ne_nil _ (by simp [hentry])]
    exact r.getLast?_core

/-- The comma before the field is taken off with the blanks behind it. -/
theorem dropLeadingComma_core (r : FieldRow) : dropLeadingComma r.core = r.entry ++ r.comma := by
  obtain ⟨c, rest, hentry, hblank, hcomma⟩ := r.exists_entry
  rcases r.core_cases with hcore | ⟨gap, hcore⟩
  · rw [hcore, hentry]
    exact dropLeadingComma_of_ne (by simpa using hcomma)
  · rw [hcore, dropLeadingComma, Text.trimStart, List.dropWhile_append_of_pos gap.blank, hentry,
      List.dropWhile_cons_of_neg (by simp [hblank])]

/-- The row holds its field, with the blanks before the comma behind it. -/
theorem fieldsOf_core (r : FieldRow) : fieldsOf r.core = [r.entry] := by
  have hne : r.entry ≠ [] := by simp [entry, r.isField.ne_nil]
  rw [fieldsOf_eq_singleton_iff]
  refine ⟨?_, hne⟩
  have hdrop := r.dropLeadingComma_core
  cases htrailing : r.trailing with
  | none =>
    have hentry : r.entry = r.field := by simp [entry, kept, htrailing]
    rw [comma, htrailing, Option.map_none, Option.getD_none, List.append_nil] at hdrop
    exact fieldOf_of_ne r.trim_core hdrop (hentry ▸ r.isField.last)
  | some gap =>
    rw [comma, htrailing, Option.map_some, Option.getD_some] at hdrop
    exact fieldOf_of_comma r.trim_core hdrop

/-- No keyword opens the row. -/
theorem keyword?_core (r : FieldRow) : keyword? r.core = none := by
  have hfield : keyword? r.field = none := keyword?_eq_none_iff.mpr r.isField.no_keyword
  have hback : ∀ c ∈ r.kept ++ r.comma, Text.separates c = true := by
    intro c hc
    cases htrailing : r.trailing with
    | none => simp [kept, comma, htrailing] at hc
    | some gap =>
      have hmem : c ∈ gap.text ∨ c = ',' := by simpa [kept, comma, htrailing] using hc
      rcases hmem with hblank | rfl
      · rw [Text.separates, gap.blank c hblank, Bool.true_or]
      · rfl
  rcases r.core_cases with hcore | ⟨gap, hcore⟩
  · rw [hcore, entry, List.append_assoc]
    exact keyword?_append_separators hback hfield
  · rw [hcore]
    rfl

/-- A row is a single line. -/
theorem no_feed_text (r : FieldRow) : '\n' ∉ r.text := by
  have hindentation := r.indentation.no_feed
  have hending := r.ending.no_feed
  have hfield := r.isLine.1
  have hfront : '\n' ∉ r.front := by
    cases hleading : r.leading with
    | none => simp [front, hleading]
    | some gap => simpa [front, hleading] using gap.no_feed
  have hback : '\n' ∉ r.kept ++ r.comma := by
    cases htrailing : r.trailing with
    | none => simp [kept, comma, htrailing]
    | some gap => simpa [kept, comma, htrailing] using gap.no_feed
  simp only [text, core, entry, List.mem_append, not_or] at hback ⊢
  exact ⟨⟨hindentation, hfront, ⟨hfield, hback.1⟩, hback.2⟩, hending⟩

/-- The row is read without the blanks at its ends. -/
theorem linesOf_text (r : FieldRow) : linesOf r.text = [r.core] := by
  obtain ⟨c, rest, hcore, -⟩ := r.exists_core
  have hne : r.core ≠ [] := by simp [hcore]
  rw [linesOf_of_not_mem r.no_feed_text, text,
    Text.trim_between_blanks r.indentation.blank r.ending.blank hne r.trim_core]
  simp [hne]

end FieldRow

/-! ## Lines -/

namespace FieldLine

/-- The line as it is written. -/
def text : FieldLine → Text
  | row r => r.text
  | filler f => f.text

/-- The row on the line, if there is one. -/
def row? : FieldLine → Option FieldRow
  | row r => some r
  | filler _ => none

/-- Lines between fields hold at most a comma. -/
theorem linesOf_filler (f : Filler) : linesOf f.text = [] ∨ linesOf f.text = [[',']] := by
  have honly := f.only
  simp only [List.mem_cons, List.not_mem_nil, or_false] at honly
  rw [linesOf_of_not_mem f.no_feed]
  rcases honly with hnil | hcomma
  · exact .inl (by simp [hnil])
  · exact .inr (by simp [hcomma])

/-- No keyword opens a line of a field list. -/
theorem keyword?_of_mem {line : FieldLine} {t : Text} (h : t ∈ linesOf line.text) :
    keyword? t = none := by
  cases line with
  | row r =>
    rw [text, r.linesOf_text, List.mem_singleton] at h
    rw [h]
    exact r.keyword?_core
  | filler f =>
    rcases linesOf_filler f with hnil | hcomma
    · rw [text, hnil] at h
      cases h
    · rw [text, hcomma, List.mem_singleton] at h
      rw [h]
      rfl

/-- A line holds the field of its row, if there is one. -/
theorem flatMap_fieldsOf (line : FieldLine) :
    (linesOf line.text).flatMap fieldsOf = (line.row?.map FieldRow.entry).toList := by
  cases line with
  | row r =>
    rw [text, r.linesOf_text, List.flatMap_singleton, r.fieldsOf_core]
    rfl
  | filler f =>
    rcases linesOf_filler f with hnil | hcomma
    · rw [text, hnil]
      rfl
    · rw [text, hcomma]
      rfl

end FieldLine

/-! ## Layouts -/

namespace FieldLayout

/-- The text of a layout. -/
def text (l : FieldLayout) : Text :=
  ['\n'].intercalate (l.opener :: l.lines.map FieldLine.text)

/-- The rows of a layout. -/
def rows (l : FieldLayout) : List FieldRow :=
  l.lines.filterMap FieldLine.row?

/-- The fields that a layout is made of. -/
def fields (l : FieldLayout) : List Text :=
  l.rows.map FieldRow.field

/-- The fields of a layout on lines of their own, without commas. -/
def withoutCommas (l : FieldLayout) : FieldLayout :=
  { l with lines := l.rows.map fun r => .row r.withoutCommas }

/-- A layout without commas has the rows of the layout without theirs. -/
theorem rows_withoutCommas (l : FieldLayout) :
    l.withoutCommas.rows = l.rows.map FieldRow.withoutCommas := by
  simp [rows, withoutCommas, FieldLine.row?, Function.comp_def]

/-- The line that opens a layout is read as the keyword alone. -/
theorem keyword?_opener (l : FieldLayout) :
    keyword? (Text.trim l.opener) = some (.select, []) :=
  keyword?_of_operand (by decide) l.bare

/-- The lines of a layout are its opener and those of each of its lines. -/
theorem linesOf_text (l : FieldLayout) :
    linesOf l.text = Text.trim l.opener :: l.lines.flatMap fun line => linesOf line.text := by
  have hne : Text.trim l.opener ≠ [] := by
    intro hnil
    have hopener := l.keyword?_opener
    rw [hnil] at hopener
    cases hopener
  rw [text, linesOf_intercalate, List.flatMap_cons, linesOf_of_not_mem l.no_feed,
    List.flatMap_map]
  simp [hne]

/-- A layout is read as the entries of its rows. -/
theorem read_eq (c : Clauses) (l : FieldLayout) :
    read c l.text = { c with select := l.rows.map FieldRow.entry } := by
  have hkeyword : ∀ t ∈ l.lines.flatMap fun line => linesOf line.text, keyword? t = none := by
    intro t ht
    obtain ⟨line, -, hmem⟩ := List.mem_flatMap.mp ht
    exact FieldLine.keyword?_of_mem hmem
  have hentries : (l.lines.flatMap fun line => linesOf line.text).flatMap fieldsOf =
      l.rows.map FieldRow.entry := by
    rw [List.flatMap_assoc, List.flatMap_congr fun line _ => line.flatMap_fieldsOf, rows,
      List.map_filterMap, List.filterMap_eq_flatMap_toList]
  have hread := readLines_select hkeyword { c with select := [] } []
  rw [List.append_nil, hentries, List.nil_append] at hread
  rw [read, l.linesOf_text, readLines, sectionAfter, applyLine, l.keyword?_opener]
  exact hread

/-- A layout is read as the fields it is made of, whatever commas and lines stand between them and
whatever section follows, as without commas, exactly when no blanks stand before the comma behind a
field. Such blanks stay with the field. -/
theorem read_layout (c : Clauses) (l : FieldLayout) (more : Text)
    (h : StartsSection (linesOf more)) :
    read c (l.text ++ '\n' :: more) =
        read { c with select := l.rows.map FieldRow.entry } more ∧
      read c (l.withoutCommas.text ++ '\n' :: more) = read { c with select := l.fields } more ∧
      (read c l.text = read c l.withoutCommas.text ↔
        ∀ r ∈ l.rows, ∀ gap ∈ r.trailing, gap.text = []) := by
  have hplain : l.withoutCommas.rows.map FieldRow.entry = l.fields := by
    rw [rows_withoutCommas, List.map_map, fields]
    exact List.map_congr_left fun r _ => r.entry_withoutCommas
  refine ⟨?_, ?_, ?_⟩
  · rw [read_append_feed c l.text more h, read_eq]
  · rw [read_append_feed c l.withoutCommas.text more h, read_eq, hplain]
  · rw [read_eq, read_eq, hplain]
    have hselect : (({ c with select := l.rows.map FieldRow.entry } : Clauses) =
        { c with select := l.fields }) ↔ l.rows.map FieldRow.entry = l.fields := by
      simp
    rw [hselect, fields, List.map_inj_left]
    exact forall₂_congr fun r _ => r.entry_eq_field_iff

/-- Commas on either side of the fields, on a line of their own and behind the last field. -/
theorem read_layout_commas :
    let tight : Gap := ⟨[], List.all_eq_true.mp rfl, by decide⟩
    let wide : Gap := ⟨[' ', '\t'], List.all_eq_true.mp rfl, by decide⟩
    let l : FieldLayout :=
      { opener := " select".toList, no_feed := by decide, bare := by rfl
        lines :=
          [.row ⟨wide, some wide, "max(a, b)".toList, none, tight, by decide, by decide +kernel⟩,
            .filler ⟨" ,".toList, by decide, by decide⟩, .filler ⟨[], by decide, by decide⟩,
            .row ⟨tight, some tight, "fromage".toList, some tight, wide, by decide,
              by decide +kernel⟩] }
    StartsSection (linesOf "FROM t".toList) ∧
      l.text = " select\n \t, \tmax(a, b)\n ,\n\n,fromage, \t".toList ∧
      read .empty (l.text ++ '\n' :: "FROM t".toList) =
        { select := ["max(a, b)".toList, "fromage".toList], source := some ['t'] } ∧
      read .empty l.text = read .empty l.withoutCommas.text := by
  intro tight wide l
  have hstarts : StartsSection (linesOf "FROM t".toList) := by
    have hfirst : (linesOf "FROM t".toList).find?
        (fun line => !Keyword.limit.opens line && !Keyword.offset.opens line) =
          some "FROM t".toList := by decide +kernel
    rw [StartsSection, hfirst]
    rintro line ⟨⟩
    exact ⟨.source, by decide, by decide +kernel⟩
  obtain ⟨hread, -, hiff⟩ := read_layout .empty l "FROM t".toList hstarts
  refine ⟨hstarts, by decide, hread.trans (by decide +kernel), hiff.mpr ?_⟩
  intro r hr gap hgap
  simp only [rows, l, FieldLine.row?, List.filterMap_cons, List.filterMap_nil, List.mem_cons,
    List.not_mem_nil, or_false] at hr
  rcases hr with rfl | rfl
  · cases hgap
  · cases hgap
    rfl

/-- A blank between a field and the comma behind it is read as part of the field. -/
theorem read_layout_blank_before_comma :
    let tight : Gap := ⟨[], List.all_eq_true.mp rfl, by decide⟩
    let blank : Gap := ⟨[' '], List.all_eq_true.mp rfl, by decide⟩
    let indentation : Gap := ⟨[' ', ' '], List.all_eq_true.mp rfl, by decide⟩
    let l : FieldLayout :=
      { opener := "SELECT".toList, no_feed := by decide, bare := by rfl
        lines :=
          [.row ⟨indentation, none, ['a'], some blank, tight, by decide, by decide +kernel⟩,
            .row ⟨indentation, none, ['b'], none, tight, by decide, by decide +kernel⟩] }
    l.text = "SELECT\n  a ,\n  b".toList ∧ l.fields = [['a'], ['b']] ∧
      (read .empty l.text).select = [['a', ' '], ['b']] ∧
      (read .empty l.text).select ≠ l.fields := by
  intro tight blank indentation l
  have hselect : (read .empty l.text).select = [['a', ' '], ['b']] := by decide +kernel
  refine ⟨by decide, rfl, hselect, ?_⟩
  rw [hselect]
  decide

end FieldLayout

end SqlComposer.Statement
