import SqlComposer.Fragment
import SqlComposer.Proofs.Dollars
import SqlComposer.Proofs.RoundTrip

/-!
# What reading discards

A new list of fields, table expression, limit or offset takes the place of the one before, and a
line that no clause takes is dropped. These texts are discarded. Everything else that a statement or
a fragment holds goes to exactly one clause: the dollar signs of the clauses after it and those of
the discarded texts are together those of the clauses before it and its own.
-/

namespace SqlComposer

namespace Clauses

/-- The texts whose place the operand of a keyword takes. -/
def replacedBy (c : Clauses) : Keyword → List Text
  | .select => c.select
  | .source => c.source.toList
  | .limit => c.limit.toList
  | .offset => c.offset.toList
  | _ => []

/-- The dollar signs of all texts that the clauses hold. -/
def dollars (c : Clauses) : List Text :=
  c.entries.flatMap Placeholder.dollars

end Clauses

namespace Statement

/-- The texts that a line discards: those that it replaces, or itself. -/
def lineDiscards (current : Section) (c : Clauses) (line : Text) : List Text :=
  match keyword? line with
  | some (k, _) => c.replacedBy k
  | none => if takesLines current then [] else [line]

/-- The texts that lines discard from an open section on. -/
def linesDiscards (current : Section) (c : Clauses) : List Text → List Text
  | [] => []
  | line :: rest =>
    lineDiscards current c line ++
      linesDiscards (sectionAfter current line) (applyLine current c line) rest

/-- The texts that a statement discards. -/
def discards (c : Clauses) (statement : Text) : List Text :=
  linesDiscards .none c (linesOf statement)

/-! ## Where entries come from -/

/-- The field of a line is a part of the line. -/
theorem isPart_of_mem_fieldsOf {field line : Text} (h : field ∈ fieldsOf line) :
    Text.IsPart field line := by
  obtain ⟨hmem, -⟩ := List.mem_filter.mp h
  obtain rfl : field = fieldOf line := by simpa using hmem
  exact (isCore_fieldOf line).isPart

/-- An entry after a line that a keyword opens is an earlier one or a part of the line. -/
theorem mem_entries_openWith {c : Clauses} {line operand entry : Text} {k : Keyword}
    (hoperand : Text.IsPart operand line) (h : entry ∈ (openWith c line k operand).entries) :
    entry ∈ c.entries ∨ Text.IsPart entry line := by
  have hcases : entry ∈ c.entries ∨ entry = line ∨ entry = operand ∨ entry ∈ fieldsOf operand := by
    cases k <;> grind [openWith, Clauses.entries]
  rcases hcases with hearlier | rfl | rfl | hfield
  · exact .inl hearlier
  · exact .inr (.refl _)
  · exact .inr hoperand
  · exact .inr ((isPart_of_mem_fieldsOf hfield).trans hoperand)

/-- An entry after a line that continues a section is an earlier one or a part of the line. -/
theorem mem_entries_continueWith {c : Clauses} {line entry : Text} {current : Section}
    (h : entry ∈ (continueWith c line current).entries) :
    entry ∈ c.entries ∨ Text.IsPart entry line := by
  have hcases : entry ∈ c.entries ∨ entry = line ∨ entry ∈ fieldsOf line := by
    cases current <;> grind [continueWith, Clauses.entries]
  rcases hcases with hearlier | rfl | hfield
  · exact .inl hearlier
  · exact .inr (.refl _)
  · exact .inr (isPart_of_mem_fieldsOf hfield)

/-- An entry after a line is an earlier one or a part of the line. -/
theorem mem_entries_applyLine {current : Section} {c : Clauses} {line entry : Text}
    (h : entry ∈ (applyLine current c line).entries) :
    entry ∈ c.entries ∨ Text.IsPart entry line := by
  unfold applyLine at h
  split at h
  · next k operand hkeyword =>
    exact mem_entries_openWith (Keyword.isCore_of_first? hkeyword).isPart h
  · exact mem_entries_continueWith h

/-- Each entry after lines was there before, or is a part of one of the lines. -/
theorem mem_entries_readLines {current : Section} {c : Clauses} {lines : List Text} {entry : Text}
    (h : entry ∈ (readLines current c lines).entries) :
    entry ∈ c.entries ∨ ∃ line ∈ lines, Text.IsPart entry line := by
  induction lines generalizing current c with
  | nil => exact .inl h
  | cons line rest ih =>
    rcases ih h with hline | ⟨later, hlater, hpart⟩
    · rcases mem_entries_applyLine hline with hearlier | hpart
      · exact .inl hearlier
      · exact .inr ⟨line, by simp, hpart⟩
    · exact .inr ⟨later, by simp [hlater], hpart⟩

/-- An entry after a statement is an earlier one or a part of the statement. -/
theorem mem_entries_read {c : Clauses} {statement entry : Text}
    (h : entry ∈ (read c statement).entries) :
    entry ∈ c.entries ∨ Text.IsPart entry statement := by
  rcases mem_entries_readLines h with hearlier | ⟨line, hline, hpart⟩
  · exact .inl hearlier
  · exact .inr (hpart.trans (isPart_of_mem_linesOf hline))

/-! ## Conservation -/

/-- A line of a field list gives its field its dollar signs. -/
theorem flatMap_dollars_fieldsOf (line : Text) :
    (fieldsOf line).flatMap Placeholder.dollars = Placeholder.dollars line := by
  rw [← (isCore_fieldOf line).dollars_eq, fieldsOf]
  cases fieldOf line with
  | nil => rfl
  | cons c field => simp

/-- A line that a keyword opens loses no dollar sign. -/
theorem dollars_openWith (c : Clauses) {line operand : Text} {k : Keyword} (hk : k ∈ keywords)
    (hoperand : Placeholder.dollars operand = Placeholder.dollars line) :
    ((openWith c line k operand).dollars ++ (c.replacedBy k).flatMap Placeholder.dollars).Perm
      (c.dollars ++ Placeholder.dollars line) := by
  rw [List.perm_iff_count]
  intro digits
  have hfields := flatMap_dollars_fieldsOf operand
  cases k with
  | conjunction | disjunction => exact absurd hk (by decide)
  | _ =>
    simp only [openWith, Clauses.dollars, Clauses.entries, Clauses.replacedBy,
      List.flatMap_append, List.count_append, List.flatMap_cons, List.flatMap_nil,
      Option.toList_some, List.append_nil, hfields, hoperand]
    omega

/-- A line that continues a section loses no dollar sign. -/
theorem dollars_continueWith (c : Clauses) (line : Text) (current : Section) :
    ((continueWith c line current).dollars ++
      (if takesLines current then [] else [line]).flatMap Placeholder.dollars).Perm
        (c.dollars ++ Placeholder.dollars line) := by
  rw [List.perm_iff_count]
  intro digits
  have hfields := flatMap_dollars_fieldsOf line
  cases current <;>
    simp only [continueWith, takesLines, Clauses.dollars, Clauses.entries, List.flatMap_append,
      List.count_append, List.flatMap_cons, List.flatMap_nil, List.append_nil, hfields, if_true,
      Bool.false_eq_true, if_false] <;>
    omega

/-- A line loses no dollar sign. -/
theorem dollars_applyLine (current : Section) (c : Clauses) (line : Text) :
    ((applyLine current c line).dollars ++
      (lineDiscards current c line).flatMap Placeholder.dollars).Perm
        (c.dollars ++ Placeholder.dollars line) := by
  unfold applyLine lineDiscards
  cases hkeyword : keyword? line with
  | none => exact dollars_continueWith c line current
  | some entry =>
    obtain ⟨k, operand⟩ := entry
    exact dollars_openWith c (Keyword.exists_after?_of_first? hkeyword).1
      (Keyword.isCore_of_first? hkeyword).dollars_eq

/-- Lines lose no dollar sign. -/
theorem dollars_readLines (current : Section) (c : Clauses) (lines : List Text) :
    ((readLines current c lines).dollars ++
      (linesDiscards current c lines).flatMap Placeholder.dollars).Perm
        (c.dollars ++ lines.flatMap Placeholder.dollars) := by
  induction lines generalizing current c with
  | nil => exact .refl _
  | cons line rest ih =>
    rw [List.perm_iff_count]
    intro digits
    have hline := (dollars_applyLine current c line).count_eq digits
    have hrest := (ih (sectionAfter current line) (applyLine current c line)).count_eq digits
    simp only [readLines, linesDiscards, List.flatMap_append, List.flatMap_cons,
      List.count_append] at hline hrest ⊢
    omega

/-- The dollar signs of a statement and those of the clauses before it are together those of the
clauses after it and those that it discards. -/
theorem dollars_read (c : Clauses) (statement : Text) :
    ((read c statement).dollars ++ (discards c statement).flatMap Placeholder.dollars).Perm
      (c.dollars ++ Placeholder.dollars statement) := by
  rw [← flatMap_dollars_linesOf statement]
  exact dollars_readLines .none c (linesOf statement)

end Statement

namespace Fragment

/-- The texts that a fragment discards. -/
def discards (c : Clauses) (fragment : Text) : List Text :=
  let body := Text.trim fragment
  if body.isEmpty then []
  else
    match keyword? body with
    | some (.select, _) => Statement.discards c body
    | some (k, _) => c.replacedBy k
    | none => []

/-! ## Where entries come from -/

/-- A text is a part of another one, possibly behind a connective. -/
def IsConnectedPart (entry t : Text) : Prop :=
  ∃ part, Text.IsPart part t ∧
    (entry = part ∨ entry = "AND".toList ++ ' ' :: part ∨ entry = "OR".toList ++ ' ' :: part)

/-- A part of a text is one behind no connective. -/
theorem isConnectedPart_of_isPart {part t : Text} (h : Text.IsPart part t) :
    IsConnectedPart part t :=
  ⟨part, h, .inl rfl⟩

/-- A part behind a connective of a part of a text is one of the text. -/
theorem IsConnectedPart.trans {entry middle t : Text} (h : IsConnectedPart entry middle)
    (h' : Text.IsPart middle t) : IsConnectedPart entry t := by
  obtain ⟨part, hpart, hentry⟩ := h
  exact ⟨part, hpart.trans h', hentry⟩

/-- An entry after a further condition is an earlier one or that condition, possibly behind its
connective. -/
theorem mem_entries_addCondition {c : Clauses} {connective condition fragment entry : Text}
    (hconnective : connective = "AND".toList ∨ connective = "OR".toList)
    (hcondition : Text.IsPart condition fragment)
    (h : entry ∈ (addCondition c connective condition).entries) :
    entry ∈ c.entries ∨ IsConnectedPart entry fragment := by
  have hcases : entry ∈ c.entries ∨ entry = condition ∨
      entry = connective ++ ' ' :: condition := by
    simp only [addCondition, Clauses.entries, List.mem_append, List.mem_singleton] at h ⊢
    split at h <;> tauto
  rcases hcases with hearlier | rfl | rfl
  · exact .inl hearlier
  · exact .inr (isConnectedPart_of_isPart hcondition)
  · refine .inr ⟨condition, hcondition, .inr ?_⟩
    rcases hconnective with rfl | rfl
    · exact .inl rfl
    · exact .inr rfl

/-- An entry after a fragment that a keyword opens is an earlier one or comes from the fragment. -/
theorem mem_entries_route {c : Clauses} {fragment operand entry : Text} {k : Keyword}
    (hoperand : Text.IsPart operand fragment) (h : entry ∈ (route c fragment k operand).entries) :
    entry ∈ c.entries ∨ IsConnectedPart entry fragment := by
  cases k with
  | select => exact (Statement.mem_entries_read h).imp_right isConnectedPart_of_isPart
  | conjunction => exact mem_entries_addCondition (.inl rfl) hoperand h
  | disjunction => exact mem_entries_addCondition (.inr rfl) hoperand h
  | _ =>
    have hcases : entry ∈ c.entries ∨ entry = fragment ∨ entry = operand := by
      simp [route, Clauses.entries] at h ⊢
      tauto
    rcases hcases with hearlier | rfl | rfl
    · exact .inl hearlier
    · exact .inr (isConnectedPart_of_isPart (.refl _))
    · exact .inr (isConnectedPart_of_isPart hoperand)

/-- An entry after a fragment is an earlier one or a part of the fragment, possibly behind a
connective. -/
theorem mem_entries_add {c : Clauses} {fragment entry : Text}
    (h : entry ∈ (add c fragment).entries) :
    entry ∈ c.entries ∨ IsConnectedPart entry fragment := by
  have hbody := (Text.isCore_trim fragment).isPart
  unfold add at h
  dsimp only at h
  split at h
  · exact .inl h
  · split at h
    · next k operand hkeyword =>
      have hoperand := (Keyword.isCore_of_first? hkeyword).isPart
      exact (mem_entries_route hoperand h).imp_right (·.trans hbody)
    · exact mem_entries_addCondition (.inl rfl) hbody h

/-! ## Conservation -/

/-- A further condition adds its dollar signs. -/
theorem dollars_addCondition (c : Clauses) {connective : Text} (hconnective : '$' ∉ connective)
    (condition : Text) :
    (addCondition c connective condition).dollars.Perm
      (c.dollars ++ Placeholder.dollars condition) := by
  have hentry : Placeholder.dollars
      (if c.conditions.isEmpty then condition else connective ++ ' ' :: condition) =
        Placeholder.dollars condition := by
    split
    · rfl
    · rw [Placeholder.dollars_append_of_not_mem hconnective,
        Placeholder.dollars_cons_of_ne (by decide)]
  rw [List.perm_iff_count]
  intro digits
  simp only [addCondition, Clauses.dollars, Clauses.entries, List.flatMap_append,
    List.count_append, List.flatMap_cons, List.flatMap_nil, List.append_nil, hentry]
  omega

/-- The dollar signs of a fragment and those of the clauses before it are together those of the
clauses after it and those that it discards. -/
theorem dollars_add (c : Clauses) (fragment : Text) :
    ((add c fragment).dollars ++ (discards c fragment).flatMap Placeholder.dollars).Perm
      (c.dollars ++ Placeholder.dollars fragment) := by
  rw [← (Text.isCore_trim fragment).dollars_eq]
  unfold add discards
  dsimp only
  cases hbody : Text.trim fragment with
  | nil => exact .refl _
  | cons first body =>
    rw [if_neg (by simp), if_neg (by simp)]
    cases hkeyword : keyword? (first :: body) with
    | none => simpa using dollars_addCondition c (by decide) (first :: body)
    | some entry =>
      obtain ⟨k, operand⟩ := entry
      have hoperand := (Keyword.isCore_of_first? hkeyword).dollars_eq
      have hopen (hk : k ∈ Statement.keywords) := Statement.dollars_openWith c hk hoperand
      cases k with
      | select => exact Statement.dollars_read c (first :: body)
      | conjunction | disjunction =>
        simpa [Clauses.replacedBy, route, ← hoperand] using
          dollars_addCondition c (by decide) operand
      | _ => exact hopen (by decide)

end Fragment

end SqlComposer
