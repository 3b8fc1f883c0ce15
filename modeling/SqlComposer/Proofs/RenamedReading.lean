import SqlComposer.Proofs.Renaming

/-!
# Reading renamed texts

Each step of reading a statement or a fragment commutes with renaming: a keyword opens a renamed
text exactly when it opens the text, and the lines and fields of a renamed text are the renamed
lines and fields. So the clauses after a renamed fragment are the renamed clauses after the
fragment.
-/

namespace SqlComposer

open Placeholder (renamed)

namespace Text

/-! ## Trimming and lines -/

/-- Renaming commutes with dropping the blanks at the start. -/
theorem trimStart_renamed (t : Text) : trimStart (renamed t) = renamed (trimStart t) := by
  induction t with
  | nil => simp [trimStart]
  | cons c t ih =>
    by_cases hc : c = '$'
    · subst hc
      obtain ⟨rest, hrest⟩ := Placeholder.exists_renamed_dollar t
      have hcolon : isBlank ':' = false := by decide
      have hdollar : isBlank '$' = false := by decide
      simp [trimStart, hdollar, hrest, hcolon]
    · simp only [trimStart] at ih ⊢
      cases hblank : isBlank c with
      | false => simp [Placeholder.renamed_cons_of_ne hc, hblank]
      | true => simp [Placeholder.renamed_cons_of_ne hc, hblank, ih]

/-- Renaming commutes with dropping the blanks at the end. -/
theorem trimEnd_renamed (t : Text) : trimEnd (renamed t) = renamed (trimEnd t) := by
  have hsplit : trimEnd t ++ t.rtakeWhile isBlank = t := by
    rw [trimEnd_eq_rdropWhile, List.rdropWhile_append_rtakeWhile]
  have hblanks : ∀ c ∈ t.rtakeWhile isBlank, isBlank c = true :=
    fun c hc => List.mem_rtakeWhile_imp hc
  have hlast : ∀ c ∈ (renamed (trimEnd t)).getLast?, isBlank c = false := by
    intro c hc
    by_contra hblank
    rw [Bool.not_eq_false] at hblank
    have hlast := (Placeholder.getLast?_renamed (separates_of_isBlank hblank)).mp hc
    rw [trimEnd_eq_self_iff.mp (trimEnd_trimEnd t) c hlast] at hblank
    cases hblank
  calc trimEnd (renamed t)
      = trimEnd (renamed (trimEnd t) ++ t.rtakeWhile isBlank) := by
        rw [← Placeholder.renamed_append_separators _ fun c hc =>
          separates_of_isBlank (hblanks c hc), hsplit]
    _ = renamed (trimEnd t) := trimEnd_append_blanks hlast hblanks

/-- Renaming and trimming commute. -/
theorem trim_renamed (t : Text) : trim (renamed t) = renamed (trim t) := by
  rw [trim, trim, trimStart_renamed, trimEnd_renamed]

/-- The lines of a renamed text are the renamed lines. -/
theorem lines_renamed (t : Text) : (renamed t).lines = t.lines.map renamed := by
  have hfeed : ∀ line ∈ t.lines.map renamed, '\n' ∉ line := by
    intro line hline hmem
    obtain ⟨piece, hpiece, rfl⟩ := List.mem_map.mp hline
    rcases Placeholder.mem_of_mem_renamed hmem with hpart | hother
    · exact not_mem_of_mem_splitOn hpiece hpart
    · exact absurd hother (by decide)
  have hne : t.lines.map renamed ≠ [] := by
    rw [lines, splitOn_eq]
    simp
  have hrenamed : renamed t = ['\n'].intercalate (t.lines.map renamed) := by
    rw [← Placeholder.renamed_intercalate .feed, intercalate_lines]
  rw [hrenamed, lines, splitOn_eq, List.splitOn_intercalate '\n' hfeed hne]

/-! ## Keywords -/

/-- A renamed text starts with a word exactly when the text does. -/
theorem startsWord_renamed (t : Text) : startsWord (renamed t) = startsWord t := by
  have hcolon : isWord ':' = false := by decide +kernel
  have hdollar : isWord '$' = false := by decide +kernel
  have hhead := Placeholder.head?_renamed t
  cases t with
  | nil => simp
  | cons c t =>
    obtain ⟨d, rest, hrest⟩ := List.exists_cons_of_ne_nil
      (mt Placeholder.renamed_eq_nil_iff.mp (List.cons_ne_nil c t))
    rw [hrest] at hhead ⊢
    simp only [List.head?_cons, Option.map_some, Option.some.injEq] at hhead
    by_cases hc : c = '$'
    · simp [startsWord, hhead, hc, hcolon, hdollar]
    · simp [startsWord, hhead, hc]

/-- A word without dollar signs and colons is found in a renamed text where it is in the text. -/
theorem afterWord?_renamed {word : Text} (hdollar : '$' ∉ word) (hcolon : ':' ∉ word) (t : Text) :
    afterWord? word (renamed t) = (afterWord? word t).map renamed := by
  induction word generalizing t with
  | nil => rfl
  | cons w word ih =>
    simp only [List.mem_cons, not_or] at hdollar hcolon
    cases t with
    | nil => simp [afterWord?]
    | cons c t =>
      by_cases hc : c = '$'
      · subst hc
        obtain ⟨rest, hrest⟩ := Placeholder.exists_renamed_dollar t
        have hfoldColon : foldCase ':' = ':' := by decide
        have hfoldDollar : foldCase '$' = '$' := by decide
        simp [hrest, afterWord?, hfoldColon, hfoldDollar, hcolon.1, hdollar.1]
      · rw [Placeholder.renamed_cons_of_ne hc, afterWord?, afterWord?]
        split
        · exact ih hdollar.2 hcolon.2 t
        · rfl

/-- What follows words is renamed with the text, if the words hold no mark of a placeholder. -/
theorem afterWords?_renamed {words : List Text} (hdollar : ∀ word ∈ words, '$' ∉ word)
    (hcolon : ∀ word ∈ words, ':' ∉ word) (t : Text) :
    afterWords? words (renamed t) = (afterWords? words t).map renamed := by
  induction words generalizing t with
  | nil => rfl
  | cons word words ih =>
    simp only [List.forall_mem_cons] at hdollar hcolon
    have hword := afterWord?_renamed hdollar.1 hcolon.1 t
    cases words with
    | nil => exact hword
    | cons next words =>
      rw [afterWords?, afterWords?, hword]
      · cases afterWord? word t with
        | none => rfl
        | some after =>
          cases after with
          | nil => simp
          | cons c rest =>
            by_cases hc : c = '$'
            · subst hc
              obtain ⟨rest', hrest'⟩ := Placeholder.exists_renamed_dollar rest
              have hblankColon : isBlank ':' = false := by decide
              have hblankDollar : isBlank '$' = false := by decide
              simp [hrest', hblankColon, hblankDollar]
            · simp only [Option.map_some, Placeholder.renamed_cons_of_ne hc]
              split
              · rw [trimStart_renamed, ih hdollar.2 hcolon.2]
              · rfl
      · simp
      · simp

/-- A phrase is found in a renamed text where it is in the text. -/
theorem afterPhrase?_renamed {phrase : List Text} (hdollar : ∀ word ∈ phrase, '$' ∉ word)
    (hcolon : ∀ word ∈ phrase, ':' ∉ word) (t : Text) :
    afterPhrase? phrase (renamed t) = (afterPhrase? phrase t).map renamed := by
  rw [afterPhrase?, afterPhrase?, afterWords?_renamed hdollar hcolon, Option.filter_map]
  simp only [Function.comp_def, startsWord_renamed]

/-- What is found first among some candidates, when each of them is found alike. -/
theorem findSome?_eq_map {α β γ : Type} {f : α → Option β} {f' : α → Option γ} {g : β → γ}
    {candidates : List α} (h : ∀ a ∈ candidates, f' a = (f a).map g) :
    candidates.findSome? f' = (candidates.findSome? f).map g := by
  induction candidates with
  | nil => rfl
  | cons a candidates ih =>
    rw [List.forall_mem_cons] at h
    rw [List.findSome?_cons, List.findSome?_cons, h.1]
    cases f a with
    | none => exact ih h.2
    | some b => rfl

end Text

namespace Keyword

/-- What follows a keyword in a renamed text is what follows it in the text, renamed. -/
theorem after?_renamed (k : Keyword) (t : Text) :
    k.after? (renamed t) = (k.after? t).map renamed := by
  have hphrases : ∀ k : Keyword, ∀ phrase ∈ k.spellings, ∀ word ∈ phrase,
      '$' ∉ word ∧ ':' ∉ word := by
    intro k
    cases k <;> decide
  exact Text.findSome?_eq_map fun phrase hphrase => Text.afterPhrase?_renamed
    (fun word hword => (hphrases k phrase hphrase word hword).1)
    (fun word hword => (hphrases k phrase hphrase word hword).2) t

/-- A keyword opens a renamed text when it opens the text, and its operand is the renamed one. -/
theorem first?_renamed (ks : List Keyword) (t : Text) :
    first? ks (renamed t) = (first? ks t).map fun (k, operand) => (k, renamed operand) := by
  refine Text.findSome?_eq_map fun k _ => ?_
  rw [after?_renamed, Option.map_map, Option.map_map]
  congr 1
  funext rest
  simp [Text.trim_renamed]

end Keyword

/-- Clauses with every text renamed. -/
def Clauses.renamed (c : Clauses) : Clauses where
  select := c.select.map Placeholder.renamed
  source := c.source.map Placeholder.renamed
  joins := c.joins.map Placeholder.renamed
  conditions := c.conditions.map Placeholder.renamed
  groupBy := c.groupBy.map Placeholder.renamed
  orderBy := c.orderBy.map Placeholder.renamed
  limit := c.limit.map Placeholder.renamed
  offset := c.offset.map Placeholder.renamed

namespace Statement

/-! ## Fields -/

/-- Renaming commutes with dropping a comma at the start. -/
theorem dropLeadingComma_renamed (line : Text) :
    dropLeadingComma (renamed line) = renamed (dropLeadingComma line) := by
  cases line with
  | nil => simp [dropLeadingComma]
  | cons c rest =>
    by_cases hc : c = '$'
    · subst hc
      obtain ⟨rest', hrest'⟩ := Placeholder.exists_renamed_dollar rest
      simp [dropLeadingComma, hrest']
    · rw [Placeholder.renamed_cons_of_ne hc]
      by_cases hcomma : c = ','
      · simp [dropLeadingComma, hcomma, Text.trimStart_renamed]
      · simp [dropLeadingComma, hcomma, Placeholder.renamed_cons_of_ne hc]

/-- Renaming commutes with dropping a comma at the end. -/
theorem dropTrailingComma_renamed (line : Text) :
    dropTrailingComma (renamed line) = renamed (dropTrailingComma line) := by
  have hlast : (renamed (Text.trimEnd line)).getLast? = some ',' ↔
      (Text.trimEnd line).getLast? = some ',' := Placeholder.getLast?_renamed (by decide)
  unfold dropTrailingComma
  dsimp only
  rw [Text.trimEnd_renamed]
  by_cases hcomma : (Text.trimEnd line).getLast? = some ','
  · have hbody : (Text.trimEnd line).dropLast ++ [','] = Text.trimEnd line :=
      List.dropLast_append_getLast? _ hcomma
    rw [if_pos (hlast.mpr hcomma), if_pos hcomma]
    conv_lhs => rw [← hbody, Placeholder.renamed_append_separators _
      (by decide : Text.IsSeparator [',']).separates, List.dropLast_concat]
  · rw [if_neg (mt hlast.mp hcomma), if_neg hcomma]

/-- A renamed text is a lone comma exactly when the text is. -/
theorem renamed_eq_comma_iff {t : Text} : renamed t = [','] ↔ t = [','] := by
  cases t with
  | nil => simp
  | cons c rest =>
    by_cases hc : c = '$'
    · obtain ⟨rest', hrest'⟩ := Placeholder.exists_renamed_dollar rest
      simp [hc, hrest']
    · simp [Placeholder.renamed_cons_of_ne hc, Placeholder.renamed_eq_nil_iff]

/-- The field of a renamed line is the renamed field. -/
theorem fieldOf_renamed (line : Text) : fieldOf (renamed line) = renamed (fieldOf line) := by
  unfold fieldOf
  rw [Text.trim_renamed]
  by_cases hcomma : Text.trim line = [',']
  · rw [if_pos (renamed_eq_comma_iff.mpr hcomma), if_pos hcomma, Placeholder.renamed_nil]
  · rw [if_neg (mt renamed_eq_comma_iff.mp hcomma), if_neg hcomma, dropLeadingComma_renamed,
      dropTrailingComma_renamed]

/-- The renamed texts of a list that are not empty are those of its texts that are not. -/
theorem filter_isEmpty_renamed (texts : List Text) :
    (texts.map renamed).filter (!·.isEmpty) = (texts.filter (!·.isEmpty)).map renamed := by
  rw [List.filter_map]
  congr 2
  funext t
  rw [Function.comp_apply, Bool.eq_iff_iff]
  simp [Placeholder.renamed_eq_nil_iff]

/-- The fields of a renamed line are the renamed fields. -/
theorem fieldsOf_renamed (line : Text) :
    fieldsOf (renamed line) = (fieldsOf line).map renamed := by
  rw [fieldsOf, fieldsOf, ← filter_isEmpty_renamed, fieldOf_renamed]
  rfl

/-! ## Statements -/

/-- The lines of a renamed statement are its renamed lines. -/
theorem linesOf_renamed (statement : Text) :
    linesOf (renamed statement) = (linesOf statement).map renamed := by
  rw [linesOf, linesOf, ← filter_isEmpty_renamed, Text.lines_renamed, List.map_map, List.map_map]
  simp only [Function.comp_def, Text.trim_renamed]

/-- A renamed line leaves the same section open. -/
theorem sectionAfter_renamed (current : Section) (line : Text) :
    sectionAfter current (renamed line) = sectionAfter current line := by
  unfold sectionAfter keyword?
  rw [Keyword.first?_renamed]
  cases Keyword.first? keywords line <;> rfl

/-- A renamed line opens a clause with the renamed operand. -/
theorem openWith_renamed (c : Clauses) (line : Text) (k : Keyword) (operand : Text) :
    openWith c.renamed (renamed line) k (renamed operand) =
      (openWith c line k operand).renamed := by
  cases k <;> simp [openWith, Clauses.renamed, fieldsOf_renamed]

/-- A renamed line continues a clause with the renamed line. -/
theorem continueWith_renamed (c : Clauses) (line : Text) (current : Section) :
    continueWith c.renamed (renamed line) current = (continueWith c line current).renamed := by
  cases current <;> simp [continueWith, Clauses.renamed, fieldsOf_renamed]

/-- The clauses after a renamed line are the renamed clauses after the line. -/
theorem applyLine_renamed (current : Section) (c : Clauses) (line : Text) :
    applyLine current c.renamed (renamed line) = (applyLine current c line).renamed := by
  unfold applyLine keyword?
  rw [Keyword.first?_renamed]
  cases Keyword.first? keywords line with
  | none => exact continueWith_renamed c line current
  | some entry => exact openWith_renamed c line entry.1 entry.2

/-- Renamed lines make renamed clauses of renamed ones. -/
theorem readLines_renamed (current : Section) (c : Clauses) (lines : List Text) :
    readLines current c.renamed (lines.map renamed) = (readLines current c lines).renamed := by
  induction lines generalizing current c with
  | nil => rfl
  | cons line rest ih =>
    rw [List.map_cons, readLines, readLines, sectionAfter_renamed, applyLine_renamed, ih]

/-- The clauses after a renamed statement are the renamed clauses after the statement. -/
theorem read_renamed (c : Clauses) (statement : Text) :
    read c.renamed (renamed statement) = (read c statement).renamed := by
  rw [read, linesOf_renamed, readLines_renamed, read]

end Statement

/-! ## Fragments -/

namespace Fragment

/-- A renamed condition is added behind the same connective. -/
theorem addCondition_renamed (c : Clauses) {connective : Text} (hconnective : '$' ∉ connective)
    (condition : Text) :
    addCondition c.renamed connective (renamed condition) =
      (addCondition c connective condition).renamed := by
  have hentry : renamed (connective ++ ' ' :: condition) =
      connective ++ ' ' :: renamed condition := by
    rw [Placeholder.renamed_append_of_not_mem hconnective,
      Placeholder.renamed_cons_of_ne (by decide)]
  cases hconditions : c.conditions with
  | nil => simp [addCondition, Clauses.renamed, hconditions]
  | cons first later => simp [addCondition, Clauses.renamed, hconditions, hentry]

/-- A renamed fragment goes the same way. -/
theorem route_renamed (c : Clauses) (fragment : Text) (k : Keyword) (operand : Text) :
    route c.renamed (renamed fragment) k (renamed operand) =
      (route c fragment k operand).renamed := by
  cases k with
  | select => exact Statement.read_renamed c fragment
  | conjunction | disjunction => exact addCondition_renamed c (by decide) operand
  | _ => simp [route, Clauses.renamed]

/-- The clauses after a renamed fragment are the renamed clauses after the fragment. -/
theorem add_renamed (c : Clauses) (fragment : Text) :
    add c.renamed (renamed fragment) = (add c fragment).renamed := by
  unfold add keyword?
  dsimp only
  rw [Text.trim_renamed, Keyword.first?_renamed]
  cases hbody : Text.trim fragment with
  | nil => simp
  | cons first body =>
    have hne : renamed (first :: body) ≠ [] :=
      mt Placeholder.renamed_eq_nil_iff.mp (List.cons_ne_nil first body)
    rw [if_neg (by simpa using hne), if_neg (by simp)]
    cases Keyword.first? keywords (first :: body) with
    | none => exact addCondition_renamed c (by decide) (first :: body)
    | some entry => exact route_renamed c (first :: body) entry.1 entry.2

end Fragment

end SqlComposer
