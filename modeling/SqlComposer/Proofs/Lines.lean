import Mathlib.Data.List.DropRight
import SqlComposer.Statement

/-!
# Lines of statements

The lines of a text that is put together of other texts are those of its parts. Blanks at the ends
of a line and empty lines do not count, so a text keeps its lines when parts of it are indented.
-/

namespace SqlComposer

namespace Text

/-! ## Trimming -/

/-- Trimming at the end drops the trailing blanks. -/
theorem trimEnd_eq_rdropWhile (t : Text) : trimEnd t = t.rdropWhile isBlank := by
  induction t with
  | nil => rfl
  | cons c rest ih =>
    simp only [trimEnd, ih, List.rdropWhile, List.reverse_cons, List.dropWhile_append]
    obtain hnil | ⟨kept, d, hkept⟩ := List.eq_nil_or_concat (rest.reverse.dropWhile isBlank)
    · cases hc : isBlank c <;> simp [hnil, hc]
    · simp [hkept]

/-- There is nothing to trim at the start when the first character is not blank. -/
theorem trimStart_eq_self_iff {t : Text} :
    trimStart t = t ↔ ∀ c ∈ t.head?, isBlank c = false := by
  rw [trimStart, List.dropWhile_eq_self_iff]
  cases t <;> simp

/-- There is nothing to trim at the end when the last character is not blank. -/
theorem trimEnd_eq_self_iff {t : Text} :
    trimEnd t = t ↔ ∀ c ∈ t.getLast?, isBlank c = false := by
  rw [trimEnd_eq_rdropWhile, List.rdropWhile_eq_self_iff]
  cases t using List.reverseRecOn <;> simp

/-- Nothing is left to trim at the start after trimming there. -/
theorem trimStart_trimStart (t : Text) : trimStart (trimStart t) = trimStart t :=
  List.dropWhile_idempotent isBlank t

/-- Nothing is left to trim at the end after trimming there. -/
theorem trimEnd_trimEnd (t : Text) : trimEnd (trimEnd t) = trimEnd t := by
  rw [trimEnd_eq_rdropWhile, trimEnd_eq_rdropWhile, List.rdropWhile_idempotent]

/-- Without the blanks at its end, a text is no longer. -/
theorem length_trimEnd_le (t : Text) : (trimEnd t).length ≤ t.length := by
  rw [trimEnd_eq_rdropWhile]
  exact (List.rdropWhile_prefix isBlank t).length_le

/-- A trimmed text is no longer. -/
theorem length_trim_le (t : Text) : (trim t).length ≤ t.length :=
  (length_trimEnd_le _).trans (List.dropWhile_suffix isBlank).length_le

/-- A text has nothing to trim exactly when neither its first nor its last character is blank. -/
theorem trim_eq_self_iff {t : Text} :
    trim t = t ↔ (∀ c ∈ t.head?, isBlank c = false) ∧ ∀ c ∈ t.getLast?, isBlank c = false := by
  rw [← trimStart_eq_self_iff, ← trimEnd_eq_self_iff]
  constructor
  · intro h
    have hstart : trimStart t = t := by
      refine (List.dropWhile_suffix _).eq_of_length ?_
      have hle := length_trimEnd_le (trimStart t)
      have hle' := (List.dropWhile_suffix (l := t) isBlank).length_le
      rw [show trimEnd (trimStart t) = t from h] at hle
      exact le_antisymm hle' hle
    exact ⟨hstart, by rwa [trim, hstart] at h⟩
  · rintro ⟨hstart, hend⟩
    rw [trim, hstart, hend]

/-- Nothing is left to trim after trimming. -/
theorem trim_trim (t : Text) : trim (trim t) = trim t := by
  have hend : trimEnd (trim t) = trim t := trimEnd_trimEnd (trimStart t)
  have hstart : trimStart (trim t) = trim t := by
    have hself := trimStart_trimStart t
    obtain ⟨later, hlater⟩ : trim t <+: trimStart t := by
      rw [trim, trimEnd_eq_rdropWhile]
      exact List.rdropWhile_prefix isBlank (trimStart t)
    rw [trimStart_eq_self_iff] at hself ⊢
    intro c hc
    apply hself
    rw [← hlater, List.head?_append, Option.mem_def.mp hc]
    rfl
  rw [trim, hstart, hend]

/-- A text on a single line, without blanks at either end. -/
def IsLine (t : Text) : Prop :=
  '\n' ∉ t ∧ trim t = t

instance (t : Text) : Decidable (IsLine t) :=
  inferInstanceAs (Decidable (_ ∧ _))

/-! ## Joined texts -/

/-- The first of some joined texts is followed by the others, each behind the separator. -/
theorem intercalate_cons (separator t : Text) (texts : List Text) :
    separator.intercalate (t :: texts) = t ++ texts.flatMap (separator ++ ·) := by
  induction texts generalizing t with
  | nil => simp
  | cons next texts ih =>
    rw [List.intercalate_cons_cons, ih next, List.flatMap_cons, List.append_assoc,
      List.append_assoc]

/-- Joined texts are followed by the later ones, each behind the separator. -/
theorem intercalate_append (separator : Text) {texts : List Text} (hne : texts ≠ [])
    (later : List Text) :
    separator.intercalate (texts ++ later) =
      separator.intercalate texts ++ later.flatMap (separator ++ ·) := by
  obtain ⟨t, texts, rfl⟩ := List.exists_cons_of_ne_nil hne
  rw [List.cons_append, intercalate_cons, intercalate_cons, List.flatMap_append,
    List.append_assoc]

/-- A character of joined texts belongs to the separator or to one of them. -/
theorem mem_of_mem_intercalate {separator : Text} {texts : List Text} {c : Char}
    (h : c ∈ separator.intercalate texts) : c ∈ separator ∨ ∃ t ∈ texts, c ∈ t := by
  cases texts with
  | nil => simp at h
  | cons t texts =>
    rw [intercalate_cons, List.mem_append, List.mem_flatMap] at h
    rcases h with hfirst | ⟨later, hlater, hmem⟩
    · exact .inr ⟨t, by simp, hfirst⟩
    · rcases List.mem_append.mp hmem with hseparator | hmem
      · exact .inl hseparator
      · exact .inr ⟨later, by simp [hlater], hmem⟩

/-! ## Splitting -/

/-- Splitting is that of the library of lists. -/
theorem splitOn_eq (sep : Char) (t : Text) : splitOn sep t = List.splitOn sep t := by
  induction t with
  | nil => rfl
  | cons c rest ih =>
    rw [splitOn, ih, List.splitOn_cons_eq_if_modifyHead]
    by_cases hc : c = sep
    · simp [hc]
    · cases hrest : List.splitOn sep rest with
      | nil => exact absurd hrest (List.splitOn_ne_nil _ _)
      | cons piece pieces => simp [hc]

/-- No piece of a split text holds the separator. -/
theorem not_mem_of_mem_splitOn {sep : Char} {piece t : Text} (h : piece ∈ splitOn sep t) :
    sep ∉ piece := by
  induction t generalizing piece with
  | nil =>
    obtain rfl : piece = [] := by simpa [splitOn] using h
    simp
  | cons c t ih =>
    rw [splitOn] at h
    split at h
    · rcases List.mem_cons.mp h with rfl | hmem
      · simp
      · exact ih hmem
    · next hc =>
      split at h
      · obtain rfl : piece = [c] := by simpa using h
        simpa using Ne.symm hc
      · next first pieces hpieces =>
        rw [hpieces] at ih
        rcases List.mem_cons.mp h with rfl | hmem
        · simpa using ⟨Ne.symm hc, ih (by simp)⟩
        · exact ih (by simp [hmem])

/-- The lines of a text, joined by line feeds, are the text. -/
theorem intercalate_lines (t : Text) : ['\n'].intercalate t.lines = t := by
  rw [lines, splitOn_eq, List.intercalate_splitOn]

/-- Leading blanks do not change what is left after trimming. -/
theorem trim_cons_of_isBlank {c : Char} (hc : isBlank c = true) (t : Text) :
    trim (c :: t) = trim t := by
  simp [trim, trimStart, hc]

/-- Trailing blanks do not change what is left after trimming. -/
theorem trim_concat_of_isBlank {c : Char} (hc : isBlank c = true) (t : Text) :
    trim (t ++ [c]) = trim t := by
  rw [trim, trim, trimStart, trimStart, List.dropWhile_append]
  split
  · next hblank =>
    rw [List.isEmpty_iff.mp hblank, List.dropWhile_cons_of_pos hc]
    rfl
  · rw [trimEnd_eq_rdropWhile, trimEnd_eq_rdropWhile, List.rdropWhile_concat_pos _ _ _ hc]

/-- Two texts have nothing to trim together when the first one begins and the second one ends with
a character that is not blank. -/
theorem trim_append {front back : Text} (hfront : front ≠ []) (hback : back ≠ [])
    (hfirst : ∀ c ∈ front.head?, isBlank c = false)
    (hlast : ∀ c ∈ back.getLast?, isBlank c = false) : trim (front ++ back) = front ++ back := by
  rw [trim_eq_self_iff, List.head?_append_of_ne_nil _ hfront,
    List.getLast?_append_of_ne_nil _ hback]
  exact ⟨hfirst, hlast⟩

/-- Trimming at the end takes nothing off that does not end with a blank. -/
theorem trimEnd_append_blanks {t back : Text} (hlast : ∀ c ∈ t.getLast?, isBlank c = false)
    (hback : ∀ c ∈ back, isBlank c = true) : trimEnd (t ++ back) = t := by
  induction back using List.reverseRecOn with
  | nil => rw [List.append_nil, trimEnd_eq_self_iff.mpr hlast]
  | append_singleton back c ih =>
    rw [trimEnd_eq_rdropWhile] at ih ⊢
    rw [← List.append_assoc, List.rdropWhile_concat_pos _ _ _ (hback c (by simp))]
    exact ih fun d hd => hback d (by simp [hd])

/-- Blanks around a text are all that is trimmed, if it neither begins nor ends with one. -/
theorem trim_between_blanks {front t back : Text} (hfront : ∀ c ∈ front, isBlank c = true)
    (hback : ∀ c ∈ back, isBlank c = true) (hne : t ≠ []) (h : trim t = t) :
    trim (front ++ t ++ back) = t := by
  obtain ⟨hfirst, hlast⟩ := trim_eq_self_iff.mp h
  have hstart : trimStart (t ++ back) = t ++ back := by
    rw [trimStart_eq_self_iff, List.head?_append_of_ne_nil _ hne]
    exact hfirst
  rw [trim, List.append_assoc, trimStart, List.dropWhile_append_of_pos hfront]
  exact (congrArg trimEnd hstart).trans (trimEnd_append_blanks hlast hback)

/-- A comma at the end keeps the blanks before it, so nothing more is trimmed there. -/
theorem trim_append_comma {t : Text} (hne : t ≠ []) (hfirst : ∀ c ∈ t.head?, isBlank c = false) :
    trim (t ++ [',']) = t ++ [','] := by
  refine trim_append hne (by simp) hfirst fun c hc => ?_
  obtain rfl : ',' = c := by simpa using hc
  rfl

end Text

namespace Statement

/-! ## Lines of composed texts -/

/-- A line feed separates the lines before it from those after it. -/
theorem linesOf_append (s t : Text) : linesOf (s ++ '\n' :: t) = linesOf s ++ linesOf t := by
  simp [linesOf, Text.lines, Text.splitOn_eq, List.splitOn_append_cons_self]

/-- A text without line feeds has one line, unless it is blank. -/
theorem linesOf_of_not_mem {t : Text} (h : '\n' ∉ t) :
    linesOf t = [Text.trim t].filter (!·.isEmpty) := by
  simp [linesOf, Text.lines, Text.splitOn_eq, List.splitOn_eq_singleton h]

/-- A text on a single line is its own line. -/
theorem linesOf_of_isLine {t : Text} (h : t.IsLine) (hne : t ≠ []) : linesOf t = [t] := by
  rw [linesOf_of_not_mem h.1, h.2]
  simp [hne]

/-- Texts on single lines are their own lines. -/
theorem flatMap_linesOf {texts : List Text} (hlines : ∀ t ∈ texts, Text.IsLine t)
    (hne : ∀ t ∈ texts, t ≠ []) : texts.flatMap linesOf = texts := by
  induction texts with
  | nil => rfl
  | cons t texts ih =>
    rw [List.forall_mem_cons] at hlines hne
    rw [List.flatMap_cons, linesOf_of_isLine hlines.1 hne.1, ih hlines.2 hne.2]
    rfl

/-- Texts on lines of their own have the lines of each text. -/
theorem linesOf_intercalate (texts : List Text) :
    linesOf (['\n'].intercalate texts) = texts.flatMap linesOf := by
  induction texts with
  | nil => rfl
  | cons t texts ih =>
    cases texts with
    | nil => simp
    | cons t' texts =>
      rw [List.intercalate_cons_cons, List.append_assoc, List.singleton_append, linesOf_append, ih]
      rfl

/-- A blank other than the line feed does not change the lines after it. -/
theorem linesOf_cons_of_isBlank {c : Char} (hc : Text.isBlank c = true) (hne : c ≠ '\n')
    (t : Text) : linesOf (c :: t) = linesOf t := by
  simp only [linesOf, Text.lines, Text.splitOn_eq, List.splitOn_cons_eq_if_modifyHead,
    beq_eq_false_iff_ne.mpr hne]
  cases List.splitOn '\n' t with
  | nil => rfl
  | cons piece pieces => simp [Text.trim_cons_of_isBlank hc]

/-- Indentation does not change the lines after it. -/
theorem linesOf_indentation (t : Text) : linesOf (' ' :: ' ' :: t) = linesOf t := by
  rw [linesOf_cons_of_isBlank rfl (by decide), linesOf_cons_of_isBlank rfl (by decide)]

/-- Leading blanks do not change the lines of a text. -/
theorem linesOf_trimStart (t : Text) : linesOf (Text.trimStart t) = linesOf t := by
  induction t with
  | nil => rfl
  | cons c t ih =>
    cases hc : Text.isBlank c with
    | false => rw [Text.trimStart, List.dropWhile_cons_of_neg (by simp [hc])]
    | true =>
      have hrest : linesOf (c :: t) = linesOf t := by
        by_cases hfeed : c = '\n'
        · rw [hfeed]
          exact linesOf_append [] t
        · exact linesOf_cons_of_isBlank hc hfeed t
      rw [Text.trimStart, List.dropWhile_cons_of_pos hc, hrest]
      exact ih

/-- A text has no line feed, or one behind which no other follows. -/
theorem exists_last_line (t : Text) :
    '\n' ∉ t ∨ ∃ front last, t = front ++ '\n' :: last ∧ '\n' ∉ last := by
  induction t with
  | nil => exact .inl (by simp)
  | cons c t ih =>
    rcases ih with hnone | ⟨front, last, rfl, hlast⟩
    · by_cases hc : c = '\n'
      · exact .inr ⟨[], t, by rw [hc]; rfl, hnone⟩
      · exact .inl (by simpa using ⟨Ne.symm hc, hnone⟩)
    · exact .inr ⟨c :: front, last, rfl, hlast⟩

/-- A blank at the end does not change the lines of a text. -/
theorem linesOf_concat_of_isBlank {c : Char} (hc : Text.isBlank c = true) (t : Text) :
    linesOf (t ++ [c]) = linesOf t := by
  by_cases hfeed : c = '\n'
  · rw [hfeed]
    exact (linesOf_append t []).trans (List.append_nil _)
  have hsingle (line : Text) (hline : '\n' ∉ line) : linesOf (line ++ [c]) = linesOf line := by
    have hline' : '\n' ∉ line ++ [c] := by simpa using ⟨hline, Ne.symm hfeed⟩
    rw [linesOf_of_not_mem hline, linesOf_of_not_mem hline', Text.trim_concat_of_isBlank hc]
  rcases exists_last_line t with hnone | ⟨front, last, rfl, hlast⟩
  · exact hsingle t hnone
  · rw [List.append_assoc, List.cons_append, linesOf_append, linesOf_append, hsingle last hlast]

/-- Trailing blanks do not change the lines of a text. -/
theorem linesOf_trimEnd (t : Text) : linesOf (Text.trimEnd t) = linesOf t := by
  induction t using List.reverseRecOn with
  | nil => rfl
  | append_singleton t c ih =>
    rw [Text.trimEnd_eq_rdropWhile] at ih ⊢
    cases hc : Text.isBlank c with
    | false => rw [List.rdropWhile_concat_neg _ _ _ (by simp [hc])]
    | true => rw [List.rdropWhile_concat_pos _ _ _ hc, ih, linesOf_concat_of_isBlank hc]

/-- Trimming does not change the lines of a text. -/
theorem linesOf_trim (t : Text) : linesOf (Text.trim t) = linesOf t := by
  rw [Text.trim, linesOf_trimEnd, linesOf_trimStart]

/-- The first item of an indented list, with what stands before it and what ends it, has its own
lines. -/
theorem linesOf_indented_cons (before after first second : Text) (rest : List Text) :
    linesOf (before ++ (after ++ "\n  ".toList).intercalate (first :: second :: rest)) =
      linesOf (before ++ first ++ after) ++
        linesOf ((after ++ "\n  ".toList).intercalate (second :: rest)) := by
  have hsplit : before ++ (after ++ "\n  ".toList).intercalate (first :: second :: rest) =
      (before ++ first ++ after) ++
        '\n' :: ' ' :: ' ' :: (after ++ "\n  ".toList).intercalate (second :: rest) := by
    simp
  rw [hsplit, linesOf_append, linesOf_indentation]

/-- The items of an indented list have their own lines, the first one with what stands before it. -/
theorem linesOf_indented (before first : Text) (rest : List Text) :
    linesOf (before ++ "\n  ".toList.intercalate (first :: rest)) =
      linesOf (before ++ first) ++ rest.flatMap linesOf := by
  induction rest generalizing before first with
  | nil => simp
  | cons second rest ih =>
    have hfirst := linesOf_indented_cons before [] first second rest
    rw [List.nil_append, List.append_nil] at hfirst
    rw [hfirst, List.flatMap_cons]
    exact congrArg (linesOf (before ++ first) ++ ·) (ih [] second)

/-! ## Lines in sequence -/

/-- The section that is open after lines. -/
def sectionAfterAll (current : Section) (lines : List Text) : Section :=
  lines.foldl sectionAfter current

/-- Lines after others are read from the section that these leave open. -/
theorem readLines_append (current : Section) (c : Clauses) (lines later : List Text) :
    readLines current c (lines ++ later) =
      readLines (sectionAfterAll current lines) (readLines current c lines) later := by
  induction lines generalizing current c with
  | nil => rfl
  | cons line lines ih => exact ih (sectionAfter current line) (applyLine current c line)

/-- A last line is read in the section that the lines before it leave open. -/
theorem readLines_concat (current : Section) (c : Clauses) (lines : List Text) (line : Text) :
    readLines current c (lines ++ [line]) =
      applyLine (sectionAfterAll current lines) (readLines current c lines) line :=
  readLines_append current c lines [line]

end Statement

end SqlComposer
