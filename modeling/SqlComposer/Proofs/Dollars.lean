import SqlComposer.Placeholder.Basic
import SqlComposer.Proofs.Lines
import SqlComposer.Proofs.Separators

/-!
# Dollar signs in texts

A placeholder is a dollar sign with the digits behind it. Reading a text takes off blanks, commas
and keywords at its ends and cuts it into lines. What is taken off holds no dollar sign, and nothing
that is cut off behind a text begins with a digit. So all dollar signs are kept, each with its
digits.
-/

namespace SqlComposer

namespace Text

/-! ## Where texts are cut -/

/-- Characters of a kind at the start of a text go on only with characters of the kind. -/
theorem takeWhile_append_of_head? {p : Char → Bool} {t : Text} (h : ∀ c ∈ t.head?, p c = false)
    (s : Text) : (s ++ t).takeWhile p = s.takeWhile p := by
  have hnil : t.takeWhile p = [] := by
    cases t with
    | nil => rfl
    | cons c t => exact List.takeWhile_cons_of_neg (by simp [h c rfl])
  rw [List.takeWhile_append, hnil, List.append_nil]
  split
  · next hlength => exact ((List.takeWhile_prefix _).eq_of_length hlength).symm
  · rfl

/-- What follows the characters of a kind at the start of a text. -/
theorem dropWhile_append_of_head? {p : Char → Bool} {t : Text} (h : ∀ c ∈ t.head?, p c = false)
    (s : Text) : (s ++ t).dropWhile p = s.dropWhile p ++ t := by
  have hself : t.dropWhile p = t := by
    cases t with
    | nil => rfl
    | cons c t => exact List.dropWhile_cons_of_neg (by simp [h c rfl])
  rw [List.dropWhile_append, hself]
  split
  · next hnil => rw [List.isEmpty_iff.mp hnil, List.nil_append]
  · rfl

end Text

/-! ## Digits behind dollar signs -/

namespace Placeholder

/-- The digits directly behind each dollar sign of a text, in order. -/
def dollars : Text → List Text
  | [] => []
  | c :: rest => if c = '$' then rest.takeWhile Text.isDecimal :: dollars rest else dollars rest

/-- Whether a text begins with a decimal digit. -/
def startsDecimal (t : Text) : Bool :=
  t.head?.any Text.isDecimal

/-- A first character that is no dollar sign begins no placeholder. -/
theorem dollars_cons_of_ne {c : Char} (hc : c ≠ '$') (t : Text) : dollars (c :: t) = dollars t := by
  rw [dollars, if_neg hc]

/-- Nothing is listed exactly for texts without dollar signs. -/
theorem dollars_eq_nil_iff {t : Text} : dollars t = [] ↔ '$' ∉ t := by
  induction t with
  | nil => simp [dollars]
  | cons c t ih =>
    by_cases hc : c = '$'
    · simp [dollars, hc]
    · simp [dollars, hc, ih, Ne.symm hc]

/-- A text that does not start with a decimal digit has none in front. -/
theorem isDecimal_of_not_startsDecimal {t : Text} (h : startsDecimal t = false) :
    ∀ c ∈ t.head?, Text.isDecimal c = false := by
  cases t with
  | nil => simp
  | cons c t => simpa [startsDecimal] using h

/-- Digits go on only with digits. -/
theorem takeWhile_append_of_not_startsDecimal {s t : Text} (h : startsDecimal t = false) :
    (s ++ t).takeWhile Text.isDecimal = s.takeWhile Text.isDecimal :=
  Text.takeWhile_append_of_head? (isDecimal_of_not_startsDecimal h) s

/-- A text has the dollar signs of its parts, unless a number is cut. -/
theorem dollars_append {t : Text} (s : Text) (h : startsDecimal t = false) :
    dollars (s ++ t) = dollars s ++ dollars t := by
  induction s with
  | nil => rfl
  | cons c s ih =>
    by_cases hc : c = '$'
    · simp [dollars, hc, ih, takeWhile_append_of_not_startsDecimal h]
    · simp [dollars, hc, ih]

/-- A text without dollar signs adds none in front. -/
theorem dollars_append_of_not_mem {s : Text} (h : '$' ∉ s) (t : Text) :
    dollars (s ++ t) = dollars t := by
  induction s with
  | nil => rfl
  | cons c s ih =>
    simp only [List.mem_cons, not_or] at h
    rw [List.cons_append, dollars_cons_of_ne (Ne.symm h.1), ih h.2]

/-- A text that a separator starts, if anything does, does not start with a decimal digit. -/
theorem startsDecimal_of_separates {t : Text} (h : ∀ c ∈ t.head?, Text.separates c = true) :
    startsDecimal t = false := by
  cases t with
  | nil => rfl
  | cons c t => exact (Text.not_isWord_of_separates (h c rfl)).2.1

/-- No number goes on with a separator. -/
theorem startsDecimal_append_of_isSeparator {separator : Text} (h : separator.IsSeparator)
    (t : Text) : startsDecimal (separator ++ t) = false := by
  refine startsDecimal_of_separates fun c hc => h.separates c ?_
  rw [List.head?_append_of_ne_nil _ h.ne_nil] at hc
  exact List.mem_of_mem_head? hc

end Placeholder

namespace Text

/-! ## Parts of texts -/

/-- A text is what another one holds between two ends, the second of which does not go on with the
last word or number. -/
def IsPart (part t : Text) : Prop :=
  ∃ front back, front ++ part ++ back = t ∧ ∀ c ∈ back.head?, separates c = true

/-- A text is a part of another one that has all its dollar signs, each with the same digits. -/
structure IsCore (core t : Text) : Prop where
  /-- A core is a part. -/
  isPart : IsPart core t
  /-- No dollar sign is cut off. -/
  dollars_eq : Placeholder.dollars core = Placeholder.dollars t

/-- A text is a part of itself. -/
theorem IsPart.refl (t : Text) : IsPart t t :=
  ⟨[], [], by simp, by simp⟩

/-- A part of a part is a part. -/
theorem IsPart.trans {part middle t : Text} (h : IsPart part middle) (h' : IsPart middle t) :
    IsPart part t := by
  obtain ⟨front, back, rfl, hback⟩ := h
  obtain ⟨front', back', rfl, hback'⟩ := h'
  refine ⟨front' ++ front, back ++ back', by simp, ?_⟩
  cases back with
  | nil => exact hback'
  | cons c back => exact hback

/-- A part of a text is one of every text that ends with it. -/
theorem IsPart.append_left {part t : Text} (h : IsPart part t) (front : Text) :
    IsPart part (front ++ t) :=
  h.trans ⟨front, [], by simp, by simp⟩

/-- The characters of a part are those of the text. -/
theorem IsPart.subset {part t : Text} (h : IsPart part t) : part ⊆ t := by
  obtain ⟨front, back, rfl, -⟩ := h
  simp

/-- A text is its own core. -/
theorem IsCore.refl (t : Text) : IsCore t t :=
  ⟨.refl t, rfl⟩

/-- A core of a core is a core. -/
theorem IsCore.trans {core middle t : Text} (h : IsCore core middle) (h' : IsCore middle t) :
    IsCore core t :=
  ⟨h.isPart.trans h'.isPart, h.dollars_eq.trans h'.dollars_eq⟩

/-- What stands behind a text without dollar signs is a core. -/
theorem IsCore.of_append {front : Text} (h : '$' ∉ front) (t : Text) : IsCore t (front ++ t) :=
  ⟨(IsPart.refl t).append_left front, (Placeholder.dollars_append_of_not_mem h t).symm⟩

/-- What stands before blanks and commas is a core. -/
theorem IsCore.of_append_separators (t : Text) {back : Text}
    (h : ∀ c ∈ back, separates c = true) : IsCore t (t ++ back) := by
  have hhead : ∀ c ∈ back.head?, separates c = true := fun c hc => h c (List.mem_of_mem_head? hc)
  refine ⟨⟨[], back, by simp, hhead⟩, ?_⟩
  rw [Placeholder.dollars_append t (Placeholder.startsDecimal_of_separates hhead),
    Placeholder.dollars_eq_nil_iff.mpr (dollar_not_mem_of_separates h), List.append_nil]

/-- Blanks separate. -/
theorem separates_of_isBlank {c : Char} (h : isBlank c = true) : separates c = true := by
  simp [separates, h]

/-! ## Trimming -/

/-- A text without the blanks at its start is a core of it. -/
theorem isCore_trimStart (t : Text) : IsCore (trimStart t) t := by
  have hsplit : t.takeWhile isBlank ++ trimStart t = t := List.takeWhile_append_dropWhile
  have hfront : '$' ∉ t.takeWhile isBlank := fun h =>
    absurd (List.mem_takeWhile_imp h) (by decide)
  simpa only [hsplit] using IsCore.of_append hfront (trimStart t)

/-- A text without the blanks at its end is a core of it. -/
theorem isCore_trimEnd (t : Text) : IsCore (trimEnd t) t := by
  have hsplit : trimEnd t ++ t.rtakeWhile isBlank = t := by
    rw [trimEnd_eq_rdropWhile, List.rdropWhile_append_rtakeWhile]
  have hcore : IsCore (trimEnd t) (trimEnd t ++ t.rtakeWhile isBlank) :=
    .of_append_separators _ fun c hc => separates_of_isBlank (List.mem_rtakeWhile_imp hc)
  rwa [hsplit] at hcore

/-- Trimming keeps all dollar signs. -/
theorem isCore_trim (t : Text) : IsCore (trim t) t :=
  (isCore_trimEnd (trimStart t)).trans (isCore_trimStart t)

/-! ## Keywords -/

/-- A word without dollar signs is found in a text without dollar signs. -/
theorem isCore_of_afterWord? {word t rest : Text} (hword : '$' ∉ word)
    (h : afterWord? word t = some rest) : IsCore rest t := by
  induction word generalizing t with
  | nil =>
    cases h
    exact .refl _
  | cons w word ih =>
    simp only [List.mem_cons, not_or] at hword
    cases t with
    | nil => cases h
    | cons c t =>
      rw [afterWord?] at h
      split at h
      · next hfold =>
        have hc : '$' ∉ [c] := by
          rintro hdollar
          obtain rfl : '$' = c := by simpa using hdollar
          exact hword.1 hfold
        exact (ih hword.2 h).trans (.of_append hc _)
      · cases h

/-- What follows words without a dollar sign is a core of the text. -/
theorem isCore_of_afterWords? {words : List Text} {t rest : Text}
    (hwords : ∀ word ∈ words, '$' ∉ word) (h : afterWords? words t = some rest) :
    IsCore rest t := by
  induction words generalizing t with
  | nil =>
    cases h
    exact .refl _
  | cons word words ih =>
    simp only [List.forall_mem_cons] at hwords
    cases words with
    | nil => exact isCore_of_afterWord? hwords.1 h
    | cons next words =>
      rw [afterWords?] at h
      · split at h
        · next c after hafter =>
          split at h
          · next hblank =>
            have hc : '$' ∉ [c] := by
              rintro hdollar
              obtain rfl : '$' = c := by simpa using hdollar
              exact absurd hblank (by decide)
            have hrest := (ih hwords.2 h).trans (isCore_trimStart after)
            exact (hrest.trans (.of_append hc _)).trans (isCore_of_afterWord? hwords.1 hafter)
          · cases h
        · cases h
      · simp

end Text

namespace Keyword

/-- What follows a keyword keeps all dollar signs. -/
theorem isCore_of_after? {k : Keyword} {t rest : Text} (h : k.after? t = some rest) :
    Text.IsCore rest t := by
  have hphrases : ∀ k : Keyword, ∀ phrase ∈ k.spellings, ∀ word ∈ phrase, '$' ∉ word := by
    intro k
    cases k <;> decide
  obtain ⟨phrase, hphrase, hfound⟩ := List.exists_of_findSome?_eq_some h
  obtain ⟨hwords, -⟩ := Option.filter_eq_some_iff.mp hfound
  exact Text.isCore_of_afterWords? (hphrases k phrase hphrase) hwords

/-- The operand of a keyword keeps all dollar signs. -/
theorem isCore_of_first? {ks : List Keyword} {k : Keyword} {t operand : Text}
    (h : first? ks t = some (k, operand)) : Text.IsCore operand t := by
  obtain ⟨-, rest, hafter, rfl⟩ := exists_after?_of_first? h
  exact (Text.isCore_trim rest).trans (isCore_of_after? hafter)

end Keyword

namespace Statement

/-! ## Fields -/

/-- A line without a comma at its start is a core of it. -/
theorem isCore_dropLeadingComma (line : Text) : Text.IsCore (dropLeadingComma line) line := by
  unfold dropLeadingComma
  split
  · next rest =>
    have hcomma : '$' ∉ [','] := by decide
    exact (Text.isCore_trimStart rest).trans (.of_append hcomma rest)
  · exact .refl line

/-- A line without a comma at its end is a core of it. -/
theorem isCore_dropTrailingComma (line : Text) : Text.IsCore (dropTrailingComma line) line := by
  unfold dropTrailingComma
  dsimp only
  split
  · next hcomma =>
    have hbody : (Text.trimEnd line).dropLast ++ [','] = Text.trimEnd line :=
      List.dropLast_append_getLast? _ hcomma
    have hcore : Text.IsCore (Text.trimEnd line).dropLast
        ((Text.trimEnd line).dropLast ++ [',']) :=
      .of_append_separators _ (by decide : Text.IsSeparator [',']).separates
    rw [hbody] at hcore
    exact hcore.trans (Text.isCore_trimEnd line)
  · exact .refl line

/-- A field keeps all dollar signs of its line. -/
theorem isCore_fieldOf (line : Text) : Text.IsCore (fieldOf line) line := by
  unfold fieldOf
  split
  · next hcomma =>
    have hnil : Text.IsCore [] (Text.trim line) := by
      rw [hcomma]
      exact ⟨⟨[','], [], rfl, by simp⟩, rfl⟩
    exact hnil.trans (Text.isCore_trim line)
  · exact (isCore_dropTrailingComma _).trans (isCore_dropLeadingComma line)

end Statement

/-! ## Lines -/

namespace Placeholder

/-- Texts have the dollar signs of some of them, if the others have none. -/
theorem flatMap_dollars_filter {keep : Text → Bool} {texts : List Text}
    (h : ∀ t ∈ texts, keep t = false → '$' ∉ t) :
    (texts.filter keep).flatMap dollars = texts.flatMap dollars := by
  induction texts with
  | nil => rfl
  | cons t texts ih =>
    rw [List.forall_mem_cons] at h
    cases hkeep : keep t with
    | true => simp [hkeep, ih h.2]
    | false => simp [hkeep, ih h.2, dollars_eq_nil_iff.mpr (h.1 hkeep)]

/-- Joined texts have the dollar signs of each of them. -/
theorem dollars_intercalate {separator : Text} (h : separator.IsSeparator) (texts : List Text) :
    dollars (separator.intercalate texts) = texts.flatMap dollars := by
  induction texts with
  | nil => rfl
  | cons t texts ih =>
    cases texts with
    | nil => simp
    | cons next texts =>
      rw [List.intercalate_cons_cons, List.append_assoc,
        dollars_append t (startsDecimal_append_of_isSeparator h _),
        dollars_append_of_not_mem (Text.dollar_not_mem_of_separates h.separates), ih]
      rfl

end Placeholder

/-- Each of some joined texts is a part of the whole. -/
theorem Text.isPart_intercalate {separator : Text} (h : separator.IsSeparator) {t : Text}
    {texts : List Text} (ht : t ∈ texts) : IsPart t (separator.intercalate texts) := by
  induction texts with
  | nil => cases ht
  | cons first texts ih =>
    cases texts with
    | nil =>
      obtain rfl : t = first := by simpa using ht
      simpa using IsPart.refl t
    | cons next texts =>
      rw [List.intercalate_cons_cons]
      rcases List.mem_cons.mp ht with rfl | hmem
      · obtain ⟨c, rest, rfl⟩ := List.exists_cons_of_ne_nil h.ne_nil
        refine ⟨[], c :: rest ++ (c :: rest).intercalate (next :: texts), by simp, ?_⟩
        rintro _ ⟨⟩
        exact h.separates c (by simp)
      · exact (ih hmem).append_left _

namespace Statement

/-- Every line of a statement is a part of it. -/
theorem isPart_of_mem_linesOf {statement line : Text} (h : line ∈ linesOf statement) :
    Text.IsPart line statement := by
  obtain ⟨hmem, -⟩ := List.mem_filter.mp h
  obtain ⟨piece, hpiece, rfl⟩ := List.mem_map.mp hmem
  have hpart : Text.IsPart piece (['\n'].intercalate statement.lines) :=
    Text.isPart_intercalate .feed hpiece
  rw [Text.intercalate_lines] at hpart
  exact (Text.isCore_trim piece).isPart.trans hpart

/-- The lines of a statement have its dollar signs. -/
theorem flatMap_dollars_linesOf (statement : Text) :
    (linesOf statement).flatMap Placeholder.dollars = Placeholder.dollars statement := by
  calc (linesOf statement).flatMap Placeholder.dollars
      = (statement.lines.map Text.trim).flatMap Placeholder.dollars :=
        Placeholder.flatMap_dollars_filter fun line _ hline => by
          simp [List.isEmpty_iff.mp (by simpa using hline : line.isEmpty = true)]
    _ = statement.lines.flatMap Placeholder.dollars := by
        rw [List.flatMap_map]
        exact List.flatMap_congr fun line _ => (Text.isCore_trim line).dollars_eq
    _ = Placeholder.dollars (['\n'].intercalate statement.lines) :=
        (Placeholder.dollars_intercalate .feed _).symm
    _ = Placeholder.dollars statement := by rw [Text.intercalate_lines]

end Statement

end SqlComposer
