import SqlComposer.Proofs.Keywords
import SqlComposer.Text.Numeral

/-!
# Blanks and commas

Texts are cut at blanks and commas. These belong neither to words nor to placeholders, so those that
stand at the end of a text neither let a keyword open it nor keep one from doing so.
-/

namespace SqlComposer

namespace Text

/-- Blanks and commas, at which texts are cut. -/
def separates (c : Char) : Bool :=
  isBlank c || c == ','

/-- A blank is neither a word character nor a digit. -/
theorem not_isWord_of_isBlank {c : Char} (h : isBlank c = true) :
    isWord c = false ∧ isDecimal c = false := by
  have hcodes : ∀ n ∈ [0x09, 0x0A, 0x0B, 0x0C, 0x0D, 0x1C, 0x1D, 0x1E, 0x1F, 0x20, 0x85, 0xA0,
      0x1680, 0x2000, 0x2001, 0x2002, 0x2003, 0x2004, 0x2005, 0x2006, 0x2007, 0x2008, 0x2009,
      0x200A, 0x2028, 0x2029, 0x202F, 0x205F, 0x3000], inRanges wordRanges n = false ∧
        ∀ start ∈ decimalZeros, ¬ (start ≤ n ∧ n ≤ start + 9) := by
    decide +kernel
  obtain ⟨hword, hdigit⟩ := hcodes c.toNat (by
    simp only [isBlank, Bool.or_eq_true, Bool.and_eq_true, decide_eq_true_eq, beq_iff_eq] at h
    simp only [List.mem_cons, List.not_mem_nil, or_false]
    omega)
  exact ⟨hword, by simpa [isDecimal, digitValue?] using hdigit⟩

/-- A character at which texts are cut belongs to no placeholder. -/
theorem not_isWord_of_separates {c : Char} (h : separates c = true) :
    isWord c = false ∧ isDecimal c = false ∧ c ≠ '$' := by
  obtain hblank | hcomma := Bool.or_eq_true_iff.mp h
  · obtain ⟨hword, hdigit⟩ := not_isWord_of_isBlank hblank
    refine ⟨hword, hdigit, ?_⟩
    rintro rfl
    exact absurd hblank (by decide)
  · obtain rfl : c = ',' := by simpa using hcomma
    decide +kernel

/-- Separators are no dollar signs. -/
theorem dollar_not_mem_of_separates {t : Text} (h : ∀ c ∈ t, separates c = true) : '$' ∉ t :=
  fun hmem => (not_isWord_of_separates (h _ hmem)).2.2 rfl

/-- A text that stands between others. -/
structure IsSeparator (t : Text) : Prop where
  /-- Something stands between the texts. -/
  ne_nil : t ≠ []
  /-- Only blanks and commas do. -/
  separates : ∀ c ∈ t, separates c = true

instance (t : Text) : Decidable (IsSeparator t) :=
  decidable_of_iff (t ≠ [] ∧ t.all separates = true)
    ⟨fun h => ⟨h.1, List.all_eq_true.mp h.2⟩, fun h => ⟨h.ne_nil, List.all_eq_true.mpr h.separates⟩⟩

/-- A line feed is a separator. -/
theorem IsSeparator.feed : IsSeparator ['\n'] := by decide

/-- A comma is a separator. -/
theorem IsSeparator.comma : IsSeparator [','] := by decide

/-! ## Words before separators -/

/-- Letter case does not matter to blanks and commas. -/
theorem foldCase_of_separates {c : Char} (h : separates c = true) : foldCase c = c := by
  have hletter : ¬ ('A'.toNat ≤ c.toNat ∧ c.toNat ≤ 'Z'.toNat) := by
    rintro ⟨hlower, hupper⟩
    have hfirst : 'A'.toNat = 65 := rfl
    have hlast : 'Z'.toNat = 90 := rfl
    rcases Bool.or_eq_true_iff.mp h with hblank | hcomma
    · simp only [isBlank, Bool.or_eq_true, Bool.and_eq_true, decide_eq_true_eq,
        beq_iff_eq] at hblank
      omega
    · obtain rfl : c = ',' := by simpa using hcomma
      exact absurd hlower (by decide)
  have hother : ∀ d ∈ ['\u0130', '\u0131', '\u017F', '\u212A'], c ≠ d := by
    have hnone : ['\u0130', '\u0131', '\u017F', '\u212A'].any separates = false := by decide
    rintro d hd rfl
    rw [List.any_eq_false] at hnone
    exact hnone c hd h
  simp only [List.forall_mem_cons] at hother
  obtain ⟨hdotted, hdotless, hlong, hkelvin, -⟩ := hother
  rw [foldCase, if_neg hletter, if_neg (by simp [hdotted, hdotless]), if_neg hlong,
    if_neg hkelvin]

/-- Blanks at the start of two texts are those of the first, and of the second if the first has
nothing else. -/
theorem trimStart_append (t s : Text) :
    trimStart (t ++ s) = if (trimStart t).isEmpty then trimStart s else trimStart t ++ s :=
  List.dropWhile_append

/-- With separators behind it, a text starts with a word exactly when it does so by itself. -/
theorem startsWord_append_separators {s : Text} (hs : ∀ c ∈ s, separates c = true) (t : Text) :
    startsWord (t ++ s) = startsWord t := by
  cases t with
  | cons c t => rfl
  | nil =>
    cases s with
    | nil => rfl
    | cons c s => exact (not_isWord_of_separates (hs c (by simp))).1

/-- No word begins in what separates texts. -/
theorem afterWord?_append_separators {word s : Text} (hword : word.any separates = false)
    (hs : ∀ c ∈ s, separates c = true) (t : Text) :
    afterWord? word (t ++ s) = (afterWord? word t).map (· ++ s) := by
  induction word generalizing t with
  | nil => rfl
  | cons w word ih =>
    rw [List.any_cons, Bool.or_eq_false_iff] at hword
    cases t with
    | nil =>
      cases s with
      | nil => rfl
      | cons c s =>
        have hc := hs c (by simp)
        have hne : foldCase c ≠ w := by
          rw [foldCase_of_separates hc]
          rintro rfl
          rw [hc] at hword
          exact Bool.noConfusion hword.1
        simp [afterWord?, hne]
    | cons c t =>
      simp only [List.cons_append, afterWord?]
      split
      · exact ih hword.2 t
      · rfl

/-- A phrase whose words hold no separators is found in a text with and without the separators at
its end. -/
theorem afterWords?_append_separators {words : List Text} {s : Text}
    (hwords : ∀ word ∈ words, word ≠ [] ∧ word.any separates = false)
    (hs : ∀ c ∈ s, separates c = true) (t : Text) :
    afterWords? words (t ++ s) = (afterWords? words t).map (· ++ s) := by
  induction words generalizing t s with
  | nil => rfl
  | cons word words ih =>
    rw [List.forall_mem_cons] at hwords
    cases words with
    | nil => exact afterWord?_append_separators hwords.1.2 hs t
    | cons next words =>
      have hnil : afterWords? (next :: words) [] = none := by
        obtain ⟨w, rest, rfl⟩ := List.exists_cons_of_ne_nil (hwords.2 next (by simp)).1
        cases words <;> rfl
      -- the next word does not begin in the separators
      have hnone (s' : Text) (hs' : ∀ c ∈ s', separates c = true) :
          afterWords? (next :: words) s' = none := by
        have hempty := ih hwords.2 hs' []
        rwa [hnil] at hempty
      have hstart (s' : Text) (hs' : ∀ c ∈ s', separates c = true) :
          ∀ c ∈ trimStart s', separates c = true :=
        fun c hc => hs' c ((List.dropWhile_suffix _).subset hc)
      rw [afterWords?, afterWords?, afterWord?_append_separators hwords.1.2 hs]
      · cases afterWord? word t with
        | none => rfl
        | some after =>
          cases after with
          | nil =>
            cases s with
            | nil => rfl
            | cons c s =>
              have hrest := hnone _ (hstart s (List.forall_mem_cons.mp hs).2)
              simp [hrest]
          | cons c rest =>
            simp only [Option.map_some, List.cons_append]
            split
            · rw [trimStart_append]
              split
              · next hblank =>
                rw [List.isEmpty_iff.mp hblank, hnone _ (hstart s hs), hnil]
                rfl
              · exact ih hwords.2 hs _
            · rfl
      · simp
      · simp

/-- Separators at the end of a text stay at the end of what follows a phrase. -/
theorem afterPhrase?_append_separators {phrase : List Text} {s : Text}
    (hphrase : ∀ word ∈ phrase, word ≠ [] ∧ word.any separates = false)
    (hs : ∀ c ∈ s, separates c = true) (t : Text) :
    afterPhrase? phrase (t ++ s) = (afterPhrase? phrase t).map (· ++ s) := by
  rw [afterPhrase?, afterPhrase?, afterWords?_append_separators hphrase hs]
  cases afterWords? phrase t with
  | none => rfl
  | some rest =>
    cases h : startsWord rest <;> simp [Option.filter, startsWord_append_separators hs, h]

end Text

namespace Keyword

/-- Separators at the end of a text do not keep a keyword from opening it, nor make one do so. -/
theorem opens_append_separators {s : Text} (hs : ∀ c ∈ s, Text.separates c = true) (k : Keyword)
    (t : Text) : k.opens (t ++ s) = k.opens t := by
  have hphrase : ∀ k : Keyword, ∀ phrase ∈ k.spellings, ∀ word ∈ phrase,
      word ≠ [] ∧ word.any Text.separates = false := by
    intro k
    cases k <;> decide
  rw [Bool.eq_iff_iff]
  simp only [opens, after?, List.findSome?_isSome_iff]
  refine exists_congr fun phrase => and_congr_right fun hmem => ?_
  rw [Text.afterPhrase?_append_separators (hphrase k phrase hmem) hs, Option.isSome_map]

end Keyword

/-- Separators at the end of a line without a keyword do not give it one. -/
theorem Statement.keyword?_append_separators {s t : Text} (hs : ∀ c ∈ s, Text.separates c = true)
    (h : keyword? t = none) : keyword? (t ++ s) = none := by
  rw [keyword?_eq_none_iff] at h ⊢
  intro k hk
  rw [Keyword.opens_append_separators hs, h k hk]

end SqlComposer
