import SqlComposer.Proofs.Apart
import SqlComposer.Proofs.Filling

/-!
# The placeholders that a template writes

A template writes a placeholder for every value that becomes a parameter. If neither its segments
nor the texts that it inlines hold a dollar sign, every dollar sign of its text belongs to one of
these placeholders. What stands around them decides whether they stand apart and whether a digit
goes on with their number.
-/

namespace SqlComposer

namespace Text

/-- The numeral of an integer has no dollar sign. -/
theorem dollar_not_mem_ofInt (n : ℤ) : '$' ∉ ofInt n := by
  intro hmem
  rcases eq_minus_or_isDigit_of_mem_ofInt hmem with hminus | hdigit
  · cases hminus
  · cases hdigit

/-- The numeral of a number ends where no digit follows. -/
theorem takeWhile_ofInt_append {n : ℤ} (hn : 0 ≤ n) {t : Text}
    (h : Placeholder.startsDecimal t = false) :
    (ofInt n ++ t).takeWhile isDecimal = ofInt n ∧ (ofInt n ++ t).dropWhile isDecimal = t := by
  obtain ⟨n, rfl⟩ := Int.eq_ofNat_of_zero_le hn
  have hdigits : ∀ c ∈ ofInt n, isDecimal c = true := fun c hc => isDecimal_of_mem_ofNat hc
  rw [Placeholder.takeWhile_append_of_not_startsDecimal h,
    Placeholder.dropWhile_append_of_not_startsDecimal _ h, List.takeWhile_eq_self_iff.mpr hdigits,
    List.dropWhile_eq_nil_iff.mpr hdigits, List.nil_append]
  exact ⟨rfl, rfl⟩

/-- A dollar sign behind a text without any stands behind the whole of it. -/
theorem exists_front_of_not_mem {s t front rest : Text} (hs : '$' ∉ s)
    (h : front ++ '$' :: rest = s ++ t) :
    ∃ front', front = s ++ front' ∧ front' ++ '$' :: rest = t := by
  rcases List.append_eq_append_iff.mp h with ⟨more, rfl, hrest⟩ | ⟨more, rfl, rfl⟩
  · cases more with
    | nil => exact ⟨[], by simp, by simpa using hrest⟩
    | cons c more =>
      obtain ⟨rfl, -⟩ := List.cons.inj hrest
      exact absurd (by simp) hs
  · exact ⟨more, rfl, rfl⟩

end Text

/-- A placeholder in a text. -/
structure Placement where
  /-- The text before the placeholder. -/
  before : Text
  /-- The number of its parameter. -/
  number : ℤ
  /-- The text behind the placeholder. -/
  behind : Text

namespace Placement

/-- No word character touches the placeholder. -/
def IsApart (p : Placement) : Prop :=
  Text.endsWord p.before = false ∧ Text.startsWord p.behind = false

/-- No decimal digit goes on with the number. -/
def IsEnded (p : Placement) : Prop :=
  Placeholder.startsDecimal p.behind = false

instance (p : Placement) : Decidable p.IsApart :=
  inferInstanceAs (Decidable (_ ∧ _))

instance (p : Placement) : Decidable p.IsEnded :=
  inferInstanceAs (Decidable (_ = _))

/-- A placement that stands apart is ended. -/
theorem IsApart.isEnded {p : Placement} (h : p.IsApart) : p.IsEnded := by
  obtain ⟨-, hbehind⟩ := h
  rw [IsEnded]
  cases hp : p.behind with
  | nil => rfl
  | cons c t =>
    rw [hp] at hbehind
    by_contra hdecimal
    have hword := Text.isWord_of_isDecimal (by simpa [Placeholder.startsDecimal] using hdecimal)
    rw [Text.startsWord, hword] at hbehind
    cases hbehind

end Placement

/-! ## Templates -/

/-- The placeholders that gaps write behind a text. -/
def Gap.placements (before : Text) (counter : ℤ) : List Gap → List Placement
  | [] => []
  | gap :: gaps =>
    if gap.value.isParameter then
      ⟨before, counter + 1,
        Template.textAfter Placeholder.positional (counter + 1) ⟨gap.after, gaps⟩⟩ ::
        placements (before ++ Placeholder.positional (counter + 1) ++ gap.after.segmentText)
          (counter + 1) gaps
    else placements (before ++ gap.value.shownAs [] ++ gap.after.segmentText) counter gaps

/-- A gap with a parameter has the first placement, and the others stand behind its mark. -/
theorem Gap.placements_cons_of_isParameter (before : Text) (counter : ℤ) {gap : Gap}
    (h : gap.value.isParameter = true) (gaps : List Gap) :
    placements before counter (gap :: gaps) =
      ⟨before, counter + 1,
        Template.textAfter Placeholder.positional (counter + 1) ⟨gap.after, gaps⟩⟩ ::
        placements (before ++ Placeholder.positional (counter + 1) ++ gap.after.segmentText)
          (counter + 1) gaps :=
  if_pos h

/-- A gap without a parameter has no placement, and those of the others stand behind what it shows.
-/
theorem Gap.placements_cons_of_not_isParameter (before : Text) (counter : ℤ) {gap : Gap}
    (h : gap.value.isParameter = false) (gaps : List Gap) :
    placements before counter (gap :: gaps) =
      placements (before ++ gap.value.shownAs [] ++ gap.after.segmentText) counter gaps :=
  if_neg (by simp [h])

namespace Template

/-- The placeholders that a template writes after so many parameters. -/
def placements (t : Template) (counter : ℤ) : List Placement :=
  Gap.placements t.first.segmentText counter t.gaps

/-- Neither the segments of a template nor the texts that it inlines hold a character. -/
def Avoids (t : Template) (c : Char) : Prop :=
  (∀ segment ∈ t.segments, c ∉ segment.segmentText) ∧
    ∀ value ∈ t.values, value.isParameter = false → c ∉ value.shownAs []

instance (t : Template) (c : Char) : Decidable (t.Avoids c) :=
  inferInstanceAs (Decidable (_ ∧ _))

/-- A template, read after so many parameters, whose numbers end where its placeholders do. -/
structure IsEnded (counter : ℤ) (t : Template) : Prop where
  /-- No dollar sign is its own. -/
  avoids : t.Avoids '$'
  /-- No decimal digit goes on with a number. -/
  ended : ∀ p ∈ t.placements counter, p.IsEnded

/-- A template, read after so many parameters, whose placeholders stand apart. -/
structure IsApart (counter : ℤ) (t : Template) : Prop where
  /-- No dollar sign is its own. -/
  avoids : t.Avoids '$'
  /-- No word character touches a placeholder. -/
  apart : ∀ p ∈ t.placements counter, p.IsApart

instance (counter : ℤ) (t : Template) : Decidable (t.IsEnded counter) :=
  decidable_of_iff (t.Avoids '$' ∧ ∀ p ∈ t.placements counter, p.IsEnded)
    ⟨fun h => ⟨h.1, h.2⟩, fun h => ⟨h.avoids, h.ended⟩⟩

instance (counter : ℤ) (t : Template) : Decidable (t.IsApart counter) :=
  decidable_of_iff (t.Avoids '$' ∧ ∀ p ∈ t.placements counter, p.IsApart)
    ⟨fun h => ⟨h.1, h.2⟩, fun h => ⟨h.avoids, h.apart⟩⟩

/-- A template whose placements stand apart is ended. -/
theorem IsApart.isEnded {counter : ℤ} {t : Template} (h : t.IsApart counter) :
    t.IsEnded counter :=
  ⟨h.avoids, fun p hp => (h.apart p hp).isEnded⟩

/-- A template without gaps has the text of its only segment. -/
theorem textAfter_nil (mark : ℤ → Text) (counter : ℤ) (first : Value) :
    textAfter mark counter ⟨first, []⟩ = first.segmentText := by
  simp [textAfter]

/-- The text of a template goes on with the mark of a first value that is a parameter. -/
theorem textAfter_cons_of_isParameter (mark : ℤ → Text) (counter : ℤ) (first : Value) {gap : Gap}
    (h : gap.value.isParameter = true) (gaps : List Gap) :
    textAfter mark counter ⟨first, gap :: gaps⟩ =
      first.segmentText ++ (mark (counter + 1) ++
        textAfter mark (counter + 1) ⟨gap.after, gaps⟩) := by
  have hshown : gap.value.shownAs (mark (counter + 1)) = mark (counter + 1) := by
    cases hvalue : gap.value <;> simp_all [Value.shownAs, Value.isParameter]
  simp [textAfter, values, Value.shownAll_cons, h, hshown]

/-- The text of a template goes on with a first value that is no parameter, whatever the mark. -/
theorem textAfter_cons_of_not_isParameter (mark : ℤ → Text) (counter : ℤ) (first : Value)
    {gap : Gap} (h : gap.value.isParameter = false) (gaps : List Gap) :
    textAfter mark counter ⟨first, gap :: gaps⟩ =
      first.segmentText ++ (gap.value.shownAs [] ++
        textAfter mark counter ⟨gap.after, gaps⟩) := by
  have hshown : gap.value.shownAs (mark (counter + 1)) = gap.value.shownAs [] := by
    cases hvalue : gap.value <;> simp_all [Value.shownAs, Value.isParameter]
  simp [textAfter, values, Value.shownAll_cons, h, hshown]

/-- A template that avoids a character does so in its first segment, in what its first gap shows and
behind it. -/
theorem avoids_cons {first : Value} {gap : Gap} {gaps : List Gap} {c : Char}
    (h : Avoids ⟨first, gap :: gaps⟩ c) :
    c ∉ first.segmentText ∧ (gap.value.isParameter = false → c ∉ gap.value.shownAs []) ∧
      Avoids ⟨gap.after, gaps⟩ c := by
  simp only [Avoids, segments, values, List.map_cons, List.forall_mem_cons] at h ⊢
  exact ⟨h.1.1, h.2.1, h.1.2, h.2.2⟩

/-- A template without gaps that avoids a character has a segment without it. -/
theorem not_mem_of_avoids_nil {first : Value} {c : Char} (h : Avoids ⟨first, []⟩ c) :
    c ∉ first.segmentText :=
  h.1 first (by simp [segments])

/-- The text of a template is, at each placement, what stands before its mark, the mark, and what
stands behind it. What comes earlier is part of what stands before. -/
theorem textAfter_eq_of_mem_gaps {gaps : List Gap} {first : Value} {counter : ℤ} {earlier : Text}
    {p : Placement} (h : p ∈ Gap.placements (earlier ++ first.segmentText) counter gaps) :
    p.before ++ (Placeholder.positional p.number ++ p.behind) =
      earlier ++ textAfter Placeholder.positional counter ⟨first, gaps⟩ := by
  induction gaps generalizing first counter earlier with
  | nil => cases h
  | cons gap gaps ih =>
    cases hparameter : gap.value.isParameter with
    | false =>
      rw [Gap.placements_cons_of_not_isParameter _ _ hparameter] at h
      rw [ih h, textAfter_cons_of_not_isParameter _ _ _ hparameter]
      simp
    | true =>
      rw [Gap.placements_cons_of_isParameter _ _ hparameter] at h
      rw [textAfter_cons_of_isParameter _ _ _ hparameter]
      rcases List.mem_cons.mp h with rfl | hlater
      · simp
      · rw [ih hlater]
        simp

/-- A placeholder of a template stands in its text between what is said to be before and behind
it. -/
theorem textAfter_eq_of_mem_placements {t : Template} {counter : ℤ} {p : Placement}
    (h : p ∈ t.placements counter) :
    p.before ++ (Placeholder.positional p.number ++ p.behind) =
      t.textAfter Placeholder.positional counter :=
  @textAfter_eq_of_mem_gaps t.gaps t.first counter [] p h

/-- In the text of a template without dollar signs of its own, each dollar sign begins the mark of a
placement, whose number is above the counter. -/
theorem exists_placement_of_gaps {gaps : List Gap} {first : Value} {counter : ℤ}
    {earlier front rest : Text} (havoids : Avoids ⟨first, gaps⟩ '$')
    (h : front ++ '$' :: rest = textAfter Placeholder.positional counter ⟨first, gaps⟩) :
    ∃ p ∈ Gap.placements (earlier ++ first.segmentText) counter gaps,
      p.before = earlier ++ front ∧ rest = Text.ofInt p.number ++ p.behind ∧
        counter < p.number := by
  induction gaps generalizing first counter earlier front with
  | nil =>
    rw [textAfter_nil] at h
    exact absurd (h ▸ by simp) (not_mem_of_avoids_nil havoids)
  | cons gap gaps ih =>
    obtain ⟨hfirst, hvalue, hrest⟩ := avoids_cons havoids
    cases hparameter : gap.value.isParameter with
    | false =>
      rw [textAfter_cons_of_not_isParameter _ _ _ hparameter] at h
      obtain ⟨front, rfl, h'⟩ := Text.exists_front_of_not_mem hfirst h
      obtain ⟨front, rfl, hlater⟩ := Text.exists_front_of_not_mem (hvalue hparameter) h'
      obtain ⟨p, hp, hbefore, hnumber⟩ :=
        @ih _ _ (earlier ++ first.segmentText ++ gap.value.shownAs []) _ hrest hlater
      refine ⟨p, ?_, by simpa using hbefore, hnumber⟩
      rwa [Gap.placements_cons_of_not_isParameter _ _ hparameter]
    | true =>
      rw [textAfter_cons_of_isParameter _ _ _ hparameter] at h
      obtain ⟨front, rfl, h'⟩ := Text.exists_front_of_not_mem hfirst h
      rw [Placeholder.positional, List.cons_append] at h'
      rw [Gap.placements_cons_of_isParameter _ _ hparameter]
      cases front with
      | nil =>
        obtain ⟨-, rfl⟩ := List.cons.inj h'
        exact ⟨_, List.mem_cons_self, by simp, rfl, by simp⟩
      | cons c front =>
        obtain ⟨rfl, htail⟩ := List.cons.inj h'
        obtain ⟨front, rfl, hlater⟩ :=
          Text.exists_front_of_not_mem (Text.dollar_not_mem_ofInt _) htail
        obtain ⟨p, hp, hbefore, hnumber, hlow⟩ := @ih _ _
          (earlier ++ first.segmentText ++ Placeholder.positional (counter + 1)) _ hrest hlater
        refine ⟨p, List.mem_cons_of_mem _ hp, ?_, hnumber, by omega⟩
        simpa [Placeholder.positional] using hbefore

variable {t : Template} {counter : ℤ}

/-- Every dollar sign in the text of a template begins one of its placeholders. -/
theorem exists_placement {front rest : Text} (havoids : t.Avoids '$')
    (h : front ++ '$' :: rest = t.textAfter Placeholder.positional counter) :
    ∃ p ∈ t.placements counter, p.before = front ∧ rest = Text.ofInt p.number ++ p.behind ∧
      counter < p.number :=
  @exists_placement_of_gaps t.gaps t.first counter [] front rest havoids h

/-- The text of a template keeps its placeholders apart if none of them is touched. -/
theorem apart_textAfter (hcounter : 0 ≤ counter) (ht : t.IsApart counter) :
    Placeholder.Apart (t.textAfter Placeholder.positional counter) := by
  intro front rest h
  obtain ⟨p, hp, rfl, rfl, hlow⟩ := exists_placement ht.avoids h
  obtain ⟨hbefore, hbehind⟩ := ht.apart p hp
  obtain ⟨hdigits, hafter⟩ := Text.takeWhile_ofInt_append (by omega : 0 ≤ p.number)
    (ht.apart p hp).isEnded
  rw [hdigits, hafter]
  exact ⟨Text.endsWord_eq_false_iff.mp hbefore, Text.ofInt_ne_nil _, hbehind⟩

/-! ## Numbers -/

/-- The placeholders of gaps have the numbers that follow the counter. -/
theorem number_placements_of_gaps (before : Text) (counter : ℤ) (gaps : List Gap) :
    (Gap.placements before counter gaps).map Placement.number =
      (List.range (Value.parametersOf (gaps.map Gap.value)).length).map
        fun i : ℕ => counter + 1 + i := by
  induction gaps generalizing before counter with
  | nil => rfl
  | cons gap gaps ih =>
    cases hparameter : gap.value.isParameter with
    | false =>
      rw [Gap.placements_cons_of_not_isParameter _ _ hparameter, ih, List.map_cons,
        Value.parametersOf_cons, hparameter]
      rfl
    | true =>
      rw [Gap.placements_cons_of_isParameter _ _ hparameter, List.map_cons, ih, List.map_cons,
        Value.parametersOf_cons, hparameter, if_pos rfl, List.length_cons,
        List.range_succ_eq_map, List.map_cons, List.map_map]
      simp only [Nat.cast_zero, add_zero, List.cons.injEq, true_and]
      refine List.map_congr_left fun i _ => ?_
      simp only [Function.comp_apply, Nat.succ_eq_add_one, Nat.cast_add, Nat.cast_one]
      ring

/-- The placeholders of a template have the numbers that follow the counter. -/
theorem number_placements (t : Template) (counter : ℤ) :
    (t.placements counter).map Placement.number =
      (List.range t.parameters.length).map fun i : ℕ => counter + 1 + i :=
  number_placements_of_gaps t.first.segmentText counter t.gaps

/-- The dollar signs in the text of a template begin the numerals of its placements, in order, if
the template has none of its own and no digit follows a mark. -/
theorem dollars_textAfter_of_gaps {gaps : List Gap} {first : Value} {before : Text} {counter : ℤ}
    (hcounter : 0 ≤ counter) (havoids : Avoids ⟨first, gaps⟩ '$')
    (hended : ∀ p ∈ Gap.placements before counter gaps, p.IsEnded) :
    Placeholder.dollars (textAfter Placeholder.positional counter ⟨first, gaps⟩) =
      ((Gap.placements before counter gaps).map Placement.number).map Text.ofInt := by
  induction gaps generalizing first before counter with
  | nil =>
    rw [textAfter_nil]
    exact Placeholder.dollars_eq_nil_iff.mpr (not_mem_of_avoids_nil havoids)
  | cons gap gaps ih =>
    obtain ⟨hfirst, hvalue, hrest⟩ := avoids_cons havoids
    cases hparameter : gap.value.isParameter with
    | false =>
      rw [Gap.placements_cons_of_not_isParameter _ _ hparameter] at hended ⊢
      rw [textAfter_cons_of_not_isParameter _ _ _ hparameter,
        Placeholder.dollars_append_of_not_mem hfirst,
        Placeholder.dollars_append_of_not_mem (hvalue hparameter), ih hcounter hrest hended]
    | true =>
      rw [Gap.placements_cons_of_isParameter _ _ hparameter] at hended ⊢
      rw [List.forall_mem_cons] at hended
      have hnumber := (Text.takeWhile_ofInt_append (by omega : 0 ≤ counter + 1) hended.1).1
      rw [textAfter_cons_of_isParameter _ _ _ hparameter,
        Placeholder.dollars_append_of_not_mem hfirst, Placeholder.positional, List.cons_append,
        Placeholder.dollars, if_pos rfl, hnumber,
        Placeholder.dollars_append_of_not_mem (Text.dollar_not_mem_ofInt _),
        ih (by omega) hrest hended.2]
      rfl

/-- The dollar signs in the text of a template are those of its placeholders, each with the digits
of its number, if no digit follows a placeholder. -/
theorem dollars_textAfter (hcounter : 0 ≤ counter) (ht : t.IsEnded counter) :
    Placeholder.dollars (t.textAfter Placeholder.positional counter) =
      ((t.placements counter).map Placement.number).map Text.ofInt :=
  dollars_textAfter_of_gaps hcounter ht.avoids ht.ended

/-! ## Renaming -/

/-- The text of a template without dollar signs of its own, where no digit follows a mark, is
renamed to the one with named marks. -/
theorem renamed_textAfter_of_gaps {gaps : List Gap} {first : Value} {before : Text} {counter : ℤ}
    (hcounter : 0 ≤ counter) (havoids : Avoids ⟨first, gaps⟩ '$')
    (hended : ∀ p ∈ Gap.placements before counter gaps, p.IsEnded) :
    Placeholder.renamed (textAfter Placeholder.positional counter ⟨first, gaps⟩) =
      textAfter Placeholder.Style.named.mark counter ⟨first, gaps⟩ := by
  induction gaps generalizing first before counter with
  | nil =>
    rw [textAfter_nil, textAfter_nil]
    exact Placeholder.renamed_of_not_mem (not_mem_of_avoids_nil havoids)
  | cons gap gaps ih =>
    obtain ⟨hfirst, hvalue, hrest⟩ := avoids_cons havoids
    cases hparameter : gap.value.isParameter with
    | false =>
      rw [Gap.placements_cons_of_not_isParameter _ _ hparameter] at hended
      rw [textAfter_cons_of_not_isParameter _ _ _ hparameter,
        textAfter_cons_of_not_isParameter _ _ _ hparameter,
        Placeholder.renamed_append_of_not_mem hfirst,
        Placeholder.renamed_append_of_not_mem (hvalue hparameter), ih hcounter hrest hended]
    | true =>
      rw [Gap.placements_cons_of_isParameter _ _ hparameter, List.forall_mem_cons] at hended
      obtain ⟨hnumber, hafter⟩ :=
        Text.takeWhile_ofInt_append (by omega : 0 ≤ counter + 1) hended.1
      have hvalue : Text.numeralValue (Text.ofInt (counter + 1)) = counter + 1 := by
        obtain ⟨n, hn⟩ := Int.eq_ofNat_of_zero_le (by omega : 0 ≤ counter + 1)
        rw [hn]
        exact congrArg Nat.cast (Text.numeralValue_ofNat n)
      rw [textAfter_cons_of_isParameter _ _ _ hparameter,
        textAfter_cons_of_isParameter _ _ _ hparameter,
        Placeholder.renamed_append_of_not_mem hfirst, Placeholder.positional, List.cons_append,
        Placeholder.renamed_dollar, hnumber, hafter, hvalue, ih (by omega) hrest hended.2]
      rfl

/-- The renamed text of a template is the text that it yields with named placeholders, if no digit
follows a placeholder. -/
theorem renamed_textAfter (hcounter : 0 ≤ counter) (ht : t.IsEnded counter) :
    Placeholder.renamed (t.textAfter Placeholder.positional counter) =
      t.textAfter Placeholder.Style.named.mark counter :=
  renamed_textAfter_of_gaps hcounter ht.avoids ht.ended

/-- A character that a template avoids does not stand in its text, unless placeholders hold it. -/
theorem not_mem_textAfter {c : Char} (hdollar : c ≠ '$') (hnumber : ∀ n, c ∉ Text.ofInt n)
    (havoids : t.Avoids c) : c ∉ t.textAfter Placeholder.positional counter := by
  obtain ⟨first, gaps⟩ := t
  induction gaps generalizing first counter with
  | nil =>
    rw [textAfter_nil]
    exact not_mem_of_avoids_nil havoids
  | cons gap gaps ih =>
    obtain ⟨hfirst, hvalue, hrest⟩ := avoids_cons havoids
    cases hparameter : gap.value.isParameter with
    | false =>
      rw [textAfter_cons_of_not_isParameter _ _ _ hparameter]
      simp only [List.mem_append, not_or]
      exact ⟨hfirst, hvalue hparameter, ih _ hrest⟩
    | true =>
      rw [textAfter_cons_of_isParameter _ _ _ hparameter]
      simp only [Placeholder.positional, List.mem_append, List.mem_cons, not_or]
      exact ⟨hfirst, ⟨hdollar, hnumber _⟩, ih _ hrest⟩

end Template

end SqlComposer
