import SqlComposer.Proofs.Occurrences

/-!
# What renaming leaves alone

A text is renamed unless it holds a placeholder with too long a numeral; no other number of digits,
and no script that they are written in, keeps it from being renamed. Of the dollar signs with digits
behind them, exactly the placeholders of parameters are written anew. Each other one stays as it is,
between what becomes of the text before it and of that behind it.
-/

namespace SqlComposer.Placeholder

/-- The first placeholder of a text whose numeral is too long stands between two others. -/
structure HoldsFirstLong (t front digits back : Text) : Prop where
  /-- The placeholder stands there. -/
  holds : Holds t front digits back
  /-- Its numeral is too long. -/
  long : digitLimit < digits.length
  /-- Those of the placeholders before it are not. -/
  first : ∀ front' digits' back', Holds t front' digits' back' → front'.length < front.length →
    digits'.length ≤ digitLimit

/-- A text has a named form exactly if the numerals of its placeholders are short enough. -/
theorem rename_eq_ok_iff {count : ℕ} {t out : Text} :
    rename count t = .ok out ↔
      (∀ front digits back, Holds t front digits back → digits.length ≤ digitLimit) ∧
        (pieces t).flatMap (Piece.rewritten count) = out := by
  rw [← forall_isShort_iff, rename]
  rcases forall_isShort_or_exists (pieces t) with
    hall | ⟨before, part, after, hparts, hbefore, hpart⟩
  · rw [renameAll_eq_ok hall, Except.ok.injEq]
    exact ⟨fun h => ⟨hall, h⟩, And.right⟩
  · obtain ⟨digits, -, herror⟩ := renameAll_eq_error hbefore hpart count after
    rw [hparts, herror]
    exact ⟨nofun, fun h => absurd (h.1 part (by simp)) hpart⟩

/-- A placeholder that stands before another one is a part before it. -/
theorem mem_of_length_lt {before before' after after' : List Piece} {part part' : Piece}
    (h : before ++ part :: after = before' ++ part' :: after')
    (hlt : (before'.flatMap Piece.text).length < (before.flatMap Piece.text).length) :
    part' ∈ before := by
  rcases List.append_eq_append_iff.mp h with ⟨more, rfl, -⟩ | ⟨more, rfl, hmore⟩
  · simp at hlt
  · cases more with
    | nil => simp at hlt
    | cons next more =>
      obtain ⟨rfl, -⟩ := List.cons.inj hmore
      simp

/-- The failure is that of the first numeral that is too long. -/
theorem rename_eq_error_iff {count : ℕ} {t : Text} {e : NumeralError} :
    rename count t = .error e ↔
      ∃ front digits back, HoldsFirstLong t front digits back ∧ .unreadable digits.length = e := by
  rw [rename]
  constructor
  · intro h
    rcases forall_isShort_or_exists (pieces t) with
      hall | ⟨before, part, after, hparts, hbefore, hpart⟩
    · cases (renameAll_eq_ok hall).symm.trans h
    · obtain ⟨digits, rfl, herror⟩ := renameAll_eq_error hbefore hpart count after
      rw [hparts, herror] at h
      cases h
      refine ⟨_, digits, _, ⟨holds_iff.mpr ⟨before, after, hparts, rfl, rfl⟩,
        Nat.lt_of_not_le hpart, fun front' digits' back' hholds hlt => ?_⟩, rfl⟩
      obtain ⟨before', after', hparts', rfl, -⟩ := holds_iff.mp hholds
      exact hbefore _ (mem_of_length_lt (hparts.symm.trans hparts') hlt)
  · rintro ⟨front, digits, back, ⟨hholds, hlong, hfirst⟩, rfl⟩
    obtain ⟨before, after, hparts, rfl, -⟩ := holds_iff.mp hholds
    have hbefore : ∀ part ∈ before, part.IsShort := by
      rintro (digits' | c) hpart
      · obtain ⟨before', between, rfl⟩ := List.append_of_mem hpart
        have hsplit : pieces t =
            before' ++ .number digits' :: (between ++ .number digits :: after) := by
          rw [hparts, List.append_assoc, List.cons_append]
        exact hfirst _ digits' _ (holds_iff.mpr ⟨before', _, hsplit, rfl, rfl⟩)
          (by simp [Piece.text])
      · trivial
    have hpart : ¬(Piece.number digits).IsShort := Nat.not_le_of_lt hlong
    obtain ⟨_, ⟨⟩, herror⟩ := renameAll_eq_error hbefore hpart count after
    rw [hparts, herror]

/-- A text has a named form exactly if no numeral of its placeholders is too long; otherwise the
first one that is too long is the failure. Every dollar sign with digits behind it is written as the
named placeholder if it is the placeholder of a parameter, and else is left as it is, between the
named forms of what stands before it and behind it. -/
theorem rename_outcome (count : ℕ) (t : Text) :
    ((∃ out, rename count t = .ok out) ↔
      ∀ front digits back, Holds t front digits back → digits.length ≤ digitLimit) ∧
    (∀ e, rename count t = .error e ↔
      ∃ front digits back, HoldsFirstLong t front digits back ∧ .unreadable digits.length = e) ∧
    ∀ out, rename count t = .ok out → ∀ front digits back,
      t = front ++ '$' :: (digits ++ back) → IsNumber digits → startsDecimal back = false →
      ∃ before number after, pieces t = before ++ number ++ after ∧
        before.flatMap Piece.text = front ∧ number.flatMap Piece.text = '$' :: digits ∧
        after.flatMap Piece.text = back ∧
        out = before.flatMap (Piece.rewritten count) ++ number.flatMap (Piece.rewritten count) ++
          after.flatMap (Piece.rewritten count) ∧
        (StandsAlone front digits back → NumbersParameter count digits →
          number.flatMap (Piece.rewritten count) =
            named ((Text.numeralValue digits : ℤ) - 1)) ∧
        (¬(StandsAlone front digits back ∧ NumbersParameter count digits) →
          number.flatMap (Piece.rewritten count) = '$' :: digits) := by
  refine ⟨?_, fun e => rename_eq_error_iff, ?_⟩
  · simp only [rename_eq_ok_iff, exists_and_left, exists_eq', and_true]
  · rintro out hout front digits back rfl hnumber hback
    obtain ⟨-, rfl⟩ := rename_eq_ok_iff.mp hout
    obtain ⟨before, number, after, hparts, rfl, rfl, hcases⟩ :=
      exists_pieces_eq front hnumber hback
    refine ⟨before, number, after, hparts, rfl, ?_, rfl, ?_, ?_, ?_⟩
    · rcases hcases with ⟨-, rfl⟩ | ⟨-, rfl⟩ <;> simp [Piece.text]
    · rw [hparts, List.flatMap_append, List.flatMap_append]
    · intro hstands hparameter
      obtain ⟨-, rfl⟩ := hcases.resolve_right fun h => h.1 hstands
      simp [Piece.rewritten, hparameter]
    · intro hother
      rcases hcases with ⟨hstands, rfl⟩ | ⟨-, rfl⟩
      · have hparameter : ¬NumbersParameter count digits := fun h => hother ⟨hstands, h⟩
        simp [Piece.rewritten, hparameter]
      · simp [Piece.rewritten]

/-- A number that no parameter has, in digits of another script, behind a placeholder that is
renamed and before a number in quotes of dollar signs. -/
theorem rename_outcome_quoted :
    let t := "a = $1 AND b = $٣ AND c = $$1$$".toList
    let front := "a = $1 AND b = ".toList
    let back := " AND c = $$1$$".toList
    t = front ++ '$' :: (['٣'] ++ back) ∧ IsNumber ['٣'] ∧ startsDecimal back = false ∧
      rename 1 t = .ok "a = :p0 AND b = $٣ AND c = $$1$$".toList ∧
      ∃ before number after, pieces t = before ++ number ++ after ∧
        before.flatMap Piece.text = front ∧ after.flatMap Piece.text = back ∧
        number.flatMap (Piece.rewritten 1) = ['$', '٣'] := by
  intro t front back
  have hnumber : IsNumber ['٣'] := ⟨by simp, List.forall_mem_singleton.mpr rfl⟩
  have hrename : rename 1 t = .ok "a = :p0 AND b = $٣ AND c = $$1$$".toList := by
    with_unfolding_all rfl
  obtain ⟨-, -, hkept⟩ := rename_outcome 1 t
  obtain ⟨before, number, after, hparts, hbefore, -, hafter, -, -, hother⟩ :=
    hkept _ hrename front ['٣'] back rfl hnumber rfl
  have hparameter : ¬NumbersParameter 1 ['٣'] := by decide +kernel
  exact ⟨rfl, hnumber, rfl, hrename, before, number, after, hparts, hbefore, hafter,
    hother fun h => hparameter h.2⟩

/-- A dollar sign with 4301 digits behind it keeps a text without parameters from being renamed,
although it numbers none. -/
theorem rename_error_of_long_numeral :
    let digits := List.replicate 4301 '1'
    ¬NumbersParameter 0 digits ∧ ¬∃ out, rename 0 ('$' :: digits) = .ok out := by
  intro digits
  have hnumber : IsNumber digits := by
    refine ⟨List.cons_ne_nil '1' _, fun c hc => ?_⟩
    rw [List.eq_of_mem_replicate hc]
    rfl
  have hholds : Holds ('$' :: digits) [] digits [] :=
    ⟨by simp, by simp, hnumber, rfl⟩
  refine ⟨fun h => absurd h.1 (Nat.not_le_of_lt (Nat.lt_succ_of_le h.2)), ?_⟩
  rintro ⟨out, hout⟩
  have hshort := (rename_eq_ok_iff.mp hout).1 [] digits [] hholds
  rw [List.length_replicate] at hshort
  exact absurd hshort (by decide)

end SqlComposer.Placeholder
