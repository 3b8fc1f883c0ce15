import Mathlib.Algebra.Group.Nat.Defs
import SqlComposer.Placeholder.Basic
import SqlComposer.Proofs.Discarded
import SqlComposer.Proofs.Renaming

/-!
# Placeholders that stand apart

A placeholder stands apart when no word character touches it. If every dollar sign of a text begins
such a placeholder, all of them are found when the text is given named placeholders, so that this
renames the text. Texts that are cut at blanks and commas, or joined by them, keep their
placeholders apart.
-/

namespace SqlComposer

namespace Text

/-! ## Words -/

/-- Whether a text ends with a word character. -/
def endsWord (t : Text) : Bool :=
  t.getLast?.any isWord

/-- A text does not end in a word exactly when its last character, if any, belongs to no word. -/
theorem endsWord_eq_false_iff {t : Text} :
    endsWord t = false ↔ ∀ c ∈ t.getLast?, isWord c = false := by
  rw [endsWord]
  cases t.getLast? <;> simp

/-- A code point in one of the ranges is found if these rise. -/
theorem inRanges_of_mem {ranges : List (ℕ × ℕ)} (hrising : (ranges.map Prod.fst).IsChain (· ≤ ·))
    {range : ℕ × ℕ} (h : range ∈ ranges) {n : ℕ} (hlow : range.1 ≤ n) (hhigh : n ≤ range.2) :
    inRanges ranges n = true := by
  rw [List.isChain_iff_pairwise] at hrising
  induction ranges with
  | nil => cases h
  | cons first ranges ih =>
    obtain ⟨hfirst, hrest⟩ := List.pairwise_cons.mp hrising
    rcases List.mem_cons.mp h with rfl | hlater
    · simp [inRanges, Nat.not_lt.mpr hlow, hhigh]
    · have hle : first.1 ≤ n := (hfirst _ (List.mem_map_of_mem hlater)).trans hlow
      simp [inRanges, Nat.not_lt.mpr hle, ih hrest hlater]

/-- The starts of blocks of ten code points that are left when every range in turn takes off the
front those of the blocks within it. -/
def startsLeft : List (ℕ × ℕ) → List ℕ → List ℕ
  | [], starts => starts
  | (low, high) :: ranges, starts =>
    startsLeft ranges (starts.dropWhile fun start => low ≤ start && start + 9 ≤ high)

/-- If no start is left, each start has nine more positions within one of the ranges. -/
theorem exists_range_of_startsLeft {ranges : List (ℕ × ℕ)} {starts : List ℕ}
    (h : startsLeft ranges starts = []) :
    ∀ start ∈ starts, ∃ range ∈ ranges, range.1 ≤ start ∧ start + 9 ≤ range.2 := by
  induction ranges generalizing starts with
  | nil =>
    obtain rfl : starts = [] := h
    simp
  | cons first ranges ih =>
    intro start hstart
    rw [← List.takeWhile_append_dropWhile (l := starts)
      (p := fun start => decide (first.1 ≤ start) && decide (start + 9 ≤ first.2)),
      List.mem_append] at hstart
    rcases hstart with htaken | hleft
    · exact ⟨first, List.mem_cons_self, by simpa using List.mem_takeWhile_imp htaken⟩
    · obtain ⟨range, hrange, hblock⟩ := ih h start hleft
      exact ⟨range, List.mem_cons_of_mem _ hrange, hblock⟩

/-- Every decimal digit is a word character. -/
theorem isWord_of_isDecimal {c : Char} (h : isDecimal c = true) : isWord c = true := by
  have hrising : (wordRanges.map Prod.fst).IsChain (· ≤ ·) := by decide +kernel
  have hblocks : startsLeft wordRanges decimalZeros = [] := by decide +kernel
  simp only [isDecimal, digitValue?, Option.isSome_map, List.find?_isSome, Bool.and_eq_true,
    decide_eq_true_eq] at h
  obtain ⟨start, hstart, hlow, hhigh⟩ := h
  obtain ⟨range, hrange, hbegin, hend⟩ := exists_range_of_startsLeft hblocks start hstart
  exact inRanges_of_mem hrising hrange (hbegin.trans hlow) (hhigh.trans hend)

/-! ## Numerals -/

/-- All characters of a numeral are ASCII digits. -/
theorem isDigit_of_mem_ofNat {n : ℕ} {c : Char} (h : c ∈ ofNat n) : c.isDigit = true :=
  Nat.isDigit_of_mem_toDigits (by decide) (by decide) h

/-- The digits of a numeral are decimal digits. -/
theorem isDecimal_of_mem_ofNat {n : ℕ} {c : Char} (h : c ∈ ofNat n) : isDecimal c = true :=
  isDecimal_of_isDigit (isDigit_of_mem_ofNat h)

/-- A numeral denotes the number whose numeral it is. -/
theorem numeralValue_ofNat (n : ℕ) : numeralValue (ofNat n) = n := by
  have hvalues : (ofNat n).filterMap digitValue? = (ofNat n).map (·.toNat - 48) := by
    rw [← List.filterMap_eq_map]
    exact List.filterMap_congr fun c hc => digitValue?_of_isDigit (isDigit_of_mem_ofNat hc)
  calc numeralValue (ofNat n)
      = Nat.ofDigitChars 10 (ofNat n) 0 := by
        rw [numeralValue, digitsValue, hvalues, List.foldl_map, Nat.ofDigitChars_eq_foldl]
        rfl
    _ = n := Nat.ofDigitChars_ten_toDigits

/-- The numeral of a number is read as the number, unless it is too long. -/
theorem readNumeral_ofNat {n : ℕ} (h : n < 10 ^ digitLimit) : readNumeral (ofNat n) = .ok n := by
  have hlength : (ofNat n).length ≤ digitLimit :=
    (Nat.length_toDigits_le_iff (by decide) (by decide)).mpr h
  rw [readNumeral, if_pos hlength, numeralValue_ofNat]

end Text

namespace Placeholder

/-- Every dollar sign of a text begins a placeholder, which no word character touches. -/
def Apart (t : Text) : Prop :=
  ∀ front rest, front ++ '$' :: rest = t →
    (∀ c ∈ front.getLast?, Text.isWord c = false) ∧
      rest.takeWhile Text.isDecimal ≠ [] ∧
        Text.startsWord (rest.dropWhile Text.isDecimal) = false

/-! ## Parts and joined texts -/

/-- Nothing has to stand apart in a text without dollar signs. -/
theorem apart_of_not_mem {t : Text} (h : '$' ∉ t) : Apart t := by
  rintro front rest rfl
  exact absurd (by simp) h

/-- A text keeps its placeholders apart when its front is cut off. -/
theorem Apart.of_append {front t : Text} (h : Apart (front ++ t)) : Apart t := by
  rintro before rest rfl
  obtain ⟨hbefore, hdigits, hafter⟩ := h (front ++ before) rest (by simp)
  refine ⟨fun c hc => hbefore c ?_, hdigits, hafter⟩
  rw [List.getLast?_append, Option.mem_def.mp hc, Option.some_or]
  exact rfl

/-- What stands apart in a text does so behind its first character. -/
theorem Apart.of_cons {c : Char} {t : Text} (h : Apart (c :: t)) : Apart t := by
  rw [← List.singleton_append] at h
  exact h.of_append

/-- What follows a placeholder keeps its placeholders apart. -/
theorem Apart.of_dollar {rest : Text} (h : Apart ('$' :: rest)) :
    Apart (rest.dropWhile Text.isDecimal) := by
  rw [← dollar_append_digits] at h
  exact h.of_append

/-- A part of a text keeps its placeholders apart. -/
theorem Apart.of_isPart {part t : Text} (h : Apart t) (hpart : Text.IsPart part t) :
    Apart part := by
  obtain ⟨cut, back, rfl, hback⟩ := hpart
  rw [List.append_assoc] at h
  rintro front rest rfl
  obtain ⟨hfront, hdigits, hafter⟩ := h.of_append front (rest ++ back) (by simp)
  have hstart := startsDecimal_of_separates hback
  rw [takeWhile_append_of_not_startsDecimal hstart] at hdigits
  rw [dropWhile_append_of_not_startsDecimal rest hstart] at hafter
  refine ⟨hfront, hdigits, ?_⟩
  cases hrest : rest.dropWhile Text.isDecimal with
  | nil => rfl
  | cons c after =>
    rw [hrest] at hafter
    exact hafter

/-- A front that holds no dollar sign and ends with no word character keeps placeholders apart. -/
theorem Apart.prepend {front t : Text} (h : Apart t) (hdollar : '$' ∉ front)
    (hlast : Text.endsWord front = false) : Apart (front ++ t) := by
  rw [Text.endsWord_eq_false_iff] at hlast
  intro before rest heq
  rcases List.append_eq_append_iff.mp heq with ⟨more, rfl, hrest⟩ | ⟨more, rfl, rfl⟩
  · cases more with
    | nil =>
      obtain ⟨-, hnumber⟩ := h [] rest (by simpa using hrest)
      exact ⟨by simpa using hlast, hnumber⟩
    | cons c more =>
      obtain ⟨rfl, -⟩ := List.cons.inj hrest
      exact absurd (by simp) hdollar
  · obtain ⟨hmore, hnumber⟩ := h more rest rfl
    refine ⟨fun c hc => ?_, hnumber⟩
    cases more with
    | nil => exact hlast c (by simpa using hc)
    | cons d more =>
      rw [List.getLast?_append_of_ne_nil _ (List.cons_ne_nil d more)] at hc
      exact hmore c hc

/-- Texts that a blank or a comma separates keep their placeholders apart. -/
theorem Apart.append {s t : Text} (hs : Apart s) (ht : Apart t)
    (hhead : ∀ c ∈ t.head?, Text.separates c = true) : Apart (s ++ t) := by
  intro front rest heq
  rcases List.append_eq_append_iff.mp heq with ⟨more, rfl, hrest⟩ | ⟨more, rfl, rfl⟩
  · cases more with
    | nil =>
      -- the text behind does not begin with a dollar sign
      obtain rfl : t = '$' :: rest := by simpa using hrest.symm
      exact absurd rfl (Text.not_isWord_of_separates (hhead '$' rfl)).2.2
    | cons c more =>
      obtain ⟨rfl, htail⟩ := List.cons.inj hrest
      obtain rfl : rest = more ++ t := htail
      obtain ⟨hfront, hdigits, hafter⟩ := hs front more rfl
      have hstart := startsDecimal_of_separates hhead
      rw [takeWhile_append_of_not_startsDecimal hstart,
        dropWhile_append_of_not_startsDecimal more hstart]
      refine ⟨hfront, hdigits, ?_⟩
      cases hmore : more.dropWhile Text.isDecimal with
      | nil =>
        cases t with
        | nil => rfl
        | cons d t => exact (Text.not_isWord_of_separates (hhead d rfl)).1
      | cons d after =>
        rw [hmore] at hafter
        exact hafter
  · obtain ⟨hmore, hnumber⟩ := ht more rest rfl
    refine ⟨fun c hc => ?_, hnumber⟩
    cases more with
    | nil => exact absurd rfl (Text.not_isWord_of_separates (hhead '$' rfl)).2.2
    | cons d more =>
      rw [List.getLast?_append_of_ne_nil _ (List.cons_ne_nil d more)] at hc
      exact hmore c hc

/-- Joined texts keep their placeholders apart. -/
theorem apart_intercalate {separator : Text} (hseparator : separator.IsSeparator)
    {texts : List Text} (h : ∀ t ∈ texts, Apart t) : Apart (separator.intercalate texts) := by
  have hdollar := Text.dollar_not_mem_of_separates hseparator.separates
  have hlast : Text.endsWord separator = false := Text.endsWord_eq_false_iff.mpr fun c hc =>
    (Text.not_isWord_of_separates (hseparator.separates c (List.mem_of_getLast? hc))).1
  induction texts with
  | nil => exact apart_of_not_mem (by simp)
  | cons t texts ih =>
    rw [List.forall_mem_cons] at h
    cases texts with
    | nil => simpa using h.1
    | cons next texts =>
      have hrest := (ih h.2).prepend hdollar hlast
      rw [List.intercalate_cons_cons, List.append_assoc]
      refine h.1.append hrest fun c hc => hseparator.separates c ?_
      rw [List.head?_append_of_ne_nil _ hseparator.ne_nil] at hc
      exact List.mem_of_mem_head? hc

/-- What comes of a fragment for a clause keeps the placeholders of the fragment apart. -/
theorem Apart.of_isConnectedPart {entry t : Text} (h : Apart t)
    (hentry : Fragment.IsConnectedPart entry t) : Apart entry := by
  obtain ⟨part, hpart, hentry⟩ := hentry
  have hapart := h.of_isPart hpart
  rcases hentry with rfl | rfl | rfl
  · exact hapart
  · have hfront : Apart (['A', 'N', 'D', ' '] ++ part) :=
      hapart.prepend (by decide) (by decide +kernel)
    exact hfront
  · have hfront : Apart (['O', 'R', ' '] ++ part) :=
      hapart.prepend (by decide) (by decide +kernel)
    exact hfront

/-! ## Named placeholders -/

/-- All digits behind a dollar sign belong to its placeholder, if placeholders stand apart. -/
theorem Apart.afterDollar?_eq {rest : Text} (h : Apart ('$' :: rest)) :
    afterDollar? rest =
      some (rest.takeWhile Text.isDecimal, rest.dropWhile Text.isDecimal) := by
  obtain ⟨-, hdigits, hafter⟩ := h [] rest rfl
  rw [afterDollar?]
  simp [hdigits, hafter]

/-- No dollar sign stands directly behind a placeholder that stands apart. -/
theorem Apart.head?_dropWhile_ne {rest : Text} (h : Apart ('$' :: rest)) :
    (rest.dropWhile Text.isDecimal).head? ≠ some '$' := by
  intro hhead
  obtain ⟨-, hdigits, -⟩ := h [] rest rfl
  obtain ⟨after, hafter⟩ := List.head?_eq_some_iff.mp hhead
  have hsplit := List.takeWhile_append_dropWhile (p := Text.isDecimal) (l := rest)
  rw [hafter] at hsplit
  obtain ⟨hfront, -⟩ := h ('$' :: rest.takeWhile Text.isDecimal) after (by simp [hsplit])
  have hlast := List.getLast?_eq_getLast_of_ne_nil hdigits
  have hfalse := hfront _ (by
    rw [← List.singleton_append, List.getLast?_append_of_ne_nil _ hdigits]
    exact hlast)
  rw [Text.isWord_of_isDecimal (List.mem_takeWhile_imp (List.getLast_mem hdigits))] at hfalse
  cases hfalse

/-- Every dollar sign of a text begins the placeholder of one of so many parameters. -/
def InRange (count : ℕ) (t : Text) : Prop :=
  ∀ digits ∈ dollars t, ∃ n, 1 ≤ n ∧ n ≤ count ∧ digits = Text.ofNat n

/-- Numbers that are in range in a text are so behind its first character. -/
theorem InRange.of_cons {count : ℕ} {c : Char} {t : Text} (h : InRange count (c :: t)) :
    InRange count t := by
  intro digits hdigits
  refine h digits ?_
  rw [dollars]
  split
  · exact List.mem_cons_of_mem _ hdigits
  · exact hdigits

/-- Numbers that are in range in a text are so behind any part at its start. -/
theorem InRange.of_append {count : ℕ} {front t : Text} (h : InRange count (front ++ t)) :
    InRange count t := by
  induction front with
  | nil => exact h
  | cons c front ih => exact ih h.of_cons

/-- Numbers that are in range in a text are so behind a dollar sign and its digits. -/
theorem InRange.of_dollar {count : ℕ} {rest : Text} (h : InRange count ('$' :: rest)) :
    InRange count (rest.dropWhile Text.isDecimal) := by
  rw [← dollar_append_digits] at h
  exact h.of_append

/-- Giving a text named placeholders renames it, if its placeholders stand apart and number
parameters. -/
theorem renameAll_piecesFrom {count : ℕ} (hcount : count < 10 ^ digitLimit) {t : Text}
    (hapart : Apart t) (hrange : InRange count t) {blocked : Bool}
    (hblocked : t.head? = some '$' → blocked = false) :
    renameAll count (piecesFrom blocked t) = .ok (renamed t) := by
  induction t using renamed.induct generalizing blocked with
  | case1 => simp [piecesFrom, renameAll]
  | case2 rest ih =>
    obtain ⟨n, hlow, hhigh, hdigits⟩ := hrange (rest.takeWhile Text.isDecimal) (by simp [dollars])
    have hafter : renameAll count (piecesFrom true (rest.dropWhile Text.isDecimal)) =
        .ok (renamed (rest.dropWhile Text.isDecimal)) :=
      ih hapart.of_dollar hrange.of_dollar fun hhead => absurd hhead hapart.head?_dropWhile_ne
    have hnumber : (Piece.number (rest.takeWhile Text.isDecimal)).rename count =
        .ok (named ((n : ℤ) - 1)) := by
      rw [Piece.rename, hdigits, Text.readNumeral_ofNat (by omega)]
      exact if_pos ⟨hlow, hhigh⟩
    have hpieces : piecesFrom blocked ('$' :: rest) =
        .number (rest.takeWhile Text.isDecimal) ::
          piecesFrom true (rest.dropWhile Text.isDecimal) := by
      rw [piecesFrom, if_pos ⟨rfl, hblocked rfl⟩]
      split
      · next digits after hfound =>
        cases hapart.afterDollar?_eq.symm.trans hfound
        rfl
      · next hfound => cases hapart.afterDollar?_eq.symm.trans hfound
    rw [hpieces, renameAll, hnumber, hafter, renamed_dollar, hdigits, Text.numeralValue_ofNat]
    rfl
  | case3 c rest hc ih =>
    have hnext : rest.head? = some '$' → blocks c = false := by
      intro hhead
      obtain ⟨after, rfl⟩ := List.head?_eq_some_iff.mp hhead
      obtain ⟨hfront, -⟩ := hapart [c] after rfl
      simpa [blocks, hc] using hfront
    rw [piecesFrom, if_neg (fun h => hc h.1), renameAll,
      ih hapart.of_cons hrange.of_cons hnext, renamed_cons_of_ne hc]
    rfl

/-- A text whose placeholders stand apart and number parameters is renamed when it is given named
placeholders. -/
theorem rename_eq_ok {count : ℕ} (hcount : count < 10 ^ digitLimit) {t : Text} (hapart : Apart t)
    (hrange : InRange count t) : rename count t = .ok (renamed t) :=
  renameAll_piecesFrom hcount hapart hrange fun _ => rfl

end Placeholder

end SqlComposer
