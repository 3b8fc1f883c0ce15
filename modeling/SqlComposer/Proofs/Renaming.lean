import SqlComposer.Fragment
import SqlComposer.Clauses
import SqlComposer.Proofs.Dollars

/-!
# Renamed texts

Renaming writes every dollar sign with the digits behind it as the named placeholder of their
number. Neither form begins or ends with a blank or a comma, and none holds a line feed. So joined
texts are renamed one by one, and a renamed text begins and ends with a blank or a comma where the
text does.
-/

namespace SqlComposer

namespace Text

/-- An ASCII digit is a digit of the first script. -/
theorem digitValue?_of_isDigit {c : Char} (h : c.isDigit = true) :
    digitValue? c = some (c.toNat - 48) := by
  obtain ⟨hlow, hhigh⟩ : 0x30 ≤ c.toNat ∧ c.toNat ≤ 0x39 := Char.isDigit_iff_toNat.mp h
  have hfound : decimalZeros.find? (fun start => start ≤ c.toNat && c.toNat ≤ start + 9) =
      some 0x30 := List.find?_cons_of_pos (by simpa using ⟨hlow, hhigh⟩)
  rw [digitValue?, hfound, Option.map_some]

/-- Digits are decimal digits. -/
theorem isDecimal_of_isDigit {c : Char} (h : c.isDigit = true) : isDecimal c = true := by
  rw [isDecimal, digitValue?_of_isDigit h, Option.isSome_some]

/-- The numeral of an integer consists of digits, with a minus sign if it is negative. -/
theorem eq_minus_or_isDigit_of_mem_ofInt {n : Int} {c : Char} (h : c ∈ ofInt n) :
    c = '-' ∨ c.isDigit = true := by
  cases n with
  | ofNat n => exact .inr (Nat.isDigit_of_mem_toDigits (by decide) (by decide) h)
  | negSucc n =>
    rcases List.mem_cons.mp h with rfl | hdigit
    · exact .inl rfl
    · exact .inr (Nat.isDigit_of_mem_toDigits (by decide) (by decide) hdigit)

/-- A numeral is not empty. -/
theorem ofInt_ne_nil (n : Int) : ofInt n ≠ [] := by
  cases n with
  | ofNat n => exact Nat.toDigits_ne_nil
  | negSucc n => simp [ofInt]

end Text

namespace Placeholder

/-- A text with every dollar sign and the digits behind it written as the named placeholder of the
number that the digits denote. -/
def renamed : Text → Text
  | [] => []
  | c :: rest =>
    if c = '$' then
      named ((Text.numeralValue (rest.takeWhile Text.isDecimal) : Int) - 1) ++
        renamed (rest.dropWhile Text.isDecimal)
    else c :: renamed rest
termination_by t => t.length
decreasing_by
  · have := (List.dropWhile_suffix (l := rest) Text.isDecimal).length_le
    simp only [List.length_cons]
    omega
  · simp

/-- Nothing is renamed to nothing. -/
@[simp] theorem renamed_nil : renamed [] = [] := by
  rw [renamed]

/-- A first character that is no dollar sign stays. -/
theorem renamed_cons_of_ne {c : Char} (hc : c ≠ '$') (t : Text) :
    renamed (c :: t) = c :: renamed t := by
  rw [renamed, if_neg hc]

/-- A dollar sign and its digits are renamed to a name, and what follows them is renamed by itself.
-/
theorem renamed_dollar (t : Text) :
    renamed ('$' :: t) = named ((Text.numeralValue (t.takeWhile Text.isDecimal) : Int) - 1) ++
      renamed (t.dropWhile Text.isDecimal) := by
  rw [renamed, if_pos rfl]

/-- A name is a colon, a letter and a numeral. -/
theorem named_eq (index : Int) : named index = [':', 'p'] ++ Text.ofInt index := rfl

/-- What comes of a dollar sign begins with a colon. -/
theorem exists_renamed_dollar (t : Text) : ∃ rest, renamed ('$' :: t) = ':' :: 'p' :: rest :=
  ⟨_, renamed_dollar t⟩

/-- Only the empty text is renamed to the empty text. -/
theorem renamed_eq_nil_iff {t : Text} : renamed t = [] ↔ t = [] := by
  cases t with
  | nil => simp
  | cons c t =>
    by_cases hc : c = '$'
    · obtain ⟨rest, hrest⟩ := exists_renamed_dollar t
      simp [hc, hrest]
    · simp [renamed_cons_of_ne hc]

/-- The first character stays, except that a dollar sign becomes a colon. -/
theorem head?_renamed (t : Text) :
    (renamed t).head? = t.head?.map fun c => if c = '$' then ':' else c := by
  cases t with
  | nil => simp
  | cons c t =>
    by_cases hc : c = '$'
    · obtain ⟨rest, hrest⟩ := exists_renamed_dollar t
      simp [hc, hrest]
    · simp [renamed_cons_of_ne hc, hc]

/-! ## Composed texts -/

/-- What follows the digits of a text does so where no digit goes on with them. -/
theorem dropWhile_append_of_not_startsDecimal (s : Text) {t : Text}
    (h : startsDecimal t = false) :
    (s ++ t).dropWhile Text.isDecimal = s.dropWhile Text.isDecimal ++ t :=
  Text.dropWhile_append_of_head? (isDecimal_of_not_startsDecimal h) s

/-- A dollar sign, the digits behind it and what follows them. -/
theorem dollar_append_digits (rest : Text) :
    ('$' :: rest.takeWhile Text.isDecimal) ++ rest.dropWhile Text.isDecimal = '$' :: rest := by
  rw [List.cons_append, List.takeWhile_append_dropWhile]

/-- Texts are renamed one by one, unless a number is cut. -/
theorem renamed_append (s : Text) {t : Text} (h : startsDecimal t = false) :
    renamed (s ++ t) = renamed s ++ renamed t := by
  induction s using renamed.induct with
  | case1 => simp
  | case2 rest ih =>
    rw [List.cons_append, renamed_dollar, renamed_dollar,
      takeWhile_append_of_not_startsDecimal h, dropWhile_append_of_not_startsDecimal rest h, ih,
      List.append_assoc]
  | case3 c rest hc ih =>
    rw [List.cons_append, renamed_cons_of_ne hc, renamed_cons_of_ne hc, ih, List.cons_append]

/-- A text without dollar signs stays in front. -/
theorem renamed_append_of_not_mem {s : Text} (h : '$' ∉ s) (t : Text) :
    renamed (s ++ t) = s ++ renamed t := by
  induction s with
  | nil => rfl
  | cons c s ih =>
    simp only [List.mem_cons, not_or] at h
    rw [List.cons_append, renamed_cons_of_ne (Ne.symm h.1), ih h.2, List.cons_append]

/-- A text without dollar signs stays as it is. -/
theorem renamed_of_not_mem {t : Text} (h : '$' ∉ t) : renamed t = t := by
  simpa using renamed_append_of_not_mem h []

/-- Blanks and commas behind a text stay as they are. -/
theorem renamed_append_separators (t : Text) {back : Text}
    (h : ∀ c ∈ back, Text.separates c = true) : renamed (t ++ back) = renamed t ++ back := by
  have hhead : ∀ c ∈ back.head?, Text.separates c = true :=
    fun c hc => h c (List.mem_of_mem_head? hc)
  rw [renamed_append t (startsDecimal_of_separates hhead),
    renamed_of_not_mem (Text.dollar_not_mem_of_separates h)]

/-- Joined texts are renamed one by one. -/
theorem renamed_intercalate {separator : Text} (h : separator.IsSeparator) (texts : List Text) :
    renamed (separator.intercalate texts) = separator.intercalate (texts.map renamed) := by
  induction texts with
  | nil => simp
  | cons t texts ih =>
    cases texts with
    | nil => simp
    | cons next texts =>
      rw [List.intercalate_cons_cons, List.append_assoc,
        renamed_append t (startsDecimal_append_of_isSeparator h _),
        renamed_append_of_not_mem (Text.dollar_not_mem_of_separates h.separates), ih]
      simp only [List.map_cons, List.intercalate_cons_cons, List.append_assoc]

/-! ## Characters -/

/-- A character of a renamed text stands in the text, or belongs to a named placeholder. -/
theorem mem_of_mem_renamed {c : Char} {t : Text} (h : c ∈ renamed t) :
    c ∈ t ∨ c = ':' ∨ c = 'p' ∨ c = '-' ∨ c.isDigit = true := by
  induction t using renamed.induct with
  | case1 => simp at h
  | case2 rest ih =>
    rw [renamed_dollar, List.mem_append] at h
    rcases h with hmark | hafter
    · simp only [named, name, List.mem_cons] at hmark
      rcases hmark with rfl | rfl | hnumber
      · simp
      · simp
      · rcases Text.eq_minus_or_isDigit_of_mem_ofInt hnumber with rfl | hdigit
        · simp
        · simp [hdigit]
    · have hrest := (List.dropWhile_suffix (l := rest) Text.isDecimal).subset
      rcases ih hafter with hmem | hother
      · exact .inl (List.mem_cons_of_mem _ (hrest hmem))
      · exact .inr hother
  | case3 d rest hd ih =>
    rw [renamed_cons_of_ne hd, List.mem_cons] at h
    rcases h with rfl | hmem
    · simp
    · exact (ih hmem).imp_left (List.mem_cons_of_mem _)

/-- A digit is neither a blank nor a comma. -/
theorem not_separates_of_isDigit {c : Char} (h : c.isDigit = true) : Text.separates c = false := by
  by_contra hseparates
  have hdecimal := (Text.not_isWord_of_separates (Bool.not_eq_false _ ▸ hseparates)).2.1
  rw [Text.isDecimal_of_isDigit h] at hdecimal
  cases hdecimal

/-- A renamed text ends with a blank or a comma exactly when the text does. -/
theorem getLast?_renamed {c : Char} (hc : Text.separates c = true) {t : Text} :
    (renamed t).getLast? = some c ↔ t.getLast? = some c := by
  induction t using renamed.induct with
  | case1 => simp
  | case2 rest ih =>
    have hsplit := List.takeWhile_append_dropWhile (p := Text.isDecimal) (l := rest)
    by_cases hafter : rest.dropWhile Text.isDecimal = []
    · -- both texts end with a digit or with the dollar sign
      have hmark : (renamed ('$' :: rest)).getLast? ≠ some c := by
        intro hlast
        rw [renamed_dollar, hafter, renamed_nil, List.append_nil, named_eq,
          List.getLast?_append_of_ne_nil _ (Text.ofInt_ne_nil _)] at hlast
        rcases Text.eq_minus_or_isDigit_of_mem_ofInt (List.mem_of_getLast? hlast) with rfl | hdigit
        · exact absurd hc (by decide)
        · rw [not_separates_of_isDigit hdigit] at hc
          cases hc
      have htext : ('$' :: rest).getLast? ≠ some c := by
        intro hlast
        obtain ⟨-, hdecimal, hdollar⟩ := Text.not_isWord_of_separates hc
        rcases List.mem_cons.mp (List.mem_of_getLast? hlast) with rfl | hmem
        · exact hdollar rfl
        · rw [← hsplit, hafter, List.append_nil] at hmem
          rw [List.mem_takeWhile_imp hmem] at hdecimal
          cases hdecimal
      simp only [hmark, htext]
    · rw [renamed_dollar, List.getLast?_append_of_ne_nil _ (mt renamed_eq_nil_iff.mp hafter), ih,
        ← hsplit, ← List.cons_append, hsplit, List.getLast?_append_of_ne_nil _ hafter]
  | case3 d rest hd ih =>
    rw [renamed_cons_of_ne hd]
    by_cases hrest : rest = []
    · simp [hrest]
    · rw [← List.singleton_append,
        List.getLast?_append_of_ne_nil _ (mt renamed_eq_nil_iff.mp hrest), ih,
        ← List.singleton_append, List.getLast?_append_of_ne_nil _ hrest]

end Placeholder

end SqlComposer
