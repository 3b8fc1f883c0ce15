import SqlComposer.Proofs.Placements

/-!
# Where placeholders stand

Cutting a text into parts loses nothing, and finds a placeholder exactly where one stands alone: at
a dollar sign that nothing blocks, with digits behind it that no word character goes on with. So
placeholders can be given names unless one of them has too long a numeral, and what does not number
a parameter stays as it is.
-/

namespace SqlComposer.Placeholder

/-- A text is a number when it consists of decimal digits, of which there is at least one. -/
structure IsNumber (digits : Text) : Prop where
  /-- There is a digit. -/
  ne_nil : digits ≠ []
  /-- There are only digits. -/
  isDecimal : ∀ c ∈ digits, Text.isDecimal c = true

/-- Between two texts, a dollar sign with a number behind it is a placeholder. -/
structure StandsAlone (front digits back : Text) : Prop where
  /-- No word character and no dollar sign comes before the dollar sign. -/
  free : ∀ c ∈ front.getLast?, blocks c = false
  /-- Digits follow the dollar sign. -/
  isNumber : IsNumber digits
  /-- No word character follows the digits. -/
  ends : Text.startsWord back = false

/-- Whether a number is that of one of so many parameters. -/
def NumbersParameter (count : ℕ) (digits : Text) : Prop :=
  1 ≤ Text.numeralValue digits ∧ Text.numeralValue digits ≤ count

instance (count : ℕ) (digits : Text) : Decidable (NumbersParameter count digits) :=
  inferInstanceAs (Decidable (_ ∧ _))

/-! ## Numbers -/

/-- Decimal digits block a placeholder behind them. -/
theorem blocks_of_isDecimal {c : Char} (h : Text.isDecimal c = true) : blocks c = true := by
  rw [blocks, Text.isWord_of_isDecimal h, Bool.true_or]

/-- A number has no dollar sign. -/
theorem IsNumber.dollar_not_mem {digits : Text} (h : IsNumber digits) : '$' ∉ digits :=
  fun hmem => absurd (h.isDecimal '$' hmem) (by decide)

/-- What does not begin with a word character does not begin with a digit. -/
theorem startsDecimal_of_not_startsWord {t : Text} (h : Text.startsWord t = false) :
    startsDecimal t = false := by
  cases t with
  | nil => rfl
  | cons c t =>
    cases hdecimal : Text.isDecimal c with
    | false => simpa [startsDecimal] using hdecimal
    | true =>
      have hword : Text.isWord c = false := h
      rw [Text.isWord_of_isDecimal hdecimal] at hword
      cases hword

/-- A number is all the digits before a text that goes on with none. -/
theorem IsNumber.takeWhile_append {digits back : Text} (h : IsNumber digits)
    (hback : startsDecimal back = false) : (digits ++ back).takeWhile Text.isDecimal = digits := by
  rw [takeWhile_append_of_not_startsDecimal hback, List.takeWhile_eq_self_iff.mpr h.isDecimal]

/-- Behind a number comes the text behind it, if this does not start with a digit. -/
theorem IsNumber.dropWhile_append {digits back : Text} (h : IsNumber digits)
    (hback : startsDecimal back = false) : (digits ++ back).dropWhile Text.isDecimal = back := by
  rw [dropWhile_append_of_not_startsDecimal _ hback, List.dropWhile_eq_nil_iff.mpr h.isDecimal,
    List.nil_append]

/-- Behind a dollar sign begins a placeholder exactly when a number follows with which no word goes
on. -/
theorem afterDollar?_eq_some_iff {t digits back : Text} :
    afterDollar? t = some (digits, back) ↔
      t = digits ++ back ∧ IsNumber digits ∧ Text.startsWord back = false := by
  constructor
  · intro h
    simp only [afterDollar?, Option.ite_none_left_eq_some, Bool.or_eq_true, List.isEmpty_iff,
      not_or, Bool.not_eq_true, Option.some.injEq, Prod.mk.injEq] at h
    obtain ⟨⟨hne, hends⟩, rfl, rfl⟩ := h
    exact ⟨List.takeWhile_append_dropWhile.symm, ⟨hne, fun c hc => List.mem_takeWhile_imp hc⟩,
      hends⟩
  · rintro ⟨rfl, hnumber, hends⟩
    have hback := startsDecimal_of_not_startsWord hends
    rw [afterDollar?, hnumber.takeWhile_append hback, hnumber.dropWhile_append hback]
    simp [hnumber.ne_nil, hends]

/-! ## Parts -/

/-- Whether a dollar sign begins no placeholder behind a text, when one would be blocked or not
before the text. -/
def blockedAfter (blocked : Bool) (t : Text) : Bool :=
  t.foldl (fun _ c => blocks c) blocked

/-- What is blocked after two texts is what is blocked after the second one. -/
theorem blockedAfter_append (blocked : Bool) (s t : Text) :
    blockedAfter blocked (s ++ t) = blockedAfter (blockedAfter blocked s) t :=
  List.foldl_append

/-- Only the last character blocks. -/
theorem blockedAfter_concat (blocked : Bool) (t : Text) (c : Char) :
    blockedAfter blocked (t ++ [c]) = blocks c :=
  blockedAfter_append blocked t [c]

/-- Nothing is blocked after a text exactly when its last character, if any, does not block. -/
theorem blockedAfter_eq_false_iff {t : Text} :
    blockedAfter false t = false ↔ ∀ c ∈ t.getLast?, blocks c = false := by
  induction t using List.reverseRecOn with
  | nil => simp [blockedAfter]
  | append_singleton t c => simp [blockedAfter_concat]

/-- After a number a placeholder is blocked. -/
theorem IsNumber.blockedAfter_eq {digits : Text} (h : IsNumber digits) (blocked : Bool) :
    blockedAfter blocked digits = true := by
  obtain ⟨digits, c, rfl⟩ := List.eq_nil_or_concat digits |>.resolve_left h.ne_nil
  rw [List.concat_eq_append, blockedAfter_concat]
  exact blocks_of_isDecimal (h.isDecimal c (by simp))

/-- The parts of a text that follows a blocking character or does not. -/
inductive IsCut : Bool → Text → List Piece → Prop
  /-- There is nothing to cut. -/
  | nil (blocked : Bool) : IsCut blocked [] []
  /-- A dollar sign that nothing blocks begins a placeholder if a number follows that stands
  alone. -/
  | number {digits after : Text} {parts : List Piece} (hnumber : IsNumber digits)
      (hends : Text.startsWord after = false) (hafter : IsCut true after parts) :
      IsCut false ('$' :: (digits ++ after)) (.number digits :: parts)
  /-- Any other character is a part of its own. -/
  | other {blocked : Bool} {c : Char} {rest : Text} {parts : List Piece}
      (hother : c = '$' → blocked = false → afterDollar? rest = none)
      (hrest : IsCut (blocks c) rest parts) : IsCut blocked (c :: rest) (.other c :: parts)

/-- A text is cut by these rules. -/
theorem isCut_piecesFrom (blocked : Bool) (t : Text) : IsCut blocked t (piecesFrom blocked t) := by
  fun_induction piecesFrom blocked t with
  | case1 blocked => exact .nil blocked
  | case2 blocked c rest hc digits after hfound ih =>
    obtain ⟨rfl, rfl⟩ := hc
    obtain ⟨rfl, hnumber, hends⟩ := afterDollar?_eq_some_iff.mp hfound
    exact .number hnumber hends ih
  | case3 blocked c rest hc hfound ih =>
    obtain ⟨rfl, rfl⟩ := hc
    exact .other (fun _ _ => hfound) ih
  | case4 blocked c rest hc ih => exact .other (fun h h' => absurd ⟨h, h'⟩ hc) ih

/-- The rules leave no choice. -/
theorem IsCut.piecesFrom_eq {blocked : Bool} {t : Text} {parts : List Piece}
    (h : IsCut blocked t parts) : piecesFrom blocked t = parts := by
  induction h with
  | nil blocked => rw [piecesFrom]
  | @number digits after parts hnumber hends hafter ih =>
    have hfound := afterDollar?_eq_some_iff.mpr ⟨rfl, hnumber, hends⟩
    rw [piecesFrom, if_pos ⟨rfl, rfl⟩]
    split
    · next digits' after' hfound' =>
      cases hfound.symm.trans hfound'
      rw [ih]
    · next hnone => cases hfound.symm.trans hnone
  | @other blocked c rest parts hother hrest ih =>
    rw [piecesFrom]
    split
    · next hc =>
      obtain ⟨rfl, rfl⟩ := hc
      split
      · next hfound => cases (hother rfl rfl).symm.trans hfound
      · exact congrArg _ ih
    · rw [ih]

/-- Cutting loses nothing. -/
theorem IsCut.flatMap_text {blocked : Bool} {t : Text} {parts : List Piece}
    (h : IsCut blocked t parts) : parts.flatMap Piece.text = t := by
  induction h with
  | nil => rfl
  | number hnumber hends hafter ih => simp [Piece.text, ih]
  | other hother hrest ih => simp [Piece.text, ih]

/-- A text without dollar signs is cut into its characters, before what follows is cut. -/
theorem IsCut.exists_of_append {blocked : Bool} {s t : Text} {parts : List Piece}
    (h : IsCut blocked (s ++ t) parts) (hs : '$' ∉ s) :
    ∃ later, parts = s.map .other ++ later ∧ IsCut (blockedAfter blocked s) t later := by
  induction s generalizing blocked parts with
  | nil => exact ⟨parts, rfl, h⟩
  | cons c s ih =>
    simp only [List.mem_cons, not_or] at hs
    rw [List.cons_append] at h
    generalize ht : s ++ t = rest at h
    cases h with
    | number => exact absurd rfl hs.1
    | other hother hrest =>
      obtain ⟨later, rfl, hlater⟩ := ih (ht ▸ hrest) hs.2
      exact ⟨later, rfl, hlater⟩

/-- A placeholder that is found stands alone. -/
theorem IsCut.standsAlone {blocked : Bool} {t digits : Text} {before after : List Piece}
    (h : IsCut blocked t (before ++ .number digits :: after)) :
    blockedAfter blocked (before.flatMap Piece.text) = false ∧ IsNumber digits ∧
      Text.startsWord (after.flatMap Piece.text) = false := by
  induction before generalizing blocked t with
  | nil =>
    cases h with
    | number hnumber hends hafter =>
      rw [hafter.flatMap_text]
      exact ⟨rfl, hnumber, hends⟩
  | cons part before ih =>
    cases h with
    | @number digits' _ _ hnumber hends hafter =>
      obtain ⟨hfree, hrest⟩ := ih hafter
      refine ⟨?_, hrest⟩
      have htext : (Piece.number digits' :: before).flatMap Piece.text =
          '$' :: (digits' ++ before.flatMap Piece.text) := rfl
      rw [htext, ← List.cons_append, blockedAfter_append]
      exact (congrArg (blockedAfter · _) (hnumber.blockedAfter_eq (blocks '$'))).trans hfree
    | other hother hrest => exact ih hrest

/-- The parts of a dollar sign with digits behind it: a placeholder, or the single characters. -/
def partsOfNumber (alone : Bool) (digits : Text) : List Piece :=
  if alone then [.number digits] else ('$' :: digits).map .other

/-- Wherever a number stands behind a dollar sign, the cut goes around both, and they are a
placeholder exactly if they stand alone. -/
theorem IsCut.exists_of_isNumber {blocked : Bool} {front digits back : Text} {parts : List Piece}
    (h : IsCut blocked (front ++ '$' :: (digits ++ back)) parts) (hnumber : IsNumber digits)
    (hback : startsDecimal back = false) :
    ∃ before after, parts =
        before ++ partsOfNumber (!blockedAfter blocked front && !Text.startsWord back) digits ++
          after ∧
      before.flatMap Piece.text = front ∧ after.flatMap Piece.text = back := by
  generalize ht : front ++ '$' :: (digits ++ back) = t at h
  induction h generalizing front with
  | nil => simp at ht
  | @number digits' after' parts hnumber' hends hafter ih =>
    cases front with
    | nil =>
      have hrest : digits ++ back = digits' ++ after' := (List.cons.inj ht).2
      have hback' := startsDecimal_of_not_startsWord hends
      obtain rfl : digits = digits' := by
        rw [← hnumber.takeWhile_append hback, hrest, hnumber'.takeWhile_append hback']
      obtain rfl := List.append_cancel_left hrest
      refine ⟨[], parts, ?_, rfl, hafter.flatMap_text⟩
      simp [partsOfNumber, blockedAfter, hends]
    | cons c front =>
      obtain ⟨rfl, hrest⟩ := List.cons.inj ht
      obtain ⟨front, rfl, hlater⟩ :=
        Text.exists_front_of_not_mem hnumber'.dollar_not_mem hrest
      obtain ⟨before, after, rfl, rfl, htext⟩ := ih hlater
      refine ⟨.number digits' :: before, after, ?_, by simp [Piece.text], htext⟩
      have hblocked : blockedAfter false ('$' :: (digits' ++ before.flatMap Piece.text)) =
          blockedAfter true (before.flatMap Piece.text) := by
        rw [← List.cons_append, blockedAfter_append]
        exact congrArg (blockedAfter · _) (hnumber'.blockedAfter_eq (blocks '$'))
      rw [hblocked]
      rfl
  | @other blocked c rest parts hother hrest ih =>
    cases front with
    | nil =>
      obtain ⟨rfl, rfl⟩ := List.cons.inj ht
      obtain ⟨later, rfl, hlater⟩ := hrest.exists_of_append hnumber.dollar_not_mem
      have hsingle : (!blockedAfter blocked [] && !Text.startsWord back) = false := by
        by_contra halone
        simp only [Bool.not_eq_false, Bool.and_eq_true, Bool.not_eq_true'] at halone
        have hfound := afterDollar?_eq_some_iff.mpr ⟨rfl, hnumber, halone.2⟩
        cases hfound.symm.trans (hother rfl halone.1)
      rw [hsingle]
      exact ⟨[], later, rfl, rfl, hlater.flatMap_text⟩
    | cons c front =>
      obtain ⟨rfl, hlater⟩ := List.cons.inj ht
      obtain ⟨before, after, rfl, hbefore, hafter⟩ := ih hlater
      exact ⟨.other c :: before, after, rfl, by rw [List.flatMap_cons, hbefore]; rfl, hafter⟩

/-! ## Placeholders of texts -/

/-- A text holds a placeholder between two others. -/
structure Holds (t front digits back : Text) : Prop where
  /-- The placeholder stands between the two texts. -/
  eq : t = front ++ '$' :: (digits ++ back)
  /-- It stands alone there. -/
  alone : StandsAlone front digits back

/-- Wherever a number stands behind a dollar sign, a text is cut around both, and they are a
placeholder exactly if they stand alone. -/
theorem exists_pieces_eq (front : Text) {digits back : Text} (hnumber : IsNumber digits)
    (hback : startsDecimal back = false) :
    ∃ before number after,
      pieces (front ++ '$' :: (digits ++ back)) = before ++ number ++ after ∧
      before.flatMap Piece.text = front ∧ after.flatMap Piece.text = back ∧
      (StandsAlone front digits back ∧ number = [.number digits] ∨
        ¬StandsAlone front digits back ∧ number = ('$' :: digits).map .other) := by
  obtain ⟨before, after, hparts, hbefore, hafter⟩ :=
    (isCut_piecesFrom false _).exists_of_isNumber hnumber hback
  refine ⟨before, _, after, hparts, hbefore, hafter, ?_⟩
  cases halone : !blockedAfter false front && !Text.startsWord back with
  | true =>
    simp only [Bool.and_eq_true, Bool.not_eq_true'] at halone
    exact .inl ⟨⟨blockedAfter_eq_false_iff.mp halone.1, hnumber, halone.2⟩, rfl⟩
  | false =>
    refine .inr ⟨fun hstands => ?_, rfl⟩
    rw [blockedAfter_eq_false_iff.mpr hstands.free, hstands.ends] at halone
    cases halone

/-- The placeholders of a text are those of its parts. -/
theorem holds_iff {t front digits back : Text} :
    Holds t front digits back ↔ ∃ before after, pieces t = before ++ .number digits :: after ∧
      before.flatMap Piece.text = front ∧ after.flatMap Piece.text = back := by
  constructor
  · rintro ⟨rfl, hstands⟩
    obtain ⟨before, number, after, hparts, hbefore, hafter, hnumber⟩ :=
      exists_pieces_eq front hstands.isNumber (startsDecimal_of_not_startsWord hstands.ends)
    obtain ⟨-, rfl⟩ := hnumber.resolve_right fun h => h.1 hstands
    exact ⟨before, after, hparts.trans (List.append_assoc ..), hbefore, hafter⟩
  · rintro ⟨before, after, hparts, rfl, rfl⟩
    have hcut := isCut_piecesFrom false t
    rw [← pieces, hparts] at hcut
    obtain ⟨hfree, hnumber, hends⟩ := hcut.standsAlone
    refine ⟨?_, blockedAfter_eq_false_iff.mp hfree, hnumber, hends⟩
    rw [← hcut.flatMap_text]
    simp [Piece.text]

/-- A text holds a placeholder exactly if it is among the parts. -/
theorem number_mem_pieces_iff {t digits : Text} :
    .number digits ∈ pieces t ↔ ∃ front back, Holds t front digits back := by
  simp only [holds_iff]
  constructor
  · intro h
    obtain ⟨before, after, hparts⟩ := List.append_of_mem h
    exact ⟨_, _, before, after, hparts, rfl, rfl⟩
  · rintro ⟨_, _, before, after, hparts, -, -⟩
    rw [hparts]
    simp

/-- The characters of a text, taken as pieces, are the text. -/
@[simp] theorem flatMap_text_map_other (t : Text) :
    (t.map Piece.other).flatMap Piece.text = t := by
  rw [List.flatMap_map]
  exact List.flatMap_singleton' t

/-! ## Named forms -/

/-- The named form of a part of a text with so many parameters, however long its numeral is. -/
def Piece.rewritten (count : ℕ) : Piece → Text
  | .other c => [c]
  | .number digits =>
    if NumbersParameter count digits then named ((Text.numeralValue digits : ℤ) - 1)
    else '$' :: digits

/-- The characters of a text, taken as pieces, are rewritten to the text. -/
@[simp] theorem flatMap_rewritten_map_other (count : ℕ) (t : Text) :
    (t.map Piece.other).flatMap (Piece.rewritten count) = t := by
  rw [List.flatMap_map]
  exact List.flatMap_singleton' t

/-- A part holds no numeral that is too long. -/
def Piece.IsShort : Piece → Prop
  | .other _ => True
  | .number digits => digits.length ≤ digitLimit

/-- The parts of a text are short exactly if the numerals of its placeholders are. -/
theorem forall_isShort_iff {t : Text} :
    (∀ part ∈ pieces t, part.IsShort) ↔
      ∀ front digits back, Holds t front digits back → digits.length ≤ digitLimit := by
  constructor
  · intro h front digits back hholds
    exact h _ (number_mem_pieces_iff.mpr ⟨front, back, hholds⟩)
  · rintro h (digits | c) hpart
    · obtain ⟨front, back, hholds⟩ := number_mem_pieces_iff.mp hpart
      exact h front digits back hholds
    · trivial

/-- A part has a named form if its numeral is short enough. -/
theorem Piece.IsShort.rename_eq {part : Piece} (h : part.IsShort) (count : ℕ) :
    part.rename count = .ok (part.rewritten count) := by
  cases part with
  | other c => rfl
  | number digits =>
    have hread : readNumeral digits = .ok (Text.numeralValue digits) := if_pos h
    rw [Piece.rename, hread]
    exact (apply_ite Except.ok _ _ _).symm

/-- A numeral that is too long is not renamed. -/
theorem Piece.exists_of_not_isShort {part : Piece} (h : ¬part.IsShort) :
    ∃ digits, part = .number digits ∧ digitLimit < digits.length ∧
      ∀ count, part.rename count = .error (.unreadable digits.length) := by
  cases part with
  | other c => exact absurd trivial h
  | number digits =>
    have hread : readNumeral digits = .error (.unreadable digits.length) := if_neg h
    refine ⟨digits, rfl, Nat.lt_of_not_le h, fun count => ?_⟩
    rw [Piece.rename, hread]
    rfl

/-- Parts are renamed one by one up to the first numeral that is too long. -/
theorem renameAll_append {before : List Piece} (h : ∀ part ∈ before, part.IsShort) (count : ℕ)
    (after : List Piece) :
    renameAll count (before ++ after) =
      (before.flatMap (Piece.rewritten count) ++ ·) <$> renameAll count after := by
  induction before with
  | nil => cases hafter : renameAll count after <;> simp [hafter]
  | cons part before ih =>
    rw [List.forall_mem_cons] at h
    rw [List.cons_append, renameAll, h.1.rename_eq, ih h.2]
    cases renameAll count after <;> simp [Bind.bind, Except.bind, pure, Except.pure]

/-- All parts are short, or there is a first one that is not. -/
theorem forall_isShort_or_exists (parts : List Piece) :
    (∀ part ∈ parts, part.IsShort) ∨ ∃ before part after, parts = before ++ part :: after ∧
      (∀ earlier ∈ before, earlier.IsShort) ∧ ¬part.IsShort := by
  induction parts with
  | nil => simp
  | cons part parts ih =>
    by_cases hpart : part.IsShort
    · rcases ih with hall | ⟨before, long, after, rfl, hbefore, hlong⟩
      · exact .inl (List.forall_mem_cons.mpr ⟨hpart, hall⟩)
      · exact .inr ⟨part :: before, long, after, rfl,
          List.forall_mem_cons.mpr ⟨hpart, hbefore⟩, hlong⟩
    · exact .inr ⟨[], part, parts, rfl, by simp, hpart⟩

/-- Pieces whose numbers are short are all renamed, each as it is rewritten. -/
theorem renameAll_eq_ok {count : ℕ} {parts : List Piece} (h : ∀ part ∈ parts, part.IsShort) :
    renameAll count parts = .ok (parts.flatMap (Piece.rewritten count)) := by
  have happend := renameAll_append h count []
  rw [List.append_nil] at happend
  rw [happend]
  simp [renameAll]

/-- The first numeral that is too long is the failure. -/
theorem renameAll_eq_error {before : List Piece} {part : Piece}
    (hbefore : ∀ earlier ∈ before, earlier.IsShort) (hpart : ¬part.IsShort) (count : ℕ)
    (after : List Piece) :
    ∃ digits, part = .number digits ∧
      renameAll count (before ++ part :: after) = .error (.unreadable digits.length) := by
  obtain ⟨digits, rfl, -, hrename⟩ := Piece.exists_of_not_isShort hpart
  refine ⟨digits, rfl, ?_⟩
  rw [renameAll_append hbefore, renameAll, hrename]
  rfl

end SqlComposer.Placeholder
