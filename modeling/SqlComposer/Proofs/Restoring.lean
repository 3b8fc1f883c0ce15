import SqlComposer.Proofs.Occurrences

/-!
# Renaming taken back

A named placeholder is known by its colon, so in a renamed text that held no colon, the named
placeholders are those that renaming has written. Each tells the number of its parameter. If the
numerals of parameters were plain, writing positional placeholders for named ones gives the text
back.
-/

namespace SqlComposer

namespace Text

/-- A numeral is plain when it consists of ASCII digits and has no leading zero. -/
structure IsPlainNumeral (t : Text) : Prop where
  /-- All characters are ASCII digits. -/
  isDigit : ∀ c ∈ t, c.isDigit = true
  /-- There is no leading zero. -/
  head_ne : t.head? ≠ some '0'

/-- A last digit counts one, and the digits before it ten times as much. -/
theorem numeralValue_concat (t : Text) {c : Char} (hc : c.isDigit = true) :
    numeralValue (t ++ [c]) = 10 * numeralValue t + (c.toNat - 48) := by
  simp [numeralValue, digitsValue, digitValue?_of_isDigit hc]

/-- The numeral of a single digit is the digit. -/
theorem ofNat_of_isDigit {c : Char} (hc : c.isDigit = true) : ofNat (c.toNat - 48) = [c] := by
  obtain ⟨hlow, hhigh⟩ : 0x30 ≤ c.toNat ∧ c.toNat ≤ 0x39 := Char.isDigit_iff_toNat.mp hc
  have hdigits : ∀ n < 10, Nat.digitChar n = Char.ofNat (n + 48) := by decide
  rw [ofNat, Nat.toDigits_of_lt_base (by omega), hdigits _ (by omega), Nat.sub_add_cancel hlow,
    Char.ofNat_toNat]

/-- A plain numeral is the numeral of its number. -/
theorem IsPlainNumeral.ofNat_numeralValue {t : Text} (h : IsPlainNumeral t) (hne : t ≠ []) :
    ofNat (numeralValue t) = t := by
  induction t using List.reverseRecOn with
  | nil => exact absurd rfl hne
  | append_singleton t c ih =>
    have hc : c.isDigit = true := h.isDigit c (by simp)
    have hlast : c.toNat - 48 < 10 := by
      obtain ⟨-, hhigh⟩ : 0x30 ≤ c.toNat ∧ c.toNat ≤ 0x39 := Char.isDigit_iff_toNat.mp hc
      omega
    rw [numeralValue_concat t hc]
    by_cases ht : t = []
    · subst ht
      simpa [numeralValue, digitsValue] using ofNat_of_isDigit hc
    · have hfront : IsPlainNumeral t :=
        ⟨fun d hd => h.isDigit d (by simp [hd]), fun hzero => h.head_ne (by simp [hzero])⟩
      have hvalue := ih hfront ht
      have hpos : 0 < numeralValue t := by
        refine Nat.pos_of_ne_zero fun hzero => hfront.head_ne ?_
        rw [← hvalue, hzero]
        rfl
      rw [ofNat, ← Nat.toDigits_append_toDigits (by decide) hpos hlast]
      exact congrArg₂ _ hvalue (ofNat_of_isDigit hc)

end Text

namespace Placeholder

/-! ## Named placeholders of texts -/

/-- A part of a text: a named placeholder, by its digits, or another character. -/
inductive NamedPiece
  | index (digits : Text)
  | other (c : Char)
  deriving DecidableEq, Repr

/-- The ASCII digits behind a colon and a `p` at the start of a text, as many as there are, with
what follows them. -/
def index? : Text → Option (Text × Text)
  | ':' :: 'p' :: rest =>
    match rest.takeWhile Char.isDigit with
    | [] => none
    | d :: digits => some (d :: digits, rest.dropWhile Char.isDigit)
  | _ => none

/-- What follows the digits of a name is shorter than the text. -/
theorem index?_length {t digits rest : Text} (h : index? t = some (digits, rest)) :
    rest.length < t.length := by
  unfold index? at h
  split at h
  · next rest' =>
    split at h
    · cases h
    · cases h
      have := (List.dropWhile_suffix (l := rest') Char.isDigit).length_le
      simp only [List.length_cons]
      omega
  · cases h

/-- The named placeholders and the other characters of a text. -/
def namedPieces : Text → List NamedPiece
  | [] => []
  | c :: rest =>
    match _h : index? (c :: rest) with
    | some (digits, after) => .index digits :: namedPieces after
    | none => .other c :: namedPieces rest
termination_by t => t.length
decreasing_by
  · exact index?_length _h
  · simp

/-- The positional form of a part of a text. -/
def NamedPiece.positional : NamedPiece → Text
  | .index digits => Placeholder.positional (Text.numeralValue digits + 1)
  | .other c => [c]

/-- A text with a positional placeholder for each named one. -/
def positionalForm (t : Text) : Text :=
  (namedPieces t).flatMap NamedPiece.positional

/-- The position that a named placeholder counts. -/
def NamedPiece.position? : NamedPiece → Option ℕ
  | .index digits => some (Text.numeralValue digits)
  | .other _ => none

/-- The positions of the named placeholders of a text, in order. -/
def positions (t : Text) : List ℕ :=
  (namedPieces t).filterMap NamedPiece.position?

/-- What no colon begins is no name. -/
theorem index?_cons_of_ne {c : Char} (hc : c ≠ ':') (t : Text) : index? (c :: t) = none := by
  unfold index?
  split
  · next h => exact absurd (List.cons.inj h).1 hc
  · rfl

/-- A first character that is no colon is a piece by itself. -/
theorem namedPieces_cons_of_ne {c : Char} (hc : c ≠ ':') (t : Text) :
    namedPieces (c :: t) = .other c :: namedPieces t := by
  rw [namedPieces]
  split
  · next h => cases (index?_cons_of_ne hc t).symm.trans h
  · rfl

/-- A text without colons holds no named placeholder, before whatever follows it. -/
theorem namedPieces_append_of_not_mem {s : Text} (h : ':' ∉ s) (t : Text) :
    namedPieces (s ++ t) = s.map .other ++ namedPieces t := by
  induction s with
  | nil => rfl
  | cons c s ih =>
    simp only [List.mem_cons, not_or] at h
    rw [List.cons_append, namedPieces_cons_of_ne (Ne.symm h.1), ih h.2]
    rfl

/-- A text that does not start with a decimal digit has no digit in front. -/
theorem isDigit_of_not_startsDecimal {t : Text} (h : startsDecimal t = false) :
    ∀ c ∈ t.head?, c.isDigit = false := by
  intro c hc
  rw [← Bool.not_eq_true]
  intro hdigit
  cases (Text.isDecimal_of_isDigit hdigit).symm.trans (isDecimal_of_not_startsDecimal h c hc)

/-- The digits of a named placeholder are found where no digit goes on with them. -/
theorem index?_named_append (n : ℕ) {t : Text} (h : startsDecimal t = false) :
    index? (named n ++ t) = some (Text.ofNat n, t) := by
  have hhead := isDigit_of_not_startsDecimal h
  have hdigits : ∀ c ∈ Text.ofNat n, c.isDigit = true := fun c hc => Text.isDigit_of_mem_ofNat hc
  have htake : (Text.ofNat n ++ t).takeWhile Char.isDigit = Text.ofNat n := by
    rw [Text.takeWhile_append_of_head? hhead, List.takeWhile_eq_self_iff.mpr hdigits]
  have hdrop : (Text.ofNat n ++ t).dropWhile Char.isDigit = t := by
    rw [Text.dropWhile_append_of_head? hhead, List.dropWhile_eq_nil_iff.mpr hdigits,
      List.nil_append]
  change (match (Text.ofNat n ++ t).takeWhile Char.isDigit with
    | [] => none
    | d :: digits => some (d :: digits, (Text.ofNat n ++ t).dropWhile Char.isDigit)) = _
  rw [htake, hdrop]
  cases hn : Text.ofNat n with
  | nil => exact absurd hn Nat.toDigits_ne_nil
  | cons d digits => rfl

/-- A named placeholder that no digit goes on with is a part. -/
theorem namedPieces_named_append (n : ℕ) {t : Text} (h : startsDecimal t = false) :
    namedPieces (named n ++ t) = .index (Text.ofNat n) :: namedPieces t := by
  have hfound := index?_named_append n h
  change namedPieces (':' :: ('p' :: (Text.ofNat n ++ t))) = _
  rw [namedPieces]
  split
  · next digits after hfound' =>
    cases hfound.symm.trans hfound'
    rfl
  · next hnone => cases hfound.symm.trans hnone

/-! ## Placeholders that renaming writes -/

variable {count : ℕ}

/-- What renaming makes of a part, with the named placeholder of a parameter as one part. -/
def Piece.indexed (count : ℕ) : Piece → List NamedPiece
  | .other c => [.other c]
  | .number digits =>
    if NumbersParameter count digits then [.index (Text.ofNat (Text.numeralValue digits - 1))]
    else ('$' :: digits).map .other

/-- What renaming makes of a part, with the placeholder that numbers no parameter as one part. -/
def Piece.leftover (count : ℕ) : Piece → List Piece
  | .other c => [.other c]
  | .number digits =>
    if NumbersParameter count digits then
      (named ((Text.numeralValue digits : ℤ) - 1)).map .other
    else [.number digits]

/-- Positions count from zero, and numbers from one. -/
theorem NumbersParameter.sub_one_eq {digits : Text} (h : NumbersParameter count digits) :
    (Text.numeralValue digits : ℤ) - 1 = (Text.numeralValue digits - 1 : ℕ) := by
  have := h.1
  omega

/-- Renaming keeps how a text begins behind a blocking character. -/
theorem IsCut.startsWord_rewritten {t : Text} {parts : List Piece} (h : IsCut true t parts)
    (count : ℕ) : Text.startsWord (parts.flatMap (Piece.rewritten count)) = Text.startsWord t := by
  cases h <;> rfl

/-- Rewritten pieces start with a decimal digit exactly when the text does. -/
theorem IsCut.startsDecimal_rewritten {t : Text} {parts : List Piece} (h : IsCut true t parts)
    (count : ℕ) : startsDecimal (parts.flatMap (Piece.rewritten count)) = startsDecimal t := by
  cases h <;> rfl

/-- In a text without colons, the named placeholders are those of parameters. -/
theorem IsCut.namedPieces_rewritten {blocked : Bool} {t : Text} {parts : List Piece}
    (h : IsCut blocked t parts) (hcolon : ':' ∉ t) (count : ℕ) :
    namedPieces (parts.flatMap (Piece.rewritten count)) =
      parts.flatMap (Piece.indexed count) := by
  induction h with
  | nil => simp [namedPieces]
  | @number digits after parts hnumber hends hafter ih =>
    rw [← List.cons_append, List.mem_append, not_or] at hcolon
    rw [List.flatMap_cons, List.flatMap_cons, ← ih hcolon.2]
    by_cases hparameter : NumbersParameter count digits
    · have hstart : startsDecimal (parts.flatMap (Piece.rewritten count)) = false := by
        rw [hafter.startsDecimal_rewritten]
        exact startsDecimal_of_not_startsWord hends
      rw [Piece.rewritten, if_pos hparameter, Piece.indexed, if_pos hparameter,
        hparameter.sub_one_eq, namedPieces_named_append _ hstart]
      rfl
    · rw [Piece.rewritten, if_neg hparameter, Piece.indexed, if_neg hparameter,
        namedPieces_append_of_not_mem hcolon.1]
  | @other blocked c rest parts hother hrest ih =>
    rw [List.mem_cons, not_or] at hcolon
    rw [List.flatMap_cons, List.flatMap_cons, ← ih hcolon.2]
    exact namedPieces_cons_of_ne (Ne.symm hcolon.1) _

/-- What stands behind digits decides whether they follow a dollar sign as a placeholder. -/
theorem afterDollar?_append_eq_none_iff {s t : Text} (hs : ∀ c ∈ s, Text.isDecimal c = true)
    (ht : startsDecimal t = false) :
    afterDollar? (s ++ t) = none ↔ s = [] ∨ Text.startsWord t = true := by
  simp [afterDollar?, takeWhile_append_of_not_startsDecimal ht,
    dropWhile_append_of_not_startsDecimal _ ht, List.takeWhile_eq_self_iff.mpr hs,
    List.dropWhile_eq_nil_iff.mpr hs, or_iff_not_imp_left]

/-- What follows all decimal digits does not start with one. -/
theorem startsDecimal_dropWhile (t : Text) :
    startsDecimal (t.dropWhile Text.isDecimal) = false := by
  have hstop := List.head?_dropWhile_not Text.isDecimal t
  rw [startsDecimal]
  cases hhead : (t.dropWhile Text.isDecimal).head? with
  | none => rfl
  | some c => simpa [hhead] using hstop

/-- Where no placeholder begins behind a dollar sign, none does when what follows is renamed. -/
theorem IsCut.afterDollar?_rewritten {rest : Text} {parts : List Piece} (h : IsCut true rest parts)
    (hnone : afterDollar? rest = none) :
    afterDollar? (parts.flatMap (Piece.rewritten count)) = none := by
  obtain ⟨digits, back, rfl, hdigits, hback⟩ : ∃ digits back, rest = digits ++ back ∧
      (∀ c ∈ digits, Text.isDecimal c = true) ∧ startsDecimal back = false :=
    ⟨rest.takeWhile Text.isDecimal, rest.dropWhile Text.isDecimal,
      List.takeWhile_append_dropWhile.symm, fun c hc => List.mem_takeWhile_imp hc,
      startsDecimal_dropWhile rest⟩
  have hdollar : '$' ∉ digits := fun hmem => absurd (hdigits '$' hmem) (by decide)
  obtain ⟨later, rfl, hlater⟩ := h.exists_of_append hdollar
  have hblocked : blockedAfter true digits = true := by
    by_cases hne : digits = []
    · rw [hne]
      rfl
    · exact IsNumber.blockedAfter_eq ⟨hne, hdigits⟩ true
  -- The digits are not renamed, and what stands behind them begins as before.
  rw [hblocked] at hlater
  have hstart : startsDecimal (later.flatMap (Piece.rewritten count)) = false := by
    rw [hlater.startsDecimal_rewritten]
    exact hback
  rw [List.flatMap_append, flatMap_rewritten_map_other,
    afterDollar?_append_eq_none_iff hdigits hstart, hlater.startsWord_rewritten]
  exact (afterDollar?_append_eq_none_iff hdigits hback).mp hnone

/-- Characters other than the dollar sign are parts of their own, before a text that is cut. -/
theorem IsCut.other_append {blocked : Bool} {s t : Text} {parts : List Piece} (hs : '$' ∉ s)
    (h : IsCut (blockedAfter blocked s) t parts) :
    IsCut blocked (s ++ t) (s.map .other ++ parts) := by
  induction s generalizing blocked with
  | nil => exact h
  | cons c s ih =>
    simp only [List.mem_cons, not_or] at hs
    exact .other (fun hc => absurd hc (Ne.symm hs.1)) (ih hs.2 h)

/-- The numeral of a natural number is a number. -/
theorem isNumber_ofNat (n : ℕ) : IsNumber (Text.ofNat n) :=
  ⟨Nat.toDigits_ne_nil, fun _ hc => Text.isDecimal_of_mem_ofNat hc⟩

/-- The placeholders that renaming leaves are those that number no parameter. -/
theorem IsCut.rewritten {blocked : Bool} {t : Text} {parts : List Piece}
    (h : IsCut blocked t parts) :
    IsCut blocked (parts.flatMap (Piece.rewritten count))
      (parts.flatMap (Piece.leftover count)) := by
  induction h with
  | nil blocked => exact .nil blocked
  | @number digits after parts hnumber hends hafter ih =>
    rw [List.flatMap_cons, List.flatMap_cons]
    by_cases hparameter : NumbersParameter count digits
    · rw [Piece.rewritten, if_pos hparameter, Piece.leftover, if_pos hparameter,
        hparameter.sub_one_eq]
      have hdollar : '$' ∉ named (Text.numeralValue digits - 1 : ℕ) := by
        simpa [named, name] using Text.dollar_not_mem_ofInt _
      refine .other_append hdollar ?_
      rw [named_eq, blockedAfter_append]
      exact (isNumber_ofNat _).blockedAfter_eq _ ▸ ih
    · rw [Piece.rewritten, if_neg hparameter, Piece.leftover, if_neg hparameter]
      refine .number hnumber ?_ ih
      rw [hafter.startsWord_rewritten]
      exact hends
  | @other blocked c rest parts hother hrest ih =>
    refine .other (fun hc hblocked => ?_) ih
    subst hc
    exact hrest.afterDollar?_rewritten (hother rfl hblocked)

/-! ## The text that comes back -/

/-- The positional form of what renaming makes of a part is the part, if its number is plain. -/
theorem Piece.flatMap_positional_indexed {part : Piece}
    (h : ∀ digits, part = .number digits → NumbersParameter count digits →
      digits ≠ [] ∧ Text.IsPlainNumeral digits) :
    (part.indexed count).flatMap NamedPiece.positional = part.text := by
  cases part with
  | other c => rfl
  | number digits =>
    rw [Piece.indexed]
    split
    · next hparameter =>
      obtain ⟨hne, hplain⟩ := h digits rfl hparameter
      have hnumber : (Text.numeralValue digits - 1 : ℕ) + (1 : ℤ) = Text.numeralValue digits := by
        rw [← hparameter.sub_one_eq, Int.sub_add_cancel]
      rw [List.flatMap_singleton, NamedPiece.positional, Text.numeralValue_ofNat, hnumber]
      exact congrArg _ (hplain.ofNat_numeralValue hne)
    · rw [List.flatMap_map]
      exact List.flatMap_singleton' _

/-- What is indexed is the position of a parameter. -/
theorem Piece.lt_of_position?_indexed {part : Piece} {piece : NamedPiece} {k : ℕ}
    (hpiece : piece ∈ part.indexed count) (hk : piece.position? = some k) : k < count := by
  cases part with
  | other c =>
    rw [List.mem_singleton.mp hpiece] at hk
    cases hk
  | number digits =>
    rw [Piece.indexed] at hpiece
    split at hpiece
    · next hparameter =>
      rw [List.mem_singleton.mp hpiece, NamedPiece.position?, Text.numeralValue_ofNat,
        Option.some.injEq] at hk
      have hlow := hparameter.1
      have hhigh := hparameter.2
      omega
    · obtain ⟨c, -, rfl⟩ := List.mem_map.mp hpiece
      cases hk

/-- A placeholder that is left numbers no parameter. -/
theorem Piece.not_numbersParameter_of_mem_leftover {part : Piece} {digits : Text}
    (h : .number digits ∈ part.leftover count) : ¬NumbersParameter count digits := by
  cases part with
  | other c => cases List.mem_singleton.mp h
  | number digits' =>
    rw [Piece.leftover] at h
    split at h
    · obtain ⟨c, -, hc⟩ := List.mem_map.mp h
      cases hc
    · next hparameter =>
      cases List.mem_singleton.mp h
      exact hparameter

/-- In a text without colons, with numerals that are not too long, of which those of parameters are
plain, renaming loses nothing: the positional form of the renamed text is the text, its named
placeholders have the positions of parameters, and no placeholder of a parameter is left. -/
theorem positionalForm_rename {t : Text} (hcolon : ':' ∉ t)
    (hlength : ∀ front digits back, Holds t front digits back → digits.length ≤ digitLimit)
    (hplain : ∀ front digits back, Holds t front digits back → NumbersParameter count digits →
      Text.IsPlainNumeral digits) :
    ∃ out, rename count t = .ok out ∧ positionalForm out = t ∧ (∀ k ∈ positions out, k < count) ∧
      ∀ front digits back, Holds out front digits back → ¬NumbersParameter count digits := by
  have hcut : IsCut false t (pieces t) := isCut_piecesFrom false t
  have hnamed := hcut.namedPieces_rewritten hcolon count
  refine ⟨_, renameAll_eq_ok (forall_isShort_iff.mpr hlength), ?_, ?_, ?_⟩
  · have hpart : ∀ part ∈ pieces t,
        (part.indexed count).flatMap NamedPiece.positional = part.text := by
      intro part hmem
      refine Piece.flatMap_positional_indexed ?_
      rintro digits rfl hparameter
      obtain ⟨front, back, hholds⟩ := number_mem_pieces_iff.mp hmem
      exact ⟨hholds.alone.isNumber.ne_nil, hplain front digits back hholds hparameter⟩
    calc positionalForm ((pieces t).flatMap (Piece.rewritten count))
        = (pieces t).flatMap fun part =>
            (part.indexed count).flatMap NamedPiece.positional := by
          rw [positionalForm, hnamed, List.flatMap_assoc]
      _ = (pieces t).flatMap Piece.text := List.flatMap_congr hpart
      _ = t := hcut.flatMap_text
  · intro k hk
    rw [positions, hnamed, List.mem_filterMap] at hk
    obtain ⟨piece, hmem, hposition⟩ := hk
    obtain ⟨part, -, hpiece⟩ := List.mem_flatMap.mp hmem
    exact Piece.lt_of_position?_indexed hpiece hposition
  · intro front digits back hholds
    have hmem := number_mem_pieces_iff.mpr ⟨front, back, hholds⟩
    rw [pieces, hcut.rewritten.piecesFrom_eq] at hmem
    obtain ⟨part, -, hleft⟩ := List.mem_flatMap.mp hmem
    exact Piece.not_numbersParameter_of_mem_leftover hleft

/-- The digits of a placeholder. -/
def Piece.digits? : Piece → Option Text
  | .number digits => some digits
  | .other _ => none

/-- Of the numbers behind dollar signs, the first two are placeholders of twelve parameters, the
next two do not stand alone, and the last one numbers none. -/
theorem positionalForm_rename_mixed :
    let t := "x=$1,$12 $$1$$ $2x $13".toList
    ':' ∉ t ∧ (∀ front digits back, Holds t front digits back → digits.length ≤ digitLimit) ∧
      (∀ front digits back, Holds t front digits back → NumbersParameter 12 digits →
        Text.IsPlainNumeral digits) ∧
      rename 12 t = .ok "x=:p0,:p11 $$1$$ $2x $13".toList ∧
      positionalForm "x=:p0,:p11 $$1$$ $2x $13".toList = t := by
  intro t
  have hcolon : ':' ∉ t := by decide
  have hnumbers : (pieces t).filterMap Piece.digits? = [['1'], ['1', '2'], ['1', '3']] := by
    with_unfolding_all rfl
  have hdigits : ∀ front digits back, Holds t front digits back →
      digits = ['1'] ∨ digits = ['1', '2'] ∨ digits = ['1', '3'] := by
    intro front digits back hholds
    have hmem : digits ∈ (pieces t).filterMap Piece.digits? :=
      List.mem_filterMap.mpr ⟨_, number_mem_pieces_iff.mpr ⟨front, back, hholds⟩, rfl⟩
    simpa [hnumbers] using hmem
  have hlength : ∀ front digits back, Holds t front digits back →
      digits.length ≤ digitLimit := by
    intro front digits back hholds
    rcases hdigits front digits back hholds with rfl | rfl | rfl <;> simp [digitLimit]
  have hplain : ∀ front digits back, Holds t front digits back → NumbersParameter 12 digits →
      Text.IsPlainNumeral digits := by
    intro front digits back hholds _
    rcases hdigits front digits back hholds with rfl | rfl | rfl <;>
      exact ⟨by simp, by simp⟩
  have hrename : rename 12 t = .ok "x=:p0,:p11 $$1$$ $2x $13".toList := by
    with_unfolding_all rfl
  obtain ⟨out, hout, hback, -, -⟩ := positionalForm_rename hcolon hlength hplain
  obtain rfl := Except.ok.inj (hrename.symm.trans hout)
  exact ⟨hcolon, hlength, hplain, hrename, hback⟩

end Placeholder

end SqlComposer
