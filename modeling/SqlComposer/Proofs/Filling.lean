import SqlComposer.Interpolation
import SqlComposer.Proofs.LongNumerals
import SqlComposer.Proofs.Numbering

/-!
# What filling in writes

The text and the parameters that a template yields, said of each gap by itself. A gap whose value
becomes a parameter shows the mark of the next free number, which depends only on how many gaps
before it do the same; the parameters are the values of these gaps in their order. Filling in
succeeds exactly when every parameter object is admitted and no numeral is too long.
-/

namespace SqlComposer

/-- How a style writes the parameter with a number. -/
def Placeholder.Style.mark : Placeholder.Style → ℤ → Text
  | .positional, number => Placeholder.positional number
  | .named, number => Placeholder.named (number - 1)

/-- Whether the numeral in a style's mark of a number is short enough. -/
def Placeholder.Style.CanMark : Placeholder.Style → ℤ → Prop
  | .positional, number => number.natAbs < 10 ^ digitLimit
  | .named, number => (number - 1).natAbs < 10 ^ digitLimit

/-- Numbers of one digit can be marked. -/
theorem canMark_of_lt_ten {number : ℤ} (h : number.natAbs < 10) :
    Placeholder.Style.positional.CanMark number :=
  lt_of_lt_of_le h (le_self_pow₀ (by norm_num) (by decide))

namespace Value

/-- Whether a value becomes a parameter: all but the absent value, raw text and queries do. -/
def isParameter : Value → Bool
  | .null | .raw _ | .query _ => false
  | _ => true

/-- The parameter that stands for a value: the first value of a mapping, or the value itself. -/
def stored : Value → Value
  | .map entries => (entries.head?.map Prod.snd).getD .null
  | value => value

/-- What is written for a value, given the mark under which it would be a parameter. -/
def shownAs (mark : Text) : Value → Text
  | .null => "NULL".toList
  | .raw t => t
  | .query q => q.clauses.render
  | _ => mark

/-- The parameters that values add, in order. -/
def parametersOf (values : List Value) : List Value :=
  (values.filter isParameter).map stored

/-- What is written for each of some values. The mark of a parameter is that of the counter, plus
the parameters before it, plus one. -/
def shownAll (mark : ℤ → Text) (counter : ℤ) (values : List Value) : List Text :=
  values.zipIdx.map fun (value, i) =>
    value.shownAs (mark (counter + (values.take i).countP isParameter + 1))

/-- The text of a segment that is text. -/
def segmentText (segment : Value) : Text :=
  segment.text?.getD []

/-- After the first value the counter has grown by one if that value is a parameter. -/
theorem shownAll_cons (mark : ℤ → Text) (counter : ℤ) (value : Value) (values : List Value) :
    shownAll mark counter (value :: values) =
      value.shownAs (mark (counter + 1)) ::
        shownAll mark (if value.isParameter then counter + 1 else counter) values := by
  simp only [shownAll, List.zipIdx_cons, List.map_cons, List.take_zero, List.countP_nil,
    Nat.cast_zero, add_zero, zero_add, List.cons.injEq, true_and]
  rw [List.zipIdx_eq_map_add, List.map_map]
  refine List.map_congr_left fun entry _ => ?_
  cases hvalue : value.isParameter with
  | false => simp [hvalue, Nat.add_comm 1]
  | true =>
    simp only [Function.comp_apply, Nat.add_comm 1, List.take_succ_cons, List.countP_cons, hvalue,
      if_true, Nat.cast_add, Nat.cast_one]
    congr 2
    ring

/-- As much is written as there are values. -/
@[simp] theorem length_shownAll (mark : ℤ → Text) (counter : ℤ) (values : List Value) :
    (shownAll mark counter values).length = values.length := by
  simp [shownAll]

/-- The first value adds its parameter, if it becomes one, before those of the others. -/
theorem parametersOf_cons (value : Value) (values : List Value) :
    parametersOf (value :: values) =
      if value.isParameter then value.stored :: parametersOf values else parametersOf values := by
  cases h : value.isParameter <;> simp [parametersOf, h]

end Value

namespace Template

/-- All segments of a template are text. -/
def HasText (t : Template) : Prop :=
  ∀ segment ∈ t.segments, segment.text?.isSome = true

instance (t : Template) : Decidable t.HasText :=
  inferInstanceAs (Decidable (∀ segment ∈ t.segments, _))

/-- The parameters that a template adds, in the order of its gaps. -/
def parameters (t : Template) : List Value :=
  Value.parametersOf t.values

/-- The text of a template after so many parameters: its segments, and what is written for the
values between them. -/
def textAfter (mark : ℤ → Text) (counter : ℤ) (t : Template) : Text :=
  t.first.segmentText ++
    (List.zipWith (· ++ ·) (Value.shownAll mark counter t.values)
      (t.gaps.map (·.after.segmentText))).flatten

end Template

namespace FillMode

/-- Whether a value may be filled in: a parameter object without exactly one key needs leniency, and
keys that can be shown. -/
def admits (mode : FillMode) : Value → Bool
  | .map entries =>
    entries.length == 1 ||
      !mode.strict &&
        ((Entries.keys entries).flatMap Value.plainIntegers).all fun n => !decide (IsLong n)
  | _ => true

/-- A number has a placeholder exactly when its numeral is short enough. -/
theorem placeholder_eq_ok_iff {mode : FillMode} {number : ℤ} {t : Text} :
    mode.placeholder number = .ok t ↔
      mode.style.CanMark number ∧ mode.style.mark number = t := by
  obtain ⟨strict, inlineQueries, style, inlines⟩ := mode
  cases style with
  | positional =>
    simp [placeholder, Placeholder.mark, writeNumeral_eq_ok_iff, Placeholder.Style.CanMark,
      Placeholder.Style.mark, Placeholder.positional]
  | named =>
    simp [placeholder, Placeholder.mark, writeNumeral_eq_ok_iff, Placeholder.Style.CanMark,
      Placeholder.Style.mark, Placeholder.named, Placeholder.name]

/-- Keys are reported as dropped exactly when they can be shown. -/
theorem reportDropped_eq_ok_iff {keys : List Value} {done : Unit} :
    (reportDropped keys).outcome = .ok done ↔
      ∀ n ∈ keys.flatMap Value.plainIntegers, ¬IsLong n := by
  have hwrites := Value.writes_mapM_display keys
  simp only [reportDropped, Logged.outcome_bind_eq_ok, Logged.outcome_ofExcept,
    Logged.outcome_report, and_true, except_mapError_eq_ok_iff]
  constructor
  · rintro ⟨shown, hshown⟩ n hn hlong
    have hfails := (hwrites .unwritable).mpr ⟨rfl, n, hn, hlong⟩
    rw [hshown] at hfails
    cases hfails
  · exact hwrites.exists_ok

/-- A mapping without exactly one key is refused, or its keys are reported and its first value is
stored. -/
theorem parameter_of_ambiguous (mode : FillMode) {entries : Entries} (h : entries.length ≠ 1) :
    mode.parameter (.map entries) =
      if mode.strict then .ofExcept (.error (refuse entries.keys))
      else do
        reportDropped entries.keys
        return (Value.map entries).stored := by
  match entries, h with
  | [], _ | _ :: _ :: _, _ => rfl

/-- A mapping without exactly one key is admitted leniently, if its keys can be shown. -/
theorem admits_of_ambiguous_iff {mode : FillMode} {entries : Entries} (h : entries.length ≠ 1) :
    mode.admits (.map entries) = true ↔
      mode.strict = false ∧ ∀ n ∈ entries.keys.flatMap Value.plainIntegers, ¬IsLong n := by
  rw [admits, Bool.or_eq_true, or_iff_right (by simpa using h), Bool.and_eq_true,
    List.all_eq_true, Bool.not_eq_true']
  simp only [Bool.not_eq_true', decide_eq_false_iff_not]

/-- A value stands for the parameter that is stored for it, if it is admitted. -/
theorem parameter_eq_ok_iff {mode : FillMode} {value parameter : Value} :
    (mode.parameter value).outcome = .ok parameter ↔
      mode.admits value = true ∧ value.stored = parameter := by
  cases value with
  | map entries =>
    by_cases hsingle : entries.length = 1
    · obtain ⟨⟨key, value⟩, rfl⟩ := List.length_eq_one_iff.mp hsingle
      simp [FillMode.parameter, admits, Value.stored]
    · rw [parameter_of_ambiguous mode hsingle, admits_of_ambiguous_iff hsingle]
      cases mode.strict with
      | true => simp
      | false => simp [-List.mem_flatMap, reportDropped_eq_ok_iff]
  | _ => simp [FillMode.parameter, admits, Value.stored]

variable {mode : FillMode}

/-- With queries inlined, a value is written as it is exactly when it is no parameter. -/
theorem inlineText?_eq (hinline : mode.inlines = Value.isInline true) (mark : Text)
    (value : Value) :
    mode.inlineText? value =
      if value.isParameter then none else some (.ok (value.shownAs mark)) := by
  cases value <;>
    simp [inlineText?, Value.isInline, Value.isParameter, Value.shownAs, Value.display, hinline]

/-- One value is filled in exactly when it is no parameter, or is admitted and can be marked. -/
theorem fillValue_eq_ok_iff (hinline : mode.inlines = Value.isInline true) {parameters : Entries}
    {counter : ℤ} {value : Value} {filled : Text × Entries × ℤ} :
    (mode.fillValue parameters counter value).outcome = .ok filled ↔
      (value.isParameter = true →
        mode.admits value = true ∧ mode.style.CanMark (counter + 1)) ∧
      (value.shownAs (mode.style.mark (counter + 1)),
        if value.isParameter then (parameters.put (counter + 1) value.stored, counter + 1)
        else (parameters, counter)) = filled := by
  unfold fillValue
  rw [inlineText?_eq hinline (mode.style.mark (counter + 1))]
  cases hvalue : value.isParameter with
  | false => simp
  | true =>
    have hshown : value.shownAs (mode.style.mark (counter + 1)) =
        mode.style.mark (counter + 1) := by
      cases value <;> simp_all [Value.shownAs, Value.isParameter]
    simp [parameter_eq_ok_iff, placeholder_eq_ok_iff, hshown, and_assoc]

/-- The parts of a text: what is written for each value, and the segment after it. -/
def partsOf (shown : List Text) (gaps : List Gap) : List Value :=
  (List.zipWith (fun t gap => [Value.text t, gap.after]) shown gaps).flatten

/-- What the gaps of a template yield after parameters up to a counter, each gap by itself. -/
def fillingOf (style : Placeholder.Style) (parameters : Entries) (counter : ℤ)
    (gaps : List Gap) : Filling :=
  let values := gaps.map Gap.value
  ⟨partsOf (Value.shownAll style.mark counter values) gaps,
    parameters.putAll counter (Value.parametersOf values),
    counter + (Value.parametersOf values).length⟩

/-- The first gap yields what stands in the text for its value, and a parameter if it is one. -/
theorem fillingOf_cons (style : Placeholder.Style) (parameters : Entries) (counter : ℤ)
    (gap : Gap) (gaps : List Gap) :
    fillingOf style parameters counter (gap :: gaps) =
      let rest :=
        if gap.value.isParameter then
          fillingOf style (parameters.put (counter + 1) gap.value.stored) (counter + 1) gaps
        else fillingOf style parameters counter gaps
      let shown := gap.value.shownAs (style.mark (counter + 1))
      { rest with parts := .text shown :: gap.after :: rest.parts } := by
  simp only [fillingOf, List.map_cons, Value.shownAll_cons, Value.parametersOf_cons, partsOf,
    List.zipWith_cons_cons, List.flatten_cons, List.cons_append, List.nil_append]
  cases gap.value.isParameter with
  | false => rfl
  | true =>
    simp only [if_true, Entries.putAll, List.length_cons, Nat.cast_succ, Filling.mk.injEq, true_and]
    ring

/-- The values may be filled in after a counter: their parameters are admitted and can be marked. -/
@[mk_iff canFill_iff]
structure CanFill (mode : FillMode) (counter : ℤ) (values : List Value) : Prop where
  /-- Every parameter is admitted. -/
  admits : ∀ value ∈ values, value.isParameter = true → mode.admits value = true
  /-- Every number that a parameter takes can be marked. -/
  canMark : ∀ n, counter < n → n ≤ counter + (Value.parametersOf values).length →
    mode.style.CanMark n

/-- Without values there is nothing to be filled in. -/
theorem CanFill.nil (counter : ℤ) : mode.CanFill counter [] := by
  refine ⟨by simp, fun n hlow hhigh => ?_⟩
  simp only [Value.parametersOf, List.filter_nil, List.map_nil, List.length_nil] at hhigh
  omega

/-- Values may be filled in when the first one may, and then the others after it. -/
theorem canFill_cons {counter : ℤ} {value : Value} {values : List Value} :
    mode.CanFill counter (value :: values) ↔
      (value.isParameter = true →
        mode.admits value = true ∧ mode.style.CanMark (counter + 1)) ∧
      mode.CanFill (if value.isParameter then counter + 1 else counter) values := by
  simp only [canFill_iff, List.forall_mem_cons, Value.parametersOf_cons]
  cases hvalue : value.isParameter with
  | false => simp
  | true =>
    simp only [forall_true_left, if_true, List.length_cons, Nat.cast_succ]
    constructor
    · rintro ⟨⟨hadmits, hrest⟩, hmarks⟩
      exact ⟨⟨hadmits, hmarks _ (by omega) (by omega)⟩, hrest,
        fun n hlow hhigh => hmarks n (by omega) (by omega)⟩
    · rintro ⟨⟨hadmits, hmark⟩, hrest, hmarks⟩
      refine ⟨⟨hadmits, hrest⟩, fun n hlow hhigh => ?_⟩
      by_cases hfirst : n = counter + 1
      · rwa [hfirst]
      · exact hmarks n (by omega) (by omega)

/-- Gaps yield what each of them yields by itself, exactly when their values may be filled in. -/
theorem fillGaps_eq_ok_iff (hinline : mode.inlines = Value.isInline true) {parameters : Entries}
    {counter : ℤ} {gaps : List Gap} {filling : Filling} :
    (mode.fillGaps parameters counter gaps).outcome = .ok filling ↔
      mode.CanFill counter (gaps.map Gap.value) ∧
        fillingOf mode.style parameters counter gaps = filling := by
  induction gaps generalizing parameters counter filling with
  | nil => simp [fillGaps, fillingOf, partsOf, Value.parametersOf, Value.shownAll, Entries.putAll,
      CanFill.nil]
  | cons gap gaps ih =>
    rw [List.map_cons, canFill_cons, fillingOf_cons]
    simp only [fillGaps, Logged.outcome_bind_eq_ok, Logged.outcome_pure, Except.ok.injEq,
      fillValue_eq_ok_iff hinline]
    cases gap.value.isParameter with
    | false => simp [ih, and_assoc]
    | true => simp [ih, and_assoc]

end FillMode

/-! ## Templates -/

/-- Parts that are all text are joined, and no others. -/
theorem joinParts_eq_ok_iff {position : ℕ} {parts : List Value} {t : Text} :
    joinParts position parts = .ok t ↔
      (∀ part ∈ parts, part.text?.isSome = true) ∧ parts.flatMap Value.segmentText = t := by
  induction parts generalizing position t with
  | nil => simp [joinParts]
  | cons part parts ih =>
    cases hpart : part.text? with
    | none => simp [joinParts, hpart]
    | some first =>
      simp [joinParts, hpart, ih, Value.segmentText, and_assoc]

/-- The parts of a text are all text exactly when the segments among them are. -/
theorem forall_partsOf_iff {shown : List Text} {gaps : List Gap}
    (hlength : shown.length = gaps.length) :
    (∀ part ∈ FillMode.partsOf shown gaps, part.text?.isSome = true) ↔
      ∀ gap ∈ gaps, gap.after.text?.isSome = true := by
  induction gaps generalizing shown with
  | nil => simp [FillMode.partsOf]
  | cons gap gaps ih =>
    obtain _ | ⟨t, shown⟩ := shown
    · simp at hlength
    · have hlength' : shown.length = gaps.length := by simpa using hlength
      have hrest := ih hlength'
      simp only [FillMode.partsOf] at hrest ⊢
      simp only [List.zipWith_cons_cons, List.flatten_cons, List.forall_mem_append,
        List.forall_mem_cons, hrest]
      simp [Value.text?]

/-- Joined, the parts of a text are what is written for each value and the segment after it. -/
theorem flatMap_partsOf (shown : List Text) (gaps : List Gap) :
    (FillMode.partsOf shown gaps).flatMap Value.segmentText =
      (List.zipWith (· ++ ·) shown (gaps.map (·.after.segmentText))).flatten := by
  induction gaps generalizing shown with
  | nil => simp [FillMode.partsOf]
  | cons gap gaps ih =>
    obtain _ | ⟨t, shown⟩ := shown
    · rfl
    · have hrest := ih shown
      simp only [FillMode.partsOf] at hrest ⊢
      simp [hrest, Value.segmentText, Value.text?]

/-- The parts of a text are all text when the segments between them are. -/
theorem FillMode.isSome_text?_of_fillGaps {mode : FillMode} {parameters : Entries} {counter : ℤ}
    {gaps : List Gap} {filling : Filling}
    (hfill : (mode.fillGaps parameters counter gaps).outcome = .ok filling)
    (hgaps : ∀ gap ∈ gaps, gap.after.text?.isSome = true) :
    ∀ part ∈ filling.parts, part.text?.isSome = true := by
  induction gaps generalizing parameters counter filling with
  | nil =>
    cases hfill
    exact nofun
  | cons gap gaps ih =>
    obtain ⟨hgap, hgaps⟩ := List.forall_mem_cons.mp hgaps
    obtain ⟨⟨t, parameters', counter'⟩, -, hothers⟩ := Logged.outcome_bind_eq_ok.mp hfill
    obtain ⟨rest, hrest, hdone⟩ := Logged.outcome_bind_eq_ok.mp hothers
    cases hdone
    exact List.forall_mem_cons.mpr ⟨rfl, List.forall_mem_cons.mpr ⟨hgap, ih hrest hgaps⟩⟩

/-- Where the segments are text, filling in a template fails only where filling in its gaps does. -/
theorem interpolate_eq_of_hasText (mode : FillMode) {template : Template}
    (htext : template.HasText) (parameters : Entries) (counter : ℤ) :
    interpolate mode template parameters counter = (do
      let filling ← mode.fillGaps parameters counter template.gaps
      .report [.interpolated template.gaps.length (filling.counter - counter).toNat]
      return ⟨template.first.segmentText ++ filling.parts.flatMap Value.segmentText,
        filling.parameters, filling.counter⟩) := by
  obtain ⟨hfirst, hafters⟩ := List.forall_mem_cons.mp htext
  rw [interpolate]
  change (mode.fillGaps parameters counter template.gaps).andThen _ =
    (mode.fillGaps parameters counter template.gaps).andThen _
  unfold Logged.andThen
  cases hfill : (mode.fillGaps parameters counter template.gaps).outcome with
  | error e => rfl
  | ok filling =>
    have hparts := FillMode.isSome_text?_of_fillGaps hfill (List.forall_mem_map.mp hafters)
    have hjoined : joinParts 0 (template.first :: filling.parts) =
        .ok (template.first.segmentText ++ filling.parts.flatMap Value.segmentText) :=
      joinParts_eq_ok_iff.mpr ⟨List.forall_mem_cons.mpr ⟨hfirst, hparts⟩, rfl⟩
    simp only [hjoined]
    rfl

/-- A template is filled in exactly when its segments are text and its values may be filled in. -/
theorem interpolate_eq_ok_iff {mode : FillMode} (hinline : mode.inlines = Value.isInline true)
    {template : Template} {parameters : Entries} {counter : ℤ} {filled : Interpolation} :
    (interpolate mode template parameters counter).outcome = .ok filled ↔
      template.HasText ∧ mode.CanFill counter template.values ∧
        (⟨template.textAfter mode.style.mark counter,
          parameters.putAll counter template.parameters,
          counter + template.parameters.length⟩ : Interpolation) = filled := by
  let shown := Value.shownAll mode.style.mark counter template.values
  have hlength : shown.length = template.gaps.length := by simp [shown, Template.values]
  have hparts := forall_partsOf_iff hlength
  have htext : (∀ part ∈ template.first :: FillMode.partsOf shown template.gaps,
      part.text?.isSome = true) ↔ template.HasText := by
    simp [Template.HasText, Template.segments, hparts]
  have hjoined : (template.first :: FillMode.partsOf shown template.gaps).flatMap
      Value.segmentText = template.textAfter mode.style.mark counter := by
    rw [List.flatMap_cons, flatMap_partsOf, Template.textAfter]
  simp only [interpolate, Logged.outcome_bind_eq_ok, Logged.outcome_report,
    Logged.outcome_ofExcept, Logged.outcome_pure, Except.ok.injEq, exists_const,
    FillMode.fillGaps_eq_ok_iff hinline, joinParts_eq_ok_iff]
  constructor
  · rintro ⟨_, ⟨hcan, rfl⟩, -, _, ⟨hall, rfl⟩, rfl⟩
    exact ⟨htext.mp hall, hcan, congrArg (Interpolation.mk · _ _) hjoined.symm⟩
  · rintro ⟨hall, hcan, rfl⟩
    exact ⟨_, ⟨hcan, rfl⟩, trivial, _, ⟨htext.mpr hall, rfl⟩,
      congrArg (Interpolation.mk · _ _) hjoined⟩

end SqlComposer
