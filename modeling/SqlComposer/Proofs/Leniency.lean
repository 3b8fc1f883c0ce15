import SqlComposer.Proofs.Filling
import SqlComposer.Proofs.Written

/-!
# Strict and lenient filling in

A mapping that becomes a parameter should hold exactly one key. Strictly, the first one that does
not is refused with its keys, whatever has been numbered before it. Leniently, none is refused: each
gives its first value, and is reported once. Where there is none, both come to the same. Either way
there are integers whose numerals are written: those of the values that are written as they are, and
those of the keys in the refusal or the report. The first value that has too long a numeral there
ends the filling in. So the outcome and the reports of both ways are known from the values alone.
-/

namespace SqlComposer

/-- The keys of a mapping that does not hold exactly one. -/
def Value.ambiguousKeys? : Value → Option (List Value)
  | .map entries => if entries.length = 1 then none else some (Entries.keys entries)
  | _ => none

/-- What is written for a value that does not become a parameter. -/
def Value.inlined : Value → Except NumeralError Text
  | .null => .ok "NULL".toList
  | value => value.display

/-- The report that all but the first of some keys are dropped. -/
def Event.dropping (keys : List Value) : Event :=
  let shown := keys.filterMap (·.display.toOption)
  .truncated shown.head? shown.tail

/-- A value that does not become a parameter is written with the numerals of its plain integers. -/
theorem Value.writes_inlined (value : Value) : Writes value.inlined value.plainIntegers := by
  have hdisplay := value.writes_display
  cases value with
  | null => exact .ok _
  | _ => exact hdisplay

namespace FillMode

/-- Whether a value becomes a parameter: it is neither absent nor written as it is. -/
def stores (mode : FillMode) : Value → Bool
  | .null => false
  | value => !mode.inlines value

/-- The keys of the mappings among some values that become parameters without holding exactly one
key. -/
def ambiguous (mode : FillMode) (values : List Value) : List (List Value) :=
  (values.filter mode.stores).filterMap Value.ambiguousKeys?

/-- The parameters that stand for some values. -/
def stored (mode : FillMode) (values : List Value) : List Value :=
  (values.filter mode.stores).map Value.stored

/-- What is written for each of some values after a counter: a value that becomes a parameter has
the mark of the next number. -/
def written (mode : FillMode) (counter : ℤ) : List Value → List Text
  | [] => []
  | value :: values =>
    if mode.stores value then
      mode.style.mark (counter + 1) :: mode.written (counter + 1) values
    else value.inlined.toOption.getD [] :: mode.written counter values

/-- What a template yields after parameters up to a counter when no value fails. -/
def filled (mode : FillMode) (template : Template) (parameters : Entries) (counter : ℤ) :
    Interpolation :=
  ⟨template.first.segmentText ++
      (List.zipWith (· ++ ·) (mode.written counter template.values)
        (template.gaps.map (·.after.segmentText))).flatten,
    parameters.putAll counter (mode.stored template.values),
    counter + (mode.stored template.values).length⟩

/-- What a value yields after parameters up to a counter when it does not fail. -/
def filledValue (mode : FillMode) (parameters : Entries) (counter : ℤ) (value : Value) :
    Text × Entries × ℤ :=
  if mode.stores value then
    (mode.style.mark (counter + 1), parameters.put (counter + 1) value.stored, counter + 1)
  else (value.inlined.toOption.getD [], parameters, counter)

/-- What gaps yield after parameters up to a counter when no value fails. -/
def filledGaps (mode : FillMode) (parameters : Entries) (counter : ℤ) (gaps : List Gap) :
    Filling :=
  let values := gaps.map Gap.value
  ⟨partsOf (mode.written counter values) gaps, parameters.putAll counter (mode.stored values),
    counter + (mode.stored values).length⟩

/-! ## How values fail -/

/-- The integers whose numerals are written for a value, apart from the number of its parameter.
They are its own if it is written as it is, and otherwise those of the keys of an ambiguous mapping,
which a refusal quotes and a report shows plainly. -/
def shownIntegers (mode : FillMode) (value : Value) : List ℤ :=
  if mode.stores value then
    value.ambiguousKeys?.toList.flatten.flatMap
      (if mode.strict then Value.integers else Value.plainIntegers)
  else value.plainIntegers

/-- The keys that a value is refused with: strictly, those of an ambiguous mapping. -/
def refusedKeys? (mode : FillMode) (value : Value) : Option (List Value) :=
  if mode.strict && mode.stores value then value.ambiguousKeys? else none

/-- How a value fails to be filled in: for too long a numeral, or else for its keys. -/
def failure? (mode : FillMode) (value : Value) : Option Failure :=
  if ∃ n ∈ mode.shownIntegers value, IsLong n then some (.numeral .unwritable)
  else (mode.refusedKeys? value).map .parameterObject

/-- What is reported of a value that does not fail. -/
def reports (mode : FillMode) (value : Value) : List Event :=
  if mode.stores value then (value.ambiguousKeys?.map Event.dropping).toList else []

/-- A result for which values are filled in: the first of them that fails is the failure, and the
values before it are reported. -/
def checked {α : Type} (mode : FillMode) (values : List Value) (a : α) : Logged α :=
  ⟨(values.takeWhile fun value => (mode.failure? value).isNone).flatMap mode.reports,
    match values.findSome? mode.failure? with
    | some e => .error e
    | none => .ok a⟩

section Checked

variable {mode : FillMode} {α β : Type}

/-- A value that fails ends what is checked. -/
theorem checked_cons_of_failure {value : Value} {e : Failure} (h : mode.failure? value = some e)
    (values : List Value) (a : α) : mode.checked (value :: values) a = .ofExcept (.error e) := by
  simp [checked, h, Logged.ofExcept]

/-- A value that does not fail is reported before the others. -/
theorem checked_cons_of_none {value : Value} (h : mode.failure? value = none)
    (values : List Value) (a : α) :
    mode.checked (value :: values) a =
      ⟨mode.reports value ++ (mode.checked values a).events, (mode.checked values a).outcome⟩ := by
  simp [checked, h]

/-- A result for a first value leads to a result for the others. -/
theorem checked_bind {value : Value} {values : List Value} {a : α} {b : β} {f : α → Logged β}
    (h : f a = mode.checked values b) :
    (mode.checked [value] a >>= f) = mode.checked (value :: values) b := by
  change (mode.checked [value] a).andThen f = _
  cases hfails : mode.failure? value with
  | some e => rw [checked_cons_of_failure hfails, checked_cons_of_failure hfails]; rfl
  | none =>
    rw [checked_cons_of_none hfails, checked_cons_of_none hfails, ← h]
    simp [Logged.andThen, checked]

/-- What is made of a result does not matter to the values that are checked for it. -/
theorem checked_bind_result (values : List Value) (a : α) (f : α → β) :
    (mode.checked values a >>= fun a => .result (f a)) = mode.checked values (f a) := by
  change (mode.checked values a).andThen _ = _
  simp only [Logged.andThen, checked]
  cases values.findSome? mode.failure? <;> simp [Logged.result]

end Checked

/-! ## One value -/

/-- Keys are refused for too long a numeral, or else as they are. -/
theorem refuse_eq (keys : List Value) :
    refuse keys = if ∃ n ∈ keys.flatMap Value.integers, IsLong n then .numeral .unwritable
      else .parameterObject keys := by
  have hwrites := Value.writes_quotedList keys
  unfold refuse
  split
  case h_1 hquoted =>
    rw [if_neg]
    intro hlong
    cases hquoted.symm.trans ((hwrites _).mpr ⟨rfl, hlong⟩)
  case h_2 hquoted =>
    obtain ⟨rfl, hlong⟩ := (hwrites _).mp hquoted
    rw [if_pos hlong]

/-- What all of some values make is what each of them makes that makes something. -/
theorem filterMap_toOption_of_mapM {α β ε : Type} {f : α → Except ε β} {as : List α} {bs : List β}
    (h : as.mapM f = .ok bs) : as.filterMap (fun a => (f a).toOption) = bs := by
  induction as generalizing bs with
  | nil => cases h; rfl
  | cons a as ih =>
    rw [List.mapM_cons] at h
    obtain ⟨b, hb, h⟩ := except_bind_eq_ok_iff.mp h
    obtain ⟨rest, hrest, h⟩ := except_bind_eq_ok_iff.mp h
    cases h
    rw [List.filterMap_cons, hb]
    exact congrArg (b :: ·) (ih hrest)

/-- Keys are reported as dropped, unless one has too long a numeral. -/
theorem reportDropped_eq (keys : List Value) :
    reportDropped keys = if ∃ n ∈ keys.flatMap Value.plainIntegers, IsLong n then
        .ofExcept (.error (.numeral .unwritable))
      else .report [.dropping keys] := by
  have hwrites := Value.writes_mapM_display keys
  unfold reportDropped
  cases hshown : keys.mapM Value.display with
  | error e =>
    obtain ⟨rfl, hlong⟩ := (hwrites e).mp hshown
    rw [if_pos hlong]
    rfl
  | ok shown =>
    rw [if_neg, Event.dropping, filterMap_toOption_of_mapM hshown]
    · rfl
    · intro hlong
      cases hshown.symm.trans ((hwrites _).mpr ⟨rfl, hlong⟩)

variable {mode : FillMode}

/-- A value is written as it is exactly when it does not become a parameter. -/
theorem inlineText?_eq_inlined (mode : FillMode) (value : Value) :
    mode.inlineText? value = if mode.stores value then none else some value.inlined := by
  cases value with
  | null => rfl
  | _ =>
    simp only [inlineText?, stores, Value.inlined]
    split <;> simp [*]

/-- A mapping without exactly one key has ambiguous keys. -/
theorem ambiguousKeys?_eq {entries : Entries} (h : entries.length ≠ 1) :
    (Value.map entries).ambiguousKeys? = some entries.keys :=
  if_neg h

/-- A value with ambiguous keys is a mapping without exactly one key. -/
theorem exists_map_of_ambiguousKeys? {value : Value} {keys : List Value}
    (h : value.ambiguousKeys? = some keys) :
    ∃ entries : Entries, value = .map entries ∧ entries.length ≠ 1 := by
  cases value with
  | map entries =>
    refine ⟨entries, rfl, fun hone => ?_⟩
    rw [Value.ambiguousKeys?, if_pos hone] at h
    cases h
  | _ => cases h

/-- A value without ambiguous keys stands for its parameter. -/
theorem parameter_eq_of_none {value : Value} (h : value.ambiguousKeys? = none) :
    mode.parameter value = .result value.stored := by
  cases value with
  | map entries =>
    have hone : entries.length = 1 := by
      by_contra hne
      cases h.symm.trans (ambiguousKeys?_eq hne)
    obtain ⟨⟨key, value⟩, rfl⟩ := List.length_eq_one_iff.mp hone
    rfl
  | _ => rfl

/-- A value without ambiguous keys does not fail as a parameter. -/
theorem failure?_of_none {value : Value} (hstores : mode.stores value = true)
    (h : value.ambiguousKeys? = none) : mode.failure? value = none := by
  simp [failure?, shownIntegers, refusedKeys?, hstores, h]

/-- Strictly, a value is refused for its ambiguous keys. -/
theorem failure?_of_strict {value : Value} {keys : List Value} (hstrict : mode.strict = true)
    (hstores : mode.stores value = true) (h : value.ambiguousKeys? = some keys) :
    mode.failure? value = some (refuse keys) := by
  rw [refuse_eq]
  simp only [failure?, shownIntegers, refusedKeys?, hstrict, hstores, h, Bool.and_self, if_true,
    Option.toList_some, List.flatten_singleton, Option.map_some]
  split <;> rfl

/-- Leniently, a value fails for too long a numeral in its ambiguous keys. -/
theorem failure?_of_lenient {value : Value} {keys : List Value} (hstrict : mode.strict = false)
    (hstores : mode.stores value = true) (h : value.ambiguousKeys? = some keys) :
    mode.failure? value = if ∃ n ∈ keys.flatMap Value.plainIntegers, IsLong n then
      some (.numeral .unwritable) else none := by
  simp only [failure?, shownIntegers, refusedKeys?, hstrict, hstores, h, Bool.false_and, if_true,
    Option.toList_some, List.flatten_singleton, Option.map_none, Bool.false_eq_true, if_false]

/-- A value that becomes a parameter stands for it, for which it is checked. -/
theorem parameter_eq {value : Value} (hstores : mode.stores value = true) :
    mode.parameter value = mode.checked [value] value.stored := by
  cases hkeys : value.ambiguousKeys? with
  | none =>
    rw [parameter_eq_of_none hkeys, checked_cons_of_none (failure?_of_none hstores hkeys)]
    simp [reports, hkeys, checked, Logged.result]
  | some keys =>
    obtain ⟨entries, rfl, hne⟩ := exists_map_of_ambiguousKeys? hkeys
    cases hkeys.symm.trans (ambiguousKeys?_eq hne)
    rw [parameter_of_ambiguous mode hne]
    cases hstrict : mode.strict with
    | true =>
      rw [checked_cons_of_failure (failure?_of_strict hstrict hstores hkeys)]
      rfl
    | false =>
      have hfails := failure?_of_lenient hstrict hstores hkeys
      rw [reportDropped_eq]
      split at hfails
      case isTrue hlong =>
        rw [checked_cons_of_failure hfails, if_pos hlong]
        rfl
      case isFalse hshort =>
        rw [checked_cons_of_none hfails, if_neg hshort]
        simp [reports, hstores, hkeys, checked]
        rfl

/-- A value that is written as it is fails for too long a numeral. -/
theorem failure?_of_not_stores {value : Value} (h : mode.stores value = false) :
    mode.failure? value = if ∃ n ∈ value.plainIntegers, IsLong n then
      some (.numeral .unwritable) else none := by
  simp only [failure?, shownIntegers, refusedKeys?, h, Bool.and_false, Bool.false_eq_true,
    if_false, Option.map_none]

/-- One value yields what it yields by itself, for which it is checked, if its number can be
marked. -/
theorem fillValue_eq (parameters : Entries) {counter : ℤ} {value : Value}
    (hmark : mode.stores value = true → mode.style.CanMark (counter + 1)) :
    mode.fillValue parameters counter value =
      mode.checked [value] (mode.filledValue parameters counter value) := by
  rw [fillValue, inlineText?_eq_inlined, filledValue]
  cases hstores : mode.stores value with
  | true =>
    have hplaceholder : mode.placeholder (counter + 1) = .ok (mode.style.mark (counter + 1)) :=
      placeholder_eq_ok_iff.mpr ⟨hmark hstores, rfl⟩
    rw [parameter_eq hstores, hplaceholder]
    exact checked_bind_result [value] value.stored fun parameter : Value =>
      (mode.style.mark (counter + 1), parameters.put (counter + 1) parameter, counter + 1)
  | false =>
    have hwrites := value.writes_inlined
    have hfails := failure?_of_not_stores hstores
    split at hfails
    case isTrue hlong =>
      rw [checked_cons_of_failure hfails]
      simp [(hwrites _).mpr ⟨rfl, hlong⟩]
      rfl
    case isFalse hshort =>
      obtain ⟨t, ht⟩ := hwrites.exists_ok (by simpa using hshort)
      rw [checked_cons_of_none hfails]
      simp [ht, reports, hstores, checked]
      rfl

/-! ## All values -/

/-- A first gap comes before what the others yield after it. -/
theorem filledGaps_cons (parameters : Entries) (counter : ℤ) (gap : Gap) (gaps : List Gap) :
    mode.filledGaps parameters counter (gap :: gaps) =
      let first := mode.filledValue parameters counter gap.value
      let rest := mode.filledGaps first.2.1 first.2.2 gaps
      { rest with parts := .text first.1 :: gap.after :: rest.parts } := by
  simp only [filledGaps, filledValue, List.map_cons, written, stored, List.filter_cons]
  cases mode.stores gap.value with
  | false => rfl
  | true =>
    simp only [if_true, List.map_cons, Entries.putAll, List.length_cons, Nat.cast_succ,
      Filling.mk.injEq]
    exact ⟨rfl, trivial, by ring⟩

/-- Gaps yield what each of them yields by itself, for which their values are checked. -/
theorem fillGaps_eq (parameters : Entries) {counter : ℤ} {gaps : List Gap}
    (hmarks : ∀ n, counter < n → n ≤ counter + (mode.stored (gaps.map Gap.value)).length →
      mode.style.CanMark n) :
    mode.fillGaps parameters counter gaps =
      mode.checked (gaps.map Gap.value) (mode.filledGaps parameters counter gaps) := by
  induction gaps generalizing parameters counter with
  | nil =>
    refine congrArg (Logged.mk []) (congrArg Except.ok ?_)
    simp [filledGaps, partsOf, written, stored, Entries.putAll]
  | cons gap gaps ih =>
    let first := mode.filledValue parameters counter gap.value
    have hmark : mode.stores gap.value = true → mode.style.CanMark (counter + 1) := by
      intro hstores
      simp only [List.map_cons, stored, List.filter_cons_of_pos hstores, List.length_cons,
        Nat.cast_succ] at hmarks
      exact hmarks (counter + 1) (by omega) (by omega)
    have hrest := @ih first.2.1 first.2.2 fun n hlow hhigh => by
      cases hstores : mode.stores gap.value <;>
        simp only [first, filledValue, hstores, List.map_cons, stored, List.filter_cons,
          Bool.false_eq_true, if_false, if_true, List.length_cons, Nat.cast_succ]
          at hmarks hlow hhigh ⊢
      · exact hmarks n hlow hhigh
      · exact hmarks n (by omega) (by omega)
    rw [fillGaps, fillValue_eq parameters hmark, List.map_cons, filledGaps_cons]
    apply checked_bind
    change mode.fillGaps first.2.1 first.2.2 gaps >>= _ = _
    rw [hrest]
    exact checked_bind_result _ _ fun rest : Filling =>
      { rest with parts := .text first.1 :: gap.after :: rest.parts }

/-! ## Strict and lenient failures -/

/-- A value does not fail exactly when it has no numeral that is too long and no keys that it is
refused with. -/
theorem failure?_eq_none_iff {value : Value} :
    mode.failure? value = none ↔
      (∀ n ∈ mode.shownIntegers value, ¬IsLong n) ∧ mode.refusedKeys? value = none := by
  unfold failure?
  split
  case isTrue hlong =>
    obtain ⟨n, hn, hlong⟩ := hlong
    exact ⟨nofun, fun h => absurd hlong (h.1 n hn)⟩
  case isFalse hshort =>
    rw [not_exists] at hshort
    simpa using fun _ n hn hlong => hshort n ⟨hn, hlong⟩

/-- Leniently, values fail exactly when one of them has too long a numeral. -/
theorem findSome?_failure?_of_lenient (hstrict : mode.strict = false) {values : List Value}
    {e : Failure} :
    values.findSome? mode.failure? = some e ↔
      e = .numeral .unwritable ∧ ∃ value ∈ values, ∃ n ∈ mode.shownIntegers value, IsLong n := by
  induction values with
  | nil => simp
  | cons value values ih =>
    have hfails : mode.failure? value = if ∃ n ∈ mode.shownIntegers value, IsLong n then
        some (.numeral .unwritable) else none := by
      simp [failure?, refusedKeys?, hstrict]
    rw [List.findSome?_cons, List.exists_mem_cons_iff, hfails]
    by_cases hlong : ∃ n ∈ mode.shownIntegers value, IsLong n
    · simp [hlong, eq_comm]
    · simp [hlong, ih]

/-- The mappings of which the keys are reported are those that become parameters without holding
exactly one key. -/
theorem flatMap_reports (values : List Value) :
    values.flatMap mode.reports = (mode.ambiguous values).map Event.dropping := by
  induction values with
  | nil => rfl
  | cons value values ih =>
    rw [List.flatMap_cons, ih, ambiguous, ambiguous, List.filter_cons]
    cases hstores : mode.stores value with
    | false => simp [reports, hstores]
    | true =>
      rw [if_pos rfl, List.filterMap_cons]
      cases hkeys : value.ambiguousKeys? <;> simp [reports, hstores, hkeys]

end FillMode

/-! ## Templates -/

section Templates

variable {template : Template}

/-- Joined, what the gaps of a template yield is what the template yields. -/
theorem filledGaps_joined (mode : FillMode) (template : Template) (parameters : Entries)
    (counter : ℤ) :
    let filling := mode.filledGaps parameters counter template.gaps
    (⟨template.first.segmentText ++ filling.parts.flatMap Value.segmentText, filling.parameters,
      filling.counter⟩ : Interpolation) = mode.filled template parameters counter := by
  simp only [FillMode.filledGaps, flatMap_partsOf]
  rfl

/-- A template yields what stands for its values, for which these are checked. At last it is
reported how many values and parameters there are. -/
theorem interpolate_eq_checked (mode : FillMode) (htext : template.HasText) (parameters : Entries)
    {counter : ℤ}
    (hmarks : ∀ n, counter < n → n ≤ counter + (mode.stored template.values).length →
      mode.style.CanMark n) :
    interpolate mode template parameters counter = (do
      mode.checked template.values ()
      .report [.interpolated template.values.length (mode.stored template.values).length]
      return mode.filled template parameters counter) := by
  have hcount : ((mode.filledGaps parameters counter template.gaps).counter - counter).toNat =
      (mode.stored template.values).length := by
    simp [FillMode.filledGaps, Template.values]
  have hgaps := mode.fillGaps_eq parameters hmarks
  rw [interpolate_eq_of_hasText mode htext, ← filledGaps_joined, ← hcount, hgaps]
  change Logged.andThen _ _ = Logged.andThen _ _
  simp only [Logged.andThen, FillMode.checked, Template.values, List.length_map]
  cases (template.gaps.map Gap.value).findSome? mode.failure? <;> rfl

/-- A template of which no value fails yields what stands for its values. All mappings without
exactly one key are reported, and then how many values and parameters there are. -/
theorem interpolate_eq_filled (mode : FillMode) (htext : template.HasText) (parameters : Entries)
    {counter : ℤ}
    (hmarks : ∀ n, counter < n → n ≤ counter + (mode.stored template.values).length →
      mode.style.CanMark n)
    (hnone : ∀ value ∈ template.values, mode.failure? value = none) :
    interpolate mode template parameters counter =
      ⟨(mode.ambiguous template.values).map Event.dropping ++
          [.interpolated template.values.length (mode.stored template.values).length],
        .ok (mode.filled template parameters counter)⟩ := by
  have hfind : template.values.findSome? mode.failure? = none :=
    List.findSome?_eq_none_iff.mpr hnone
  have hall : (template.values.takeWhile fun value => (mode.failure? value).isNone) =
      template.values := List.takeWhile_eq_self_iff.mpr fun value hvalue => by
    rw [hnone value hvalue, Option.isNone_none]
  rw [interpolate_eq_checked mode htext parameters hmarks, ← FillMode.flatMap_reports]
  change Logged.andThen _ _ = _
  simp only [Logged.andThen, FillMode.checked, hfind, hall]
  rfl

/-- A template fails exactly as the first of its values that fails. -/
theorem interpolate_eq_error_iff (mode : FillMode) (htext : template.HasText)
    (parameters : Entries) {counter : ℤ}
    (hmarks : ∀ n, counter < n → n ≤ counter + (mode.stored template.values).length →
      mode.style.CanMark n) {e : Failure} :
    (interpolate mode template parameters counter).outcome = .error e ↔
      template.values.findSome? mode.failure? = some e := by
  rw [interpolate_eq_checked mode htext parameters hmarks, Logged.outcome_bind_eq_error]
  cases hfind : template.values.findSome? mode.failure? <;> simp [FillMode.checked, hfind]

/-- Filled in leniently, a template fails exactly for too long a numeral, in a value that is written
as it is or in a key that is reported. -/
theorem interpolate_leniently_eq_error_iff {mode : FillMode} (hlenient : mode.strict = false)
    (htext : template.HasText) (parameters : Entries) {counter : ℤ}
    (hmarks : ∀ n, counter < n → n ≤ counter + (mode.stored template.values).length →
      mode.style.CanMark n) {e : Failure} :
    (interpolate mode template parameters counter).outcome = .error e ↔ e = .numeral .unwritable ∧
      ∃ value ∈ template.values, ∃ n ∈ mode.shownIntegers value, IsLong n := by
  rw [interpolate_eq_error_iff mode htext parameters hmarks,
    FillMode.findSome?_failure?_of_lenient hlenient]

end Templates

end SqlComposer
