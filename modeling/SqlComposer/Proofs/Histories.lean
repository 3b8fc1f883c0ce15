import SqlComposer.Proofs.Layout
import SqlComposer.Proofs.Placements
import SqlComposer.Proofs.Reachable

/-!
# Histories of queries

A query is made by calls, each on the query of the call before. The dollar signs in its text are
those of the placeholders that the templates of the calls write, less those in texts that are
discarded on the way. Had the calls written named placeholders instead, they would have made the
same query with every text renamed.
-/

namespace SqlComposer

/-! ## Calls in a style -/

/-- Values filled in as before, with placeholders in another style. -/
def FillMode.withStyle (mode : FillMode) (style : Placeholder.Style) : FillMode :=
  { mode with style }

/-- The query that a template makes, of a query or, to start a new one, of none. -/
def Query.apply (mode : FillMode) (template : Template) : Option Query → Logged Query
  | none => Query.start mode template
  | some q => q.extend mode template

/-- What a call yields when placeholders are written in a style. -/
def Call.outcome (style : Placeholder.Style) (a : Ambient) (call : Call) (on : Option Query) :
    Except Failure Query :=
  (a.onTemplate (call.template on) fun mode template =>
    Query.apply (mode.withStyle style) template on).1.outcome

/-- A call writes positional placeholders. -/
theorem Call.outcome_positional (a : Ambient) (call : Call) (on : Option Query) :
    call.outcome .positional a on = (call.run a on).1.outcome := by
  cases on <;> rfl

/-- A template makes a query exactly when it can be filled in and the parts that it makes are
accepted. -/
theorem Query.apply_eq_ok_iff {mode : FillMode} {template : Template} {on : Option Query}
    {q : Query} :
    (Query.apply mode template on).outcome = .ok q ↔
      ∃ filled, (interpolate mode template (receiver on).parameters
          (receiver on).counter).outcome = .ok filled ∧
        ofParts (clausesWith on filled.text) filled.parameters filled.counter = .ok q := by
  cases on with
  | none => simp [apply, start, receiver, clausesWith, empty]
  | some r => simp [apply, extend, receiver, clausesWith]

/-- A call in any style succeeds exactly when its template can be read and filled in under settings
that can be read, and the parts that it makes are accepted. -/
theorem Call.outcome_eq_ok_iff {style : Placeholder.Style} {a : Ambient} {call : Call}
    {on : Option Query} {q : Query} :
    call.outcome style a on = .ok q ↔
      ∃ template settings, call.template on = .ok template ∧
        a.current.1 = .ok settings ∧ template.HasText ∧
        ((Query.fillMode settings.strictParameterObjects).withStyle style).CanFill
          (Query.receiver on).counter template.values ∧
        Query.ofParts
          (Query.clausesWith on (template.textAfter style.mark (Query.receiver on).counter))
          (Entries.putAll (Query.receiver on).parameters (Query.receiver on).counter
            template.parameters)
          ((Query.receiver on).counter + template.parameters.length) = .ok q := by
  rw [Call.outcome, Ambient.onTemplate_outcome_eq_ok_iff]
  constructor
  · rintro ⟨template, settings, htemplate, hsettings, happly⟩
    obtain ⟨filled, hfilled, hparts⟩ := Query.apply_eq_ok_iff.mp happly
    obtain ⟨htext, hcan, rfl⟩ := (interpolate_eq_ok_iff rfl).mp hfilled
    exact ⟨template, settings, htemplate, hsettings, htext, hcan, hparts⟩
  · rintro ⟨template, settings, htemplate, hsettings, htext, hcan, hparts⟩
    exact ⟨template, settings, htemplate, hsettings, Query.apply_eq_ok_iff.mpr
      ⟨_, (interpolate_eq_ok_iff rfl).mpr ⟨htext, hcan, rfl⟩, hparts⟩⟩

namespace Query

/-! ## Histories -/

/-- A call under ambient settings. -/
structure Step where
  /-- The settings. -/
  ambient : Ambient
  /-- The call. -/
  call : Call

/-- A call with a template under the default settings. -/
def Step.ofTemplate (t : Template) : Step :=
  ⟨⟨[], none, some {}⟩, ⟨.template t, {}⟩⟩

/-- The query that calls make when placeholders are written in a style, the latest call first. The
first call starts the query, and every other one extends it. -/
def run (style : Placeholder.Style) : List Step → Except Failure (Option Query)
  | [] => .ok none
  | step :: earlier => do
    let on ← run style earlier
    some <$> step.call.outcome style step.ambient on

/-- Every template of some calls has a property, which may depend on the number of parameters before
it. -/
def Every (P : ℤ → Template → Prop) : List Step → Prop
  | [] => True
  | step :: earlier =>
    Every P earlier ∧ ∀ on template, run .positional earlier = .ok on →
      step.call.template on = .ok template →
        P (receiver on).counter template

/-- The texts that the text of a template discards: as a statement or as a further fragment. -/
def discardsWith (on : Option Query) (text : Text) : List Text :=
  match on with
  | none => Statement.discards .empty text
  | some q => Fragment.discards q.clauses text

/-- The texts that calls discard. -/
def discarded : List Step → List Text
  | [] => []
  | step :: earlier =>
    match run .positional earlier with
    | .error _ => discarded earlier
    | .ok on =>
      match step.call.template on with
      | .error _ => discarded earlier
      | .ok template =>
        discarded earlier ++
          discardsWith on (template.textAfter Placeholder.positional (receiver on).counter)

/-- A further call makes a query exactly when the calls before it make one, and it extends that
query. -/
theorem run_cons_eq_ok_iff {style : Placeholder.Style} {step : Step} {earlier : List Step}
    {on' : Option Query} :
    run style (step :: earlier) = .ok on' ↔
      ∃ on q, run style earlier = .ok on ∧ step.call.outcome style step.ambient on = .ok q ∧
        some q = on' := by
  rw [run]
  cases run style earlier with
  | error e => simp [bind, Except.bind]
  | ok on => simp [bind, Except.bind]

/-- The query that calls make is numbered. -/
theorem isNumbered_of_run {style : Placeholder.Style} {steps : List Step} {on : Option Query}
    (hrun : run style steps = .ok on) : (receiver on).IsNumbered := by
  induction steps generalizing on with
  | nil =>
    cases hrun
    exact .nil
  | cons step earlier ih =>
    obtain ⟨on, q, hearlier, hcall, rfl⟩ := run_cons_eq_ok_iff.mp hrun
    obtain ⟨template, -, -, -, -, -, hparts⟩ := Call.outcome_eq_ok_iff.mp hcall
    obtain ⟨-, rfl⟩ := ofParts_eq_ok_iff.mp hparts
    exact (ih hearlier).putAll template.parameters

/-- The query that a template makes when placeholders are written in a style. -/
def made (style : Placeholder.Style) (on : Option Query) (template : Template) : Query where
  clauses := clausesWith on (template.textAfter style.mark (receiver on).counter)
  parameters := Entries.putAll (receiver on).parameters (receiver on).counter template.parameters
  counter := (receiver on).counter + template.parameters.length

/-- A further call makes the query of its template, if the template can be read, its segments are
text, each parameter object is admitted and the numerals are not too long. -/
theorem run_cons_eq_ok {style : Placeholder.Style} {step : Step} {earlier : List Step}
    {on : Option Query} {template : Template} {settings : Settings}
    (hearlier : run style earlier = .ok on)
    (htemplate : step.call.template on = .ok template)
    (hsettings : step.ambient.current.1 = .ok settings) (htext : template.HasText)
    (hadmits : ∀ value ∈ template.values, value.isParameter = true →
      (fillMode settings.strictParameterObjects).admits value = true)
    (hlimit : (made style on template).counter < 10 ^ digitLimit) :
    run style (step :: earlier) = .ok (some (made style on template)) := by
  have hnumbered := isNumbered_of_run hearlier
  refine run_cons_eq_ok_iff.mpr ⟨on, _, hearlier, Call.outcome_eq_ok_iff.mpr ⟨template, settings,
    htemplate, hsettings, htext, ⟨hadmits, fun n hlow hhigh => ?_⟩,
    ofParts_eq_ok_iff.mpr ⟨(hnumbered.putAll template.parameters).isDense, rfl⟩⟩, rfl⟩
  have hnonneg := hnumbered.nonneg
  have hle : n ≤ (made style on template).counter := hhigh
  have hbound : n < 10 ^ digitLimit := by omega
  cases style with
  | positional =>
    have hnat : (n.natAbs : ℤ) = n := by omega
    exact_mod_cast hnat ▸ hbound
  | named =>
    have hnat : ((n - 1).natAbs : ℤ) = n - 1 := by omega
    have hbound' : n - 1 < 10 ^ digitLimit := by omega
    exact_mod_cast hnat ▸ hbound'

/-- A further call with a template makes its query as long as there are few parameters. -/
theorem run_ofTemplate {style : Placeholder.Style} {earlier : List Step} {on : Option Query}
    {t : Template} (hearlier : run style earlier = .ok on) (htext : t.HasText)
    (hadmits : ∀ value ∈ t.values, value.isParameter = true →
      (fillMode ({} : Settings).strictParameterObjects).admits value = true)
    (hfew : (receiver on).counter + t.parameters.length ≤ 9) :
    run style (.ofTemplate t :: earlier) = .ok (some (made style on t)) := by
  have hpow : (10 : ℤ) ≤ 10 ^ digitLimit := le_self_pow₀ (by norm_num) (by decide)
  exact run_cons_eq_ok hearlier rfl rfl htext hadmits
    (lt_of_lt_of_le (Int.lt_add_one_of_le hfew) hpow)

/-- What the latest of some calls has done: it has read a template with the property that all
templates have, and has filled it in behind the parameters of the query before. -/
theorem exists_template_of_run {P : ℤ → Template → Prop} {step : Step} {earlier : List Step}
    {on' : Option Query} (hrun : run .positional (step :: earlier) = .ok on')
    (hevery : Every P (step :: earlier)) :
    ∃ on q template, run .positional earlier = .ok on ∧ Every P earlier ∧ on' = some q ∧
      0 ≤ (receiver on).counter ∧ P (receiver on).counter template ∧
      step.call.outcome .positional step.ambient on = .ok q ∧
      step.call.template on = .ok template ∧
      q = made .positional on template ∧
      discarded (step :: earlier) = discarded earlier ++
        discardsWith on (template.textAfter Placeholder.positional (receiver on).counter) := by
  obtain ⟨on, q, hearlier, hcall, rfl⟩ := run_cons_eq_ok_iff.mp hrun
  obtain ⟨template, settings, htemplate, -, -, -, hparts⟩ := Call.outcome_eq_ok_iff.mp hcall
  obtain ⟨-, rfl⟩ := ofParts_eq_ok_iff.mp hparts
  refine ⟨on, _, template, hearlier, hevery.1, rfl, (isNumbered_of_run hearlier).nonneg,
    hevery.2 on template hearlier htemplate, hcall, htemplate, rfl, ?_⟩
  simp only [discarded, hearlier, htemplate]

/-! ## Dollar signs -/

/-- The dollar signs of a text and those of the clauses before it are together those of the clauses
after it and those that it discards. -/
theorem dollars_clausesWith (on : Option Query) (text : Text) :
    ((clausesWith on text).dollars ++ (discardsWith on text).flatMap Placeholder.dollars).Perm
      ((receiver on).clauses.dollars ++ Placeholder.dollars text) := by
  cases on with
  | none => exact Statement.dollars_read .empty text
  | some q => exact Fragment.dollars_add q.clauses text

/-- An entry after a text is an earlier one or a part of the text, possibly behind a connective. -/
theorem mem_entries_clausesWith {on : Option Query} {text entry : Text}
    (h : entry ∈ (clausesWith on text).entries) :
    entry ∈ (receiver on).clauses.entries ∨ Fragment.IsConnectedPart entry text := by
  cases on with
  | none => exact (Statement.mem_entries_read h).imp_right Fragment.isConnectedPart_of_isPart
  | some q => exact Fragment.mem_entries_add h

variable {steps : List Step} {q : Query}

/-- If no template holds a dollar sign of its own and no digit follows a placeholder, the dollar
signs of the clauses and of the discarded texts are together the placeholders of all parameters. -/
theorem dollars_of_run {on : Option Query} (hrun : run .positional steps = .ok on)
    (hsteps : Every Template.IsEnded steps) :
    ((receiver on).clauses.dollars ++ (discarded steps).flatMap Placeholder.dollars).Perm
      ((Entries.numbersUpTo (receiver on).counter).map Text.ofInt) := by
  induction steps generalizing on with
  | nil =>
    cases hrun
    exact .refl _
  | cons step earlier ih =>
    obtain ⟨on, q, template, hearlier, hevery, rfl, hnonneg, hended, -, -, rfl,
      hdiscarded⟩ := exists_template_of_run hrun hsteps
    let q := made .positional on template
    have hnumbers : Entries.numbersUpTo q.counter = Entries.numbersUpTo (receiver on).counter ++
        (template.placements (receiver on).counter).map Placement.number := by
      rw [Template.number_placements, ← Entries.numbersUpTo_add hnonneg]
      rfl
    have hclauses : clausesWith on
        (template.textAfter Placeholder.positional (receiver on).counter) = q.clauses := rfl
    have htext := Template.dollars_textAfter hnonneg hended
    have hstep := dollars_clausesWith on
      (template.textAfter Placeholder.positional (receiver on).counter)
    have hbefore := ih hearlier hevery
    have hgoal : receiver (some q) = q := rfl
    rw [hclauses, htext] at hstep
    rw [hgoal, hnumbers, hdiscarded, List.map_append, List.flatMap_append]
    rw [List.perm_iff_count] at hstep hbefore ⊢
    intro digits
    have hstep := hstep digits
    have hbefore := hbefore digits
    simp only [List.count_append] at hstep hbefore ⊢
    omega

/-- A property of texts that parts inherit, also behind a connective, passes from the texts of the
templates to the entries. -/
theorem forall_entries_of_run {P : Text → Prop}
    (hP : ∀ entry text, Fragment.IsConnectedPart entry text → P text → P entry)
    {on : Option Query} (hrun : run .positional steps = .ok on)
    (hsteps : Every (fun counter template =>
      P (template.textAfter Placeholder.positional counter)) steps) :
    ∀ entry ∈ (receiver on).clauses.entries, P entry := by
  induction steps generalizing on with
  | nil =>
    cases hrun
    rintro entry ⟨⟩
  | cons step earlier ih =>
    obtain ⟨on, q, template, hearlier, hevery, rfl, -, htext, -, -, rfl, -⟩ :=
      exists_template_of_run hrun hsteps
    intro entry hentry
    rcases mem_entries_clausesWith hentry with hold | hnew
    · exact ih hearlier hevery entry hold
    · exact hP entry _ hnew htext

/-- A property of all templates passes to a weaker one; no counter is negative. -/
theorem Every.imp {P Q : ℤ → Template → Prop}
    (hPQ : ∀ counter template, 0 ≤ counter → P counter template → Q counter template)
    (h : Every P steps) : Every Q steps := by
  induction steps with
  | nil => trivial
  | cons step earlier ih =>
    refine ⟨ih h.1, fun on template hrun htemplate => ?_⟩
    exact hPQ _ template (isNumbered_of_run hrun).nonneg (h.2 on template hrun htemplate)

/-- The templates of calls have a property when those of the earlier calls do and the latest one,
read behind the query of these calls, has it too. -/
theorem Every.cons {P : ℤ → Template → Prop} {step : Step} {earlier : List Step}
    {on : Option Query} {template : Template} (hearlier : Every P earlier)
    (hrun : run .positional earlier = .ok on)
    (htemplate : step.call.template on = .ok template)
    (h : P (receiver on).counter template) : Every P (step :: earlier) := by
  refine ⟨hearlier, fun on' template' hrun' htemplate' => ?_⟩
  cases hrun.symm.trans hrun'
  cases htemplate.symm.trans htemplate'
  exact h

/-- Placeholders that stand apart are ended. -/
theorem Every.isEnded (h : Every Template.IsApart steps) :
    Every Template.IsEnded steps :=
  h.imp fun _ _ _ h => h.isEnded

/-- The numerals of all parameters are short enough to be read. -/
theorem counter_lt_of_run {on : Option Query}
    (hrun : run .positional steps = .ok on) : (receiver on).counter < 10 ^ digitLimit := by
  induction steps generalizing on with
  | nil =>
    cases hrun
    exact pow_pos (by norm_num) digitLimit
  | cons step earlier ih =>
    obtain ⟨on, q, hearlier, hcall, rfl⟩ := run_cons_eq_ok_iff.mp hrun
    obtain ⟨template, settings, -, -, -, hcan, hparts⟩ := Call.outcome_eq_ok_iff.mp hcall
    obtain ⟨-, rfl⟩ := ofParts_eq_ok_iff.mp hparts
    have hnonneg := (isNumbered_of_run hearlier).nonneg
    change (receiver on).counter + (template.parameters.length : ℤ) < 10 ^ digitLimit
    by_cases hnone : template.parameters.length = 0
    · simpa [hnone] using ih hearlier
    · -- the last number of the template has been written
      have hmark := hcan.canMark ((receiver on).counter + template.parameters.length) (by omega)
        le_rfl
      have hshort : ((receiver on).counter + template.parameters.length).natAbs <
          10 ^ digitLimit := hmark
      have hnat : ((((receiver on).counter + template.parameters.length).natAbs : ℕ) : ℤ) =
          (receiver on).counter + template.parameters.length := by omega
      rw [← hnat]
      exact_mod_cast hshort

/-- The number of a parameter is read off its numeral. -/
theorem numeralValue_of_mem_numbersUpTo {counter n : ℤ} (h : n ∈ Entries.numbersUpTo counter) :
    (Text.numeralValue (Text.ofInt n) : ℤ) = n := by
  obtain ⟨n, rfl⟩ := Int.eq_ofNat_of_zero_le
    (by have := (Entries.mem_numbersUpTo.mp h).1; omega : 0 ≤ n)
  exact congrArg Nat.cast (Text.numeralValue_ofNat n)

/-- The numbers of parameters have the numerals of natural numbers. -/
theorem exists_ofNat_of_mem_numbersUpTo {count : ℕ} {n : ℤ} (h : n ∈ Entries.numbersUpTo count) :
    ∃ m, 1 ≤ m ∧ m ≤ count ∧ Text.ofInt n = Text.ofNat m := by
  obtain ⟨hlow, hhigh⟩ := Entries.mem_numbersUpTo.mp h
  obtain ⟨m, rfl⟩ := Int.eq_ofNat_of_zero_le (by omega : 0 ≤ n)
  exact ⟨m, by omega, by omega, rfl⟩

/-- The dollar signs in the text of a query are some of those of its clauses. -/
theorem dollars_text_sublist (q : Query) :
    (Placeholder.dollars q.text).Sublist q.clauses.dollars := by
  rw [text, Clauses.dollars_render]
  exact q.clauses.written_sublist.flatMap _

/-- The digits behind the dollar signs in the text of a query are the numerals of parameters, each
no more than once. -/
theorem dollars_text_of_run (hrun : run .positional steps = .ok (some q))
    (hsteps : Every Template.IsEnded steps) :
    (Placeholder.dollars q.text).Nodup ∧
      ∀ digits ∈ Placeholder.dollars q.text,
        ∃ n ∈ Entries.numbersUpTo q.counter, Text.ofInt n = digits := by
  have hperm := dollars_of_run hrun hsteps
  rw [receiver, Option.getD_some] at hperm
  have hnodup : ((Entries.numbersUpTo q.counter).map Text.ofInt).Nodup := by
    refine List.Nodup.map_on (fun m hm n hn heq => ?_) (Entries.nodup_numbersUpTo q.counter)
    rw [← numeralValue_of_mem_numbersUpTo hm, heq, numeralValue_of_mem_numbersUpTo hn]
  obtain ⟨hclauses, -⟩ := List.nodup_append.mp (hperm.nodup_iff.mpr hnodup)
  refine ⟨hclauses.sublist q.dollars_text_sublist, fun digits hdigits => ?_⟩
  have hmem := List.mem_append_left ((discarded steps).flatMap Placeholder.dollars)
    (q.dollars_text_sublist.subset hdigits)
  exact List.mem_map.mp (hperm.subset hmem)

/-- Every dollar sign in the text of a query begins the placeholder of a parameter, and no two begin
the same, if no template holds a dollar sign of its own and no digit follows a placeholder in the
text of its template. -/
theorem numbers_of_run (hrun : run .positional steps = .ok (some q))
    (hsteps : Every Template.IsEnded steps) :
    ∃ numbers : List ℤ, Placeholder.dollars q.text = numbers.map Text.ofInt ∧ numbers.Nodup ∧
      ∀ n ∈ numbers, 1 ≤ n ∧ n ≤ q.counter := by
  obtain ⟨hnodup, hnumbers⟩ := dollars_text_of_run hrun hsteps
  let numbers : List ℤ :=
    (Placeholder.dollars q.text).map fun digits => (Text.numeralValue digits : ℤ)
  have hdigits : Placeholder.dollars q.text = numbers.map Text.ofInt := by
    rw [List.map_map]
    conv_lhs => rw [← List.map_id (Placeholder.dollars q.text)]
    refine List.map_congr_left fun digits hmem => ?_
    obtain ⟨n, hn, rfl⟩ := hnumbers digits hmem
    rw [Function.comp_apply, numeralValue_of_mem_numbersUpTo hn, id]
  refine ⟨numbers, hdigits, List.Nodup.of_map Text.ofInt (hdigits ▸ hnodup), fun n hn => ?_⟩
  obtain ⟨digits, hmem, rfl⟩ := List.mem_map.mp hn
  obtain ⟨m, hm, rfl⟩ := hnumbers digits hmem
  rw [numeralValue_of_mem_numbersUpTo hm]
  exact Entries.mem_numbersUpTo.mp hm

/-- A statement with a condition on two parameters, and a limit that another one replaces. -/
theorem numbers_of_run_second_limit :
    let statement : Template :=
      ⟨.text "SELECT *\nFROM t\nWHERE a BETWEEN ".toList,
        [⟨.int 7, .text " AND ".toList⟩, ⟨.int 8, .text []⟩]⟩
    let limit (n : ℤ) : Template := ⟨.text "LIMIT ".toList, [⟨.int n, .text []⟩]⟩
    let steps : List Step := [.ofTemplate (limit 10), .ofTemplate (limit 5), .ofTemplate statement]
    ∃ q, run .positional steps = .ok (some q) ∧
      Every Template.IsEnded steps ∧
      q.text = "SELECT\n  *\nFROM t\nWHERE a BETWEEN $1 AND $2\nLIMIT $4".toList ∧
      ∃ numbers : List ℤ, Placeholder.dollars q.text = numbers.map Text.ofInt ∧ numbers.Nodup ∧
        ∀ n ∈ numbers, 1 ≤ n ∧ n ≤ 4 := by
  intro statement limit steps
  let made₁ := made .positional none statement
  let made₂ := made .positional (some made₁) (limit 5)
  let made₃ := made .positional (some made₂) (limit 10)
  have hrun₁ : run .positional [.ofTemplate statement] = .ok (some made₁) :=
    run_ofTemplate rfl (by decide) (by decide) (by decide)
  have hrun₂ : run .positional [.ofTemplate (limit 5), .ofTemplate statement] = .ok (some made₂) :=
    run_ofTemplate hrun₁ (by decide) (by decide) (by decide)
  have hrun₃ : run .positional steps = .ok (some made₃) :=
    run_ofTemplate hrun₂ (by decide) (by decide) (by decide)
  have hsteps : Every Template.IsEnded steps :=
    .cons (.cons (.cons trivial rfl rfl (by decide +kernel)) hrun₁ rfl (by decide +kernel))
      hrun₂ rfl (by decide +kernel)
  exact ⟨made₃, hrun₃, hsteps, by decide +kernel, numbers_of_run hrun₃ hsteps⟩

end Query

end SqlComposer
