import SqlComposer.Proofs.Call

/-!
# Parameters of reachable queries

Queries come from statements, from given parts that are accepted, and from calls on other queries.
The parameters of every such query are numbered from one up to its counter. A call puts those of
its template behind them and refers to each by its number, so that the parts that it makes are
accepted and every number has a value.
-/

namespace SqlComposer.Query

/-- The parameters are numbered from one up to the counter. -/
def IsNumbered (q : Query) : Prop :=
  Entries.NumberedTo q.parameters q.counter

/-- The queries that calls lead to, each under ambient settings of its own. A query that is given by
its parts has a mapping of parameters and no negative counter. -/
inductive Reachable : Query → Prop
  | parsed (statement : Text) : Reachable (parse statement)
  | given {clauses : Clauses} {parameters : Entries} {counter : ℤ} {q : Query}
      (hmapping : parameters.IsMapping) (hcounter : 0 ≤ counter)
      (hok : ofParts clauses parameters counter = .ok q) : Reachable q
  | started {a : Ambient} {call : Call} {q : Query}
      (hok : (call.run a none).1.outcome = .ok q) : Reachable q
  | extended {a : Ambient} {call : Call} {receiver q : Query} (hreceiver : Reachable receiver)
      (hok : (call.run a (some receiver)).1.outcome = .ok q) : Reachable q

/-- What a successful call makes of the parameters of its receiver and its template. -/
theorem eq_of_call {a : Ambient} {call : Call} {on : Option Query} {q : Query}
    (hok : (call.run a on).1.outcome = .ok q) :
    ∃ template settings, call.template on = .ok template ∧
      a.current.1 = .ok settings ∧ template.HasText ∧
      (interpolate (fillMode settings.strictParameterObjects) template (receiver on).parameters
        (receiver on).counter).outcome =
          .ok ⟨template.textAfter Placeholder.positional (receiver on).counter,
            q.parameters, q.counter⟩ ∧
      q.clauses = clausesWith on
        (template.textAfter Placeholder.positional (receiver on).counter) ∧
      q.counter = (receiver on).counter + template.parameters.length ∧
      q.parameters = Entries.putAll (receiver on).parameters (receiver on).counter
        template.parameters := by
  obtain ⟨template, settings, filled, htemplate, hsettings, hfilled, hparts⟩ :=
    Call.run_eq_ok_iff.mp hok
  obtain ⟨htext, -, heq⟩ := (interpolate_eq_ok_iff rfl).mp hfilled
  obtain ⟨-, rfl⟩ := ofParts_eq_ok_iff.mp hparts
  subst heq
  exact ⟨template, settings, htemplate, hsettings, htext, hfilled, rfl, rfl, rfl⟩

/-- A call on a numbered query makes a numbered query. -/
theorem IsNumbered.of_call {a : Ambient} {call : Call} {on : Option Query} {q : Query}
    (hon : (receiver on).IsNumbered) (hok : (call.run a on).1.outcome = .ok q) :
    q.IsNumbered := by
  obtain ⟨template, -, -, -, -, -, -, hcounter, hparameters⟩ := eq_of_call hok
  rw [IsNumbered, hcounter, hparameters]
  exact hon.putAll template.parameters

/-- Every reachable query is numbered. -/
theorem Reachable.isNumbered {q : Query} (h : Reachable q) : q.IsNumbered := by
  induction h with
  | parsed statement => exact .nil
  | given hmapping hcounter hok =>
    obtain ⟨hdense, rfl⟩ := ofParts_eq_ok_iff.mp hok
    exact .of_isDense hmapping hcounter hdense
  | started hok =>
    have hempty : (receiver none).IsNumbered := .nil
    exact hempty.of_call hok
  | @extended _ _ q _ _ hok ih =>
    have hreceiver : (receiver (some q)).IsNumbered := ih
    exact hreceiver.of_call hok

/-- The receiver of a call on a reachable query, or on none, is numbered. -/
theorem isNumbered_receiver {on : Option Query} (hon : ∀ q ∈ on, Reachable q) :
    (receiver on).IsNumbered := by
  cases on with
  | none => exact .nil
  | some q => exact (hon q rfl).isNumbered

/-- The parts that a call on a numbered query makes are accepted. -/
theorem IsNumbered.ofParts_eq_ok {on : Option Query} (hon : (receiver on).IsNumbered)
    (clauses : Clauses) (values : List Value) :
    ∃ q, ofParts clauses (Entries.putAll (receiver on).parameters (receiver on).counter values)
      ((receiver on).counter + values.length) = .ok q :=
  ⟨_, ofParts_eq_ok_iff.mpr ⟨(hon.putAll values).isDense, rfl⟩⟩

/-- A call on a numbered query succeeds when its template can be read and filled in. -/
theorem IsNumbered.exists_call {a : Ambient} {call : Call} {on : Option Query}
    {template : Template} {settings : Settings} (hon : (receiver on).IsNumbered)
    (htemplate : call.template on = .ok template)
    (hsettings : a.current.1 = .ok settings) (htext : template.HasText)
    (hcan : (fillMode settings.strictParameterObjects).CanFill (receiver on).counter
      template.values) :
    ∃ q, (call.run a on).1.outcome = .ok q := by
  obtain ⟨q, hq⟩ := hon.ofParts_eq_ok (clausesWith on
    (template.textAfter Placeholder.positional (receiver on).counter)) template.parameters
  exact ⟨q, Call.run_eq_ok_iff.mpr ⟨template, settings, _, htemplate, hsettings,
    (interpolate_eq_ok_iff rfl).mpr ⟨htext, hcan, rfl⟩, hq⟩⟩

/-- A call on a numbered query is never refused for the keys of the parameters that it makes. -/
theorem IsNumbered.isRefusal_of_call {a : Ambient} {call : Call} {on : Option Query} {e : Failure}
    (hon : (receiver on).IsNumbered) (herror : (call.run a on).1.outcome = .error e) :
    e.isRefusal = false := by
  by_contra hrefusal
  obtain ⟨strict, template, filled, hfilled, hparts⟩ :=
    Call.exists_filled_of_isRefusal herror (by simpa using hrefusal)
  obtain ⟨-, -, rfl⟩ := (interpolate_eq_ok_iff rfl).mp hfilled
  obtain ⟨q, hq⟩ := hon.ofParts_eq_ok (clausesWith on
    (template.textAfter Placeholder.positional (receiver on).counter)) template.parameters
  cases hparts.symm.trans hq

/-- The parameters of a reachable query are numbered from one up to its counter, and every number
has a value. A call on it, or one that starts a new query, is never refused for the keys of its
parameters. When it succeeds, the text of the template shows each parameter by its number and any
other value as it is written, and the values of the parameters follow the earlier ones. It does
succeed if the segments are text, each parameter object is admitted and the numerals are not too
long. -/
theorem parameters_of_reachable {on : Option Query} (hon : ∀ q ∈ on, Reachable q) :
    (receiver on).IsNumbered ∧
    ∃ earlier, (receiver on).values = .ok earlier ∧
      (earlier.length : ℤ) = (receiver on).counter ∧
      ∀ (a : Ambient) (call : Call),
        (∀ q, (call.run a on).1.outcome = .ok q →
          ∃ template settings, call.template on = .ok template ∧
            a.current.1 = .ok settings ∧ template.HasText ∧
            (interpolate (fillMode settings.strictParameterObjects) template
              (receiver on).parameters (receiver on).counter).outcome =
                .ok ⟨template.textAfter Placeholder.positional (receiver on).counter,
                  q.parameters, q.counter⟩ ∧
            q.clauses = clausesWith on
              (template.textAfter Placeholder.positional (receiver on).counter) ∧
            q.counter = (receiver on).counter + template.parameters.length ∧
            q.values = .ok (earlier ++ template.parameters)) ∧
        (∀ e, (call.run a on).1.outcome = .error e → e.isRefusal = false) ∧
        ∀ template settings, call.template on = .ok template →
          a.current.1 = .ok settings → template.HasText →
          (∀ value ∈ template.values, value.isParameter = true →
            (fillMode settings.strictParameterObjects).admits value = true) →
          (receiver on).counter + template.parameters.length < 10 ^ digitLimit →
          ∃ q, (call.run a on).1.outcome = .ok q := by
  have hnumbered := isNumbered_receiver hon
  obtain ⟨earlier, hearlier, hlength⟩ := hnumbered.exists_values
  refine ⟨hnumbered, earlier, except_mapError_eq_ok_iff.mpr hearlier, hlength,
    fun a call => ⟨fun q hok => ?_, fun e => hnumbered.isRefusal_of_call, ?_⟩⟩
  · obtain ⟨template, settings, htemplate, hsettings, htext, hfilled, hclauses, hcounter,
      hparameters⟩ := eq_of_call hok
    refine ⟨template, settings, htemplate, hsettings, htext, hfilled, hclauses, hcounter, ?_⟩
    rw [Query.values, hcounter, hparameters]
    exact except_mapError_eq_ok_iff.mpr
      (Entries.values_putAll hnumbered.nonneg hearlier template.parameters)
  · intro template settings htemplate hsettings htext hadmits hlimit
    have hnonneg := hnumbered.nonneg
    refine hnumbered.exists_call htemplate hsettings htext ⟨hadmits, fun n hlow hhigh => ?_⟩
    have hle : n ≤ (receiver on).counter + template.parameters.length := hhigh
    have hbound : n < 10 ^ digitLimit := by omega
    have hnat : (n.natAbs : ℤ) = n := by omega
    exact_mod_cast hnat ▸ hbound

/-- After a query that was given with the one parameter 3, a condition on 4 and the absent value
takes the number two for 4, and its values are 3 and 4. -/
theorem parameters_of_reachable_given :
    let given : Query := ⟨.empty, [(.int 1, .int 3)], 1⟩
    let template : Template :=
      ⟨.text "WHERE a IS ".toList,
        [⟨.null, .text " AND b = ".toList⟩, ⟨.map [(.text ['b'], .int 4)], .text []⟩]⟩
    (∀ q ∈ some given, Reachable q) ∧
    ∃ q, (Call.run ⟨[], none, some {}⟩ ⟨.template template, {}⟩ (some given)).1.outcome =
        .ok q ∧
      q.clauses.conditions = ["a IS NULL AND b = $2".toList] ∧ q.counter = 2 ∧
      q.values = .ok [.int 3, .int 4] := by
  intro given template
  have hgiven : ∀ q ∈ some given, Reachable q := by
    rintro q ⟨rfl⟩
    have hmapping : Entries.IsMapping given.parameters := by
      simp [given, Entries.IsMapping, Entries.keys]
    exact .given hmapping (by decide : (0 : ℤ) ≤ 1) rfl
  obtain ⟨-, earlier, hearlier, -, hcalls⟩ := parameters_of_reachable hgiven
  obtain ⟨hok, -, hsucceeds⟩ :=
    hcalls ⟨[], none, some {}⟩ ⟨.template template, {}⟩
  have hlimit : (2 : ℤ) < 10 ^ digitLimit :=
    lt_of_lt_of_le (by norm_num) (le_self_pow₀ (by norm_num) (by decide))
  obtain ⟨q, hq⟩ := hsucceeds template {} rfl rfl
    (by simp [template, Template.HasText, Template.segments, Value.text?])
    (by simp [template, Template.values, FillMode.admits]) hlimit
  obtain ⟨_, _, ⟨⟩, -, -, -, hclauses, hcounter, hvalues⟩ := hok q hq
  cases hearlier
  refine ⟨hgiven, q, hq, ?_, hcounter, hvalues⟩
  rw [hclauses]
  decide +kernel

end SqlComposer.Query
