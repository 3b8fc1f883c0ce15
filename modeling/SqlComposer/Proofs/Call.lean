import SqlComposer.Composer
import SqlComposer.Proofs.Filling

/-!
# Calls of the library

A call makes a query of a template, either a new one or another one with a further fragment. What a
call needs to succeed, and how it can fail, is said in terms of the text and the parameters that
the template yields after those of the receiver.
-/

namespace SqlComposer

/-! ## Reading templates -/

/-- Whether a template could not be made from its source and arguments. -/
def Failure.isReading : Failure → Bool
  | .template _ | .path _ | .notIterable _ => true
  | _ => false

/-- Whether a template could not be filled in. -/
def Failure.isFilling : Failure → Bool
  | .parameterObject _ | .numeral _ | .notText .. => true
  | _ => false

/-- Whether the parts of a query were refused for the keys of its parameters. -/
def Failure.isRefusal : Failure → Bool
  | .sparse .. | .incomparable _ => true
  | _ => false

/-- A field that cannot be looked up is a failure of reading. -/
theorem FieldPath.isReading_of_lookup {args : Arguments} {name : Text} {e : Failure}
    (h : FieldPath.lookup args name = .error e) : e.isReading = true := by
  unfold FieldPath.lookup at h
  dsimp only at h
  split at h
  · cases h
    rfl
  · split at h <;> cases h <;> rfl

/-- A field that has no value is a failure of reading. -/
theorem Template.isReading_of_fieldValue {args : Arguments} {s : FieldState} {f : Format.Field}
    {e : Failure} (h : Template.fieldValue args s f = .error e) : e.isReading = true := by
  unfold Template.fieldValue at h
  split at h
  · cases h
    rfl
  · dsimp only at h
    split at h
    · cases h
      rfl
    · exact FieldPath.isReading_of_lookup (except_map_eq_error_iff.mp h)

/-- Parts with a field that has no value are a failure of reading. -/
theorem Template.isReading_of_fill {args : Arguments} {s : FieldState} {parts : List Format.Part}
    {e : Failure} (h : Template.fill args s parts = .error e) : e.isReading = true := by
  induction parts generalizing s with
  | nil => cases h
  | cons part parts ih =>
    cases part with
    | char c => exact ih (except_map_eq_error_iff.mp h)
    | field f =>
      rcases except_bind_eq_error_iff.mp h with hfield | ⟨⟨value, s'⟩, -, hrest⟩
      · exact Template.isReading_of_fieldValue hfield
      · rcases except_bind_eq_error_iff.mp hrest with hrest | ⟨_, -, hdone⟩
        · exact ih hrest
        · cases hdone

/-- A format template that is malformed, or has a field without a value, is a failure of reading. -/
theorem Template.isReading_of_ofFormat {format : Text} {args : Arguments} {e : Failure}
    (h : Template.ofFormat format args = .error e) : e.isReading = true := by
  unfold Template.ofFormat at h
  split at h
  · cases h
    rfl
  · exact Template.isReading_of_fill (except_map_eq_error_iff.mp h)

/-- A value without items is a failure of reading. -/
theorem Template.isReading_of_items {v : Value} {e : Failure}
    (h : Template.items v = .error e) : e.isReading = true := by
  cases v <;> cases h <;> rfl

/-- A template fails to be read only because of its own form or the values it is read from. -/
theorem Template.isReading_of_ofSource {source : TemplateSource} {args : Arguments} {e : Failure}
    (h : Template.ofSource source args = .error e) : e.isReading = true := by
  cases source with
  | template t =>
    simp only [Template.ofSource] at h
    split at h <;> cases h
    rfl
  | value v =>
    simp only [Template.ofSource, Template.ofValue] at h
    split at h
    · exact Template.isReading_of_ofFormat h
    split at h
    · cases h
      rfl
    split at h
    · rcases except_bind_eq_error_iff.mp h with hsegments | ⟨_, -, h⟩
      · exact Template.isReading_of_items hsegments
      rcases except_bind_eq_error_iff.mp h with hvalues | ⟨_, -, h⟩
      · exact Template.isReading_of_items hvalues
      obtain ⟨_, -, rfl⟩ := except_mapError_eq_error_iff.mp h
      rfl
    · cases h
      rfl

/-! ## Filling templates in -/

/-- A numeral that is too long keeps a template from being filled in. -/
theorem isFilling_of_mapError {α : Type} {x : Except NumeralError α} {e : Failure}
    (h : (Logged.ofExcept (x.mapError .numeral)).outcome = .error e) : e.isFilling = true := by
  obtain ⟨_, -, rfl⟩ := except_mapError_eq_error_iff.mp h
  rfl

/-- A value fails to stand for a parameter only for its own keys or a long numeral. -/
theorem FillMode.isFilling_of_parameter {mode : FillMode} {value : Value} {e : Failure}
    (h : (mode.parameter value).outcome = .error e) : e.isFilling = true := by
  unfold parameter at h
  split at h
  · cases h
  · split at h
    · cases h
      unfold refuse
      split <;> rfl
    · rcases Logged.outcome_bind_eq_error.mp h with hreport | ⟨_, -, hdone⟩
      · rcases Logged.outcome_bind_eq_error.mp hreport with hshown | ⟨_, -, hreported⟩
        · exact isFilling_of_mapError hshown
        · cases hreported
      · cases hdone
  · cases h

/-- One value fails to be filled in only for a parameter object or a long numeral. -/
theorem FillMode.isFilling_of_fillValue {mode : FillMode} {parameters : Entries} {counter : ℤ}
    {value : Value} {e : Failure}
    (h : (mode.fillValue parameters counter value).outcome = .error e) : e.isFilling = true := by
  unfold fillValue at h
  split at h
  · rcases Logged.outcome_bind_eq_error.mp h with hshown | ⟨_, -, hdone⟩
    · exact isFilling_of_mapError hshown
    · cases hdone
  · rcases Logged.outcome_bind_eq_error.mp h with hparameter | ⟨_, -, hrest⟩
    · exact isFilling_of_parameter hparameter
    rcases Logged.outcome_bind_eq_error.mp hrest with hmark | ⟨_, -, hdone⟩
    · exact isFilling_of_mapError hmark
    · cases hdone

/-- Gaps fail to be filled in only for a parameter object or a long numeral. -/
theorem FillMode.isFilling_of_fillGaps {mode : FillMode} {parameters : Entries} {counter : ℤ}
    {gaps : List Gap} {e : Failure}
    (h : (mode.fillGaps parameters counter gaps).outcome = .error e) : e.isFilling = true := by
  induction gaps generalizing parameters counter with
  | nil => cases h
  | cons gap gaps ih =>
    rcases Logged.outcome_bind_eq_error.mp h with hfirst | ⟨⟨part, parameters', counter'⟩, -, h⟩
    · exact isFilling_of_fillValue hfirst
    · rcases Logged.outcome_bind_eq_error.mp h with hrest | ⟨_, -, hdone⟩
      · exact ih hrest
      · cases hdone

/-- Parts fail to be joined only for one that is no text. -/
theorem isFilling_of_joinParts {position : ℕ} {parts : List Value} {e : Failure}
    (h : joinParts position parts = .error e) : e.isFilling = true := by
  induction parts generalizing position with
  | nil => cases h
  | cons part parts ih =>
    unfold joinParts at h
    split at h
    · exact ih (except_map_eq_error_iff.mp h)
    · cases h
      rfl

/-- A template fails to be filled in only because of its values and segments. -/
theorem isFilling_of_interpolate {mode : FillMode} {template : Template} {parameters : Entries}
    {counter : ℤ} {e : Failure}
    (h : (interpolate mode template parameters counter).outcome = .error e) :
    e.isFilling = true := by
  rcases Logged.outcome_bind_eq_error.mp h with hgaps | ⟨_, -, h⟩
  · exact FillMode.isFilling_of_fillGaps hgaps
  rcases Logged.outcome_bind_eq_error.mp h with hreport | ⟨_, -, h⟩
  · cases hreport
  rcases Logged.outcome_bind_eq_error.mp h with hjoin | ⟨_, -, hdone⟩
  · exact isFilling_of_joinParts hjoin
  · cases hdone

/-! ## Calls -/

/-- The function that is called on something, usually a query, or on nothing. -/
def Maker.on {α : Type} : Option α → Maker
  | none => .statement
  | some _ => .fragment

/-- A function makes a template of a source exactly when it is one of the source and no argument has
the name of a parameter. -/
theorem Maker.template_eq_ok_iff {maker : Maker} {source : TemplateSource} {args : Arguments}
    {template : Template} :
    maker.template source args = .ok template ↔
      args.repeated? maker.parameters = none ∧ Template.ofSource source args = .ok template := by
  unfold Maker.template
  cases args.repeated? maker.parameters <;> simp

/-- A function fails to make a template for the first argument that has the name of a parameter, or
else as the source does. -/
theorem Maker.template_eq_error {maker : Maker} {source : TemplateSource} {args : Arguments}
    {e : Failure} (h : maker.template source args = .error e) :
    (∃ argument, args.repeated? maker.parameters = some argument ∧
      e = .repeated maker.name argument) ∨
    args.repeated? maker.parameters = none ∧ Template.ofSource source args = .error e := by
  unfold Maker.template at h
  split at h
  case h_1 argument hrepeated =>
    cases h
    exact .inl ⟨argument, hrepeated, rfl⟩
  case h_2 hnone => exact .inr ⟨hnone, h⟩

/-- An argument that has the name of a parameter keeps a function from making a template. -/
theorem Maker.template_of_repeated {maker : Maker} {args : Arguments} {argument : Text}
    (h : args.repeated? maker.parameters = some argument) (source : TemplateSource) :
    maker.template source args = .error (.repeated maker.name argument) := by
  rw [Maker.template, h]

/-- A call: what the template is made from. -/
structure Call where
  /-- The format template, template or template string. -/
  source : TemplateSource
  /-- The values for a format template. -/
  args : Arguments

/-- The template of a call on something, or on nothing. -/
def Call.template {α : Type} (call : Call) (on : Option α) : Except Failure Template :=
  (Maker.on on).template call.source call.args

/-- The template of a call does not depend on what the call is on, but only on whether it is on
something. -/
theorem Call.template_map {α β : Type} (call : Call) (f : α → β) (on : Option α) :
    call.template (on.map f) = call.template on := by
  cases on <;> rfl

/-- What a call yields under ambient settings, on a query or, to start a new one, on none. -/
def Call.run (a : Ambient) (call : Call) : Option Query → Logged Query × Ambient
  | none => a.start call.source call.args
  | some q => a.extend q call.source call.args

/-- The query after whose parameters a call numbers its own: a new query follows the empty one. -/
def Query.receiver (on : Option Query) : Query :=
  on.getD .empty

/-- The clauses after a text: that of a new query is a statement, any other one a fragment. -/
def Query.clausesWith (on : Option Query) (text : Text) : Clauses :=
  match on with
  | none => Statement.read .empty text
  | some q => Fragment.add q.clauses text

/-- The parts of a query are accepted exactly when the keys pass the check. -/
theorem Query.ofParts_eq_ok_iff {clauses : Clauses} {parameters : Entries} {counter : ℤ}
    {q : Query} :
    Query.ofParts clauses parameters counter = .ok q ↔
      parameters.isDense counter = true ∧ ⟨clauses, parameters, counter⟩ = q := by
  unfold Query.ofParts
  split
  · next h => simp [h]
  · next h =>
    split <;> simp [h]

/-- Parts are refused exactly when the keys do not pass the check. -/
theorem Query.ofParts_eq_error_iff {clauses : Clauses} {parameters : Entries} {counter : ℤ}
    {e : Failure} :
    Query.ofParts clauses parameters counter = .error e ↔
      ¬parameters.isDense counter = true ∧
        ((∃ keys, Value.sorted parameters.keys = .ok keys ∧ .sparse counter keys = e) ∨
          ∃ fault, Value.sorted parameters.keys = .error fault ∧ .incomparable fault = e) := by
  unfold Query.ofParts
  split
  · next h => simp [h]
  · next h => cases Value.sorted parameters.keys <;> simp [h]

/-- A computation on a template succeeds exactly when there is a template, the settings can be read,
and the computation succeeds under them. -/
theorem Ambient.onTemplate_outcome_eq_ok_iff {α : Type} {a : Ambient}
    {made : Except Failure Template} {f : FillMode → Template → Logged α} {b : α} :
    (a.onTemplate made f).1.outcome = .ok b ↔
      ∃ template settings, made = .ok template ∧ a.current.1 = .ok settings ∧
        (f (Query.fillMode settings.strictParameterObjects) template).outcome = .ok b := by
  unfold Ambient.onTemplate
  cases made with
  | error e => simp
  | ok template => simp [Ambient.strictly]

/-- A call succeeds exactly when its template can be made and filled in under settings that can be
read, and the parts that it makes are accepted. -/
theorem Call.run_eq_ok_iff {a : Ambient} {call : Call} {on : Option Query} {q : Query} :
    (call.run a on).1.outcome = .ok q ↔
      ∃ template settings filled, call.template on = .ok template ∧ a.current.1 = .ok settings ∧
        (interpolate (Query.fillMode settings.strictParameterObjects) template
          (Query.receiver on).parameters (Query.receiver on).counter).outcome = .ok filled ∧
        Query.ofParts (Query.clausesWith on filled.text) filled.parameters filled.counter =
          .ok q := by
  cases on with
  | none =>
    simp [Call.run, Call.template, Maker.on, Ambient.start, Ambient.onTemplate_outcome_eq_ok_iff,
      Query.start, Query.receiver, Query.clausesWith, Query.empty]
  | some receiver =>
    simp [Call.run, Call.template, Maker.on, Ambient.extend,
      Ambient.onTemplate_outcome_eq_ok_iff, Query.extend, Query.receiver, Query.clausesWith]

/-- A computation on a template fails as the making of the template does, or the reading of the
settings, or the computation itself. -/
theorem Ambient.onTemplate_outcome_eq_error {α : Type} {a : Ambient}
    {made : Except Failure Template} {f : FillMode → Template → Logged α} {e : Failure}
    (h : (a.onTemplate made f).1.outcome = .error e) :
    made = .error e ∨ a.current.1 = .error e ∨
      ∃ strict template, (f (Query.fillMode strict) template).outcome = .error e := by
  unfold Ambient.onTemplate at h
  cases made with
  | error e' =>
    simp only [Logged.outcome_ofExcept] at h
    cases h
    exact .inl rfl
  | ok template =>
    simp only [Ambient.strictly, Logged.outcome_bind_eq_error, Logged.outcome_ofExcept] at h
    rcases h with h | ⟨settings, -, h⟩
    · exact .inr (.inl h)
    · exact .inr (.inr ⟨_, template, h⟩)

/-- Settings fail to be read only for the fields that are at fault. -/
theorem Ambient.exists_fields_of_current {a : Ambient} {e : Failure}
    (h : a.current.1 = .error e) : ∃ fields, e = .settings fields := by
  unfold Ambient.current at h
  split at h
  · cases h
  · split at h <;> cases h
    exact ⟨_, rfl⟩

/-- A template that could not be read is not refused for the keys of parameters. -/
theorem Failure.isRefusal_of_isReading {e : Failure} (h : e.isReading = true) :
    e.isRefusal = false := by
  cases e <;> first | rfl | cases h

/-- A template that could not be filled in is not refused for the keys of parameters. -/
theorem Failure.isRefusal_of_isFilling {e : Failure} (h : e.isFilling = true) :
    e.isRefusal = false := by
  cases e <;> first | rfl | cases h

/-- A template that a function could not make is not refused for the keys of parameters. -/
theorem Maker.isRefusal_of_template {maker : Maker} {source : TemplateSource} {args : Arguments}
    {e : Failure} (h : maker.template source args = .error e) : e.isRefusal = false := by
  rcases Maker.template_eq_error h with ⟨_, -, rfl⟩ | ⟨-, hread⟩
  · rfl
  · exact Failure.isRefusal_of_isReading (Template.isReading_of_ofSource hread)

/-- A call that is refused for the keys of parameters has filled its template in, and the parts
that it makes are not accepted. -/
theorem Call.exists_filled_of_isRefusal {a : Ambient} {call : Call} {on : Option Query}
    {e : Failure} (h : (call.run a on).1.outcome = .error e) (he : e.isRefusal = true) :
    ∃ strict template filled,
      (interpolate (Query.fillMode strict) template (Query.receiver on).parameters
        (Query.receiver on).counter).outcome = .ok filled ∧
      Query.ofParts (Query.clausesWith on filled.text) filled.parameters filled.counter =
        .error e := by
  have hsteps : call.template on = .error e ∨ a.current.1 = .error e ∨
      ∃ strict template,
        (interpolate (Query.fillMode strict) template (Query.receiver on).parameters
          (Query.receiver on).counter).outcome = .error e ∨
        ∃ filled, (interpolate (Query.fillMode strict) template (Query.receiver on).parameters
          (Query.receiver on).counter).outcome = .ok filled ∧
        Query.ofParts (Query.clausesWith on filled.text) filled.parameters filled.counter =
          .error e := by
    cases on with
    | none =>
      simpa [Call.template, Maker.on, Query.start, Query.receiver, Query.clausesWith,
        Query.empty] using
        Ambient.onTemplate_outcome_eq_error h
    | some receiver =>
      simpa [Call.template, Maker.on, Query.extend, Query.receiver, Query.clausesWith] using
        Ambient.onTemplate_outcome_eq_error h
  rcases hsteps with hread | hsettings | ⟨strict, template, hfill | ⟨filled, hfilled, hparts⟩⟩
  · rw [Maker.isRefusal_of_template hread] at he
    cases he
  · obtain ⟨_, rfl⟩ := Ambient.exists_fields_of_current hsettings
    cases he
  · rw [Failure.isRefusal_of_isFilling (isFilling_of_interpolate hfill)] at he
    cases he
  · exact ⟨strict, template, filled, hfilled, hparts⟩

end SqlComposer
