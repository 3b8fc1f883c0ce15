import SqlComposer.Proofs.Growth
import SqlComposer.Proofs.Histories

/-!
# Queries inside queries

A query that stands in a template as a value is written as it is: its placeholders keep their
numbers, and its parameters are not added. So a number in its text denotes a parameter of the query
that embeds it, which has the value that was meant only where both queries agree on the number. They
do when the embedding query is derived from the embedded one.
-/

namespace SqlComposer

namespace Template

/-- What is written for a value that is no parameter stands in the text of the gaps around it. -/
theorem exists_textAfter_eq_of_gaps {gaps : List Gap} {value : Value}
    (h : value ∈ gaps.map Gap.value) (hvalue : value.isParameter = false) (mark : ℤ → Text)
    (first : Value) (counter : ℤ) :
    ∃ front back, textAfter mark counter ⟨first, gaps⟩ = front ++ value.shownAs [] ++ back := by
  induction gaps generalizing first counter with
  | nil => cases h
  | cons gap gaps ih =>
    rw [List.map_cons, List.mem_cons] at h
    cases hgap : gap.value.isParameter with
    | false =>
      rw [textAfter_cons_of_not_isParameter mark counter first hgap]
      rcases h with rfl | hlater
      · exact ⟨first.segmentText, textAfter mark counter ⟨gap.after, gaps⟩, by simp⟩
      · obtain ⟨front, back, htext⟩ := ih hlater gap.after counter
        rw [htext]
        exact ⟨first.segmentText ++ (gap.value.shownAs [] ++ front), back, by simp⟩
    | true =>
      rw [textAfter_cons_of_isParameter mark counter first hgap]
      rcases h with rfl | hlater
      · rw [hvalue] at hgap
        cases hgap
      · obtain ⟨front, back, htext⟩ := ih hlater gap.after (counter + 1)
        rw [htext]
        exact ⟨first.segmentText ++ (mark (counter + 1) ++ front), back, by simp⟩

/-- The text of a query that a template embeds stands in the text of the template as it is. -/
theorem exists_textAfter_eq_of_query {template : Template} {q : Query}
    (h : .query q ∈ template.values) (mark : ℤ → Text) (counter : ℤ) :
    ∃ front back, template.textAfter mark counter = front ++ q.text ++ back :=
  exists_textAfter_eq_of_gaps h rfl mark template.first counter

end Template

namespace Placeholder

/-! ## What numbers denote -/

/-- Each number behind a dollar sign of a text that has a value in one list has the same value in
another list, or none. -/
def KeepsValues (t : Text) (own values : List Value) : Prop :=
  ∀ n, Text.ofNat (n + 1) ∈ dollars t → ∀ v ∈ own[n]?, ∀ w ∈ values[n]?, w = v

/-- A list keeps its values when others are put behind them. -/
theorem KeepsValues.append (t : Text) (own later : List Value) :
    KeepsValues t own (own ++ later) := by
  intro n _ v hv w hw
  have hlow : n < own.length := (List.getElem?_eq_some_iff.mp hv).1
  rw [List.getElem?_append_left hlow] at hw
  exact Option.some_injective _ (hw.symm.trans hv)

/-- Values that are put behind others are the same where both the numbers and the text go on. -/
theorem keepsValues_append_iff {t : Text} {own earlier later : List Value} :
    KeepsValues t own (earlier ++ later) ↔
      KeepsValues t own earlier ∧
        ∀ n, Text.ofNat (earlier.length + n + 1) ∈ dollars t →
          ∀ v ∈ own[earlier.length + n]?, ∀ w ∈ later[n]?, w = v := by
  constructor
  · intro h
    refine ⟨fun n hn v hv w hw => ?_, fun n hn v hv w hw => ?_⟩
    · have hlow : n < earlier.length := (List.getElem?_eq_some_iff.mp hw).1
      exact h n hn v hv w (by rwa [List.getElem?_append_left hlow])
    · have hvalue : (earlier ++ later)[earlier.length + n]? = later[n]? := by
        rw [List.getElem?_append_right (Nat.le_add_right _ n), Nat.add_sub_cancel_left]
      exact h _ hn v hv w (by rwa [hvalue])
  · rintro ⟨hearlier, hlater⟩ n hn v hv w hw
    by_cases hlow : n < earlier.length
    · rw [List.getElem?_append_left hlow] at hw
      exact hearlier n hn v hv w hw
    · obtain ⟨m, rfl⟩ := Nat.exists_eq_add_of_le (Nat.le_of_not_lt hlow)
      rw [List.getElem?_append_right (Nat.le_add_right _ m), Nat.add_sub_cancel_left] at hw
      exact hlater m hn v hv w hw

end Placeholder

namespace Query

/-! ## Values along calls -/

/-- The last of some calls is one on the query of the others. -/
theorem call_of_run {step : Step} {earlier : List Step} {on : Option Query} {q : Query}
    (hearlier : run .positional earlier = .ok on)
    (hrun : run .positional (step :: earlier) = .ok (some q)) :
    (step.call.run step.ambient on).1.outcome = .ok q := by
  obtain ⟨on', q', hearlier', hcall, heq⟩ := run_cons_eq_ok_iff.mp hrun
  cases hearlier.symm.trans hearlier'
  cases heq
  rwa [← Call.outcome_positional]

/-- The query that calls make is reachable. -/
theorem reachable_of_run {steps : List Step} {on : Option Query}
    (hrun : run .positional steps = .ok on) : ∀ q ∈ on, Reachable q := by
  induction steps generalizing on with
  | nil =>
    cases hrun
    nofun
  | cons step earlier ih =>
    obtain ⟨before, q, hearlier, -, rfl⟩ := run_cons_eq_ok_iff.mp hrun
    have hcall := call_of_run hearlier hrun
    rintro _ ⟨rfl⟩
    cases before with
    | none => exact .started hcall
    | some receiver => exact .extended (ih hearlier receiver rfl) hcall

/-- A call puts the parameters of its template behind the values of its receiver. -/
theorem values_of_call {a : Ambient} {call : Call} {on : Option Query} {q : Query}
    {template : Template} {earlier : List Value} (hon : (receiver on).IsNumbered)
    (hearlier : (receiver on).values = .ok earlier)
    (htemplate : call.template on = .ok template)
    (hok : (call.run a on).1.outcome = .ok q) :
    q.values = .ok (earlier ++ template.parameters) := by
  obtain ⟨template', -, htemplate', -, -, -, -, hcounter, hparameters⟩ := eq_of_call hok
  cases htemplate.symm.trans htemplate'
  rw [Query.values, hcounter, hparameters]
  exact except_mapError_eq_ok_iff.mpr (Entries.values_putAll hon.nonneg
    (except_mapError_eq_ok_iff.mp hearlier) template.parameters)

/-- Queries derived from a reachable one are reachable. -/
theorem Reachable.of_extensions {q r : Query} (hq : Reachable q)
    (h : Relation.ReflTransGen ExtendsTo q r) : Reachable r := by
  induction h with
  | refl => exact hq
  | tail _ hcall ih =>
    obtain ⟨a, call, hok⟩ := hcall
    exact .extended ih hok

/-- The values of a query stand at the start of those of every query that calls derive from it. -/
theorem exists_values_of_extensions {q r : Query} (hq : Reachable q)
    (h : Relation.ReflTransGen ExtendsTo q r) {own : List Value} (hown : q.values = .ok own) :
    ∃ later, r.values = .ok (own ++ later) := by
  induction h with
  | refl => exact ⟨[], by simpa using hown⟩
  | @tail middle last hmiddle hcall ih =>
    obtain ⟨later, hvalues⟩ := ih
    obtain ⟨a, call, hok⟩ := hcall
    obtain ⟨template, -, htemplate, -⟩ := eq_of_call hok
    have hnumbered : (receiver (some middle)).IsNumbered := (hq.of_extensions hmiddle).isNumbered
    have hlast := values_of_call hnumbered hvalues htemplate hok
    rw [List.append_assoc] at hlast
    exact ⟨later ++ template.parameters, hlast⟩

/-- The values of a reachable query are as many as its counter says. -/
theorem exists_values_receiver {on : Option Query} (hon : ∀ q ∈ on, Reachable q) :
    ∃ values, (receiver on).values = .ok values ∧ (values.length : ℤ) = (receiver on).counter := by
  obtain ⟨values, hvalues, hlength⟩ := (isNumbered_receiver hon).exists_values
  exact ⟨values, except_mapError_eq_ok_iff.mpr hvalues, hlength⟩

/-- A query that a call embeds stands in its text as it is, and the values of the call are those of
its receiver and its template alone. So the embedded query keeps its values exactly where these
happen to agree with them, number by number. They do if the receiver is derived from it. -/
theorem keepsValues_iff_of_call {a : Ambient} {call : Call} {on : Option Query} {sub q : Query}
    {template : Template} (hon : ∀ parent ∈ on, Reachable parent) (hsub : Reachable sub)
    (htemplate : call.template on = .ok template)
    (hembeds : .query sub ∈ template.values) (hok : (call.run a on).1.outcome = .ok q) :
    ∃ front back own earlier values,
      q.clauses = clausesWith on (front ++ sub.text ++ back) ∧
      sub.values = .ok own ∧ (receiver on).values = .ok earlier ∧ q.values = .ok values ∧
      values = earlier ++ template.parameters ∧ (values.length : ℤ) = q.counter ∧
      (Placeholder.KeepsValues sub.text own values ↔
        Placeholder.KeepsValues sub.text own earlier ∧
          ∀ n, Text.ofNat (earlier.length + n + 1) ∈ Placeholder.dollars sub.text →
            ∀ v ∈ own[earlier.length + n]?, ∀ w ∈ template.parameters[n]?, w = v) ∧
      ∀ parent ∈ on, Relation.ReflTransGen ExtendsTo sub parent →
        Placeholder.KeepsValues sub.text own values := by
  obtain ⟨earlier, hearlier, hlength⟩ := exists_values_receiver hon
  obtain ⟨own, hown, -⟩ := @exists_values_receiver (some sub) (by rintro _ ⟨rfl⟩; exact hsub)
  have hvalues := values_of_call (isNumbered_receiver hon) hearlier htemplate hok
  obtain ⟨template', -, htemplate', -, -, -, hclauses, hcounter, -⟩ := eq_of_call hok
  cases htemplate.symm.trans htemplate'
  obtain ⟨front, back, htext⟩ := Template.exists_textAfter_eq_of_query hembeds
    Placeholder.positional (receiver on).counter
  refine ⟨front, back, own, earlier, _, htext ▸ hclauses, hown, hearlier, hvalues, rfl, ?_,
    Placeholder.keepsValues_append_iff, ?_⟩
  · rw [hcounter, ← hlength, List.length_append, Nat.cast_add]
  · -- the receiver's values begin with those of the embedded query, and the call adds to them
    rintro parent ⟨rfl⟩ hderived
    obtain ⟨later, hparent⟩ := exists_values_of_extensions hsub hderived hown
    cases hearlier.symm.trans hparent
    rw [List.append_assoc]
    exact .append sub.text own (later ++ template.parameters)

/-- A query that is embedded in one derived from it keeps its value beside further parameters. -/
theorem keepsValues_iff_of_call_derived :
    let statement : Template :=
      ⟨.text "SELECT id\nFROM t\nWHERE a > ".toList, [⟨.int 7, .text []⟩]⟩
    let condition : Template := ⟨.text "AND b = ".toList, [⟨.int 8, .text []⟩]⟩
    let embedding (sub : Query) : Template :=
      ⟨.text "AND c = ".toList, [⟨.int 9, .text " AND id IN (".toList⟩, ⟨.query sub, .text [')']⟩]⟩
    let last (sub : Query) : Step := .ofTemplate (embedding sub)
    ∃ sub parent q, run .positional [.ofTemplate statement] = .ok (some sub) ∧
      run .positional [.ofTemplate condition, .ofTemplate statement] = .ok (some parent) ∧
      ((last sub).call.run (last sub).ambient (some parent)).1.outcome = .ok q ∧
      Reachable parent ∧ Reachable sub ∧ Relation.ReflTransGen ExtendsTo sub parent ∧
      sub.text = "SELECT\n  id\nFROM t\nWHERE a > $1".toList ∧
      sub.values = .ok [.int 7] ∧ q.values = .ok [.int 7, .int 8, .int 9] ∧
      Placeholder.KeepsValues sub.text [.int 7] [.int 7, .int 8, .int 9] := by
  intro statement condition embedding last
  let sub := made .positional none statement
  let parent := made .positional (some sub) condition
  let q := made .positional (some parent) (embedding sub)
  have hsub : run .positional [.ofTemplate statement] = .ok (some sub) :=
    run_ofTemplate rfl (by decide) (by decide) (by decide)
  have hparent : run .positional [.ofTemplate condition, .ofTemplate statement] =
      .ok (some parent) := run_ofTemplate hsub (by decide) (by decide) (by decide)
  have hq : run .positional [last sub, .ofTemplate condition, .ofTemplate statement] =
      .ok (some q) := run_ofTemplate hparent (by decide) (by decide) (by decide)
  have hcall : ((last sub).call.run (last sub).ambient (some parent)).1.outcome = .ok q :=
    call_of_run hparent hq
  have hderived : sub.ExtendsTo parent := ⟨_, _, call_of_run hsub hparent⟩
  have hreachable : ∀ p ∈ some parent, Reachable p := reachable_of_run hparent
  obtain ⟨_, _, own, earlier, values, -, hown, -, hvalues, -, -, -, hkeeps⟩ :=
    keepsValues_iff_of_call hreachable (reachable_of_run hsub sub rfl) rfl
      (by simp [embedding, Template.values]) hcall
  cases hown.symm.trans (rfl : sub.values = .ok [.int 7])
  cases hvalues.symm.trans (rfl : q.values = .ok [.int 7, .int 8, .int 9])
  exact ⟨sub, parent, q, hsub, hparent, hcall, hreachable parent rfl,
    reachable_of_run hsub sub rfl, .single hderived, by decide +kernel, rfl, rfl,
    hkeeps parent rfl (.single hderived)⟩

/-- An embedded query loses its value to the first parameter of a query that is not derived from
it: its `$1` means 100, and denotes 5. -/
theorem not_keepsValues_of_own_parameter :
    let orders : Template :=
      ⟨.text "SELECT id\nFROM o\nWHERE total > ".toList, [⟨.int 100, .text []⟩]⟩
    let statement : Template := ⟨.text "SELECT *\nFROM t".toList, []⟩
    let embedding (sub : Query) : Template :=
      ⟨.text "WHERE a = ".toList,
        [⟨.int 5, .text " AND id IN (".toList⟩, ⟨.query sub, .text [')']⟩]⟩
    ∃ sub q, run .positional [.ofTemplate orders] = .ok (some sub) ∧
      run .positional [.ofTemplate (embedding sub), .ofTemplate statement] = .ok (some q) ∧
      (∀ t ∈ [orders, statement, embedding sub], ∀ segment ∈ t.segments,
        '$' ∉ segment.segmentText) ∧
      q.text = ("SELECT\n  *\nFROM t\n" ++
        "WHERE a = $1 AND id IN (SELECT\n  id\nFROM o\nWHERE total > $1)").toList ∧
      sub.values = .ok [.int 100] ∧ q.values = .ok [.int 5] ∧
      ¬ Placeholder.KeepsValues sub.text [.int 100] [.int 5] := by
  intro orders statement embedding
  let sub := made .positional none orders
  let parent := made .positional none statement
  let q := made .positional (some parent) (embedding sub)
  have hsub : run .positional [.ofTemplate orders] = .ok (some sub) :=
    run_ofTemplate rfl (by decide) (by decide) (by decide)
  have hparent : run .positional [.ofTemplate statement] = .ok (some parent) :=
    run_ofTemplate rfl (by decide) (by decide) (by decide)
  have hq : run .positional [.ofTemplate (embedding sub), .ofTemplate statement] = .ok (some q) :=
    run_ofTemplate hparent (by decide) (by decide) (by decide)
  have hone : Text.ofNat 1 ∈ Placeholder.dollars sub.text := by decide +kernel
  refine ⟨sub, q, hsub, hq, by decide +kernel, by decide +kernel, rfl, rfl, fun hkeeps => ?_⟩
  cases hkeeps 0 hone (.int 100) rfl (.int 5) rfl

end Query

end SqlComposer
