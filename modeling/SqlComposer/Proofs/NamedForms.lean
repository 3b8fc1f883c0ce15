import SqlComposer.Proofs.Histories

/-!
# Named forms of queries

The named form of a query is its text with named placeholders, and the parameters under their names.
If the placeholders stand apart in the texts of the templates, its text is the one that the same
calls yield when they write named placeholders at once: every step on the way, from filling in a
template to rendering, commutes with renaming.
-/

namespace SqlComposer

namespace Query

/-- A query with every text renamed. -/
def renamed (q : Query) : Query :=
  { q with clauses := q.clauses.renamed }

/-- The clauses that a renamed text makes of a renamed query are the renamed clauses. -/
theorem clausesWith_renamed (on : Option Query) (text : Text) :
    clausesWith (on.map renamed) (Placeholder.renamed text) = (clausesWith on text).renamed := by
  cases on with
  | none => exact Statement.read_renamed .empty text
  | some q => exact Fragment.add_renamed q.clauses text

/-- A call that writes named placeholders makes the renamed query of the renamed one. -/
theorem outcome_named {a : Ambient} {call : Call} {on : Option Query} {q : Query}
    {template : Template} (hnonneg : 0 ≤ (receiver on).counter)
    (hcall : call.outcome .positional a on = .ok q)
    (htemplate : call.template on = .ok template)
    (hended : template.IsEnded (receiver on).counter) :
    call.outcome .named a (on.map renamed) = .ok q.renamed := by
  obtain ⟨template', settings, htemplate', hsettings, htext, hcan, hparts⟩ :=
    Call.outcome_eq_ok_iff.mp hcall
  cases htemplate.symm.trans htemplate'
  obtain ⟨hdense, rfl⟩ := ofParts_eq_ok_iff.mp hparts
  have hparameters : (receiver (on.map renamed)).parameters = (receiver on).parameters := by
    cases on <;> rfl
  have hcounter : (receiver (on.map renamed)).counter = (receiver on).counter := by
    cases on <;> rfl
  rw [← call.template_map renamed] at htemplate
  refine Call.outcome_eq_ok_iff.mpr ⟨template, settings, htemplate, hsettings, htext, ?_, ?_⟩
  · rw [hcounter]
    refine ⟨hcan.admits, fun n hlow hhigh => ?_⟩
    have hmark : n.natAbs < 10 ^ digitLimit := hcan.canMark n hlow hhigh
    have hnamed : (n - 1).natAbs < 10 ^ digitLimit := by omega
    exact hnamed
  · rw [hparameters, hcounter, ← Template.renamed_textAfter hnonneg hended,
      clausesWith_renamed]
    exact ofParts_eq_ok_iff.mpr ⟨hdense, rfl⟩

/-- The calls of a history make the renamed query when they write named placeholders. -/
theorem run_named {steps : List Step} {on : Option Query} (hrun : run .positional steps = .ok on)
    (hsteps : Every Template.IsEnded steps) :
    run .named steps = .ok (on.map renamed) := by
  induction steps generalizing on with
  | nil =>
    cases hrun
    rfl
  | cons step earlier ih =>
    obtain ⟨on, q, template, hearlier, hevery, rfl, hnonneg, hended, hcall, htemplate, -⟩ :=
      exists_template_of_run hrun hsteps
    exact run_cons_eq_ok_iff.mpr ⟨_, _, ih hearlier hevery,
      outcome_named hnonneg hcall htemplate hended, rfl⟩

variable {steps : List Step} {q : Query}

/-- The text of a query keeps its placeholders apart if the templates do. -/
theorem apart_text_of_run (hrun : run .positional steps = .ok (some q))
    (hsteps : Every Template.IsApart steps) : Placeholder.Apart q.text := by
  have htexts : Every (fun counter template =>
      Placeholder.Apart (template.textAfter Placeholder.positional counter)) steps :=
    hsteps.imp fun counter template hnonneg h => Template.apart_textAfter hnonneg h
  have hentries := forall_entries_of_run
    (fun entry text hentry htext => htext.of_isConnectedPart hentry) hrun htexts
  rw [receiver, Option.getD_some] at hentries
  exact Clauses.apart_render hentries

/-- The dollar signs in the text of a query begin placeholders of its parameters. -/
theorem inRange_of_run {count : ℕ} (hrun : run .positional steps = .ok (some q))
    (hsteps : Every Template.IsEnded steps)
    (hcount : (count : ℤ) = q.counter) : Placeholder.InRange count q.text := by
  intro digits hdigits
  obtain ⟨n, hn, rfl⟩ := (dollars_text_of_run hrun hsteps).2 digits hdigits
  rw [← hcount] at hn
  exact exists_ofNat_of_mem_numbersUpTo hn

/-- The named form of a query has the renamed text, and the names of the parameters with their
values. -/
theorem named_of_run (hrun : run .positional steps = .ok (some q))
    (hsteps : Every Template.IsApart steps) :
    ∃ values, q.values = .ok values ∧ (values.length : ℤ) = q.counter ∧
      q.named = .ok (Placeholder.renamed q.text, Placeholder.bindings values) := by
  obtain ⟨values, hvalues, hlength⟩ :=
    (show Entries.NumberedTo q.parameters q.counter from isNumbered_of_run hrun).exists_values
  have hlimit : q.counter < 10 ^ digitLimit := counter_lt_of_run hrun
  have hcount : values.length < 10 ^ digitLimit := by
    rw [← hlength] at hlimit
    exact_mod_cast hlimit
  have hvalues' : q.values = .ok values := except_mapError_eq_ok_iff.mpr hvalues
  have hrename := Placeholder.rename_eq_ok hcount (apart_text_of_run hrun hsteps)
    (inRange_of_run hrun hsteps.isEnded hlength)
  refine ⟨values, hvalues', hlength, ?_⟩
  calc q.named
      = ((Placeholder.rename values.length q.text).mapError .numeral >>= fun text =>
          .ok (text, Placeholder.bindings values)) := by
        rw [named, hvalues']
        rfl
    _ = .ok (Placeholder.renamed q.text, Placeholder.bindings values) := by
        rw [hrename]
        rfl

/-- If no template holds a dollar sign of its own and the placeholders stand apart in the texts of
the templates, the named form of a query has the text that the same calls yield when they write
named placeholders, and the names of the parameters in the order of their numbers, each with the
value under its number. -/
theorem named_eq_of_run (hrun : run .positional steps = .ok (some q))
    (hsteps : Every Template.IsApart steps) :
    ∃ (r : Query) (values : List Value), run .named steps = .ok (some r) ∧
      q.named = .ok (r.text, values.zipIdx.map fun (value, i) => (Placeholder.name i, value)) ∧
      (values.length : ℤ) = q.counter ∧
      values.map some = (List.range values.length).map fun i : ℕ =>
        Entries.atNumber? (i + 1) q.parameters := by
  obtain ⟨values, hvalues, hlength, hnamed⟩ := named_of_run hrun hsteps
  refine ⟨q.renamed, values, run_named hrun hsteps.isEnded, ?_, hlength, ?_⟩
  · rw [hnamed, text, text, renamed, Clauses.render_renamed]
    rfl
  · have hentries := except_mapError_eq_ok_iff.mp hvalues
    rw [Entries.values, ← hlength, Int.toNat_natCast, Entries.valuesFrom_eq_ok_iff] at hentries
    rw [hentries]
    exact List.map_congr_left fun i _ => by rw [add_comm]

/-- A statement with a condition, a disjunction with raw text and the absent value between its
parameters, and a limit. -/
theorem named_eq_of_run_disjunction :
    let statement : Template :=
      ⟨.text "SELECT id,\n  name\nFROM t\nWHERE a = ".toList, [⟨.int 7, .text []⟩]⟩
    let disjunction : Template :=
      ⟨.text "or b in (".toList, [⟨.int 8, .text [',']⟩, ⟨.raw ['c'], .text [',']⟩,
        ⟨.null, .text [',']⟩, ⟨.int 9, .text [')']⟩]⟩
    let limit : Template := ⟨.text "LIMIT ".toList, [⟨.int 5, .text []⟩]⟩
    let steps : List Step := [.ofTemplate limit, .ofTemplate disjunction, .ofTemplate statement]
    ∃ q r, run .positional steps = .ok (some q) ∧ run .named steps = .ok (some r) ∧
      Every Template.IsApart steps ∧
      r.text = ("SELECT\n  id,\n  name\nFROM t\nWHERE a = :p0\n" ++
        "  OR b in (:p1,c,NULL,:p2)\nLIMIT :p3").toList ∧
      q.named = .ok (r.text, [("p0".toList, .int 7), ("p1".toList, .int 8),
        ("p2".toList, .int 9), ("p3".toList, .int 5)]) := by
  intro statement disjunction limit steps
  let made₁ (style : Placeholder.Style) := made style none statement
  let made₂ (style : Placeholder.Style) := made style (some (made₁ style)) disjunction
  let made₃ (style : Placeholder.Style) := made style (some (made₂ style)) limit
  have hrun₁ (style : Placeholder.Style) :
      run style [.ofTemplate statement] = .ok (some (made₁ style)) :=
    run_ofTemplate rfl (by decide) (by decide) (by decide)
  have hrun₂ (style : Placeholder.Style) :
      run style [.ofTemplate disjunction, .ofTemplate statement] = .ok (some (made₂ style)) :=
    run_ofTemplate (hrun₁ style) (by decide) (by decide) (by decide : (3 : ℤ) ≤ 9)
  have hrun₃ (style : Placeholder.Style) : run style steps = .ok (some (made₃ style)) :=
    run_ofTemplate (hrun₂ style) (by decide) (by decide) (by decide : (4 : ℤ) ≤ 9)
  have hsteps : Every Template.IsApart steps :=
    .cons (.cons (.cons trivial rfl rfl (by decide +kernel)) (hrun₁ _) rfl (by decide +kernel))
      (hrun₂ _) rfl (by decide +kernel)
  obtain ⟨r, values, hr, hnamed, hlength, hvalues⟩ := named_eq_of_run (hrun₃ .positional) hsteps
  cases (hrun₃ .named).symm.trans hr
  refine ⟨_, _, hrun₃ .positional, hrun₃ .named, hsteps, by decide +kernel, ?_⟩
  have hfour : values = [.int 7, .int 8, .int 9, .int 5] := by
    have hcount : (values.length : ℤ) = 4 := hlength
    rw [(by omega : values.length = 4)] at hvalues
    exact List.map_injective_iff.mpr (Option.some_injective Value) (hvalues.trans rfl)
  rw [hnamed, hfour]
  rfl

end Query

end SqlComposer
