import SqlComposer.Proofs.ClauseFlags
import SqlComposer.Proofs.FlagEffects

/-!
# Clause flags in order

A command line that assigns values to clause flags, with a base statement assigned somewhere among
them, builds the query of the statement and of all clauses in the order in which they are written.
It prints the text of this query, whatever the values are.
-/

namespace SqlComposer.CommandLine

/-- The spelling by which a base statement is given. -/
def queryFlag : Text :=
  "--query".toList

/-- The spelling of the query flag spells a flag for the query. -/
theorem exists_spells_queryFlag : ∃ f, Spells queryFlag f ∧ f.purpose = .query :=
  ⟨⟨["-q".toList, "--query".toList], .query⟩, spells_of_mem (by decide +kernel), rfl⟩

/-- The base statement and the clauses of a command line are what its query is built from, wherever
the statement is assigned. -/
theorem run_query (read : Path → Except FileError Text)
    (build : Text → List (Text × Text) → Logged Query) {base : Text} (hne : base ≠ [])
    (hbase : base ≠ separatorText) (earlier later : List ClauseArgument) :
    run read build (earlier.map ClauseArgument.text ++ assigned queryFlag base ::
        later.map ClauseArgument.text) =
      finish (build base ((earlier ++ later).map ClauseArgument.clause)) := by
  obtain ⟨f, hf, hpurpose⟩ := exists_spells_queryFlag
  have hgiven := hf.changes_assigned base
  rw [hpurpose, FlagValue.ofText_of_ne hbase] at hgiven
  obtain ⟨o, ho, hfile, hquery, hclauses⟩ := hgiven.exists_options rfl earlier later
  obtain ⟨c, t, rfl⟩ := List.exists_cons_of_ne_nil hne
  have hnofile : o.wantedFile = none := by
    rw [Options.wantedFile, hfile]
    rfl
  have hgiven : nonempty? o.query = some (c :: t) := by
    rw [hquery]
    rfl
  rw [List.singleton_append] at ho
  rw [run, ho]
  simp only [runOptions, hnofile, hgiven, hclauses]

/-- With settings that can be read, a base statement that is assigned anywhere among values of
clause flags is printed with all these values, in order: the output is the text of the query that is
built of the statement and of each keyword with its value. -/
theorem run_query_eq_render (settings : Settings) (read : Path → Except FileError Text)
    {base : Text} (hne : base ≠ []) (hbase : base ≠ separatorText)
    (earlier later : List ClauseArgument) :
    ∃ q, (buildQuery (.ok settings) base ((earlier ++ later).map ClauseArgument.clause)).outcome =
        .ok q ∧
      (run read (buildQuery (.ok settings)) (earlier.map ClauseArgument.text ++
        assigned queryFlag base :: later.map ClauseArgument.text)).outcome =
          .ok ⟨0, q.clauses.render ++ ['\n'], []⟩ := by
  have hkeywords : ∀ clause ∈ (earlier ++ later).map ClauseArgument.clause,
      clause.1 ∈ clauseKeywords := List.forall_mem_map.mpr fun a _ => a.keyword_mem
  have hbuilt := outcome_buildQuery settings base hkeywords
  refine ⟨_, hbuilt, ?_⟩
  rw [run_query read _ hne hbase, finish_of_outcome hbuilt]

/-- Flags of which one begins like another, and values that look like flags, that hold equals signs
or nothing. -/
theorem run_query_eq_render_hostile :
    let base := "SELECT a\nFROM t".toList
    let texts := ["--order-by=--or=1", "--or=a = b", "--query=SELECT a\nFROM t", "--or=-q",
      "--limit==7", "--where="].map String.toList
    let printed := ["SELECT\n  a\nFROM t\nWHERE a = b\n  OR -q\n  \n", "ORDER BY --or=1\nLIMIT =7"]
    base ≠ [] ∧ base ≠ separatorText ∧
      (run (FileTree.read []) (buildQuery (.ok {})) texts).outcome =
        .ok ⟨0, printed.flatMap String.toList ++ ['\n'], []⟩ := by
  intro base texts printed
  have hne : base ≠ [] := by decide
  have hbase : base ≠ separatorText := by decide
  let earlier : List ClauseArgument :=
    [⟨"--order-by".toList, "ORDER BY".toList, "--or=1".toList, by decide +kernel, by decide⟩,
      ⟨"--or".toList, "OR".toList, "a = b".toList, by decide +kernel, by decide⟩]
  let later : List ClauseArgument :=
    [⟨"--or".toList, "OR".toList, "-q".toList, by decide +kernel, by decide⟩,
      ⟨"--limit".toList, "LIMIT".toList, "=7".toList, by decide +kernel, by decide⟩,
      ⟨"--where".toList, "WHERE".toList, [], by decide +kernel, by decide⟩]
  obtain ⟨q, hq, hrun⟩ := run_query_eq_render {} (FileTree.read []) hne hbase earlier later
  have htext : q.clauses.render = printed.flatMap String.toList := by
    have hkeywords : ∀ clause ∈ (earlier ++ later).map ClauseArgument.clause,
      clause.1 ∈ clauseKeywords := List.forall_mem_map.mpr fun a _ => a.keyword_mem
    cases hq.symm.trans (outcome_buildQuery {} base hkeywords)
    decide +kernel
  rw [htext] at hrun
  exact ⟨hne, hbase, hrun⟩

end SqlComposer.CommandLine
