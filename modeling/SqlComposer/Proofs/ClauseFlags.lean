import SqlComposer.CommandLine.Build
import SqlComposer.Proofs.Keywords
import SqlComposer.Proofs.KnownFlags
import SqlComposer.Proofs.Lines

/-!
# Values of clause flags

The value of a clause flag stays in the clause of its keyword, whatever it holds: its fragment
begins with the keyword, behind which only the value follows, and values are not searched for gaps.
So the query of a command line can always be built, and it has no parameters.
-/

namespace SqlComposer.CommandLine

/-! ## Fragments -/

/-- The keywords of the clause flags, each with the keyword that opens its fragments. -/
def routes : List (Text × Keyword) :=
  [("WHERE".toList, .condition), ("AND".toList, .conjunction), ("OR".toList, .disjunction),
    ("JOIN".toList, .join), ("LEFT JOIN".toList, .join), ("RIGHT JOIN".toList, .join),
    ("INNER JOIN".toList, .join), ("GROUP BY".toList, .groupBy), ("ORDER BY".toList, .orderBy),
    ("LIMIT".toList, .limit), ("OFFSET".toList, .offset)]

/-- The words of clauses are those that have a route. -/
theorem clauseKeywords_eq : clauseKeywords = routes.map Prod.fst := rfl

/-- A word by which a keyword opens fragments, by itself and before a blank. -/
structure Routes (word : Text) (k : Keyword) : Prop where
  /-- The word has no blanks at its ends. -/
  trim_eq : Text.trim word = word
  /-- By itself the word has an empty operand. -/
  alone : Fragment.keyword? word = some (k, [])
  /-- Behind the word and a blank the operand begins. -/
  before : ∀ t, Fragment.keyword? (word ++ ' ' :: t) = some (k, Text.trim t)

/-- A word among the routes is routed to the keyword beside it. -/
theorem routes_of_mem {word : Text} {k : Keyword} (h : (word, k) ∈ routes) : Routes word k := by
  have hall : ∀ entry ∈ routes, Routes entry.1 entry.2 := by
    simp only [routes, List.forall_mem_cons]
    refine ⟨?_, ?_, ?_, ?_, ?_, ?_, ?_, ?_, ?_, ?_, ?_, by simp⟩ <;>
      exact ⟨by decide, rfl, fun _ => rfl⟩
  exact hall _ h

/-- Whatever the value is, its keyword opens the fragment, and the value is the operand. -/
theorem Routes.keyword?_fragment {word : Text} {k : Keyword} (h : Routes word k) (value : Text) :
    Fragment.keyword? (Text.trim (fragment word value)) = some (k, Text.trim value) := by
  -- from the end on, the fragment loses the same blanks as the value, down to the word alone
  induction value using List.reverseRecOn with
  | nil =>
    have htrim : Text.trim (fragment word []) = word := by
      rw [fragment, Text.trim_concat_of_isBlank rfl, h.trim_eq]
    rw [htrim]
    exact h.alone
  | append_singleton value c ih =>
    have hfragment : fragment word (value ++ [c]) = fragment word value ++ [c] := by
      simp [fragment]
    cases hc : Text.isBlank c with
    | true =>
      rw [hfragment, Text.trim_concat_of_isBlank hc, Text.trim_concat_of_isBlank hc]
      exact ih
    | false =>
      have hne : word ≠ [] := by
        rintro rfl
        cases h.alone
      have htrim : Text.trim (fragment word (value ++ [c])) = fragment word (value ++ [c]) :=
        Text.trim_append hne (by simp) (Text.trim_eq_self_iff.mp h.trim_eq).1
          (by simpa [List.getLast?_cons] using hc)
      rw [htrim]
      exact h.before (value ++ [c])

/-- Whatever the value is, its fragment goes to the clause of its keyword. -/
theorem Routes.add_fragment {word : Text} {k : Keyword} (h : Routes word k) (c : Clauses)
    (value : Text) :
    Fragment.add c (fragment word value) =
      Fragment.route c (Text.trim (fragment word value)) k (Text.trim value) :=
  Fragment.add_of_keyword? (h.keyword?_fragment value)

/-! ## Clauses -/

/-- The keywords of joins. -/
def joinKeywords : List Text :=
  ["JOIN".toList, "LEFT JOIN".toList, "RIGHT JOIN".toList, "INNER JOIN".toList]

/-- The keywords of conditions. -/
def conditionKeywords : List Text :=
  ["WHERE".toList, "AND".toList, "OR".toList]

/-- The values of the clauses with a keyword. -/
def operandsOf (keyword : Text) (clauses : List (Text × Text)) : List Text :=
  (clauses.filter (·.1 == keyword)).map fun clause => Text.trim clause.2

/-- The joins of clauses, each with its keyword. -/
def joinsOf (clauses : List (Text × Text)) : List Text :=
  (clauses.filter fun clause => joinKeywords.contains clause.1).map fun clause =>
    Text.trim (clause.1 ++ ' ' :: clause.2)

/-- The clauses that are conditions. -/
def conditionClauses (clauses : List (Text × Text)) : List (Text × Text) :=
  clauses.filter fun clause => conditionKeywords.contains clause.1

/-- The conditions of clauses behind earlier ones: each behind its connective, unless it has none or
there is no condition before it. -/
def conditionsOf (earlier : List Text) (clauses : List (Text × Text)) : List Text :=
  (conditionClauses clauses).zipIdx.map fun ((keyword, value), i) =>
    if keyword = "WHERE".toList ∨ (earlier = [] ∧ i = 0) then Text.trim value
    else keyword ++ ' ' :: Text.trim value

/-- Clauses with the values of further ones, each in the place that its keyword says. -/
def clausesAfter (c : Clauses) (clauses : List (Text × Text)) : Clauses :=
  { c with
    joins := c.joins ++ joinsOf clauses
    conditions := c.conditions ++ conditionsOf c.conditions clauses
    groupBy := c.groupBy ++ operandsOf "GROUP BY".toList clauses
    orderBy := c.orderBy ++ operandsOf "ORDER BY".toList clauses
    limit := (operandsOf "LIMIT".toList clauses).getLast?.or c.limit
    offset := (operandsOf "OFFSET".toList clauses).getLast?.or c.offset }

/-- A further clause adds its value to the operands of its own word. -/
theorem operandsOf_concat (keyword : Text) (clauses : List (Text × Text)) (word value : Text) :
    operandsOf keyword (clauses ++ [(word, value)]) =
      operandsOf keyword clauses ++ if word = keyword then [Text.trim value] else [] := by
  by_cases h : word = keyword <;> simp [operandsOf, h]

/-- A further clause adds its fragment to the joins if its word is one of a join. -/
theorem joinsOf_concat (clauses : List (Text × Text)) (word value : Text) :
    joinsOf (clauses ++ [(word, value)]) =
      joinsOf clauses ++ if word ∈ joinKeywords then [Text.trim (fragment word value)] else [] := by
  by_cases h : word ∈ joinKeywords <;> simp [joinsOf, fragment, h]

/-- A last condition needs a connective if there is one before it. -/
theorem conditionsOf_concat (earlier : List Text) (clauses : List (Text × Text))
    (word value : Text) :
    conditionsOf earlier (clauses ++ [(word, value)]) =
      conditionsOf earlier clauses ++
        if word ∈ conditionKeywords then
          [if word = "WHERE".toList ∨ earlier ++ conditionsOf earlier clauses = [] then
            Text.trim value else word ++ ' ' :: Text.trim value]
        else [] := by
  by_cases h : word ∈ conditionKeywords
  · have hlast : conditionClauses (clauses ++ [(word, value)]) =
        conditionClauses clauses ++ [(word, value)] := by simp [conditionClauses, h]
    have hnone : earlier ++ conditionsOf earlier clauses = [] ↔
        earlier = [] ∧ (conditionClauses clauses).length = 0 := by simp [conditionsOf]
    rw [if_pos h]
    simp only [hnone]
    simp only [conditionsOf, hlast, List.zipIdx_append, List.map_append, List.zipIdx_singleton,
      List.map_cons, List.map_nil, Nat.zero_add]
  · have hlast : conditionClauses (clauses ++ [(word, value)]) = conditionClauses clauses := by
      simp [conditionClauses, h]
    rw [conditionsOf, hlast, if_neg h, List.append_nil, conditionsOf]

/-- The fragment of a last clause adds its value behind those of the clauses before. -/
theorem add_clausesAfter {word : Text} {k : Keyword} (h : (word, k) ∈ routes) (c : Clauses)
    (clauses : List (Text × Text)) (value : Text) :
    Fragment.add (clausesAfter c clauses) (fragment word value) =
      clausesAfter c (clauses ++ [(word, value)]) := by
  rw [(routes_of_mem h).add_fragment]
  simp only [clausesAfter, operandsOf_concat, joinsOf_concat, conditionsOf_concat]
  -- one case for each keyword: it is found in its own list, and in no other one
  simp only [routes, List.mem_cons, Prod.mk.injEq, List.not_mem_nil, or_false] at h
  rcases h with ⟨rfl, rfl⟩ | ⟨rfl, rfl⟩ | ⟨rfl, rfl⟩ | ⟨rfl, rfl⟩ | ⟨rfl, rfl⟩ | ⟨rfl, rfl⟩ |
    ⟨rfl, rfl⟩ | ⟨rfl, rfl⟩ | ⟨rfl, rfl⟩ | ⟨rfl, rfl⟩ | ⟨rfl, rfl⟩
  all_goals simp [Fragment.route, Fragment.addCondition, joinKeywords, conditionKeywords]

/-- Clauses with the fragments of further ones added one by one. -/
def withFragments (c : Clauses) (clauses : List (Text × Text)) : Clauses :=
  clauses.foldl (fun c clause => Fragment.add c (fragment clause.1 clause.2)) c

/-- The fragments of clauses add their values. -/
theorem withFragments_eq_clausesAfter {clauses : List (Text × Text)}
    (h : ∀ clause ∈ clauses, clause.1 ∈ clauseKeywords) (c : Clauses) :
    withFragments c clauses = clausesAfter c clauses := by
  induction clauses using List.reverseRecOn with
  | nil =>
    simp [withFragments, clausesAfter, joinsOf, conditionsOf, conditionClauses, operandsOf]
  | append_singleton clauses clause ih =>
    obtain ⟨hearlier, hlast⟩ := List.forall_mem_append.mp h
    have hkeyword := hlast clause (List.mem_singleton_self _)
    rw [clauseKeywords_eq] at hkeyword
    obtain ⟨⟨word, k⟩, hroute, hword⟩ := List.mem_map.mp hkeyword
    have hearlier := ih hearlier
    rw [withFragments] at hearlier ⊢
    rw [List.foldl_concat, hearlier]
    obtain ⟨keyword, value⟩ := clause
    cases hword
    exact add_clausesAfter hroute c clauses value

/-- The query with clauses has the fragment of each of them added, and no parameters. -/
theorem outcome_addClauses (settings : Settings) (c : Clauses) (clauses : List (Text × Text)) :
    (addClauses (.ok settings) ⟨c, [], 0⟩ clauses).outcome =
      .ok ⟨withFragments c clauses, [], 0⟩ := by
  induction clauses generalizing c with
  | nil => rfl
  | cons clause clauses ih =>
    have hmade (c : Clauses) : Query.ofParts c [] 0 = .ok ⟨c, [], 0⟩ := rfl
    have hextend : (Query.extend (Query.fillMode settings.strictParameterObjects) ⟨c, [], 0⟩
        (Template.ofText (fragment clause.1 clause.2))).outcome =
          .ok ⟨Fragment.add c (fragment clause.1 clause.2), [], 0⟩ := by
      simp [Query.extend, interpolate, Template.ofText, FillMode.fillGaps, joinParts, Value.text?,
        hmade]
    rw [addClauses, Logged.outcome_bind_eq_ok]
    refine ⟨settings, rfl, Logged.outcome_bind_eq_ok.mpr ⟨_, hextend, ?_⟩⟩
    exact ih (Fragment.add c (fragment clause.1 clause.2))

/-- The query of a base statement and clauses has the clauses of the statement with the values of
the others. -/
theorem outcome_buildQuery (settings : Settings) (base : Text) {clauses : List (Text × Text)}
    (h : ∀ clause ∈ clauses, clause.1 ∈ clauseKeywords) :
    (buildQuery (.ok settings) base clauses).outcome =
      .ok ⟨clausesAfter (Query.parse base).clauses clauses, [], 0⟩ := by
  have hadded := outcome_addClauses settings (Query.parse base).clauses clauses
  rw [withFragments_eq_clausesAfter h] at hadded
  rw [buildQuery, Logged.outcome_bind_eq_ok]
  refine ⟨(), rfl, Logged.outcome_bind_eq_ok.mpr ⟨_, hadded, ?_⟩⟩
  exact Logged.outcome_bind_eq_ok.mpr ⟨(), rfl, rfl⟩

/-- A query without parameters is printed by its text alone. -/
theorem finish_of_outcome {built : Logged Query} {c : Clauses}
    (h : built.outcome = .ok ⟨c, [], 0⟩) :
    finish built = ⟨built.events, .ok ⟨0, c.render ++ ['\n'], []⟩⟩ := by
  rw [finish, h]
  rfl

/-! ## Runs -/

/-- A run builds no query, or it prints the text of one that is built of a base statement and the
clauses of its options. -/
theorem run_eq_or_exists (settings : Settings) (read : Path → Except FileError Text)
    (arguments : List Text) :
    (∀ build, run read build arguments = run read (buildQuery (.ok settings)) arguments) ∨
      ∃ o base, Options.ofArguments arguments = .ok o ∧
        run read (buildQuery (.ok settings)) arguments =
          finish (buildQuery (.ok settings) base o.writtenClauses) := by
  unfold run
  cases Options.ofArguments arguments with
  | error stop => exact .inl fun _ => rfl
  | ok o =>
    simp only [runOptions]
    cases o.wantedFile with
    | some file =>
      dsimp only
      cases read (.ofText file) with
      | error e => exact .inl fun _ => rfl
      | ok base => exact .inr ⟨o, base, rfl, rfl⟩
    | none =>
      cases nonempty? o.query with
      | none => exact .inl fun _ => rfl
      | some base => exact .inr ⟨o, base, rfl, rfl⟩

/-- With settings that can be read, a query is built of every base statement and all values of
clause flags: its clauses are those of the statement, with each value in the place of its keyword,
and it has no parameters. A run that builds a query prints its text, and nothing else. -/
theorem outcome_buildQuery_eq_clausesAfter (settings : Settings) :
    (∀ (base : Text) (clauses : List (Text × Text)),
      (∀ clause ∈ clauses, clause.1 ∈ clauseKeywords) →
      ∃ q, (buildQuery (.ok settings) base clauses).outcome = .ok q ∧
        q.clauses = clausesAfter (Query.parse base).clauses clauses ∧
        q.parameters = [] ∧ q.counter = 0 ∧ q.values = .ok []) ∧
    ∀ (read : Path → Except FileError Text) (arguments : List Text),
      (∀ build, run read build arguments = run read (buildQuery (.ok settings)) arguments) ∨
      ∃ o base q, Options.ofArguments arguments = .ok o ∧
        (∀ clause ∈ o.writtenClauses, clause.1 ∈ clauseKeywords) ∧
        (buildQuery (.ok settings) base o.writtenClauses).outcome = .ok q ∧
        (run read (buildQuery (.ok settings)) arguments).outcome =
          .ok ⟨0, q.text ++ ['\n'], []⟩ := by
  constructor
  · intro base clauses h
    exact ⟨_, outcome_buildQuery settings base h, rfl, rfl, rfl, rfl⟩
  · intro read arguments
    rcases run_eq_or_exists settings read arguments with hnone | ⟨o, base, ho, hrun⟩
    · exact .inl hnone
    · have hwritten : ∀ clause ∈ o.writtenClauses, clause.1 ∈ clauseKeywords :=
        List.forall_mem_map.mpr (Options.hasKeywords_of_ofArguments ho)
      have hbuilt := outcome_buildQuery settings base hwritten
      refine .inr ⟨o, base, _, ho, hwritten, hbuilt, ?_⟩
      rw [hrun, finish_of_outcome hbuilt]
      rfl

/-- Blank values, braces, line feeds and keywords in values, and a limit in place of another one. -/
theorem outcome_buildQuery_eq_clausesAfter_hostile :
    let base := "SELECT *\nFROM t\nLIMIT 7".toList
    let clauses : List (Text × Text) :=
      [("AND".toList, " a = \x7b\x7d\nLIMIT 1 ".toList), ("OR".toList, " ".toList),
        ("GROUP BY".toList, "".toList), ("LEFT JOIN".toList, "u ON WHERE".toList),
        ("WHERE".toList, "SELECT \x7bx".toList), ("LIMIT".toList, "8".toList),
        ("LIMIT".toList, "$1 OFFSET 3".toList)]
    (∀ clause ∈ clauses, clause.1 ∈ clauseKeywords) ∧
    ∃ q, (buildQuery (.ok {}) base clauses).outcome = .ok q ∧ q.values = .ok [] ∧
      q.clauses =
        { select := [['*']], source := some ['t'], joins := ["LEFT JOIN u ON WHERE".toList]
          conditions := ["a = \x7b\x7d\nLIMIT 1".toList, "OR ".toList, "SELECT \x7bx".toList]
          groupBy := [[]], limit := some "$1 OFFSET 3".toList } := by
  intro base clauses
  have hclauses : ∀ clause ∈ clauses, clause.1 ∈ clauseKeywords := by decide
  obtain ⟨q, hq, hafter, -, -, hvalues⟩ :=
    (outcome_buildQuery_eq_clausesAfter {}).1 base clauses hclauses
  exact ⟨hclauses, q, hq, hvalues, hafter.trans (by decide +kernel)⟩

end SqlComposer.CommandLine
