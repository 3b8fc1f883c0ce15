import SqlComposer.Proofs.Dollars
import SqlComposer.Proofs.Growth

/-!
# Composing line by line

A statement can be read as a whole, or its lines can be added one after the other as fragments. Both
ways lead to the same clauses, as long as every line opens a clause or is a further condition behind
a `WHERE` line; and a fragment that `SELECT` opens is read just as the statement that it is. A call
can do so either way as well, unless an argument of its template is called as a parameter of one of
the two functions is.
-/

namespace SqlComposer

namespace Statement

/-! ## Lines that open clauses or go on with conditions -/

/-- A line of `AND` or `OR` and a condition. -/
def IsConnective (line : Text) : Prop :=
  ∃ connective condition, (connective = "AND".toList ∨ connective = "OR".toList) ∧
    condition ≠ [] ∧ Text.trim condition = condition ∧ line = connective ++ ' ' :: condition

/-- Of the lines that are neither `LIMIT` nor `OFFSET` lines nor connectives the last one is a
`WHERE` line. -/
def EndsInCondition (lines : List Text) : Prop :=
  ∃ earlier opener later, lines = earlier ++ opener :: later ∧
    Keyword.condition.opens opener = true ∧
    ∀ line ∈ later, Keyword.limit.opens line = true ∨ Keyword.offset.opens line = true ∨
      IsConnective line

/-- Lines each of which opens a clause, or is a connective where a condition can follow. -/
inductive IsIncremental : List Text → Prop
  | nil : IsIncremental []
  | keyword {earlier : List Text} {line : Text} {k : Keyword} (hearlier : IsIncremental earlier)
      (hline : line.IsLine) (hk : k ∈ keywords) (hopens : k.opens line = true) :
      IsIncremental (earlier ++ [line])
  | connective {earlier : List Text} {line : Text} (hearlier : IsIncremental earlier)
      (hline : line.IsLine) (hconnective : IsConnective line) (hends : EndsInCondition earlier) :
      IsIncremental (earlier ++ [line])

/-- No keyword that opens a line opens a connective. -/
theorem IsConnective.keyword?_eq_none {line : Text} (h : IsConnective line) :
    keyword? line = none := by
  obtain ⟨connective, condition, hconnective, -, -, rfl⟩ := h
  rcases hconnective with rfl | rfl
  · rfl
  · rfl

/-- A connective line is not empty. -/
theorem IsConnective.ne_nil {line : Text} (h : IsConnective line) : line ≠ [] := by
  obtain ⟨connective, condition, -, -, -, rfl⟩ := h
  simp

/-- A line that `LIMIT`, `OFFSET` or a connective opens leaves the section as it is. -/
theorem sectionAfter_eq_self {current : Section} {line : Text}
    (h : Keyword.limit.opens line = true ∨ Keyword.offset.opens line = true ∨
      IsConnective line) : sectionAfter current line = current := by
  unfold sectionAfter
  rcases h with hlimit | hoffset | hconnective
  · obtain ⟨operand, hkeyword⟩ := keyword?_of_opens (by decide) hlimit
    rw [hkeyword]
    rfl
  · obtain ⟨operand, hkeyword⟩ := keyword?_of_opens (by decide) hoffset
    rw [hkeyword]
    rfl
  · rw [hconnective.keyword?_eq_none]

/-- Lines that `LIMIT`, `OFFSET` or a connective opens leave the section as it is. -/
theorem sectionAfterAll_eq_self {current : Section} {lines : List Text}
    (h : ∀ line ∈ lines, Keyword.limit.opens line = true ∨ Keyword.offset.opens line = true ∨
      IsConnective line) : sectionAfterAll current lines = current := by
  induction lines with
  | nil => rfl
  | cons line lines ih =>
    rw [List.forall_mem_cons] at h
    rw [sectionAfterAll, List.foldl_cons, sectionAfter_eq_self h.1]
    exact ih h.2

/-- Where a condition can follow, the section of the conditions is open. -/
theorem EndsInCondition.sectionAfterAll_eq {lines : List Text} (h : EndsInCondition lines)
    (current : Section) : sectionAfterAll current lines = .conditions := by
  obtain ⟨earlier, opener, later, rfl, hopener, hlater⟩ := h
  obtain ⟨operand, hkeyword⟩ := keyword?_of_opens (by decide) hopener
  have hopened : sectionAfter (sectionAfterAll current earlier) opener = .conditions := by
    simp only [sectionAfter, hkeyword, sectionOf]
  calc sectionAfterAll current (earlier ++ opener :: later)
      = sectionAfterAll (sectionAfter (sectionAfterAll current earlier) opener) later := by
        simp only [sectionAfterAll, List.foldl_append, List.foldl_cons]
    _ = .conditions := by rw [hopened, sectionAfterAll_eq_self hlater]

/-- Where a condition can follow, there is one already. -/
theorem EndsInCondition.conditions_ne_nil {lines : List Text} (h : EndsInCondition lines)
    (current : Section) (c : Clauses) : (readLines current c lines).conditions ≠ [] := by
  obtain ⟨earlier, opener, later, rfl, hopener, -⟩ := h
  obtain ⟨operand, hkeyword⟩ := keyword?_of_opens (by decide) hopener
  have hopened : (readLines current c (earlier ++ [opener])).conditions ≠ [] := by
    simp only [readLines_concat, applyLine, hkeyword, openWith]
    exact List.concat_ne_nil operand _
  -- no later line takes the condition of the `WHERE` line back
  have hgrows := (growsTo_readLines (sectionAfterAll current (earlier ++ [opener]))
    (readLines current c (earlier ++ [opener])) later).conditions
  rw [List.append_cons, readLines_append]
  intro hnil
  rw [hnil, List.prefix_nil] at hgrows
  exact hopened hgrows

/-- `SELECT` opens the first line of a text that is not blank. -/
def StartsSelection (t : Text) : Prop :=
  ∃ line ∈ (linesOf t).head?, Keyword.select.opens line = true

/-- Incremental lines are trimmed, and none is empty. -/
theorem IsIncremental.isLine {lines : List Text} (h : IsIncremental lines) :
    ∀ line ∈ lines, line.IsLine ∧ line ≠ [] := by
  induction h with
  | nil => nofun
  | @keyword earlier last k _ hlast _ hopens ih =>
    have hne := Keyword.ne_nil_of_opens hopens
    exact List.forall_mem_append.mpr ⟨ih, by simpa using ⟨hlast, hne⟩⟩
  | @connective earlier last _ hlast hconnective _ ih =>
    exact List.forall_mem_append.mpr ⟨ih, by simpa using ⟨hlast, hconnective.ne_nil⟩⟩

end Statement

namespace Fragment

open Statement (IsConnective IsIncremental)

/-! ## Lines as fragments -/

/-- A keyword that opens a line of a statement routes it as a fragment, too. -/
theorem keyword?_of_opens {k : Keyword} {t : Text} (h : k.opens t = true) :
    ∃ operand, keyword? t = some (k, operand) ∧
      (k ∈ Statement.keywords → Statement.keyword? t = some (k, operand)) := by
  obtain ⟨rest, hafter⟩ := Option.isSome_iff_exists.mp h
  have hmem : k ∈ keywords := by cases k <;> decide
  have hunique (k' : Keyword) (h' : k'.opens t = true) : k' = k := Keyword.eq_of_opens h h'
  exact ⟨_, Keyword.first?_eq_some hmem hafter fun k' _ => hunique k',
    fun hk => Keyword.first?_eq_some hk hafter fun k' _ => hunique k'⟩

/-- A line that opens a clause does as a fragment what it does in a statement. -/
theorem add_of_opens {k : Keyword} {line : Text} (hk : k ∈ Statement.keywords)
    (hline : line.IsLine) (h : k.opens line = true) (c : Clauses) (current : Section) :
    add c line = Statement.applyLine current c line := by
  obtain ⟨operand, hkeyword, hstatement⟩ := keyword?_of_opens h
  have hroute : add c line = route c line k operand := by
    rw [← hline.2] at hkeyword
    rw [add_of_keyword? hkeyword, hline.2]
  rw [hroute, Statement.applyLine, hstatement hk]
  cases k with
  | select =>
    have hread : Statement.read c line = Statement.applyLine .none c line := by
      rw [Statement.read, Statement.linesOf_of_isLine hline (Keyword.ne_nil_of_opens h)]
      rfl
    rw [route, hread, Statement.applyLine, hstatement hk]
  | conjunction | disjunction => exact absurd hk (by decide)
  | _ => rfl

/-- A connective adds its line as it stands if there is a condition before it. -/
theorem add_of_isConnective {line : Text} {c : Clauses} (hline : line.IsLine)
    (h : IsConnective line) (hne : c.conditions ≠ []) :
    add c line = { c with conditions := c.conditions ++ [line] } := by
  obtain ⟨connective, condition, hconnective, -, htrim, rfl⟩ := h
  have hoperand : Text.trim (' ' :: condition) = condition := by
    rw [Text.trim_cons_of_isBlank rfl, htrim]
  have hadd : add c (connective ++ ' ' :: condition) = addCondition c connective condition := by
    rw [add, hline.2, if_neg (by simp)]
    rcases hconnective with rfl | rfl
    · exact congrArg (addCondition c "AND".toList) hoperand
    · exact congrArg (addCondition c "OR".toList) hoperand
  rw [hadd, addCondition]
  simp [hne]

/-- Incremental lines lead to the same clauses when they are added one by one. -/
theorem foldl_add_eq_readLines {lines : List Text} (h : IsIncremental lines) (c : Clauses) :
    lines.foldl add c = Statement.readLines .none c lines := by
  -- fragments know no section: it only matters for connectives, where it is that of the conditions
  induction h with
  | nil => rfl
  | @keyword earlier line k _ hline hk hopens ih =>
    rw [List.foldl_concat, ih, Statement.readLines_concat]
    exact add_of_opens hk hline hopens _ _
  | @connective earlier line _ hline hconnective hends ih =>
    rw [List.foldl_concat, ih, Statement.readLines_concat,
      add_of_isConnective hline hconnective (hends.conditions_ne_nil .none c),
      hends.sectionAfterAll_eq, Statement.applyLine, hconnective.keyword?_eq_none]
    rfl

/-! ## Statements as fragments -/

/-- Incremental lines lead to the same clauses one by one and as a statement. -/
theorem foldl_add_eq_read_intercalate {lines : List Text} (h : IsIncremental lines) (c : Clauses) :
    lines.foldl add c = Statement.read c (['\n'].intercalate lines) := by
  have hlines : Statement.linesOf (['\n'].intercalate lines) = lines := by
    rw [Statement.linesOf_intercalate]
    exact Statement.flatMap_linesOf (fun line hline => (h.isLine line hline).1)
      fun line hline => (h.isLine line hline).2
  rw [Statement.read, hlines]
  exact foldl_add_eq_readLines h c

/-- `SELECT` opens every text that goes on with a blank behind a line that it opens. -/
theorem opens_select_append {line more : Text} (h : Keyword.select.opens line = true)
    (hmore : ∀ c ∈ more.head?, Text.isBlank c = true) :
    Keyword.select.opens (line ++ more) = true := by
  obtain ⟨rest, hafter⟩ := Option.isSome_iff_exists.mp h
  obtain ⟨phrase, hphrase, hfound⟩ := List.exists_of_findSome?_eq_some hafter
  obtain rfl : phrase = ["select".toList] := by simpa [Keyword.spellings] using hphrase
  obtain ⟨hword, hends⟩ := Option.filter_eq_some_iff.mp hfound
  have hends' : Text.startsWord (rest ++ more) = false := by
    cases rest with
    | cons c rest => simpa [Text.startsWord] using hends
    | nil =>
      cases more with
      | nil => rfl
      | cons c more => exact (Text.not_isWord_of_isBlank (hmore c rfl)).1
  have hphrase : Text.afterPhrase? ["select".toList] (line ++ more) = some (rest ++ more) :=
    Option.filter_eq_some_iff.mpr ⟨Text.afterWord?_append hword more, by simpa using hends'⟩
  exact List.findSome?_isSome_iff.mpr ⟨_, List.mem_singleton_self _, by rw [hphrase]; rfl⟩

/-- A trimmed text begins with its first line, behind which it ends or goes on with a blank. -/
theorem exists_eq_append_of_head?_linesOf {t line : Text} (ht : Text.trim t = t)
    (h : line ∈ (Statement.linesOf t).head?) :
    ∃ more, t = line ++ more ∧ ∀ c ∈ more.head?, Text.isBlank c = true := by
  by_cases hfeed : '\n' ∈ t
  · -- the line is the piece before the first line feed, which goes on with the blanks at its end
    obtain ⟨piece, rest, rfl, hpiece⟩ := List.eq_append_cons_of_mem hfeed
    have hfirst := (Text.trim_eq_self_iff.mp ht).1
    have hne : piece ≠ [] := by
      rintro rfl
      cases hfirst '\n' rfl
    rw [List.head?_append_of_ne_nil _ hne] at hfirst
    have hstart : Text.trimStart piece = piece := Text.trimStart_eq_self_iff.mpr hfirst
    have hsplit : Text.trimEnd piece ++ piece.rtakeWhile Text.isBlank = piece := by
      rw [Text.trimEnd_eq_rdropWhile, List.rdropWhile_append_rtakeWhile]
    have hend : Text.trimEnd piece ≠ [] := by
      intro hnil
      obtain ⟨c, later, rfl⟩ := List.exists_cons_of_ne_nil hne
      rw [Text.trimEnd_eq_rdropWhile, List.rdropWhile_eq_nil_iff] at hnil
      have hblank := hnil c List.mem_cons_self
      rw [hfirst c rfl] at hblank
      cases hblank
    rw [Statement.linesOf_append, Statement.linesOf_of_not_mem hpiece, Text.trim, hstart] at h
    have hline : Text.trimEnd piece = line := by simpa [hend] using h
    refine ⟨piece.rtakeWhile Text.isBlank ++ '\n' :: rest, ?_, ?_⟩
    · rw [← hline, ← List.append_assoc, hsplit]
    · cases hblanks : piece.rtakeWhile Text.isBlank with
      | nil => simp [Text.isBlank]
      | cons c blanks =>
        have hc : Text.isBlank c = true :=
          List.mem_rtakeWhile_imp (hblanks ▸ List.mem_cons_self)
        simpa using hc
  · rw [Statement.linesOf_of_not_mem hfeed, ht] at h
    have hline : t = line := by
      cases t with
      | nil => cases h
      | cons c t => simpa using h
    exact ⟨[], by simpa using hline, by simp⟩

/-- A fragment whose first line `SELECT` opens is read as a statement. -/
theorem add_of_startsSelection {t : Text} (h : Statement.StartsSelection t) (c : Clauses) :
    add c t = Statement.read c t := by
  obtain ⟨line, hline, hselect⟩ := h
  rw [← Statement.linesOf_trim] at hline
  obtain ⟨more, hbody, hmore⟩ := exists_eq_append_of_head?_linesOf (Text.trim_trim t) hline
  have hopens : Keyword.select.opens (Text.trim t) = true := by
    rw [hbody]
    exact opens_select_append hselect hmore
  obtain ⟨operand, hkeyword, -⟩ := keyword?_of_opens hopens
  have hadd : add c t = Statement.read c (Text.trim t) := add_of_keyword? hkeyword
  rw [hadd, Statement.read, Statement.linesOf_trim, Statement.read]

end Fragment

namespace Query

/-- A template whose text is read alike as a statement and as a fragment makes the same query by
itself and of the empty query. -/
theorem outcome_start_eq {mode : FillMode} {template : Template}
    (h : ∀ filled, (interpolate mode template [] 0).outcome = .ok filled →
      Fragment.add .empty filled.text = Statement.read .empty filled.text) :
    (start mode template).outcome = (extend mode .empty template).outcome := by
  have hfill : interpolate mode template empty.parameters empty.counter =
      interpolate mode template [] 0 := rfl
  simp only [start, extend, hfill, Logged.outcome_bind, Logged.outcome_report,
    Logged.outcome_ofExcept]
  cases hfilled : (interpolate mode template [] 0).outcome with
  | error e => rfl
  | ok filled =>
    have hclauses : Fragment.add empty.clauses filled.text =
        Statement.read .empty filled.text := h filled hfilled
    simp only [bind, Except.bind, hclauses]

/-- Starting and extending take the same arguments for a template, apart from the name of the
receiver. -/
theorem repeated?_statement {args : Arguments}
    (h : args.repeated? Maker.fragment.parameters = none) :
    args.repeated? Maker.statement.parameters = none := by
  unfold Arguments.repeated? at h ⊢
  rw [List.find?_eq_none] at h ⊢
  intro name hname hparameter
  refine h name hname ?_
  rw [List.contains_iff_mem] at hparameter ⊢
  exact List.mem_cons_of_mem _ hparameter

/-- A call that starts a query is never refused for an argument of an extension. -/
theorem ne_repeated_of_run_none {a : Ambient} {call : Call} {name : Text} :
    (call.run a none).1.outcome ≠ .error (.repeated Maker.fragment.name name) := by
  intro herror
  rcases Ambient.onTemplate_outcome_eq_error herror with hmade | hsettings | ⟨_, template, hstart⟩
  · rcases Maker.template_eq_error hmade with ⟨_, -, heq⟩ | ⟨-, hread⟩
    · injection heq with hname
      exact absurd hname (by decide)
    · cases Template.isReading_of_ofSource hread
  · obtain ⟨_, heq⟩ := Ambient.exists_fields_of_current hsettings
    cases heq
  · rcases Logged.outcome_bind_eq_error.mp hstart with hfill | ⟨_, -, hrest⟩
    · cases isFilling_of_interpolate hfill
    rcases Logged.outcome_bind_eq_error.mp hrest with hreport | ⟨_, -, hparts⟩
    · cases hreport
    · obtain ⟨-, ⟨_, -, heq⟩ | ⟨_, -, heq⟩⟩ := ofParts_eq_error_iff.mp hparts <;> cases heq

/-- A call whose template has a text that `SELECT` opens makes the same query by itself and of the
empty query, if no argument has the name of a parameter. -/
theorem run_none_eq_run_empty {a : Ambient} {call : Call}
    (hnone : call.args.repeated? Maker.fragment.parameters = none)
    (h : ∀ template, Template.ofSource call.source call.args = .ok template →
      Statement.StartsSelection (template.textAfter Placeholder.positional 0)) :
    (call.run a none).1.outcome = (call.run a (some .empty)).1.outcome := by
  simp only [Call.run, Ambient.start, Ambient.extend, Ambient.onTemplate, Maker.template, hnone,
    repeated?_statement hnone]
  cases htemplate : Template.ofSource call.source call.args with
  | error e => rfl
  | ok template =>
    simp only [Ambient.strictly, Logged.outcome_bind, Logged.outcome_ofExcept]
    cases a.current.1 with
    | error e => rfl
    | ok settings =>
      apply outcome_start_eq
      intro filled hfilled
      obtain ⟨-, -, rfl⟩ := (interpolate_eq_ok_iff rfl).mp hfilled
      exact Fragment.add_of_startsSelection (h template htemplate) .empty

/-- An argument that has the name of a parameter of an extension keeps a call from being one. -/
theorem run_some_of_repeated {a : Ambient} {call : Call} {q : Query} {name : Text}
    (hname : call.args.repeated? Maker.fragment.parameters = some name) :
    (call.run a (some q)).1.outcome = .error (.repeated Maker.fragment.name name) := by
  simp only [Call.run, Ambient.extend, Ambient.onTemplate, Maker.template_of_repeated hname,
    Logged.outcome_ofExcept]

/-- The first argument that has the name of a parameter of an extension is the receiver, if the call
starts a query. -/
theorem eq_self_of_repeated {a : Ambient} {call : Call} {q : Query} {name : Text}
    (hname : call.args.repeated? Maker.fragment.parameters = some name)
    (hok : (call.run a none).1.outcome = .ok q) : name = "self".toList := by
  obtain ⟨template, -, -, hmade, -⟩ := Call.run_eq_ok_iff.mp hok
  have hnone := (Maker.template_eq_ok_iff.mp hmade).1
  have hmem := List.mem_of_find?_eq_some hname
  have hparameter := List.find?_some hname
  have hother := List.find?_eq_none.mp hnone name hmem
  have hcases : name = "self".toList ∨ name = "template".toList := by
    simpa only [List.contains_iff_mem, Maker.parameters, List.mem_cons, List.not_mem_nil,
      or_false] using hparameter
  refine hcases.resolve_right fun htemplate => hother ?_
  rw [List.contains_iff_mem, htemplate]
  exact List.mem_singleton_self _

end Query

/-! ## Both ways -/

/-- Lines that each open a clause, or are connectives where a condition can follow, lead to the same
clauses one by one as fragments and as one statement. A fragment whose first line `SELECT` opens is
read as a statement. So a call with such a text makes the same query, or fails in the same way, by
itself and of the empty query, exactly when no named argument is called as a parameter of the
extension is: the extension is refused for the first such argument, while a field may be called
`self` where a query is started. -/
theorem Fragment.foldl_add_eq_read (c : Clauses) :
    (∀ lines : List Text, Statement.IsIncremental lines →
      lines.foldl add c = Statement.read c (['\n'].intercalate lines)) ∧
    (∀ t : Text, Statement.StartsSelection t → add c t = Statement.read c t) ∧
    ∀ (a : Ambient) (call : Call),
      (∀ template, Template.ofSource call.source call.args = .ok template →
        Statement.StartsSelection (template.textAfter Placeholder.positional 0)) →
      ((call.run a none).1.outcome = (call.run a (some Query.empty)).1.outcome ↔
        call.args.repeated? Maker.fragment.parameters = none) ∧
      ∀ name, call.args.repeated? Maker.fragment.parameters = some name →
        (call.run a (some Query.empty)).1.outcome = .error (.repeated Maker.fragment.name name) ∧
        ∀ q, (call.run a none).1.outcome = .ok q → name = "self".toList := by
  refine ⟨fun _ h => foldl_add_eq_read_intercalate h c, fun _ h => add_of_startsSelection h c,
    fun a call h => ⟨⟨fun hequal => ?_, fun hnone => Query.run_none_eq_run_empty hnone h⟩,
      fun name hname => ⟨Query.run_some_of_repeated hname,
        fun q hok => Query.eq_self_of_repeated hname hok⟩⟩⟩
  cases hname : call.args.repeated? Maker.fragment.parameters with
  | none => rfl
  | some name =>
    rw [Query.run_some_of_repeated hname] at hequal
    exact absurd hequal Query.ne_repeated_of_run_none

/-- A connective behind a limit, lines in several cases, a statement behind blank lines, and a call
with a parameter. -/
theorem Fragment.foldl_add_eq_read_connective :
    let lines := ["select id,".toList, "FROM t".toList, "WHERE a = 1".toList, "limit 5".toList,
      "OR b = 2".toList, "Group  By c".toList]
    let statement := " \n\n  Select *\nFROM u\nx".toList
    let call : Call :=
      ⟨.template ⟨.text "\nSELECT ".toList, [⟨.int 7, .text " AS n\nFROM t".toList⟩]⟩, {}⟩
    let a : Ambient := ⟨[], none, some {}⟩
    Statement.IsIncremental lines ∧ Statement.StartsSelection statement ∧
      lines.foldl add { conditions := ["z".toList] } =
        { select := ["id".toList], source := some ['t'], groupBy := [['c']], limit := some ['5']
          conditions := ["z".toList, "a = 1".toList, "OR b = 2".toList] } ∧
      Statement.read { conditions := ["z".toList] } (['\n'].intercalate lines) =
        lines.foldl add { conditions := ["z".toList] } ∧
      add { joins := ["JOIN v".toList] } statement =
        Statement.read { joins := ["JOIN v".toList] } statement ∧
      (call.run a none).1.outcome = (call.run a (some Query.empty)).1.outcome := by
  intro lines statement call a
  obtain ⟨hlines, -, hcall⟩ := Fragment.foldl_add_eq_read { conditions := ["z".toList] }
  obtain ⟨-, hstatement, -⟩ := Fragment.foldl_add_eq_read { joins := ["JOIN v".toList] }
  have hconnective : Statement.IsConnective "OR b = 2".toList :=
    ⟨"OR".toList, "b = 2".toList, .inr rfl, by decide, by decide, rfl⟩
  have hends : Statement.EndsInCondition (lines.take 4) :=
    ⟨lines.take 2, "WHERE a = 1".toList, ["limit 5".toList], rfl, by decide +kernel,
      List.forall_mem_singleton.mpr (.inl (by decide +kernel))⟩
  have hselect : Statement.IsIncremental ["select id,".toList] :=
    @Statement.IsIncremental.keyword [] _ .select .nil (by decide) (by decide) (by decide +kernel)
  have hfrom : Statement.IsIncremental (lines.take 2) :=
    @Statement.IsIncremental.keyword _ _ .source hselect (by decide) (by decide)
      (by decide +kernel)
  have hwhere : Statement.IsIncremental (lines.take 3) :=
    @Statement.IsIncremental.keyword _ _ .condition hfrom (by decide) (by decide)
      (by decide +kernel)
  have hlimit : Statement.IsIncremental (lines.take 4) :=
    @Statement.IsIncremental.keyword _ _ .limit hwhere (by decide) (by decide) (by decide +kernel)
  have hor : Statement.IsIncremental (lines.take 5) :=
    .connective hlimit (by decide) hconnective hends
  have hincremental : Statement.IsIncremental lines :=
    @Statement.IsIncremental.keyword _ _ .groupBy hor (by decide) (by decide) (by decide +kernel)
  have hstarts : Statement.StartsSelection statement :=
    ⟨"Select *".toList, by decide +kernel, by decide +kernel⟩
  refine ⟨hincremental, hstarts, by decide +kernel, (hlines _ hincremental).symm,
    hstatement _ hstarts, (hcall a call ?_).1.mpr (by decide)⟩
  rintro template ⟨⟩
  exact ⟨"SELECT $1 AS n".toList, by decide +kernel, by decide +kernel⟩

/-- A field called `self` takes its value where a query is started, and is refused where the empty
query is extended. -/
theorem Fragment.foldl_add_eq_read_self :
    let call : Call :=
      ⟨.value (.text "SELECT \x7bself\x7d".toList), { named := [("self".toList, .int 1)] }⟩
    let a : Ambient := ⟨[], none, some {}⟩
    Template.ofSource call.source call.args =
        .ok ⟨.text "SELECT ".toList, [⟨.int 1, .text []⟩]⟩ ∧
      (call.run a none).1.outcome =
        .ok ⟨{ select := ["$1".toList] }, [(.int 1, .int 1)], 1⟩ ∧
      (call.run a (some Query.empty)).1.outcome =
        .error (.repeated "QueryState.sql".toList "self".toList) := by
  intro call a
  let template : Template := ⟨.text "SELECT ".toList, [⟨.int 1, .text []⟩]⟩
  have hread : Template.ofSource call.source call.args = .ok template := by
    with_unfolding_all rfl
  have hmade : call.template (none : Option Query) = .ok template :=
    Maker.template_eq_ok_iff.mpr ⟨by decide, hread⟩
  have hcan : (Query.fillMode true).CanFill 0 template.values :=
    ⟨by decide, fun n hlow hhigh => canMark_of_lt_ten (by change n ≤ 0 + 1 at hhigh; omega)⟩
  have hfilled : (interpolate (Query.fillMode true) template [] 0).outcome = .ok _ :=
    (interpolate_eq_ok_iff rfl).mpr ⟨by decide, hcan, rfl⟩
  refine ⟨hread, Call.run_eq_ok_iff.mpr ⟨template, {}, _, hmade, rfl, hfilled, ?_⟩,
    Query.run_some_of_repeated (by decide)⟩
  with_unfolding_all rfl

end SqlComposer
