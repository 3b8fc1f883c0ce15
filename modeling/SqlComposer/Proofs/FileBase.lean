import SqlComposer.Proofs.ClauseOrder
import SqlComposer.Proofs.Octets

/-!
# Base statements from files

A base statement that is read from a file has other line ends than the text that the file holds, but
it has the same lines if each carriage return stands before a line feed: there it is blank at the
end of its line. The query of a statement depends on its lines only. So a command line that names
the file and one that gives the text leave the same behind.
-/

namespace SqlComposer

namespace Text

/-- Every carriage return of a text stands before a line feed. -/
def PairsReturns (t : Text) : Prop :=
  ∀ front rest, t = front ++ '\r' :: rest → rest.head? = some '\n'

/-- In a text where each return comes before a line feed, this is so behind the first character. -/
theorem PairsReturns.of_cons {c : Char} {t : Text} (h : PairsReturns (c :: t)) :
    PairsReturns t := by
  rintro front rest rfl
  exact h (c :: front) rest rfl

/-- Returns come before line feeds exactly when they do at every place of the text. -/
theorem pairsReturns_iff_forall_mem_tails {t : Text} :
    PairsReturns t ↔ ∀ back ∈ t.tails, back.head? = some '\r' → back.tail.head? = some '\n' := by
  constructor
  · intro h back hback hhead
    obtain ⟨front, hfront⟩ := (List.mem_tails _ _).mp hback
    obtain ⟨rest, rfl⟩ := List.head?_eq_some_iff.mp hhead
    exact h front rest hfront.symm
  · rintro h front rest rfl
    exact h ('\r' :: rest) ((List.mem_tails _ _).mpr (List.suffix_append _ _)) rfl

instance (t : Text) : Decidable t.PairsReturns :=
  decidable_of_iff _ pairsReturns_iff_forall_mem_tails.symm

end Text

/-! ## Line ends -/

namespace Statement

/-- New line ends leave the lines as they are, also behind the start of a line. -/
theorem linesOf_append_withLineFeeds {t : Text} (h : t.PairsReturns) (front : Text) :
    linesOf (front ++ t.withLineFeeds) = linesOf (front ++ t) := by
  induction t using Text.withLineFeeds.induct generalizing front with
  | case1 => rfl
  | case2 rest ih =>
    have hrest := ih h.of_cons.of_cons []
    rw [List.nil_append, List.nil_append] at hrest
    calc linesOf (front ++ Text.withLineFeeds ('\r' :: '\n' :: rest))
        = linesOf front ++ linesOf (Text.withLineFeeds rest) := by
          rw [Text.withLineFeeds, linesOf_append]
      _ = linesOf (front ++ ['\r']) ++ linesOf rest := by
          rw [hrest, linesOf_concat_of_isBlank rfl]
      _ = linesOf (front ++ '\r' :: '\n' :: rest) := by
          rw [← linesOf_append, List.append_assoc, List.singleton_append]
  | case3 rest hrest ih =>
    obtain ⟨rest', rfl⟩ := List.head?_eq_some_iff.mp (h [] rest rfl)
    exact absurd rfl (hrest rest')
  | case4 c rest hpair hreturn ih =>
    have hstep : Text.withLineFeeds (c :: rest) = c :: Text.withLineFeeds rest := by
      rw [Text.withLineFeeds]
      · exact hpair
      · exact hreturn
    rw [hstep, ← List.singleton_append, ← List.append_assoc, ih h.of_cons, List.append_assoc,
      List.singleton_append]

/-- New line ends leave the lines of a text as they are. -/
theorem linesOf_withLineFeeds {t : Text} (h : t.PairsReturns) :
    linesOf t.withLineFeeds = linesOf t :=
  linesOf_append_withLineFeeds h []

end Statement

namespace CommandLine

/-- New line ends in the base statement leave the query as it is. -/
theorem buildQuery_withLineFeeds {base : Text} (h : base.PairsReturns)
    (settings : Except Failure Settings) (clauses : List (Text × Text)) :
    buildQuery settings base.withLineFeeds clauses = buildQuery settings base clauses := by
  have hlines := Statement.linesOf_withLineFeeds h
  have hparse : Query.parse base.withLineFeeds = Query.parse base := by
    rw [Query.parse, Statement.read, hlines]
    rfl
  have hevents : Query.parseEvents base.withLineFeeds = Query.parseEvents base := by
    rw [Query.parseEvents, Statement.events, hlines]
    rfl
  rw [buildQuery, hparse, hevents]
  rfl

/-! ## Files -/

end CommandLine

/-- A file that holds the octets of a text is read as the text with new line ends. -/
theorem FileTree.read_of_octets {tree : FileTree} {path : Path} {t : Text}
    (h : tree.octets path = .ok (Utf8.encode t)) : tree.read path = .ok t.withLineFeeds := by
  rw [read, h]
  simp [decode, Utf8.decode_encode, bind, Except.bind]

/-- The empty path leads to a directory. -/
theorem FileTree.octets_ofText_nil (tree : FileTree) :
    tree.octets (.ofText []) = .error (.refused .directory (.ofText [])) :=
  rfl

namespace CommandLine

/-- The spelling by which a file is named. -/
def fileFlag : Text :=
  "--file".toList

/-- The spelling of the file flag spells a flag for the file. -/
theorem exists_spells_fileFlag : ∃ f, Spells fileFlag f ∧ f.purpose = .file :=
  ⟨⟨["-f".toList, "--file".toList], .file⟩, spells_of_mem (by decide +kernel), rfl⟩

/-- Arguments that name a file to be read. -/
inductive NamesFile (name : Text) : List Text → Prop
  /-- The name is assigned to the flag. -/
  | assigned (h : name ≠ separatorText) : NamesFile name [assigned fileFlag name]
  /-- The name is the next argument. -/
  | next (h : classify name = .ok (.value name)) : NamesFile name [fileFlag, name]

/-- Texts that name a file assign its name. -/
theorem NamesFile.changes {name : Text} {texts : List Text} (h : NamesFile name texts) :
    Changes texts (·.assign (.text name) .file) := by
  obtain ⟨f, hf, hpurpose⟩ := exists_spells_fileFlag
  rw [← hpurpose]
  cases h with
  | assigned hne =>
    rw [← FlagValue.ofText_of_ne hne]
    exact hf.changes_assigned name
  | next hvalue =>
    have hne : name ≠ separatorText := by
      rintro rfl
      cases hvalue
    rw [← FlagValue.ofText_of_ne hne]
    exact hf.changes_next hvalue

/-- The text that a file is read as and the clauses of a command line are what its query is built
from, wherever the file is named. -/
theorem run_file {read : Path → Except FileError Text} {name base : Text} {texts : List Text}
    (htexts : NamesFile name texts) (hne : name ≠ []) (hread : read (.ofText name) = .ok base)
    (build : Text → List (Text × Text) → Logged Query) (earlier later : List ClauseArgument) :
    run read build (earlier.map ClauseArgument.text ++ (texts ++
        later.map ClauseArgument.text)) =
      finish (build base ((earlier ++ later).map ClauseArgument.clause)) := by
  obtain ⟨o, ho, hfile, -, hclauses⟩ := htexts.changes.exists_options rfl earlier later
  obtain ⟨c, t, rfl⟩ := List.exists_cons_of_ne_nil hne
  have hwanted : o.wantedFile = some (c :: t) := by
    rw [Options.wantedFile, hfile]
    rfl
  rw [run, ho]
  simp only [runOptions, hwanted, hread, hclauses]

/-- A file that holds the octets of a base statement counts for as much as the statement itself, if
each carriage return of it stands before a line feed: wherever the file is named among the clauses
of a command line and wherever the statement is given, everything that the run leaves behind is the
same, whether or not the settings can be read. -/
theorem run_file_eq_run_query (settings : Except Failure Settings) {tree : FileTree}
    {name base : Text} (hoctets : tree.octets (.ofText name) = .ok (Utf8.encode base))
    (hne : base ≠ []) (hbase : base ≠ separatorText) (hreturns : base.PairsReturns)
    {texts : List Text} (htexts : NamesFile name texts)
    {earlier later earlier' later' : List ClauseArgument}
    (hsame : earlier ++ later = earlier' ++ later') :
    run tree.read (buildQuery settings) (earlier.map ClauseArgument.text ++ (texts ++
        later.map ClauseArgument.text)) =
      run tree.read (buildQuery settings) (earlier'.map ClauseArgument.text ++
        assigned queryFlag base :: later'.map ClauseArgument.text) := by
  have hname : name ≠ [] := by
    rintro rfl
    cases (FileTree.octets_ofText_nil tree).symm.trans hoctets
  rw [run_file htexts hname (FileTree.read_of_octets hoctets), run_query _ _ hne hbase,
    buildQuery_withLineFeeds hreturns, hsame]

/-- Both kinds of line ends, blanks and a letter of two octets, with the file named as the next
argument, between other clauses than those that the statement stands between. -/
theorem run_file_eq_run_query_mixed :
    let base := " SELECT é\r\n\nFROM t \r\n".toList
    let tree : FileTree := [(["q.sql".toList], Utf8.encode base)]
    tree.octets (.ofText "q.sql".toList) = .ok (Utf8.encode base) ∧ base ≠ [] ∧
      base ≠ separatorText ∧ Text.PairsReturns base ∧
      NamesFile "q.sql".toList ["--file".toList, "q.sql".toList] ∧
      run tree.read (buildQuery (.ok {}))
          (["--limit=3", "--file", "q.sql", "--where=é = 1"].map String.toList) =
        run tree.read (buildQuery (.ok {}))
          (["--limit=3", "--where=é = 1", "--query= SELECT é\r\n\nFROM t \r\n"].map
            String.toList) := by
  intro base tree
  have hoctets : tree.octets (.ofText "q.sql".toList) = .ok (Utf8.encode base) := by
    decide +kernel
  have hne : base ≠ [] := by decide
  have hbase : base ≠ separatorText := by decide
  have hreturns : Text.PairsReturns base := by decide +kernel
  have hfile : NamesFile "q.sql".toList ["--file".toList, "q.sql".toList] := .next (by rfl)
  let limit : ClauseArgument :=
    ⟨"--limit".toList, "LIMIT".toList, "3".toList, by decide +kernel, by decide⟩
  let condition : ClauseArgument :=
    ⟨"--where".toList, "WHERE".toList, "é = 1".toList, by decide +kernel, by decide⟩
  have hsame : [limit] ++ [condition] = [limit, condition] ++ [] := rfl
  have hrun := run_file_eq_run_query (.ok {}) hoctets hne hbase hreturns hfile hsame
  have hnamed : ["--limit=3", "--file", "q.sql", "--where=é = 1"].map String.toList =
      [limit].map ClauseArgument.text ++
        (["--file".toList, "q.sql".toList] ++ [condition].map ClauseArgument.text) := by
    decide +kernel
  have hgiven : ["--limit=3", "--where=é = 1", "--query= SELECT é\r\n\nFROM t \r\n"].map
      String.toList = [limit, condition].map ClauseArgument.text ++
        assigned queryFlag base :: ([] : List ClauseArgument).map ClauseArgument.text := by
    decide +kernel
  rw [hnamed, hgiven]
  exact ⟨hoctets, hne, hbase, hreturns, hfile, hrun⟩

end CommandLine

end SqlComposer
