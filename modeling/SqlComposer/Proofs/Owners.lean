import Mathlib.Data.List.Basic
import SqlComposer.Proofs.Keywords
import SqlComposer.Proofs.LineTexts
import SqlComposer.Proofs.Written

/-!
# Owners of lines

What a statement says can be read off the positions of its lines. A line that opens a section owns
the plain lines, those without a keyword, from there to the next line that opens one; `LIMIT` and
`OFFSET` lines in between do not count. A plain line goes to the clause of its owner, as it stands
or as a field. What a line of `FROM` or `JOIN` owns, or nothing does, is dropped and reported.
-/

namespace SqlComposer

namespace Statement

/-! ## Lines and their owners -/

/-- The keywords whose lines own the lines that follow. -/
def ownerKeywords : List Keyword :=
  [.select, .source, .join, .condition, .groupBy, .orderBy]

/-- A line that opens a section. -/
structure Opener where
  /-- How many lines stand before it. -/
  position : Nat
  /-- The keyword that opens it. -/
  keyword : Keyword
  /-- What the keyword applies to. -/
  operand : Text
  deriving DecidableEq

/-- What a keyword applies to in a line that it opens. -/
def operand? (k : Keyword) (line : Text) : Option Text :=
  (k.operand line).toOption

/-- Whether none of the keywords opens a line. -/
def isPlain (line : Text) : Bool :=
  keywords.all fun k => !k.opens line

/-- The line at a position as one that opens a section. -/
def opener? (position : Nat) (line : Text) : Option Opener :=
  ownerKeywords.findSome? fun k => (operand? k line).map fun operand => ⟨position, k, operand⟩

/-- The lines that open sections. -/
def openers (lines : List Text) : List Opener :=
  lines.zipIdx.filterMap fun (line, i) => opener? i line

/-- The owner of what follows some lines: the last of them that opens a section. -/
def owner? (lines : List Text) : Option Opener :=
  (openers lines).getLast?

/-- Every line with the owner of its position. -/
def withOwners (lines : List Text) : List (Text × Option Opener) :=
  lines.mapIdx fun i line => (line, owner? (lines.take i))

/-- The plain lines that a line owns. -/
def owned (lines : List Text) (o : Opener) : List Text :=
  (withOwners lines).flatMap fun (line, owner) =>
    if isPlain line ∧ owner = some o then [line] else []

/-- The operands of a keyword and the plain lines that its lines own, in order. -/
def textsOf (k : Keyword) (lines : List Text) : List Text :=
  (withOwners lines).flatMap fun (line, owner) =>
    (operand? k line).toList ++
      if isPlain line ∧ owner.map Opener.keyword = some k then [line] else []

/-! ## What lines mean -/

/-- The last line that `SELECT` opens. -/
def lastSelection? (lines : List Text) : Option Opener :=
  ((openers lines).filter (·.keyword = .select)).getLast?

/-- The operand of the last line that a keyword opens. -/
def lastOperand? (k : Keyword) (lines : List Text) : Option Text :=
  (lines.filterMap (operand? k)).getLast?

/-- The fields of a line that `SELECT` opens and of the lines that it owns. -/
def fieldsAt (lines : List Text) (o : Opener) : List Text :=
  ((o.operand :: owned lines o).map fieldOf).filter (!·.isEmpty)

/-- The clauses that lines make of others. -/
def meaning (c : Clauses) (lines : List Text) : Clauses where
  select := ((lastSelection? lines).map (fieldsAt lines)).getD c.select
  source := (lastOperand? .source lines).or c.source
  joins := c.joins ++ lines.filter Keyword.join.opens
  conditions := c.conditions ++ textsOf .condition lines
  groupBy := c.groupBy ++ textsOf .groupBy lines
  orderBy := c.orderBy ++ textsOf .orderBy lines
  limit := (lastOperand? .limit lines).or c.limit
  offset := (lastOperand? .offset lines).or c.offset

/-- The section in which a plain line is dropped, by its owner, if it is. -/
def droppedIn? : Option Opener → Option Section
  | none => some .none
  | some ⟨_, .source, _⟩ => some .source
  | some ⟨_, .join, _⟩ => some .joins
  | some _ => none

/-- The plain lines that are dropped, with the sections of their owners. -/
def dropped (lines : List Text) : List (Section × Text) :=
  (withOwners lines).flatMap fun (line, owner) =>
    if isPlain line then (droppedIn? owner).toList.map (·, line) else []

/-- What is logged about a dropped line. -/
def droppedJson (entry : Section × Text) : Json :=
  .object [("section".toList, .string entry.1.name), ("line".toList, .string entry.2),
    ("event".toList, .string "parser.line_dropped".toList),
    ("level".toList, .string "debug".toList),
    ("logger".toList, .string "literal_sql.core.parser".toList)]

/-! ## Keywords of lines -/

/-- The keywords that own lines are among those of statements. -/
theorem ownerKeywords_subset : ownerKeywords ⊆ keywords := by decide

/-- The operand of a keyword is what follows it, trimmed. -/
theorem operand?_eq_map (k : Keyword) (line : Text) :
    operand? k line = (k.after? line).map Text.trim := by
  rw [operand?, Keyword.operand]
  cases k.after? line <;> rfl

/-- A keyword applies to something in a line when the line is read under this keyword. -/
theorem operand?_eq {k : Keyword} (hk : k ∈ keywords) (line : Text) :
    operand? k line =
      (keyword? line).bind fun (k', operand) => if k' = k then some operand else none := by
  rw [operand?_eq_map]
  cases hafter : k.after? line with
  | some rest =>
    have hopens : k.opens line = true := by rw [Keyword.opens, hafter]; rfl
    have hkeyword : keyword? line = some (k, Text.trim rest) :=
      Keyword.first?_eq_some hk hafter fun k' _ h' => Keyword.eq_of_opens hopens h'
    simp [hkeyword]
  | none =>
    cases hkeyword : keyword? line with
    | none => rfl
    | some entry =>
      obtain ⟨k', operand⟩ := entry
      have hne : k' ≠ k := by
        rintro rfl
        obtain ⟨-, rest, hrest, -⟩ := Keyword.exists_after?_of_first? hkeyword
        rw [hafter] at hrest
        cases hrest
      simp [hne]

/-- A keyword opens a line exactly when it is the keyword of the line. -/
theorem opens_eq {k : Keyword} (hk : k ∈ keywords) (line : Text) :
    k.opens line = (keyword? line).any (·.1 = k) := by
  have hopens : k.opens line = (operand? k line).isSome := by
    rw [operand?_eq_map, Option.isSome_map, Keyword.opens]
  rw [hopens, operand?_eq hk]
  cases keyword? line with
  | none => rfl
  | some entry => by_cases hentry : entry.1 = k <;> simp [hentry]

/-- A line is plain exactly when it has no keyword. -/
theorem isPlain_eq (line : Text) : isPlain line = (keyword? line).isNone := by
  rw [Bool.eq_iff_iff, Option.isNone_iff_eq_none, keyword?_eq_none_iff]
  simp [isPlain]

/-- A line opens a section when it is read under one of the keywords that do. -/
theorem opener?_eq (position : Nat) (line : Text) :
    opener? position line = (keyword? line).bind fun (k, operand) =>
      if k ∈ ownerKeywords then some ⟨position, k, operand⟩ else none := by
  simp (disch := decide) only [opener?, ownerKeywords, List.findSome?_cons, List.findSome?_nil,
    operand?_eq]
  cases keyword? line with
  | none => rfl
  | some entry =>
    obtain ⟨k, operand⟩ := entry
    cases k <;> rfl

/-- A line that opens a section stands where it says, and one of the keywords that do opens it. -/
theorem eq_of_opener? {position : Nat} {line : Text} {o : Opener}
    (h : opener? position line = some o) : o.position = position ∧ o.keyword ∈ ownerKeywords := by
  obtain ⟨k, hk, hfound⟩ := List.exists_of_findSome?_eq_some h
  obtain ⟨operand, -, rfl⟩ := Option.map_eq_some_iff.mp hfound
  exact ⟨rfl, hk⟩

/-- The lines that open sections stand among the lines. -/
theorem of_mem_openers {lines : List Text} {o : Opener} (h : o ∈ openers lines) :
    o.position < lines.length ∧ o.keyword ∈ ownerKeywords := by
  obtain ⟨⟨line, i⟩, hmem, hopener⟩ := List.mem_filterMap.mp h
  obtain ⟨rfl, hkeyword⟩ := eq_of_opener? hopener
  exact ⟨List.snd_lt_of_mem_zipIdx hmem, hkeyword⟩

/-! ## One more line -/

/-- A further line comes last among the openers, if it is one. -/
theorem openers_concat (lines : List Text) (line : Text) :
    openers (lines ++ [line]) = openers lines ++ (opener? lines.length line).toList := by
  simp only [openers, List.zipIdx_append, List.filterMap_append]
  cases h : opener? lines.length line <;> simp [h]

/-- The owner after a further line is this line, if it opens a section. -/
theorem owner?_concat (lines : List Text) (line : Text) :
    owner? (lines ++ [line]) = (opener? lines.length line).or (owner? lines) := by
  rw [owner?, openers_concat]
  cases opener? lines.length line <;> simp [owner?]

/-- A further line has the owner of the lines before it, and the others keep theirs. -/
theorem withOwners_concat (lines : List Text) (line : Text) :
    withOwners (lines ++ [line]) = withOwners lines ++ [(line, owner? lines)] := by
  refine List.ext_getElem (by simp [withOwners]) fun i hi _ => ?_
  have hle : i ≤ lines.length := by
    simp only [withOwners, List.length_mapIdx, List.length_append, List.length_singleton] at hi
    omega
  rcases hle.lt_or_eq with hlt | rfl
  · simp [withOwners, hlt, List.take_append_of_le_length hle]
  · simp [withOwners]

/-- The section that lines leave open. -/
def openSection (lines : List Text) : Section :=
  (owner? lines).elim .none fun o => sectionOf .none o.keyword

/-- Lines leave the section of their last owner open. -/
theorem sectionAfterAll_eq (lines : List Text) :
    sectionAfterAll .none lines = openSection lines := by
  induction lines using List.reverseRecOn with
  | nil => rfl
  | append_singleton lines line ih =>
    have hlast : sectionAfterAll .none (lines ++ [line]) =
        sectionAfter (sectionAfterAll .none lines) line := List.foldl_concat ..
    rw [hlast, ih, openSection, openSection, owner?_concat, opener?_eq, sectionAfter]
    cases keyword? line with
    | none => rfl
    | some entry =>
      obtain ⟨k, operand⟩ := entry
      cases k <;> rfl

/-- The section of a keyword is open behind lines whose last owner it opens. -/
theorem openSection_eq_iff {k : Keyword} (hk : k ∈ ownerKeywords) (lines : List Text) :
    openSection lines = sectionOf .none k ↔ (owner? lines).map Opener.keyword = some k := by
  rw [openSection]
  cases howner : owner? lines with
  | none =>
    have hne : ∀ k ∈ ownerKeywords, Section.none ≠ sectionOf .none k := by decide
    simp [hne k hk]
  | some o =>
    have ho := (of_mem_openers (List.mem_of_getLast? howner)).2
    have hinj : ∀ k ∈ ownerKeywords, ∀ k' ∈ ownerKeywords,
        sectionOf .none k' = sectionOf .none k ↔ k' = k := by decide
    simp [hinj k hk o.keyword ho]

/-- A further line adds its own texts to those of a keyword. -/
theorem textsOf_concat {k : Keyword} (hk : k ∈ ownerKeywords) (lines : List Text) (line : Text) :
    textsOf k (lines ++ [line]) = textsOf k lines ++ lineTexts k (openSection lines) line := by
  have hkeyword : k ∈ keywords := ownerKeywords_subset hk
  rw [textsOf, withOwners_concat, List.flatMap_append, List.flatMap_singleton, textsOf, lineTexts]
  congr 1
  simp only [operand?_eq hkeyword, isPlain_eq]
  cases keyword? line with
  | none => simp [openSection_eq_iff hk]
  | some entry =>
    obtain ⟨k', operand⟩ := entry
    by_cases hk' : k' = k <;> simp [hk']

/-- A further line comes last among those of its owner. -/
theorem owned_concat (lines : List Text) (line : Text) (o : Opener) :
    owned (lines ++ [line]) o =
      owned lines o ++ if isPlain line ∧ owner? lines = some o then [line] else [] := by
  rw [owned, withOwners_concat, List.flatMap_append, List.flatMap_singleton, owned]

/-- Nothing is owned by a line that is still to come. -/
theorem owned_eq_nil {lines : List Text} {o : Opener} (h : lines.length ≤ o.position) :
    owned lines o = [] := by
  induction lines using List.reverseRecOn with
  | nil => rfl
  | append_singleton lines line ih =>
    rw [List.length_append, List.length_singleton] at h
    have hne : owner? lines ≠ some o := by
      intro howner
      have hlt := (of_mem_openers (List.mem_of_getLast? howner)).1
      omega
    rw [owned_concat, ih (by omega), if_neg (by simp [hne])]
    rfl

/-! ## Clauses after lines -/

/-- The operand that the clauses keep for a keyword. -/
def operandOf (c : Clauses) : Keyword → Option Text
  | .source => c.source
  | .limit => c.limit
  | .offset => c.offset
  | _ => none

/-- Lines add the texts of a keyword to its list. -/
theorem listOf_readLines_eq {k : Keyword} (hk : k ∈ [.condition, .groupBy, .orderBy]) (c : Clauses)
    (lines : List Text) :
    (readLines .none c lines).listOf k = c.listOf k ++ textsOf k lines := by
  have hsubset : [Keyword.condition, .groupBy, .orderBy] ⊆ ownerKeywords := by decide
  induction lines using List.reverseRecOn with
  | nil => simp [readLines, textsOf, withOwners]
  | append_singleton lines line ih =>
    rw [readLines_concat, listOf_applyLine hk, ih, sectionAfterAll_eq, textsOf_concat (hsubset hk),
      List.append_assoc]

/-- Lines add themselves to the joins if `JOIN` opens them. -/
theorem joins_readLines (current : Section) (c : Clauses) (lines : List Text) :
    (readLines current c lines).joins = c.joins ++ lines.filter Keyword.join.opens := by
  induction lines generalizing current c with
  | nil => simp [readLines]
  | cons line lines ih =>
    have hline : (applyLine current c line).joins =
        c.joins ++ [line].filter Keyword.join.opens := by
      unfold applyLine
      rw [List.filter_singleton, opens_eq (by decide)]
      cases keyword? line with
      | none => cases current <;> simp [continueWith]
      | some entry =>
        obtain ⟨k, operand⟩ := entry
        cases k <;> simp [openWith]
    rw [readLines, ih, hline, List.append_assoc, ← List.filter_append, List.singleton_append]

/-- A line replaces the operand of the keyword that opens it. -/
theorem operandOf_applyLine {k : Keyword} (hk : k ∈ [.source, .limit, .offset]) (current : Section)
    (c : Clauses) (line : Text) :
    operandOf (applyLine current c line) k = (operand? k line).or (operandOf c k) := by
  have hsubset : [Keyword.source, .limit, .offset] ⊆ keywords := by decide
  rw [operand?_eq (hsubset hk), applyLine]
  simp only [List.mem_cons, List.not_mem_nil, or_false] at hk
  cases keyword? line with
  | none => rcases hk with rfl | rfl | rfl <;> cases current <;> rfl
  | some entry =>
    obtain ⟨k', operand⟩ := entry
    rcases hk with rfl | rfl | rfl <;> cases k' <;> rfl

/-- Lines leave the operand of the last line that a keyword opens, or the one before them. -/
theorem operandOf_readLines {k : Keyword} (hk : k ∈ [.source, .limit, .offset]) (current : Section)
    (c : Clauses) (lines : List Text) :
    operandOf (readLines current c lines) k = (lastOperand? k lines).or (operandOf c k) := by
  induction lines using List.reverseRecOn with
  | nil => rfl
  | append_singleton lines line ih =>
    have hlast : lastOperand? k (lines ++ [line]) =
        (operand? k line).or (lastOperand? k lines) := by
      rw [lastOperand?, List.filterMap_append, List.getLast?_append, lastOperand?]
      cases h : operand? k line <;> simp [h]
    rw [readLines_concat, operandOf_applyLine hk, ih, hlast, Option.or_assoc]

/-- Of the fields of some texts, those that are not empty are the fields of each text. -/
theorem filter_map_fieldOf (texts : List Text) :
    (texts.map fieldOf).filter (!·.isEmpty) = texts.flatMap fieldsOf := by
  induction texts with
  | nil => rfl
  | cons t texts ih =>
    rw [List.map_cons, List.flatMap_cons, fieldsOf, ← ih, ← List.filter_append,
      List.singleton_append]

/-- A further line puts its fields behind those of its owner. -/
theorem fieldsAt_concat (lines : List Text) (line : Text) (o : Opener) :
    fieldsAt (lines ++ [line]) o =
      fieldsAt lines o ++ if isPlain line ∧ owner? lines = some o then fieldsOf line else [] := by
  simp only [fieldsAt, filter_map_fieldOf, owned_concat, List.flatMap_cons, List.flatMap_append,
    List.append_assoc]
  split <;> simp

/-- A further line is the last selection, if `SELECT` opens it. -/
theorem lastSelection?_concat (lines : List Text) (line : Text) :
    lastSelection? (lines ++ [line]) =
      ((opener? lines.length line).filter (·.keyword = .select)).or (lastSelection? lines) := by
  rw [lastSelection?, openers_concat, List.filter_append, List.getLast?_append, lastSelection?]
  cases opener? lines.length line with
  | none => rfl
  | some o => by_cases ho : o.keyword = .select <;> simp [ho, Option.filter]

/-- An owner that `SELECT` opens is the last line that `SELECT` opens. -/
theorem lastSelection?_of_owner? {lines : List Text} {o : Opener} (h : owner? lines = some o)
    (ho : o.keyword = .select) : lastSelection? lines = some o := by
  obtain ⟨earlier, hopeners⟩ := List.getLast?_eq_some_iff.mp h
  simp [lastSelection?, hopeners, List.filter_append, ho]

/-- The last line that `SELECT` opens is the owner as long as no other keyword opens a section. -/
theorem owner?_eq_iff_of_lastSelection? {lines : List Text} {o : Opener}
    (h : lastSelection? lines = some o) :
    owner? lines = some o ↔ (owner? lines).map Opener.keyword = some .select := by
  constructor
  · intro howner
    have ho : o.keyword = .select := by
      simpa using (List.mem_filter.mp (List.mem_of_getLast? h)).2
    rw [howner, Option.map_some, ho]
  · intro hkeyword
    obtain ⟨o', howner, ho'⟩ := Option.map_eq_some_iff.mp hkeyword
    rw [howner, ← h, lastSelection?_of_owner? howner ho']

/-- The fields after lines are those of the last line that `SELECT` opens and of what it owns. -/
theorem select_readLines_eq (c : Clauses) (lines : List Text) :
    (readLines .none c lines).select =
      ((lastSelection? lines).map (fieldsAt lines)).getD c.select := by
  induction lines using List.reverseRecOn with
  | nil => rfl
  | append_singleton lines line ih =>
    rw [readLines_concat, select_applyLine, ih, sectionAfterAll_eq, lastSelection?_concat,
      opener?_eq, lineTexts]
    cases hkeyword : keyword? line with
    | none =>
      have hplain : isPlain line = true := by rw [isPlain_eq, hkeyword]; rfl
      have hsection := openSection_eq_iff (k := .select) (by decide) lines
      cases hlast : lastSelection? lines with
      | none =>
        have hne : (owner? lines).map Opener.keyword ≠ some .select := by
          intro howner
          obtain ⟨o, howner, ho⟩ := Option.map_eq_some_iff.mp howner
          rw [lastSelection?_of_owner? howner ho] at hlast
          cases hlast
        simp [hsection, hne]
      | some o =>
        rw [← owner?_eq_iff_of_lastSelection? hlast] at hsection
        by_cases howner : owner? lines = some o <;>
          simp [fieldsAt_concat, hplain, hsection, howner]
    | some entry =>
      obtain ⟨k, operand⟩ := entry
      have hplain : isPlain line = false := by rw [isPlain_eq, hkeyword]; rfl
      by_cases hk : k = .select
      · have howned : owned lines ⟨lines.length, .select, operand⟩ = [] := owned_eq_nil le_rfl
        have hfields : fieldsAt (lines ++ [line]) ⟨lines.length, .select, operand⟩ =
            fieldsOf operand := by
          rw [fieldsAt_concat, if_neg (by simp [hplain]), List.append_nil, fieldsAt, howned]
          rfl
        simp [hk, hfields, ownerKeywords, Option.filter]
      · have hfields : fieldsAt (lines ++ [line]) = fieldsAt lines := by
          funext o
          rw [fieldsAt_concat, if_neg (by simp [hplain]), List.append_nil]
        cases k <;> simp_all [ownerKeywords, Option.filter]

/-- Lines lead from some clauses to what they mean. -/
theorem readLines_eq_meaning (c : Clauses) (lines : List Text) :
    readLines .none c lines = meaning c lines := by
  have hlist (k : Keyword) (hk : k ∈ [.condition, .groupBy, .orderBy]) :=
    listOf_readLines_eq hk c lines
  have hoperand (k : Keyword) (hk : k ∈ [.source, .limit, .offset]) :=
    operandOf_readLines hk .none c lines
  calc readLines .none c lines
      = ⟨(readLines .none c lines).select, operandOf (readLines .none c lines) .source,
          (readLines .none c lines).joins, (readLines .none c lines).listOf .condition,
          (readLines .none c lines).listOf .groupBy, (readLines .none c lines).listOf .orderBy,
          operandOf (readLines .none c lines) .limit,
          operandOf (readLines .none c lines) .offset⟩ := rfl
    _ = meaning c lines := by
      rw [select_readLines_eq, joins_readLines, hlist .condition (by decide),
        hlist .groupBy (by decide), hlist .orderBy (by decide), hoperand .source (by decide),
        hoperand .limit (by decide), hoperand .offset (by decide)]
      rfl

/-! ## Dropped lines -/

/-- A further line reports what it does in the section that is open before it. -/
theorem linesEvents_concat (current : Section) (lines : List Text) (line : Text) :
    linesEvents current (lines ++ [line]) =
      linesEvents current lines ++ lineEvents (sectionAfterAll current lines) line := by
  induction lines generalizing current with
  | nil => simp [linesEvents, sectionAfterAll]
  | cons first lines ih =>
    rw [List.cons_append, linesEvents, ih, linesEvents, List.append_assoc]
    rfl

/-- A plain line is dropped when the section of its owner takes no lines. -/
theorem droppedIn?_eq (lines : List Text) :
    droppedIn? (owner? lines) =
      if takesLines (openSection lines) then none else some (openSection lines) := by
  rw [openSection]
  cases howner : owner? lines with
  | none => rfl
  | some o =>
    obtain ⟨position, k, operand⟩ := o
    have hk : k ∈ ownerKeywords := (of_mem_openers (List.mem_of_getLast? howner)).2
    cases k with
    | limit | offset | conjunction | disjunction => exact absurd hk (by decide)
    | _ => rfl

/-- Exactly the plain lines that no clause takes are reported as dropped, in order. -/
theorem linesEvents_eq (lines : List Text) :
    linesEvents .none lines = (dropped lines).map fun entry => .lineDropped entry.1 entry.2 := by
  induction lines using List.reverseRecOn with
  | nil => rfl
  | append_singleton lines line ih =>
    rw [linesEvents_concat, ih, sectionAfterAll_eq, dropped, dropped, withOwners_concat,
      List.flatMap_append, List.flatMap_singleton, List.map_append]
    congr 1
    simp only [droppedIn?_eq, isPlain_eq, lineEvents, isDropped]
    by_cases hplain : (keyword? line).isNone = true <;>
      by_cases htakes : takesLines (openSection lines) = true <;> simp [hplain, htakes]

/-- A plain line that is dropped changes nothing. -/
theorem readLines_dropped {before after : List Text} {line : Text} {dropped : Section}
    (hplain : isPlain line = true) (hdropped : droppedIn? (owner? before) = some dropped)
    (c : Clauses) :
    readLines .none c (before ++ line :: after) = readLines .none c (before ++ after) := by
  have hkeyword : keyword? line = none := by simpa [isPlain_eq] using hplain
  have htakes : takesLines (openSection before) = false := by
    by_contra htakes
    rw [droppedIn?_eq, if_pos (by simpa using htakes)] at hdropped
    cases hdropped
  have hcontinue (c' : Clauses) : continueWith c' line (openSection before) = c' := by
    cases hsection : openSection before <;> simp_all [takesLines, continueWith]
  rw [readLines_append, readLines_append, sectionAfterAll_eq, readLines, sectionAfter, applyLine,
    hkeyword]
  exact congrArg (readLines (openSection before) · after) (hcontinue _)

/-! ## Statements -/

/-- A statement is read as its lines mean by their positions: a plain line goes to the clause of its
owner, and those that no clause takes change nothing and are exactly the ones that are reported as
dropped and, when events of the lowest level are logged, written to the log. -/
theorem read_eq_meaning (c : Clauses) (statement : Text) :
    read c statement = meaning c (linesOf statement) ∧
    events c statement =
      (dropped (linesOf statement)).map (fun entry => .lineDropped entry.1 entry.2) ++
        [.statementRead (linesOf statement).length (read c statement).select.length
          (read c statement).conditions.length] ∧
    (∀ setup : LogSetup, Threshold.passes setup.threshold .debug = true → ∃ summary,
      setup.written ((events c statement).map Event.record) =
        .ok ((dropped (linesOf statement)).map droppedJson ++ [summary])) ∧
    ∀ before line after dropped, linesOf statement = before ++ line :: after →
      isPlain line = true → droppedIn? (owner? before) = some dropped →
      ∀ shorter, linesOf shorter = before ++ after → read c shorter = read c statement := by
  have hevents : events c statement = _ ++ [_] := congrArg (· ++ _) (linesEvents_eq _)
  refine ⟨readLines_eq_meaning c _, hevents, fun setup hpasses => ?_, ?_⟩
  · have hall : ∀ e ∈ events c statement, Threshold.passes setup.threshold e.level = true := by
      rw [hevents, List.forall_mem_append, List.forall_mem_map, List.forall_mem_singleton]
      exact ⟨fun _ _ => hpasses, hpasses⟩
    let summary := Event.statementRead (linesOf statement).length
      (read c statement).select.length (read c statement).conditions.length
    refine ⟨summary.json, ?_⟩
    rw [setup.written_records, List.filter_eq_self.mpr hall, hevents, List.map_append,
      List.map_map]
    rfl
  · intro before line after dropped hlines hplain hdropped shorter hshorter
    rw [read, read, hlines, hshorter, readLines_dropped hplain hdropped]

/-- Two field lists with limits and offsets in between, conditions behind a limit, and lines that
nothing, a table expression or a join owns. -/
theorem read_eq_meaning_repeated :
    let c : Clauses := { select := [['z']], joins := ["JOIN v".toList], limit := some ['9'] }
    let before := "x\nSELECT a,\nlimit 5\n , b\nFROM t".toList
    let after := "select\n c,\n ,\nOFFSET 6\nd\nWHERE p\nLIMIT 7\n AND q\nJOIN u\nw\nWHERE r".toList
    let statement := before ++ "\n y \n".toList ++ after
    read c statement =
        { select := [['c'], ['d']], source := some ['t']
          joins := ["JOIN v".toList, "JOIN u".toList]
          conditions := [['p'], "AND q".toList, ['r']], limit := some ['7']
          offset := some ['6'] } ∧
      events c statement =
        [.lineDropped .none ['x'], .lineDropped .source ['y'], .lineDropped .joins ['w'],
          .statementRead 17 2 3] ∧
      (∃ summary, LogSetup.written ⟨10, none⟩ ((events c statement).map Event.record) =
        .ok ([(.none, ['x']), (.source, ['y']), (.joins, ['w'])].map droppedJson ++ [summary])) ∧
      read c (before ++ '\n' :: after) = read c statement := by
  intro c before after statement
  obtain ⟨hread, hevents, hwritten, hdropped⟩ := read_eq_meaning c statement
  have hlines : dropped (linesOf statement) =
      [(.none, ['x']), (.source, ['y']), (.joins, ['w'])] := by decide +kernel
  have hclauses : meaning c (linesOf statement) =
      { select := [['c'], ['d']], source := some ['t']
        joins := ["JOIN v".toList, "JOIN u".toList]
        conditions := [['p'], "AND q".toList, ['r']], limit := some ['7']
        offset := some ['6'] } := by decide +kernel
  refine ⟨hread.trans hclauses, ?_, ?_, ?_⟩
  · rw [hevents, hread, hclauses, hlines]
    decide +kernel
  · rw [← hlines]
    exact hwritten ⟨10, none⟩ rfl
  · exact hdropped (linesOf before) ['y'] (linesOf after) .source (by decide +kernel)
      (by decide +kernel) (by decide +kernel) _ (linesOf_append before after)

end Statement

end SqlComposer
