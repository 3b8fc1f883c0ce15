import SqlComposer.Proofs.Keywords
import SqlComposer.Proofs.Lines
import SqlComposer.Proofs.Logged

/-!
# The order in which keywords are tried

A keyword begins a text when one of its phrases is written there, in any case and with any blanks
between the words, and no word character follows. At most one keyword does, so that neither reading
lines nor adding fragments depends on the order in which the keywords are tried; nor does the
keyword that has been found ever lack its operand.
-/

namespace SqlComposer

namespace Text

/-! ## Phrases as they are written -/

/-- A phrase as it can be written: its words in any case, with blanks between them. -/
inductive Writes : List Text → Text → Prop
  | word {word written : Text} (hword : written.map foldCase = word) : Writes [word] written
  | cons {word written blanks later : Text} {words : List Text}
      (hword : written.map foldCase = word) (hne : blanks ≠ [])
      (hblanks : ∀ c ∈ blanks, isBlank c = true) (hlater : Writes words later) :
      Writes (word :: words) (written ++ blanks ++ later)

/-- Ignoring case makes no blank of a letter, nor a letter of a blank. -/
theorem isBlank_foldCase (c : Char) : isBlank (foldCase c) = isBlank c := by
  have hcapital : ∀ n ≤ 'Z'.toNat, 'A'.toNat ≤ n →
      isBlank (Char.ofNat (n + 32)) = false ∧ isBlank (Char.ofNat n) = false := by decide
  unfold foldCase
  split
  · next hletter =>
    obtain ⟨hfolded, hblank⟩ := hcapital c.toNat hletter.2 hletter.1
    rw [Char.ofNat_toNat] at hblank
    rw [hfolded, hblank]
  · split_ifs with hi hs hk
    · rcases hi with rfl | rfl <;> rfl
    · rw [hs]
      rfl
    · rw [hk]
      rfl
    · rfl

/-- A word that is written is found, and what follows it is left. -/
theorem afterWord?_append_of_map {word written : Text} (h : written.map foldCase = word)
    (rest : Text) : afterWord? word (written ++ rest) = some rest := by
  induction written generalizing word with
  | nil =>
    cases h
    rfl
  | cons c written ih =>
    cases h
    rw [List.cons_append, List.map_cons, afterWord?, if_pos rfl]
    exact ih rfl

/-- Whether a word can be told from blanks: it has letters, and does not begin with a blank. -/
def isSpelled (word : Text) : Bool :=
  word.head?.any (!isBlank ·)

/-- Trimming stops at a word. -/
theorem trimStart_append_of_map {word written : Text} (h : written.map foldCase = word)
    (hspelled : isSpelled word = true) (rest : Text) :
    trimStart (written ++ rest) = written ++ rest := by
  subst h
  cases written with
  | nil => cases hspelled
  | cons c written =>
    have hblank : isBlank c = false := by
      rw [← isBlank_foldCase]
      simpa [isSpelled] using hspelled
    exact List.dropWhile_cons_of_neg (by simp [hblank])

/-- Trimming stops at a phrase. -/
theorem Writes.trimStart_append {words : List Text} {written : Text} (h : Writes words written)
    (hspelled : ∀ word ∈ words, isSpelled word = true) (rest : Text) :
    trimStart (written ++ rest) = written ++ rest := by
  cases h with
  | word hword => exact trimStart_append_of_map hword (hspelled _ List.mem_cons_self) rest
  | cons hword _ _ _ =>
    simp only [List.append_assoc]
    exact trimStart_append_of_map hword (hspelled _ List.mem_cons_self) _

/-- Only words are written, and at least one of them. -/
theorem Writes.ne_nil {words : List Text} {written : Text} (h : Writes words written) :
    words ≠ [] := by
  cases h <;> exact List.cons_ne_nil _ _

/-- A phrase that is written is found, and what follows it is left. -/
theorem Writes.afterWords?_append {words : List Text} {written : Text} (h : Writes words written)
    (hspelled : ∀ word ∈ words, isSpelled word = true) (rest : Text) :
    afterWords? words (written ++ rest) = some rest := by
  induction h with
  | word hword => exact afterWord?_append_of_map hword rest
  | @cons word written blanks later words hword hne hblanks hlater ih =>
    rw [List.forall_mem_cons] at hspelled
    obtain ⟨c, blanks, rfl⟩ := List.exists_cons_of_ne_nil hne
    rw [List.forall_mem_cons] at hblanks
    have hfound : afterWord? word (written ++ c :: blanks ++ later ++ rest) =
        some (c :: (blanks ++ (later ++ rest))) := by
      simp only [List.append_assoc, List.cons_append]
      exact afterWord?_append_of_map hword _
    have htrim : trimStart (blanks ++ (later ++ rest)) = later ++ rest := by
      rw [trimStart, List.dropWhile_append_of_pos hblanks.2]
      exact hlater.trimStart_append hspelled.2 rest
    rw [afterWords?.eq_3 _ _ _ hlater.ne_nil, hfound]
    simp only [hblanks.1, if_true, htrim]
    exact ih hspelled.2

/-- A phrase that is found is written before what is left. -/
theorem exists_writes_of_afterWords? {words : List Text} {t rest : Text} (hne : words ≠ [])
    (h : afterWords? words t = some rest) :
    ∃ written, t = written ++ rest ∧ Writes words written := by
  induction words generalizing t with
  | nil => exact absurd rfl hne
  | cons word words ih =>
    cases words with
    | nil =>
      obtain ⟨written, ht, hword⟩ := exists_front_of_afterWord? h
      exact ⟨written, ht, .word hword⟩
    | cons next words =>
      rw [afterWords?.eq_3 _ _ _ (List.cons_ne_nil next words)] at h
      split at h
      · next c more hfound =>
        split at h
        · next hblank =>
          obtain ⟨written, rfl, hword⟩ := exists_front_of_afterWord? hfound
          obtain ⟨later, hsplit, hlater⟩ := ih (List.cons_ne_nil next words) h
          -- The blanks between the words are those that trimming takes off.
          have hblanks : ∀ d ∈ c :: more.takeWhile isBlank, isBlank d = true :=
            List.forall_mem_cons.mpr ⟨hblank, fun d hd => List.mem_takeWhile_imp hd⟩
          have hmore : more.takeWhile isBlank ++ trimStart more = more :=
            List.takeWhile_append_dropWhile
          refine ⟨written ++ c :: more.takeWhile isBlank ++ later, ?_,
            .cons hword (List.cons_ne_nil _ _) hblanks hlater⟩
          rw [List.append_assoc, List.append_assoc, ← hsplit, List.cons_append, hmore]
        · cases h
      · cases h

end Text

namespace Keyword

/-- A keyword begins a text: one of its phrases is written there, and no word character follows. -/
def Begins (k : Keyword) (t : Text) : Prop :=
  ∃ phrase ∈ k.spellings, ∃ written rest,
    t = written ++ rest ∧ Text.Writes phrase written ∧ Text.startsWord rest = false

/-- A keyword opens exactly the texts that it begins. -/
theorem opens_iff_begins (k : Keyword) (t : Text) : k.opens t = true ↔ k.Begins t := by
  have hspelled (k : Keyword) : ∀ phrase ∈ k.spellings, phrase ≠ [] ∧
      ∀ word ∈ phrase, Text.isSpelled word = true := by
    cases k <;> decide
  rw [opens, after?, List.findSome?_isSome_iff]
  constructor
  · rintro ⟨phrase, hphrase, hfound⟩
    obtain ⟨rest, hrest⟩ := Option.isSome_iff_exists.mp hfound
    obtain ⟨hwords, hends⟩ := Option.filter_eq_some_iff.mp hrest
    obtain ⟨written, ht, hwritten⟩ :=
      Text.exists_writes_of_afterWords? (hspelled k phrase hphrase).1 hwords
    exact ⟨phrase, hphrase, written, rest, ht, hwritten, by simpa using hends⟩
  · rintro ⟨phrase, hphrase, written, rest, rfl, hwritten, hends⟩
    have hwords := hwritten.afterWords?_append (hspelled k phrase hphrase).2 rest
    refine ⟨phrase, hphrase, ?_⟩
    rw [Text.afterPhrase?, hwords, Option.filter_some, hends]
    rfl

/-! ## Orders of keywords -/

/-- A keyword has an operand in a text exactly when it opens the text. -/
theorem operand_eq_ok_iff {k : Keyword} {t operand : Text} :
    k.operand t = .ok operand ↔ ∃ rest, k.after? t = some rest ∧ operand = Text.trim rest := by
  rw [Keyword.operand]
  cases k.after? t <;> simp [eq_comm]

/-- A text that has an operand of a keyword is opened by it. -/
theorem opens_of_operand {k : Keyword} {t operand : Text} (h : k.operand t = .ok operand) :
    k.opens t = true := by
  obtain ⟨rest, hafter, -⟩ := operand_eq_ok_iff.mp h
  rw [opens, hafter]
  rfl

/-- The first of some keywords that opens a text is the one that does, wherever it stands. -/
theorem find?_opens_eq_some_iff {ks : List Keyword} {k : Keyword} {t : Text} :
    ks.find? (·.opens t) = some k ↔ k ∈ ks ∧ k.opens t = true := by
  have hfound {k' : Keyword} (h : ks.find? (·.opens t) = some k') : k'.opens t = true := by
    simpa using List.find?_some h
  constructor
  · intro h
    exact ⟨List.mem_of_find?_eq_some h, hfound h⟩
  · rintro ⟨hk, hopens⟩
    have hsome : (ks.find? (·.opens t)).isSome = true := by
      rw [List.find?_isSome]
      exact ⟨k, hk, hopens⟩
    obtain ⟨k', hk'⟩ := Option.isSome_iff_exists.mp hsome
    rw [hk', eq_of_opens hopens (hfound hk')]

/-- The first of some keywords is found with its operand, wherever it stands. -/
theorem first?_eq_some_iff {ks : List Keyword} {k : Keyword} {t operand : Text} :
    first? ks t = some (k, operand) ↔ k ∈ ks ∧ k.operand t = .ok operand := by
  rw [operand_eq_ok_iff]
  constructor
  · exact exists_after?_of_first?
  · rintro ⟨hk, rest, hafter, rfl⟩
    have hopens : k.opens t = true := opens_of_operand (operand_eq_ok_iff.mpr ⟨rest, hafter, rfl⟩)
    exact first?_eq_some hk hafter fun k' _ h' => eq_of_opens hopens h'

/-- In whatever order keywords are tried, the same one is found, with the same operand. -/
theorem first?_eq_of_perm {order ks : List Keyword} (h : order.Perm ks) (t : Text) :
    first? order t = first? ks t := by
  ext ⟨k, operand⟩
  rw [first?_eq_some_iff, first?_eq_some_iff, h.mem_iff]

/-- In whatever order keywords are tried, one that is found has its operand, and none is found when
none of them opens the text. -/
theorem find?_opens_eq {order ks : List Keyword} (h : order.Perm ks) (t : Text) :
    order.find? (·.opens t) = (first? ks t).map Prod.fst := by
  ext k
  rw [find?_opens_eq_some_iff, h.mem_iff]
  simp only [Option.map_eq_some_iff, Prod.exists, first?_eq_some_iff]
  constructor
  · rintro ⟨hk, hopens⟩
    obtain ⟨rest, hafter⟩ := Option.isSome_iff_exists.mp hopens
    exact ⟨k, _, ⟨hk, operand_eq_ok_iff.mpr ⟨rest, hafter, rfl⟩⟩, rfl⟩
  · rintro ⟨k, operand, ⟨hk, hoperand⟩, rfl⟩
    exact ⟨hk, opens_of_operand hoperand⟩

end Keyword

/-! ## Operands on demand

Here a keyword is searched for first, in any order, and then asked for its operand, which it could
lack. -/

namespace Statement

/-- The clauses after a line that a keyword should open. -/
def demand (c : Clauses) (line : Text) : Keyword → Except KeywordMissing Clauses
  | .join => .ok (openWith c line .join [])
  | k => openWith c line k <$> k.operand line

/-- The clauses and the section after a line, with the keywords tried in an order. -/
def tryLine (order : List Keyword) (current : Section) (c : Clauses) (line : Text) :
    Except KeywordMissing (Clauses × Section) :=
  match order.find? (·.opens line) with
  | some k => (·, sectionOf current k) <$> demand c line k
  | none => .ok (continueWith c line current, current)

/-- The clauses after lines, with the keywords tried in an order. -/
def tryLines (order : List Keyword) (current : Section) (c : Clauses) :
    List Text → Except KeywordMissing Clauses
  | [] => .ok c
  | line :: rest => do
    let (c, current) ← tryLine order current c line
    tryLines order current c rest

/-- Lines try every keyword but the connectives. -/
theorem mem_keywords_iff {k : Keyword} :
    k ∈ keywords ↔ k ≠ .conjunction ∧ k ≠ .disjunction := by
  cases k <;> decide

/-- A keyword that opens a line makes the clauses that are read. -/
theorem demand_eq_ok {k : Keyword} {line operand : Text} (h : k.operand line = .ok operand)
    (c : Clauses) : demand c line k = .ok (openWith c line k operand) := by
  cases k with
  | join => rfl
  | _ =>
    rw [demand, h]
    · rfl
    · simp

/-- In whatever order the keywords are tried, a line is read as it is. -/
theorem tryLine_eq_ok {order : List Keyword} (h : order.Perm keywords) (current : Section)
    (c : Clauses) (line : Text) :
    tryLine order current c line = .ok (applyLine current c line, sectionAfter current line) := by
  rw [tryLine, Keyword.find?_opens_eq h, applyLine, sectionAfter, keyword?]
  cases hfirst : Keyword.first? keywords line with
  | none => rfl
  | some entry =>
    obtain ⟨k, operand⟩ := entry
    have hoperand := (Keyword.first?_eq_some_iff.mp hfirst).2
    rw [Option.map_some]
    dsimp only
    rw [demand_eq_ok hoperand]
    rfl

/-- In whatever order the keywords are tried, lines are read as they are. -/
theorem tryLines_eq_ok {order : List Keyword} (h : order.Perm keywords) (current : Section)
    (c : Clauses) (lines : List Text) :
    tryLines order current c lines = .ok (readLines current c lines) := by
  induction lines generalizing current c with
  | nil => rfl
  | cons line rest ih =>
    rw [tryLines, tryLine_eq_ok h, readLines, ← ih]
    rfl

end Statement

namespace Fragment

/-- The clauses after a trimmed fragment that a keyword should open. The lines of a statement try
the keywords in an order of their own. -/
def demand (lineOrder : List Keyword) (c : Clauses) (fragment : Text) :
    Keyword → Except KeywordMissing Clauses
  | .select => Statement.tryLines lineOrder .none c (Statement.linesOf fragment)
  | .join => .ok (route c fragment .join [])
  | k => route c fragment k <$> k.operand fragment

/-- The clauses after a fragment, with the keywords tried in an order. -/
def tryAdd (order lineOrder : List Keyword) (c : Clauses) (fragment : Text) :
    Except KeywordMissing Clauses :=
  let body := Text.trim fragment
  if body.isEmpty then .ok c
  else
    match order.find? (·.opens body) with
    | some k => demand lineOrder c body k
    | none => .ok (addCondition c "AND".toList body)

/-- A keyword that opens a fragment routes it. -/
theorem demand_eq_ok {lineOrder : List Keyword} (h : lineOrder.Perm Statement.keywords)
    {k : Keyword} {fragment operand : Text} (hoperand : k.operand fragment = .ok operand)
    (c : Clauses) : demand lineOrder c fragment k = .ok (route c fragment k operand) := by
  cases k with
  | select => exact Statement.tryLines_eq_ok h .none c _
  | join => rfl
  | _ =>
    rw [demand, hoperand]
    · rfl
    · simp
    · simp

/-- In whatever order the keywords are tried, no fragment lacks the operand of its keyword, and each
is added as it is. -/
theorem tryAdd_eq_ok {order lineOrder : List Keyword} (h : order.Perm keywords)
    (hline : lineOrder.Perm Statement.keywords) (c : Clauses) (fragment : Text) :
    tryAdd order lineOrder c fragment = .ok (add c fragment) := by
  rw [tryAdd, add]
  split
  · rfl
  · rw [Keyword.find?_opens_eq h, keyword?]
    cases hfirst : Keyword.first? keywords (Text.trim fragment) with
    | none => rfl
    | some entry =>
      exact demand_eq_ok hline (Keyword.first?_eq_some_iff.mp hfirst).2 c

end Fragment

/-! ## Exclusive keywords -/

/-- A keyword opens a text exactly when it begins it, and at most one does. So fragments are routed
and lines are read in the same way in whatever order the keywords are tried, and the keyword under
which a line is read is the one that routes it as a fragment, unless that is a connective. -/
theorem Keyword.unique_in_every_order :
    (∀ (k : Keyword) (t : Text), k.opens t = true ↔ k.Begins t) ∧
    (∀ (t : Text) (k k' : Keyword), k.Begins t → k'.Begins t → k = k') ∧
    (∀ order : List Keyword, order.Perm Fragment.keywords → ∀ t : Text,
      first? order t = Fragment.keyword? t) ∧
    (∀ order lineOrder : List Keyword, order.Perm Fragment.keywords →
      lineOrder.Perm Statement.keywords → ∀ (c : Clauses) (fragment : Text),
      Fragment.tryAdd order lineOrder c fragment = .ok (Fragment.add c fragment)) ∧
    (∀ order : List Keyword, order.Perm Statement.keywords →
      ∀ (current : Section) (c : Clauses) (line : Text),
      Statement.tryLine order current c line =
        .ok (Statement.applyLine current c line, Statement.sectionAfter current line)) ∧
    ∀ (t : Text) (k : Keyword) (operand : Text),
      Statement.keyword? t = some (k, operand) ↔
        Fragment.keyword? t = some (k, operand) ∧ k ≠ .conjunction ∧ k ≠ .disjunction := by
  refine ⟨opens_iff_begins, ?_, fun order h t => first?_eq_of_perm h t,
    fun order lineOrder h hline c t => Fragment.tryAdd_eq_ok h hline c t,
    fun order h current c line => Statement.tryLine_eq_ok h current c line, ?_⟩
  · intro t k k' h h'
    exact eq_of_opens ((opens_iff_begins k' t).mpr h') ((opens_iff_begins k t).mpr h)
  · intro t k operand
    have hmem : k ∈ Fragment.keywords := by cases k <;> decide
    rw [Statement.keyword?, Fragment.keyword?, first?_eq_some_iff, first?_eq_some_iff,
      Statement.mem_keywords_iff]
    exact ⟨fun ⟨hk, hoperand⟩ => ⟨⟨hmem, hoperand⟩, hk⟩, fun ⟨⟨_, hoperand⟩, hk⟩ => ⟨hk, hoperand⟩⟩

/-- `ORDER BY` is not taken for `OR` although the connectives are tried first, and a join in several
words, one of them with a dotless I, is found behind all other keywords. -/
theorem Keyword.unique_in_every_order_reversed :
    let ordering := "Order\n By x".toList
    let joining := "Left \t OUTER\u00a0jo\u0131n t".toList
    let order := Fragment.keywords.reverse
    let lineOrder := Statement.keywords.reverse
    let c : Clauses := { orderBy := [['z']] }
    order.Perm Fragment.keywords ∧ lineOrder.Perm Statement.keywords ∧
      orderBy.Begins ordering ∧ ¬ disjunction.Begins ordering ∧
      first? order ordering = Fragment.keyword? ordering ∧
      Fragment.tryAdd order lineOrder c ordering = .ok { orderBy := [['z'], ['x']] } ∧
      Statement.tryLine lineOrder .select c joining =
        .ok ({ orderBy := [['z']], joins := [joining] }, .joins) ∧
      Fragment.keyword? joining = some (.join, ['t']) := by
  intro ordering joining order lineOrder c
  obtain ⟨hbegins, hunique, hfirst, hadd, hline, hsame⟩ := Keyword.unique_in_every_order
  have horder : order.Perm Fragment.keywords := List.reverse_perm _
  have hlineOrder : lineOrder.Perm Statement.keywords := List.reverse_perm _
  have hordering : orderBy.Begins ordering := (hbegins _ _).mp (by decide +kernel)
  refine ⟨horder, hlineOrder, hordering, ?_, hfirst order horder ordering, ?_, ?_, ?_⟩
  · intro hdisjunction
    cases hunique _ _ _ hordering hdisjunction
  · rw [hadd order lineOrder horder hlineOrder]
    decide +kernel
  · rw [hline lineOrder hlineOrder]
    decide +kernel
  · exact ((hsame joining .join ['t']).mp (by decide +kernel)).1

end SqlComposer
