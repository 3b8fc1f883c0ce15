import SqlComposer.Proofs.Apart
import SqlComposer.Proofs.RenamedReading

/-!
# The layout of rendered text

The text of a query consists of blocks, each with a keyword and the expressions behind it. Keywords
and the separators between expressions hold no dollar sign and touch no placeholder. So rendering
keeps the dollar signs of the expressions that it writes, keeps placeholders apart, and commutes
with renaming.
-/

namespace SqlComposer

/-- A block of the text of a query. -/
structure Block where
  /-- What the block begins with. -/
  keyword : Text
  /-- What stands between two expressions. -/
  separator : Text
  /-- The expressions behind the keyword. -/
  expressions : List Text

namespace Block

/-- The text of a block. -/
def text (b : Block) : Text :=
  b.keyword ++ b.separator.intercalate b.expressions

/-- A block with every expression renamed. -/
def renamed (b : Block) : Block :=
  { b with expressions := b.expressions.map Placeholder.renamed }

/-- The characters of keywords: capital letters, blanks, commas and the asterisk. -/
def isPlain (c : Char) : Bool :=
  c.isUpper || c == '*' || Text.separates c

/-- A character of a part behind a connective is plain or one of the text. -/
theorem isPlain_or_mem {entry t : Text} (h : Fragment.IsConnectedPart entry t) {c : Char}
    (hc : c ∈ entry) : isPlain c = true ∨ c ∈ t := by
  have hand : ∀ d ∈ "AND".toList, isPlain d = true := List.all_eq_true.mp rfl
  have hor : ∀ d ∈ "OR".toList, isPlain d = true := List.all_eq_true.mp rfl
  obtain ⟨part, hpart, hentry⟩ := h
  have hbehind (hrest : c ∈ ' ' :: part) : isPlain c = true ∨ c ∈ t := by
    rcases List.mem_cons.mp hrest with rfl | hmem
    · exact .inl (by decide)
    · exact .inr (hpart.subset hmem)
  rcases hentry with rfl | rfl | rfl
  · exact .inr (hpart.subset hc)
  · exact (List.mem_append.mp hc).elim (fun hletter => .inl (hand c hletter)) hbehind
  · exact (List.mem_append.mp hc).elim (fun hletter => .inl (hor c hletter)) hbehind

/-- Placeholders in the expressions of a block touch neither its keyword nor its separators. -/
structure IsSpaced (b : Block) : Prop where
  /-- The keyword consists of plain characters. -/
  plain : ∀ c ∈ b.keyword, isPlain c = true
  /-- The keyword does not end with a word character. -/
  last : Text.endsWord b.keyword = false
  /-- The separator consists of blanks and commas. -/
  separator : b.separator.IsSeparator

variable {b : Block}

/-- The keyword of a block that is spaced has no dollar sign. -/
theorem IsSpaced.dollar (h : b.IsSpaced) : '$' ∉ b.keyword :=
  fun hmem => absurd (h.plain '$' hmem) (by decide)

/-- A character of a block is plain or belongs to an expression. -/
theorem IsSpaced.mem_text (h : b.IsSpaced) {c : Char} (hc : c ∈ b.text) :
    isPlain c = true ∨ ∃ t ∈ b.expressions, c ∈ t := by
  rcases List.mem_append.mp hc with hkeyword | hexpressions
  · exact .inl (h.plain c hkeyword)
  · exact (Text.mem_of_mem_intercalate hexpressions).imp_left
      fun hseparator => by simp [isPlain, h.separator.separates c hseparator]

/-- The dollar signs of a block are those of its expressions. -/
theorem IsSpaced.dollars_text (h : b.IsSpaced) :
    Placeholder.dollars b.text = b.expressions.flatMap Placeholder.dollars := by
  rw [text, Placeholder.dollars_append_of_not_mem h.dollar,
    Placeholder.dollars_intercalate h.separator]

/-- The text of a renamed block is its renamed text. -/
theorem IsSpaced.text_renamed (h : b.IsSpaced) :
    b.renamed.text = Placeholder.renamed b.text := by
  rw [text, text, Placeholder.renamed_append_of_not_mem h.dollar,
    Placeholder.renamed_intercalate h.separator]
  rfl

/-- A block keeps the placeholders of its expressions apart. -/
theorem IsSpaced.apart_text (h : b.IsSpaced)
    (hexpressions : ∀ t ∈ b.expressions, Placeholder.Apart t) : Placeholder.Apart b.text :=
  (Placeholder.apart_intercalate h.separator hexpressions).prepend h.dollar h.last

end Block

namespace Clauses

/-! ## Blocks -/

/-- The block of the selected fields. -/
def selectLayout : List Text → Block
  | [] => ⟨"SELECT *".toList, ",\n  ".toList, []⟩
  | fields => ⟨"SELECT\n  ".toList, ",\n  ".toList, fields⟩

/-- A block of expressions, if there are any. -/
def listLayout (keyword separator : Text) : List Text → List Block
  | [] => []
  | expressions => [⟨keyword, separator, expressions⟩]

/-- The blocks in which a query is written. An operand is a list of at most one expression. -/
def layout (c : Clauses) : List Block :=
  selectLayout c.select ::
    listLayout "FROM ".toList ['\n'] (c.source.toList.filter (!·.isEmpty)) ++
    listLayout [] ['\n'] c.joins ++
    listLayout "WHERE ".toList "\n  ".toList c.conditions ++
    listLayout "GROUP BY ".toList ", ".toList (usable c.groupBy) ++
    listLayout "ORDER BY ".toList ", ".toList (usable c.orderBy) ++
    listLayout "LIMIT ".toList ['\n'] (c.limit.toList.filter isResolved) ++
    listLayout "OFFSET ".toList ['\n'] (c.offset.toList.filter isResolved)

/-- The expressions that are written, in order. -/
def written (c : Clauses) : List Text :=
  c.select ++ c.source.toList.filter (!·.isEmpty) ++ c.joins ++ c.conditions ++
    usable c.groupBy ++ usable c.orderBy ++ c.limit.toList.filter isResolved ++
    c.offset.toList.filter isResolved

/-- The block of a list is the text of its layout. -/
theorem listBlock_eq (keyword separator : Text) (expressions : List Text) :
    listBlock keyword separator expressions =
      (listLayout keyword separator expressions).map Block.text := by
  cases expressions <;> rfl

/-- The block of an operand is the text of its layout, if the operand is kept. -/
theorem operandBlock_eq (keyword : Text) (keep : Text → Bool) (operand : Option Text) :
    operandBlock keyword keep operand =
      (listLayout keyword ['\n'] (operand.toList.filter keep)).map Block.text := by
  cases operand with
  | none => rfl
  | some operand =>
    cases hkeep : keep operand <;> simp [operandBlock, listLayout, hkeep, Block.text]

/-- The text of a query is that of the blocks of its layout, each on lines of its own. -/
theorem render_eq (c : Clauses) : c.render = ['\n'].intercalate (c.layout.map Block.text) := by
  have hselect : selectBlock c.select = (selectLayout c.select).text := by
    cases c.select <;> rfl
  simp only [render, blocks, layout, hselect, listBlock_eq, operandBlock_eq, List.map_append,
    List.map_cons]

/-- The layout of a list holds its expressions. -/
theorem flatMap_listLayout (keyword separator : Text) (expressions : List Text) :
    (listLayout keyword separator expressions).flatMap Block.expressions = expressions := by
  cases expressions <;> simp [listLayout]

/-- The expressions of the blocks are those that are written. -/
theorem flatMap_layout (c : Clauses) : c.layout.flatMap Block.expressions = c.written := by
  have hselect : (selectLayout c.select).expressions = c.select := by
    cases c.select <;> rfl
  simp only [layout, written, List.flatMap_append, List.flatMap_cons, hselect, flatMap_listLayout]

/-- Only entries are written, and none of them twice. -/
theorem written_sublist (c : Clauses) : c.written.Sublist c.entries := by
  have husable (expressions : List Text) : (usable expressions).Sublist expressions :=
    List.filter_sublist
  exact (((((((List.Sublist.refl _).append List.filter_sublist).append (.refl _)).append
    (.refl _)).append (husable _)).append (husable _)).append List.filter_sublist).append
      List.filter_sublist

/-- The layout of a list is spaced if the keyword is plain, does not end in a word, and is followed
by a separator. -/
theorem isSpaced_of_mem_listLayout {keyword separator : Text} {expressions : List Text} {b : Block}
    (hplain : keyword.all Block.isPlain = true) (hlast : Text.endsWord keyword = false)
    (hseparator : separator.IsSeparator) (h : b ∈ listLayout keyword separator expressions) :
    b.IsSpaced := by
  cases expressions with
  | nil => cases h
  | cons =>
    obtain rfl := List.mem_singleton.mp h
    exact ⟨List.all_eq_true.mp hplain, hlast, hseparator⟩

/-- Every block of a query is spaced. -/
theorem isSpaced_of_mem_layout {c : Clauses} {b : Block} (h : b ∈ c.layout) : b.IsSpaced := by
  simp only [layout, List.mem_append, List.mem_cons] at h
  rcases h with ((((((hselect | h) | h) | h) | h) | h) | h) | h
  · subst hselect
    cases c.select with
    | nil => exact ⟨List.all_eq_true.mp rfl, by decide +kernel, by decide⟩
    | cons field fields =>
      have hblock : selectLayout (field :: fields) ∈
          listLayout "SELECT\n  ".toList ",\n  ".toList (field :: fields) :=
        List.mem_singleton.mpr rfl
      exact isSpaced_of_mem_listLayout rfl (by decide +kernel) (by decide) hblock
  all_goals exact isSpaced_of_mem_listLayout rfl (by decide +kernel) (by decide) h

/-! ## Dollar signs -/

/-- The dollar signs of the text of a query are those of the expressions that are written. -/
theorem dollars_render (c : Clauses) :
    Placeholder.dollars c.render = c.written.flatMap Placeholder.dollars := by
  rw [render_eq, Placeholder.dollars_intercalate .feed, ← flatMap_layout,
    List.flatMap_map, List.flatMap_assoc]
  exact List.flatMap_congr fun b hb => (isSpaced_of_mem_layout hb).dollars_text

/-- The text of a query keeps the placeholders of its entries apart. -/
theorem apart_render {c : Clauses} (h : ∀ entry ∈ c.entries, Placeholder.Apart entry) :
    Placeholder.Apart c.render := by
  rw [render_eq]
  refine Placeholder.apart_intercalate .feed ?_
  rw [List.forall_mem_map]
  intro b hb
  refine (isSpaced_of_mem_layout hb).apart_text fun t ht => h t (c.written_sublist.subset ?_)
  rw [← flatMap_layout]
  exact List.mem_flatMap.mpr ⟨b, hb, ht⟩

/-- A character of the text of a query is plain or belongs to an entry. -/
theorem mem_render {c : Clauses} {ch : Char} (h : ch ∈ c.render) :
    Block.isPlain ch = true ∨ ∃ entry ∈ c.entries, ch ∈ entry := by
  rw [render_eq] at h
  rcases Text.mem_of_mem_intercalate h with hfeed | ⟨text, htext, hmem⟩
  · obtain rfl := List.mem_singleton.mp hfeed
    exact .inl (by decide)
  · obtain ⟨b, hb, rfl⟩ := List.mem_map.mp htext
    refine ((isSpaced_of_mem_layout hb).mem_text hmem).imp_right ?_
    rintro ⟨t, ht, hmem⟩
    refine ⟨t, c.written_sublist.subset ?_, hmem⟩
    rw [← flatMap_layout]
    exact List.mem_flatMap.mpr ⟨b, hb, ht⟩

/-- All dollar signs of resolved entries are written. -/
theorem flatMap_dollars_written {c : Clauses}
    (h : ∀ entry ∈ c.entries, isResolved entry = true) :
    c.written.flatMap Placeholder.dollars = c.dollars := by
  have husable (expressions : List Text) (h : ∀ e ∈ expressions, isResolved e = true) :
      (usable expressions).flatMap Placeholder.dollars =
        expressions.flatMap Placeholder.dollars := by
    refine Placeholder.flatMap_dollars_filter fun e he hkeep => ?_
    rw [h e he, Bool.and_true, Bool.and_eq_false_iff] at hkeep
    rcases hkeep with hempty | hcomma
    · obtain rfl : e = [] := by simpa using hempty
      decide
    · obtain rfl : e = [','] := by simpa using hcomma
      decide
  have hoperand (operand : Option Text) (h : ∀ t ∈ operand.toList, isResolved t = true) :
      (operand.toList.filter isResolved).flatMap Placeholder.dollars =
        operand.toList.flatMap Placeholder.dollars := by
    rw [List.filter_eq_self.mpr h]
  have hsource : (c.source.toList.filter (!·.isEmpty)).flatMap Placeholder.dollars =
      c.source.toList.flatMap Placeholder.dollars := by
    refine Placeholder.flatMap_dollars_filter fun t _ hempty => ?_
    obtain rfl : t = [] := by simpa using hempty
    decide
  simp only [entries, List.forall_mem_append] at h
  obtain ⟨⟨⟨⟨⟨-, -⟩, hgroupBy⟩, horderBy⟩, hlimit⟩, hoffset⟩ := h
  simp only [written, dollars, entries, List.flatMap_append, hsource, husable _ hgroupBy,
    husable _ horderBy, hoperand _ hlimit, hoperand _ hoffset]

end Clauses

/-! ## Renaming -/

namespace Text

/-- A word without dollar signs and colons begins a renamed text where it begins the text. -/
theorem isPrefixOf_renamed {word : Text} (hdollar : '$' ∉ word) (hcolon : ':' ∉ word) (t : Text) :
    word.isPrefixOf (Placeholder.renamed t) = word.isPrefixOf t := by
  induction word generalizing t with
  | nil => rfl
  | cons w word ih =>
    simp only [List.mem_cons, not_or] at hdollar hcolon
    cases t with
    | nil => simp
    | cons c t =>
      by_cases hc : c = '$'
      · subst hc
        obtain ⟨rest, hrest⟩ := Placeholder.exists_renamed_dollar t
        rw [hrest, List.isPrefixOf_cons_cons, List.isPrefixOf_cons_cons,
          beq_false_of_ne (Ne.symm hdollar.1), beq_false_of_ne (Ne.symm hcolon.1),
          Bool.false_and, Bool.false_and]
      · rw [Placeholder.renamed_cons_of_ne hc, List.isPrefixOf_cons_cons,
          List.isPrefixOf_cons_cons, ih hdollar.2 hcolon.2]

/-- A word that a colon begins occurs behind a text without colons, or not at all. -/
theorem occursIn_append_of_not_mem {word s : Text} (hs : ':' ∉ s) (t : Text) :
    occursIn (':' :: word) (s ++ t) = occursIn (':' :: word) t := by
  induction s with
  | nil => rfl
  | cons c s ih =>
    simp only [List.mem_cons, not_or] at hs
    rw [List.cons_append, occursIn, List.isPrefixOf_cons_cons, ih hs.2]
    simp [hs.1]

end Text

namespace Clauses

/-- A renamed text is resolved exactly when the text is. -/
theorem isResolved_renamed (t : Text) : isResolved (Placeholder.renamed t) = isResolved t := by
  have hword : unresolved = ':' :: 'u' :: "ndefined".toList := rfl
  rw [isResolved, isResolved]
  congr 1
  induction t using Placeholder.renamed.induct with
  | case1 => simp
  | case2 rest ih =>
    have hmark (n : ℤ) : ':' ∉ 'p' :: Text.ofInt n := by
      intro hmem
      rcases List.mem_cons.mp hmem with hp | hnumber
      · cases hp
      · rcases Text.eq_minus_or_isDigit_of_mem_ofInt hnumber with hminus | hdigit
        · cases hminus
        · cases hdigit
    have hdigits : ':' ∉ '$' :: rest.takeWhile Text.isDecimal := by
      intro hmem
      rcases List.mem_cons.mp hmem with hdollar | hdigit
      · cases hdollar
      · exact absurd (List.mem_takeWhile_imp hdigit) (by decide)
    have hsplit := Placeholder.dollar_append_digits rest
    calc Text.occursIn unresolved (Placeholder.renamed ('$' :: rest))
        = Text.occursIn unresolved (Placeholder.renamed (rest.dropWhile Text.isDecimal)) := by
          -- the colon of the mark does not begin the word, and no other one stands in the mark
          rw [Placeholder.renamed_dollar, Placeholder.named, Placeholder.name, List.cons_append,
            Text.occursIn, hword, Text.occursIn_append_of_not_mem (hmark _)]
          simp
      _ = Text.occursIn unresolved (rest.dropWhile Text.isDecimal) := ih
      _ = Text.occursIn unresolved ('$' :: rest) := by
          rw [← hsplit, hword, Text.occursIn_append_of_not_mem hdigits]
  | case3 c rest hc ih =>
    rw [Placeholder.renamed_cons_of_ne hc, Text.occursIn, Text.occursIn, ih, hword,
      List.isPrefixOf_cons_cons, List.isPrefixOf_cons_cons,
      Text.isPrefixOf_renamed (by decide) (by decide)]

/-- A text without colons is resolved. -/
theorem isResolved_of_not_mem {t : Text} (h : ':' ∉ t) : isResolved t = true := by
  have hnone : Text.occursIn (':' :: "undefined".toList) (t ++ []) = false :=
    Text.occursIn_append_of_not_mem h []
  rw [List.append_nil] at hnone
  exact Bool.not_eq_true' _ ▸ hnone

/-- The usable ones of renamed expressions are the renamed usable expressions. -/
theorem usable_renamed (expressions : List Text) :
    usable (expressions.map Placeholder.renamed) =
      (usable expressions).map Placeholder.renamed := by
  rw [usable, usable, List.filter_map]
  congr 2
  funext e
  rw [Function.comp_apply, isResolved_renamed, Bool.eq_iff_iff]
  simp [Placeholder.renamed_eq_nil_iff, Statement.renamed_eq_comma_iff]

/-- Of renamed expressions, those are resolved that are so before. -/
theorem filter_isResolved_renamed (expressions : List Text) :
    (expressions.map Placeholder.renamed).filter isResolved =
      (expressions.filter isResolved).map Placeholder.renamed := by
  rw [List.filter_map]
  simp only [Function.comp_def, isResolved_renamed]

/-- The blocks of renamed clauses are the renamed blocks. -/
theorem layout_renamed (c : Clauses) : c.renamed.layout = c.layout.map Block.renamed := by
  have hselect (fields : List Text) : selectLayout (fields.map Placeholder.renamed) =
      (selectLayout fields).renamed := by
    cases fields <;> rfl
  have hlist (keyword separator : Text) (expressions : List Text) :
      listLayout keyword separator (expressions.map Placeholder.renamed) =
        (listLayout keyword separator expressions).map Block.renamed := by
    cases expressions <;> rfl
  have hoperand (operand : Option Text) : (operand.map Placeholder.renamed).toList =
      operand.toList.map Placeholder.renamed := by
    cases operand <;> rfl
  simp only [layout, renamed, hselect, hoperand, usable_renamed, filter_isResolved_renamed,
    Statement.filter_isEmpty_renamed, hlist, List.map_append, List.map_cons]

/-- The text of renamed clauses is their renamed text. -/
theorem render_renamed (c : Clauses) : c.renamed.render = Placeholder.renamed c.render := by
  rw [render_eq, render_eq, layout_renamed,
    Placeholder.renamed_intercalate .feed, List.map_map, List.map_map]
  congr 1
  exact List.map_congr_left fun b hb => (isSpaced_of_mem_layout hb).text_renamed

end Clauses

end SqlComposer
