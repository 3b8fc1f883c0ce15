import SqlComposer.Proofs.Dollars
import SqlComposer.Proofs.LineTexts
import SqlComposer.Proofs.RoundTrip

/-!
# Clauses as they are written

Rendering leaves an empty table expression and unresolved expressions out, and joins the grouping
and the ordering expressions that remain. Settled clauses are the clauses with just that done to
them: they have the same text. Clauses that come of reading have their entries on lines of their
own, so that the blocks behind the fields are read as the settled clauses again.
-/

namespace SqlComposer

/-! ## Joined expressions -/

namespace Text

/-- A word begins a text where it begins the part before a character that it does not hold. -/
theorem isPrefixOf_append_cons {word : Text} {c : Char} (hc : c ∉ word) (s t : Text) :
    word.isPrefixOf (s ++ c :: t) = word.isPrefixOf s := by
  induction s generalizing word with
  | nil =>
    cases word with
    | nil => rfl
    | cons w word =>
      have hw : w ≠ c := fun heq => hc (by simp [heq])
      rw [List.nil_append, List.isPrefixOf_cons_cons, beq_false_of_ne hw]
      rfl
  | cons d s ih =>
    cases word with
    | nil => rfl
    | cons w word =>
      rw [List.cons_append, List.isPrefixOf_cons_cons, List.isPrefixOf_cons_cons,
        ih fun hmem => hc (by simp [hmem])]

/-- A word occurs on either side of a character that it does not hold, or not at all. -/
theorem occursIn_append_cons {word : Text} {c : Char} (hne : word ≠ []) (hc : c ∉ word)
    (s t : Text) : occursIn word (s ++ c :: t) = (occursIn word s || occursIn word t) := by
  have hsame (s : Text) := isPrefixOf_append_cons hc s t
  induction s with
  | nil =>
    have hfirst : word.isPrefixOf (c :: t) = word.isEmpty := by
      refine (hsame []).trans ?_
      cases word <;> rfl
    rw [List.nil_append, occursIn, occursIn, hfirst]
  | cons d s ih =>
    rw [List.cons_append, occursIn, ih, ← List.cons_append, hsame (d :: s), occursIn,
      Bool.or_assoc]

/-- Texts on single lines are joined to a single line. -/
theorem isLine_intercalate {texts : List Text} (hne : texts ≠ [])
    (h : ∀ t ∈ texts, IsLine t ∧ t ≠ []) :
    IsLine (", ".toList.intercalate texts) ∧ ", ".toList.intercalate texts ≠ [] := by
  induction texts with
  | nil => exact absurd rfl hne
  | cons t texts ih =>
    rw [List.forall_mem_cons] at h
    obtain ⟨⟨hline, hnil⟩, hrest⟩ := h
    cases texts with
    | nil =>
      rw [List.intercalate_singleton]
      exact ⟨hline, hnil⟩
    | cons next texts =>
      obtain ⟨⟨hfeed, htrim⟩, hne⟩ := ih (by simp) hrest
      rw [List.intercalate_cons_cons, List.append_assoc]
      refine ⟨⟨?_, trim_append hnil (by simp) (trim_eq_self_iff.mp hline.2).1 ?_⟩, by simp [hnil]⟩
      · simp only [List.mem_append, not_or]
        exact ⟨hline.1, by decide, hfeed⟩
      · rw [List.getLast?_append_of_ne_nil _ hne]
        exact (trim_eq_self_iff.mp htrim).2

end Text

namespace Clauses

/-- Joined expressions are resolved when each of them is. -/
theorem isResolved_intercalate {expressions : List Text}
    (h : ∀ e ∈ expressions, isResolved e = true) :
    isResolved (", ".toList.intercalate expressions) = true := by
  have hnone : ∀ e ∈ expressions, Text.occursIn unresolved e = false :=
    fun e he => by simpa [isResolved] using h e he
  have hjoined : Text.occursIn unresolved (", ".toList.intercalate expressions) = false := by
    clear h
    induction expressions with
    | nil => rfl
    | cons e expressions ih =>
      rw [List.forall_mem_cons] at hnone
      cases expressions with
      | nil => exact List.intercalate_singleton ▸ hnone.1
      | cons next expressions =>
        have hseparator : ", ".toList ++ ", ".toList.intercalate (next :: expressions) =
            ',' :: ([] ++ ' ' :: ", ".toList.intercalate (next :: expressions)) := rfl
        rw [List.intercalate_cons_cons, List.append_assoc, hseparator,
          Text.occursIn_append_cons (by decide) (by decide),
          Text.occursIn_append_cons (by decide) (by decide), hnone.1, ih hnone.2]
        rfl
  rw [isResolved, hjoined]
  rfl

/-- Grouping or ordering expressions as they are written: joined, if there are any. -/
def joined (expressions : List Text) : List Text :=
  listBlock [] ", ".toList (usable expressions)

/-- Without usable expressions there is nothing to join, and otherwise there is one text. -/
theorem joined_eq (expressions : List Text) :
    joined expressions = [] ∨
      ∃ e rest, usable expressions = e :: rest ∧
        joined expressions = [", ".toList.intercalate (e :: rest)] := by
  rw [joined]
  cases usable expressions with
  | nil => exact .inl rfl
  | cons e rest => exact .inr ⟨e, rest, rfl, rfl⟩

/-- A usable expression is one of the expressions, and neither empty nor a comma nor unresolved. -/
theorem mem_usable {expressions : List Text} {e : Text} (h : e ∈ usable expressions) :
    e ∈ expressions ∧ e ≠ [] ∧ e ≠ [','] ∧ isResolved e = true := by
  simpa [usable, and_assoc] using h

/-- Joined expressions are not empty, nor a lone comma, and are resolved. -/
theorem isSingle_joined (expressions : List Text) : IsSingle (joined expressions) := by
  rcases joined_eq expressions with hnone | ⟨e, rest, husable, hjoined⟩
  · rw [hnone]
    exact ⟨by simp, by simp⟩
  · obtain ⟨-, hnil, hcomma, -⟩ := mem_usable (husable ▸ List.mem_cons_self : e ∈ usable _)
    have hresolved : isResolved (", ".toList.intercalate (e :: rest)) = true :=
      isResolved_intercalate fun x hx => (mem_usable (husable ▸ hx : x ∈ usable _)).2.2.2
    rw [hjoined]
    refine ⟨by simp, ?_⟩
    rw [List.forall_mem_singleton]
    refine ⟨?_, ?_, hresolved⟩
    · rw [Text.intercalate_cons]
      simp [hnil]
    · rw [Text.intercalate_cons, Ne, List.append_eq_singleton_iff]
      rintro (⟨hempty, -⟩ | ⟨heq, -⟩)
      · exact hnil hempty
      · exact hcomma heq

/-- Expressions on single lines are joined to a single line. -/
theorem isLine_of_mem_joined {expressions : List Text} (h : ∀ e ∈ expressions, Text.IsLine e) :
    ∀ e ∈ joined expressions, Text.IsLine e := by
  rcases joined_eq expressions with hnone | ⟨e, rest, husable, hjoined⟩
  · rw [hnone]
    nofun
  · have hlines : ∀ x ∈ e :: rest, Text.IsLine x ∧ x ≠ [] := by
      intro x hx
      obtain ⟨hmem, hne, -⟩ := mem_usable (husable ▸ hx : x ∈ usable _)
      exact ⟨h x hmem, hne⟩
    rw [hjoined, List.forall_mem_singleton]
    exact (Text.isLine_intercalate (by simp) hlines).1

/-- What is joined already is written as it is. -/
theorem usable_joined (expressions : List Text) :
    usable (joined expressions) = joined expressions := by
  rw [usable, List.filter_eq_self]
  intro e he
  obtain ⟨hnil, hcomma, hresolved⟩ := (isSingle_joined expressions).usable e he
  simp [hnil, hcomma, hresolved]

/-- Joining the expressions of a block beforehand does not change the block. -/
theorem listBlock_joined (keyword : Text) (expressions : List Text) :
    listBlock keyword ", ".toList (usable (joined expressions)) =
      listBlock keyword ", ".toList (usable expressions) := by
  rw [usable_joined, joined]
  cases usable expressions <;> simp [listBlock]

/-- Leaving out beforehand what is not to be written does not change a block. -/
theorem operandBlock_filter (keyword : Text) (keep : Text → Bool) (operand : Option Text) :
    operandBlock keyword keep (operand.filter keep) = operandBlock keyword keep operand := by
  cases operand with
  | none => rfl
  | some x => cases hkeep : keep x <;> simp [Option.filter, operandBlock, hkeep]

/-! ## Settled clauses -/

/-- The clauses without what is not written, and with the expressions joined. -/
def settled (c : Clauses) : Clauses :=
  { c with
    source := c.source.filter (!·.isEmpty), groupBy := joined c.groupBy
    orderBy := joined c.orderBy, limit := c.limit.filter isResolved
    offset := c.offset.filter isResolved }

/-- Settled clauses are written alike. -/
theorem blocks_settled (c : Clauses) : c.settled.blocks = c.blocks := by
  simp only [settled, blocks, operandBlock_filter, listBlock_joined]

/-- Settled clauses have the same text. -/
theorem render_settled (c : Clauses) : c.settled.render = c.render := by
  rw [render, render, blocks_settled]

/-! ## Clauses that come of reading -/

/-- Clauses as they come of reading. -/
structure IsTidy (c : Clauses) : Prop where
  /-- Every field stands on a single line and does not begin with a blank. -/
  fields : ∀ field ∈ c.select, Statement.BeginsLine field
  /-- Every other entry stands on a single line, without blanks at either end. -/
  lines : ∀ entry ∈ c.laterEntries, Text.IsLine entry
  /-- Every join begins with its keyword. -/
  joins : ∀ join ∈ c.joins, Keyword.join.opens join = true

/-- The blocks behind the fields of such clauses can be told apart when they are settled, if the
further conditions can. -/
theorem IsTidy.isSeparable_settled {c : Clauses} (hc : c.IsTidy)
    (hlater : ∀ condition ∈ c.conditions.tail,
      condition ≠ [] ∧ ∀ k ∈ Statement.keywords, k.opens condition = false) :
    c.settled.IsSeparable := by
  have hlines := hc.lines
  simp only [laterEntries, List.forall_mem_append, Option.mem_toList] at hlines
  obtain ⟨⟨⟨⟨⟨⟨hsource, hjoins⟩, hconditions⟩, hgroupBy⟩, horderBy⟩, hlimit⟩, hoffset⟩ := hlines
  have hkept {keep : Text → Bool} {operand : Option Text} {x : Text}
      (h : x ∈ operand.filter keep) : x ∈ operand ∧ keep x = true :=
    Option.mem_filter_iff.mp h
  constructor
  case lines =>
    simp only [settled, laterEntries, List.forall_mem_append, Option.mem_toList]
    exact ⟨⟨⟨⟨⟨⟨fun x hx => hsource x (hkept hx).1, hjoins⟩, hconditions⟩,
      isLine_of_mem_joined hgroupBy⟩, isLine_of_mem_joined horderBy⟩,
      fun x hx => hlimit x (hkept hx).1⟩, fun x hx => hoffset x (hkept hx).1⟩
  case source => exact fun x hx => by simpa using (hkept hx).2
  case joins => exact hc.joins
  case later => exact hlater
  case groupBy => exact isSingle_joined c.groupBy
  case orderBy => exact isSingle_joined c.orderBy
  case limit => exact fun x hx => (hkept hx).2
  case offset => exact fun x hx => (hkept hx).2

end Clauses

namespace Statement

/-- The operand of a keyword stands on a single line if the keyword does. -/
theorem isLine_of_keyword? {line operand : Text} {k : Keyword} (hline : line.IsLine)
    (h : keyword? line = some (k, operand)) : operand.IsLine :=
  ⟨fun hmem => hline.1 ((Keyword.isCore_of_first? h).isPart.subset hmem),
    Keyword.trim_of_first? h⟩

/-- A field of a line does not begin with a blank. -/
theorem beginsLine_of_mem_fieldsOf {line field : Text} (hline : line.IsLine)
    (h : field ∈ fieldsOf line) : BeginsLine field := by
  obtain ⟨rfl, hne⟩ := mem_fieldsOf.mp h
  obtain ⟨c, rest, hfield⟩ := List.exists_cons_of_ne_nil hne
  refine ⟨fun hmem => hline.1 ((isCore_fieldOf line).isPart.subset hmem), c, rest, hfield, ?_⟩
  exact head?_fieldOf hline.2 c (by rw [hfield]; rfl)

/-- A line that a keyword opens adds itself, its operand or the fields of the operand. -/
theorem isTidy_openWith {c : Clauses} {line operand : Text} {k : Keyword} (hc : c.IsTidy)
    (hline : line.IsLine) (hkeyword : keyword? line = some (k, operand)) :
    (openWith c line k operand).IsTidy := by
  have hoperand := isLine_of_keyword? hline hkeyword
  have hcases : ∀ entry ∈ (openWith c line k operand).laterEntries,
      entry ∈ c.laterEntries ∨ entry = line ∨ entry = operand := by
    intro entry hentry
    cases k <;> grind [openWith, Clauses.laterEntries]
  constructor
  case fields =>
    cases k with
    | select => exact fun field => beginsLine_of_mem_fieldsOf hoperand
    | _ => exact hc.fields
  case lines =>
    intro entry hentry
    rcases hcases entry hentry with hearlier | rfl | rfl
    · exact hc.lines entry hearlier
    · exact hline
    · exact hoperand
  case joins =>
    cases k with
    | join =>
      rw [openWith, List.forall_mem_append, List.forall_mem_singleton]
      exact ⟨hc.joins, Keyword.opens_of_first? hkeyword⟩
    | _ => exact hc.joins

/-- A line that continues a section adds itself or its fields. -/
theorem isTidy_continueWith {c : Clauses} {line : Text} (hc : c.IsTidy) (hline : line.IsLine)
    (current : Section) : (continueWith c line current).IsTidy := by
  have hcases : ∀ entry ∈ (continueWith c line current).laterEntries,
      entry ∈ c.laterEntries ∨ entry = line := by
    intro entry hentry
    cases current <;> grind [continueWith, Clauses.laterEntries]
  constructor
  case fields =>
    cases current with
    | select =>
      rw [continueWith, List.forall_mem_append]
      exact ⟨hc.fields, fun field => beginsLine_of_mem_fieldsOf hline⟩
    | _ => exact hc.fields
  case lines =>
    intro entry hentry
    rcases hcases entry hentry with hearlier | rfl
    · exact hc.lines entry hearlier
    · exact hline
  case joins => cases current <;> exact hc.joins

/-- A line keeps the entries on lines of their own. -/
theorem isTidy_applyLine {c : Clauses} {line : Text} (hc : c.IsTidy) (hline : line.IsLine)
    (current : Section) : (applyLine current c line).IsTidy := by
  unfold applyLine
  split
  · next k operand hkeyword => exact isTidy_openWith hc hline hkeyword
  · exact isTidy_continueWith hc hline current

/-- Lines keep the entries on lines of their own. -/
theorem isTidy_readLines {c : Clauses} {lines : List Text} (hc : c.IsTidy)
    (hlines : ∀ line ∈ lines, Text.IsLine line) (current : Section) :
    (readLines current c lines).IsTidy := by
  induction lines generalizing current c with
  | nil => exact hc
  | cons line lines ih =>
    rw [List.forall_mem_cons] at hlines
    exact ih (isTidy_applyLine hc hlines.1 current) hlines.2 (sectionAfter current line)

/-- The lines of a statement hold no line feeds. -/
theorem isLine_of_mem_linesOf {statement line : Text} (h : line ∈ linesOf statement) :
    line.IsLine := by
  refine ⟨?_, trim_of_mem_linesOf h⟩
  obtain ⟨hmem, -⟩ := List.mem_filter.mp h
  obtain ⟨piece, hpiece, rfl⟩ := List.mem_map.mp hmem
  exact fun hfeed =>
    Text.not_mem_of_mem_splitOn hpiece ((Text.isCore_trim piece).isPart.subset hfeed)

/-- Every entry that comes of reading a statement stands on a line of its own. -/
theorem isTidy_read (statement : Text) : (read .empty statement).IsTidy :=
  isTidy_readLines ⟨by nofun, by nofun, by nofun⟩ (fun _ => isLine_of_mem_linesOf) .none

end Statement

end SqlComposer
