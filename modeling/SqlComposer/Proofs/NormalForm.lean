import SqlComposer.Proofs.Settled

/-!
# The text of a query as a normal form

Reading the text of a statement's query again yields a query of the same text when the fields can be
told from keywords and from commas. Only then: every written field takes a line of its own, and a
list of the same length comes of these lines only if each of them yields its field. A query without
fields is written with an asterisk, which is a field when the text is read, and stays one.
-/

namespace SqlComposer

/-- Fields that a written list can be read back to. -/
@[mk_iff]
structure Clauses.IsFieldList (fields : List Text) : Prop where
  /-- There is a field. -/
  ne_nil : fields ≠ []
  /-- No field begins with a comma. -/
  first : ∀ field ∈ fields, field.head? ≠ some ','
  /-- No keyword opens a field. -/
  no_keyword : ∀ field ∈ fields, ∀ k ∈ Statement.keywords, k.opens field = false
  /-- The last field does not end with a comma. -/
  last : ∀ field ∈ fields.getLast?, field.getLast? ≠ some ','

/-- Clauses without the entries that doubled separators and a second `WHERE` leave. -/
@[mk_iff]
structure Clauses.IsRegular (c : Clauses) : Prop where
  /-- No field is a lone comma. -/
  select : ∀ field ∈ c.select, field ≠ [',']
  /-- The last field does not end with a blank. -/
  last : ∀ field ∈ c.select.getLast?, Text.trimEnd field = field
  /-- No condition after the first is empty or opened by a keyword. -/
  later : ∀ condition ∈ c.conditions.tail,
    condition ≠ [] ∧ ∀ k ∈ Statement.keywords, k.opens condition = false

/-- Clauses with the asterisk as their only field. -/
def Clauses.withStar (c : Clauses) : Clauses :=
  { c with select := [['*']] }

instance (fields : List Text) : Decidable (Clauses.IsFieldList fields) :=
  decidable_of_iff _ (Clauses.isFieldList_iff fields).symm

instance (c : Clauses) : Decidable c.IsRegular :=
  decidable_of_iff _ (Clauses.isRegular_iff c).symm

/-! ## Fields that come of their lines -/

namespace Statement

/-- The operand of `SELECT` is shorter than the line by the keyword at least. -/
theorem length_operand_le {line operand : Text} (h : keyword? line = some (.select, operand)) :
    operand.length + 6 ≤ line.length := by
  obtain ⟨-, rest, hafter, rfl⟩ := Keyword.exists_after?_of_first? h
  obtain ⟨phrase, hphrase, hfound⟩ := List.exists_of_findSome?_eq_some hafter
  obtain rfl : phrase = ["select".toList] := by simpa [Keyword.spellings] using hphrase
  obtain ⟨hword, -⟩ := Option.filter_eq_some_iff.mp hfound
  obtain ⟨front, rfl, hfront⟩ := Text.exists_front_of_afterWord? hword
  have hlength : front.length = 6 := by simpa using congrArg List.length hfront
  have hle := Text.length_trim_le rest
  rw [List.length_append]
  omega

/-- A line yields one field at most, and keeps the fields before it if it yields one more. -/
theorem select_applyLine_le (current : Section) (c : Clauses) (line : Text) :
    (applyLine current c line).select.length ≤ c.select.length + 1 ∧
      (c.select.length < (applyLine current c line).select.length →
        c.select <+: (applyLine current c line).select) := by
  have hfields (t : Text) : (fieldsOf t).length ≤ 1 := List.length_filter_le _ [fieldOf t]
  unfold applyLine
  cases keyword? line with
  | some entry =>
    obtain ⟨k, operand⟩ := entry
    cases k with
    | select =>
      have hoperand := hfields operand
      refine ⟨by simp only [openWith]; omega, fun hlt => ?_⟩
      have hnil : c.select.length = 0 := by
        simp only [openWith] at hlt
        omega
      rw [List.length_eq_zero_iff.mp hnil]
      exact List.nil_prefix
    | _ => exact ⟨Nat.le_succ _, fun _ => List.prefix_rfl⟩
  | none =>
    cases current with
    | select =>
      have hline := hfields line
      refine ⟨by simp only [continueWith, List.length_append]; omega, fun _ => ?_⟩
      exact List.prefix_append c.select (fieldsOf line)
    | _ => exact ⟨Nat.le_succ _, fun _ => List.prefix_rfl⟩

/-- Lines yield no more fields than there are lines, and keep the fields before them if they yield
as many more. -/
theorem select_readLines_le (current : Section) (c : Clauses) (lines : List Text) :
    (readLines current c lines).select.length ≤ c.select.length + lines.length ∧
      (c.select.length + lines.length ≤ (readLines current c lines).select.length →
        c.select <+: (readLines current c lines).select) := by
  induction lines generalizing current c with
  | nil => exact ⟨le_rfl, fun _ => List.prefix_rfl⟩
  | cons line lines ih =>
    obtain ⟨hle, hkept⟩ := select_applyLine_le current c line
    obtain ⟨hrest, hrestKept⟩ := ih (sectionAfter current line) (applyLine current c line)
    rw [readLines, List.length_cons]
    refine ⟨by omega, fun h => ?_⟩
    exact (hkept (by omega)).trans (hrestKept (by omega))

/-- A line that adds a field almost as long as itself is no keyword's, and has this field. -/
theorem of_select_applyLine {c : Clauses} {line field : Text}
    (hlength : line.length ≤ field.length + 1)
    (h : (applyLine .select c line).select = c.select ++ [field]) :
    keyword? line = none ∧ fieldOf line = field := by
  unfold applyLine at h
  cases hkeyword : keyword? line with
  | some entry =>
    obtain ⟨k, operand⟩ := entry
    rw [hkeyword] at h
    cases k with
    | select =>
      have hmem : field ∈ fieldsOf operand := by
        have hfields : fieldsOf operand = c.select ++ [field] := h
        simp [hfields]
      have hshort := length_operand_le hkeyword
      have hle := length_fieldOf_le (Keyword.trim_of_first? hkeyword)
      rw [← (mem_fieldsOf.mp hmem).1] at hle
      omega
    | _ => simp [openWith] at h
  | none =>
    rw [hkeyword] at h
    have hfields : fieldsOf line = [field] := List.append_cancel_left h
    exact ⟨rfl, (fieldsOf_eq_singleton_iff.mp hfields).1⟩

/-- If the lines of a written list yield the fields of this list, no keyword opens a field, no field
begins with a comma, and the last one does not end with one. -/
theorem of_select_readLines {fields : List Text} {c : Clauses}
    (hfields : ∀ field ∈ fields, BeginsLine field)
    (hlast : ∀ field ∈ fields.getLast?, Text.trim field = field)
    (h : (readLines .select c (commaLines fields)).select = c.select ++ fields) :
    (∀ field ∈ fields, keyword? field = none ∧ field.head? ≠ some ',') ∧
      ∀ field ∈ fields.getLast?, field.getLast? ≠ some ',' := by
  induction fields generalizing c with
  | nil => exact ⟨nofun, nofun⟩
  | cons field fields ih =>
    rw [List.forall_mem_cons] at hfields
    cases fields with
    | nil =>
      obtain ⟨hkeyword, hfield⟩ := of_select_applyLine (Nat.le_succ _) h
      obtain ⟨hhead, hcomma⟩ := ends_of_fieldOf_eq (hlast field rfl) hfield
      refine ⟨by simpa using ⟨hkeyword, hhead⟩, ?_⟩
      rintro _ ⟨⟩
      exact hcomma
    | cons next fields =>
      rw [commaLines, readLines] at h
      -- no field is missing in the end, so the first line yields one
      have hfirst : (applyLine .select c (field ++ [','])).select = c.select ++ [field] := by
        obtain ⟨hle, -⟩ := select_applyLine_le .select c (field ++ [','])
        obtain ⟨hrest, hkept⟩ := select_readLines_le (sectionAfter .select (field ++ [',']))
          (applyLine .select c (field ++ [','])) (commaLines (next :: fields))
        simp only [h, length_commaLines, List.length_append, List.length_cons] at hrest hkept
        have hlength : (applyLine .select c (field ++ [','])).select.length =
            c.select.length + 1 := by omega
        have htake := List.prefix_iff_eq_take.mp (hkept (by omega))
        rw [htake, hlength, List.take_length_add_append]
        rfl
      obtain ⟨hkeyword, hfield⟩ := of_select_applyLine (by simp) hfirst
      have hhead := head?_of_fieldOf_comma hfields.1.ne_nil hfields.1.isLine_comma.2 hfield
      have hsection : sectionAfter .select (field ++ [',']) = .select := by
        rw [sectionAfter, hkeyword]
      have hopens : keyword? field = none := by
        rw [keyword?_eq_none_iff] at hkeyword ⊢
        intro k hk
        rw [← Keyword.opens_append_separators Text.IsSeparator.comma.separates, hkeyword k hk]
      rw [hsection] at h
      obtain ⟨hrest, hends⟩ := ih hfields.2 (by simpa using hlast)
        (h.trans (by rw [hfirst, List.append_assoc]; rfl))
      exact ⟨List.forall_mem_cons.mpr ⟨⟨hopens, hhead⟩, hrest⟩, by simpa using hends⟩

end Statement

/-! ## Fields that the text shows -/

namespace Text

/-- What follows the first line feed of a text, and what stands before it, are told by the text. -/
theorem append_inj_of_feed {s s' t t' : Text} (hs : '\n' ∉ s) (hs' : '\n' ∉ s')
    (ht : ∀ c ∈ t.head?, c = '\n') (ht' : ∀ c ∈ t'.head?, c = '\n') (h : s ++ t = s' ++ t') :
    s = s' ∧ t = t' := by
  have hfront {s t : Text} (hs : '\n' ∉ s) (ht : ∀ c ∈ t.head?, c = '\n') :
      (s ++ t).takeWhile (· ≠ '\n') = s := by
    have hnone : t.takeWhile (· ≠ '\n') = [] := by
      cases t with
      | nil => rfl
      | cons c t => simp [ht c rfl]
    rw [List.takeWhile_append_of_pos, hnone, List.append_nil]
    intro c hc
    simpa using fun heq : c = '\n' => hs (heq ▸ hc)
  have hsame : s = s' := by rw [← hfront hs ht, h, hfront hs' ht']
  exact ⟨hsame, List.append_cancel_left (hsame ▸ h)⟩

end Text

namespace Clauses

/-- What follows a list of fields: nothing, or a line that is not indented. -/
def FollowsFields (t : Text) : Prop :=
  t = [] ∨ ∃ c rest, t = '\n' :: c :: rest ∧ c ≠ ' '

/-- What follows fields begins with a line feed, if with anything. -/
theorem FollowsFields.head? {t : Text} (h : FollowsFields t) : ∀ c ∈ t.head?, c = '\n' := by
  rcases h with rfl | ⟨c, rest, rfl, -⟩
  · nofun
  · rintro _ ⟨⟩
    rfl

/-- What follows fields begins no indented line. -/
theorem FollowsFields.ne_indented {t rest : Text} (h : FollowsFields t) :
    t ≠ '\n' :: ' ' :: rest := by
  rintro rfl
  rcases h with hnil | ⟨c, later, heq, hblank⟩
  · cases hnil
  · cases heq
    exact hblank rfl

/-- The first of several fields, its comma, and the others on indented lines. -/
theorem intercalate_fields_append (field next : Text) (fields : List Text) (t : Text) :
    ",\n  ".toList.intercalate (field :: next :: fields) ++ t =
      (field ++ [',']) ++ '\n' :: ' ' :: ' ' ::
        (",\n  ".toList.intercalate (next :: fields) ++ t) := by
  simp

/-- A written list of fields is told from what follows it. -/
theorem fields_eq_of_append_eq {fields fields' : List Text} {t t' : Text} (hne : fields ≠ [])
    (hne' : fields' ≠ []) (hfields : ∀ field ∈ fields, '\n' ∉ field)
    (hfields' : ∀ field ∈ fields', '\n' ∉ field) (ht : FollowsFields t) (ht' : FollowsFields t')
    (h : ",\n  ".toList.intercalate fields ++ t = ",\n  ".toList.intercalate fields' ++ t') :
    fields = fields' := by
  have hcomma {field : Text} (h : '\n' ∉ field) : '\n' ∉ field ++ [','] := by simpa using h
  induction fields generalizing fields' with
  | nil => exact absurd rfl hne
  | cons field fields ih =>
    obtain ⟨field', fields', rfl⟩ := List.exists_cons_of_ne_nil hne'
    rw [List.forall_mem_cons] at hfields hfields'
    cases fields with
    | nil =>
      cases fields' with
      | nil =>
        rw [List.intercalate_singleton, List.intercalate_singleton] at h
        rw [(Text.append_inj_of_feed hfields.1 hfields'.1 ht.head? ht'.head? h).1]
      | cons next' fields' =>
        rw [List.intercalate_singleton, intercalate_fields_append] at h
        have hrest := Text.append_inj_of_feed hfields.1 (hcomma hfields'.1) ht.head? (by simp) h
        exact absurd hrest.2 ht.ne_indented
    | cons next fields =>
      cases fields' with
      | nil =>
        rw [List.intercalate_singleton, intercalate_fields_append] at h
        have hrest := Text.append_inj_of_feed (hcomma hfields.1) hfields'.1 (by simp) ht'.head? h
        exact absurd hrest.2.symm ht'.ne_indented
      | cons next' fields' =>
        rw [intercalate_fields_append, intercalate_fields_append] at h
        obtain ⟨hfirst, hrest⟩ := Text.append_inj_of_feed (hcomma hfields.1) (hcomma hfields'.1)
          (by simp) (by simp) h
        rw [List.append_cancel_right hfirst,
          ih (by simp) (by simp) hfields.2 hfields'.2 (by simpa using hrest)]

/-- The block of an operand begins with its keyword. -/
theorem mem_operandBlock {keyword block : Text} {keep : Text → Bool} {operand : Option Text}
    (h : block ∈ operandBlock keyword keep operand) : ∃ rest, block = keyword ++ rest := by
  cases operand with
  | none => cases h
  | some x =>
    rw [operandBlock] at h
    obtain ⟨-, hmem⟩ := List.mem_ite_nil_right.mp h
    exact ⟨x, List.mem_singleton.mp hmem⟩

/-- There is a block of a list only if it holds expressions, and then it shows them. -/
theorem mem_listBlock {keyword separator block : Text} {expressions : List Text}
    (h : block ∈ listBlock keyword separator expressions) :
    expressions ≠ [] ∧ block = keyword ++ separator.intercalate expressions := by
  cases expressions with
  | nil => cases h
  | cons e rest => exact ⟨by simp, List.mem_singleton.mp h⟩

/-- No block behind the fields is indented. -/
theorem IsTidy.exists_of_mem_tail {c : Clauses} (hc : c.IsTidy) {block : Text}
    (h : block ∈ c.blocks.tail) : ∃ ch rest, block = ch :: rest ∧ ch ≠ ' ' := by
  simp only [blocks, List.cons_append, List.tail_cons, List.mem_append] at h
  rcases h with (((((h | h) | h) | h) | h) | h) | h
  · obtain ⟨rest, rfl⟩ := mem_operandBlock h
    exact ⟨'F', _, rfl, by decide⟩
  · obtain ⟨hne, rfl⟩ := mem_listBlock h
    obtain ⟨join, joins, hjoins⟩ := List.exists_cons_of_ne_nil hne
    have hopens := hc.joins join (by simp [hjoins])
    have hline := hc.lines join (by simp [laterEntries, hjoins])
    obtain ⟨ch, rest, rfl⟩ := List.exists_cons_of_ne_nil (Keyword.ne_nil_of_opens hopens)
    have hblank := (Text.trim_eq_self_iff.mp hline.2).1 ch rfl
    refine ⟨ch, rest ++ joins.flatMap (['\n'] ++ ·), ?_, ?_⟩
    · rw [hjoins, Text.intercalate_cons]
      rfl
    · rintro rfl
      cases hblank
  · obtain ⟨-, rfl⟩ := mem_listBlock h
    exact ⟨'W', _, rfl, by decide⟩
  · obtain ⟨-, rfl⟩ := mem_listBlock h
    exact ⟨'G', _, rfl, by decide⟩
  · obtain ⟨-, rfl⟩ := mem_listBlock h
    exact ⟨'O', _, rfl, by decide⟩
  · obtain ⟨rest, rfl⟩ := mem_operandBlock h
    exact ⟨'L', _, rfl, by decide⟩
  · obtain ⟨rest, rfl⟩ := mem_operandBlock h
    exact ⟨'O', _, rfl, by decide⟩

/-- The text is the block of fields, and what follows it. -/
theorem IsTidy.exists_render_eq {c : Clauses} (hc : c.IsTidy) :
    ∃ t, c.render = selectBlock c.select ++ t ∧ FollowsFields t := by
  refine ⟨c.blocks.tail.flatMap (['\n'] ++ ·), Text.intercalate_cons _ _ _, ?_⟩
  cases hblocks : c.blocks.tail with
  | nil => exact .inl rfl
  | cons block blocks =>
    obtain ⟨ch, rest, rfl, hne⟩ := hc.exists_of_mem_tail (hblocks ▸ List.mem_cons_self)
    exact .inr ⟨ch, _, rfl, hne⟩

/-- The text shows whether there are fields. -/
theorem selectBlock_append_ne {fields : List Text} (hne : fields ≠ []) (t t' : Text) :
    selectBlock fields ++ t ≠ selectBlock [] ++ t' := by
  have hstar : selectBlock [] = "SELECT".toList ++ [' ', '*'] := rfl
  rw [Statement.selectBlock_of_ne_nil hne, hstar, List.append_assoc, List.append_assoc]
  intro h
  cases List.append_cancel_left h

/-- Clauses of the same text have the same fields. -/
theorem IsTidy.select_eq_of_render_eq {c c' : Clauses} (hc : c.IsTidy) (hc' : c'.IsTidy)
    (h : c.render = c'.render) : c.select = c'.select := by
  obtain ⟨t, hrender, ht⟩ := hc.exists_render_eq
  obtain ⟨t', hrender', ht'⟩ := hc'.exists_render_eq
  rw [hrender, hrender'] at h
  by_cases hne : c.select = []
  · by_contra hdistinct
    rw [hne] at h hdistinct
    exact selectBlock_append_ne (Ne.symm hdistinct) t' t h.symm
  · have hne' : c'.select ≠ [] := by
      intro hnil
      rw [hnil] at h
      exact selectBlock_append_ne hne t t' h
    rw [Statement.selectBlock_of_ne_nil hne, Statement.selectBlock_of_ne_nil hne',
      List.append_assoc, List.append_assoc] at h
    have hfields : ",\n  ".toList.intercalate c.select ++ t =
        ",\n  ".toList.intercalate c'.select ++ t' := by
      simpa using List.append_cancel_left h
    exact fields_eq_of_append_eq hne hne' (fun field hfield => (hc.fields field hfield).1)
      (fun field hfield => (hc'.fields field hfield).1) ht ht' hfields

/-! ## Texts that are read again -/

variable {c : Clauses}

/-- The last field of such clauses has nothing to trim. -/
theorem IsTidy.trim_last (hc : c.IsTidy) (hregular : c.IsRegular) :
    ∀ field ∈ c.select.getLast?, Text.trim field = field :=
  fun field hfield => Text.trim_eq_self_iff.mpr
    ⟨(hc.fields field (List.mem_of_getLast? hfield)).head?,
      Text.trimEnd_eq_self_iff.mp (hregular.last field hfield)⟩

/-- The text of clauses with such fields is read as the settled clauses. -/
theorem IsTidy.read_render_eq (hc : c.IsTidy) (hregular : c.IsRegular)
    (hfields : IsFieldList c.select) : Statement.read .empty c.render = c.settled := by
  have hselect := Statement.reads_select hfields.ne_nil
    (fun field hfield => ⟨hc.fields field hfield, hfields.first field hfield⟩)
    (fun field hfield => ⟨hc.trim_last hregular field hfield, hfields.last field hfield⟩)
    (fun field hfield => Statement.keyword?_eq_none_iff.mpr (hfields.no_keyword field hfield))
    .empty
  rw [← render_settled]
  exact (hc.isSeparable_settled hregular.later).read_render_eq hselect

/-- The text of clauses without fields is read with the asterisk as the only field. -/
theorem IsTidy.read_render_of_nil (hc : c.IsTidy) (hregular : c.IsRegular)
    (hnil : c.select = []) : Statement.read .empty c.render = c.settled.withStar := by
  have hstar : Statement.keyword? "SELECT *".toList = some (.select, ['*']) := by decide +kernel
  have hselect : Statement.Reads (Statement.linesOf (selectBlock c.settled.select)) .empty
      { select := [['*']] } := by
    have hlines : Statement.linesOf (selectBlock c.settled.select) = ["SELECT *".toList] := by
      have hnone : c.settled.select = [] := hnil
      rw [hnone]
      decide +kernel
    rw [hlines]
    exact .line hstar .empty
  rw [← render_settled]
  exact (hc.isSeparable_settled hregular.later).read_render_eq hselect

/-- The fields of a text are those that come of the lines of its block of fields. -/
theorem IsTidy.select_read_render (hc : c.IsTidy) (hregular : c.IsRegular)
    (hne : c.select ≠ []) :
    (Statement.read .empty c.render).select =
      (Statement.readLines .select .empty (Statement.commaLines c.select)).select := by
  have hlines : Statement.linesOf c.render = ("SELECT".toList :: Statement.commaLines c.select) ++
      c.settled.blocks.tail.flatMap Statement.linesOf := by
    rw [linesOf_render, blocks_settled,
      Statement.linesOf_selectBlock hne hc.fields (hc.trim_last hregular)]
  have htail := (hc.isSeparable_settled hregular.later).reads
  rw [Statement.read, hlines, Statement.readLines_append, (htail _).readLines_eq]
  rfl

/-- Clauses whose text is read as clauses of the same text have such fields. -/
theorem IsTidy.isFieldList_of_render_eq (hc : c.IsTidy) (hregular : c.IsRegular)
    (h : (Statement.read .empty c.render).render = c.render) : IsFieldList c.select := by
  have hselect : (Statement.read .empty c.render).select = c.select :=
    (Statement.isTidy_read c.render).select_eq_of_render_eq hc h
  have hne : c.select ≠ [] := by
    intro hnil
    rw [hc.read_render_of_nil hregular hnil, hnil] at hselect
    cases hselect
  rw [hc.select_read_render hregular hne] at hselect
  obtain ⟨hfields, hlast⟩ :=
    Statement.of_select_readLines hc.fields (hc.trim_last hregular) hselect
  exact
    { ne_nil := hne
      first := fun field hfield => (hfields field hfield).2
      no_keyword := fun field hfield =>
        Statement.keyword?_eq_none_iff.mp (hfields field hfield).1
      last := hlast }

/-- Clauses with a star are settled as the settled clauses with a star are. -/
theorem settled_withStar (c : Clauses) : c.withStar.settled = c.settled.withStar := rfl

/-- Tidy clauses stay so with a star. -/
theorem IsTidy.withStar (hc : c.IsTidy) : c.withStar.IsTidy where
  fields := by
    rw [Clauses.withStar, List.forall_mem_singleton]
    exact ⟨by decide, '*', [], rfl, by decide⟩
  lines := hc.lines
  joins := hc.joins

/-- Regular clauses stay so with a star. -/
theorem IsRegular.withStar (hregular : c.IsRegular) : c.withStar.IsRegular where
  select := by simp [Clauses.withStar]
  last := by
    rintro _ ⟨⟩
    rfl
  later := hregular.later

/-- A star is a field list. -/
theorem isFieldList_star : IsFieldList [['*']] := by
  decide +kernel

end Clauses

namespace Query

/-- The clauses of a parsed statement are those that reading it makes. -/
@[simp] theorem clauses_parse (statement : Text) :
    (parse statement).clauses = Statement.read .empty statement := rfl

/-- The text of a query is that of its clauses. -/
theorem text_eq (q : Query) : q.text = q.clauses.render := rfl

/-- The text of a statement's query is the text of the query that comes of reading it exactly when
there is a field, no field begins with a comma or is opened by a keyword, and the last one does not
end with a comma. Without a field the asterisk of the text becomes a field when the text is read,
and the text of that query is kept from then on. -/
theorem text_parse_text_iff {statement : Text} (h : (parse statement).clauses.IsRegular) :
    ((parse (parse statement).text).text = (parse statement).text ↔
        Clauses.IsFieldList (parse statement).clauses.select) ∧
      ((parse statement).clauses.select = [] →
        (parse (parse statement).text).text =
            (parse statement).clauses.withStar.render ∧
          (parse (parse (parse statement).text).text).text =
            (parse (parse statement).text).text) := by
  simp only [text_eq, clauses_parse] at h ⊢
  have htidy := Statement.isTidy_read statement
  refine ⟨⟨htidy.isFieldList_of_render_eq h, fun hfields => ?_⟩, fun hnil => ?_⟩
  · rw [htidy.read_render_eq h hfields, Clauses.render_settled]
  · have hfirst : (Statement.read .empty (Statement.read .empty statement).render).render =
        (Statement.read .empty statement).withStar.render := by
      rw [htidy.read_render_of_nil h hnil, ← Clauses.settled_withStar, Clauses.render_settled]
    refine ⟨hfirst, ?_⟩
    rw [hfirst, htidy.withStar.read_render_eq h.withStar Clauses.isFieldList_star,
      Clauses.render_settled]

/-- Fields in both comma styles, one with commas left at its end, further conditions and joined
expressions. -/
theorem text_parse_text_of_fields :
    let statement :=
      "select a,\n , b ,,\n\n  fromage\nWHERE\n x\n AND y\nGROUP BY g\n h".toList
    (parse statement).clauses.IsRegular ∧
      (parse statement).text =
        "SELECT\n  a,\n  b ,,\n  fromage\nWHERE \n  x\n  AND y\nGROUP BY g, h".toList ∧
      (parse (parse statement).text).text = (parse statement).text := by
  intro statement
  have hregular : (parse statement).clauses.IsRegular := by decide +kernel
  refine ⟨hregular, by decide +kernel, (text_parse_text_iff hregular).1.mpr ?_⟩
  decide +kernel

/-- The asterisk of a query without fields moves to a line of its own. -/
theorem text_parse_text_ne_of_no_fields :
    let statement := "FROM t".toList
    (parse statement).text = "SELECT *\nFROM t".toList ∧
      (parse (parse statement).text).text = "SELECT\n  *\nFROM t".toList ∧
      (parse (parse statement).text).text ≠ (parse statement).text := by
  intro statement
  have htext : (parse statement).text = "SELECT *\nFROM t".toList := by decide +kernel
  have hagain : (parse (parse statement).text).text = "SELECT\n  *\nFROM t".toList := by
    rw [htext]
    decide +kernel
  refine ⟨htext, hagain, ?_⟩
  rw [hagain, htext]
  decide

end Query

end SqlComposer
