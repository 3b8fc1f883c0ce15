import SqlComposer.Proofs.TemplateFields

/-!
# How fields are numbered

A field without a name before its path is numbered automatically, and one whose name begins with a
digit by hand; both never stand in one template, however many named fields are between them. So the
values of a template are settled field by field: the field that is numbered automatically after so
many others takes the argument in that place, and any other field what its own name leads to.
-/

namespace SqlComposer

namespace Format

namespace Field

/-- Whether a field is numbered automatically: it has no name, or a path only. -/
def isAutomatic (f : Field) : Bool :=
  f.name.head?.all FieldPath.beginsStep

/-- Whether a field is numbered by hand: its name begins with a digit. -/
def isManual (f : Field) : Bool :=
  f.name.head?.any Text.isDigitLike

/-- What a field takes when so many fields before it are numbered automatically. If it is one of
them itself, it takes what its path leads to from the argument in this place, which must fit into an
index; otherwise it takes what its name leads to. -/
def Takes (args : Arguments) (n : ℕ) (f : Field) (value : Value) : Prop :=
  if f.isAutomatic then
    n ≤ FieldPath.indexLimit ∧ ∃ arg steps, args.positional[n]? = some arg ∧
      FieldPath.steps f.name = (steps, none) ∧ args.follow? arg steps = some value
  else FieldPath.lookup args f.name = .ok value

/-- The numbering that a field asks for. -/
theorem ofName?_name (f : Field) :
    Numbering.ofName? f.name =
      if f.isAutomatic then some .automatic else if f.isManual then some .manual else none := by
  unfold isAutomatic isManual
  cases f.name <;> rfl

/-- A field asks to be numbered automatically exactly when it is an automatic one. -/
theorem ofName?_eq_automatic_iff {f : Field} :
    Numbering.ofName? f.name = some .automatic ↔ f.isAutomatic = true := by
  rw [ofName?_name]
  split_ifs with hautomatic <;> simp [hautomatic]

/-- No digit begins a step, so a field is not numbered in both ways. -/
theorem isAutomatic_of_isManual {f : Field} (h : f.isManual = true) : f.isAutomatic = false := by
  unfold isManual at h
  unfold isAutomatic
  cases hname : f.name with
  | nil => simp [hname] at h
  | cons c rest =>
    simp only [hname, List.head?_cons, Option.any_some] at h
    simp only [List.head?_cons, Option.all_some]
    by_contra hstep
    simp only [FieldPath.beginsStep, Bool.not_eq_false, Bool.or_eq_true, beq_iff_eq] at hstep
    rcases hstep with rfl | rfl <;> exact absurd h (by decide)

end Field

/-- What fields take when so many fields before them are numbered automatically: one value each, in
their order. -/
structure TakeAll (args : Arguments) (n : ℕ) (fields : List Field) (values : List Value) :
    Prop where
  /-- There are as many values as fields. -/
  length_eq : values.length = fields.length
  /-- The value of each field, which depends on how many before it are numbered automatically. -/
  takes : ∀ (i : ℕ) (f : Field) (value : Value), fields[i]? = some f → values[i]? = some value →
    f.Takes args (n + (fields.take i).countP Field.isAutomatic) value

variable {args : Arguments} {n : ℕ} {fields : List Field} {values : List Value}

/-- No fields take no values. -/
theorem TakeAll.nil : TakeAll args n [] [] :=
  ⟨rfl, nofun⟩

/-- The number grows by one behind a field that is numbered automatically. -/
theorem takeAll_cons_iff {f : Field} {value : Value} :
    TakeAll args n (f :: fields) (value :: values) ↔
      f.Takes args n value ∧ TakeAll args (if f.isAutomatic then n + 1 else n) fields values := by
  have hcount : ∀ i, n + ((f :: fields).take (i + 1)).countP Field.isAutomatic =
      (if f.isAutomatic then n + 1 else n) + (fields.take i).countP Field.isAutomatic := by
    intro i
    rw [List.take_succ_cons, List.countP_cons]
    split_ifs <;> omega
  constructor
  · intro h
    refine ⟨by simpa using h.takes 0 f value rfl rfl, by simpa using h.length_eq, ?_⟩
    intro i g w hg hw
    rw [← hcount]
    exact h.takes (i + 1) g w hg hw
  · rintro ⟨hfirst, hrest⟩
    refine ⟨by simpa using hrest.length_eq, ?_⟩
    rintro (_ | i) g w hg hw
    · cases hg
      cases hw
      simpa using hfirst
    · rw [hcount]
      exact hrest.takes i g w hg hw

/-- Each field that is numbered automatically takes an argument of its own. -/
theorem TakeAll.le_length (h : TakeAll args n fields values) (hn : n ≤ args.positional.length) :
    n + fields.countP Field.isAutomatic ≤ args.positional.length := by
  induction fields generalizing n values with
  | nil => simpa using hn
  | cons f fields ih =>
    obtain ⟨value, values, rfl⟩ := List.exists_cons_of_length_eq_add_one h.length_eq
    obtain ⟨hfirst, hrest⟩ := takeAll_cons_iff.mp h
    rw [List.countP_cons]
    by_cases hautomatic : f.isAutomatic = true
    · rw [Field.Takes, if_pos hautomatic] at hfirst
      obtain ⟨-, arg, -, harg, -⟩ := hfirst
      have hlt : n < args.positional.length := (List.getElem?_eq_some_iff.mp harg).1
      rw [if_pos hautomatic] at hrest ⊢
      have := ih hrest hlt
      omega
    · rw [if_neg hautomatic] at hrest ⊢
      exact ih hrest hn

end Format

/-! ## One numbering -/

namespace FieldState

/-- The fields before and some more go together in one numbering. -/
def Agrees (s : FieldState) (fields : List Format.Field) : Prop :=
  ∃ style, (∀ other ∈ s.numbering, other = style) ∧
    ∀ f ∈ fields, ∀ other ∈ Numbering.ofName? f.name, other = style

variable {s : FieldState} {f : Format.Field} {fields : List Format.Field}

/-- Fields go together when the first one does not mix numberings, and the others go together with
what is before them then. -/
theorem agrees_cons_iff :
    s.Agrees (f :: fields) ↔ ¬ s.Mixes f ∧ (s.after f).Agrees fields := by
  simp only [Agrees, Mixes, after, List.forall_mem_cons]
  cases Numbering.ofName? f.name with
  | none => simp
  | some asked =>
    cases s.numbering with
    | none => simp
    | some other =>
      simp only [Option.mem_some_iff, forall_eq', Option.isSome_some, ne_eq, Option.some.injEq,
        true_and, Decidable.not_not, Option.or_some]
      constructor
      · rintro ⟨style, rfl, rfl, hrest⟩
        exact ⟨rfl, _, rfl, hrest⟩
      · rintro ⟨rfl, style, rfl, hrest⟩
        exact ⟨_, rfl, rfl, hrest⟩

/-- Fields alone go together when they are not numbered in both ways. -/
theorem initial_agrees_iff :
    initial.Agrees fields ↔
      ¬ ((∃ f ∈ fields, f.isAutomatic = true) ∧ ∃ f ∈ fields, f.isManual = true) := by
  have hasked : ∀ style, (∀ f ∈ fields, ∀ other ∈ Numbering.ofName? f.name, other = style) ↔
      ∀ f ∈ fields, if style = .automatic then f.isManual = false else f.isAutomatic = false := by
    intro style
    refine forall₂_congr fun f _ => ?_
    rw [Format.Field.ofName?_name]
    cases hmanual : f.isManual with
    | true =>
      rw [Format.Field.isAutomatic_of_isManual hmanual]
      cases style <;> simp
    | false => cases hautomatic : f.isAutomatic <;> cases style <;> simp
  simp only [Agrees, initial, Option.not_mem_none, false_implies, implies_true, true_and, hasked]
  constructor
  · rintro ⟨style, hstyle⟩ ⟨⟨f, hf, hautomatic⟩, g, hg, hmanual⟩
    have hf := hstyle f hf
    have hg := hstyle g hg
    cases style <;> simp_all
  · intro hnot
    by_cases hmanual : ∃ f ∈ fields, f.isManual = true
    · refine ⟨.manual, fun f hf => ?_⟩
      have hf : f.isAutomatic ≠ true := fun hautomatic => hnot ⟨⟨f, hf, hautomatic⟩, hmanual⟩
      simpa using hf
    · refine ⟨.automatic, fun f hf => ?_⟩
      have hf : f.isManual ≠ true := fun h => hmanual ⟨f, hf, h⟩
      simpa using hf

end FieldState

namespace Template

/-- A field is looked up by its number and its path, or by its name. -/
theorem lookup_nameOf_eq_ok_iff {args : Arguments} {s : FieldState} {f : Format.Field}
    {value : Value} :
    FieldPath.lookup args (s.nameOf f) = .ok value ↔ f.Takes args s.next value := by
  unfold FieldState.nameOf Format.Field.Takes
  simp only [Format.Field.ofName?_eq_automatic_iff]
  split_ifs with hautomatic
  · refine FieldPath.lookup_ofNat_append_eq_ok_iff fun c hc => ?_
    rw [Format.Field.isAutomatic, Option.mem_def.mp hc] at hautomatic
    exact hautomatic
  · rfl

/-- Fields have values exactly when none is decorated, all go together in one numbering and each
takes a value. -/
theorem fieldValues_eq_ok_iff {args : Arguments} {s : FieldState} {fields : List Format.Field}
    {values : List Value} :
    fieldValues args s fields = .ok values ↔
      (∀ f ∈ fields, f.isDecorated = false) ∧ s.Agrees fields ∧
        Format.TakeAll args s.next fields values := by
  induction fields generalizing s values with
  | nil =>
    have hagrees : s.Agrees [] := by
      refine ⟨s.numbering.getD .automatic, fun other hother => ?_, List.forall_mem_nil _⟩
      rw [Option.mem_def.mp hother]
      rfl
    rw [fieldValues]
    constructor
    · rintro ⟨⟩
      exact ⟨List.forall_mem_nil _, hagrees, .nil⟩
    · rintro ⟨-, -, htakes⟩
      rw [List.length_eq_zero_iff.mp htakes.length_eq]
  | cons f fields ih =>
    have hnext : (s.after f).next = if f.isAutomatic then s.next + 1 else s.next := by
      simp only [FieldState.after, Format.Field.ofName?_eq_automatic_iff]
    rw [fieldValues, except_bind_eq_ok_iff, List.forall_mem_cons, FieldState.agrees_cons_iff]
    constructor
    · rintro ⟨⟨value, s'⟩, hfirst, hrest⟩
      obtain ⟨hplain, hmixes, hlookup, rfl⟩ := fieldValue_eq_ok_iff.mp hfirst
      obtain ⟨rest, hvalues, rfl⟩ := except_map_eq_ok_iff.mp hrest
      obtain ⟨hplains, hagrees, htakes⟩ := ih.mp hvalues
      rw [hnext] at htakes
      exact ⟨⟨hplain, hplains⟩, ⟨hmixes, hagrees⟩,
        Format.takeAll_cons_iff.mpr ⟨lookup_nameOf_eq_ok_iff.mp hlookup, htakes⟩⟩
    · rintro ⟨⟨hplain, hplains⟩, ⟨hmixes, hagrees⟩, htakes⟩
      obtain ⟨value, rest, rfl⟩ := List.exists_cons_of_length_eq_add_one htakes.length_eq
      obtain ⟨hfirst, hrest⟩ := Format.takeAll_cons_iff.mp htakes
      rw [← hnext] at hrest
      exact ⟨(value, s.after f),
        fieldValue_eq_ok_iff.mpr ⟨hplain, hmixes, lookup_nameOf_eq_ok_iff.mpr hfirst, rfl⟩,
        except_map_eq_ok_iff.mpr ⟨rest, ih.mpr ⟨hplains, hagrees, hrest⟩, rfl⟩⟩

/-- A format template gives a template exactly when it is well formed, no field is decorated, its
fields are not numbered in both ways and each takes a value. The segments are the texts between the
fields. -/
theorem ofFormat_eq_ok_iff_takeAll {format : Text} {args : Arguments} {t : Template} :
    ofFormat format args = .ok t ↔ ∃ parts, Format.parts format = .ok parts ∧
      t.segments = ((Format.texts parts).1 :: (Format.texts parts).2).map .text ∧
      (∀ f ∈ Format.fields parts, f.isDecorated = false) ∧
      ¬ ((∃ f ∈ Format.fields parts, f.isAutomatic = true) ∧
        ∃ f ∈ Format.fields parts, f.isManual = true) ∧
      Format.TakeAll args 0 (Format.fields parts) t.values := by
  simp only [ofFormat_eq_ok_iff, fieldValues_eq_ok_iff, FieldState.initial_agrees_iff]
  rfl

/-- When a format template gives a template, its fields are not numbered both automatically and by
hand. There are no more fields numbered automatically than arguments: each of them takes what its
path leads to from the argument whose place is the number of those before it. The values are those
of the fields in their order, one for each, and there is one more segment than values. -/
theorem numbering_of_ofFormat {format : Text} {args : Arguments} {t : Template}
    (h : ofFormat format args = .ok t) :
    ∃ parts, Format.parts format = .ok parts ∧
      ¬ ((∃ f ∈ Format.fields parts, f.isAutomatic = true) ∧
        ∃ f ∈ Format.fields parts, f.isManual = true) ∧
      (Format.fields parts).countP Format.Field.isAutomatic ≤ args.positional.length ∧
      t.values.length = (Format.fields parts).length ∧
      t.segments.length = t.values.length + 1 ∧
      ∀ (i : ℕ) (f : Format.Field) (value : Value), (Format.fields parts)[i]? = some f →
        t.values[i]? = some value →
        if f.isAutomatic then
          ∃ arg steps,
            args.positional[((Format.fields parts).take i).countP Format.Field.isAutomatic]? =
              some arg ∧
            FieldPath.steps f.name = (steps, none) ∧ args.follow? arg steps = some value
        else FieldPath.lookup args f.name = .ok value := by
  obtain ⟨parts, hparts, -, -, hnumbering, htakes⟩ := ofFormat_eq_ok_iff_takeAll.mp h
  have hcount := htakes.le_length (Nat.zero_le _)
  rw [Nat.zero_add] at hcount
  have hsegments : t.segments.length = t.values.length + 1 := by
    simp [Template.segments, Template.values]
  refine ⟨parts, hparts, hnumbering, hcount, htakes.length_eq, hsegments, ?_⟩
  intro i f value hf hvalue
  have htake := htakes.takes i f value hf hvalue
  rw [Nat.zero_add, Format.Field.Takes] at htake
  split_ifs at htake ⊢
  · exact htake.2
  · exact htake

/-- The third field that is numbered automatically stands behind a named one, and its item is that
of the third argument. The second one takes a function of a text, which only the arguments know. -/
theorem numbering_of_ofFormat_named :
    let format := "\x7b\x7d \x7bname.id\x7d \x7b.upper\x7d \x7b[1]\x7d".toList
    let upper : Value → Step → Option Value
      | .text _, .attribute name => if name = "upper".toList then some (.record []) else none
      | _, _ => none
    let args : Arguments :=
      ⟨[.int 1, .text ['a'], .list [.int 8, .null]],
        [("name".toList, .record [("id".toList, .int 7)])], upper⟩
    let fields : List Format.Field :=
      ["", "name.id", ".upper", "[1]"].map fun name => ⟨name.toList, none, []⟩
    ∃ t parts, ofFormat format args = .ok t ∧ Format.parts format = .ok parts ∧
      Format.fields parts = fields ∧ t.values = [.int 1, .int 7, .record [], .null] ∧
      ¬ ((∃ f ∈ fields, f.isAutomatic = true) ∧ ∃ f ∈ fields, f.isManual = true) ∧
      fields.countP Format.Field.isAutomatic ≤ 3 ∧ t.segments.length = 5 ∧
      (fields.take 3).countP Format.Field.isAutomatic = 2 ∧
      ∃ arg steps, args.positional[2]? = some arg ∧
        FieldPath.steps "[1]".toList = (steps, none) ∧ args.follow? arg steps = some .null := by
  intro format upper args fields
  let blank : Value := .text [' ']
  let t : Template :=
    ⟨.text [], [⟨.int 1, blank⟩, ⟨.int 7, blank⟩, ⟨.record [], blank⟩, ⟨.null, .text []⟩]⟩
  have hread : ofFormat format args = .ok t := by with_unfolding_all rfl
  obtain ⟨parts, hparts, hnumbering, hcount, -, hsegments, htakes⟩ := numbering_of_ofFormat hread
  have hfields : Format.fields parts = fields := by
    have hread : Format.fields <$> Format.parts format = .ok fields := by with_unfolding_all rfl
    rw [hparts] at hread
    exact Except.ok.inj hread
  rw [hfields] at hnumbering hcount htakes
  exact ⟨t, parts, hread, hparts, hfields, rfl, hnumbering, hcount, hsegments, rfl,
    htakes 3 _ _ rfl rfl⟩

end Template

end SqlComposer
