import SqlComposer.Template.Read
import SqlComposer.Proofs.FieldPaths
import SqlComposer.Proofs.Logged

/-!
# Fields of format templates

Once a format template has been read, its segments are settled by its text, and its values by its
fields and the arguments: each field takes a value by itself, but for the numbering that the fields
before it have left. Reading fails with a failure that the library does not report as its own
exactly when the path of the first field without a value goes wrong.
-/

namespace SqlComposer

/-! ## Parts -/

namespace Format

/-- The fields among some parts, in order. -/
def fields : List Part → List Field
  | [] => []
  | .char _ :: parts => fields parts
  | .field f :: parts => f :: fields parts

/-- The text of some parts up to the first field, and the texts behind the fields. -/
def texts : List Part → Text × List Text
  | [] => ([], [])
  | .char c :: parts => (c :: (texts parts).1, (texts parts).2)
  | .field _ :: parts => ([], (texts parts).1 :: (texts parts).2)

/-- There is a text behind each field. -/
theorem length_texts (parts : List Part) : (texts parts).2.length = (fields parts).length := by
  induction parts with
  | nil => rfl
  | cons part parts ih => cases part <;> simp [texts, fields, ih]

end Format

/-! ## Numbering -/

namespace FieldState

/-- The state before the first field. -/
def initial : FieldState := ⟨none, 0⟩

/-- Whether a field asks for another numbering than the fields before it. -/
def Mixes (s : FieldState) (f : Format.Field) : Prop :=
  s.numbering.isSome = true ∧ (Numbering.ofName? f.name).isSome = true ∧
    Numbering.ofName? f.name ≠ s.numbering

instance (s : FieldState) (f : Format.Field) : Decidable (s.Mixes f) :=
  inferInstanceAs (Decidable (_ ∧ _ ∧ _))

/-- The name by which a field is looked up: one that is numbered automatically has the next number
before its own name. -/
def nameOf (s : FieldState) (f : Format.Field) : Text :=
  if Numbering.ofName? f.name = some .automatic then Text.ofNat s.next ++ f.name else f.name

/-- The state after a field. -/
def after (s : FieldState) (f : Format.Field) : FieldState :=
  ⟨(Numbering.ofName? f.name).or s.numbering,
    if Numbering.ofName? f.name = some .automatic then s.next + 1 else s.next⟩

end FieldState

namespace Template

/-! ## Values of fields -/

/-- A field takes the value that its name leads to, unless it is decorated or mixes numberings. -/
theorem fieldValue_eq (args : Arguments) (s : FieldState) (f : Format.Field) :
    fieldValue args s f =
      if f.isDecorated then .error (.template (.decorated f.name))
      else if s.Mixes f then .error (.template .mixedNumbering)
      else (·, s.after f) <$> FieldPath.lookup args (s.nameOf f) := rfl

/-- The values of fields, in order. -/
def fieldValues (args : Arguments) (s : FieldState) :
    List Format.Field → Except Failure (List Value)
  | [] => .ok []
  | f :: fields => do
    let (value, s) ← fieldValue args s f
    (value :: ·) <$> fieldValues args s fields

/-- The state that a field leaves does not depend on its value. -/
theorem fieldValue_eq_ok_iff {args : Arguments} {s s' : FieldState} {f : Format.Field}
    {value : Value} :
    fieldValue args s f = .ok (value, s') ↔
      f.isDecorated = false ∧ ¬ s.Mixes f ∧
        FieldPath.lookup args (s.nameOf f) = .ok value ∧ s' = s.after f := by
  rw [fieldValue_eq]
  split
  · next hdecorated =>
    refine iff_of_false nofun fun h => ?_
    rw [hdecorated] at h
    cases h.1
  · next hplain =>
    split
    · next hmixes => exact iff_of_false nofun fun h => h.2.1 hmixes
    · next hmixes =>
      rw [except_map_eq_ok_iff]
      constructor
      · rintro ⟨v, hlookup, heq⟩
        cases heq
        exact ⟨by simpa using hplain, hmixes, hlookup, rfl⟩
      · rintro ⟨-, -, hlookup, rfl⟩
        exact ⟨value, hlookup, rfl⟩

/-- A field fails for its path exactly when it is neither decorated nor mixes numberings, and the
path of its name goes wrong. -/
theorem fieldValue_eq_path_iff {args : Arguments} {s : FieldState} {f : Format.Field}
    {fault : PathFault} :
    fieldValue args s f = .error (.path fault) ↔
      f.isDecorated = false ∧ ¬ s.Mixes f ∧ FieldPath.GoesWrong args (s.nameOf f) fault := by
  rw [fieldValue_eq, ← FieldPath.lookup_eq_path_iff]
  split
  · next hdecorated => simp [hdecorated]
  · next hplain =>
    split
    · next hmixes => simp [hmixes]
    · next hmixes => simp [hplain, hmixes]

/-- Each field has one value. -/
theorem length_of_fieldValues {args : Arguments} {s : FieldState} {fields : List Format.Field}
    {values : List Value} (h : fieldValues args s fields = .ok values) :
    values.length = fields.length := by
  induction fields generalizing s values with
  | nil =>
    cases h
    rfl
  | cons f fields ih =>
    obtain ⟨_, -, hrest⟩ := except_bind_eq_ok_iff.mp h
    obtain ⟨values, hvalues, rfl⟩ := except_map_eq_ok_iff.mp hrest
    rw [List.length_cons, List.length_cons, ih hvalues]

/-- Fields fail where the first of them does that has no value, with its failure. -/
theorem fieldValues_eq_error_iff {args : Arguments} {s : FieldState} {fields : List Format.Field}
    {e : Failure} :
    fieldValues args s fields = .error e ↔
      ∃ earlier f later values, fields = earlier ++ f :: later ∧
        fieldValues args s earlier = .ok values ∧
        fieldValue args (earlier.foldl FieldState.after s) f = .error e := by
  induction fields generalizing s with
  | nil => simp [fieldValues]
  | cons first fields ih =>
    rw [fieldValues, except_bind_eq_error_iff]
    constructor
    · rintro (hfirst | ⟨⟨value, s'⟩, hfirst, hrest⟩)
      · exact ⟨[], first, fields, [], rfl, rfl, hfirst⟩
      · obtain ⟨-, -, -, rfl⟩ := fieldValue_eq_ok_iff.mp hfirst
        obtain ⟨earlier, f, later, values, rfl, hvalues, hf⟩ :=
          ih.mp (except_map_eq_error_iff.mp hrest)
        refine ⟨first :: earlier, f, later, value :: values, rfl, ?_, hf⟩
        rw [fieldValues, hfirst]
        exact except_map_eq_ok_iff.mpr ⟨values, hvalues, rfl⟩
    · rintro ⟨earlier, f, later, values, hfields, hvalues, hf⟩
      cases earlier with
      | nil =>
        cases hfields
        exact .inl hf
      | cons first' earlier =>
        cases hfields
        obtain ⟨⟨value, s'⟩, hfirst, hrest⟩ := except_bind_eq_ok_iff.mp hvalues
        obtain ⟨-, -, -, rfl⟩ := fieldValue_eq_ok_iff.mp hfirst
        obtain ⟨values, hvalues, -⟩ := except_map_eq_ok_iff.mp hrest
        refine .inr ⟨_, hfirst, except_map_eq_error_iff.mpr ?_⟩
        exact ih.mpr ⟨earlier, f, later, values, rfl, hvalues, hf⟩

/-! ## Templates -/

/-- Parts are filled with the values of their fields, and the texts stay as they are. -/
theorem fill_eq (args : Arguments) (s : FieldState) (parts : List Format.Part) :
    fill args s parts =
      (fun values => ((Format.texts parts).1,
        values.zipWith Gap.mk ((Format.texts parts).2.map .text))) <$>
          fieldValues args s (Format.fields parts) := by
  induction parts generalizing s with
  | nil => rfl
  | cons part parts ih =>
    cases part with
    | char c =>
      rw [fill, ih, Format.fields]
      cases fieldValues args s (Format.fields parts) <;> rfl
    | field f =>
      rw [fill, Format.fields, fieldValues]
      cases fieldValue args s f with
      | error e => rfl
      | ok read =>
        obtain ⟨value, s'⟩ := read
        have hrest := ih s'
        simp only [bind, Except.bind] at hrest ⊢
        rw [hrest]
        cases fieldValues args s' (Format.fields parts) <;> rfl

/-- What a format template makes of its parts: one more segment than there are values. -/
theorem ofFormat_eq {format : Text} {parts : List Format.Part}
    (h : Format.parts format = .ok parts) (args : Arguments) :
    ofFormat format args =
      (fun values => ⟨.text (Format.texts parts).1,
        values.zipWith Gap.mk ((Format.texts parts).2.map .text)⟩) <$>
          fieldValues args .initial (Format.fields parts) := by
  have hfill := fill_eq args .initial parts
  rw [FieldState.initial] at hfill
  rw [ofFormat, h]
  dsimp only
  rw [hfill, FieldState.initial]
  cases fieldValues args ⟨none, 0⟩ (Format.fields parts) <;> rfl

/-- Gaps are known by their values and the segments behind them. -/
theorem zipWith_gaps_eq_iff {values rest : List Value} {gaps : List Gap}
    (h : rest.length = values.length) :
    values.zipWith Gap.mk rest = gaps ↔
      gaps.map Gap.after = rest ∧ gaps.map Gap.value = values := by
  induction gaps generalizing values rest with
  | nil =>
    cases values with
    | nil => simp [List.length_eq_zero_iff.mp h]
    | cons value values =>
      obtain ⟨after, rest, rfl⟩ := List.exists_cons_of_length_eq_add_one h
      simp
  | cons gap gaps ih =>
    cases values with
    | nil => simp
    | cons value values =>
      obtain ⟨after, rest, rfl⟩ := List.exists_cons_of_length_eq_add_one h
      have hrest := @ih values rest (by simpa using h)
      simp only [List.zipWith_cons_cons, List.map_cons, List.cons.injEq, hrest]
      constructor
      · rintro ⟨rfl, hafter, hvalue⟩
        exact ⟨⟨rfl, hafter⟩, rfl, hvalue⟩
      · rintro ⟨⟨rfl, hafter⟩, rfl, hvalue⟩
        exact ⟨rfl, hafter, hvalue⟩

/-- There is a template with any segments and as many values but one. -/
theorem exists_of_segments_of_values (first : Value) {rest values : List Value}
    (h : rest.length = values.length) :
    ∃ t : Template, t.segments = first :: rest ∧ t.values = values := by
  obtain ⟨hafter, hvalue⟩ := (zipWith_gaps_eq_iff h).mp rfl
  exact ⟨⟨first, values.zipWith Gap.mk rest⟩, congrArg (first :: ·) hafter, hvalue⟩

/-- A format template gives the template whose segments are the texts between its fields and whose
values are those of its fields. -/
theorem ofFormat_eq_ok_iff {format : Text} {args : Arguments} {t : Template} :
    ofFormat format args = .ok t ↔ ∃ parts, Format.parts format = .ok parts ∧
      t.segments = ((Format.texts parts).1 :: (Format.texts parts).2).map .text ∧
      fieldValues args .initial (Format.fields parts) = .ok t.values := by
  cases hparts : Format.parts format with
  | error _ =>
    rw [ofFormat, hparts]
    simp
  | ok parts =>
    rw [ofFormat_eq hparts, except_map_eq_ok_iff]
    simp only [Except.ok.injEq, exists_eq_left']
    have hlength : ∀ {values}, fieldValues args .initial (Format.fields parts) = .ok values →
        ((Format.texts parts).2.map Value.text).length = values.length := by
      intro values hvalues
      rw [List.length_map, Format.length_texts, length_of_fieldValues hvalues]
    -- Gaps are put together from values and texts, and taken apart where there are as many of both.
    obtain ⟨first, gaps⟩ := t
    simp only [Template.mk.injEq, Template.segments, Template.values, List.map_cons,
      List.cons.injEq]
    constructor
    · rintro ⟨values, hvalues, rfl, hgaps⟩
      obtain ⟨hafter, rfl⟩ := (zipWith_gaps_eq_iff (hlength hvalues)).mp hgaps
      exact ⟨⟨rfl, hafter⟩, hvalues⟩
    · rintro ⟨⟨rfl, hafter⟩, hvalues⟩
      exact ⟨_, hvalues, rfl, (zipWith_gaps_eq_iff (hlength hvalues)).mpr ⟨hafter, rfl⟩⟩

/-! ## Failures -/

/-- Reading a format template stops at the path of a field: the template is well formed, the fields
before have values, and the path of this one goes wrong. -/
def StopsAtPath (format : Text) (args : Arguments) (fault : PathFault) : Prop :=
  ∃ parts earlier f later values,
    Format.parts format = .ok parts ∧ Format.fields parts = earlier ++ f :: later ∧
      fieldValues args .initial earlier = .ok values ∧ f.isDecorated = false ∧
      ¬ (earlier.foldl FieldState.after .initial).Mixes f ∧
      FieldPath.GoesWrong args ((earlier.foldl FieldState.after .initial).nameOf f) fault

/-- A field fails with a failure of templates, or for its path. -/
theorem exists_template_or_path_of_fieldValue {args : Arguments} {s : FieldState}
    {f : Format.Field} {e : Failure} (h : fieldValue args s f = .error e) :
    (∃ e', e = .template e') ∨ ∃ fault, e = .path fault := by
  rw [fieldValue_eq] at h
  split at h
  · cases h
    exact .inl ⟨_, rfl⟩
  split at h
  · cases h
    exact .inl ⟨_, rfl⟩
  have hlookup := except_map_eq_error_iff.mp h
  unfold FieldPath.lookup at hlookup
  dsimp only at hlookup
  split at hlookup
  · cases hlookup
    exact .inr ⟨_, rfl⟩
  · split at hlookup <;> cases hlookup
    · exact .inl ⟨_, rfl⟩
    · exact .inr ⟨_, rfl⟩

/-- A format template fails for a path exactly where it stops at one. -/
theorem ofFormat_eq_path_iff {format : Text} {args : Arguments} {fault : PathFault} :
    ofFormat format args = .error (.path fault) ↔ StopsAtPath format args fault := by
  unfold StopsAtPath
  cases hparts : Format.parts format with
  | error _ =>
    rw [ofFormat, hparts]
    simp
  | ok parts =>
    rw [ofFormat_eq hparts, except_map_eq_error_iff, fieldValues_eq_error_iff]
    simp only [fieldValue_eq_path_iff, Except.ok.injEq]
    constructor
    · rintro ⟨earlier, f, later, values, hfields, hvalues, hpath⟩
      exact ⟨parts, earlier, f, later, values, rfl, hfields, hvalues, hpath⟩
    · rintro ⟨_, earlier, f, later, values, rfl, hfields, hvalues, hpath⟩
      exact ⟨earlier, f, later, values, hfields, hvalues, hpath⟩

/-- A format template fails with a failure of templates, or for a path. -/
theorem exists_template_or_path_of_ofFormat {format : Text} {args : Arguments} {e : Failure}
    (h : ofFormat format args = .error e) :
    (∃ e', e = .template e') ∨ ∃ fault, e = .path fault := by
  cases hparts : Format.parts format with
  | error _ =>
    rw [ofFormat, hparts] at h
    cases h
    exact .inl ⟨_, rfl⟩
  | ok parts =>
    rw [ofFormat_eq hparts, except_map_eq_error_iff, fieldValues_eq_error_iff] at h
    obtain ⟨_, _, _, _, _, _, hf⟩ := h
    exact exists_template_or_path_of_fieldValue hf

/-- A format template gives a template or fails with a failure of templates, the library's own,
unless it stops at a path; and it does stop at one exactly when the fields before have values and
the path of the next one goes wrong. This is so whatever else the arguments know of parts of
values. -/
theorem exists_ofFormat_iff (format : Text) (args : Arguments) :
    ((∃ t, ofFormat format args = .ok t) ∨ (∃ e, ofFormat format args = .error (.template e)) ↔
      ∀ fault, ¬ StopsAtPath format args fault) ∧
    ∀ fault, ofFormat format args = .error (.path fault) ↔ StopsAtPath format args fault := by
  refine ⟨?_, fun fault => ofFormat_eq_path_iff⟩
  simp only [← ofFormat_eq_path_iff]
  cases hread : ofFormat format args with
  | ok t => simp
  | error e =>
    rcases exists_template_or_path_of_ofFormat hread with ⟨e', rfl⟩ | ⟨fault, rfl⟩ <;> simp

/-- A number that is one too large for an index does not fail as templates do, though the number
before it does; nor does a dot without a name, whatever kind of value it stands behind, or text
behind a bracket. -/
theorem ofFormat_path_of_large_number :
    ofFormat "SELECT \x7b9223372036854775807\x7d".toList {} =
        .error (.template (.noValue "9223372036854775807".toList)) ∧
      ofFormat "SELECT \x7b9223372036854775808\x7d".toList {} =
        .error (.path .indexTooLarge) ∧
      ofFormat "\x7b0.\x7d".toList { positional := [.null] } = .error (.path .emptyName) ∧
      ofFormat "\x7b0.real.\x7d".toList { positional := [.int 5] } = .error (.path .emptyName) ∧
      ofFormat "\x7b0.upper.\x7d".toList
          { positional := [.text ['a']], further := fun _ _ => some (.record []) } =
        .error (.path .emptyName) ∧
      ofFormat "\x7b0[0]x\x7d".toList { positional := [.list [.null]] } =
        .error (.path .textAfterItem) ∧
      ¬ ∀ (format : Text) (args : Arguments), (∃ t, ofFormat format args = .ok t) ∨
        ∃ e, ofFormat format args = .error (.template e) := by
  have hlarge : ofFormat "SELECT \x7b9223372036854775808\x7d".toList {} =
      .error (.path .indexTooLarge) := by with_unfolding_all rfl
  refine ⟨by with_unfolding_all rfl, hlarge, by with_unfolding_all rfl, by with_unfolding_all rfl,
    by with_unfolding_all rfl, by with_unfolding_all rfl, fun h => ?_⟩
  rcases h "SELECT \x7b9223372036854775808\x7d".toList {} with ⟨t, ht⟩ | ⟨e, he⟩
  · rw [hlarge] at ht
    cases ht
  · rw [hlarge] at he
    cases he

end Template

end SqlComposer
