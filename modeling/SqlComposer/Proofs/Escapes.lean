import SqlComposer.Proofs.TemplateFields

/-!
# Escaped texts

Any text stands in a format template when its braces are doubled, also right beside a field. So
segments and values make the template that has them: the escaped segments are joined by fields
without a name, or by fields with the numbers of the values, and the values are the arguments.
-/

namespace SqlComposer

/-! ## Numbered fields -/

namespace Numbering

/-- The name of the field that takes the value with a number. -/
def fieldName : Numbering → ℕ → Text
  | automatic, _ => []
  | manual, n => Text.ofNat n

/-- The name of a field asks for the numbering it belongs to. -/
theorem ofName?_fieldName (style : Numbering) (n : ℕ) :
    ofName? (style.fieldName n) = some style := by
  cases style with
  | automatic => rfl
  | manual =>
    rw [fieldName]
    cases hname : Text.ofNat n with
    | nil => exact absurd hname Nat.toDigits_ne_nil
    | cons c t =>
      have hdigit : c.isDigit = true := Text.isDigit_of_mem_ofNat (hname ▸ List.mem_cons_self)
      rw [ofName?, FieldPath.beginsStep_of_isDigit hdigit, Text.isDigitLike,
        Text.isDecimal_of_isDigit hdigit]
      rfl

end Numbering

namespace Format

/-! ## Escaping -/

/-- A text with its braces doubled. -/
def escaped (t : Text) : Text :=
  t.flatMap fun c => if c = '\x7b' ∨ c = '\x7d' then [c, c] else [c]

/-- Whether a character stands for itself in the name of a field. -/
def isPlain (c : Char) : Bool :=
  c != '\x7b' && c != '\x7d' && c != ':' && c != '!' && c != '['

/-- Digits stand for themselves. -/
theorem isPlain_of_isDigit {c : Char} (h : c.isDigit = true) : isPlain c = true := by
  simp only [isPlain, Bool.and_eq_true, bne_iff_ne, ne_eq]
  refine ⟨⟨⟨⟨?_, ?_⟩, ?_⟩, ?_⟩, ?_⟩ <;> rintro rfl <;> exact absurd h (by decide)

/-- A field with nothing but a name. -/
def Field.ofName (name : Text) : Field :=
  ⟨name, none, []⟩

/-- A field with nothing but a plain name, and the text behind it. -/
structure Slot where
  name : Text
  after : Text
  plain : ∀ c ∈ name, isPlain c = true

namespace Slot

/-- A slot in a format template. -/
def text (slot : Slot) : Text :=
  '\x7b' :: slot.name ++ '\x7d' :: escaped slot.after

/-- The field of a slot. -/
def field (slot : Slot) : Field :=
  .ofName slot.name

/-- The parts that a slot is read as. -/
def parts (slot : Slot) : List Part :=
  .field slot.field :: slot.after.map .char

/-- The slot for the value with a number. -/
def numbered (style : Numbering) (n : ℕ) (after : Text) : Slot where
  name := style.fieldName n
  after := after
  plain c hc := by
    cases style with
    | automatic => cases hc
    | manual => exact isPlain_of_isDigit (Text.isDigit_of_mem_ofNat hc)

end Slot

/-- A text and slots as a format template. -/
def ofSlots (first : Text) (slots : List Slot) : Text :=
  escaped first ++ slots.flatMap Slot.text

/-! ## Reading escaped texts -/

/-- Escaped text is read as the text. -/
theorem parts_escaped_append (t rest : Text) :
    parts (escaped t ++ rest) = (t.map .char ++ ·) <$> parts rest := by
  induction t with
  | nil => exact (id_map _).symm
  | cons c t ih =>
    have hprepend : (Part.char c :: ·) <$> parts (escaped t ++ rest) =
        ((c :: t).map .char ++ ·) <$> parts rest := by
      rw [ih]
      cases parts rest <;> rfl
    rw [← hprepend]
    by_cases hopen : c = '\x7b'
    · subst hopen
      have hcons : escaped ('\x7b' :: t) = '\x7b' :: '\x7b' :: escaped t := rfl
      rw [hcons, List.cons_append, List.cons_append, parts]
    by_cases hclose : c = '\x7d'
    · subst hclose
      have hcons : escaped ('\x7d' :: t) = '\x7d' :: '\x7d' :: escaped t := rfl
      rw [hcons, List.cons_append, List.cons_append, parts]
    · have hcons : escaped (c :: t) = c :: escaped t := by simp [escaped, hopen, hclose]
      rw [hcons, List.cons_append, parts]
      all_goals simp [hopen, hclose]

/-- The name of a field is read up to the brace behind it. -/
theorem readField_append {name : Text} (h : ∀ c ∈ name, isPlain c = true) (rest : Text) :
    readField (name ++ '\x7d' :: rest) = .ok (.ofName name, rest) := by
  have hname : readName false (name ++ '\x7d' :: rest) = .ok (name, '\x7d' :: rest) := by
    induction name with
    | nil => rfl
    | cons c name ih =>
      obtain ⟨hc, hname⟩ := List.forall_mem_cons.mp h
      simp only [isPlain, Bool.and_eq_true, bne_iff_ne, ne_eq] at hc
      obtain ⟨⟨⟨⟨hopen, hclose⟩, hcolon⟩, hbang⟩, hbracket⟩ := hc
      rw [List.cons_append, readName, if_neg Bool.false_ne_true, if_neg hopen,
        if_neg (by simp [hclose, hcolon, hbang]), beq_false_of_ne hbracket, ih hname]
      rfl
  rw [readField, hname]
  rfl

/-- A field is read before the rest. -/
theorem parts_of_readField {t rest : Text} {f : Field} (h : readField t = .ok (f, rest)) :
    parts ('\x7b' :: t) = (.field f :: ·) <$> parts rest := by
  -- The brace is neither doubled nor the last character, since a field is read behind it.
  have hbrace : ∀ t', t ≠ '\x7b' :: t' := by
    rintro t' rfl
    cases h
  have hne : t ≠ [] := by
    rintro rfl
    cases h
  rw [parts.eq_6 t hbrace hne]
  split
  · next e herror =>
    rw [h] at herror
    cases herror
  · next f' rest' hread =>
    rw [h] at hread
    cases hread
    rfl

/-- A slot is read before the rest. -/
theorem parts_slot_append (slot : Slot) (rest : Text) :
    parts (slot.text ++ rest) = (slot.parts ++ ·) <$> parts rest := by
  have htext : slot.text ++ rest =
      '\x7b' :: (slot.name ++ '\x7d' :: (escaped slot.after ++ rest)) := by simp [Slot.text]
  rw [htext, parts_of_readField (readField_append slot.plain _), parts_escaped_append]
  cases parts rest <;> rfl

/-- A text and slots are read as what they are. -/
theorem parts_ofSlots (first : Text) (slots : List Slot) :
    parts (ofSlots first slots) = .ok (first.map .char ++ slots.flatMap Slot.parts) := by
  have hslots : parts (slots.flatMap Slot.text) = .ok (slots.flatMap Slot.parts) := by
    induction slots with
    | nil => rw [List.flatMap_nil, List.flatMap_nil, parts]
    | cons slot slots ih =>
      rw [List.flatMap_cons, parts_slot_append, ih]
      rfl
  rw [ofSlots, parts_escaped_append, hslots]
  rfl

/-! ## Texts and fields of slots -/

/-- Characters before parts come first in the first text of the parts. -/
theorem texts_append (first : Text) (parts : List Part) :
    texts (first.map .char ++ parts) = (first ++ (texts parts).1, (texts parts).2) := by
  induction first with
  | nil => rfl
  | cons c first ih =>
    rw [List.map_cons, List.cons_append, texts, ih]
    rfl

/-- Characters before parts add no fields. -/
theorem fields_append (first : Text) (parts : List Part) :
    fields (first.map .char ++ parts) = fields parts := by
  induction first with
  | nil => rfl
  | cons c first ih => exact ih

/-- The characters between the fields come together as the texts behind them. -/
theorem texts_slots (slots : List Slot) :
    texts (slots.flatMap Slot.parts) = ([], slots.map Slot.after) := by
  induction slots with
  | nil => rfl
  | cons slot slots ih =>
    rw [List.flatMap_cons, Slot.parts, List.cons_append, texts, texts_append, ih, List.append_nil]
    rfl

/-- The fields of slots, written one after the other, are those of each slot. -/
theorem fields_slots (slots : List Slot) :
    fields (slots.flatMap Slot.parts) = slots.map Slot.field := by
  induction slots with
  | nil => rfl
  | cons slot slots ih =>
    rw [List.flatMap_cons, Slot.parts, List.cons_append, fields, fields_append, ih]
    rfl

/-- The texts behind numbered slots are those that the slots are made with. -/
theorem afters_numbered (style : Numbering) (rest : List Text) :
    (rest.mapIdx (Slot.numbered style)).map Slot.after = rest :=
  List.ext_getElem (by simp) (by simp [Slot.numbered])

/-- Slots in a numbering have the fields of the values that are numbered so. -/
theorem fields_numbered (style : Numbering) {rest : List Text} {values : List Value}
    (h : rest.length = values.length) :
    (rest.mapIdx (Slot.numbered style)).map Slot.field =
      values.mapIdx fun n _ => .ofName (style.fieldName n) :=
  List.ext_getElem (by simpa using h) (by simp [Slot.numbered, Slot.field])

/-- Slots that are numbered automatically stand as two braces between the texts. -/
theorem ofSlots_automatic (first : Text) (rest : List Text) :
    ofSlots first (rest.mapIdx (Slot.numbered .automatic)) =
      "\x7b\x7d".toList.intercalate ((first :: rest).map escaped) := by
  induction rest generalizing first with
  | nil => simp [ofSlots]
  | cons next rest ih =>
    calc ofSlots first ((next :: rest).mapIdx (Slot.numbered .automatic))
        = escaped first ++ "\x7b\x7d".toList ++
            ofSlots next (rest.mapIdx (Slot.numbered .automatic)) := by
          rw [List.mapIdx_cons, ofSlots, ofSlots, List.flatMap_cons, List.append_assoc]
          rfl
      _ = escaped first ++ "\x7b\x7d".toList ++
            "\x7b\x7d".toList.intercalate ((next :: rest).map escaped) := by rw [ih]
      _ = _ := List.intercalate_cons_cons.symm

end Format

namespace Template

/-- What a text and slots give as a format template. -/
theorem ofFormat_ofSlots_eq_ok_iff {first : Text} {slots : List Format.Slot} {args : Arguments}
    {t : Template} :
    ofFormat (Format.ofSlots first slots) args = .ok t ↔
      t.segments = (first :: slots.map Format.Slot.after).map .text ∧
        fieldValues args .initial (slots.map Format.Slot.field) = .ok t.values := by
  rw [ofFormat_eq_ok_iff, Format.parts_ofSlots]
  simp only [Except.ok.injEq, exists_eq_left', Format.texts_append, Format.fields_append,
    Format.texts_slots, Format.fields_slots, List.append_nil]

end Template

/-! ## Numbered values -/

namespace FieldState

/-- The fields so far have the values up to a number, in one numbering. -/
def Continues (s : FieldState) (style : Numbering) (n : ℕ) : Prop :=
  (∀ other ∈ s.numbering, other = style) ∧ (style = .automatic → s.next = n)

/-- Before any field, numbering continues from zero in either style. -/
theorem initial_continues (style : Numbering) : initial.Continues style 0 :=
  ⟨nofun, fun _ => rfl⟩

variable {s : FieldState} {style : Numbering} {n : ℕ}

/-- After the field with the next number, the fields so far have the values up to this one. -/
theorem Continues.after (h : s.Continues style n) :
    (s.after (.ofName (style.fieldName n))).Continues style (n + 1) := by
  have hasked : Numbering.ofName? (Format.Field.ofName (style.fieldName n)).name = some style :=
    style.ofName?_fieldName n
  rw [FieldState.after, hasked]
  refine ⟨fun other hother => (Option.some.inj hother).symm, ?_⟩
  rintro rfl
  rw [if_pos rfl, h.2 rfl]

/-- Fields that continue a numbering do not mix it with the other one. -/
theorem Continues.not_mixes (h : s.Continues style n) :
    ¬ s.Mixes (.ofName (style.fieldName n)) := by
  rintro ⟨hsome, -, hother⟩
  obtain ⟨other, hnumbering⟩ := Option.isSome_iff_exists.mp hsome
  rw [Format.Field.ofName, style.ofName?_fieldName, hnumbering, h.1 other hnumbering] at hother
  exact hother rfl

/-- The field with the next number is looked up by it. -/
theorem Continues.nameOf_eq (h : s.Continues style n) :
    s.nameOf (.ofName (style.fieldName n)) = Text.ofNat n := by
  rw [nameOf, Format.Field.ofName, style.ofName?_fieldName]
  cases style with
  | automatic => rw [if_pos rfl, h.2 rfl, Numbering.fieldName, List.append_nil]
  | manual => rw [if_neg nofun, Numbering.fieldName]

end FieldState

namespace Template

/-- A number leads to the argument in its place. -/
theorem lookup_ofNat {args : Arguments} {n : ℕ} {value : Value}
    (hfits : n ≤ FieldPath.indexLimit) (h : args.positional[n]? = some value) :
    FieldPath.lookup args (Text.ofNat n) = .ok value := by
  have hpath : ∀ c ∈ ([] : Text).head?, FieldPath.beginsStep c = true := nofun
  have hlookup := (FieldPath.lookup_ofNat_append_eq_ok_iff hpath).mpr
    ⟨hfits, value, [], h, by rw [FieldPath.steps], rfl⟩
  rwa [List.append_nil] at hlookup

/-- Numbered fields take the arguments one after the other. -/
theorem fieldValues_numbered {args : Arguments} {style : Numbering} {s : FieldState}
    {earlier later : List Value} (hargs : args.positional = earlier ++ later)
    (hs : s.Continues style earlier.length)
    (hfits : args.positional.length ≤ FieldPath.indexLimit + 1) :
    fieldValues args s
      (later.mapIdx fun i _ => .ofName (style.fieldName (earlier.length + i))) = .ok later := by
  induction later generalizing earlier s with
  | nil => rfl
  | cons value later ih =>
    have hindex : earlier.length < args.positional.length := by
      rw [hargs, List.length_append, List.length_cons]
      omega
    have hlookup : FieldPath.lookup args (Text.ofNat earlier.length) = .ok value :=
      lookup_ofNat (by omega) (by simp [hargs])
    have hfirst : fieldValue args s (.ofName (style.fieldName earlier.length)) =
        .ok (value, s.after (.ofName (style.fieldName earlier.length))) :=
      fieldValue_eq_ok_iff.mpr ⟨rfl, hs.not_mixes, by rw [hs.nameOf_eq, hlookup], rfl⟩
    -- The value just taken moves to the values before, as the number after it comes next.
    have hrest := @ih (s.after (.ofName (style.fieldName earlier.length))) (earlier ++ [value])
      (by simpa using hargs) (by simpa using hs.after)
    rw [List.mapIdx_cons, fieldValues, Nat.add_zero, hfirst]
    refine except_map_eq_ok_iff.mpr ⟨later, ?_, rfl⟩
    simpa [Nat.add_assoc, Nat.add_comm 1] using hrest

/-- Any segments and as many positional arguments but one make the template that has them: the
segments are escaped and joined by fields without a name, or by fields with the numbers of the
arguments. -/
theorem ofFormat_escaped (first : Text) {rest : List Text} (args : Arguments)
    (hlength : rest.length = args.positional.length) (hfits : args.positional.length < 2 ^ 63) :
    ∃ t, t.segments = (first :: rest).map .text ∧ t.values = args.positional ∧
      ofFormat ("\x7b\x7d".toList.intercalate ((first :: rest).map Format.escaped)) args = .ok t ∧
      ofFormat (Format.ofSlots first (rest.mapIdx (Format.Slot.numbered .manual))) args =
        .ok t := by
  obtain ⟨t, hsegments, hvalues⟩ := exists_of_segments_of_values (.text first)
    (show (rest.map .text).length = args.positional.length by rw [List.length_map, hlength])
  have hread : ∀ style,
      ofFormat (Format.ofSlots first (rest.mapIdx (Format.Slot.numbered style))) args = .ok t := by
    intro style
    rw [ofFormat_ofSlots_eq_ok_iff, Format.afters_numbered, Format.fields_numbered style hlength,
      hvalues]
    refine ⟨hsegments, ?_⟩
    have hstart : FieldState.initial.Continues style ([] : List Value).length :=
      FieldState.initial_continues style
    have hindex : args.positional.length ≤ FieldPath.indexLimit + 1 := by
      rw [FieldPath.indexLimit]
      omega
    have hnumbered := fieldValues_numbered (List.nil_append _).symm hstart hindex
    simpa only [List.length_nil, Nat.zero_add] using hnumbered
  refine ⟨t, hsegments, hvalues, ?_, hread .manual⟩
  rw [← Format.ofSlots_automatic]
  exact hread .automatic

/-- Braces stand beside fields, and between them. -/
theorem ofFormat_escaped_braces :
    let args : Arguments := { positional := [.int 7, .null] }
    ∃ t, t.segments = ["\x7b".toList, "\x7d\x7b\x7d".toList, "\x7d = ".toList].map .text ∧
      t.values = args.positional ∧
      ofFormat "\x7b\x7b\x7b\x7d\x7d\x7d\x7b\x7b\x7d\x7d\x7b\x7d\x7d\x7d = ".toList args =
        .ok t ∧
      ofFormat "\x7b\x7b\x7b0\x7d\x7d\x7d\x7b\x7b\x7d\x7d\x7b1\x7d\x7d\x7d = ".toList args =
        .ok t :=
  ofFormat_escaped "\x7b".toList { positional := [.int 7, .null] } rfl (by decide)

end Template

end SqlComposer
