import SqlComposer.Text.Basic

/-!
# Format templates

A format template is text with replacement fields in braces. A doubled brace is a literal one. A
field has a name, in which square brackets protect what is between them, then perhaps a conversion
character after `!` and a format specification after `:`, in which braces must balance.
-/

namespace SqlComposer.Format

/-- A replacement field. -/
structure Field where
  name : Text
  conversion : Option Char
  spec : Text
  deriving DecidableEq, Repr

/-- A part of a format template. -/
inductive Part
  | char (c : Char)
  | field (f : Field)
  deriving DecidableEq, Repr

/-- How a format template can be malformed. -/
inductive Fault
  | strayClose
  | strayOpen
  | openInName
  | unclosedField
  | noConversion
  | textAfterConversion
  | unclosedSpec
  deriving DecidableEq, Repr

/-- A conversion or a format specification is more than a name. The null character is no
conversion. -/
def Field.isDecorated (f : Field) : Bool :=
  !f.spec.isEmpty || f.conversion.any (· != '\x00')

/-- Adds a character to what was read before a rest. -/
def prepend (c : Char) (read : Text × Text) : Text × Text :=
  (c :: read.1, read.2)

/-- Reads a field name, inside or outside brackets, up to the character that ends it. -/
def readName (inBrackets : Bool) : Text → Except Fault (Text × Text)
  | [] => .error .unclosedField
  | c :: rest =>
    if inBrackets then prepend c <$> readName (c != ']') rest
    else if c = '\x7b' then .error .openInName
    else if c = '\x7d' ∨ c = ':' ∨ c = '!' then .ok ([], c :: rest)
    else prepend c <$> readName (c == '[') rest

/-- Reads a format specification inside so many braces, and the brace that closes the field. -/
def readSpec (depth : Nat) : Text → Except Fault (Text × Text)
  | [] => .error .unclosedSpec
  | c :: rest =>
    if c = '\x7b' then prepend c <$> readSpec (depth + 1) rest
    else if c = '\x7d' then
      match depth with
      | 0 => .ok ([], rest)
      | depth + 1 => prepend c <$> readSpec depth rest
    else prepend c <$> readSpec depth rest

/-- Reads what follows the name of a field. -/
def readDecoration (name : Text) : Text → Except Fault (Field × Text)
  | '\x7d' :: rest => .ok (⟨name, none, []⟩, rest)
  | ':' :: rest => do
    let (spec, rest) ← readSpec 0 rest
    return (⟨name, none, spec⟩, rest)
  | ['!'] => .error .noConversion
  | ['!', _] => .error .unclosedSpec
  | '!' :: c :: '\x7d' :: rest => .ok (⟨name, some c, []⟩, rest)
  | '!' :: c :: ':' :: rest => do
    let (spec, rest) ← readSpec 0 rest
    return (⟨name, some c, spec⟩, rest)
  | '!' :: _ => .error .textAfterConversion
  | _ => .error .unclosedField

/-- Reads a field after its opening brace. -/
def readField (t : Text) : Except Fault (Field × Text) := do
  let (name, rest) ← readName false t
  readDecoration name rest

/-- What follows a name is no longer than the text. -/
theorem readName_length {inBrackets : Bool} {t name rest : Text}
    (h : readName inBrackets t = .ok (name, rest)) : rest.length ≤ t.length := by
  induction t generalizing inBrackets name rest with
  | nil => simp [readName] at h
  | cons c t ih =>
    have step : ∀ {b : Bool}, prepend c <$> readName b t = .ok (name, rest) →
        rest.length ≤ (c :: t).length := by
      intro b hb
      cases hr : readName b t with
      | error e => simp [hr, Functor.map, Except.map] at hb
      | ok read =>
        obtain ⟨front, back⟩ := read
        simp only [hr, Functor.map, Except.map, prepend, Except.ok.injEq, Prod.mk.injEq] at hb
        have := ih hr
        simp only [← hb.2, List.length_cons]
        omega
    simp only [readName] at h
    split at h
    · exact step h
    · split at h
      · cases h
      · split at h
        · cases h
          simp
        · exact step h

/-- What follows a specification is no longer than the text. -/
theorem readSpec_length {depth : Nat} {t spec rest : Text}
    (h : readSpec depth t = .ok (spec, rest)) : rest.length ≤ t.length := by
  induction t generalizing depth spec rest with
  | nil => simp [readSpec] at h
  | cons c t ih =>
    have step : ∀ {d : Nat}, prepend c <$> readSpec d t = .ok (spec, rest) →
        rest.length ≤ (c :: t).length := by
      intro d hd
      cases hr : readSpec d t with
      | error e => simp [hr, Functor.map, Except.map] at hd
      | ok read =>
        obtain ⟨front, back⟩ := read
        simp only [hr, Functor.map, Except.map, prepend, Except.ok.injEq, Prod.mk.injEq] at hd
        have := ih hr
        simp only [← hd.2, List.length_cons]
        omega
    simp only [readSpec] at h
    split at h
    · exact step h
    · split at h
      · cases depth with
        | zero =>
          cases h
          simp
        | succ d => exact step h
      · exact step h

/-- What follows the decoration of a field is shorter than the text that begins with it. -/
theorem readDecoration_length {name t : Text} {f : Field} {rest : Text}
    (h : readDecoration name t = .ok (f, rest)) : rest.length < t.length := by
  have spec : ∀ {u : Text} {c : Option Char},
      (do let (s, r) ← readSpec 0 u; return (⟨name, c, s⟩, r) : Except Fault (Field × Text)) =
        .ok (f, rest) → rest.length ≤ u.length := by
    intro u c hu
    cases hr : readSpec 0 u with
    | error e => simp [hr, bind, Except.bind] at hu
    | ok read =>
      obtain ⟨front, back⟩ := read
      simp only [hr, bind, Except.bind, pure, Except.pure, Except.ok.injEq, Prod.mk.injEq] at hu
      have := readSpec_length hr
      rw [← hu.2]
      exact this
  unfold readDecoration at h
  split at h
  · cases h
    simp
  · have := spec h
    simp only [List.length_cons]
    omega
  · cases h
  · cases h
  · cases h
    simp only [List.length_cons]
    omega
  · have := spec h
    simp only [List.length_cons]
    omega
  · cases h
  · cases h

/-- A field takes at least one character. -/
theorem readField_length {t : Text} {f : Field} {rest : Text}
    (h : readField t = .ok (f, rest)) : rest.length < t.length := by
  unfold readField at h
  cases hn : readName false t with
  | error e => simp [hn, bind, Except.bind] at h
  | ok read =>
    obtain ⟨front, back⟩ := read
    simp only [hn, bind, Except.bind] at h
    have hname := readName_length hn
    have hrest := readDecoration_length h
    omega

/-- The parts of a format template. -/
def parts : Text → Except Fault (List Part)
  | [] => .ok []
  | '\x7b' :: '\x7b' :: rest => (.char '\x7b' :: ·) <$> parts rest
  | '\x7d' :: '\x7d' :: rest => (.char '\x7d' :: ·) <$> parts rest
  | ['\x7b'] => .error .strayOpen
  | '\x7d' :: _ => .error .strayClose
  | '\x7b' :: rest =>
    match _h : readField rest with
    | .error e => .error e
    | .ok (f, rest) => (.field f :: ·) <$> parts rest
  | c :: rest => (.char c :: ·) <$> parts rest
termination_by t => t.length
decreasing_by
  · simp only [List.length_cons]
    omega
  · simp only [List.length_cons]
    omega
  · have := readField_length _h
    simp only [List.length_cons]
    omega
  · simp only [List.length_cons]
    omega

/-- A malformation in words. -/
def Fault.message : Fault → Text
  | .strayClose => "Single '\x7d' encountered in format string".toList
  | .strayOpen => "Single '\x7b' encountered in format string".toList
  | .openInName => "unexpected '\x7b' in field name".toList
  | .unclosedField => "expected '\x7d' before end of string".toList
  | .noConversion => "end of string while looking for conversion specifier".toList
  | .textAfterConversion => "expected ':' after conversion specifier".toList
  | .unclosedSpec => "unmatched '\x7b' in format spec".toList

end SqlComposer.Format
