import SqlComposer.Text.Basic

/-!
# Environments and files of variables

An environment is a list of variables in the order in which they were first set. Setting a variable
again keeps its place.

A file of variables holds statements of the form `NAME = VALUE`, with an optional `export` in front.
A value may stand in quotes, and then may run over several lines; outside of quotes it ends with the
line or before a comment, which needs a blank in front. A name without an equals sign is mentioned
but not set. Where a statement cannot be read, the rest of the line is passed over. In values,
references to variables are replaced. A byte order mark in front of the file is passed over.
-/

namespace SqlComposer

/-- Variables with their values, in the order in which they were first set. -/
abbrev Variables (α : Type) := List (Text × α)

namespace Variables

variable {α : Type}

/-- The variables with one of them set. -/
def assign (name : Text) (value : α) : Variables α → Variables α
  | [] => [(name, value)]
  | (other, old) :: rest =>
    if other = name then (name, value) :: rest else (other, old) :: assign name value rest

/-- The variables without one of them. -/
def unassign (name : Text) (vs : Variables α) : Variables α :=
  vs.filter fun (other, _) => other != name

/-- The value of a variable whose name is given in lower case, letter case ignored. Of several such
variables the last one counts. -/
def ignoringCase? (name : Text) (vs : Variables α) : Option α :=
  (vs.reverse.find? fun (other, _) => other.map Char.toLower == name).map Prod.snd

end Variables

/-- The environment of a program. -/
abbrev Environment := Variables Text

namespace EnvFile

/-- A variable and its value, as a file sets it. -/
structure Binding where
  name : Text
  value : Option Text
  deriving DecidableEq, Repr

/-- Whether a character is a blank inside a line. -/
def isInnerBlank (c : Char) : Bool :=
  Text.isBlank c && c != '\n'

/-- What follows the blanks of a line. -/
def skipBlanks (t : Text) : Text :=
  t.dropWhile isInnerBlank

/-- What follows the line. -/
def skipLine (t : Text) : Text :=
  (t.dropWhile (· != '\n')).tail

/-- What follows an optional `export` with blanks after it. -/
def afterExport (t : Text) : Text :=
  let word := "export".toList
  if word.isPrefixOf t then
    match t.drop word.length with
    | c :: rest => if isInnerBlank c then skipBlanks rest else t
    | [] => t
  else t

/-- Whether a character can stand in a name without quotes. -/
def isNameChar (c : Char) : Bool :=
  c != '=' && c != '#' && !Text.isBlank c

/-- The name at the start of a statement and what follows it, or the place where reading fails; a
comment has no name. -/
def name (t : Text) : Except Text (Option Text × Text) :=
  match t with
  | '#' :: _ => .ok (none, t)
  | '\'' :: inner =>
    match inner.takeWhile (· != '\''), inner.dropWhile (· != '\'') with
    | c :: name, _ :: rest => .ok (some (c :: name), rest)
    | _, _ => .error t
  | t =>
    match t.takeWhile isNameChar with
    | [] => .error t
    | c :: name => .ok (some (c :: name), t.dropWhile isNameChar)

/-- What a backslash and a letter stand for between double quotes. -/
def doubleEscapes : List (Char × Char) :=
  [('\\', '\\'), ('\'', '\''), ('"', '"'), ('a', '\x07'), ('b', '\x08'), ('f', '\x0c'), ('n', '\n'),
    ('r', '\r'), ('t', '\t'), ('v', '\x0b')]

/-- What a backslash and a letter stand for between single quotes. -/
def singleEscapes : List (Char × Char) :=
  [('\\', '\\'), ('\'', '\'')]

/-- A text with its escapes replaced. -/
def unescape (escapes : List (Char × Char)) : Text → Text
  | [] => []
  | '\\' :: c :: rest =>
    match escapes.lookup c with
    | some d => d :: unescape escapes rest
    | none => '\\' :: unescape escapes (c :: rest)
  | c :: rest => c :: unescape escapes rest

/-- The text before a closing quote, and the text after it. The character after a backslash never
closes. -/
def close? (mark : Char) : Text → Option (Text × Text)
  | [] => none
  | '\\' :: c :: rest =>
    (close? mark rest).map fun (inner, after) => ('\\' :: c :: inner, after)
  | c :: rest =>
    if c = mark then some ([], rest)
    else (close? mark rest).map fun (inner, after) => (c :: inner, after)

/-- A line without the comment that begins after a blank. -/
def withoutComment : Text → Text
  | [] => []
  | c :: rest =>
    if Text.isBlank c && (Text.trimStart rest).head? == some '#' then []
    else c :: withoutComment rest

/-- The value after an equals sign. The blanks in front of it do not count, save that a comment may
follow them. -/
def value (t : Text) : Except Text (Text × Text) :=
  match skipBlanks t with
  | '\'' :: inner => quotedValue '\'' singleEscapes inner
  | '"' :: inner => quotedValue '"' doubleEscapes inner
  | _ => .ok (Text.trim (withoutComment (t.takeWhile (· != '\n'))), t.dropWhile (· != '\n'))
where
  /-- The value after an opening quote. -/
  quotedValue (mark : Char) (escapes : List (Char × Char)) (inner : Text) :
      Except Text (Text × Text) :=
    match close? mark inner with
    | some (body, rest) => .ok (unescape escapes body, rest)
    | none => .error t

/-- The value of a name, if an equals sign follows it. -/
def assigned (t : Text) : Except Text (Option Text × Text) :=
  match t with
  | '=' :: rest => (fun (v, rest) => (some v, rest)) <$> value rest
  | t => .ok (none, t)

/-- What follows an optional comment and the end of the line. -/
def lineEnd (t : Text) : Except Text Text :=
  match skipBlanks t with
  | [] => .ok []
  | '\n' :: rest => .ok rest
  | '#' :: rest => .ok (skipLine rest)
  | _ => .error t

/-- A statement with its line. -/
def statement (t : Text) : Except Text (Option Binding × Text) := do
  let (name, rest) ← name (afterExport t)
  let (value, rest) ← assigned (skipBlanks rest)
  let rest ← lineEnd rest
  return (name.map fun name => ⟨name, value⟩, rest)

/-- The bindings of at most so many statements. -/
def someBindings : Nat → Text → List Binding
  | 0, _ => []
  | n + 1, t =>
    match Text.trimStart t with
    | [] => []
    | t =>
      match statement t with
      | .ok (binding, rest) => binding.toList ++ someBindings n rest
      | .error rest => someBindings n (skipLine rest)

/-- A text without the byte order mark in front of it. -/
def withoutByteOrderMark : Text → Text
  | '\ufeff' :: rest => rest
  | t => t

/-- The bindings of a file. Each statement takes at least one character. -/
def bindings (file : Text) : List Binding :=
  someBindings file.length file

/-- The name and the default of a reference after a dollar sign and an opening brace, with what
follows the reference. -/
def reference? (t : Text) : Option (Text × Text × Text) :=
  let isNameEnd := fun c => c == '\x7d' || c == ':'
  let name := t.takeWhile (!isNameEnd ·)
  match t.dropWhile (!isNameEnd ·) with
  | '\x7d' :: rest => some (name, [], rest)
  | ':' :: '-' :: rest =>
    match rest.dropWhile (· != '\x7d') with
    | _ :: after => some (name, rest.takeWhile (· != '\x7d'), after)
    | [] => none
  | _ => none

/-- What follows a reference is no longer than the text that begins with it. -/
theorem reference?_length {t name default rest : Text}
    (h : reference? t = some (name, default, rest)) : rest.length ≤ t.length := by
  simp only [reference?] at h
  have hall := (List.dropWhile_suffix (l := t) fun c => !(c == '\x7d' || c == ':')).length_le
  split at h
  · rename_i heq
    cases h
    rw [heq] at hall
    simp only [List.length_cons] at hall
    omega
  · rename_i more heq
    rw [heq] at hall
    have hmore := (List.dropWhile_suffix (l := more) (· != '\x7d')).length_le
    split at h
    · rename_i heq'
      cases h
      rw [heq'] at hmore
      simp only [List.length_cons] at hall hmore
      omega
    · cases h
  · cases h

/-- A text with its references replaced; a variable that is not known is replaced by the default. -/
def expand (known : Text → Option Text) : Text → Text
  | [] => []
  | '$' :: '\x7b' :: rest =>
    match _h : reference? rest with
    | some (name, default, after) => (known name).getD default ++ expand known after
    | none => '$' :: expand known ('\x7b' :: rest)
  | c :: rest => c :: expand known rest
termination_by t => t.length
decreasing_by
  · have := reference?_length _h
    simp only [List.length_cons]
    omega
  · simp
  · simp

/-- The value that a reference is replaced by: that of an earlier variable of the file, where one
that is not set counts as empty, or else that of the environment. -/
def known? (environment : Environment) (vs : Variables (Option Text)) (name : Text) : Option Text :=
  match vs.lookup name with
  | some value => some (value.getD [])
  | none => environment.lookup name

/-- The variables that a file mentions, with the values that it sets. -/
def assignments (environment : Environment) (file : Text) : Variables (Option Text) :=
  (bindings (Text.withLineFeeds (withoutByteOrderMark file))).foldl
    (fun vs b => vs.assign b.name (b.value.map (expand (known? environment vs)))) []

end EnvFile

end SqlComposer
