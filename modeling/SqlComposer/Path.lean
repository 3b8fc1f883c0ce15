import SqlComposer.Text.Basic

/-!
# Paths

A path is kept in normal form: empty parts and single dots are gone, while double dots stay. It is
relative, or begins at the root; exactly two slashes at the front are a root of their own.
-/

namespace SqlComposer

/-- Where a path begins. -/
inductive PathRoot
  | relative
  | absolute
  | doubled
  deriving DecidableEq, Repr

/-- A path in normal form. -/
structure Path where
  root : PathRoot
  parts : List Text
  deriving DecidableEq, Repr

/-- The owner of a home directory that is not known. -/
structure HomeUnknown where
  owner : Text
  deriving DecidableEq, Repr

/-- An unknown home directory in words. -/
def HomeUnknown.message (_ : HomeUnknown) : Text :=
  "Could not determine home directory.".toList

/-- The root that a text begins with. -/
def PathRoot.ofText : Text → PathRoot
  | '/' :: '/' :: '/' :: _ => .absolute
  | '/' :: '/' :: _ => .doubled
  | '/' :: _ => .absolute
  | _ => .relative

/-- The text of a root. -/
def PathRoot.text : PathRoot → Text
  | .relative => []
  | .absolute => ['/']
  | .doubled => ['/', '/']

namespace Path

/-- The path of a text. -/
def ofText (t : Text) : Path :=
  ⟨.ofText t, (t.splitOn '/').filter fun part => !(part.isEmpty || part == ['.'])⟩

/-- The text of a path; the empty path is a dot. -/
def text (p : Path) : Text :=
  match p.root.text ++ ['/'].intercalate p.parts with
  | [] => ['.']
  | t => t

/-- A path inside a directory. A path from the root stays as it is. -/
def inside (directory p : Path) : Path :=
  match p.root with
  | .relative => ⟨directory.root, directory.parts ++ p.parts⟩
  | _ => p

/-- Parts without the double dots that take back a part before them. -/
def withoutDetours (parts : List Text) : List Text :=
  parts.foldl (fun kept part =>
    if part == ['.', '.'] && !(kept.isEmpty || kept.getLast? == some ['.', '.']) then kept.dropLast
    else kept ++ [part]) []

/-- A path without detours. -/
def direct (p : Path) : Path :=
  ⟨p.root, withoutDetours p.parts⟩

/-- A path whose leading tilde is replaced by a home directory: that of the name after the tilde, or
without a name that of the user. -/
def expandHome (home? : Option Text → Option Text) (p : Path) : Except HomeUnknown Path :=
  match p.root, p.parts with
  | .relative, ('~' :: owner) :: parts =>
    match home? (if owner.isEmpty then none else some owner) with
    | some home => .ok ((ofText home).inside ⟨.relative, parts⟩)
    | none => .error ⟨owner⟩
  | _, _ => .ok p

end Path

end SqlComposer
