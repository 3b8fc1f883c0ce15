import SqlComposer.Path
import SqlComposer.Text.Quoted
import SqlComposer.Text.Utf8

/-!
# Reading files

A file is read by following its path from the working directory. What goes wrong on the way is an
error that names the path. The content is a text in UTF-8, in which every line end is a line feed.
-/

namespace SqlComposer

/-- What the file system can refuse. -/
inductive FileFault
  | missing
  | denied
  | notDirectory
  | directory
  | nameTooLong
  deriving DecidableEq, Repr

/-- What keeps a file from being read. -/
inductive FileError
  | refused (fault : FileFault) (path : Path)
  | encoding (fault : Utf8.Fault)
  /-- The path holds a zero character, and so is no path of the file system. -/
  | notPath
  deriving DecidableEq, Repr

/-- The number and the words of a fault. -/
def FileFault.message : FileFault → Text
  | .missing => "[Errno 2] No such file or directory".toList
  | .denied => "[Errno 13] Permission denied".toList
  | .notDirectory => "[Errno 20] Not a directory".toList
  | .directory => "[Errno 21] Is a directory".toList
  | .nameTooLong => "[Errno 36] File name too long".toList

/-- A file error in words. -/
def FileError.message : FileError → Text
  | .refused fault path => fault.message ++ ": ".toList ++ Text.quoted path.text
  | .encoding fault => fault.message
  | .notPath => "embedded null byte".toList

/-- Files by their paths from the working directory. -/
abbrev FileTree := List (List Text × List UInt8)

namespace FileTree

/-- Where a path leads. -/
inductive Place
  /-- A directory of the tree, by its parts. -/
  | directory (parts : List Text)
  /-- A directory around the tree, of which nothing else is known. -/
  | outside
  | file (content : List UInt8)

/-- Whether some file lies in a directory. -/
def hasDirectory (tree : FileTree) (parts : List Text) : Bool :=
  tree.any fun (path, _) => parts.isPrefixOf path && parts.length < path.length

/-- The longest name that a file can have, in octets. -/
def nameLimit : Nat := 255

/-- The length from which on a path is too long, in octets. -/
def pathLimit : Nat := 4096

/-- Where a further part of a path leads. -/
def step (tree : FileTree) (place : Place) (part : Text) : Except FileFault Place :=
  if part == ['.', '.'] then
    match place with
    | .directory [] | .outside => .ok .outside
    | .directory parts => .ok (.directory parts.dropLast)
    | .file _ => .error .notDirectory
  else
    match place with
    | .file _ => .error .notDirectory
    | .outside => .error (if nameLimit < (Utf8.encode part).length then .nameTooLong else .missing)
    | .directory parts =>
      let parts := parts ++ [part]
      match tree.reverse.lookup parts with
      | some content => .ok (.file content)
      | none =>
        if tree.hasDirectory parts then .ok (.directory parts)
        else .error (if nameLimit < (Utf8.encode part).length then .nameTooLong else .missing)

/-- The content of the file at a path. -/
def content (tree : FileTree) (path : Path) : Except FileFault (List UInt8) :=
  if pathLimit ≤ (Utf8.encode path.text).length then .error .nameTooLong
  else do
    let start := if path.root = .relative then .directory [] else .outside
    match ← path.parts.foldlM tree.step start with
    | .file content => return content
    | _ => .error .directory

/-- The octets of the file at a path. -/
def octets (tree : FileTree) (path : Path) : Except FileError (List UInt8) :=
  if path.text.contains '\x00' then .error .notPath
  else (tree.content path).mapError (.refused · path)

/-- The text of a file's octets. -/
def decode (octets : List UInt8) : Except FileError Text :=
  match Utf8.decode octets with
  | .ok t => .ok t.withLineFeeds
  | .error fault => .error (.encoding fault)

/-- The text of the file at a path. -/
def read (tree : FileTree) (path : Path) : Except FileError Text := do
  decode (← tree.octets path)

end FileTree

end SqlComposer
