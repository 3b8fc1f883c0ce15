import SqlComposer.CommandLine.Usage

/-!
# Options

The options are collected from the arguments in order: of the file and the query the last one
counts, and the clauses are kept in order. The flags that one argument holds are all understood
before any of them acts. Values that no flag takes are left over. The separator never counts as a
value: a flag that it is attached to has an empty list of values.
-/

namespace SqlComposer.CommandLine

/-- The value of a flag. -/
inductive FlagValue
  | text (t : Text)
  /-- An empty list of values. -/
  | noValues
  deriving DecidableEq, Repr

/-- The value of a flag that a text is given to. -/
def FlagValue.ofText (t : Text) : FlagValue :=
  if t = separatorText then .noValues else .text t

/-- A value as it is written behind a keyword. -/
def FlagValue.written : FlagValue → Text
  | .text t => t
  | .noValues => ['[', ']']

/-- What the arguments ask for. -/
structure Options where
  file : Option FlagValue := none
  query : Option FlagValue := none
  /-- The keyword and the value of each clause flag. -/
  clauses : List (Text × FlagValue) := []
  deriving DecidableEq, Repr

/-- What ends the collecting of options early. -/
inductive Stop
  | help
  | misuse (e : Misuse)
  deriving DecidableEq, Repr

/-- A flag with the text that is given to it, if it takes a value. -/
structure GivenFlag where
  flag : Flag
  value : Option Text := none
  deriving DecidableEq, Repr

/-- The flags that an argument holds: those that are complete, and the one that waits for the next
argument. -/
structure Group where
  complete : List GivenFlag
  waiting : Option Flag
  deriving DecidableEq, Repr

/-- The group of a single flag. -/
def Group.single (f : Flag) : Group :=
  if f.takesValue then ⟨[], some f⟩ else ⟨[⟨f, none⟩], none⟩

/-- A group with a flag in front that takes no value. -/
def Group.after (f : Flag) (g : Group) : Group :=
  ⟨⟨f, none⟩ :: g.complete, g.waiting⟩

/-- The group of a flag with a text that can only be its value. -/
def Group.assigned (f : Flag) (value : Text) : Except Misuse Group :=
  if f.takesValue then .ok ⟨[⟨f, some value⟩], none⟩ else .error (.ignoredValue f value)

/-- The group of a short flag with a text behind it. The text is the value of the flag, or else it
holds further short flags. -/
def Group.joined (f : Flag) : Text → Except Misuse Group
  | [] => Group.assigned f []
  | c :: rest =>
    if f.takesValue then Group.assigned f (c :: rest)
    else
      match flag? ['-', c], rest with
      | none, _ => .error (.ignoredValue f (c :: rest))
      | some next, [] => .ok ((Group.single next).after f)
      | some next, rest => (Group.after f) <$> Group.joined next rest

/-- The group of a flag argument. -/
def Group.ofFlag (f : Flag) : Attachment → Except Misuse Group
  | .nothing => .ok (.single f)
  | .toShort t => Group.joined f t
  | .toLong t => Group.assigned f t

namespace Options

/-- The options with a value for what a flag is for. -/
def assign (o : Options) (value : FlagValue) : Purpose → Options
  | .help => o
  | .file => { o with file := some value }
  | .query => { o with query := some value }
  | .clause keyword => { o with clauses := o.clauses ++ [(keyword, value)] }

/-- The options after a flag has acted. -/
def act (o : Options) (s : GivenFlag) : Except Stop Options :=
  if s.flag.purpose = .help then .error .help
  else
    match s.value with
    | none => .ok o
    | some t => .ok (o.assign (.ofText t) s.flag.purpose)

/-- The options after further arguments, and the arguments that are left over. -/
def collect (o : Options) (leftOver : List Text) :
    List Argument → Except Stop (Options × List Text)
  | [] => .ok (o, leftOver)
  | .value t :: rest | .unknown t :: rest => collect o (leftOver ++ [t]) rest
  | .separator :: rest => collect o (leftOver ++ [separatorText]) rest
  | .flag f attached :: rest => do
    let group ← (Group.ofFlag f attached).mapError .misuse
    match group.waiting with
    | none =>
      let o ← group.complete.foldlM act o
      collect o leftOver rest
    | some g =>
      match rest with
      | .value t :: rest =>
        let o ← (group.complete ++ [(⟨g, some t⟩ : GivenFlag)]).foldlM act o
        collect o leftOver rest
      | _ => throw (.misuse (.missingValue g))

/-- The options of a command line. -/
def ofArguments (arguments : List Text) : Except Stop Options := do
  let arguments ← (classifyAll arguments).mapError (.misuse ∘ .ambiguous)
  match ← collect {} [] arguments with
  | (o, []) => return o
  | (_, leftOver) => throw (.misuse (.unrecognized leftOver))

end Options

end SqlComposer.CommandLine
