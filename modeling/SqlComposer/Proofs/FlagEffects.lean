import SqlComposer.CommandLine.Build
import SqlComposer.Proofs.KnownFlags

/-!
# What flags do to options

Arguments that spell a flag and give it a value change the options in one way, whatever the options
are and whatever arguments follow. So the effect of a command line is that of its parts, one after
the other. A text assigned to a long spelling is the value as it is, with further equals signs,
dashes and spellings of flags in it.
-/

namespace SqlComposer.CommandLine

/-! ## Arguments one after the other -/

/-- Texts hold these arguments, and the arguments change options in one way and leave nothing over,
whatever follows them. -/
structure Understood (texts : List Text) (arguments : List Argument)
    (change : Options → Options) : Prop where
  /-- The texts are the arguments. -/
  classifyAll_append : ∀ more,
    classifyAll (texts ++ more) = (arguments ++ ·) <$> classifyAll more
  /-- The arguments change the options. -/
  collect_append : ∀ o leftOver rest,
    Options.collect o leftOver (arguments ++ rest) = Options.collect (change o) leftOver rest

/-- Texts are understood, and change options in one way. -/
def Changes (texts : List Text) (change : Options → Options) : Prop :=
  ∃ arguments, Understood texts arguments change

/-- No texts change nothing. -/
theorem Changes.nil : Changes [] id :=
  ⟨[], fun more => by simp, fun _ _ _ => rfl⟩

/-- Changes are made one after the other. -/
theorem Changes.append {texts later : List Text} {change change' : Options → Options}
    (h : Changes texts change) (h' : Changes later change') :
    Changes (texts ++ later) (change' ∘ change) := by
  obtain ⟨arguments, hclassify, hcollect⟩ := h
  obtain ⟨arguments', hclassify', hcollect'⟩ := h'
  refine ⟨arguments ++ arguments', fun more => ?_, fun o leftOver rest => ?_⟩
  · rw [List.append_assoc, hclassify, hclassify']
    cases classifyAll more <;> simp
  · rw [List.append_assoc, hcollect, hcollect']
    rfl

/-- The options of texts that are understood are those that they change the empty ones to. -/
theorem Changes.ofArguments_eq {texts : List Text} {change : Options → Options}
    (h : Changes texts change) : Options.ofArguments texts = .ok (change {}) := by
  obtain ⟨arguments, hclassify, hcollect⟩ := h
  have hclassified : classifyAll texts = .ok arguments := by
    simpa [classifyAll, Functor.map, Except.map] using hclassify []
  have hcollected : Options.collect {} [] arguments = .ok (change {}, []) := by
    simpa [Options.collect] using hcollect {} [] []
  rw [Options.ofArguments, except_bind_eq_ok_iff]
  exact ⟨arguments, except_mapError_eq_ok_iff.mpr hclassified,
    except_bind_eq_ok_iff.mpr ⟨_, hcollected, rfl⟩⟩

/-! ## Long spellings -/

/-- A text assigned to a spelling. -/
def assigned (spelling value : Text) : Text :=
  spelling ++ '=' :: value

/-- The long spellings of flags that take a value. -/
def longSpellings : List (Text × Flag) :=
  spellings.filter fun (spelling, f) => isLong spelling && f.takesValue

/-- What tells that a text is the long spelling of a flag. -/
structure Spells (spelling : Text) (f : Flag) : Prop where
  /-- It is the spelling of the flag. -/
  flag?_eq : flag? spelling = some f
  /-- It is a long one. -/
  isLong : isLong spelling = true
  /-- It holds no equals sign. -/
  not_mem : '=' ∉ spelling
  /-- The flag takes a value. -/
  takesValue : f.takesValue = true

/-- The long spellings spell their flags. -/
theorem spells_of_mem {spelling : Text} {f : Flag} (h : (spelling, f) ∈ longSpellings) :
    Spells spelling f := by
  have hall : ∀ entry ∈ longSpellings, flag? entry.1 = some entry.2 ∧
      isLong entry.1 = true ∧ '=' ∉ entry.1 ∧ entry.2.takesValue = true := by
    decide +kernel
  obtain ⟨hflag, hlong, hassign, htakes⟩ := hall _ h
  exact ⟨hflag, hlong, hassign, htakes⟩

/-- No flag is spelled with an equals sign. -/
theorem flag?_assigned (spelling value : Text) : flag? (assigned spelling value) = none := by
  have hall : ∀ entry ∈ spellings, '=' ∉ entry.1 := by decide +kernel
  refine List.lookup_eq_none_iff.mpr fun entry hentry => ?_
  rw [bne_iff_ne]
  intro heq
  refine hall entry hentry ?_
  rw [← heq, assigned]
  simp

/-- A spelling with a value assigned to it is split at the first equals sign. -/
theorem splitAssigned_assigned {spelling : Text} (h : '=' ∉ spelling) (value : Text) :
    splitAssigned (assigned spelling value) = (spelling, some value) := by
  have hother : ∀ c ∈ spelling, (c != '=') = true :=
    fun c hc => bne_iff_ne.mpr fun heq => h (heq ▸ hc)
  have hdrop : (assigned spelling value).dropWhile (· != '=') = '=' :: value := by
    rw [assigned, List.dropWhile_append_of_pos hother]
    rfl
  have htake : (assigned spelling value).takeWhile (· != '=') = spelling := by
    rw [assigned, List.takeWhile_append_of_pos hother]
    simp
  rw [splitAssigned, hdrop, htake]

variable {spelling : Text} {f : Flag}

/-- A long spelling begins with two dashes. -/
theorem Spells.exists_eq (h : Spells spelling f) : ∃ rest, spelling = '-' :: '-' :: rest := by
  have hlong := h.isLong
  unfold CommandLine.isLong at hlong
  split at hlong
  · exact ⟨_, rfl⟩
  · cases hlong

/-- A text assigned to a long spelling is the value of its flag, whatever it holds. -/
theorem Spells.classify_assigned (h : Spells spelling f) (value : Text) :
    classify (assigned spelling value) = .ok (.flag f (.toLong value)) := by
  have hnone := flag?_assigned spelling value
  have hsplit := splitAssigned_assigned h.not_mem value
  have hbehind : Attachment.behind spelling (some value) = .toLong value := if_pos h.isLong
  obtain ⟨rest, hrest⟩ := h.exists_eq
  have hstart : assigned spelling value = '-' :: '-' :: (rest ++ '=' :: value) := by
    rw [hrest]
    rfl
  rw [hstart] at hnone hsplit ⊢
  simp only [classify, hnone, hsplit, h.flag?_eq, hbehind]

/-- A text that spells a flag is classified as the flag, with nothing attached. -/
theorem Spells.classify_eq (h : Spells spelling f) :
    classify spelling = .ok (.flag f .nothing) := by
  have hflag := h.flag?_eq
  obtain ⟨rest, rfl⟩ := h.exists_eq
  simp only [classify, hflag]

/-- What spells a flag that takes a value does not ask for help. -/
theorem Spells.purpose_ne (h : Spells spelling f) : f.purpose ≠ .help := by
  simpa [Flag.takesValue] using h.takesValue

/-- A flag that takes a value acts with it before the options are collected further. -/
theorem Spells.collect_given (h : Spells spelling f) (o : Options) (value : Text)
    (leftOver : List Text) (rest : List Argument) :
    ([(⟨f, some value⟩ : GivenFlag)].foldlM Options.act o >>= fun o' =>
        Options.collect o' leftOver rest) =
      Options.collect (o.assign (.ofText value) f.purpose) leftOver rest := by
  rw [List.foldlM_cons, Options.act, if_neg h.purpose_ne]
  rfl

/-- A flag that takes a value is given the text assigned to it. -/
theorem Spells.changes_assigned (h : Spells spelling f) (value : Text) :
    Changes [assigned spelling value] (·.assign (.ofText value) f.purpose) := by
  refine ⟨[.flag f (.toLong value)], fun more => ?_, fun o leftOver rest => ?_⟩
  · have hne : (assigned spelling value == separatorText) = false := by
      rw [beq_eq_false_iff_ne]
      intro heq
      have hmem : '=' ∈ separatorText := by
        rw [← heq, assigned]
        simp
      exact absurd hmem (by decide)
    rw [List.singleton_append, classifyAll, hne, h.classify_assigned]
    cases classifyAll more <;> rfl
  · have hgroup : Group.ofFlag f (.toLong value) = .ok ⟨[⟨f, some value⟩], none⟩ :=
      if_pos h.takesValue
    rw [List.singleton_append, Options.collect, hgroup]
    exact h.collect_given o value leftOver rest

/-- A flag that takes a value is given the next argument, if that looks like no flag. -/
theorem Spells.changes_next (h : Spells spelling f) {value : Text}
    (hvalue : classify value = .ok (.value value)) :
    Changes [spelling, value] (·.assign (.ofText value) f.purpose) := by
  refine ⟨[.flag f .nothing, .value value], fun more => ?_, fun o leftOver rest => ?_⟩
  · have hne : (spelling == separatorText) = false := by
      rw [beq_eq_false_iff_ne]
      rintro rfl
      cases h.flag?_eq
    have hne' : (value == separatorText) = false := by
      rw [beq_eq_false_iff_ne]
      rintro rfl
      cases hvalue
    simp only [List.cons_append, List.nil_append, classifyAll, hne, hne', h.classify_eq, hvalue]
    cases classifyAll more <;> rfl
  · have hgroup : Group.ofFlag f .nothing = .ok ⟨[], some f⟩ :=
      congrArg Except.ok (if_pos h.takesValue)
    rw [List.cons_append, List.singleton_append, Options.collect, hgroup]
    exact h.collect_given o value leftOver rest

/-! ## Clause flags -/

/-- The long spelling of each clause flag, with its keyword. -/
def clauseSpellings : List (Text × Text) :=
  longSpellings.filterMap fun (spelling, f) => f.purpose.keyword?.map (spelling, ·)

/-- Every keyword of a clause flag has a long spelling. -/
theorem clauseSpellings_map_snd : clauseSpellings.map Prod.snd = clauseKeywords := by
  decide +kernel

/-- A clause flag with a value assigned to it. -/
structure ClauseArgument where
  /-- How the flag is spelled. -/
  spelling : Text
  /-- The keyword of the flag. -/
  keyword : Text
  /-- The value. -/
  value : Text
  /-- The spelling is that of the flag with the keyword. -/
  mem_clauseSpellings : (spelling, keyword) ∈ clauseSpellings
  /-- The value is not the separator. -/
  value_ne : value ≠ separatorText

namespace ClauseArgument

/-- The argument as it is written. -/
def text (a : ClauseArgument) : Text :=
  assigned a.spelling a.value

/-- The clause that is asked for. -/
def clause (a : ClauseArgument) : Text × Text :=
  (a.keyword, a.value)

/-- The word of a clause is spelled by a flag for this clause. -/
theorem exists_spells (a : ClauseArgument) :
    ∃ f, Spells a.spelling f ∧ f.purpose = .clause a.keyword := by
  obtain ⟨⟨spelling, f⟩, hmem, hkeyword⟩ := List.mem_filterMap.mp a.mem_clauseSpellings
  obtain ⟨keyword, hpurpose, heq⟩ := Option.map_eq_some_iff.mp hkeyword
  cases heq
  refine ⟨f, spells_of_mem hmem, ?_⟩
  cases hf : f.purpose <;> simp_all [Purpose.keyword?]

/-- The keyword of a clause argument is one of the keywords of clauses. -/
theorem keyword_mem (a : ClauseArgument) : a.keyword ∈ clauseKeywords := by
  rw [← clauseSpellings_map_snd]
  exact List.mem_map_of_mem a.mem_clauseSpellings

end ClauseArgument

/-- A text that is no separator is the value of a flag as it is. -/
theorem FlagValue.ofText_of_ne {t : Text} (h : t ≠ separatorText) : ofText t = .text t :=
  if_neg h

/-- The options with further clauses. -/
def Options.withClauses (arguments : List ClauseArgument) (o : Options) : Options :=
  { o with clauses := o.clauses ++ arguments.map fun a => (a.keyword, .text a.value) }

/-- Clause flags add their clauses in order. -/
theorem changes_clauses (arguments : List ClauseArgument) :
    Changes (arguments.map ClauseArgument.text) (Options.withClauses arguments) := by
  induction arguments with
  | nil =>
    have hsame : Options.withClauses [] = id := by
      funext o
      simp [Options.withClauses]
    rw [hsame]
    exact Changes.nil
  | cons a arguments ih =>
    obtain ⟨f, hf, hpurpose⟩ := a.exists_spells
    have hfirst := hf.changes_assigned a.value
    rw [hpurpose, FlagValue.ofText_of_ne a.value_ne] at hfirst
    have hboth : Options.withClauses (a :: arguments) =
        Options.withClauses arguments ∘
          fun o => o.assign (.text a.value) (.clause a.keyword) := by
      funext o
      simp [Options.withClauses, Options.assign]
    rw [hboth]
    exact hfirst.append ih

/-- Further clauses are written behind those of the options. -/
theorem Options.writtenClauses_withClauses (arguments : List ClauseArgument) (o : Options) :
    (o.withClauses arguments).writtenClauses =
      o.writtenClauses ++ arguments.map ClauseArgument.clause := by
  rw [writtenClauses, withClauses, List.map_append, List.map_map]
  rfl

/-- The options of another value among clause flags: the clauses are those of the flags, in order,
and the rest is as if the value were given alone. -/
theorem Changes.exists_options {texts : List Text} {value : FlagValue} {purpose : Purpose}
    (h : Changes texts (·.assign value purpose)) (hpurpose : purpose.keyword? = none)
    (earlier later : List ClauseArgument) :
    ∃ o, Options.ofArguments (earlier.map ClauseArgument.text ++ (texts ++
        later.map ClauseArgument.text)) = .ok o ∧
      o.file = (Options.assign {} value purpose).file ∧
      o.query = (Options.assign {} value purpose).query ∧
      o.writtenClauses = (earlier ++ later).map ClauseArgument.clause := by
  have hchanges := (changes_clauses earlier).append (h.append (changes_clauses later))
  refine ⟨_, hchanges.ofArguments_eq, ?_⟩
  simp only [Function.comp_apply, Options.writtenClauses_withClauses, List.map_append]
  have hfront : (Options.withClauses earlier {}).writtenClauses =
      earlier.map ClauseArgument.clause := Options.writtenClauses_withClauses earlier {}
  cases purpose with
  | clause keyword => cases hpurpose
  | _ => exact ⟨rfl, rfl, congrArg (· ++ _) hfront⟩

end SqlComposer.CommandLine
